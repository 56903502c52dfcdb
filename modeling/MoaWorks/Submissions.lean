-- The transaction behind a submission, statement by statement: the row of the
-- gateway queue is its lock, and what it writes shows when it commits.
import MoaWorks.Actors
import MoaWorks.Lib.Locks
import MoaWorks.Lib.Machine
import MoaWorks.ProviderConfigs
import MoaWorks.SubmissionMessage
import Mathlib

namespace moaworks.mail_submission_operations

open directory_store (Status)
open mail_provider_configs (ProviderRow)
open Raise (require found)

/-! ## Tables -/

structure User where
  company_id : String
  email : String
  status : Status
  deriving DecidableEq, Repr

structure Account where
  user_id : String
  email : String
  status : Status
  deriving DecidableEq, Repr

structure Credential where
  company_id : String
  user_id : String
  username : String
  active : Bool
  revoked_at : Option Time
  deriving DecidableEq, Repr

/-- What the administration of the companies owns; `domains` is the
`mail_domain` of each company. -/
structure Directory where
  users : Table String User
  accounts : Table String Account
  credentials : Table String Credential
  domains : Table String String
  providers : Table String ProviderRow

/-- A row of `mail_submission_messages`. -/
structure Source where
  original_sha256 : String
  raw_sha256 : String
  mail_message_id : Option String
  stored_at : Option Time
  created_at : Time
  deriving DecidableEq, Repr

/-- A row of `mail_submission_recipients`. -/
structure Accepted where
  disposition : String
  created_at : Time
  deriving DecidableEq, Repr

/-- A row of `mail_messages`. -/
structure Mail where
  company_id : String
  sender_user_id : String
  sender_account_id : String
  sender_email : String
  attachment_count : Nat
  raw_sha256 : String
  raw_size : Nat
  created_at : Time
  deriving DecidableEq, Repr

structure MailRecipient where
  message_id : String
  recipient_user_id : Option String
  recipient_email : String
  recipient_kind : String
  received_at : Option Time
  is_spam : Bool
  deriving DecidableEq, Repr

/-- A row of `mail_delivery_queue`. -/
structure Delivery where
  company_id : String
  provider_config_id : String
  mail_id : String
  recipient_id : String
  created_at : Time
  deriving DecidableEq, Repr

inductive Processing
  | spooled
  | processed
  | quarantined
  deriving DecidableEq, Repr

/-- A row of `mail_inbound_messages` with a `submission_queue_id`. -/
structure Inbound where
  id : String
  content_sha256 : String
  envelope_from : String
  security_disposition : Disposition
  processing_status : Processing
  mail_message_id : Option String
  received_at : Time
  deriving DecidableEq, Repr

structure InboundRecipient where
  recipient_email : String
  disposition : Disposition
  mail_recipient_id : Option String
  created_at : Time
  deriving DecidableEq, Repr

/-- A company and the id of a gateway queue. -/
abbrev QueueKey := String × String

/-- The tables under their keys: the rows of a gateway queue under the queue,
its accepted recipients under queue and address, the inbound messages under
their unique index, and their recipients under message and user. -/
structure Db where
  directory : Directory
  messages : Table QueueKey Source
  recipients : Table (QueueKey × String) Accepted
  mails : Table String Mail
  mail_recipients : Table String MailRecipient
  deliveries : Table String Delivery
  inbound : Table QueueKey Inbound
  inbound_recipients : Table (String × String) InboundRecipient

/-! ## The queries -/

structure Actor where
  user_id : String
  company_id : String
  account_id : String
  deriving DecidableEq, Repr

namespace Directory

variable (d : Directory)

/-- One row of the join that finds the sender. -/
def actorRow (sender credential_id account_id : String) : Option Actor := do
  let c ← d.credentials.rows credential_id
  let u ← d.users.rows c.user_id
  let a ← d.accounts.rows account_id
  let mail_domain ← d.domains.rows u.company_id
  if u.company_id = c.company_id ∧ a.user_id = c.user_id ∧ c.active = true ∧ c.revoked_at = none ∧
      u.status = .active ∧ a.status = .active ∧ Text.lower c.username = sender ∧
      Text.lower u.email = sender ∧ Text.lower a.email = sender ∧
      Text.lower (Text.afterLast '@' a.email) = Text.lower mail_domain then
    some ⟨c.user_id, u.company_id, account_id⟩
  else none

/-- What `fetchone` may give: any of the rows, or none when there is none. -/
def actorFound (sender : String) (pick : Option (String × String)) (actor : Option Actor) : Prop :=
  match pick with
  | some (credential_id, account_id) =>
    actor.isSome ∧ actor = d.actorRow sender credential_id account_id
  | none => actor = none ∧ ∀ credential_id ∈ d.credentials.keys, ∀ account_id ∈ d.accounts.keys,
      d.actorRow sender credential_id account_id = none

instance (sender : String) (pick : Option (String × String)) (actor : Option Actor) :
    Decidable (d.actorFound sender pick actor) := by
  unfold actorFound
  cases pick <;> exact inferInstance

/-- There is an active account of the company with this address. -/
def localUser (company_id recipient : String) : Bool :=
  decide (d.users.select (fun user_id u => decide (u.company_id = company_id) &&
    decide (Text.lower u.email = recipient) && decide (u.status = .active) &&
    decide (d.accounts.select (fun _ a => decide (a.user_id = user_id) &&
      decide (Text.lower a.email = recipient) && decide (a.status = .active))).Nonempty)).Nonempty

def localDomain (company_id recipient : String) : Bool :=
  (d.domains.rows company_id).any (fun mail_domain =>
    decide (Text.lower mail_domain = Text.afterLast '@' recipient))

/-- `OutboundProviderResolver.resolve`. -/
def resolve (company_id : String) : Option (String × ProviderRow) :=
  match d.providers.selectOrdered (fun _ row =>
      decide (row.company_id = company_id) && row.active) with
  | [id] => (d.providers.rows id).map (fun row => (id, row))
  | _ => none

/-- The users that the query of `ingest` selects. -/
def receivers (company_id recipient : String) : Finset String :=
  d.users.select (fun _ u => decide (u.company_id = company_id) && decide (u.status = .active) &&
    decide (Text.lower u.email = recipient) && (d.domains.rows u.company_id).any (fun mail_domain =>
      decide (Text.lower (Text.afterLast '@' u.email) = Text.lower mail_domain)))

/-- Administration: no user goes, and company and address of a user stay. -/
def Grows (d d' : Directory) : Prop :=
  ∀ user_id ∈ d.users.keys, (d'.users.rows user_id).map (fun u => (u.company_id, u.email)) =
    (d.users.rows user_id).map (fun u => (u.company_id, u.email))

instance (d d' : Directory) : Decidable (d.Grows d') :=
  inferInstanceAs (Decidable (∀ user_id ∈ d.users.keys, _))

end Directory

/-! ## Sessions -/

/-- The answer of `submit`. -/
structure Answer where
  duplicate : Bool
  disposition : String
  deriving DecidableEq, Repr

/-- What a session knows with the lock of the queue: the row as it stands
there, and whether the session has inserted it. -/
structure Work where
  submission : Submission
  actor : Actor
  source : Source
  inserted : Bool
  deriving DecidableEq, Repr

namespace Work

def queue (work : Work) : QueueKey := (work.actor.company_id, work.submission.queue_id)

def key (work : Work) : QueueKey × String := (work.queue, work.submission.recipient)

end Work

/-- Where a session is: after the statement that the name says. -/
inductive Session
  | idle (answer : Option (Except Error Answer))
  | asked (submission : Submission)
  | known (submission : Submission) (actor : Actor)
  /-- After `INSERT … ON CONFLICT DO NOTHING`. -/
  | claimed (submission : Submission) (actor : Actor) (inserted : Bool)
  /-- After `SELECT … FOR UPDATE` and the two checks behind it. -/
  | selected (work : Work)
  | located (work : Work) (localUser : Bool)
  | placed (work : Work) (internal : Bool)
  /-- With the provider, or without one for an internal recipient. -/
  | routed (work : Work) (provider_id : Option String)
  /-- In `ingest`, which has found the user. -/
  | ingesting (work : Work) (user_id : String)
  deriving DecidableEq, Repr

/-- A commit: by whom, and the tables before and after it. -/
structure Commit where
  work : Work
  before : Db
  after : Db

/-- The committed tables, the locks on the rows of the gateway queues, the
sessions, and the commits so far, oldest first. -/
structure World where
  db : Db
  sources : Locks QueueKey Nat
  sessions : Nat → Session
  commits : List Commit

namespace World

def put (w : World) (t : Nat) (session : Session) : World :=
  { w with sessions := fun u => if u = t then session else w.sessions u }

/-- The end of a transaction. -/
def finish (w : World) (t : Nat) (answer : Except Error Answer) : World :=
  { w.put t (.idle (some answer)) with sources := w.sources.release t }

end World

/-! ## The statements of `submit` -/

/-- The query for the sender; `pick` is the row that it gives. -/
def know (w : World) (t : Nat) (pick : Option (String × String)) : Option World :=
  match w.sessions t with
  | .asked s =>
    let actor := pick.bind (fun row => w.db.directory.actorRow s.sender row.1 row.2)
    if w.db.directory.actorFound s.sender pick actor then
      match actor with
      | none => some (w.finish t (.error (.value_error "활성 SMTP 발신 계정을 찾을 수 없습니다.")))
      | some actor => some (w.put t (.known s actor))
    else none
  | _ => none

/-- The row of a new queue. -/
def newSource (s : Submission) : Source := ⟨s.original_digest, s.digest, none, none, s.now⟩

/-- `INSERT … ON CONFLICT DO NOTHING` waits for another insert of the row. -/
def claim (w : World) (t : Nat) : Option World :=
  match w.sessions t with
  | .known s actor =>
    match w.db.messages.rows (actor.company_id, s.queue_id) with
    | some _ => some (w.put t (.claimed s actor false))
    | none =>
      if w.sources.open_to t (actor.company_id, s.queue_id) then
        some { w.put t (.claimed s actor true) with
          sources := w.sources.take t (actor.company_id, s.queue_id) }
      else none
  | _ => none

def queueConflict : Error := .value_error "SMTP queue 원문 충돌입니다."

/-- The row that the session sees: its own, or the committed one. -/
def visible (db : Db) (s : Submission) (actor : Actor) (inserted : Bool) : Option Source :=
  if inserted then some (newSource s) else db.messages.rows (actor.company_id, s.queue_id)

/-- `SELECT … FOR UPDATE`, the comparison of the digests, and the query for a duplicate. -/
def select (w : World) (t : Nat) : Option World :=
  match w.sessions t with
  | .claimed s actor inserted =>
    if w.sources.open_to t (actor.company_id, s.queue_id) then
      match visible w.db s actor inserted with
      | none => some (w.finish t (.error .failure))
      | some source =>
        if source.original_sha256 ≠ s.original_digest ∨ source.raw_sha256 ≠ s.digest then
          some (w.finish t (.error queueConflict))
        else match w.db.recipients.rows ((actor.company_id, s.queue_id), s.recipient) with
          | some row => some (w.finish t (.ok ⟨true, row.disposition⟩))
          | none =>
            some { w.put t (.selected ⟨s, actor, source, inserted⟩) with
              sources := w.sources.take t (actor.company_id, s.queue_id) }
    else none
  | _ => none

/-- The query for a local account. -/
def locate (w : World) (t : Nat) : Option World :=
  match w.sessions t with
  | .selected work =>
    some (w.put t (.located work
      (w.db.directory.localUser work.actor.company_id work.submission.recipient)))
  | _ => none

/-- The query for the domain of the company. -/
def place (w : World) (t : Nat) : Option World :=
  match w.sessions t with
  | .located work isLocal =>
    let domain := w.db.directory.localDomain work.actor.company_id work.submission.recipient
    if domain = true ∧ isLocal = false then
      some (w.finish t (.error (.value_error "활성 동일 회사 내부 수신 계정을 찾을 수 없습니다.")))
    else some (w.put t (.placed work (isLocal && domain)))
  | _ => none

def providerAllowed (row : ProviderRow) : Except Error Unit := do
  require row.passesGate (.unavailable "회사 발송 정책이 잠겨 있습니다.")
  require (row.provider_type ∈ ["oci_email_delivery", "self_hosted", "self_hosted_smtp"])
    (.unavailable "SMTP 원문 발송 Provider를 사용할 수 없습니다.")

/-- A queue whose mail was stored and is deleted takes no further recipient. -/
def stillOpen (source : Source) : Except Error Unit :=
  require (¬ (source.mail_message_id = none ∧ source.stored_at ≠ none))
    (.value_error "삭제된 SMTP queue에 수신자를 추가할 수 없습니다.")

/-- The provider of a recipient that is not internal, and the check of the tombstone. -/
def provider (d : Directory) (work : Work) (internal : Bool) : Except Error (Option String) := do
  if internal then
    stillOpen work.source
    return none
  else
    let found ← found (d.resolve work.actor.company_id)
      (.unavailable "회사 발송 정책을 사용할 수 없습니다.")
    providerAllowed found.2
    stillOpen work.source
    return some found.1

def route (w : World) (t : Nat) : Option World :=
  match w.sessions t with
  | .placed work internal =>
    match provider w.db.directory work internal with
    | .error error => some (w.finish t (.error error))
    | .ok provider_id => some (w.put t (.routed work provider_id))
  | _ => none

/-- The query of `ingest` for the user; `pick` is the row that `LIMIT 1` gives. -/
def ingest (w : World) (t : Nat) (pick : Option String) : Option World :=
  match w.sessions t with
  | .routed work none =>
    let receivers := w.db.directory.receivers work.actor.company_id work.submission.recipient
    match pick with
    | some user_id =>
      if user_id ∈ receivers then some (w.put t (.ingesting work user_id)) else none
    | none =>
      if receivers = ∅ then
        some (w.finish t (.error (.value_error "활성 수신 계정을 찾을 수 없습니다.")))
      else none
  | _ => none

/-! ## What a submission writes -/

/-- The ids that one call draws. -/
structure NewIds where
  mail : String
  recipient : String
  delivery : String
  inbound : String
  deriving DecidableEq, Repr

def newMail (work : Work) : Mail where
  company_id := work.actor.company_id
  sender_user_id := work.actor.user_id
  sender_account_id := work.actor.account_id
  sender_email := work.submission.sender
  attachment_count := work.submission.attachments
  raw_sha256 := work.submission.digest
  raw_size := work.submission.size
  created_at := work.submission.now

/-- The mail of the queue: the one that is stored, or a new one. -/
def storeMail (db : Db) (work : Work) (id : String) : Except Error (Db × String) :=
  match work.source.mail_message_id with
  | some mail_id => .ok (db, mail_id)
  | none => do
    require (db.mails.rows id = none) (.unique_violation "mail_messages_pkey")
    return ({ db with
      mails := db.mails.set id (newMail work)
      messages := db.messages.set work.queue { work.source with
        mail_message_id := some id, stored_at := some work.submission.now } }, id)

def insertMailRecipient (db : Db) (id : String) (row : MailRecipient) : Except Error Db := do
  require (db.mail_recipients.rows id = none) (.unique_violation "mail_recipients_pkey")
  return { db with mail_recipients := db.mail_recipients.set id row }

/-- The two rows of a recipient behind a provider. -/
def queueDelivery (db : Db) (work : Work) (ids : NewIds) (mail_id provider_id : String) :
    Except Error Db := do
  let db ← insertMailRecipient db ids.recipient
    ⟨mail_id, none, work.submission.recipient, work.submission.recipient_kind, none, false⟩
  require (db.deliveries.rows ids.delivery = none) (.unique_violation "mail_delivery_queue_pkey")
  return { db with
    deliveries := db.deliveries.set ids.delivery
      ⟨work.actor.company_id, provider_id, mail_id, ids.recipient, work.submission.now⟩ }

/-- The row of the inbound message, as the INSERT returns it. -/
def upsertInbound (db : Db) (work : Work) (id : String) : Except Error (Db × Inbound) :=
  match db.inbound.rows work.queue with
  | some row => .ok (db, row)
  | none => do
    require (¬ (db.inbound.select (fun _ row => decide (row.id = id))).Nonempty)
      (.unique_violation "mail_inbound_messages_pkey")
    let row : Inbound := ⟨id, work.submission.digest, work.submission.sender,
      work.submission.disposition, .spooled, none, work.submission.now⟩
    return ({ db with inbound := db.inbound.set work.queue row }, row)

/-- `ingest` behind its query for the user, in the transaction of the submission. -/
def deliverInbound (db : Db) (work : Work) (ids : NewIds) (mail_id user_id : String) :
    Except Error Db := do
  let s := work.submission
  let (db, inbound) ← upsertInbound db work ids.inbound
  match db.inbound_recipients.rows (inbound.id, user_id) with
  | some _ => return db
  | none =>
    if s.disposition = .quarantine then
      return { db with
        inbound_recipients := db.inbound_recipients.set (inbound.id, user_id)
          ⟨s.recipient, s.disposition, none, s.now⟩
        inbound := db.inbound.set work.queue { inbound with processing_status := .quarantined } }
    else
      let message_id := inbound.mail_message_id.getD mail_id
      let db ← insertMailRecipient db ids.recipient ⟨message_id, some user_id, s.recipient,
        s.recipient_kind, some s.now, decide (s.disposition = .spam)⟩
      return { db with
        inbound_recipients := db.inbound_recipients.set (inbound.id, user_id)
          ⟨s.recipient, s.disposition, some ids.recipient, s.now⟩
        inbound := db.inbound.set work.queue
          { inbound with mail_message_id := some message_id, processing_status := .processed } }

def Disposition.text : Disposition → String
  | inbox => "internal"
  | spam => "spam"
  | quarantine => "quarantine"

/-- The INSERT that accepts the recipient. -/
def accept (db : Db) (work : Work) (disposition : String) : Except Error Db := do
  require (db.recipients.rows work.key = none)
    (.unique_violation "mail_submission_recipients_pkey")
  return { db with
    recipients := db.recipients.set work.key ⟨disposition, work.submission.now⟩ }

/-- All writes of a recipient behind a provider. -/
def writesOutbound (db : Db) (work : Work) (ids : NewIds) (provider_id : String) : Except Error Db := do
  let (db, mail_id) ← storeMail db work ids.mail
  let db ← queueDelivery db work ids mail_id provider_id
  accept db work "queued"

/-- All writes of an internal recipient. -/
def writesInternal (db : Db) (work : Work) (ids : NewIds) (user_id : String) : Except Error Db := do
  let (db, mail_id) ← storeMail db work ids.mail
  let db ← deliverInbound db work ids mail_id user_id
  accept db work work.submission.disposition.text

/-- The commit, or what the last statements raise. -/
def close (w : World) (t : Nat) (work : Work) (disposition : String) (result : Except Error Db) :
    World :=
  match result with
  | .error error => w.finish t (.error error)
  | .ok db => { w.finish t (.ok ⟨false, disposition⟩) with
      db := db
      commits := w.commits ++ [⟨work, w.db, db⟩] }

def commit (w : World) (t : Nat) (ids : NewIds) : Option World :=
  match w.sessions t with
  | .routed work (some provider_id) =>
    some (close w t work "queued" (writesOutbound w.db work ids provider_id))
  | .ingesting work user_id =>
    some (close w t work work.submission.disposition.text
      (writesInternal w.db work ids user_id))
  | _ => none

/-! ## The machine -/

/-- A rollback, for whatever reason. -/
def abort (w : World) (t : Nat) (error : Error) : Option World :=
  match w.sessions t with
  | .idle _ => none
  | _ => some (w.finish t (.error error))

/-- The deletion of a mail, with the rows that refer to it. -/
def Db.deleteMail (db : Db) (mail_id : String) : Db :=
  { db with
    mails := db.mails.erase mail_id
    mail_recipients := db.mail_recipients.filter (fun _ row => decide (row.message_id ≠ mail_id))
    deliveries := db.deliveries.filter (fun _ row => decide (row.mail_id ≠ mail_id))
    messages := db.messages.update (fun _ row => decide (row.mail_message_id = some mail_id))
      (fun row => { row with mail_message_id := none })
    inbound := db.inbound.update (fun _ row => decide (row.mail_message_id = some mail_id))
      (fun row => { row with mail_message_id := none })
    inbound_recipients := db.inbound_recipients.update
      (fun _ row => (row.mail_recipient_id.bind db.mail_recipients.rows).any
        (fun recipient => decide (recipient.message_id = mail_id)))
      (fun row => { row with mail_recipient_id := none }) }

/-- The rows of the gateway queues that a deletion writes, which it waits for. -/
def sourcesOf (db : Db) (mail_id : String) : Finset QueueKey :=
  db.messages.select (fun _ row => decide (row.mail_message_id = some mail_id))

inductive Action
  | ask (t : Nat) (call : Call)
  | know (t : Nat) (pick : Option (String × String))
  | claim (t : Nat)
  | select (t : Nat)
  | locate (t : Nat)
  | place (t : Nat)
  | route (t : Nat)
  | ingest (t : Nat) (pick : Option String)
  | commit (t : Nat) (ids : NewIds)
  | abort (t : Nat) (error : Error)
  | administer (directory : Directory)
  | delete (mail_id : String)

/-- A session that is idle begins a call. -/
def ask (env : Environment) (w : World) (t : Nat) (call : Call) : Option World :=
  match w.sessions t with
  | .idle _ =>
    match submission env call with
    | .error error => some (w.finish t (.error error))
    | .ok s => some (w.put t (.asked s))
  | _ => none

def step (env : Environment) (w : World) : Action → Option World
  | .ask t call => ask env w t call
  | .know t pick => know w t pick
  | .claim t => claim w t
  | .select t => select w t
  | .locate t => locate w t
  | .place t => place w t
  | .route t => route w t
  | .ingest t pick => ingest w t pick
  | .commit t ids => commit w t ids
  | .abort t error => abort w t error
  | .administer directory =>
    if w.db.directory.Grows directory then
      some { w with db := { w.db with directory := directory } }
    else none
  | .delete mail_id =>
    if ∀ key ∈ sourcesOf w.db mail_id, w.sources.holder key = none then
      some { w with db := w.db.deleteMail mail_id }
    else none

/-- A start: no gateway queue has submitted anything yet. -/
structure Start (w : World) : Prop where
  messages : w.db.messages = Table.empty
  recipients : w.db.recipients = Table.empty
  inbound : w.db.inbound = Table.empty
  inbound_recipients : w.db.inbound_recipients = Table.empty
  quiet : ∀ t, ∃ answer, w.sessions t = .idle answer
  commits : w.commits = []

def machine (env : Environment) : Machine World Action where
  Start := Start
  step := step env

end moaworks.mail_submission_operations
