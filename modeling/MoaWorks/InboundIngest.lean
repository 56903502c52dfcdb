-- Mail from outside, from `MailInboundOperations`: one call of `ingest` for each
-- recipient. The row of company and content is its lock, and the names of the stored
-- attachments are unique over all companies.
import MoaWorks.Lib.History
import MoaWorks.Submissions
import Std.Data.String.ToNat

namespace moaworks.mail_inbound_operations

open mail_submission_operations (Bytes Disposition Error Processing User)
open Raise (require)

/-! ## Messages -/

structure InboundAttachment where
  file_name : String
  content_type : String
  content : Bytes
  deriving DecidableEq, Repr

/-- What `_SHA256` matches. -/
def isSha256 (s : String) : Bool :=
  decide (s.toList.length = 64) && s.toList.all (fun c => c.isDigit || (decide ('a' ≤ c) && decide (c ≤ 'f')))

/-- A `hexdigest` of SHA-256. -/
abbrev Digest := { s : String // isSha256 s = true }

/-- What the parser of the standard library finds in raw bytes. `from_name` has its
white space collapsed, and `body_html` its inline images in it. -/
structure Mime where
  message_id : String
  from_name : String
  from_address : String
  subject : String
  body_text : String
  body_html : String
  authentication_results : List String
  spam_header : String
  spam_result : String
  virus_status : String
  /-- The name, if there is one, the type and the content of each attachment. -/
  attachments : List (String × String × Bytes)
  deriving DecidableEq, Repr

/-- The parser and the hash of the standard library. -/
structure Environment where
  parse : Bytes → Except Error Mime
  sha256 : Bytes → Digest

structure ParsedInboundMessage where
  message_id : String
  content_sha256 : Digest
  sender_email : String
  sender_display_name : String
  subject : String
  body_text : String
  body_html : Option String
  authentication_results : List String
  spam_header : String
  spam_result : String
  virus_status : String
  attachments : List InboundAttachment
  deriving DecidableEq, Repr

/-- `s[:n]`. -/
def cut (n : Nat) (s : String) : String := String.ofList (s.toList.take n)

def inboundAttachment (part : String × String × Bytes) : InboundAttachment where
  file_name := cut 255 (if part.1 = "" then "attachment.bin" else part.1)
  content_type := part.2.1
  content := part.2.2

def parse_inbound_message (env : Environment) (raw_message : Bytes) :
    Except Error ParsedInboundMessage := do
  require (raw_message ≠ []) (.value_error "빈 SMTP 메시지는 처리할 수 없습니다.")
  let message ← env.parse raw_message
  let digest := env.sha256 raw_message
  return {
    message_id := if message.message_id = "" then "<" ++ digest.1 ++ "@inbound.local>"
      else message.message_id
    content_sha256 := digest
    sender_email := Text.lower (Text.strip message.from_address)
    sender_display_name := cut 100 message.from_name
    subject := message.subject
    body_text := message.body_text
    body_html := if message.body_html = "" then none else some message.body_html
    authentication_results := message.authentication_results
    spam_header := message.spam_header
    spam_result := message.spam_result
    virus_status := message.virus_status
    attachments := message.attachments.map inboundAttachment }

def classify_inbound_security (message : ParsedInboundMessage) : Disposition :=
  let virus_status := Text.lower (Text.strip message.virus_status)
  if virus_status ≠ "" ∧ ¬ "clean".toList <+: virus_status.toList then .quarantine
  else if Text.lower (Text.strip message.spam_header) ∈ ["yes", "true", "1"] ∨
      "default: true".toList <:+: (Text.lower message.spam_result).toList then .spam
  else .inbox

/-! ## The file store -/

/-- The files below the root, by their paths. -/
abbrev Files := Table String Bytes

/-- The path of a file of a message, relative to the root. -/
def relative (content_sha256 : Digest) (file_name : String) : String :=
  "mail/inbound/" ++ cut 2 content_sha256.1 ++ "/" ++ content_sha256.1 ++ "/" ++ file_name

def attachmentName (index : Nat) : String := "attachment-" ++ Nat.repr index ++ ".bin"

/-- `MailInboundStorage._store`. A digest passes the check of the name and leaves the
path below the root. -/
def store (files : Files) (content_sha256 : Digest) (file_name : String) (content : Bytes) :
    Except Error Files :=
  match files.rows (relative content_sha256 file_name) with
  | some stored =>
    if stored ≠ content then
      .error (.value_error "같은 식별자의 저장 내용이 일치하지 않습니다.")
    else .ok files
  | none => .ok (files.set (relative content_sha256 file_name) content)

def store_raw (files : Files) (content_sha256 : Digest) (content : Bytes) : Except Error Files :=
  store files content_sha256 "raw.eml" content

def store_attachment (files : Files) (content_sha256 : Digest) (index : Nat) (content : Bytes) :
    Except Error Files :=
  store files content_sha256 (attachmentName index) content

/-! ## Tables -/

structure Directory where
  users : Table String User
  /-- The `mail_domain` of each company. -/
  domains : Table String String

/-- A row of `mail_inbound_messages` without a `submission_queue_id`. -/
structure Inbound where
  id : String
  internet_message_id : String
  raw_storage_key : String
  envelope_from : String
  header_from : String
  authentication_results : List String
  spam_result : String
  virus_status : String
  security_disposition : Disposition
  processing_status : Processing
  mail_message_id : Option String
  received_at : Time
  processed_at : Option Time
  updated_at : Time
  deriving DecidableEq, Repr

/-- A row of `mail_inbound_recipients`. -/
structure InboundRecipient where
  recipient_email : String
  disposition : Disposition
  mail_recipient_id : Option String
  created_at : Time
  deriving DecidableEq, Repr

/-- A row of `mail_messages`. -/
structure Mail where
  company_id : String
  sender_email : String
  sender_display_name : String
  subject : String
  body_text : String
  body_html : Option String
  attachment_count : Nat
  created_at : Time
  deriving DecidableEq, Repr

/-- A row of `mail_attachments`. -/
structure Attachment where
  message_id : String
  file_name : String
  content_type : String
  size_bytes : Nat
  storage_key : Option String
  created_at : Time
  deriving DecidableEq, Repr

/-- A row of `mail_recipients`. -/
structure MailRecipient where
  message_id : String
  recipient_user_id : Option String
  recipient_email : String
  recipient_kind : String
  received_at : Option Time
  is_spam : Bool
  delivery_source : String
  deriving DecidableEq, Repr

/-- A company and a content, which is unique in `mail_inbound_messages`. -/
abbrev Key := String × Digest

structure Db where
  inbound : Table Key Inbound
  /-- Under message and user, which are unique. -/
  inbound_recipients : Table (String × String) InboundRecipient
  mails : Table String Mail
  attachments : Table String Attachment
  mail_recipients : Table String MailRecipient

namespace Db

/-- The mail that an inbound message has become. -/
def mailOf (db : Db) (key : Key) : Option String :=
  (db.inbound.rows key).bind Inbound.mail_message_id

/-- `uq_mail_attachments_storage_key` has this name already. -/
def taken (db : Db) (storage_key : String) : Bool :=
  decide (db.attachments.select (fun _ row =>
    decide (row.storage_key = some storage_key))).Nonempty

/-- The user has this inbound message already. -/
def known (db : Db) (key : Key) (user_id : String) : Bool :=
  (db.inbound.rows key).any (fun row => (db.inbound_recipients.rows (row.id, user_id)).isSome)

end Db

/-! ## Sessions -/

structure Call where
  envelope_from : String
  recipient_email : String
  raw_message : Bytes
  now : Time
  deriving DecidableEq, Repr

/-- A call behind its parser, with the disposition of the message. -/
structure Request where
  call : Call
  recipient_email : String
  parsed : ParsedInboundMessage
  disposition : Disposition
  deriving DecidableEq, Repr

/-- A call that has found its recipient. -/
structure Work where
  request : Request
  user_id : String
  company_id : String
  deriving DecidableEq, Repr

namespace Work

def digest (work : Work) : Digest := work.request.parsed.content_sha256

def key (work : Work) : Key := (work.company_id, work.digest)

def now (work : Work) : Time := work.request.call.now

end Work

structure MailInboundIngestResult where
  inbound_id : String
  disposition : Disposition
  duplicate : Bool
  deriving DecidableEq, Repr

/-- Where a session is: after the statement that the name says. -/
inductive Session
  | idle
  | asked (request : Request)
  | located (work : Work)
  | spooled (work : Work)
  /-- With the row of company and content, inserted or updated. -/
  | held (work : Work)
  /-- With a new mail and its attachments. -/
  | attached (work : Work)
  deriving DecidableEq, Repr

/-- A commit: of which call, with which result, and the tables before and after it. -/
structure Commit where
  work : Work
  result : MailInboundIngestResult
  before : Db
  after : Db

/-- The committed tables, the files, the locks on the rows of `mail_inbound_messages`, who
has inserted the attachments of a content, the sessions, the commits and the failures so
far, oldest first, and the calls that were taken for reports of a delivery, each with the
active users of its address. -/
structure World where
  directory : Directory
  db : Db
  files : Files
  rows : Locks Key Nat
  contents : Locks Digest Nat
  sessions : Nat → Session
  commits : List Commit
  failures : List (Call × Error)
  reports : List (Call × Finset String)

namespace World

def put (w : World) (t : Nat) (session : Session) : World :=
  { w with sessions := fun u => if u = t then session else w.sessions u }

/-- The end of a transaction. -/
def finish (w : World) (t : Nat) : World :=
  { w.put t .idle with rows := w.rows.release t, contents := w.contents.release t }

/-- A call that raises. -/
def fail (w : World) (t : Nat) (call : Call) (error : Error) : World :=
  { w.finish t with failures := w.failures ++ [(call, error)] }

end World

/-! ## The statements of `ingest` -/

/-- Such an address goes to `MailDeliveryFeedbackOperations`. -/
def isBounce (recipient_email : String) : Bool :=
  decide ("bounce+".toList <+: (Text.lower (Text.strip recipient_email)).toList)

def request (env : Environment) (call : Call) : Except Error Request := do
  let parsed ← parse_inbound_message env call.raw_message
  return {
    call := call
    recipient_email := Text.lower (Text.strip call.recipient_email)
    parsed := parsed
    disposition := classify_inbound_security parsed }

def ask (env : Environment) (w : World) (t : Nat) (call : Call) : Option World :=
  match w.sessions t with
  | .idle =>
    if isBounce call.recipient_email then none
    else match request env call with
      | .error error => some (w.fail t call error)
      | .ok request => some (w.put t (.asked request))
  | _ => none

/-- The users that the query for the recipient selects. -/
def Directory.receivers (d : Directory) (recipient_email : String) : Finset String :=
  d.users.select (fun _ u => decide (u.status = .active) &&
    decide (Text.lower u.email = recipient_email) && (d.domains.rows u.company_id).any
      (fun mail_domain => decide (Text.lower (Text.afterLast '@' u.email) = Text.lower mail_domain)))

/-- A report for a bounce address: it keeps the raw message, and no table here changes. -/
def feedback (env : Environment) (w : World) (call : Call) : Option World :=
  if isBounce call.recipient_email then
    let receivers := w.directory.receivers (Text.lower (Text.strip call.recipient_email))
    match store_raw w.files (env.sha256 call.raw_message) call.raw_message with
    | .error error => some { w with failures := w.failures ++ [(call, error)] }
    | .ok files => some { w with files := files, reports := w.reports ++ [(call, receivers)] }
  else none

def noRecipient : Error := .value_error "활성 수신 계정을 찾을 수 없습니다."

/-- The query for the recipient; `pick` is the row that `LIMIT 1` gives. -/
def locate (w : World) (t : Nat) (pick : Option String) : Option World :=
  match w.sessions t with
  | .asked request =>
    let receivers := w.directory.receivers request.recipient_email
    match pick with
    | some user_id =>
      if user_id ∈ receivers then
        (w.directory.users.rows user_id).map (fun user =>
          w.put t (.located ⟨request, user_id, user.company_id⟩))
      else none
    | none => if receivers = ∅ then some (w.fail t request.call noRecipient) else none
  | _ => none

def spool (w : World) (t : Nat) : Option World :=
  match w.sessions t with
  | .located work =>
    match store_raw w.files work.digest work.request.call.raw_message with
    | .error error => some (w.fail t work.request.call error)
    | .ok files => some { w.put t (.spooled work) with files := files }
  | _ => none

/-- `INSERT … ON CONFLICT DO UPDATE` waits for the row and locks it. -/
def upsert (w : World) (t : Nat) : Option World :=
  match w.sessions t with
  | .spooled work =>
    if w.rows.open_to t work.key then
      some { w.put t (.held work) with rows := w.rows.take t work.key }
    else none
  | _ => none

/-- The loop over the attachments, which have indices from `index` on: each is stored and
inserted. The names of one message differ, so only rows of others are in the way. -/
def insertAttachments (db : Db) (content_sha256 : Digest) :
    List InboundAttachment → Nat → Files → Files × Except Error Unit
  | [], _, files => (files, .ok ())
  | attachment :: rest, index, files =>
    match store_attachment files content_sha256 index attachment.content with
    | .error error => (files, .error error)
    | .ok files =>
      if db.taken (relative content_sha256 (attachmentName index)) then
        (files, .error (.unique_violation "uq_mail_attachments_storage_key"))
      else insertAttachments db content_sha256 rest (index + 1) files

/-- A recipient that is new to the message, and the message to the company: the mail and
its attachments, which wait for another insert of the same names. -/
def attach (w : World) (t : Nat) : Option World :=
  match w.sessions t with
  | .held work =>
    if w.db.known work.key work.user_id = false ∧ work.request.disposition ≠ .quarantine ∧
        w.db.mailOf work.key = none ∧
        (work.request.parsed.attachments ≠ [] → w.contents.open_to t work.digest = true) then
      match insertAttachments w.db work.digest work.request.parsed.attachments 0 w.files with
      | (files, .error error) => some { w.fail t work.request.call error with files := files }
      | (files, .ok ()) => some { w.put t (.attached work) with
          files := files
          contents := if work.request.parsed.attachments = [] then w.contents
            else w.contents.take t work.digest }
    else none
  | _ => none

/-! ## What a call writes -/

/-- The ids that one call draws. -/
structure NewIds where
  inbound : String
  mail : String
  attachments : List String
  recipient : String
  deriving DecidableEq, Repr

/-- No id comes twice. -/
structure NewIds.Fresh (ids : NewIds) (db : Db) (work : Work) : Prop where
  inbound : ∀ key ∈ db.inbound.keys, ((db.inbound.rows key).map Inbound.id) ≠ some ids.inbound
  mail : ids.mail ∉ db.mails.keys
  attachments : ∀ id ∈ ids.attachments, id ∉ db.attachments.keys
  length : ids.attachments.length = work.request.parsed.attachments.length
  nodup : ids.attachments.Nodup
  recipient : ids.recipient ∉ db.mail_recipients.keys

instance (ids : NewIds) (db : Db) (work : Work) : Decidable (ids.Fresh db work) :=
  decidable_of_iff ((∀ key ∈ db.inbound.keys,
      ((db.inbound.rows key).map Inbound.id) ≠ some ids.inbound) ∧
      ids.mail ∉ db.mails.keys ∧ (∀ id ∈ ids.attachments, id ∉ db.attachments.keys) ∧
      ids.attachments.length = work.request.parsed.attachments.length ∧ ids.attachments.Nodup ∧
      ids.recipient ∉ db.mail_recipients.keys)
    ⟨fun ⟨a, b, c, d, e, f⟩ => ⟨a, b, c, d, e, f⟩, fun ⟨a, b, c, d, e, f⟩ => ⟨a, b, c, d, e, f⟩⟩

def newInbound (work : Work) (id : String) : Inbound where
  id := id
  internet_message_id := work.request.parsed.message_id
  raw_storage_key := relative work.digest "raw.eml"
  envelope_from := Text.lower (Text.strip work.request.call.envelope_from)
  header_from := work.request.parsed.sender_email
  authentication_results := work.request.parsed.authentication_results
  spam_result := work.request.parsed.spam_result
  virus_status := work.request.parsed.virus_status
  security_disposition := work.request.disposition
  processing_status := .spooled
  mail_message_id := none
  received_at := work.now
  processed_at := none
  updated_at := work.now

/-- The row that `INSERT … ON CONFLICT DO UPDATE` returns. -/
def returned (db : Db) (work : Work) (id : String) : Inbound :=
  match db.inbound.rows work.key with
  | some row => { row with updated_at := work.now }
  | none => newInbound work id

def newMail (work : Work) : Mail where
  company_id := work.company_id
  sender_email := work.request.parsed.sender_email
  sender_display_name := work.request.parsed.sender_display_name
  subject := work.request.parsed.subject
  body_text := work.request.parsed.body_text
  body_html := work.request.parsed.body_html
  attachment_count := work.request.parsed.attachments.length
  created_at := work.now

def newAttachment (work : Work) (message_id : String) (index : Nat)
    (attachment : InboundAttachment) : Attachment where
  message_id := message_id
  file_name := attachment.file_name
  content_type := attachment.content_type
  size_bytes := attachment.content.length
  storage_key := some (relative work.digest (attachmentName index))
  created_at := work.now

/-- The rows of the attachments, under their ids. -/
def setAttachments (work : Work) (message_id : String) :
    List (String × InboundAttachment) → Nat → Table String Attachment → Table String Attachment
  | [], _, table => table
  | (id, attachment) :: rest, index, table =>
    setAttachments work message_id rest (index + 1)
      (table.set id (newAttachment work message_id index attachment))

/-- The new mail with its attachments. -/
def storeMail (db : Db) (work : Work) (ids : NewIds) : Db :=
  { db with
    mails := db.mails.set ids.mail (newMail work)
    attachments := setAttachments work ids.mail
      (ids.attachments.zip work.request.parsed.attachments) 0 db.attachments }

/-- A recipient that has the message already: only the time of the row changes. -/
def touch (db : Db) (work : Work) (id : String) : Db :=
  { db with inbound := db.inbound.set work.key (returned db work id) }

def quarantine (db : Db) (work : Work) (id : String) : Db :=
  let row := returned db work id
  { db with
    inbound := db.inbound.set work.key
      { row with processing_status := .quarantined, processed_at := some work.now }
    inbound_recipients := db.inbound_recipients.set (row.id, work.user_id)
      ⟨work.request.recipient_email, work.request.disposition, none, work.now⟩ }

def deliver (db : Db) (work : Work) (ids : NewIds) (message_id : String) : Db :=
  let row := returned db work ids.inbound
  { db with
    mail_recipients := db.mail_recipients.set ids.recipient
      ⟨message_id, some work.user_id, work.request.recipient_email, "to", some work.now,
        decide (work.request.disposition = .spam), "external_smtp"⟩
    inbound_recipients := db.inbound_recipients.set (row.id, work.user_id)
      ⟨work.request.recipient_email, work.request.disposition, some ids.recipient, work.now⟩
    inbound := db.inbound.set work.key
      { row with
        mail_message_id := some message_id
        processing_status := .processed
        processed_at := some work.now } }

/-- The commit of a call whose tables are `db`. -/
def close (w : World) (t : Nat) (work : Work) (id : String) (duplicate : Bool) (db : Db) : World :=
  { w.finish t with
    db := db
    commits := w.commits ++
      [⟨work, ⟨(returned w.db work id).id, work.request.disposition, duplicate⟩, w.db, db⟩] }

/-- What the row of company and content says is what it said: its lock is held. -/
def commit (w : World) (t : Nat) (ids : NewIds) : Option World :=
  match w.sessions t with
  | .held work =>
    if ids.Fresh w.db work then
      if w.db.known work.key work.user_id then
        some (close w t work ids.inbound true (touch w.db work ids.inbound))
      else if work.request.disposition = .quarantine then
        some (close w t work ids.inbound false (quarantine w.db work ids.inbound))
      else (w.db.mailOf work.key).map (fun message_id =>
        close w t work ids.inbound false (deliver w.db work ids message_id))
    else none
  | .attached work =>
    if ids.Fresh w.db work then
      some (close w t work ids.inbound false (deliver (storeMail w.db work ids) work ids ids.mail))
    else none
  | _ => none

/-! ## The machine -/

def Session.call : Session → Option Call
  | idle => none
  | asked request => some request.call
  | located work | spooled work | held work | attached work => some work.request.call

/-- A lost connection, a full disk and the like: a rollback. -/
def abort (w : World) (t : Nat) : Option World :=
  (w.sessions t).call.map (fun call => w.fail t call .failure)

/-- Administration: no user goes, and the company of a user stays. -/
def Directory.Grows (d d' : Directory) : Prop :=
  ∀ user_id ∈ d.users.keys, (d'.users.rows user_id).map User.company_id =
    (d.users.rows user_id).map User.company_id

instance (d d' : Directory) : Decidable (d.Grows d') :=
  inferInstanceAs (Decidable (∀ user_id ∈ d.users.keys, _))

inductive Action
  | ask (t : Nat) (call : Call)
  | feedback (call : Call)
  | locate (t : Nat) (pick : Option String)
  | spool (t : Nat)
  | upsert (t : Nat)
  | attach (t : Nat)
  | commit (t : Nat) (ids : NewIds)
  | abort (t : Nat)
  | administer (directory : Directory)

def step (env : Environment) (w : World) : Action → Option World
  | .ask t call => ask env w t call
  | .feedback call => feedback env w call
  | .locate t pick => locate w t pick
  | .spool t => spool w t
  | .upsert t => upsert w t
  | .attach t => attach w t
  | .commit t ids => commit w t ids
  | .abort t => abort w t
  | .administer directory =>
    if w.directory.Grows directory then some { w with directory := directory } else none

/-- A start: nothing has come from outside yet, and the other mails have their foreign keys. -/
structure Start (w : World) : Prop where
  inbound : w.db.inbound = Table.empty
  inbound_recipients : w.db.inbound_recipients = Table.empty
  recipients : ∀ id row, w.db.mail_recipients.rows id = some row →
    (w.db.mails.rows row.message_id).isSome
  attachments : ∀ id row, w.db.attachments.rows id = some row →
    (w.db.mails.rows row.message_id).isSome
  names : ∀ digest index, w.db.taken (relative digest (attachmentName index)) = false
  files : ∀ digest file_name, w.files.rows (relative digest file_name) = none
  quiet : ∀ t, w.sessions t = .idle
  commits : w.commits = []
  failures : w.failures = []
  reports : w.reports = []

def machine (env : Environment) : Machine World Action where
  Start := Start
  step := step env

end moaworks.mail_inbound_operations
