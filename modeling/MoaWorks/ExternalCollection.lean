-- The worker that collects external mail: one run of it, step by step, between the requests of
-- the users, the other runs and the servers.
import Mathlib.Algebra.GroupWithZero.Nat
import MoaWorks.ExternalAccounts

namespace moaworks.mail_external

/-- The tables, and the remote mailbox of each account with the sessions of its runs. -/
structure Store where
  db : Db
  drops : String → Maildrop String

def Store.setDrop (s : Store) (account_id : String) (d : Maildrop String) : Store :=
  { s with drops := fun k => if k = account_id then d else s.drops k }

def WORKER : String := "mail-external-worker"

structure ClaimedJob where
  id : String
  row : CollectionJob
  deriving DecidableEq, Repr

/-- What `_context` reads of an account and its owner. -/
structure Context where
  account_id : String
  account : Account
  owner : User
  deriving DecidableEq, Repr

/-! ## Jobs -/

/-- The rows that `_enqueue_scheduled` takes back or gives up. -/
def leaseExpired (now : Time) (job : CollectionJob) : Bool :=
  decide (job.status = .running) && job.lease_expires_at.any (fun t => decide (t < now))

def takeBack (now : Time) (job : CollectionJob) : CollectionJob :=
  if job.attempt_count < 3 then
    { job with
      status := .queued, lease_owner := none, lease_expires_at := none, next_attempt_at := now }
  else
    { job with
      status := .failed, error_code := some "MAIL_EXTERNAL_LEASE_EXHAUSTED",
      completed_at := some now, lease_owner := none, lease_expires_at := none }

/-- The accounts that are due. -/
def dueAccounts (now : Time) (db : Db) : List (String × Account) :=
  (db.accounts.orderedBy (fun _ => 0)).filter (fun (_, a) => a.deleted_at.isNone && a.enabled &&
    decide (a.connection_status = .success) && decide (a.next_collect_at.getD now ≤ now))

/-- One turn of the loop over the due accounts. -/
def enqueue_one (now : Time) (db : Db) (due : String × String × Account) : Db :=
  (insert_job due.1 (queuedJob due.2.1 due.2.2.company_id due.2.2.user_id .scheduled now) db).getD
    db

/-- `_enqueue_scheduled` after its SELECT; `ids` are the ids of the new jobs. -/
def _enqueue_scheduled (now : Time) (due : List (String × Account)) (ids : List String) (db : Db) :
    Db :=
  (ids.zip due).foldl (enqueue_one now)
    { db with jobs := db.jobs.update (fun _ job => leaseExpired now job) (takeBack now) }

def claimedRow (now : Time) (job : CollectionJob) : CollectionJob :=
  { job with
    status := .running
    lease_owner := some WORKER
    lease_expires_at := some (now + minutes 5)
    attempt_count := job.attempt_count + 1
    started_at := job.started_at.or (some now) }

def _claim (now : Time) (locked : List String) (db : Db) : Option ClaimedJob × Db :=
  match (db.jobs.orderedBy CollectionJob.created_at).find? (fun (id, job) =>
      decide (job.status = .queued) && decide (job.next_attempt_at ≤ now) &&
      decide (id ∉ locked)) with
  | none => (none, db)
  | some (id, job) => (some ⟨id, claimedRow now job⟩, db.setJob id (claimedRow now job))

def _context (job : ClaimedJob) (db : Db) : Option Context :=
  match ownAccount db ⟨job.row.user_id, job.row.company_id⟩ job.row.account_id,
      db.users.rows job.row.user_id with
  | some account, some owner => some ⟨job.row.account_id, account, owner⟩
  | _, _ => none

def leasedJob (db : Db) (job_id : String) : Option CollectionJob :=
  (db.jobs.rows job_id).filter (fun job =>
    decide (job.status = .running) && decide (job.lease_owner = some WORKER))

def _heartbeat (job_id : String) (now : Time) (db : Db) : Bool × Db :=
  match leasedJob db job_id with
  | none => (false, db)
  | some job => (true, db.setJob job_id { job with lease_expires_at := some (now + minutes 5) })

/-- Gives `false` when the lease is lost. -/
def _finalize (job : ClaimedJob) (status : JobStatus) (counts : Counts) (code : Option String)
    (now : Time) (db : Db) : Bool × Db :=
  match leasedJob db job.id with
  | none => (false, db)
  | some row =>
    let db := db.setJob job.id { row with
      status := status
      counts := counts
      error_code := code
      completed_at := some now
      lease_owner := none
      lease_expires_at := none }
    let collected := fun (a : Account) => { a with
      last_collect_at := some now, next_collect_at := some (now + minutes 10) }
    let own := fun id (_ : Account) => decide (id = job.row.account_id)
    (true, { db with accounts := db.accounts.update own collected })

def retry_later (job : ClaimedJob) (now : Time) (db : Db) : Db :=
  match leasedJob db job.id with
  | none => db
  | some row => db.setJob job.id { row with
      status := .queued
      next_attempt_at := now + minutes (2 ^ (job.row.attempt_count - 1))
      error_code := some "MAIL_EXTERNAL_RETRY_PENDING"
      lease_owner := none
      lease_expires_at := none }

/-! ## Imports -/

def _import_state (db : Db) (account_id uidl : String) : Option RemoteDeleteStatus :=
  (db.imports.rows (account_id, uidl)).map Import.remote_delete_status

inductive Action
  | import_ | duplicate | delete_only
  deriving DecidableEq, Repr

def uidl_action (status : Option RemoteDeleteStatus) (delete_enabled : Bool) : Action :=
  match status with
  | none => .import_
  | some .pending => if delete_enabled then .delete_only else .duplicate
  | some .failed => if delete_enabled then .delete_only else .duplicate
  | some _ => .duplicate

def withRemoteState (status : RemoteDeleteStatus) (code : Option String) (now : Time)
    (row : Import) : Import :=
  { row with
    remote_delete_status := status
    remote_delete_code := code
    remote_deleted_at := if status = .deleted then some now else row.remote_deleted_at }

def _set_remote_states (account_id : String) (uidls : List String) (status : RemoteDeleteStatus)
    (code : Option String) (now : Time) (db : Db) : Db :=
  let named := fun (k : String × String) (_ : Import) =>
    decide (k.1 = account_id) && decide (k.2 ∈ uidls)
  { db with imports := db.imports.update named (withRemoteState status code now) }

structure Attachment where
  file_name : String
  size_bytes : Nat
  deriving DecidableEq, Repr

/-- A message as the MIME parser gives it. -/
structure Mime where
  length : Nat
  subject : String
  address : String
  display : String
  plain : String
  html : String
  attachments : List Attachment
  deriving DecidableEq, Repr

def raw_limit : Nat := 25 * 1024 * 1024

def takeChars (n : Nat) (s : String) : String := String.ofList (s.toList.take n)

/-- `none` when `parse_external_message` raises. -/
def parse_external_message (raw : Mime) : Option Mime :=
  if raw.length ≤ raw_limit ∧ (∀ a ∈ raw.attachments, a.size_bytes ≤ 10 * 1024 * 1024) ∧
      raw.attachments.length ≤ 20 ∧
      (raw.attachments.map Attachment.size_bytes).sum ≤ raw_limit then
    some { raw with
      subject := takeChars 500 raw.subject
      address := takeChars 254 raw.address
      display := takeChars 200 raw.display
      plain := takeChars 1000000 raw.plain
      html := takeChars 1000000 raw.html
      attachments := raw.attachments.map (fun a => { a with
        file_name := takeChars 255 (Text.afterLast '/' (a.file_name.replace "\\" "/")) }) }
  else none

def messageOf (context : Context) (parsed : Mime) (now : Time) : Message where
  company_id := context.account.company_id
  sender_user_id := context.account.user_id
  source_external_account_id := context.account_id
  sender_email := parsed.address
  sender_display_name := parsed.display
  subject := parsed.subject
  body_text := parsed.plain
  body_html := if parsed.html = "" then none else some parsed.html
  recipient_email := context.owner.email
  folder_id := context.account.target_folder_id
  attachments := parsed.attachments.map Attachment.file_name
  sent_at := now

/-- The transaction of `_store`: the import row and the mail, or nothing when the UIDL has a row. -/
def _store (context : Context) (uidl : String) (parsed : Mime) (message_id : String) (now : Time)
    (db : Db) : Bool × Db :=
  match db.imports.rows (context.account_id, uidl) with
  | some _ => (false, db)
  | none => (true, { db with
      imports := db.imports.set (context.account_id, uidl)
        ⟨message_id, if context.account.delete_from_server then .pending else .kept, none, now,
          none⟩
      messages := db.messages.set message_id (messageOf context parsed now) })

/-! ## One run -/

/-- Where the loop over the messages stands. -/
inductive Place
  | opening
  | head
  | looking (uidl : String)
  | acting (uidl : String) (action : Action)
  | stored (uidl : String)
  /-- In the handler of the item, with the marks that went with the connection. -/
  | handling (uidl : String) (action : Action) (lost : List String)
  | quitting
  deriving DecidableEq, Repr

structure Collecting where
  job : ClaimedJob
  context : Context
  client : Option Nat
  /-- The listing of the last session that was opened. -/
  numbers : List (String × Nat)
  todo : List String
  pending : List String
  counts : Counts
  place : Place
  deriving DecidableEq, Repr

inductive Phase
  | idle
  | enqueuing (due : List (String × Account))
  | enqueued
  | claimed (job : ClaimedJob)
  | collecting (c : Collecting)
  | recording (c : Collecting) (quit_ok : Bool)
  | finalizing (job : ClaimedJob) (counts : Counts)
  | failing (job : ClaimedJob) (counts : Counts)
  deriving DecidableEq, Repr

inductive ItemError
  /-- `poplib.error_proto`, `OSError`, `EOFError` or `ExternalMailRetrievalError`. -/
  | protocol
  | other
  deriving DecidableEq, Repr

/-- One step of a run, with the answers of the server, of the clock and of the libraries. -/
inductive Act
  | select_due (now : Time)
  | enqueue (now : Time) (ids : List String)
  | claim (now : Time) (locked : List String)
  | read_context
  /-- A connection with the listing of the server, or one that fails. -/
  | open_connection (listing : Option (List (String × Nat)))
  | heartbeat (now : Time) (sees : Option Bool)
  | look
  | disappear
  | dele (answered : Bool)
  | store (size octets : Nat) (raw : Mime) (message_id : String) (now : Time)
    (marked : Option ItemError)
  | raised (error : ItemError) (sees : Option Bool)
  | set_states (now : Time)
  | quit (sees : Option Bool)
  | record_states (now : Time)
  | finalize (now : Time)
  | fail (now : Time)
  deriving DecidableEq, Repr

/-- What the server sees of `client.quit()`: nothing, or a QUIT that it answers or not. -/
def leave (s : Store) (account_id : String) (client : Option Nat) (sees : Option Bool) : Store :=
  match client with
  | none => s
  | some i => match sees with
    | none => s.setDrop account_id ((s.drops account_id).cut i)
    | some replied => s.setDrop account_id ((s.drops account_id).quit i replied)

/-- The session of the client still stands on the server. -/
def connected (s : Store) (c : Collecting) : Bool :=
  (c.client.bind (fun i => (s.drops c.context.account_id).sessions[i]?)).any
    (fun session => session.ending.isNone)

def Collecting.go (c : Collecting) (place : Place) : Collecting := { c with place := place }

def Counts.fail (counts : Counts) (n : Nat) : Counts := { counts with failed := counts.failed + n }

def Collecting.fail (c : Collecting) (n : Nat) : Collecting :=
  { c with counts := c.counts.fail n }

def Collecting.duplicated (c : Collecting) : Collecting :=
  { c with counts := { c.counts with duplicate := c.counts.duplicate + 1 } }

/-- The handler of `run_once` for all but a lost lease. -/
def generic (c : Collecting) (sees : Option Bool) (s : Store) : Phase × Store :=
  (.failing c.job c.counts, leave s c.context.account_id c.client sees)

/-- The handler of one item: a connection that failed is closed, and its marks are lost. -/
def handle (c : Collecting) (uidl : String) (action : Action) (error : ItemError) (s : Store) :
    Phase × Store :=
  let failed := c.fail 1
  match error with
  | .other => (.collecting (failed.go (.handling uidl action [])), s)
  | .protocol =>
    let closed := { failed with client := none, pending := [] }
    (.collecting (closed.go (.handling uidl action c.pending)),
      leave s c.context.account_id c.client none)

/-- A connection with its listing: the first one gives the messages of the run. -/
def opened (c : Collecting) (i : Nat) (listing : List (String × Nat)) : Collecting :=
  match c.place with
  | .opening => { c with
      client := some i, numbers := listing, todo := (listing.map Prod.fst).take 100,
      place := .head }
  | _ => { c with client := some i, numbers := listing }

def open_connection (c : Collecting) (listing : Option (List (String × Nat))) (s : Store) :
    Option (Phase × Store) :=
  match listing with
  | none => match c.place with
    | .opening => some (generic c none s)
    | .acting uidl action => some (handle c uidl action .protocol s)
    | _ => none
  | some numbering =>
    ((s.drops c.context.account_id).login numbering).map (fun d =>
      (.collecting (opened c (s.drops c.context.account_id).sessions.length numbering),
        s.setDrop c.context.account_id d))

/-- `client.dele` for the number of `uidl` in the session; `after` is where the run goes on. -/
def delete_marked (c : Collecting) (uidl : String) (action : Action) (after : Collecting)
    (answered : Bool) (s : Store) : Option (Phase × Store) :=
  match c.client, Maildrop.number c.numbers uidl with
  | some i, some n => ((s.drops c.context.account_id).dele i n).map (fun d =>
      let s := s.setDrop c.context.account_id d
      if answered then (.collecting { after with pending := after.pending ++ [uidl] }, s)
      else handle c uidl action .protocol s)
  | _, _ => none

/-- LIST, RETR, the parser and `_store` for one message. -/
def import_item (c : Collecting) (uidl : String) (size octets : Nat) (raw : Mime)
    (message_id : String) (now : Time) (marked : Option ItemError) (s : Store) : Phase × Store :=
  if size ≤ raw_limit ∧ octets ≤ raw_limit then
    match parse_external_message raw with
    | none => handle c uidl .import_ .other s
    | some parsed => match _store c.context uidl parsed message_id now s.db with
      | (false, db) => (.collecting (c.duplicated.go .head), { s with db := db })
      | (true, db) => match marked with
        | some error => handle c uidl .import_ error { s with db := db }
        | none =>
          let imported := { c with
            counts := { c.counts with imported := c.counts.imported + 1 } }
          (.collecting (imported.go (if c.context.account.delete_from_server then .stored uidl
            else .head)), { s with db := db })
  else handle c uidl .import_ .other s

/-- The counts after `client.quit()`. -/
def quitCounts (c : Collecting) (quit_ok : Bool) : Counts :=
  if quit_ok then { c.counts with deleted := c.pending.length }
  else c.counts.fail c.pending.length

def collect : Act → Collecting → Store → Option (Phase × Store)
  | .open_connection listing, c, s => match c.place with
    | .opening => open_connection c listing s
    | .acting _ _ => if c.client = none then open_connection c listing s else none
    | _ => none
  | .heartbeat now sees, c, s =>
    if c.place = .head then
      match _heartbeat c.job.id now s.db with
      | (false, _) => some (.idle, leave s c.context.account_id c.client sees)
      | (true, db) => match c.todo with
        | [] => some (.collecting (c.go .quitting), { s with db := db })
        | uidl :: todo => some (.collecting ({ c with
            todo := todo, counts := { c.counts with seen := c.counts.seen + 1 } }.go
              (.looking uidl)), { s with db := db })
    else none
  | .look, c, s => match c.place with
    | .looking uidl =>
      let action := uidl_action (_import_state s.db c.context.account_id uidl)
        c.context.account.delete_from_server
      if action = .duplicate then some (.collecting (c.duplicated.go .head), s)
      else some (.collecting (c.go (.acting uidl action)), s)
    | _ => none
  | .disappear, c, s => match c.place with
    | .acting uidl _ =>
      if c.client.isSome ∧ Maildrop.number c.numbers uidl = none then
        some (.collecting ((c.fail 1).go .head), s)
      else none
    | _ => none
  | .dele answered, c, s => match c.place with
    | .acting uidl .delete_only =>
      delete_marked c uidl .delete_only (c.duplicated.go .head) answered s
    | .stored uidl => delete_marked c uidl .import_ (c.go .head) answered s
    | _ => none
  | .store size octets raw message_id now marked, c, s => match c.place with
    | .acting uidl .import_ =>
      if c.client.isSome ∧ (Maildrop.number c.numbers uidl).isSome ∧
          s.db.messages.rows message_id = none then
        some (import_item c uidl size octets raw message_id now marked s)
      else none
    | _ => none
  | .raised error sees, c, s => match c.place with
    | .opening => some (generic c sees s)
    | .head => some (generic c sees s)
    | .looking uidl => some (handle c uidl .import_ error s)
    | .acting uidl action => some (handle c uidl action error s)
    | .stored uidl => some (handle c uidl .import_ error s)
    | .handling _ _ _ => some (generic c sees s)
    | .quitting => none
  | .set_states now, c, s => match c.place with
    | .handling uidl action [] =>
      let db := if c.context.account.delete_from_server ∧ action ≠ .duplicate then
        _set_remote_states c.context.account_id [uidl] .failed
          (some "MAIL_EXTERNAL_DELETE_FAILED") now s.db
      else s.db
      some (.collecting (c.go .head), { s with db := db })
    | .handling uidl action lost =>
      let db := _set_remote_states c.context.account_id lost .failed
        (some "MAIL_EXTERNAL_CONNECTION_LOST") now s.db
      some (.collecting ((c.fail lost.length).go (.handling uidl action [])), { s with db := db })
    | _ => none
  | .quit sees, c, s =>
    if c.place = .quitting then
      let quit_ok := connected s c && decide (sees = some true)
      some (.recording { c with client := none } quit_ok,
        leave s c.context.account_id c.client sees)
    else none
  | _, _, _ => none

/-- One step of `run_once`. -/
def turn : Act → Phase → Store → Option (Phase × Store)
  | .select_due now, .idle, s => some (.enqueuing (dueAccounts now s.db), s)
  | .enqueue now ids, .enqueuing due, s =>
    some (.enqueued, { s with db := _enqueue_scheduled now due ids s.db })
  | .claim now locked, .enqueued, s => match _claim now locked s.db with
    | (none, db) => some (.idle, { s with db := db })
    | (some job, db) => some (.claimed job, { s with db := db })
  | .read_context, .claimed job, s => match _context job s.db with
    | none => some (.failing job .zero, s)
    | some context => some (.collecting ⟨job, context, none, [], [], [], .zero, .opening⟩, s)
  | .record_states now, .recording c quit_ok, s =>
    let db := if c.pending = [] then s.db
      else if quit_ok then
        _set_remote_states c.context.account_id c.pending .deleted none now s.db
      else _set_remote_states c.context.account_id c.pending .failed
        (some "MAIL_EXTERNAL_QUIT_FAILED") now s.db
    some (.finalizing c.job (if c.pending = [] then c.counts else quitCounts c quit_ok),
      { s with db := db })
  | .finalize now, .finalizing job counts, s =>
    some (.idle, { s with db := (_finalize job (if counts.failed = 0 then .completed else .partly)
      counts (if counts.failed = 0 then none else some "MAIL_EXTERNAL_PARTIAL") now s.db).2 })
  | .fail now, .failing job counts, s =>
    some (.idle, { s with db := if job.row.attempt_count < 3 then retry_later job now s.db
      else (_finalize job .failed counts (some "MAIL_EXTERNAL_COLLECTION_FAILED") now s.db).2 })
  | .raised _ _, .claimed job, s => some (.failing job .zero, s)
  | .raised _ _, .recording c _, s => some (.failing c.job c.counts, s)
  | .raised _ _, .finalizing job counts, s => some (.failing job counts, s)
  | act, .collecting c, s => collect act c s
  | _, _, _ => none

end moaworks.mail_external
