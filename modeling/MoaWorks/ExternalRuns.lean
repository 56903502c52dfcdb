-- The runs of the collection: any number of workers, the requests of the users between them, and
-- the servers, in any order.
import MoaWorks.ExternalCollection
import MoaWorks.Lib.Machine

namespace moaworks.mail_external

/-- A request of a user between two of its transactions. -/
inductive Request
  /-- `test_account` after its reservation. -/
  | testing (account_id : String) (actor : AuthUserSummary) (now : Time)
  /-- `test_account` after the test: the settings that it read and the host that it reached. -/
  | tested (account_id : String) (actor : AuthUserSummary) (now : Time) (read : Connection)
    (host : String) (passed : Bool)
  /-- `queue_collect` after it has seen a tested account. -/
  | queueing (account_id : String) (actor : AuthUserSummary)
  /-- `delete_account` after it has seen no active job. -/
  | deleting (account_id : String) (actor : AuthUserSummary)
  deriving DecidableEq, Repr

/-- A connection of a run, with the row of its account at that moment. -/
structure Connect where
  account_id : String
  connection : Connection
  row : Option Account
  deriving DecidableEq, Repr

/-- A deletion that succeeded, with the active jobs of the account at that moment. -/
structure Deletion where
  account_id : String
  jobs : Finset String

structure World where
  store : Store
  runs : Nat → Phase
  requests : List Request
  /-- The successful tests so far, by account. -/
  tests : List (String × Connection)
  connects : List Connect
  deletions : List Deletion

inductive Event
  | create_account (account_id : String) (actor : AuthUserSummary) (payload : AccountPayload)
  | update_account (account_id : String) (actor : AuthUserSummary) (payload : AccountPayload)
    (expectedVersion : Nat)
  | test_account (account_id : String) (actor : AuthUserSummary) (now : Time)
  | queue_collect (account_id : String) (actor : AuthUserSummary)
  | delete_account (account_id : String) (actor : AuthUserSummary)
  /-- The next step of a request, with what the server answers to a test. -/
  | proceed (i : Nat) (passes : Bool) (job_id : String) (now : Time)
  | turn (run : Nat) (act : Act)
  | deliver (account_id uidl : String)
  /-- Another client of the mailbox removes a message. -/
  | remove (account_id uidl : String)
  | cut (account_id : String) (session : Nat)
  /-- The account stands for another mailbox from now on. -/
  | moved (account_id : String) (drop : Maildrop String)

def World.setDb (w : World) (db : Db) : World := { w with store := { w.store with db := db } }

def World.setDrop (w : World) (account_id : String) (d : Maildrop String) : World :=
  { w with store := w.store.setDrop account_id d }

def World.setRequest (w : World) (i : Nat) (request : Request) : World :=
  { w with requests := w.requests.set i request }

/-- A message id that the mailbox has never had. -/
def fresh (d : Maildrop String) (uidl : String) : Bool :=
  decide (uidl ∉ d.messages) &&
  d.sessions.all (fun s => decide (uidl ∉ s.numbering.map Prod.fst))

variable (is_ip : String → Bool)

/-- `test_account` between its transactions: `none` when it raises. -/
def test_settings (account_id : String) (actor : AuthUserSummary) (db : Db) :
    Option (Connection × String) :=
  match ownAccount db actor account_id with
  | none => none
  | some a => match validate_syntax is_ip a.connection.host a.connection.port
      a.connection.tls_mode with
    | .error _ => none
    | .ok host => some (a.connection, host)

def proceed (w : World) (i : Nat) (passes : Bool) (job_id : String) (now : Time) :
    Option World :=
  let ended := { w with requests := w.requests.eraseIdx i }
  match w.requests[i]? with
  | none => none
  | some (.testing account_id actor started) =>
    match test_settings is_ip account_id actor w.store.db with
    | none => some ended
    | some (read, host) => some (w.setRequest i (.tested account_id actor started read host passes))
  | some (.tested account_id actor started read host passed) =>
    let recorded := ended.setDb (record_test account_id actor passed started w.store.db)
    if passed then some { recorded with
      tests := w.tests ++ [(account_id, { read with host := host })] }
    else some recorded
  | some (.queueing account_id actor) =>
    match insert_job job_id (queuedJob account_id actor.companyId actor.userId .manual now)
        w.store.db with
    | none => some ended
    | some db => some (ended.setDb db)
  | some (.deleting account_id actor) =>
    match mark_deleted account_id actor now w.store.db with
    | .error _ => some ended
    | .ok db => some { ended.setDb db with
        deletions := w.deletions ++ [⟨account_id, activeJobs w.store.db account_id⟩] }

/-- What a turn leaves in the log of the connections. -/
def connectOf (w : World) (act : Act) : Phase → List Connect
  | .collecting c => match act with
    | .open_connection _ =>
      [⟨c.context.account_id, c.context.account.connection,
        w.store.db.accounts.rows c.context.account_id⟩]
    | _ => []
  | _ => []

def step (w : World) : Event → Option World
  | .create_account account_id actor payload =>
    ((create_account is_ip account_id actor payload w.store.db).toOption).map w.setDb
  | .update_account account_id actor payload expectedVersion =>
    ((update_account is_ip account_id actor payload expectedVersion w.store.db).toOption).map
      w.setDb
  | .test_account account_id actor now =>
    ((reserve_test_attempt account_id actor now w.store.db).toOption).map (fun db =>
      { w.setDb db with requests := w.requests ++ [.testing account_id actor now] })
  | .queue_collect account_id actor =>
    match ownAccount w.store.db actor account_id with
    | none => none
    | some a => if a.connection_status = .success then
        some { w with requests := w.requests ++ [.queueing account_id actor] }
      else none
  | .delete_account account_id actor =>
    if activeJobs w.store.db account_id = ∅ then
      some { w with requests := w.requests ++ [.deleting account_id actor] }
    else none
  | .proceed i passes job_id now => proceed is_ip w i passes job_id now
  | .turn run act =>
    (turn act (w.runs run) w.store).map (fun (phase, store) => { w with
      store := store
      runs := fun k => if k = run then phase else w.runs k
      connects := w.connects ++ connectOf w act (w.runs run) })
  | .deliver account_id uidl =>
    if fresh (w.store.drops account_id) uidl then
      some (w.setDrop account_id ((w.store.drops account_id).deliver uidl))
    else none
  | .remove account_id uidl =>
    let d := w.store.drops account_id
    some (w.setDrop account_id { d with
      messages := d.messages.filter (fun u => decide (u ≠ uidl)) })
  | .cut account_id session =>
    some (w.setDrop account_id ((w.store.drops account_id).cut session))
  | .moved account_id drop => some (w.setDrop account_id drop)

/-- The service before its first account. -/
def Start (w : World) : Prop :=
  w.store.db.accounts = .empty ∧ w.store.db.jobs = .empty ∧ w.store.db.imports = .empty ∧
  w.store.db.messages = .empty ∧ (∀ id, w.store.drops id = ⟨[], []⟩) ∧ (∀ run, w.runs run = .idle) ∧
  w.requests = [] ∧ w.tests = [] ∧ w.connects = [] ∧ w.deletions = []

def machine : Machine World Event where
  Start := Start
  step := step is_ip

end moaworks.mail_external
