-- The workers of the mailbox backups: each takes one job after another, and builds its archive
-- message by message between the transactions of the others. A worker may stop anywhere.
import MoaWorks.Backups
import MoaWorks.Lib.Machine

namespace moaworks.mailbox_backup

/-- An archive that `build_claimed` is writing. -/
structure Build where
  manifest_count : Nat
  last_ordinal : Nat
  /-- Items that were read and are not yet written. -/
  rows : List Item
  /-- The last batch was full. -/
  more : Bool
  written : List Item
  deriving DecidableEq, Repr

/-- Where a worker stands in `run_worker_iteration`. -/
inductive Phase
  | idle
  | claimed (job : Claimed)
  | building (job : Claimed) (build : Build)
  | archived (job : Claimed) (result : BackupArtifactResult)
  | built (job : Claimed) (result : BackupArtifactResult)
  | failing (job : Claimed) (error_code : String)
  deriving DecidableEq, Repr

def Phase.job : Phase → Option Claimed
  | idle => none
  | claimed job => some job
  | building job _ => some job
  | archived job _ => some job
  | built job _ => some job
  | failing job _ => some job

/-- One step of a worker that holds a job. -/
inductive Act
  | open_archive
  | read_items
  | write_message (size : Nat) (now : Time)
  /-- A chunk of an attachment, with a heartbeat when the last one is old enough. -/
  | write_chunk (size : Nat) (beat : Option Time)
  | close_archive (size : Nat)
  | last_heartbeat (now : Time)
  | complete_job (now : Time)
  /-- `complete_job` whose commit fails after the rename. -/
  | complete_job_undone (now : Time)
  | fail_job
  | raised (error : Error)
  deriving DecidableEq, Repr

def classify_backup_error : Error → String
  | .sourceMissing => "BACKUP_SOURCE_MISSING"
  | .storageFull => "BACKUP_STORAGE_FULL"
  | .ioFailed => "BACKUP_IO_FAILED"
  | _ => "BACKUP_INTERNAL_FAILED"

/-- The batch of `_iter_job_items`. -/
def batch_size : Nat := 50

def nextBatch (s : Store) (job_id : String) (last_ordinal : Nat) : List Item :=
  ((s.items job_id).filter (fun item => decide (last_ordinal < item.ordinal))).take batch_size

def lastOrdinal (start : Nat) (items : List Item) : Nat :=
  (items.getLast?.map Item.ordinal).getD start

def Build.read (build : Build) (s : Store) (job_id : String) : Build :=
  let rows := nextBatch s job_id build.last_ordinal
  { build with
    rows := rows
    last_ordinal := lastOrdinal build.last_ordinal rows
    more := decide (batch_size ≤ rows.length) }

variable (settings : Settings)

/-- A failure while the archive is open unlinks its file. -/
def abandon (worker_id : String) (job : Claimed) (error : Error) (s : Store) : Phase × Store :=
  (.failing job (classify_backup_error error), s.unlink (attempt_temp_path settings job worker_id))

def resultOf (worker_id : String) (job : Claimed) (build : Build) (size : Nat) :
    BackupArtifactResult where
  artifact_key := artifact_key job.id job.row
  size_bytes := size
  processed_count := build.written.length
  temp_path := some (attempt_temp_path settings job worker_id)

def turn (worker_id : String) : Act → Phase → Store → Option (Phase × Store)
  | .open_archive, .claimed job, s =>
    some (.building job ⟨(s.items job.id).length, 0, [], true, []⟩,
      s.create (attempt_temp_path settings job worker_id))
  | .read_items, .building job build, s =>
    if build.rows = [] ∧ build.more then some (.building job (build.read s job.id), s) else none
  | .write_message size now, .building job build, s =>
    match build.rows with
    | [] => none
    | item :: rows =>
      let written := build.written ++ [item]
      let s := s.write (attempt_temp_path settings job worker_id) (fun _ => ⟨size, written⟩)
      match heartbeat settings worker_id job.id written.length now s with
      | (true, s) => some (.building job { build with rows := rows, written := written }, s)
      | (false, s) => some (abandon settings worker_id job .leaseLost s)
  | .write_chunk size beat, .building job build, s =>
    let s := s.write (attempt_temp_path settings job worker_id)
      (fun file => { file with size := size })
    match beat with
    | none => some (.building job build, s)
    | some now => match heartbeat settings worker_id job.id build.written.length now s with
      | (true, s) => some (.building job build, s)
      | (false, s) => some (abandon settings worker_id job .leaseLost s)
  | .close_archive size, .building job build, s =>
    if build.rows = [] ∧ ¬ build.more then
      let path := attempt_temp_path settings job worker_id
      let s := s.write path (fun file => { file with size := size })
      if build.written.length ≠ build.manifest_count then
        some (abandon settings worker_id job .ioFailed s)
      else match s.files.rows path with
        | none => some (.failing job (classify_backup_error .sourceMissing), s)
        | some file => some (.archived job (resultOf settings worker_id job build file.size), s)
    else none
  | .last_heartbeat now, .archived job result, s =>
    match heartbeat settings worker_id job.id result.processed_count now s with
    | (true, s) => some (.built job result, s)
    | (false, s) => some (abandon settings worker_id job .leaseLost s)
  | .complete_job now, .built job result, s =>
    match complete_job settings worker_id job result now s with
    | (.ok _, s) => some (.idle, s)
    | (.error e, s) => some (.failing job (classify_backup_error e), s)
  | .complete_job_undone now, .built job result, s =>
    some (.failing job (classify_backup_error .other),
      (rename_artifact settings worker_id job result now s).2)
  | .fail_job, .failing job error_code, s =>
    some (.idle, (fail_job settings worker_id job error_code s).2)
  | .raised error, .claimed job, s => some (.failing job (classify_backup_error error), s)
  | .raised error, .building job _, s => some (abandon settings worker_id job error s)
  | .raised error, .archived job _, s => some (.failing job (classify_backup_error error), s)
  | .raised error, .built job _, s => some (.failing job (classify_backup_error error), s)
  | _, _, _ => none

/-! ## Runs -/

/-- A job that a worker has claimed, and the items that it has to write. -/
structure Claim where
  worker_id : String
  job : Claimed
  items : List Item
  /-- This claim took the snapshot. -/
  snapshot : Bool
  deriving DecidableEq, Repr

structure World where
  store : Store
  workers : String → Phase
  /-- The claims so far, oldest first. -/
  claims : List Claim

inductive Event
  | create_job (job_id company_id user_id : String) (mailbox_type : MailboxType)
    (folder_id : Option String) (now : Time)
  | retry_job (job_id new_id company_id user_id : String) (now : Time)
  | expire_artifacts (now : Time) (locked : List String)
  | claim_next (worker_id : String) (now : Time) (locked : List String) (views : List View)
  | turn (worker_id : String) (act : Act)

def World.setWorker (w : World) (worker_id : String) (phase : Phase) : World :=
  { w with workers := fun k => if k = worker_id then phase else w.workers k }

/-- The claim of a worker who took `job` from `before`. -/
def claimOf (worker_id : String) (before after : Store) (job : Claimed) : Claim where
  worker_id := worker_id
  job := job
  items := after.items job.id
  snapshot := (before.jobs.rows job.id).any (fun row => row.snapshot_at.isNone)

def step (w : World) : Event → Option World
  | .create_job job_id company_id user_id mailbox_type folder_id now =>
    ((create_job job_id company_id user_id mailbox_type folder_id now w.store).toOption).map
      (fun store => { w with store := store })
  | .retry_job job_id new_id company_id user_id now =>
    ((retry_job job_id new_id company_id user_id now w.store).toOption).map
      (fun store => { w with store := store })
  | .expire_artifacts now locked => some { w with store := expire_artifacts now locked w.store }
  | .claim_next worker_id now locked views =>
    if w.workers worker_id ≠ .idle then none
    else match claim_next settings worker_id now locked views w.store with
      | (none, store) => some { w with store := store }
      | (some job, store) => some { w.setWorker worker_id (.claimed job) with
          store := store
          claims := w.claims ++ [claimOf worker_id w.store store job] }
  | .turn worker_id act =>
    (turn settings worker_id act (w.workers worker_id) w.store).map
      (fun (phase, store) => { w.setWorker worker_id phase with store := store })

def machine : Machine World Event where
  Start := fun w => w = ⟨⟨.empty, fun _ => [], .empty⟩, fun _ => .idle, []⟩
  step := step settings

def claimsOf (claims : List Claim) (job_id : String) : List Claim :=
  claims.filter (fun claim => decide (claim.job.id = job_id))

end moaworks.mailbox_backup
