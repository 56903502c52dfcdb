-- The backups of mailboxes: the jobs with their items and files, and the transactions of the
-- service over them.
import Mathlib.Data.String.Basic
import MoaWorks.Clock
import MoaWorks.Lib.Raise
import MoaWorks.Lib.Table

namespace moaworks.mailbox_backup

/-! ## Rows -/

inductive Status
  | queued | running | completed | failed | expired
  deriving DecidableEq, Repr

inductive MailboxType
  | inbox | sent | draft | scheduled | spam | trash | folder
  deriving DecidableEq, Repr

/-- A message as its sender or one of its recipients sees it. -/
inductive View
  | sender (message_id : String)
  | recipient (message_id recipient_id : String)
  deriving DecidableEq, Repr

structure Item where
  ordinal : Nat
  view : View
  deriving DecidableEq, Repr

/-- `mail/backups/{company_id}/{user_id}/{job_id}.zip`. -/
structure ArtifactKey where
  company_id : String
  user_id : String
  job_id : String
  deriving DecidableEq, Repr

structure BackupJob where
  company_id : String
  user_id : String
  mailbox_type : MailboxType
  folder_id : Option String
  status : Status
  snapshot_at : Option Time
  total_count : Nat
  processed_count : Nat
  artifact_key : Option ArtifactKey
  artifact_size_bytes : Nat
  attempt_count : Nat
  lease_owner : Option String
  lease_expires_at : Option Time
  error_code : Option String
  expires_at : Option Time
  created_at : Time
  started_at : Option Time
  completed_at : Option Time
  deriving DecidableEq, Repr

/-- A job as a worker holds it: the row as it was when the worker claimed it. -/
structure Claimed where
  id : String
  row : BackupJob
  deriving DecidableEq, Repr

def artifact_key (id : String) (row : BackupJob) : ArtifactKey := ⟨row.company_id, row.user_id, id⟩

/-! ## Files -/

/-- The files of the backups: the artifact of a job, and the parts that its attempts write. -/
inductive Path
  | artifact (key : ArtifactKey)
  | part (key : ArtifactKey)
  | attempt (key : ArtifactKey) (attempt_count : Nat) (owner_hash : String)
  deriving DecidableEq, Repr

def Path.isPartOf (key : ArtifactKey) : Path → Bool
  | artifact _ => false
  | part k => decide (k = key)
  | attempt k _ _ => decide (k = key)

/-- An archive: its bytes, and the items whose messages it holds. -/
structure File where
  size : Nat
  entries : List Item
  deriving DecidableEq, Repr

structure Store where
  jobs : Table String BackupJob
  items : String → List Item
  files : Table Path File

def Store.setJob (s : Store) (id : String) (row : BackupJob) : Store :=
  { s with jobs := s.jobs.set id row }

def Store.setItems (s : Store) (id : String) (items : List Item) : Store :=
  { s with items := fun k => if k = id then items else s.items k }

def Store.unlink (s : Store) (path : Path) : Store := { s with files := s.files.erase path }

/-- Opens a file for writing: it is empty. -/
def Store.create (s : Store) (path : Path) : Store :=
  { s with files := s.files.set path ⟨0, []⟩ }

/-- Writes on to an open file. A file that was unlinked meanwhile has no path any more. -/
def Store.write (s : Store) (path : Path) (f : File → File) : Store :=
  { s with files := s.files.update (fun p _ => decide (p = path)) f }

/-- `source.replace(target)`. -/
def Store.replace (s : Store) (source target : Path) (file : File) : Store :=
  { s with files := (s.files.erase source).set target file }

structure Settings where
  mail_backup_lease_minutes : Nat
  mail_backup_ttl_hours : Nat
  /-- The first 16 hex digits of the SHA-256 of a worker id. -/
  owner_hash : String → String

variable (settings : Settings)

def Settings.lease (now : Time) : Time := now + minutes settings.mail_backup_lease_minutes

def Settings.expiry (now : Time) : Time := now + minutes (60 * settings.mail_backup_ttl_hours)

def attempt_temp_path (job : Claimed) (worker_id : String) : Path :=
  .attempt (artifact_key job.id job.row) job.row.attempt_count (settings.owner_hash worker_id)

def _cleanup_part (id : String) (row : BackupJob) (s : Store) : Store :=
  { s with files := s.files.filter (fun path _ => !path.isPartOf (artifact_key id row)) }

/-! ## Requests of the users -/

inductive Error
  | permission (message : String)
  | value (message : String)
  | sourceMissing
  | storageFull
  | ioFailed
  | leaseLost
  | other
  deriving DecidableEq, Repr

def queuedJob (company_id user_id : String) (mailbox_type : MailboxType) (folder_id : Option String)
    (now : Time) : BackupJob where
  company_id := company_id
  user_id := user_id
  mailbox_type := mailbox_type
  folder_id := folder_id
  status := .queued
  snapshot_at := none
  total_count := 0
  processed_count := 0
  artifact_key := none
  artifact_size_bytes := 0
  attempt_count := 0
  lease_owner := none
  lease_expires_at := none
  error_code := none
  expires_at := none
  created_at := now
  started_at := none
  completed_at := none

/-- The rows of the index `uq_mailbox_backup_jobs_active_owner`. -/
def active (company_id user_id : String) (row : BackupJob) : Bool :=
  decide (row.company_id = company_id) && decide (row.user_id = user_id) &&
  (decide (row.status = .queued) || decide (row.status = .running))

/-- `create_job` under a new id, for a mailbox that is the caller's own. -/
def create_job (job_id company_id user_id : String) (mailbox_type : MailboxType)
    (folder_id : Option String) (now : Time) (s : Store) : Except Error Store := do
  Raise.require ((s.jobs.rows job_id).isNone) .other
  Raise.require (s.jobs.select (fun _ row => active company_id user_id row) = ∅)
    (.value "진행 중인 메일함 백업이 있습니다.")
  return s.setJob job_id (queuedJob company_id user_id mailbox_type folder_id now)

def retry_job (job_id new_id company_id user_id : String) (now : Time) (s : Store) :
    Except Error Store := do
  let row ← Raise.found ((s.jobs.rows job_id).filter (fun row =>
      decide (row.company_id = company_id) && decide (row.user_id = user_id)))
    (.permission "백업 작업에 접근할 수 없습니다.")
  Raise.require (row.status = .failed ∨ row.status = .expired)
    (.value "이 백업 작업은 재시도할 수 없습니다.")
  Raise.require (¬ (row.mailbox_type = .folder ∧ row.folder_id = none))
    (.value "삭제된 사용자 메일함은 다시 백업할 수 없습니다.")
  create_job new_id company_id user_id row.mailbox_type row.folder_id now s

/-! ## The snapshot -/

/-- Two items that the keys of `mailbox_backup_job_items` do not allow side by side. -/
def conflicts (a b : Item) : Bool :=
  decide (a.ordinal = b.ordinal) || match a.view, b.view with
    | .sender m, .sender m' => decide (m = m')
    | .recipient _ r, .recipient _ r' => decide (r = r')
    | _, _ => false

/-- One row of INSERT … ON CONFLICT DO NOTHING. -/
def insert_item (items : List Item) (item : Item) : List Item :=
  if items.any (conflicts item) then items else items ++ [item]

/-- The views of the mailbox with their ROW_NUMBER. -/
def numbered (views : List View) : List Item := (views.zipIdx 1).map (fun (view, n) => ⟨n, view⟩)

def snapshot_items (items : List Item) (views : List View) : List Item :=
  (numbered views).foldl insert_item items

/-! ## Transactions of the workers -/

def leaseOver (now : Time) (row : BackupJob) : Bool :=
  row.lease_expires_at.any (fun t => decide (t < now))

/-- A job whose third attempt did not come to its end. -/
def exhausted (now : Time) (row : BackupJob) : Bool :=
  decide (row.status = .running) && leaseOver now row && decide (3 ≤ row.attempt_count)

def claimable (now : Time) (row : BackupJob) : Bool :=
  (decide (row.status = .queued) && decide (row.attempt_count < 3)) ||
  (decide (row.status = .running) && leaseOver now row && decide (row.attempt_count < 3))

def failExhausted (row : BackupJob) : BackupJob :=
  { row with
    status := .failed
    lease_owner := none
    lease_expires_at := none
    error_code := some "BACKUP_INTERNAL_FAILED" }

def fail_exhausted (now : Time) (s : Store) : Store :=
  ((s.jobs.orderedBy BackupJob.created_at).filter (fun (_, row) => exhausted now row)).foldl
    (fun s (id, row) => _cleanup_part id row s)
    { s with jobs := s.jobs.update (fun _ row => exhausted now row) failExhausted }

def claimedRow (worker_id : String) (now : Time) (total_count : Nat) (row : BackupJob) :
    BackupJob :=
  { row with
    status := .running
    snapshot_at := row.snapshot_at.or (some now)
    started_at := row.started_at.or (some now)
    lease_owner := some worker_id
    lease_expires_at := some (settings.lease now)
    attempt_count := row.attempt_count + 1
    error_code := none
    total_count := total_count }

/-- The job that `claim_next` takes; rows in `locked` are skipped. -/
def nextJob (now : Time) (locked : List String) (s : Store) : Option (String × BackupJob) :=
  (s.jobs.orderedBy BackupJob.created_at).find?
    (fun (id, row) => claimable now row && decide (id ∉ locked))

/-- `views` is what the mailbox holds for the snapshot. -/
def claim_next (worker_id : String) (now : Time) (locked : List String) (views : List View)
    (s : Store) : Option Claimed × Store :=
  let s := fail_exhausted now s
  match nextJob now locked s with
  | none => (none, s)
  | some (id, row) =>
    let items := if row.snapshot_at.isNone then snapshot_items (s.items id) views else s.items id
    let claimed := claimedRow settings worker_id now items.length row
    (some ⟨id, claimed⟩, (s.setItems id items).setJob id claimed)

def owned (worker_id : String) (row : BackupJob) : Bool :=
  decide (row.status = .running) && decide (row.lease_owner = some worker_id)

def leased (worker_id : String) (now : Time) (row : BackupJob) : Bool :=
  owned worker_id row && row.lease_expires_at.any (fun t => decide (now < t))

def heartbeat (worker_id job_id : String) (processed_count : Nat) (now : Time) (s : Store) :
    Bool × Store :=
  match (s.jobs.rows job_id).filter (leased worker_id now) with
  | none => (false, s)
  | some row => (true, s.setJob job_id { row with
      lease_expires_at := some (settings.lease now)
      processed_count := max row.processed_count (min row.total_count processed_count) })

structure BackupArtifactResult where
  artifact_key : ArtifactKey
  size_bytes : Nat
  processed_count : Nat
  temp_path : Option Path
  deriving DecidableEq, Repr

def completedRow (result : BackupArtifactResult) (now : Time) (row : BackupJob) : BackupJob :=
  { row with
    status := .completed
    processed_count := result.processed_count
    artifact_key := some result.artifact_key
    artifact_size_bytes := result.size_bytes
    completed_at := some now
    expires_at := some (settings.expiry now)
    lease_owner := none
    lease_expires_at := none
    error_code := none }

/-- The part of `complete_job` before the row is written: it renames the file of the attempt.
Gives the row that the worker still holds. -/
def rename_artifact (worker_id : String) (job : Claimed) (result : BackupArtifactResult)
    (now : Time) (s : Store) : Except Error (Option BackupJob) × Store :=
  let temp_path := result.temp_path.getD (attempt_temp_path settings job worker_id)
  match (s.jobs.rows job.id).filter (leased worker_id now) with
  | none => (.ok none, s.unlink temp_path)
  | some row => match s.files.rows temp_path with
    | none => (.error .sourceMissing, s)
    | some file =>
      if file.size ≠ result.size_bytes then (.error .ioFailed, s)
      else (.ok (some row), s.replace temp_path (.artifact result.artifact_key) file)

def complete_job (worker_id : String) (job : Claimed) (result : BackupArtifactResult) (now : Time)
    (s : Store) : Except Error Bool × Store :=
  match rename_artifact settings worker_id job result now s with
  | (.error e, s) => (.error e, s)
  | (.ok none, s) => (.ok false, s)
  | (.ok (some row), s) => (.ok true, s.setJob job.id (completedRow settings result now row))

def BACKUP_ERROR_CODES : List String :=
  ["BACKUP_SOURCE_MISSING", "BACKUP_STORAGE_FULL", "BACKUP_IO_FAILED", "BACKUP_INTERNAL_FAILED"]

def failedRow (error_code : String) (row : BackupJob) : BackupJob :=
  { row with
    status := if 3 ≤ row.attempt_count then .failed else .queued
    lease_owner := none
    lease_expires_at := none
    error_code := some (if error_code ∈ BACKUP_ERROR_CODES then error_code
      else "BACKUP_INTERNAL_FAILED") }

def fail_job (worker_id : String) (job : Claimed) (error_code : String) (s : Store) :
    Bool × Store :=
  match (s.jobs.rows job.id).filter (owned worker_id) with
  | none => (false, s)
  | some row => (true, (s.setJob job.id (failedRow error_code row)).unlink
      (attempt_temp_path settings job worker_id))

def due (now : Time) (row : BackupJob) : Bool :=
  decide (row.status = .completed) && row.expires_at.any (fun t => decide (t ≤ now))

def expiredRow (row : BackupJob) : BackupJob :=
  { row with status := .expired, artifact_key := none, artifact_size_bytes := 0 }

/-- One turn of the loop of `expire_artifacts`. -/
def expire_job (s : Store) (job : String × BackupJob) : Store :=
  let s := match job.2.artifact_key with
    | none => s
    | some key => s.unlink (.artifact key)
  ((_cleanup_part job.1 job.2 s).setItems job.1 []).setJob job.1 (expiredRow job.2)

def expire_artifacts (now : Time) (locked : List String) (s : Store) : Store :=
  ((s.jobs.orderedBy BackupJob.created_at).filter
    (fun (id, row) => due now row && decide (id ∉ locked))).foldl expire_job s

end moaworks.mailbox_backup
