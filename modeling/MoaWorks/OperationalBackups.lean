-- The operational backups: policies, jobs and restore drills, and the workers that queue what is
-- due, execute one job or drill after another and remove what has expired.
import Mathlib.Data.String.Basic
import MoaWorks.Clock
import MoaWorks.Lib.Machine
import MoaWorks.Lib.Table

namespace moaworks.operational_backup

/-! ## Rows -/

def hours (n : Nat) : Time := minutes (60 * n)

def days (n : Nat) : Time := hours (24 * n)

structure Policy where
  enabled : Bool
  interval_hours : Nat
  retention_days : Nat
  last_scheduled_at : Option Time
  next_scheduled_at : Option Time
  updated_at : Time
  deriving DecidableEq, Repr

inductive Trigger
  | manual | schedule
  deriving DecidableEq, Repr

inductive JobStatus
  | queued | running | completed | failed | expired
  deriving DecidableEq, Repr

/-- A row of `operational_backup_jobs`. Its artifact is the file of its id. -/
structure Job where
  company_id : String
  trigger_type : Trigger
  status : JobStatus
  artifact_sha256 : Option String
  size_bytes : Option Nat
  snapshot_at : Option Time
  started_at : Option Time
  completed_at : Option Time
  expires_at : Option Time
  error : Option (String × String)
  created_at : Time
  updated_at : Time
  deriving DecidableEq, Repr

inductive DrillStatus
  | queued | running | completed | failed
  deriving DecidableEq, Repr

structure Drill where
  company_id : String
  backup_job_id : String
  status : DrillStatus
  isolated_database : Option String
  checksum_verified : Bool
  started_at : Option Time
  completed_at : Option Time
  error : Option (String × String)
  created_at : Time
  updated_at : Time
  deriving DecidableEq, Repr

structure Db where
  policies : Table String Policy
  jobs : Table String Job
  drills : Table String Drill

def newJob (company_id : String) (trigger_type : Trigger) (now : Time) : Job :=
  ⟨company_id, trigger_type, .queued, none, none, none, none, none, none, none, now, now⟩

def newDrill (company_id backup_job_id : String) (now : Time) : Drill :=
  ⟨company_id, backup_job_id, .queued, none, false, none, none, none, now, now⟩

def retention (db : Db) (company_id : String) : Nat :=
  ((db.policies.rows company_id).map Policy.retention_days).getD 30

/-! ## Requests -/

def update_policy (company_id : String) (enabled : Bool) (intervalHours retentionDays : Nat)
    (now : Time) (db : Db) : Db :=
  let next_run := if enabled then some (now + hours intervalHours) else none
  let last := (db.policies.rows company_id).bind Policy.last_scheduled_at
  let policy : Policy := ⟨enabled, intervalHours, retentionDays, last, next_run, now⟩
  { db with policies := db.policies.set company_id policy }

def insertJob (id : String) (job : Job) (db : Db) : Option Db :=
  match db.jobs.rows id with
  | none => some { db with jobs := db.jobs.set id job }
  | some _ => none

def queue_backup (id company_id : String) (now : Time) (db : Db) : Option Db :=
  insertJob id (newJob company_id .manual now) db

/-- A drill needs a backup that is completed. -/
def queue_restore_drill (id company_id backup_id : String) (now : Time) (db : Db) : Option Db :=
  match db.jobs.rows backup_id, db.drills.rows id with
  | some job, none =>
    if job.company_id = company_id ∧ job.status = .completed then
      some { db with drills := db.drills.set id (newDrill company_id backup_id now) }
    else none
  | _, _ => none

/-! ## What is due -/

def isDue (now : Time) (policy : Policy) : Bool :=
  policy.enabled && policy.next_scheduled_at.all (fun t => decide (t ≤ now))

/-- A backup of the company is queued or running. -/
def active (company_id : String) (job : Job) : Bool :=
  decide (job.company_id = company_id) &&
  (decide (job.status = .queued) || decide (job.status = .running))

def reschedule (now : Time) (policy : Policy) : Policy :=
  { policy with
    last_scheduled_at := some now
    next_scheduled_at := some (now + hours policy.interval_hours)
    updated_at := now }

/-- One turn of the loop of `_enqueue_due_backups`. -/
def enqueueOne (now : Time) (id company_id : String) (db : Db) : Option Db :=
  let reset := fun k (_ : Policy) => decide (k = company_id)
  let db' : Db := { db with policies := db.policies.update reset (reschedule now) }
  if (db.jobs.select (fun _ job => active company_id job)).Nonempty then some db'
  else insertJob id (newJob company_id .schedule now) db'

/-- The policies that the query locks; it goes past those that other transactions hold. -/
def duePolicies (now : Time) (busy : List String) (db : Db) : List String :=
  db.policies.orderedKeys.filter (fun company_id =>
    decide (company_id ∉ busy) && (db.policies.rows company_id).any (isDue now))

def _enqueue_due_backups (now : Time) (busy : List String) (new_id : String → String) (db : Db) :
    Option Db :=
  (duePolicies now busy db).foldlM (fun db company_id =>
    enqueueOne now (new_id company_id) company_id db) db

/-! ## Workers -/

/-- The row of a claim, as its worker goes on with it. -/
structure Claimed where
  id : String
  company_id : String
  deriving DecidableEq, Repr

structure ClaimedDrill where
  id : String
  company_id : String
  backup_job_id : String
  deriving DecidableEq, Repr

/-- Where a worker stands in `process_once`. -/
inductive Phase
  | idle
  | enqueued
  | no_backup
  | no_drill
  /-- The claim has committed. -/
  | preparing (job : Claimed)
  | writing (job : Claimed) (now : Time)
  | written (job : Claimed) (now : Time)
  | digested (job : Claimed) (now : Time) (digest : String)
  /-- The handler of `_run_backup`, before and after `unlink`. -/
  | cleaning (job : Claimed) (error : String)
  | failing (job : Claimed) (error : String)
  | drilling (drill : ClaimedDrill)
  | checked (drill : ClaimedDrill)
  | failing_drill (drill : ClaimedDrill) (error : String)
  /-- The rows that are left of `_expire_backups`, and those whose artifacts are gone. -/
  | expiring (now : Time) (left removed : List String)
  deriving DecidableEq, Repr

structure World where
  db : Db
  /-- The artifacts, under the ids of their jobs. -/
  files : Table String (List UInt8)
  workers : Nat → Phase

inductive Act
  | _enqueue_due_backups (now : Time) (busy : List String) (new_id : String → String)
  | _claim_backup (now : Time) (busy : List String)
  | _claim_drill (now : Time) (busy : List String)
  | _expire_backups (now : Time)
  | mkdir (now : Time)
  /-- What `encrypt` has written so far. -/
  | write (bytes : List UInt8)
  | encrypted
  | _sha256
  | _complete_backup (now : Time)
  /-- `_complete_backup` raises, with its transaction committed or not. -/
  | complete_raised (now : Time) (committed : Bool) (error : String)
  /-- An exception in the body of a try. -/
  | raised (error : String)
  | unlink
  | _fail_job (now : Time)
  | check_artifact
  | complete_drill (now : Time) (restore_database : String)
  | remove (raises : Bool)
  | commit
  /-- The worker dies, or an exception leaves `process_once`. -/
  | abort

inductive Event
  | update_policy (company_id : String) (enabled : Bool) (intervalHours retentionDays : Nat)
      (now : Time)
  | queue_backup (id company_id : String) (now : Time)
  | queue_restore_drill (id company_id backup_id : String) (now : Time)
  | work (i : Nat) (act : Act)

def Db.writeJob (db : Db) (id : String) (f : Job → Job) : Db :=
  { db with jobs := db.jobs.update (fun k _ => decide (k = id)) f }

def Db.writeDrill (db : Db) (id : String) (f : Drill → Drill) : Db :=
  { db with drills := db.drills.update (fun k _ => decide (k = id)) f }

def runningJob (now : Time) (job : Job) : Job :=
  { job with status := .running, started_at := some now, updated_at := now }

def runningDrill (now : Time) (drill : Drill) : Drill :=
  { drill with status := .running, started_at := some now, updated_at := now }

def completedJob (digest : String) (size_bytes retention_days : Nat) (snapshot_at now : Time)
    (job : Job) : Job :=
  { job with
    status := .completed
    artifact_sha256 := some digest
    size_bytes := some size_bytes
    snapshot_at := some snapshot_at
    completed_at := some now
    expires_at := some (now + days retention_days)
    updated_at := now }

/-- The first 500 characters of a message. -/
def clipped (error : String) : String := String.ofList (error.toList.take 500)

def failedJob (error : String) (now : Time) (job : Job) : Job :=
  { job with
    status := .failed
    error := some ("BACKUP_EXECUTION_FAILED", clipped error)
    completed_at := some now
    updated_at := now }

def failedDrill (error : String) (now : Time) (drill : Drill) : Drill :=
  { drill with
    status := .failed
    error := some ("RESTORE_DRILL_FAILED", clipped error)
    completed_at := some now
    updated_at := now }

def completedDrill (restore_database : String) (now : Time) (drill : Drill) : Drill :=
  { drill with
    status := .completed
    isolated_database := some restore_database
    checksum_verified := true
    completed_at := some now
    updated_at := now }

/-- `_claim`: the oldest row that is queued, of those that nobody holds. -/
def oldestQueued {ρ : Type} (t : Table String ρ) (queued : ρ → Bool) (created_at : ρ → Time)
    (busy : List String) : Option (String × ρ) :=
  ((t.orderedBy created_at).filter (fun (id, r) => queued r && decide (id ∉ busy))).head?

/-- The rows of `_expire_backups`. -/
def expiredJobs (now : Time) (db : Db) : List String :=
  db.jobs.orderedKeys.filter (fun id => (db.jobs.rows id).any (fun job =>
    decide (job.status = .completed) && job.expires_at.any (fun t => decide (t < now))))

def expiredJob (now : Time) (job : Job) : Job := { job with status := .expired, updated_at := now }

variable (sha256 : List UInt8 → String)

/-- What the drill reads before it restores: the backup and its artifact. -/
def checkArtifact (db : Db) (files : Table String (List UInt8)) (drill : ClaimedDrill) :
    Except String Unit :=
  match db.jobs.rows drill.backup_job_id with
  | some job =>
    if job.company_id = drill.company_id ∧ job.status = .completed then
      match files.rows drill.backup_job_id with
      | some bytes => if job.artifact_sha256 = some (sha256 bytes) then .ok ()
        else .error "백업 artifact checksum이 일치하지 않습니다."
      | none => .error "FileNotFoundError"
    else .error "완료된 백업을 찾을 수 없습니다."
  | none => .error "완료된 백업을 찾을 수 없습니다."

/-- One step of a worker: where it stands then, and what it leaves. -/
def turn (phase : Phase) (db : Db) (files : Table String (List UInt8)) (act : Act) :
    Option (Phase × Db × Table String (List UInt8)) :=
  match phase, act with
  | .idle, ._enqueue_due_backups now busy new_id =>
    (moaworks.operational_backup._enqueue_due_backups now busy new_id db).map (fun db =>
      (.enqueued, db, files))
  | .enqueued, ._claim_backup now busy =>
    match oldestQueued db.jobs (fun job => decide (job.status = .queued)) Job.created_at busy with
    | some (id, job) => some (.preparing ⟨id, job.company_id⟩, db.writeJob id (runningJob now), files)
    | none => some (.no_backup, db, files)
  | .no_backup, ._claim_drill now busy =>
    match oldestQueued db.drills (fun drill => decide (drill.status = .queued)) Drill.created_at
        busy with
    | some (id, drill) => some (.drilling ⟨id, drill.company_id, drill.backup_job_id⟩,
        db.writeDrill id (runningDrill now), files)
    | none => some (.no_drill, db, files)
  | .no_drill, ._expire_backups now => some (.expiring now (expiredJobs now db) [], db, files)
  | .preparing job, .mkdir now => some (.writing job now, db, files)
  | .writing job now, .write bytes => some (.writing job now, db, files.set job.id bytes)
  | .writing job now, .encrypted => some (.written job now, db, files)
  | .written job now, ._sha256 => match files.rows job.id with
    | some bytes => some (.digested job now (sha256 bytes), db, files)
    | none => some (.cleaning job "FileNotFoundError", db, files)
  | .digested job snapshot_at digest, ._complete_backup now => match files.rows job.id with
    | some bytes => some (.idle, db.writeJob job.id
        (completedJob digest bytes.length (retention db job.company_id) snapshot_at now), files)
    | none => some (.cleaning job "FileNotFoundError", db, files)
  | .digested job snapshot_at digest, .complete_raised now committed error =>
    match committed, files.rows job.id with
    | true, some bytes => some (.cleaning job error, db.writeJob job.id
        (completedJob digest bytes.length (retention db job.company_id) snapshot_at now), files)
    | _, _ => some (.cleaning job error, db, files)
  | .writing job _, .raised error => some (.cleaning job error, db, files)
  | .written job _, .raised error => some (.cleaning job error, db, files)
  | .cleaning job error, .unlink => some (.failing job error, db, files.erase job.id)
  | .failing job error, ._fail_job now =>
    some (.idle, db.writeJob job.id (failedJob error now), files)
  | .drilling drill, .check_artifact => match checkArtifact sha256 db files drill with
    | .ok () => some (.checked drill, db, files)
    | .error error => some (.failing_drill drill error, db, files)
  | .drilling drill, .raised error => some (.failing_drill drill error, db, files)
  | .checked drill, .raised error => some (.failing_drill drill error, db, files)
  | .checked drill, .complete_drill now restore_database =>
    some (.idle, db.writeDrill drill.id (completedDrill restore_database now), files)
  | .failing_drill drill error, ._fail_job now =>
    some (.idle, db.writeDrill drill.id (failedDrill error now), files)
  | .expiring now (id :: left) removed, .remove raises =>
    if raises then some (.expiring now left removed, db, files)
    else some (.expiring now left (id :: removed), db, files.erase id)
  | .expiring now [] removed, .commit =>
    let gone := fun k (_ : Job) => decide (k ∈ removed)
    some (.idle, { db with jobs := db.jobs.update gone (expiredJob now) }, files)
  | _, .abort => some (.idle, db, files)
  | _, _ => none

def step (w : World) : Event → Option World
  | .update_policy company_id enabled intervalHours retentionDays now =>
    let db := update_policy company_id enabled intervalHours retentionDays now w.db
    some { w with db := db }
  | .queue_backup id company_id now =>
    (queue_backup id company_id now w.db).map (fun db => { w with db := db })
  | .queue_restore_drill id company_id backup_id now =>
    (queue_restore_drill id company_id backup_id now w.db).map (fun db => { w with db := db })
  | .work i act => (turn sha256 (w.workers i) w.db w.files act).map (fun (phase, db, files) =>
    ⟨db, files, fun k => if k = i then phase else w.workers k⟩)

def machine : Machine World Event where
  Start := fun w => w.db.jobs = .empty ∧ w.db.drills = .empty ∧ ∀ i, w.workers i = .idle
  step := step sha256

end moaworks.operational_backup
