-- The laws of the operational backups over whole runs: what is completed has its artifact, what is
-- running is executed, and what is due is queued, as long as no worker is lost with its job.
import MoaWorks.OperationalBackups

namespace moaworks.operational_backup

variable {sha256 : List UInt8 → String}
variable {db db' : Db} {id company_id : String} {now : Time} {phase : Phase} {i : Nat} {w : World}

/-! ## Queued rows -/

/-- Rows stay, and new ones are queued. -/
structure Adds (db db' : Db) : Prop where
  jobs : ∀ id job, db.jobs.rows id = some job → db'.jobs.rows id = some job
  newJobs : ∀ id job, db'.jobs.rows id = some job →
    db.jobs.rows id = some job ∨ (db.jobs.rows id = none ∧ job.status = .queued)
  drills : ∀ id drill, db'.drills.rows id = some drill →
    db.drills.rows id = some drill ∨ drill.status = .queued

theorem Adds.refl (db : Db) : Adds db db :=
  ⟨fun _ _ h => h, fun _ _ h => .inl h, fun _ _ h => .inl h⟩

theorem Adds.trans {db'' : Db} (h : Adds db db') (h' : Adds db' db'') : Adds db db'' where
  jobs := fun id job hjob => h'.jobs id job (h.jobs id job hjob)
  newJobs := by
    intro id job hjob
    rcases h'.newJobs id job hjob with hold | ⟨hnone, hqueued⟩
    · exact h.newJobs id job hold
    · refine .inr ⟨?_, hqueued⟩
      cases hrow : db.jobs.rows id with
      | none => rfl
      | some old =>
        rw [h.jobs id old hrow] at hnone
        cases hnone
  drills := by
    intro id drill hdrill
    rcases h'.drills id drill hdrill with hold | hqueued
    · exact h.drills id drill hold
    · exact .inr hqueued

theorem adds_policies (db : Db) (policies : Table String Policy) :
    Adds db { db with policies := policies } :=
  ⟨fun _ _ h => h, fun _ _ h => .inl h, fun _ _ h => .inl h⟩

theorem insertJob_ok {job : Job} (h : insertJob id job db = some db') :
    db.jobs.rows id = none ∧ db' = { db with jobs := db.jobs.set id job } := by
  unfold insertJob at h
  split at h
  · rename_i hnone
    exact ⟨hnone, (Option.some.inj h).symm⟩
  · cases h

theorem adds_insertJob {job : Job} (h : insertJob id job db = some db')
    (hqueued : job.status = .queued) : Adds db db' := by
  obtain ⟨hnone, rfl⟩ := insertJob_ok h
  refine ⟨fun k old hold => ?_, fun k new hnew => ?_, fun _ _ hdrill => .inl hdrill⟩
  · have hne : k ≠ id := by
      rintro rfl
      rw [hnone] at hold
      cases hold
    exact (Table.rows_set_ne _ _ hne).trans hold
  · by_cases hne : k = id
    · rw [hne] at hnew
      rw [Table.rows_set_self] at hnew
      cases hnew
      exact .inr ⟨hne ▸ hnone, hqueued⟩
    · rw [Table.rows_set_ne _ _ hne] at hnew
      exact .inl hnew

theorem adds_queue_restore_drill {backup_id : String}
    (h : queue_restore_drill id company_id backup_id now db = some db') : Adds db db' := by
  unfold queue_restore_drill at h
  split at h
  · split_ifs at h
    cases h
    refine ⟨fun _ _ hjob => hjob, fun _ _ hjob => .inl hjob, fun k drill hdrill => ?_⟩
    by_cases hk : k = id
    · rw [hk] at hdrill
      rw [Table.rows_set_self] at hdrill
      cases hdrill
      exact .inr rfl
    · rw [Table.rows_set_ne _ _ hk] at hdrill
      exact .inl hdrill
  · cases h

/-- A backup of the company is queued or running. -/
def Active (db : Db) (company_id : String) : Prop :=
  ∃ id job, db.jobs.rows id = some job ∧ active company_id job = true

theorem active_iff :
    (db.jobs.select (fun _ job => active company_id job)).Nonempty ↔ Active db company_id := by
  constructor
  · rintro ⟨id, hid⟩
    obtain ⟨job, hjob, hactive⟩ := (Table.mem_select _ _ _).1 hid
    exact ⟨id, job, hjob, hactive⟩
  · rintro ⟨id, job, hjob, hactive⟩
    exact ⟨id, (Table.mem_select _ _ _).2 ⟨job, hjob, hactive⟩⟩

/-- One turn leaves the jobs as they are, or puts one in for its company. -/
theorem enqueueOne_ok (h : enqueueOne now id company_id db = some db') :
    Adds db db' ∧ (Active db company_id ∧ db'.jobs = db.jobs ∨
      ¬Active db company_id ∧ db.jobs.rows id = none ∧
        db'.jobs = db.jobs.set id (newJob company_id .schedule now)) := by
  unfold enqueueOne at h
  dsimp only at h
  split_ifs at h with hactive
  · cases h
    exact ⟨adds_policies db _, .inl ⟨active_iff.1 hactive, rfl⟩⟩
  · obtain ⟨hnone, heq⟩ := insertJob_ok h
    refine ⟨(adds_policies db _).trans (adds_insertJob h rfl), .inr ⟨?_, hnone, ?_⟩⟩
    · exact fun ha => hactive (active_iff.2 ha)
    · rw [heq]

theorem adds_enqueue {new_id : String → String} {companies : List String}
    (h : companies.foldlM (fun db company_id =>
      enqueueOne now (new_id company_id) company_id db) db = some db') : Adds db db' := by
  induction companies generalizing db with
  | nil =>
    cases h
    exact Adds.refl _
  | cons company_id companies ih =>
    rw [List.foldlM_cons] at h
    obtain ⟨db₁, h₁, hrest⟩ := Option.bind_eq_some_iff.1 h
    exact (enqueueOne_ok h₁).1.trans (ih hrest)

/-- Each company of the list that has no active backup gets one. -/
theorem enqueue_creates {new_id : String → String} {companies : List String}
    (hmem : company_id ∈ companies) (hidle : ¬Active db company_id)
    (h : companies.foldlM (fun db company_id =>
      enqueueOne now (new_id company_id) company_id db) db = some db') :
    ∃ id, db.jobs.rows id = none ∧
      db'.jobs.rows id = some (newJob company_id .schedule now) := by
  induction companies generalizing db with
  | nil => exact absurd hmem List.not_mem_nil
  | cons c companies ih =>
    rw [List.foldlM_cons] at h
    obtain ⟨db₁, h₁, hrest⟩ := Option.bind_eq_some_iff.1 h
    obtain ⟨hadds, hjobs⟩ := enqueueOne_ok h₁
    by_cases hc : company_id = c
    · subst hc
      rcases hjobs with ⟨hactive, _⟩ | ⟨_, hnone, heq⟩
      · exact absurd hactive hidle
      · refine ⟨new_id company_id, hnone, (adds_enqueue hrest).jobs _ _ ?_⟩
        rw [heq, Table.rows_set_self]
    · -- A job for another company is not one of this company.
      have hidle₁ : ¬Active db₁ company_id := by
        rintro ⟨id, job, hjob, hactive⟩
        rcases hjobs with ⟨_, heq⟩ | ⟨_, hnone, heq⟩
        · rw [heq] at hjob
          exact hidle ⟨id, job, hjob, hactive⟩
        · rw [heq] at hjob
          by_cases hid : id = new_id c
          · rw [hid, Table.rows_set_self] at hjob
            cases hjob
            unfold active newJob at hactive
            rw [Bool.and_eq_true, decide_eq_true_eq] at hactive
            exact hc hactive.1.symm
          · rw [Table.rows_set_ne _ _ hid] at hjob
            exact hidle ⟨id, job, hjob, hactive⟩
      obtain ⟨id, hnone₁, hnew⟩ := ih ((List.mem_cons.1 hmem).resolve_left hc) hidle₁ hrest
      refine ⟨id, ?_, hnew⟩
      cases hrow : db.jobs.rows id with
      | none => rfl
      | some old =>
        rw [hadds.jobs id old hrow] at hnone₁
        cases hnone₁

/-! ## What a turn of a worker does -/

/-- The job that a worker executes. -/
def Phase.job? : Phase → Option Claimed
  | .preparing job => some job
  | .writing job _ => some job
  | .written job _ => some job
  | .digested job _ _ => some job
  | .cleaning job _ => some job
  | .failing job _ => some job
  | _ => none

def Phase.drill? : Phase → Option ClaimedDrill
  | .drilling drill => some drill
  | .checked drill => some drill
  | .failing_drill drill _ => some drill
  | _ => none

def Phase.left : Phase → List String
  | .expiring _ left _ => left
  | _ => []

/-- The jobs whose artifacts the worker has removed in a transaction that is not committed. -/
def Phase.removed : Phase → List String
  | .expiring _ _ removed => removed
  | _ => []

def Phase.Executes (phase : Phase) (id : String) : Prop :=
  ∃ job, phase.job? = some job ∧ job.id = id

def Phase.Drills (phase : Phase) (id : String) : Prop :=
  ∃ drill, phase.drill? = some drill ∧ drill.id = id

/-- The digest of a phase is the one of the artifact. -/
def DigestOk (sha256 : List UInt8 → String) (files : Table String (List UInt8)) (phase : Phase) :
    Prop :=
  ∀ job now digest, phase = .digested job now digest →
    ∃ bytes, files.rows job.id = some bytes ∧ digest = sha256 bytes

/-- The turns of a worker, by what they do to the rows and the artifacts. -/
inductive Turned (sha256 : List UInt8 → String) (phase : Phase) (db : Db)
    (files : Table String (List UInt8)) : Phase → Db → Table String (List UInt8) → Prop
  | enqueue (now : Time) (busy : List String) (new_id : String → String) (db' : Db)
      (hphase : phase = .idle) (h : _enqueue_due_backups now busy new_id db = some db') :
      Turned sha256 phase db files .enqueued db' files
  | claim (id : String) (job : Job) (now : Time) (hphase : phase = .enqueued)
      (hrow : db.jobs.rows id = some job) (hqueued : job.status = .queued) :
      Turned sha256 phase db files (.preparing ⟨id, job.company_id⟩)
        (db.writeJob id (runningJob now)) files
  | claim_drill (id : String) (drill : Drill) (now : Time) (hphase : phase = .no_backup)
      (hrow : db.drills.rows id = some drill) : Turned sha256 phase db files
        (.drilling ⟨id, drill.company_id, drill.backup_job_id⟩)
        (db.writeDrill id (runningDrill now)) files
  | expire (now : Time) (hphase : phase = .no_drill) :
      Turned sha256 phase db files (.expiring now (expiredJobs now db) []) db files
  | move (phase' : Phase) (hjob : phase'.job? = phase.job?) (hdrill : phase'.drill? = phase.drill?)
      (hleft : ∀ id ∈ phase'.left, id ∈ phase.left) (hremoved : phase'.removed = phase.removed)
      (hdigest : DigestOk sha256 files phase') : Turned sha256 phase db files phase' db files
  | write (job : Claimed) (now : Time) (bytes : List UInt8) (hphase : phase = .writing job now) :
      Turned sha256 phase db files (.writing job now) db (files.set job.id bytes)
  | complete (job : Claimed) (snapshot_at : Time) (digest : String) (bytes : List UInt8)
      (retention_days : Nat) (now : Time) (hphase : phase = .digested job snapshot_at digest)
      (hfile : files.rows job.id = some bytes) : Turned sha256 phase db files .idle
        (db.writeJob job.id (completedJob digest bytes.length retention_days snapshot_at now)) files
  | unlink (job : Claimed) (error : String) (hphase : phase = .cleaning job error) :
      Turned sha256 phase db files (.failing job error) db (files.erase job.id)
  | fail (job : Claimed) (error : String) (now : Time) (hphase : phase = .failing job error) :
      Turned sha256 phase db files .idle (db.writeJob job.id (failedJob error now)) files
  | finish_drill (drill : ClaimedDrill) (f : Drill → Drill) (hdrill : phase.drill? = some drill)
      (hjob : phase.job? = none) (hremoved : phase.removed = [])
      (hf : ∀ d, (f d).status ≠ .running) :
      Turned sha256 phase db files .idle (db.writeDrill drill.id f) files
  | remove (now : Time) (id : String) (left removed : List String)
      (hphase : phase = .expiring now (id :: left) removed) :
      Turned sha256 phase db files (.expiring now left (id :: removed)) db (files.erase id)
  | commit (now : Time) (removed : List String) (hphase : phase = .expiring now [] removed) :
      Turned sha256 phase db files .idle
        { db with jobs := db.jobs.update (fun k _ => decide (k ∈ removed)) (expiredJob now) } files

/-- The worker is not lost, and no commit of a completion is reported as a failure. -/
def Act.Orderly : Act → Prop
  | .abort => False
  | .complete_raised _ committed _ => committed = false
  | _ => True

theorem mem_oldestQueued {ρ : Type} {t : Table String ρ} {queued : ρ → Bool} {created_at : ρ → Time}
    {busy : List String} {r : ρ} (h : oldestQueued t queued created_at busy = some (id, r)) :
    t.rows id = some r ∧ queued r = true := by
  unfold oldestQueued at h
  obtain ⟨hmem, hok⟩ := List.mem_filter.1 (List.mem_of_head? h)
  dsimp only at hok
  rw [Bool.and_eq_true] at hok
  exact ⟨Table.mem_orderedBy.1 hmem, hok.1⟩

def Phase.isDigested : Phase → Bool
  | .digested _ _ _ => true
  | _ => false

theorem digestOk_of_not {files : Table String (List UInt8)} (h : phase.isDigested = false) :
    DigestOk sha256 files phase := by
  rintro job now digest rfl
  cases h

theorem turned {phase' : Phase} {files files' : Table String (List UInt8)} {act : Act}
    (hact : act.Orderly) (h : turn sha256 phase db files act = some (phase', db', files')) :
    Turned sha256 phase db files phase' db' files' := by
  unfold turn at h
  split at h
  · -- `_enqueue_due_backups`
    obtain ⟨db'', hqueue, heq⟩ := Option.map_eq_some_iff.1 h
    cases heq
    exact .enqueue _ _ _ db' rfl hqueue
  · -- `_claim_backup`
    split at h
    · rename_i hrow
      cases h
      obtain ⟨hrow, hqueued⟩ := mem_oldestQueued hrow
      exact .claim _ _ _ rfl hrow (of_decide_eq_true hqueued)
    · cases h
      exact .move _ rfl rfl (fun _ h => h) rfl (digestOk_of_not rfl)
  · -- `_claim_drill`
    split at h
    · rename_i hrow
      cases h
      exact .claim_drill _ _ _ rfl (mem_oldestQueued hrow).1
    · cases h
      exact .move _ rfl rfl (fun _ h => h) rfl (digestOk_of_not rfl)
  · -- `_expire_backups`
    cases h
    exact .expire _ rfl
  · -- `mkdir`
    cases h
    exact .move _ rfl rfl (fun _ h => h) rfl (digestOk_of_not rfl)
  · -- `encrypt`
    cases h
    exact .write _ _ _ rfl
  · cases h
    exact .move _ rfl rfl (fun _ h => h) rfl (digestOk_of_not rfl)
  · -- `_sha256`
    split at h
    · rename_i bytes hfile
      cases h
      refine .move _ rfl rfl (fun _ h => h) rfl ?_
      rintro _ _ _ ⟨⟩
      exact ⟨bytes, hfile, rfl⟩
    · cases h
      exact .move _ rfl rfl (fun _ h => h) rfl (digestOk_of_not rfl)
  · -- `_complete_backup`
    split at h
    · rename_i bytes hfile
      cases h
      exact .complete _ _ _ bytes _ _ rfl hfile
    · cases h
      exact .move _ rfl rfl (fun _ h => h) rfl (digestOk_of_not rfl)
  · -- `_complete_backup` raises.
    rename_i committed error
    obtain rfl : committed = false := hact
    cases h
    exact .move _ rfl rfl (fun _ h => h) rfl (digestOk_of_not rfl)
  · cases h
    exact .move _ rfl rfl (fun _ h => h) rfl (digestOk_of_not rfl)
  · cases h
    exact .move _ rfl rfl (fun _ h => h) rfl (digestOk_of_not rfl)
  · -- `unlink`
    cases h
    exact .unlink _ _ rfl
  · -- `_fail_job`
    cases h
    exact .fail _ _ _ rfl
  · -- The checks of a drill.
    split at h
    · cases h
      exact .move _ rfl rfl (fun _ h => h) rfl (digestOk_of_not rfl)
    · cases h
      exact .move _ rfl rfl (fun _ h => h) rfl (digestOk_of_not rfl)
  · cases h
    exact .move _ rfl rfl (fun _ h => h) rfl (digestOk_of_not rfl)
  · cases h
    exact .move _ rfl rfl (fun _ h => h) rfl (digestOk_of_not rfl)
  · -- The end of a drill.
    cases h
    exact .finish_drill _ _ rfl rfl rfl (fun _ => nofun)
  · cases h
    exact .finish_drill _ _ rfl rfl rfl (fun _ => nofun)
  · -- One row of `_expire_backups`.
    split_ifs at h
    · cases h
      exact .move _ rfl rfl (fun _ h => List.mem_cons_of_mem _ h) rfl (digestOk_of_not rfl)
    · cases h
      exact .remove _ _ _ _ rfl
  · cases h
    exact .commit _ _ rfl
  · exact hact.elim
  · cases h

/-! ## Invariant -/

/-- The artifact is the one that the row describes. -/
def Stored (sha256 : List UInt8 → String) (files : Table String (List UInt8)) (id : String)
    (job : Job) : Prop :=
  ∃ bytes, files.rows id = some bytes ∧ job.artifact_sha256 = some (sha256 bytes) ∧
    job.size_bytes = some bytes.length

structure World.Inv (sha256 : List UInt8 → String) (w : World) : Prop where
  held : ∀ i job, (w.workers i).job? = some job →
    ∃ row, w.db.jobs.rows job.id = some row ∧ row.status = .running
  single : ∀ i j job job', (w.workers i).job? = some job → (w.workers j).job? = some job' →
    job.id = job'.id → i = j
  running : ∀ id row, w.db.jobs.rows id = some row → row.status = .running →
    ∃ i, (w.workers i).Executes id
  drills : ∀ id row, w.db.drills.rows id = some row → row.status = .running →
    ∃ i, (w.workers i).Drills id
  digests : ∀ i, DigestOk sha256 w.files (w.workers i)
  completed : ∀ id row, w.db.jobs.rows id = some row → row.status = .completed →
    Stored sha256 w.files id row ∨ ∃ i, id ∈ (w.workers i).removed
  expiring : ∀ i id, id ∈ (w.workers i).left ∨ id ∈ (w.workers i).removed →
    ∃ row, w.db.jobs.rows id = some row ∧ (row.status = .completed ∨ row.status = .expired)

/-- A worker goes on; the others stay where they are. -/
def World.advance (w : World) (i : Nat) (phase : Phase) (db : Db)
    (files : Table String (List UInt8)) : World :=
  ⟨db, files, fun k => if k = i then phase else w.workers k⟩

theorem advance_self (w : World) (i : Nat) (phase : Phase) (db : Db)
    (files : Table String (List UInt8)) : (w.advance i phase db files).workers i = phase :=
  if_pos rfl

theorem advance_ne (w : World) {j : Nat} (phase : Phase) (db : Db)
    (files : Table String (List UInt8)) (h : j ≠ i) :
    (w.advance i phase db files).workers j = w.workers j := if_neg h

theorem worker_cases {j : Nat} {files : Table String (List UInt8)} {P : Phase → Prop}
    (h : P ((w.advance i phase db files).workers j)) :
    (j = i ∧ P phase) ∨ (j ≠ i ∧ P (w.workers j)) := by
  by_cases hj : j = i
  · rw [hj, advance_self] at h
    exact .inl ⟨hj, h⟩
  · rw [advance_ne _ _ _ _ hj] at h
    exact .inr ⟨hj, h⟩

/-- Some worker stands somewhere: it still does, as long as the one that goes on does. -/
theorem exists_advance {files : Table String (List UInt8)} {P : Phase → Prop}
    (h : ∃ j, P (w.workers j)) (hi : P (w.workers i) → P phase) :
    ∃ j, P ((w.advance i phase db files).workers j) := by
  obtain ⟨j, hj⟩ := h
  by_cases hji : j = i
  · refine ⟨i, ?_⟩
    rw [advance_self]
    exact hi (hji ▸ hj)
  · refine ⟨j, ?_⟩
    rw [advance_ne _ _ _ _ hji]
    exact hj

/-- New rows are queued, so nothing is said of them. -/
theorem World.Inv.adds (h : w.Inv sha256) (hadds : Adds w.db db) :
    World.Inv sha256 { w with db := db } where
  held := by
    intro i job hjob
    obtain ⟨row, hrow, hstatus⟩ := h.held i job hjob
    exact ⟨row, hadds.jobs _ row hrow, hstatus⟩
  single := h.single
  running := by
    intro id row hrow hstatus
    rcases hadds.newJobs id row hrow with hold | ⟨_, hqueued⟩
    · exact h.running id row hold hstatus
    · rw [hqueued] at hstatus
      cases hstatus
  drills := by
    intro id row hrow hstatus
    rcases hadds.drills id row hrow with hold | hqueued
    · exact h.drills id row hold hstatus
    · rw [hqueued] at hstatus
      cases hstatus
  digests := h.digests
  completed := by
    intro id row hrow hstatus
    rcases hadds.newJobs id row hrow with hold | ⟨_, hqueued⟩
    · exact h.completed id row hold hstatus
    · rw [hqueued] at hstatus
      cases hstatus
  expiring := by
    intro i id hid
    obtain ⟨row, hrow, hstatus⟩ := h.expiring i id hid
    exact ⟨row, hadds.jobs _ row hrow, hstatus⟩

/-- A worker that keeps its job and removes nothing more. -/
theorem World.Inv.move (h : w.Inv sha256) (hjob : phase.job? = (w.workers i).job?)
    (hdrill : phase.drill? = (w.workers i).drill?)
    (hleft : ∀ id ∈ phase.left, id ∈ (w.workers i).left)
    (hremoved : phase.removed = (w.workers i).removed) (hdigest : DigestOk sha256 w.files phase) :
    (w.advance i phase w.db w.files).Inv sha256 := by
  have hjobs : ∀ j, ((w.advance i phase w.db w.files).workers j).job? = (w.workers j).job? := by
    intro j
    by_cases hj : j = i
    · rw [hj, advance_self, hjob]
    · rw [advance_ne _ _ _ _ hj]
  have hgone : ∀ j,
      ((w.advance i phase w.db w.files).workers j).removed = (w.workers j).removed := by
    intro j
    by_cases hj : j = i
    · rw [hj, advance_self, hremoved]
    · rw [advance_ne _ _ _ _ hj]
  refine ⟨fun j job hj => ?_, fun j k job job' hj hk => ?_, fun id row hrow hs => ?_,
    fun id row hrow hs => ?_, fun j => ?_, fun id row hrow hs => ?_, fun j id hid => ?_⟩
  · rw [hjobs] at hj
    exact h.held j job hj
  · rw [hjobs] at hj hk
    exact h.single j k job job' hj hk
  · refine exists_advance (P := fun phase => phase.Executes id) (h.running id row hrow hs) ?_
    rintro ⟨job, hold, hid⟩
    exact ⟨job, hjob.trans hold, hid⟩
  · refine exists_advance (P := fun phase => phase.Drills id) (h.drills id row hrow hs) ?_
    rintro ⟨drill, hold, hid⟩
    exact ⟨drill, hdrill.trans hold, hid⟩
  · by_cases hj : j = i
    · rw [hj, advance_self]
      exact hdigest
    · rw [advance_ne _ _ _ _ hj]
      exact h.digests j
  · rcases h.completed id row hrow hs with hstored | ⟨j, hj⟩
    · exact .inl hstored
    · exact .inr ⟨j, (hgone j).symm ▸ hj⟩
  · rw [hgone] at hid
    rcases hid with hid | hid
    · rcases worker_cases (P := fun phase => id ∈ phase.left) hid with ⟨rfl, hmine⟩ | ⟨_, hold⟩
      · exact h.expiring j id (.inl (hleft id hmine))
      · exact h.expiring j id (.inl hold)
    · exact h.expiring j id (.inr hid)

/-- Nobody else touches the artifact of a job that is executed. -/
theorem World.Inv.not_removed (h : w.Inv sha256) {job : Claimed}
    (hjob : (w.workers i).job? = some job) (j : Nat) :
    job.id ∉ (w.workers j).left ∧ job.id ∉ (w.workers j).removed := by
  obtain ⟨row, hrow, hrunning⟩ := h.held i job hjob
  have hnot : ¬(job.id ∈ (w.workers j).left ∨ job.id ∈ (w.workers j).removed) := by
    intro hid
    obtain ⟨row', hrow', hstatus⟩ := h.expiring j job.id hid
    rw [hrow] at hrow'
    cases hrow'
    rcases hstatus with hstatus | hstatus
    · rw [hrunning] at hstatus
      cases hstatus
    · rw [hrunning] at hstatus
      cases hstatus
  exact not_or.1 hnot

/-- The worker of a job writes or removes its artifact. -/
theorem World.Inv.files (h : w.Inv sha256) {job : Claimed} (hjob : (w.workers i).job? = some job)
    {files : Table String (List UInt8)}
    (hfiles : ∀ id, id ≠ job.id → files.rows id = w.files.rows id) (hsame : phase.job? = some job)
    (hdrill : (w.workers i).drill? = none)
    (hquiet : phase.isDigested = false ∧ phase.left = [] ∧ phase.removed = [])
    (hremoved : (w.workers i).removed = []) : (w.advance i phase w.db files).Inv sha256 := by
  obtain ⟨hdigest, hleft, hnone⟩ := hquiet
  have hjobs : ∀ j, ((w.advance i phase w.db files).workers j).job? = (w.workers j).job? := by
    intro j
    by_cases hj : j = i
    · rw [hj, advance_self, hsame, hjob]
    · rw [advance_ne _ _ _ _ hj]
  have hnot : ∀ id row, w.db.jobs.rows id = some row → row.status = .completed → id ≠ job.id := by
    rintro id row hrow hstatus rfl
    obtain ⟨row', hrow', hrunning⟩ := h.held i job hjob
    rw [hrow] at hrow'
    cases hrow'
    rw [hstatus] at hrunning
    cases hrunning
  refine ⟨fun j job' hj => ?_, fun j k a b hj hk => ?_, fun id row hrow hs => ?_,
    fun id row hrow hs => ?_, fun j => ?_, fun id row hrow hs => ?_, fun j id hid => ?_⟩
  · rw [hjobs] at hj
    exact h.held j job' hj
  · rw [hjobs] at hj hk
    exact h.single j k a b hj hk
  · refine exists_advance (P := fun phase => phase.Executes id) (h.running id row hrow hs) ?_
    rintro ⟨a, hold, hid⟩
    exact ⟨a, (hsame.trans hjob.symm).trans hold, hid⟩
  · refine exists_advance (P := fun phase => phase.Drills id) (h.drills id row hrow hs) ?_
    rintro ⟨drill, hold, _⟩
    exact absurd (hdrill.symm.trans hold) nofun
  · by_cases hj : j = i
    · rw [hj, advance_self]
      exact digestOk_of_not hdigest
    · rw [advance_ne _ _ _ _ hj]
      intro a now digest heq
      obtain ⟨bytes, hfile, hd⟩ := h.digests j a now digest heq
      have hne : a.id ≠ job.id := fun hid => hj (h.single j i a job (by rw [heq]; rfl) hjob hid)
      exact ⟨bytes, (hfiles a.id hne).trans hfile, hd⟩
  · rcases h.completed id row hrow hs with ⟨bytes, hfile, hrest⟩ | hgone
    · exact .inl ⟨bytes, (hfiles id (hnot id row hrow hs)).trans hfile, hrest⟩
    · refine .inr (exists_advance (P := fun phase => id ∈ phase.removed) hgone (fun hmine => ?_))
      rw [hremoved] at hmine
      exact absurd hmine List.not_mem_nil
  · rcases worker_cases (P := fun phase => id ∈ phase.left ∨ id ∈ phase.removed) hid with
      ⟨_, hmine⟩ | ⟨_, hold⟩
    · rw [hleft, hnone] at hmine
      rcases hmine with hmine | hmine
      · exact absurd hmine List.not_mem_nil
      · exact absurd hmine List.not_mem_nil
    · exact h.expiring j id hold

theorem rows_writeJob (db : Db) (id k : String) (f : Job → Job) :
    (db.writeJob id f).jobs.rows k =
      (db.jobs.rows k).map (fun job => if k = id then f job else job) := by
  unfold Db.writeJob
  rw [Table.rows_update]
  simp only [decide_eq_true_eq]

theorem rows_writeDrill (db : Db) (id k : String) (f : Drill → Drill) :
    (db.writeDrill id f).drills.rows k =
      (db.drills.rows k).map (fun drill => if k = id then f drill else drill) := by
  unfold Db.writeDrill
  rw [Table.rows_update]
  simp only [decide_eq_true_eq]

/-- A row after one row was written: that row, or another as before. -/
theorem of_rows_writeJob {k : String} {f : Job → Job} {row : Job}
    (h : (db.writeJob id f).jobs.rows k = some row) :
    (k = id ∧ ∃ old, db.jobs.rows k = some old ∧ row = f old) ∨
    (k ≠ id ∧ db.jobs.rows k = some row) := by
  rw [rows_writeJob] at h
  obtain ⟨old, hold, rfl⟩ := Option.map_eq_some_iff.1 h
  by_cases hk : k = id
  · rw [if_pos hk]
    exact .inl ⟨hk, old, hold, rfl⟩
  · rw [if_neg hk]
    exact .inr ⟨hk, hold⟩

theorem writeJob_ne {k : String} {f : Job → Job} {row : Job} (h : db.jobs.rows k = some row)
    (hk : k ≠ id) : (db.writeJob id f).jobs.rows k = some row := by
  rw [rows_writeJob, h, Option.map_some, if_neg hk]

/-- The worker of a job is done with it, and the row says how it ended. -/
theorem World.Inv.finish (h : w.Inv sha256) {job : Claimed} (hjob : (w.workers i).job? = some job)
    (hdrill : (w.workers i).drill? = none) (hremoved : (w.workers i).removed = []) {f : Job → Job}
    (hf : ∀ row, (f row).status = .failed ∨
      ((f row).status = .completed ∧ Stored sha256 w.files job.id (f row))) :
    (w.advance i .idle (w.db.writeJob job.id f) w.files).Inv sha256 := by
  have hothers : ∀ j a, j ≠ i → (w.workers j).job? = some a → a.id ≠ job.id :=
    fun j a hj ha hid => hj (h.single j i a job ha hjob hid)
  refine ⟨fun j a hj => ?_, fun j k a b hj hk => ?_, fun id row hrow hs => ?_,
    fun id row hrow hs => ?_, fun j => ?_, fun id row hrow hs => ?_, fun j id hid => ?_⟩
  · rcases worker_cases (P := fun phase => phase.job? = some a) hj with ⟨_, hmine⟩ | ⟨hne, hold⟩
    · cases hmine
    · obtain ⟨row, hrow, hstatus⟩ := h.held j a hold
      exact ⟨row, writeJob_ne hrow (hothers j a hne hold), hstatus⟩
  · rcases worker_cases (P := fun phase => phase.job? = some a) hj with ⟨_, hmine⟩ | ⟨_, hold⟩
    · cases hmine
    · rcases worker_cases (P := fun phase => phase.job? = some b) hk with ⟨_, hmine⟩ | ⟨_, hold'⟩
      · cases hmine
      · exact h.single j k a b hold hold'
  · rcases of_rows_writeJob hrow with ⟨_, old, _, rfl⟩ | ⟨hid, hold⟩
    · rcases hf old with hfailed | ⟨hcompleted, _⟩
      · rw [hfailed] at hs
        cases hs
      · rw [hcompleted] at hs
        cases hs
    · refine exists_advance (P := fun phase => phase.Executes id) (h.running id row hold hs) ?_
      rintro ⟨a, hmine, ha⟩
      cases hjob.symm.trans hmine
      exact absurd ha.symm hid
  · refine exists_advance (P := fun phase => phase.Drills id) (h.drills id row hrow hs) ?_
    rintro ⟨drill, hmine, _⟩
    exact absurd (hdrill.symm.trans hmine) nofun
  · by_cases hj : j = i
    · rw [hj, advance_self]
      exact digestOk_of_not rfl
    · rw [advance_ne _ _ _ _ hj]
      exact h.digests j
  · rcases of_rows_writeJob hrow with ⟨hid, old, _, rfl⟩ | ⟨_, hold⟩
    · rcases hf old with hfailed | ⟨_, hstored⟩
      · rw [hfailed] at hs
        cases hs
      · exact .inl (hid ▸ hstored)
    · refine (h.completed id row hold hs).imp_right (fun hgone =>
        exists_advance (P := fun phase => id ∈ phase.removed) hgone (fun hmine => ?_))
      rw [hremoved] at hmine
      exact absurd hmine List.not_mem_nil
  · rcases worker_cases (P := fun phase => id ∈ phase.left ∨ id ∈ phase.removed) hid with
      ⟨_, hmine⟩ | ⟨_, hold⟩
    · rcases hmine with hmine | hmine
      · exact absurd hmine List.not_mem_nil
      · exact absurd hmine List.not_mem_nil
    · obtain ⟨row, hrow, hstatus⟩ := h.expiring j id hold
      have hne : id ≠ job.id := by
        rintro rfl
        exact hold.elim (h.not_removed hjob j).1 (h.not_removed hjob j).2
      exact ⟨row, writeJob_ne hrow hne, hstatus⟩

/-- A worker takes a queued job. -/
theorem World.Inv.claim (h : w.Inv sha256) (hi : w.workers i = .enqueued) {job : Job}
    (hrow : w.db.jobs.rows id = some job) (hqueued : job.status = .queued) (now : Time) :
    (w.advance i (.preparing ⟨id, job.company_id⟩) (w.db.writeJob id (runningJob now))
      w.files).Inv sha256 := by
  have hfree : ∀ j a, (w.workers j).job? = some a → a.id ≠ id := by
    rintro j a ha rfl
    obtain ⟨row, hrow', hrunning⟩ := h.held j a ha
    rw [hrow] at hrow'
    cases hrow'
    rw [hqueued] at hrunning
    cases hrunning
  refine ⟨fun j a hj => ?_, fun j k a b hj hk hid => ?_, fun k row hk hs => ?_,
    fun k row hk hs => ?_, fun j => ?_, fun k row hk hs => ?_, fun j k hk => ?_⟩
  · rcases worker_cases (P := fun phase => phase.job? = some a) hj with ⟨_, hmine⟩ | ⟨_, hold⟩
    · cases hmine
      refine ⟨runningJob now job, (rows_writeJob _ _ _ _).trans ?_, rfl⟩
      rw [hrow, Option.map_some, if_pos rfl]
    · obtain ⟨row, hold', hstatus⟩ := h.held j a hold
      exact ⟨row, writeJob_ne hold' (hfree j a hold), hstatus⟩
  · rcases worker_cases (P := fun phase => phase.job? = some a) hj with ⟨hji, hmine⟩ | ⟨_, hold⟩
    · cases hmine
      rcases worker_cases (P := fun phase => phase.job? = some b) hk with ⟨hki, _⟩ | ⟨_, hold'⟩
      · exact hji.trans hki.symm
      · exact absurd hid.symm (hfree k b hold')
    · rcases worker_cases (P := fun phase => phase.job? = some b) hk with ⟨_, hmine⟩ | ⟨_, hold'⟩
      · cases hmine
        exact absurd hid (hfree j a hold)
      · exact h.single j k a b hold hold' hid
  · rcases of_rows_writeJob hk with ⟨hid, _⟩ | ⟨_, hold⟩
    · exact ⟨i, ⟨id, job.company_id⟩, by rw [advance_self]; rfl, hid.symm⟩
    · refine exists_advance (P := fun phase => phase.Executes k) (h.running k row hold hs) ?_
      rintro ⟨a, hmine, _⟩
      rw [hi] at hmine
      cases hmine
  · refine exists_advance (P := fun phase => phase.Drills k) (h.drills k row hk hs) ?_
    rintro ⟨drill, hmine, _⟩
    rw [hi] at hmine
    cases hmine
  · by_cases hj : j = i
    · rw [hj, advance_self]
      exact digestOk_of_not rfl
    · rw [advance_ne _ _ _ _ hj]
      exact h.digests j
  · rcases of_rows_writeJob hk with ⟨_, old, _, rfl⟩ | ⟨_, hold⟩
    · cases hs
    · refine (h.completed k row hold hs).imp_right (fun hgone =>
        exists_advance (P := fun phase => k ∈ phase.removed) hgone (fun hmine => ?_))
      rw [hi] at hmine
      exact absurd hmine List.not_mem_nil
  · rcases worker_cases (P := fun phase => k ∈ phase.left ∨ k ∈ phase.removed) hk with
      ⟨_, hmine⟩ | ⟨_, hold⟩
    · rcases hmine with hmine | hmine
      · exact absurd hmine List.not_mem_nil
      · exact absurd hmine List.not_mem_nil
    · obtain ⟨row, hrow', hstatus⟩ := h.expiring j k hold
      have hne : k ≠ id := by
        rintro rfl
        rw [hrow] at hrow'
        cases hrow'
        rw [hqueued] at hstatus
        rcases hstatus with hstatus | hstatus
        · cases hstatus
        · cases hstatus
      exact ⟨row, writeJob_ne hrow' hne, hstatus⟩

/-- A worker goes from one phase without a job to another, and may write a drill. -/
theorem World.Inv.jobless (h : w.Inv sha256) (hold : (w.workers i).job? = none)
    (hnew : phase.job? = none) (hdb : db.jobs = w.db.jobs)
    (hdrills : ∀ id row, db.drills.rows id = some row → row.status = .running →
      ∃ j, ((w.advance i phase db w.files).workers j).Drills id)
    (hremoved : ∀ id row, db.jobs.rows id = some row → row.status = .completed →
      id ∈ (w.workers i).removed → id ∈ phase.removed)
    (hexpiring : ∀ id, id ∈ phase.left ∨ id ∈ phase.removed → ∃ row,
      w.db.jobs.rows id = some row ∧ (row.status = .completed ∨ row.status = .expired)) :
    (w.advance i phase db w.files).Inv sha256 := by
  have hjobs : ∀ j, ((w.advance i phase db w.files).workers j).job? = (w.workers j).job? := by
    intro j
    by_cases hj : j = i
    · rw [hj, advance_self, hnew, hold]
    · rw [advance_ne _ _ _ _ hj]
  refine ⟨fun j job hj => ?_, fun j k job job' hj hk => ?_, fun id row hrow hs => ?_,
    hdrills, fun j => ?_, fun id row hrow hs => ?_, fun j id hid => ?_⟩
  · rw [hjobs] at hj
    obtain ⟨row, hrow, hstatus⟩ := h.held j job hj
    exact ⟨row, (congrArg (fun t => Table.rows t job.id) hdb).trans hrow, hstatus⟩
  · rw [hjobs] at hj hk
    exact h.single j k job job' hj hk
  · have hrow' := (congrArg (fun t => Table.rows t id) hdb).symm.trans hrow
    refine exists_advance (P := fun phase => phase.Executes id) (h.running id row hrow' hs) ?_
    rintro ⟨a, hmine, _⟩
    exact absurd (hold.symm.trans hmine) nofun
  · by_cases hj : j = i
    · rw [hj, advance_self]
      rintro job now digest rfl
      cases hnew
    · rw [advance_ne _ _ _ _ hj]
      exact h.digests j
  · have hrow' := (congrArg (fun t => Table.rows t id) hdb).symm.trans hrow
    exact (h.completed id row hrow' hs).imp_right (fun hgone =>
      exists_advance (P := fun phase => id ∈ phase.removed) hgone (hremoved id row hrow hs))
  · have hrows : ∃ row, w.db.jobs.rows id = some row ∧
        (row.status = .completed ∨ row.status = .expired) := by
      rcases worker_cases (P := fun phase => id ∈ phase.left ∨ id ∈ phase.removed) hid with
        ⟨_, hmine⟩ | ⟨_, hother⟩
      · exact hexpiring id hmine
      · exact h.expiring j id hother
    obtain ⟨row, hrow, hstatus⟩ := hrows
    exact ⟨row, (congrArg (fun t => Table.rows t id) hdb).trans hrow, hstatus⟩

/-- What a worker has in its hands stays there when another drill, or none, is written. -/
theorem World.Inv.drills_keep (h : w.Inv sha256) (hold : (w.workers i).drill? = none) {row : Drill}
    (hrow : w.db.drills.rows id = some row) (hs : row.status = .running) (db : Db)
    (files : Table String (List UInt8)) :
    ∃ j, ((w.advance i phase db files).workers j).Drills id := by
  refine exists_advance (P := fun phase => phase.Drills id) (h.drills id row hrow hs) ?_
  rintro ⟨drill, hmine, _⟩
  exact absurd (hold.symm.trans hmine) nofun

theorem mem_expiredJobs (h : id ∈ expiredJobs now db) :
    ∃ row, db.jobs.rows id = some row ∧ row.status = .completed := by
  unfold expiredJobs at h
  obtain ⟨_, h⟩ := List.mem_filter.1 h
  obtain ⟨row, hrow, hok⟩ := (Option.any_eq_true _ _).1 h
  rw [Bool.and_eq_true, decide_eq_true_eq] at hok
  exact ⟨row, hrow, hok.1⟩

theorem World.Inv.remove (h : w.Inv sha256) {left removed : List String}
    (hi : w.workers i = .expiring now (id :: left) removed) :
    (w.advance i (.expiring now left (id :: removed)) w.db (w.files.erase id)).Inv sha256 := by
  have hleft : id ∈ (w.workers i).left := by
    rw [hi]
    exact List.mem_cons_self
  have hjob : (w.workers i).job? = none := by
    rw [hi]
    rfl
  have hdrill : (w.workers i).drill? = none := by
    rw [hi]
    rfl
  have hjobs : ∀ j, ((w.advance i (.expiring now left (id :: removed)) w.db
      (w.files.erase id)).workers j).job? = (w.workers j).job? := by
    intro j
    by_cases hj : j = i
    · rw [hj, advance_self, hjob]
      rfl
    · rw [advance_ne _ _ _ _ hj]
  refine ⟨fun j job hj => ?_, fun j k job job' hj hk => ?_, fun k row hrow hs => ?_,
    fun k row hrow hs => h.drills_keep hdrill hrow hs _ _, fun j => ?_, fun k row hrow hs => ?_,
    fun j k hk => ?_⟩
  · rw [hjobs] at hj
    exact h.held j job hj
  · rw [hjobs] at hj hk
    exact h.single j k job job' hj hk
  · refine exists_advance (P := fun phase => phase.Executes k) (h.running k row hrow hs) ?_
    rintro ⟨a, hmine, _⟩
    exact absurd (hjob.symm.trans hmine) nofun
  · by_cases hj : j = i
    · rw [hj, advance_self]
      exact digestOk_of_not rfl
    · rw [advance_ne _ _ _ _ hj]
      intro job snapshot_at digest heq
      obtain ⟨bytes, hfile, hd⟩ := h.digests j job snapshot_at digest heq
      have hne : job.id ≠ id := by
        rintro rfl
        exact (h.not_removed (by rw [heq]; rfl) i).1 hleft
      exact ⟨bytes, by rw [World.advance, Table.rows_erase, if_neg hne]; exact hfile, hd⟩
  · by_cases hk : k = id
    · refine .inr ⟨i, ?_⟩
      rw [advance_self, hk]
      exact List.mem_cons_self
    · rcases h.completed k row hrow hs with ⟨bytes, hfile, hrest⟩ | hgone
      · exact .inl ⟨bytes, by rw [World.advance, Table.rows_erase, if_neg hk]; exact hfile, hrest⟩
      · refine .inr (exists_advance (P := fun phase => k ∈ phase.removed) hgone (fun hmine => ?_))
        rw [hi] at hmine
        exact List.mem_cons_of_mem _ hmine
  · rcases worker_cases (P := fun phase => k ∈ phase.left ∨ k ∈ phase.removed) hk with
      ⟨_, hmine⟩ | ⟨_, hold⟩
    · refine h.expiring i k ?_
      rw [hi]
      rcases hmine with hmine | hmine
      · exact .inl (List.mem_cons_of_mem _ hmine)
      · rcases List.mem_cons.1 hmine with rfl | hmine
        · exact .inl List.mem_cons_self
        · exact .inr hmine
    · exact h.expiring j k hold

theorem World.Inv.commit (h : w.Inv sha256) {removed : List String}
    (hi : w.workers i = .expiring now [] removed) :
    (w.advance i .idle { w.db with
      jobs := w.db.jobs.update (fun k _ => decide (k ∈ removed)) (expiredJob now) }
      w.files).Inv sha256 := by
  have hmine : ∀ id ∈ removed, ∃ row, w.db.jobs.rows id = some row ∧
      (row.status = .completed ∨ row.status = .expired) := by
    intro id hid
    refine h.expiring i id (.inr ?_)
    rw [hi]
    exact hid
  have hrows : ∀ id, (w.db.jobs.update (fun k _ => decide (k ∈ removed)) (expiredJob now)).rows id =
      (w.db.jobs.rows id).map (fun row => if id ∈ removed then expiredJob now row else row) := by
    intro id
    rw [Table.rows_update]
    simp only [decide_eq_true_eq]
  -- What a worker executes is not expired.
  have hkeep : ∀ id row, w.db.jobs.rows id = some row → row.status = .running →
      id ∉ removed := by
    intro id row hrow hs hid
    obtain ⟨row', hrow', hstatus⟩ := hmine id hid
    rw [hrow] at hrow'
    cases hrow'
    rw [hs] at hstatus
    rcases hstatus with hstatus | hstatus
    · cases hstatus
    · cases hstatus
  have hold : ∀ id row, (w.db.jobs.update (fun k _ => decide (k ∈ removed))
      (expiredJob now)).rows id = some row → row.status ≠ .expired →
      w.db.jobs.rows id = some row ∧ id ∉ removed := by
    intro id row hrow hs
    rw [hrows] at hrow
    obtain ⟨old, hold, rfl⟩ := Option.map_eq_some_iff.1 hrow
    split_ifs at hs ⊢ with hid
    · exact absurd rfl hs
    · exact ⟨hold, hid⟩
  refine ⟨fun j job hj => ?_, fun j k job job' hj hk => ?_, fun id row hrow hs => ?_,
    fun id row hrow hs => h.drills_keep (by rw [hi]; rfl) hrow hs _ _, fun j => ?_,
    fun id row hrow hs => ?_, fun j id hid => ?_⟩
  · rcases worker_cases (P := fun phase => phase.job? = some job) hj with ⟨_, hnone⟩ | ⟨_, hother⟩
    · cases hnone
    · obtain ⟨row, hrow, hs⟩ := h.held j job hother
      refine ⟨row, (hrows job.id).trans ?_, hs⟩
      rw [hrow, Option.map_some, if_neg (hkeep job.id row hrow hs)]
  · rcases worker_cases (P := fun phase => phase.job? = some job) hj with ⟨_, hnone⟩ | ⟨_, hother⟩
    · cases hnone
    · rcases worker_cases (P := fun phase => phase.job? = some job') hk with
        ⟨_, hnone⟩ | ⟨_, hother'⟩
      · cases hnone
      · exact h.single j k job job' hother hother'
  · have hrow' := (hold id row hrow (by rw [hs]; nofun)).1
    refine exists_advance (P := fun phase => phase.Executes id) (h.running id row hrow' hs) ?_
    rintro ⟨a, hnone, _⟩
    rw [hi] at hnone
    cases hnone
  · by_cases hj : j = i
    · rw [hj, advance_self]
      exact digestOk_of_not rfl
    · rw [advance_ne _ _ _ _ hj]
      exact h.digests j
  · obtain ⟨hrow', hid⟩ := hold id row hrow (by rw [hs]; nofun)
    refine (h.completed id row hrow' hs).imp_right (fun hgone =>
      exists_advance (P := fun phase => id ∈ phase.removed) hgone (fun hin => ?_))
    rw [hi] at hin
    exact absurd hin hid
  · rcases worker_cases (P := fun phase => id ∈ phase.left ∨ id ∈ phase.removed) hid with
      ⟨_, hin⟩ | ⟨_, hother⟩
    · rcases hin with hin | hin
      · exact absurd hin List.not_mem_nil
      · exact absurd hin List.not_mem_nil
    · obtain ⟨row, hrow, hs⟩ := h.expiring j id hother
      refine ⟨_, (hrows id).trans (by rw [hrow, Option.map_some]), ?_⟩
      split_ifs
      · exact .inr rfl
      · exact hs

/-- A turn of a worker that is not lost keeps the invariant. -/
theorem inv_turned (h : w.Inv sha256) {files : Table String (List UInt8)}
    (hturned : Turned sha256 (w.workers i) w.db w.files phase db files) :
    (w.advance i phase db files).Inv sha256 := by
  cases hturned with
  | enqueue now busy new_id _ hi hqueue =>
    have hadds := h.adds (adds_enqueue hqueue)
    refine hadds.jobless (by rw [hi]; rfl) rfl rfl (fun id row hrow hs =>
      hadds.drills_keep (by rw [hi]; rfl) hrow hs _ _) (fun id _ _ _ hid => ?_) ?_
    · rw [hi] at hid
      exact absurd hid List.not_mem_nil
    · rintro id (hid | hid)
      · exact absurd hid List.not_mem_nil
      · exact absurd hid List.not_mem_nil
  | claim id job now hi hrow hqueued => exact h.claim hi hrow hqueued now
  | claim_drill id drill now hi hrow =>
    refine h.jobless (by rw [hi]; rfl) rfl rfl (fun k row hk hs => ?_) (fun id _ _ _ hid => ?_) ?_
    · rw [rows_writeDrill] at hk
      obtain ⟨old, hold, rfl⟩ := Option.map_eq_some_iff.1 hk
      by_cases hid : k = id
      · exact ⟨i, _, by rw [advance_self]; rfl, hid.symm⟩
      · rw [if_neg hid] at hs
        exact h.drills_keep (by rw [hi]; rfl) hold hs _ _
    · rw [hi] at hid
      exact absurd hid List.not_mem_nil
    · rintro id (hid | hid)
      · exact absurd hid List.not_mem_nil
      · exact absurd hid List.not_mem_nil
  | expire now hi =>
    refine h.jobless (by rw [hi]; rfl) rfl rfl (fun id row hrow hs =>
      h.drills_keep (by rw [hi]; rfl) hrow hs _ _) (fun id _ _ _ hid => ?_) ?_
    · rw [hi] at hid
      exact absurd hid List.not_mem_nil
    · rintro id (hid | hid)
      · obtain ⟨row, hrow, hs⟩ := mem_expiredJobs hid
        exact ⟨row, hrow, .inl hs⟩
      · exact absurd hid List.not_mem_nil
  | move _ hjob hdrill hleft hremoved hdigest => exact h.move hjob hdrill hleft hremoved hdigest
  | write job now bytes hi =>
    have hjob : (w.workers i).job? = some job := by
      rw [hi]
      rfl
    exact h.files hjob (fun id hid => Table.rows_set_ne _ _ hid) rfl (by rw [hi]; rfl)
      ⟨rfl, rfl, rfl⟩ (by rw [hi]; rfl)
  | complete job snapshot_at digest bytes retention_days now hi hfile =>
    refine h.finish (by rw [hi]; rfl) (by rw [hi]; rfl) (by rw [hi]; rfl) (fun row => .inr ⟨rfl, ?_⟩)
    obtain ⟨bytes', hfile', rfl⟩ := h.digests i job snapshot_at digest hi
    rw [hfile] at hfile'
    cases hfile'
    exact ⟨bytes, hfile, rfl, rfl⟩
  | unlink job error hi =>
    have hjob : (w.workers i).job? = some job := by
      rw [hi]
      rfl
    exact h.files hjob (fun id hid => by rw [Table.rows_erase, if_neg hid]) rfl (by rw [hi]; rfl)
      ⟨rfl, rfl, rfl⟩ (by rw [hi]; rfl)
  | fail job error now hi =>
    exact h.finish (by rw [hi]; rfl) (by rw [hi]; rfl) (by rw [hi]; rfl) (fun row => .inl rfl)
  | finish_drill drill f hdrill hjob hremoved hf =>
    refine h.jobless hjob rfl rfl (fun k row hk hs => ?_) (fun id _ _ _ hid => ?_) ?_
    · rw [rows_writeDrill] at hk
      obtain ⟨old, hold, rfl⟩ := Option.map_eq_some_iff.1 hk
      split_ifs at hs with hid
      · exact absurd hs (hf old)
      · refine exists_advance (P := fun phase => phase.Drills k) (h.drills k old hold hs) ?_
        rintro ⟨d, hmine, hd⟩
        cases hdrill.symm.trans hmine
        exact absurd hd.symm hid
    · rw [hremoved] at hid
      exact absurd hid List.not_mem_nil
    · rintro id (hid | hid)
      · exact absurd hid List.not_mem_nil
      · exact absurd hid List.not_mem_nil
  | remove now id left removed hi => exact h.remove hi
  | commit now removed hi => exact h.commit hi

/-! ## Whole runs -/

/-- No worker is lost with a job or a drill that is running, or between the removal of an artifact
and the commit of its expiry; and no commit of a completion is reported as a failure. -/
def Meets (w : World) : Event → Prop
  | .work i .abort =>
    (∀ job, (w.workers i).job? = some job → ∀ row, w.db.jobs.rows job.id = some row →
      row.status ≠ .running) ∧
    (∀ drill, (w.workers i).drill? = some drill → ∀ row, w.db.drills.rows drill.id = some row →
      row.status ≠ .running) ∧
    ∀ id ∈ (w.workers i).removed, ∀ row, w.db.jobs.rows id = some row → row.status ≠ .completed
  | .work _ (.complete_raised _ committed _) => committed = false
  | _ => True

theorem abort_turn {phase' : Phase} {files files' : Table String (List UInt8)}
    (h : turn sha256 phase db files .abort = some (phase', db', files')) :
    phase' = .idle ∧ db' = db ∧ files' = files := by
  have habort : turn sha256 phase db files .abort = some (.idle, db, files) := by
    cases phase with
    | expiring now left removed =>
      cases left with
      | nil => rfl
      | cons id left => rfl
    | _ => rfl
  rw [habort] at h
  cases h
  exact ⟨rfl, rfl, rfl⟩

theorem enqueue_turn {phase' : Phase} {files files' : Table String (List UInt8)}
    {busy : List String} {new_id : String → String}
    (h : turn sha256 phase db files (._enqueue_due_backups now busy new_id) =
      some (phase', db', files')) : _enqueue_due_backups now busy new_id db = some db' := by
  cases phase with
  | idle =>
    obtain ⟨db'', hqueue, heq⟩ := Option.map_eq_some_iff.1 h
    cases heq
    exact hqueue
  | expiring now left removed =>
    cases left with
    | nil => cases h
    | cons id left => cases h
  | _ => cases h

theorem inv_abort (h : w.Inv sha256) (hmeets : Meets w (.work i .abort)) :
    (w.advance i .idle w.db w.files).Inv sha256 := by
  obtain ⟨hjobs, hdrills, hremoved⟩ := hmeets
  have hjob : (w.workers i).job? = none := by
    cases hjob : (w.workers i).job? with
    | none => rfl
    | some job =>
      obtain ⟨row, hrow, hrunning⟩ := h.held i job hjob
      exact absurd hrunning (hjobs job hjob row hrow)
  refine h.jobless hjob rfl rfl (fun id row hrow hs => ?_)
    (fun id row hrow hs hid => absurd hs (hremoved id hid row hrow)) ?_
  · refine exists_advance (P := fun phase => phase.Drills id) (h.drills id row hrow hs) ?_
    rintro ⟨drill, hdrill, rfl⟩
    exact absurd hs (hdrills drill hdrill row hrow)
  · rintro id (hid | hid)
    · exact absurd hid List.not_mem_nil
    · exact absurd hid List.not_mem_nil

theorem inv_step {w' : World} (h : w.Inv sha256) {event : Event} (hmeets : Meets w event)
    (hstep : step sha256 w event = some w') : w'.Inv sha256 := by
  cases event with
  | update_policy company_id enabled intervalHours retentionDays now =>
    cases hstep
    exact h.adds (adds_policies w.db _)
  | queue_backup id company_id now =>
    obtain ⟨db, hdb, rfl⟩ := Option.map_eq_some_iff.1 hstep
    exact h.adds (adds_insertJob hdb rfl)
  | queue_restore_drill id company_id backup_id now =>
    obtain ⟨db, hdb, rfl⟩ := Option.map_eq_some_iff.1 hstep
    exact h.adds (adds_queue_restore_drill hdb)
  | work i act =>
    obtain ⟨⟨phase, db, files⟩, hturn, rfl⟩ := Option.map_eq_some_iff.1 hstep
    by_cases habort : act = .abort
    · subst habort
      obtain ⟨rfl, rfl, rfl⟩ := abort_turn hturn
      exact inv_abort h hmeets
    · have horderly : act.Orderly := by
        cases act with
        | abort => exact absurd rfl habort
        | complete_raised now committed error => exact hmeets
        | _ => trivial
      exact inv_turned h (turned horderly hturn)

theorem inv_of_reach (h : (machine sha256).Reach Meets w) : w.Inv sha256 := by
  refine h.invariant (I := World.Inv sha256) ?_
    (fun _ _ _ _ hinv hmeets hstep => inv_step hinv hmeets hstep)
  rintro s ⟨hjobs, hdrills, hworkers⟩
  refine ⟨fun i job hi => ?_, fun i j job job' hi => ?_, fun id row hrow => ?_,
    fun id row hrow => ?_, fun i => ?_, fun id row hrow => ?_, fun i id hid => ?_⟩
  · rw [hworkers] at hi
    cases hi
  · rw [hworkers] at hi
    cases hi
  · rw [hjobs] at hrow
    cases hrow
  · rw [hdrills] at hrow
    cases hrow
  · rw [hworkers]
    exact digestOk_of_not rfl
  · rw [hjobs] at hrow
    cases hrow
  · rw [hworkers] at hid
    rcases hid with hid | hid
    · exact absurd hid List.not_mem_nil
    · exact absurd hid List.not_mem_nil

/-- In the runs in which no worker is lost with what it has taken: what is completed has the
artifact that is recorded, up to its expiry; what is running is executed; and each policy that is
due gets a backup, when none is queued or executed. -/
theorem backups_never_stall (sha256 : List UInt8 → String) {w : World}
    (h : (machine sha256).Reach Meets w) :
    (∀ id row, w.db.jobs.rows id = some row → row.status = .completed →
      Stored sha256 w.files id row ∨ ∃ i, id ∈ (w.workers i).removed) ∧
    (∀ id row, w.db.jobs.rows id = some row → row.status = .running →
      ∃ i, (w.workers i).Executes id) ∧
    (∀ id row, w.db.drills.rows id = some row → row.status = .running →
      ∃ i, (w.workers i).Drills id) ∧
    ∀ i now busy new_id w',
      step sha256 w (.work i (._enqueue_due_backups now busy new_id)) = some w' →
      ∀ company_id policy, w.db.policies.rows company_id = some policy → isDue now policy = true →
      company_id ∉ busy → (∀ id row, w.db.jobs.rows id = some row → row.company_id = company_id →
        row.status ≠ .queued ∧ ∀ j, ¬(w.workers j).Executes id) →
      ∃ id, w.db.jobs.rows id = none ∧
        w'.db.jobs.rows id = some (newJob company_id .schedule now) := by
  have hinv := inv_of_reach h
  refine ⟨hinv.completed, hinv.running, hinv.drills, ?_⟩
  intro i now busy new_id w' hstep company_id policy hpolicy hdue hbusy hquiet
  obtain ⟨⟨phase, db, files⟩, hturn, rfl⟩ := Option.map_eq_some_iff.1 hstep
  have hidle : ¬Active w.db company_id := by
    rintro ⟨id, row, hrow, hactive⟩
    unfold active at hactive
    rw [Bool.and_eq_true, Bool.or_eq_true, decide_eq_true_eq, decide_eq_true_eq,
      decide_eq_true_eq] at hactive
    obtain ⟨hcompany, hstatus⟩ := hactive
    obtain ⟨hqueued, hnobody⟩ := hquiet id row hrow hcompany
    rcases hstatus with hstatus | hstatus
    · exact hqueued hstatus
    · obtain ⟨j, hj⟩ := hinv.running id row hrow hstatus
      exact hnobody j hj
  have hmem : company_id ∈ duePolicies now busy w.db := by
    unfold duePolicies
    refine List.mem_filter.2 ⟨Table.mem_orderedKeys.2 (by rw [hpolicy]; rfl), ?_⟩
    rw [Bool.and_eq_true, hpolicy]
    exact ⟨decide_eq_true hbusy, hdue⟩
  exact enqueue_creates hmem hidle (enqueue_turn hturn)

/-! ## One company -/

def noBackups : World :=
  ⟨⟨.empty, .empty, .empty⟩, .empty, fun _ => .idle⟩

/-- The digest of the artifact below. -/
def exampleDigest (bytes : List UInt8) : String :=
  if bytes = [97, 98, 99] then "ba7816bf8f01cfea414140de5dae2223b00361a396177a9cb410ff61f20015ad"
  else ""

theorem start_noBackups : (machine exampleDigest).Start noBackups := ⟨rfl, rfl, fun _ => rfl⟩

/-- A policy of one backup a day, and a worker that takes the job of the first day. -/
def claimed : List Event :=
  [.update_policy "acme" true 24 30 0, .work 0 (._enqueue_due_backups (hours 24) [] (fun _ => "b1")),
    .work 0 (._claim_backup (hours 24) [])]

def inOrder : Event → Bool
  | .work _ .abort => false
  | .work _ (.complete_raised _ _ _) => false
  | _ => true

theorem meets_of_inOrder (w : World) (event : Event) (h : inOrder event = true) :
    Meets w event := by
  cases event with
  | work i act =>
    cases act with
    | abort => cases h
    | complete_raised now committed error => cases h
    | _ => trivial
  | _ => trivial

def backedUp : World :=
  ((machine exampleDigest).runWithin (fun _ event => inOrder event = true) noBackups
    (claimed ++ [.work 0 (.mkdir (hours 24)), .work 0 (.write [97, 98, 99]), .work 0 .encrypted,
      .work 0 ._sha256, .work 0 (._complete_backup (hours 25))])).get (by decide)

/-- The backup of the first day is completed, with its artifact. -/
theorem the_backup_is_stored : ∃ row, backedUp.db.jobs.rows "b1" = some row ∧
    row.status = .completed ∧
    (Stored exampleDigest backedUp.files "b1" row ∨ ∃ i, "b1" ∈ (backedUp.workers i).removed) := by
  have hreach : (machine exampleDigest).Reach Meets backedUp :=
    ((Machine.Reach.start start_noBackups).runWithin (Option.some_get _).symm).mono
      meets_of_inOrder
  have hsome : (backedUp.db.jobs.rows "b1").isSome := by decide +kernel
  obtain ⟨row, hrow⟩ := Option.isSome_iff_exists.1 hsome
  have hstatus : (backedUp.db.jobs.rows "b1").map Job.status = some .completed := by decide +kernel
  rw [hrow] at hstatus
  have hcompleted : row.status = .completed := Option.some.inj hstatus
  exact ⟨row, hrow, hcompleted, (backups_never_stall exampleDigest hreach).1 "b1" row hrow hcompleted⟩

/-- A worker that takes no turn stays where it is. -/
theorem workers_run {w' : World} {events : List Event} {j : Nat}
    (hj : ∀ event ∈ events, ∀ act, event ≠ .work j act)
    (h : (machine sha256).run w events = some w') : w'.workers j = w.workers j := by
  induction events generalizing w with
  | nil =>
    cases h
    rfl
  | cons event events ih =>
    obtain ⟨u, hu, hrest⟩ := Option.bind_eq_some_iff.1 h
    refine (ih (fun e he => hj e (List.mem_cons_of_mem _ he)) hrest).trans ?_
    cases event with
    | update_policy company_id enabled intervalHours retentionDays now =>
      cases hu
      rfl
    | queue_backup id company_id now =>
      obtain ⟨db, _, rfl⟩ := Option.map_eq_some_iff.1 hu
      rfl
    | queue_restore_drill id company_id backup_id now =>
      obtain ⟨db, _, rfl⟩ := Option.map_eq_some_iff.1 hu
      rfl
    | work i act =>
      obtain ⟨⟨phase, db, files⟩, _, rfl⟩ := Option.map_eq_some_iff.1 hu
      have hne : j ≠ i := by
        rintro rfl
        exact hj _ List.mem_cons_self act rfl
      exact advance_ne w phase db files hne

def abandoned : World :=
  ((machine exampleDigest).run noBackups (claimed ++ [.work 0 .abort])).get (by decide)

/-- The scheduler of the next day. -/
def nextDay : World :=
  (step exampleDigest abandoned (.work 0 (._enqueue_due_backups (hours 48) [] (fun _ => "b2")))).get
    (by decide)

/-- The job of a worker that is lost stays as it is: nobody executes it, and no backup is queued
any more. -/
theorem a_lost_worker_stops_the_backups : (machine exampleDigest).Reachable abandoned ∧
    (abandoned.db.jobs.rows "b1").map Job.status = some .running ∧
    (∀ i, ¬(abandoned.workers i).Executes "b1") ∧ abandoned.db.jobs.keys = {"b1"} ∧
    (abandoned.db.policies.rows "acme").any (isDue (hours 48)) = true ∧
    step exampleDigest abandoned
      (.work 0 (._enqueue_due_backups (hours 48) [] (fun _ => "b2"))) = some nextDay ∧
    nextDay.db.jobs.keys = {"b1"} ∧
    (nextDay.db.policies.rows "acme").bind Policy.next_scheduled_at = some (hours 72) := by
  have hrun : (machine exampleDigest).run noBackups (claimed ++ [.work 0 .abort]) =
      some abandoned := (Option.some_get _).symm
  refine ⟨Machine.reachable_of_run start_noBackups hrun, by decide +kernel, ?_, by decide +kernel,
    by decide +kernel, (Option.some_get _).symm, by decide +kernel, by decide +kernel⟩
  rintro i ⟨job, hjob, _⟩
  have hidle : abandoned.workers i = .idle := by
    by_cases hi : i = 0
    · rw [hi]
      decide +kernel
    · refine workers_run (fun event hevent act => ?_) hrun
      rintro rfl
      rcases List.mem_append.1 hevent with hevent | hevent
      · unfold claimed at hevent
        simp [hi] at hevent
      · simp [hi] at hevent
  rw [hidle] at hjob
  cases hjob

end moaworks.operational_backup
