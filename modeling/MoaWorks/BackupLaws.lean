-- The laws of the mailbox backups. A job has at most three attempts, all over one snapshot, and
-- only the attempt that holds the lease can write the row or the artifact.
import MoaWorks.BackupInvariant

namespace moaworks.mailbox_backup

variable {settings : Settings}

theorem inv_of_reachable {w : World} (h : (machine settings).Reachable w) : Inv settings w := by
  refine Machine.Reachable.invariant ?_ (fun _ _ _ hi hstep => hi.step hstep) h
  rintro _ rfl
  refine ⟨⟨fun id row hrow => ?_, fun id _ => ⟨rfl, rfl⟩⟩, fun worker_id job hjob => ?_⟩
  · cases hrow
  · cases hjob

/-! ## A lost lease -/

/-- Another worker has claimed the job after the worker who holds it. -/
def TakenOver (w : World) (worker_id : String) (job : Claimed) : Prop :=
  ∃ c ∈ claimsOf w.claims job.id, c.worker_id ≠ worker_id ∧
    job.row.attempt_count < c.job.row.attempt_count

theorem Inv.not_owned {w : World} (h : Inv settings w) {worker_id : String} {job : Claimed}
    (hjob : (w.workers worker_id).job = some job) (htaken : TakenOver w worker_id job)
    {row : BackupJob} (hrow : w.store.jobs.rows job.id = some row) :
    owned worker_id row = false := by
  obtain ⟨c, hc, _, hlater⟩ := htaken
  have hle := ((h.jobs.lawful _ _ hrow).attempt_le hc).2
  by_contra howned
  have heq := (h.workers worker_id job hjob).owner row hrow (Bool.not_eq_false _ ▸ howned)
  omega

/-- The rows, the items and the artifacts stay as they are. -/
def Untouched (s s' : Store) : Prop :=
  s'.jobs = s.jobs ∧ s'.items = s.items ∧
  ∀ key, s'.files.rows (.artifact key) = s.files.rows (.artifact key)

section Lost

variable {s : Store} {worker_id : String} {job : Claimed}

theorem leased_lost (h : ∀ row, s.jobs.rows job.id = some row → owned worker_id row = false)
    (now : Time) : (s.jobs.rows job.id).filter (leased worker_id now) = none := by
  refine Option.filter_eq_none_iff.2 (fun row hrow hleased => ?_)
  simp [leased, h row hrow] at hleased

theorem heartbeat_lost (h : ∀ row, s.jobs.rows job.id = some row → owned worker_id row = false)
    (processed_count : Nat) (now : Time) :
    heartbeat settings worker_id job.id processed_count now s = (false, s) := by
  unfold heartbeat
  rw [leased_lost h]

theorem rename_artifact_lost
    (h : ∀ row, s.jobs.rows job.id = some row → owned worker_id row = false)
    (result : BackupArtifactResult) (now : Time) :
    rename_artifact settings worker_id job result now s =
      (.ok none, s.unlink (result.temp_path.getD (attempt_temp_path settings job worker_id))) := by
  unfold rename_artifact
  rw [leased_lost h]

theorem complete_job_lost
    (h : ∀ row, s.jobs.rows job.id = some row → owned worker_id row = false)
    (result : BackupArtifactResult) (now : Time) :
    complete_job settings worker_id job result now s =
      (.ok false, s.unlink (result.temp_path.getD (attempt_temp_path settings job worker_id))) := by
  unfold complete_job
  rw [rename_artifact_lost h]

theorem fail_job_lost (h : ∀ row, s.jobs.rows job.id = some row → owned worker_id row = false)
    (error_code : String) : fail_job settings worker_id job error_code s = (false, s) := by
  unfold fail_job
  rw [Option.filter_eq_none_iff.2 (fun row hrow howned => by simp [h row hrow] at howned)]

end Lost

theorem untouched_files {s s' : Store} {path : Path} (hpath : ∀ key, path ≠ .artifact key)
    (hjobs : s'.jobs = s.jobs) (hitems : s'.items = s.items)
    (hfiles : ∀ p, p ≠ path → s'.files.rows p = s.files.rows p) : Untouched s s' :=
  ⟨hjobs, hitems, fun key => hfiles _ (Ne.symm (hpath key))⟩

theorem untouched_unlink (s : Store) {path : Path} (hpath : ∀ key, path ≠ .artifact key) :
    Untouched s (s.unlink path) :=
  untouched_files hpath rfl rfl (fun _ hp => if_neg hp)

theorem untouched_write (s : Store) {path : Path} (hpath : ∀ key, path ≠ .artifact key)
    (f : File → File) : Untouched s (s.write path f) := by
  refine untouched_files hpath rfl rfl (fun p hp => ?_)
  unfold Store.write
  rw [Table.rows_update]
  simp [hp]

theorem Untouched.trans {s s' s'' : Store} (h : Untouched s s') (h' : Untouched s' s'') :
    Untouched s s'' :=
  ⟨h'.1.trans h.1, h'.2.1.trans h.2.1, fun key => (h'.2.2 key).trans (h.2.2 key)⟩

/-- A heartbeat after a write to the own file is lost, and the file goes. -/
theorem untouched_beat {s s₁ s' : Store} {worker_id : String} {job : Claimed} {processed_count : Nat}
    {now : Time} {phase₁ phase' : Phase}
    (hlost : ∀ row, s.jobs.rows job.id = some row → owned worker_id row = false)
    (hs₁ : Untouched s s₁)
    (hbeaten : (match heartbeat settings worker_id job.id processed_count now s₁ with
      | (true, s) => some (phase₁, s)
      | (false, s) => some (abandon settings worker_id job .leaseLost s)) = some (phase', s')) :
    Untouched s s' := by
  rw [heartbeat_lost (hs₁.1 ▸ hlost)] at hbeaten
  cases hbeaten
  exact hs₁.trans (untouched_unlink s₁ (fun _ heq => Path.noConfusion heq))

/-- Whatever a worker without the lease does next, it writes no row and no artifact. -/
theorem turn_lost {s s' : Store} {worker_id : String} {job : Claimed} {act : Act}
    {phase phase' : Phase} (hjob : phase.job = some job)
    (hlost : ∀ row, s.jobs.rows job.id = some row → owned worker_id row = false)
    (htemp : ∀ result, phase = .built job result →
      result.temp_path = some (attempt_temp_path settings job worker_id))
    (hturn : turn settings worker_id act phase s = some (phase', s')) : Untouched s s' := by
  have hpath : ∀ key, attempt_temp_path settings job worker_id ≠ .artifact key :=
    fun _ heq => Path.noConfusion heq
  have hself : Untouched s s := ⟨rfl, rfl, fun _ => rfl⟩
  cases phase with
  | idle => cases hjob
  | claimed j =>
    cases hjob
    cases act with
    | open_archive =>
      cases hturn
      exact untouched_files hpath rfl rfl (fun _ hp => Table.rows_set_ne _ _ hp)
    | raised error =>
      cases hturn
      exact hself
    | _ => cases hturn
  | building j build =>
    cases hjob
    cases act with
    | read_items =>
      simp only [turn] at hturn
      split_ifs at hturn
      cases hturn
      exact hself
    | write_message size now =>
      simp only [turn] at hturn
      cases hrows : build.rows with
      | nil =>
        rw [hrows] at hturn
        cases hturn
      | cons item rows =>
        rw [hrows] at hturn
        exact untouched_beat hlost (untouched_write s hpath _) hturn
    | write_chunk size beat =>
      simp only [turn] at hturn
      cases beat with
      | none =>
        cases hturn
        exact untouched_write s hpath _
      | some now => exact untouched_beat hlost (untouched_write s hpath _) hturn
    | close_archive size =>
      simp only [turn] at hturn
      have hwritten := untouched_write s hpath (fun file => { file with size := size })
      split_ifs at hturn with hdone hcount
      · cases hturn
        exact hwritten.trans (untouched_unlink _ hpath)
      · cases hfile : (s.write (attempt_temp_path settings job worker_id)
          (fun file => { file with size := size })).files.rows
            (attempt_temp_path settings job worker_id) with
        | none =>
          rw [hfile] at hturn
          cases hturn
          exact hwritten
        | some file =>
          rw [hfile] at hturn
          cases hturn
          exact hwritten
    | raised error =>
      cases hturn
      exact untouched_unlink s hpath
    | _ => cases hturn
  | archived j result =>
    cases hjob
    cases act with
    | last_heartbeat now => exact untouched_beat hlost hself hturn
    | raised error =>
      cases hturn
      exact hself
    | _ => cases hturn
  | built j result =>
    cases hjob
    have hunlinked : Untouched s (s.unlink (result.temp_path.getD
        (attempt_temp_path settings job worker_id))) := by
      rw [htemp result rfl]
      exact untouched_unlink s hpath
    cases act with
    | complete_job now =>
      simp only [turn, complete_job_lost hlost] at hturn
      cases hturn
      exact hunlinked
    | complete_job_undone now =>
      simp only [turn, rename_artifact_lost hlost] at hturn
      cases hturn
      exact hunlinked
    | raised error =>
      cases hturn
      exact hself
    | _ => cases hturn
  | failing j error_code =>
    cases hjob
    cases act with
    | fail_job =>
      simp only [turn, fail_job_lost hlost] at hturn
      cases hturn
      exact hself
    | _ => cases hturn

variable (settings) in
/-- What is left to a worker whose job another one has taken over. -/
structure LeaseLost (w : World) (worker_id : String) (job : Claimed) : Prop where
  heartbeat : ∀ processed_count now,
    heartbeat settings worker_id job.id processed_count now w.store = (false, w.store)
  complete_job : ∀ result now, w.workers worker_id = .built job result →
    complete_job settings worker_id job result now w.store =
      (.ok false, w.store.unlink (attempt_temp_path settings job worker_id))
  fail_job : ∀ error_code, fail_job settings worker_id job error_code w.store = (false, w.store)
  turn : ∀ act phase' s', turn settings worker_id act (w.workers worker_id) w.store =
    some (phase', s') → Untouched w.store s'

theorem Inv.lease_lost {w : World} (h : Inv settings w) {worker_id : String} {job : Claimed}
    (hjob : (w.workers worker_id).job = some job) (htaken : TakenOver w worker_id job) :
    LeaseLost settings w worker_id job := by
  have hlost : ∀ row, w.store.jobs.rows job.id = some row → owned worker_id row = false :=
    fun row hrow => h.not_owned hjob htaken hrow
  have htemp : ∀ result, w.workers worker_id = .built job result →
      result.temp_path = some (attempt_temp_path settings job worker_id) := by
    intro result hbuilt
    have hprogress := (h.workers worker_id job hjob).progress
    rw [hbuilt] at hprogress
    exact hprogress.2.1
  refine ⟨fun _ _ => heartbeat_lost hlost _ _, fun result now hbuilt => ?_,
    fun _ => fail_job_lost hlost _, fun act phase' s' hturn => turn_lost hjob hlost htemp hturn⟩
  rw [complete_job_lost hlost, htemp result hbuilt, Option.getD_some]

/-! ## What is final -/

/-- What becomes of a row: a failed or an expired one stays, a completed one can only expire. -/
structure Ends (row row' : BackupJob) : Prop where
  final : row.status = .failed ∨ row.status = .expired → row' = row
  completed : row.status = .completed → row' = row ∨ row'.status = .expired

theorem Ends.refl (row : BackupJob) : Ends row row := ⟨fun _ => rfl, fun _ => .inl rfl⟩

theorem Ends.trans {row row' row'' : BackupJob} (h : Ends row row') (h' : Ends row' row'') :
    Ends row row'' where
  final := by
    intro hfinal
    obtain rfl := h.final hfinal
    exact h'.final hfinal
  completed := by
    intro hcompleted
    rcases h.completed hcompleted with rfl | hexpired
    · exact h'.completed hcompleted
    · rw [h'.final (.inr hexpired)]
      exact .inr hexpired

theorem Ends.of_active {row : BackupJob} (h : row.status = .queued ∨ row.status = .running)
    (row' : BackupJob) : Ends row row' := by
  constructor
  · rintro (hstatus | hstatus) <;> simp [hstatus] at h
  · intro hstatus
    simp [hstatus] at h

/-- Each row of the store stays a row, and ends as rows do. -/
def RowsEnd (s s' : Store) : Prop :=
  ∀ id row, s.jobs.rows id = some row → ∃ row', s'.jobs.rows id = some row' ∧ Ends row row'

theorem RowsEnd.of_eq {s s' : Store} (h : s'.jobs = s.jobs) : RowsEnd s s' :=
  fun _ row hrow => ⟨row, h ▸ hrow, .refl row⟩

theorem RowsEnd.trans {s s' s'' : Store} (h : RowsEnd s s') (h' : RowsEnd s' s'') :
    RowsEnd s s'' := by
  intro id row hrow
  obtain ⟨row', hrow', hends⟩ := h id row hrow
  obtain ⟨row'', hrow'', hends'⟩ := h' id row' hrow'
  exact ⟨row'', hrow'', hends.trans hends'⟩

theorem RowsEnd.of_passing {own : Path → Prop} {s s' : Store} (h : Passing own s s') :
    RowsEnd s s' := by
  intro id row hrow
  have hrows := h.rows id
  rw [hrow] at hrows
  generalize hrow' : s'.jobs.rows id = row' at hrows
  cases hrows with
  | some hp => exact ⟨_, rfl, fun hfinal => hp.final (.inr hfinal),
      fun hcompleted => .inl (hp.final (.inl hcompleted))⟩

theorem RowsEnd.of_set {s s' : Store} {id : String} {row' : BackupJob}
    (hjobs : s'.jobs = s.jobs.set id row')
    (hends : ∀ row, s.jobs.rows id = some row → Ends row row') : RowsEnd s s' := by
  intro k row hrow
  rw [hjobs, Table.rows_set]
  split_ifs with hk
  · subst hk
    exact ⟨row', rfl, hends row hrow⟩
  · exact ⟨row, hrow, .refl row⟩

theorem rename_artifact_jobs (worker_id : String) (job : Claimed) (result : BackupArtifactResult)
    (now : Time) (s : Store) :
    (rename_artifact settings worker_id job result now s).2.jobs = s.jobs := by
  unfold rename_artifact
  dsimp only
  cases (s.jobs.rows job.id).filter (leased worker_id now) with
  | none => rfl
  | some row =>
    dsimp only
    cases s.files.rows (result.temp_path.getD (attempt_temp_path settings job worker_id)) with
    | none => rfl
    | some file =>
      dsimp only
      split_ifs with hsize
      · rfl
      · rfl

theorem step_rowsEnd {w w' : World} (h : Inv settings w) {event : Event}
    (hstep : step settings w event = some w') : RowsEnd w.store w'.store := by
  have hcreate : ∀ {id company_id user_id mailbox_type folder_id now s'},
      create_job id company_id user_id mailbox_type folder_id now w.store = .ok s' →
      RowsEnd w.store s' := by
    intro id company_id user_id mailbox_type folder_id now s' hs'
    obtain ⟨hnone, rfl⟩ := create_job_ok hs'
    refine .of_set rfl (fun row hrow => ?_)
    rw [hnone] at hrow
    cases hrow
  cases event with
  | create_job job_id company_id user_id mailbox_type folder_id now =>
    obtain ⟨s', hs', rfl⟩ := Option.map_eq_some_iff.1 hstep
    exact hcreate (Raise.ok_of_toOption hs')
  | retry_job job_id new_id company_id user_id now =>
    obtain ⟨s', hs', rfl⟩ := Option.map_eq_some_iff.1 hstep
    obtain ⟨row, _, hretry⟩ := Raise.bind_ok.1 (Raise.ok_of_toOption hs')
    obtain ⟨_, _, hretry⟩ := Raise.bind_ok.1 hretry
    obtain ⟨_, _, hretry⟩ := Raise.bind_ok.1 hretry
    exact hcreate hretry
  | expire_artifacts now locked =>
    cases hstep
    refine expire_artifacts_rule now locked (.of_eq rfl) (fun s job hs hrow hstatus => ?_)
    refine hs.trans (.of_set (expire_job_jobs s job) (fun row hrow' => ?_))
    rw [hrow] at hrow'
    cases hrow'
    refine ⟨?_, fun _ => .inr rfl⟩
    rintro (hfinal | hfinal) <;> (rw [hstatus] at hfinal; cases hfinal)
  | claim_next worker_id now locked views =>
    have hp : Passing (fun _ => False) w.store (fail_exhausted now w.store) :=
      fail_exhausted_passing w.store now
    simp only [step] at hstep
    split_ifs at hstep with hidle
    rcases claim_next_cases settings worker_id now locked views w.store with
      hnone | ⟨id, row, items, hnext, _, hsome⟩
    · rw [hnone] at hstep
      cases hstep
      exact .of_passing hp
    · rw [hsome] at hstep
      cases hstep
      obtain ⟨hrow, _, hstatus⟩ := nextJob_eq_some hnext
      refine (RowsEnd.of_passing hp).trans (.of_set rfl (fun row' hrow' => ?_))
      rw [hrow] at hrow'
      cases hrow'
      exact .of_active hstatus _
  | turn worker_id act =>
    obtain ⟨⟨phase', s'⟩, hturn, rfl⟩ := Option.map_eq_some_iff.1 hstep
    obtain ⟨job, hjob, hturned⟩ := turn_turned h hturn
    cases hturned with
    | moved hp hphase hprogress => exact .of_passing hp
    | renamed result now hpacked hs' hphase =>
      exact .of_eq (hs' ▸ rename_artifact_jobs worker_id job result now w.store)
    | completed result now hpacked hs' hphase =>
      subst hs'
      unfold complete_job
      rcases rename_artifact_cases worker_id job result now w.store hpacked.2.1 with
        hnone | ⟨row, hrow, hleased, ⟨e, herror⟩ | ⟨file, hfile, hsize, hok⟩⟩
      · rw [hnone]
        exact .of_eq rfl
      · rw [herror]
        exact .of_eq rfl
      · rw [hok]
        refine .of_set rfl (fun row' hrow' => ?_)
        rw [hrow] at hrow'
        cases hrow'
        exact .of_active (.inr (leased_running hleased).2) _

theorem later_rowsEnd {w w' : World} (h : (machine settings).Reachable w)
    (hl : (machine settings).Later w w') : RowsEnd w.store w'.store :=
  Machine.Later.keeps (P := fun w' => RowsEnd w.store w'.store) h hl
    (fun _ _ _ ht hends hstep => hends.trans (step_rowsEnd (inv_of_reachable ht) hstep))
    (.of_eq rfl)

/-! ## A queued job can be claimed -/

theorem fail_exhausted_jobs (now : Time) (s : Store) : (fail_exhausted now s).jobs =
    s.jobs.update (fun _ row => exhausted now row) failExhausted := by
  unfold fail_exhausted
  generalize (s.jobs.orderedBy BackupJob.created_at).filter _ = terminal
  have hfold : ∀ (jobs : List (String × BackupJob)) (s' : Store),
      (jobs.foldl (fun s job => _cleanup_part job.1 job.2 s) s').jobs = s'.jobs := by
    intro jobs
    induction jobs with
    | nil => exact fun _ => rfl
    | cons job jobs ih => exact fun s' => ih _
  exact hfold terminal _

/-- A worker who finds no other job that it can lock takes the queued one. -/
theorem claim_next_queued {s : Store} {id : String} {row : BackupJob}
    (hrow : s.jobs.rows id = some row) (hqueued : row.status = .queued)
    (hlt : row.attempt_count < 3) (worker_id : String) (now : Time) {locked : List String}
    (views : List View) (hfree : id ∉ locked)
    (hothers : ∀ k, k ≠ id → (s.jobs.rows k).isSome → k ∈ locked) :
    ∃ job s', claim_next settings worker_id now locked views s = (some job, s') ∧
      job.id = id := by
  have hrows : (fail_exhausted now s).jobs.rows id = some row := by
    rw [fail_exhausted_jobs, Table.rows_update, hrow]
    simp [exhausted, hqueued]
  have hclaimable : claimable now row = true := by simp [claimable, hqueued, hlt]
  have hfound : nextJob now locked (fail_exhausted now s) ≠ none := by
    intro hnone
    have hall := List.find?_eq_none.1 hnone (id, row) (Table.mem_orderedBy.2 hrows)
    simp [hclaimable, hfree] at hall
  rcases claim_next_cases settings worker_id now locked views s with
    hnone | ⟨k, row', items, hnext, _, hsome⟩
  · unfold claim_next at hnone
    dsimp only at hnone
    cases hnext : nextJob now locked (fail_exhausted now s) with
    | none => exact absurd hnext hfound
    | some found =>
      rw [hnext] at hnone
      cases hnone
  · refine ⟨_, _, hsome, ?_⟩
    by_contra hne
    have hlocked : k ∈ locked := by
      refine hothers k hne ?_
      obtain ⟨hrow', _⟩ := nextJob_eq_some hnext
      rw [fail_exhausted_jobs, Table.rows_update, Option.map_eq_some_iff] at hrow'
      obtain ⟨row₀, hrow₀, _⟩ := hrow'
      rw [hrow₀]
      rfl
    have hpicked := List.find?_some hnext
    simp [hlocked] at hpicked

/-! ## The lifecycle -/

/-- The artifact of a completed job: its bytes, with a message for each item of the snapshot. -/
def HasArtifact (w : World) (id : String) (row : BackupJob) : Prop :=
  ∃ key file, row.artifact_key = some key ∧ w.store.files.rows (.artifact key) = some file ∧
    file.size = row.artifact_size_bytes ∧ ∀ c ∈ claimsOf w.claims id, file.entries = c.items

/-- In each run, whatever the workers do and wherever they stop: a job has at most three attempts,
the first takes the snapshot, and all write its items; a worker whose job was taken over can do
nothing to it; what is completed has its artifact until it expires; what has failed or expired
stays so; and a queued job can be claimed. -/
theorem jobs_keep_their_lifecycle {w : World} (h : (machine settings).Reachable w) :
    (∀ id, (claimsOf w.claims id).length ≤ 3) ∧
    (∀ id i c, (claimsOf w.claims id)[i]? = some c → (c.snapshot = true ↔ i = 0) ∧
      ∀ c' ∈ claimsOf w.claims id, c'.items = c.items) ∧
    (∀ worker_id job build, w.workers worker_id = .building job build →
      ∀ c ∈ claimsOf w.claims job.id, build.written ++ build.rows <+: c.items) ∧
    (∀ worker_id job, (w.workers worker_id).job = some job → TakenOver w worker_id job →
      LeaseLost settings w worker_id job) ∧
    (∀ id row, w.store.jobs.rows id = some row → row.status = .completed →
      HasArtifact w id row) ∧
    (∀ w', (machine settings).Later w w' → RowsEnd w.store w'.store) ∧
    (∀ id row, w.store.jobs.rows id = some row → row.status = .queued →
      row.attempt_count < 3 ∧ ∀ worker_id now locked views, id ∉ locked →
        (∀ k, k ≠ id → (w.store.jobs.rows k).isSome → k ∈ locked) →
        ∃ job s', claim_next settings worker_id now locked views w.store = (some job, s') ∧
          job.id = id) := by
  have hinv := inv_of_reachable h
  refine ⟨fun id => ?_, fun id i c hc => ?_, fun worker_id job build hbuilding c hc => ?_,
    fun worker_id job hjob htaken => hinv.lease_lost hjob htaken,
    fun id row hrow hcompleted => ?_, fun w' hl => later_rowsEnd h hl,
    fun id row hrow hqueued => ?_⟩
  · cases hrow : w.store.jobs.rows id with
    | none =>
      rw [(hinv.jobs.absent id hrow).1]
      exact Nat.zero_le 3
    | some row =>
      have hlawful := hinv.jobs.lawful id row hrow
      have hlength := congrArg List.length hlawful.attempts
      rw [List.length_map, List.length_range'] at hlength
      rw [hlength]
      exact hlawful.most
  · have hmem := List.mem_of_getElem? hc
    obtain ⟨hclaim, rfl⟩ := mem_claimsOf.1 hmem
    obtain ⟨row, hrow⟩ := hinv.jobs.found hclaim
    have hlawful := hinv.jobs.lawful _ _ hrow
    refine ⟨?_, fun c' hc' => hlawful.same c' hc' c hmem⟩
    have hattempt := congrArg (fun l => l[i]?) hlawful.attempts
    rw [List.getElem?_map, hc, Option.map_some] at hattempt
    obtain ⟨hi, hattempt⟩ := List.getElem?_eq_some_iff.1 hattempt.symm
    rw [List.getElem_range'] at hattempt
    rw [hlawful.snapshot c hmem, ← hattempt]
    omega
  · have hholds := hinv.workers worker_id job (by rw [hbuilding]; rfl)
    have hprogress := hholds.progress
    rw [hbuilding] at hprogress
    exact (hprogress.1 c hc).1
  · obtain ⟨hkey, file, hfile, hsize, hentries⟩ := (hinv.jobs.lawful id row hrow).artifact hcompleted
    exact ⟨_, file, hkey, hfile, hsize, hentries⟩
  · have hlt := (hinv.jobs.lawful id row hrow).queued hqueued
    exact ⟨hlt, fun worker_id now locked views hfree hothers =>
      claim_next_queued hrow hqueued hlt worker_id now views hfree hothers⟩

/-! ## A takeover -/

def tenMinutes : Settings := ⟨10, 24, id⟩

def emptyWorld : World := ⟨⟨.empty, fun _ => [], .empty⟩, fun _ => .idle, []⟩

/-- The second worker takes the job over while the first one is still writing. -/
def overtaking : List Event :=
  [.create_job "job" "acme" "ana" .inbox none 0,
    .claim_next "first" 1 [] [.recipient "mail" "row"],
    .turn "first" .open_archive, .turn "first" .read_items,
    .claim_next "second" (minutes 20) [] [.recipient "mail" "row", .sender "later"],
    .turn "second" .open_archive, .turn "second" .read_items,
    .turn "second" (.write_message 100 (minutes 21)), .turn "second" (.close_archive 130),
    .turn "second" (.last_heartbeat (minutes 22))]

def completing : List Event := overtaking ++ [.turn "second" (.complete_job (minutes 23))]

def worldAfter (events : List Event) : World :=
  ((machine tenMinutes).run emptyWorld events).getD emptyWorld

theorem reachable_worldAfter (events : List Event)
    (h : ((machine tenMinutes).run emptyWorld events).isSome = true) :
    (machine tenMinutes).Reachable (worldAfter events) := by
  obtain ⟨w, hw⟩ := Option.isSome_iff_exists.1 h
  unfold worldAfter
  rw [hw]
  exact Machine.reachable_of_run rfl hw

/-- The first worker has lost the job, and the archive of the second one becomes the artifact. -/
theorem the_second_worker_completes :
    (∃ job, ((worldAfter overtaking).workers "first").job = some job ∧
      LeaseLost tenMinutes (worldAfter overtaking) "first" job) ∧
    ∃ row, (worldAfter completing).store.jobs.rows "job" = some row ∧ row.status = .completed ∧
      HasArtifact (worldAfter completing) "job" row := by
  constructor
  · obtain ⟨_, _, _, hlost, _⟩ := jobs_keep_their_lifecycle
      (reachable_worldAfter overtaking (by decide +kernel))
    obtain ⟨job, hjob⟩ : ∃ job, ((worldAfter overtaking).workers "first").job = some job :=
      Option.isSome_iff_exists.1 (by decide +kernel)
    have htaken : (((worldAfter overtaking).workers "first").job.any (fun job =>
        (claimsOf (worldAfter overtaking).claims job.id).any (fun c =>
          decide (c.worker_id ≠ "first") &&
          decide (job.row.attempt_count < c.job.row.attempt_count)))) = true := by
      decide +kernel
    rw [hjob, Option.any_some, List.any_eq_true] at htaken
    obtain ⟨c, hc, hlater⟩ := htaken
    simp only [Bool.and_eq_true, decide_eq_true_eq] at hlater
    exact ⟨job, hjob, hlost _ job hjob ⟨c, hc, hlater⟩⟩
  · obtain ⟨_, _, _, _, hartifact, _⟩ := jobs_keep_their_lifecycle
      (reachable_worldAfter completing (by decide +kernel))
    have hcompleted : ((worldAfter completing).store.jobs.rows "job").any
        (fun row => decide (row.status = .completed)) = true := by decide +kernel
    obtain ⟨row, hrow, hstatus⟩ := (Option.any_eq_true _ _).1 hcompleted
    exact ⟨row, hrow, of_decide_eq_true hstatus,
      hartifact "job" row hrow (of_decide_eq_true hstatus)⟩

end moaworks.mailbox_backup
