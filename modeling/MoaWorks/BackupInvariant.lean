-- The invariant of the mailbox backups: what holds of a job with its claims, and of a worker with
-- the job that it holds, between any two transactions.
import MoaWorks.BackupSteps

namespace moaworks.mailbox_backup

variable {settings : Settings}
variable {own : Path → Prop} {s' : Store} {row' : BackupJob} {worker_id : String}
  {phase phase' : Phase} {job : Claimed} {now : Time} {w : World}

/-! ## The invariant of a job -/

/-- A row with the claims of its job. -/
structure Lawful (s : Store) (id : String) (row : BackupJob) (claims : List Claim) : Prop where
  attempts : claims.map (fun c => c.job.row.attempt_count) = List.range' 1 row.attempt_count
  most : row.attempt_count ≤ 3
  queued : row.status = .queued → row.attempt_count < 3
  snapshot_at : row.snapshot_at = none ↔ row.attempt_count = 0
  unclaimed : row.attempt_count = 0 → s.items id = []
  items : row.status ≠ .expired → ∀ c ∈ claims, s.items id = c.items
  deleted : row.status = .expired → s.items id = []
  same : ∀ c ∈ claims, ∀ c' ∈ claims, c.items = c'.items
  ordered : ∀ c ∈ claims, Ordered c.items
  snapshot : ∀ c ∈ claims, c.snapshot = true ↔ c.job.row.attempt_count = 1
  key : ∀ c ∈ claims, artifact_key id c.job.row = artifact_key id row
  artifact : row.status = .completed → row.artifact_key = some (artifact_key id row) ∧
    ∃ file, s.files.rows (.artifact (artifact_key id row)) = some file ∧
      file.size = row.artifact_size_bytes ∧ ∀ c ∈ claims, file.entries = c.items

structure Jobs (s : Store) (claims : List Claim) : Prop where
  lawful : ∀ id row, s.jobs.rows id = some row → Lawful s id row (claimsOf claims id)
  absent : ∀ id, s.jobs.rows id = none → claimsOf claims id = [] ∧ s.items id = []

def Expired (s : Store) (id : String) : Prop :=
  ∃ row, s.jobs.rows id = some row ∧ row.status = .expired

variable (settings) in
/-- The file of an attempt that has gone through all its items. -/
def Packed (s : Store) (claims : List Claim) (worker_id : String) (job : Claimed)
    (result : BackupArtifactResult) : Prop :=
  result.artifact_key = artifact_key job.id job.row ∧
  result.temp_path = some (attempt_temp_path settings job worker_id) ∧
  ∀ file, s.files.rows (attempt_temp_path settings job worker_id) = some file →
    ∀ c ∈ claimsOf claims job.id, file.entries = c.items ∨ Expired s job.id

variable (settings) in
def Progress (s : Store) (claims : List Claim) (worker_id : String) : Phase → Prop
  | .building job build =>
    (∀ c ∈ claimsOf claims job.id, build.written ++ build.rows <+: c.items ∧
      (build.manifest_count = c.items.length ∨ Expired s job.id)) ∧
    build.last_ordinal = lastOrdinal 0 (build.written ++ build.rows) ∧
    ∀ file, s.files.rows (attempt_temp_path settings job worker_id) = some file →
      file.entries = build.written
  | .archived job result => Packed settings s claims worker_id job result
  | .built job result => Packed settings s claims worker_id job result
  | _ => True

variable (settings) in
/-- A worker with the job that it holds. -/
structure Holds (s : Store) (claims : List Claim) (worker_id : String) (phase : Phase)
    (job : Claimed) : Prop where
  claim : ∃ c ∈ claims, c.worker_id = worker_id ∧ c.job = job
  owner : ∀ row, s.jobs.rows job.id = some row → owned worker_id row = true →
    row.attempt_count = job.row.attempt_count
  progress : Progress settings s claims worker_id phase

variable (settings) in
structure Inv (w : World) : Prop where
  jobs : Jobs w.store w.claims
  workers : ∀ worker_id job, (w.workers worker_id).job = some job →
    Holds settings w.store w.claims worker_id (w.workers worker_id) job

/-! ## Claims -/

theorem mem_claimsOf {claims : List Claim} {id : String} {c : Claim} :
    c ∈ claimsOf claims id ↔ c ∈ claims ∧ c.job.id = id := by
  unfold claimsOf
  rw [List.mem_filter, decide_eq_true_eq]

theorem Jobs.found {s : Store} {claims : List Claim} (h : Jobs s claims) {c : Claim}
    (hc : c ∈ claims) : ∃ row, s.jobs.rows c.job.id = some row := by
  cases hrow : s.jobs.rows c.job.id with
  | none =>
    have hnone := (h.absent _ hrow).1
    have hmem := mem_claimsOf.2 ⟨hc, rfl⟩
    rw [hnone] at hmem
    cases hmem
  | some row => exact ⟨row, rfl⟩

/-- The attempts of a job are counted, so two claims with one number are one claim. -/
theorem Jobs.unique {s : Store} {claims : List Claim} (h : Jobs s claims) {c c' : Claim}
    (hc : c ∈ claims) (hc' : c' ∈ claims) (hid : c.job.id = c'.job.id)
    (hattempt : c.job.row.attempt_count = c'.job.row.attempt_count) : c = c' := by
  obtain ⟨row, hrow⟩ := h.found hc
  have hlawful := h.lawful _ _ hrow
  have hnodup : ((claimsOf claims c.job.id).map (fun c => c.job.row.attempt_count)).Nodup := by
    rw [hlawful.attempts]
    exact List.nodup_range'
  exact List.inj_on_of_nodup_map hnodup (mem_claimsOf.2 ⟨hc, rfl⟩)
    (mem_claimsOf.2 ⟨hc', hid.symm⟩) hattempt

theorem Lawful.attempt_le {s : Store} {id : String} {row : BackupJob} {claims : List Claim}
    (h : Lawful s id row claims) {c : Claim} (hc : c ∈ claims) :
    1 ≤ c.job.row.attempt_count ∧ c.job.row.attempt_count ≤ row.attempt_count := by
  have hmem : c.job.row.attempt_count ∈ List.range' 1 row.attempt_count := by
    rw [← h.attempts]
    exact List.mem_map_of_mem hc
  have hrange := List.mem_range'_1.1 hmem
  exact ⟨hrange.1, by omega⟩

/-- No two workers write one file. -/
theorem Jobs.temp_path_ne {s : Store} {claims : List Claim} (h : Jobs s claims) {c c' : Claim}
    (hc : c ∈ claims) (hc' : c' ∈ claims) (hne : c.worker_id ≠ c'.worker_id) :
    attempt_temp_path settings c.job c.worker_id ≠
      attempt_temp_path settings c'.job c'.worker_id := by
  intro heq
  have hpath := Path.attempt.inj heq
  have hid : c.job.id = c'.job.id := congrArg ArtifactKey.job_id hpath.1
  exact hne (congrArg Claim.worker_id (h.unique hc hc' hid hpath.2.1))

/-! ## Steps that pass the rows on -/

theorem passing_row {s : Store} (h : Passing own s s') {id : String}
    (hrow : s'.jobs.rows id = some row') : ∃ row, s.jobs.rows id = some row ∧ Passes row row' := by
  have hrows := h.rows id
  rw [hrow] at hrows
  generalize s.jobs.rows id = row at hrows
  cases hrows with
  | some hp => exact ⟨_, rfl, hp⟩

theorem passing_none {s : Store} (h : Passing own s s') {id : String}
    (hrow : s'.jobs.rows id = none) : s.jobs.rows id = none := by
  have hrows := h.rows id
  rw [hrow] at hrows
  generalize s.jobs.rows id = row at hrows ⊢
  cases hrows
  rfl

theorem Expired.passing {s : Store} (h : Passing own s s') {id : String} (he : Expired s id) :
    Expired s' id := by
  obtain ⟨row, hrow, hstatus⟩ := he
  have hrows := h.rows id
  rw [hrow] at hrows
  generalize hrow' : s'.jobs.rows id = row' at hrows
  cases hrows with
  | some hp =>
    obtain rfl := hp.final (.inr (.inr hstatus))
    exact ⟨_, hrow', hstatus⟩

theorem Jobs.passing {s : Store} {claims : List Claim} (h : Jobs s claims) (hp : Passing own s s')
    (hown : ∀ id row, s.jobs.rows id = some row →
      row.status = .completed → ¬ own (.artifact (artifact_key id row))) : Jobs s' claims := by
  refine ⟨fun id row' hrow' => ?_, fun id hnone => ?_⟩
  · obtain ⟨row, hrow, hpasses⟩ := passing_row hp hrow'
    have hlawful := h.lawful id row hrow
    refine ⟨?_, ?_, ?_, ?_, ?_, ?_, ?_, hlawful.same, hlawful.ordered, hlawful.snapshot, ?_, ?_⟩
    · rw [hpasses.attempt_count]
      exact hlawful.attempts
    · rw [hpasses.attempt_count]
      exact hlawful.most
    · intro hqueued
      rcases hpasses.queued hqueued with hq | hlt
      · rw [hpasses.attempt_count]
        exact hlawful.queued hq
      · exact hlt
    · rw [hpasses.attempt_count, hpasses.snapshot_at]
      exact hlawful.snapshot_at
    · rw [hpasses.attempt_count, hp.items]
      exact hlawful.unclaimed
    · rw [hp.items]
      refine fun hexpired => hlawful.items (fun he => hexpired ?_)
      rw [hpasses.final (.inr (.inr he))]
      exact he
    · intro hexpired
      obtain rfl := hpasses.ended (.inr hexpired)
      rw [hp.items]
      exact hlawful.deleted hexpired
    · intro c hc
      rw [hpasses.key]
      exact hlawful.key c hc
    · intro hcompleted
      obtain rfl := hpasses.ended (.inl hcompleted)
      rw [hp.artifacts _ (hown id _ hrow hcompleted)]
      exact hlawful.artifact hcompleted
  · rw [hp.items]
    exact h.absent id (passing_none hp hnone)

/-- What a worker knows about its file stays true while the others write only theirs. -/
theorem Holds.passing {s : Store} {claims : List Claim}
    (h : Holds settings s claims worker_id phase job) (hjob : phase.job = some job)
    (hp : Passing own s s') (hown : ¬ own (attempt_temp_path settings job worker_id)) :
    Holds settings s' claims worker_id phase job := by
  have hfile : ∀ file, s'.files.rows (attempt_temp_path settings job worker_id) = some file →
      s.files.rows (attempt_temp_path settings job worker_id) = some file := by
    intro file hfile
    rcases hp.parts _ hown with heq | hnone
    · rw [← heq]
      exact hfile
    · rw [hnone] at hfile
      cases hfile
  refine ⟨h.claim, fun row' hrow' howned => ?_, ?_⟩
  · obtain ⟨row, hrow, hpasses⟩ := passing_row hp hrow'
    simp only [owned, Bool.and_eq_true, decide_eq_true_eq] at howned
    obtain ⟨hrunning, hlease⟩ := hpasses.running howned.1
    rw [hpasses.attempt_count]
    refine h.owner row hrow ?_
    simp [owned, hrunning, ← hlease, howned.2]
  · have hprogress := h.progress
    have hpacked : ∀ result, Packed settings s claims worker_id job result →
        Packed settings s' claims worker_id job result := by
      rintro result ⟨hkey, htemp, hentries⟩
      exact ⟨hkey, htemp, fun file hf c hc =>
        (hentries file (hfile file hf) c hc).imp_right (Expired.passing hp)⟩
    cases phase with
    | building j build =>
      cases hjob
      obtain ⟨hread, hlast, hentries⟩ := hprogress
      exact ⟨fun c hc => ⟨(hread c hc).1, (hread c hc).2.imp_right (Expired.passing hp)⟩, hlast,
        fun file hf => hentries file (hfile file hf)⟩
    | archived j result =>
      cases hjob
      exact hpacked result hprogress
    | built j result =>
      cases hjob
      exact hpacked result hprogress
    | idle => trivial
    | claimed j => trivial
    | failing j error_code => trivial

/-! ## Steps that write one row -/

theorem setItems_self (s : Store) (id : String) : s.setItems id (s.items id) = s := by
  have hitems : (fun k => if k = id then s.items id else s.items k) = s.items := by
    funext k
    split_ifs with hk
    · rw [hk]
    · rfl
  unfold Store.setItems
  rw [hitems]

/-- A step that writes the row of one job, its items and its claims. -/
theorem Jobs.setJob {s : Store} {claims claims' : List Claim} (h : Jobs s claims) {id : String}
    {items : List Item} (hl : Lawful (s.setItems id items) id row' (claimsOf claims' id))
    (hclaims : ∀ k, k ≠ id → claimsOf claims' k = claimsOf claims k) :
    Jobs ((s.setItems id items).setJob id row') claims' := by
  have hother : ∀ k, k ≠ id → (s.setItems id items).items k = s.items k := fun k hk => if_neg hk
  refine ⟨fun k row hrow => ?_, fun k hnone => ?_⟩
  · change (s.jobs.set id row').rows k = some row at hrow
    rw [Table.rows_set] at hrow
    split_ifs at hrow with hk
    · cases hrow
      subst hk
      exact ⟨hl.attempts, hl.most, hl.queued, hl.snapshot_at, hl.unclaimed, hl.items, hl.deleted,
        hl.same, hl.ordered, hl.snapshot, hl.key, hl.artifact⟩
    · have hk' := h.lawful k row hrow
      rw [← hclaims k hk] at hk'
      exact ⟨hk'.attempts, hk'.most, hk'.queued, hk'.snapshot_at,
        fun hzero => (hother k hk).trans (hk'.unclaimed hzero),
        fun hlive c hc => (hother k hk).trans (hk'.items hlive c hc),
        fun hexpired => (hother k hk).trans (hk'.deleted hexpired), hk'.same, hk'.ordered,
        hk'.snapshot, hk'.key, hk'.artifact⟩
  · change (s.jobs.set id row').rows k = none at hnone
    rw [Table.rows_set] at hnone
    split_ifs at hnone with hk
    obtain ⟨hnil, hitems⟩ := h.absent k hnone
    exact ⟨(hclaims k hk).trans hnil, (hother k hk).trans hitems⟩

theorem Holds.setItems {s : Store} {claims : List Claim}
    (h : Holds settings s claims worker_id phase job) (id : String) (items : List Item) :
    Holds settings (s.setItems id items) claims worker_id phase job := by
  refine ⟨h.claim, h.owner, ?_⟩
  have hprogress := h.progress
  cases phase with
  | building j build => exact hprogress
  | archived j result => exact hprogress
  | built j result => exact hprogress
  | idle => trivial
  | claimed j => trivial
  | failing j error_code => trivial

/-- A job that had not expired is written, and the worker does not own it afterwards. -/
theorem Holds.setJob {s : Store} {claims : List Claim}
    (h : Holds settings s claims worker_id phase job) {id : String}
    (hlive : ∀ row, s.jobs.rows id = some row → row.status ≠ .expired)
    (howned : owned worker_id row' = false) :
    Holds settings (s.setJob id row') claims worker_id phase job := by
  have hexpired : ∀ k, Expired s k → Expired (s.setJob id row') k := by
    rintro k ⟨row, hrow, hstatus⟩
    have hne : k ≠ id := by
      rintro rfl
      exact hlive row hrow hstatus
    exact ⟨row, (Table.rows_set_ne _ _ hne).trans hrow, hstatus⟩
  refine ⟨h.claim, fun row hrow howns => ?_, ?_⟩
  · change (s.jobs.set id row').rows job.id = some row at hrow
    rw [Table.rows_set] at hrow
    split_ifs at hrow with hk
    · cases hrow
      rw [howned] at howns
      cases howns
    · exact h.owner row hrow howns
  · have hprogress := h.progress
    cases phase with
    | building j build => exact ⟨fun c hc => ⟨(hprogress.1 c hc).1,
        (hprogress.1 c hc).2.imp_right (hexpired _)⟩, hprogress.2⟩
    | archived j result => exact ⟨hprogress.1, hprogress.2.1,
        fun file hf c hc => (hprogress.2.2 file hf c hc).imp_right (hexpired _)⟩
    | built j result => exact ⟨hprogress.1, hprogress.2.1,
        fun file hf c hc => (hprogress.2.2 file hf c hc).imp_right (hexpired _)⟩
    | idle => trivial
    | claimed j => trivial
    | failing j error_code => trivial

/-- A job for which there was no row. -/
theorem lawful_queued {s : Store} {claims : List Claim} (h : Jobs s claims) {id : String}
    (hnone : s.jobs.rows id = none) (company_id user_id : String) (mailbox_type : MailboxType)
    (folder_id : Option String) (now : Time) :
    Lawful s id (queuedJob company_id user_id mailbox_type folder_id now)
      (claimsOf claims id) := by
  obtain ⟨hclaims, hitems⟩ := h.absent id hnone
  rw [hclaims]
  exact {
    attempts := rfl
    most := Nat.zero_le 3
    queued := fun _ => Nat.zero_lt_succ 2
    snapshot_at := ⟨fun _ => rfl, fun _ => rfl⟩
    unclaimed := fun _ => hitems
    items := fun _ _ hc => absurd hc List.not_mem_nil
    deleted := fun hstatus => Status.noConfusion hstatus
    same := fun _ hc => absurd hc List.not_mem_nil
    ordered := fun _ hc => absurd hc List.not_mem_nil
    snapshot := fun _ hc => absurd hc List.not_mem_nil
    key := fun _ hc => absurd hc List.not_mem_nil
    artifact := fun hstatus => Status.noConfusion hstatus }

/-! ## Claiming -/

theorem nextJob_eq_some {locked : List String} {s : Store} {id : String} {row : BackupJob}
    (h : nextJob now locked s = some (id, row)) :
    s.jobs.rows id = some row ∧ row.attempt_count < 3 ∧
      (row.status = .queued ∨ row.status = .running) := by
  have hmem := Table.mem_orderedBy.1 (List.mem_of_find?_eq_some h)
  have hclaimable := List.find?_some h
  simp only [claimable, Bool.and_eq_true, Bool.or_eq_true, decide_eq_true_eq] at hclaimable
  rcases hclaimable.1 with hqueued | hrunning
  · exact ⟨hmem, hqueued.2, .inl hqueued.1⟩
  · exact ⟨hmem, hrunning.2, .inr hrunning.1.1⟩

/-- The items that `claim_next` leaves for the job: those of the claims before, or a snapshot. -/
def itemsAt (row : BackupJob) (items : List Item) (views : List View) : List Item :=
  if row.snapshot_at.isNone then snapshot_items items views else items

theorem itemsAt_eq {s : Store} {claims : List Claim} {id : String} {row : BackupJob}
    (hl : Lawful s id row (claimsOf claims id)) (hlive : row.status ≠ .expired)
    (views : List View) : (∀ c ∈ claimsOf claims id, c.items = itemsAt row (s.items id) views) ∧
      Ordered (itemsAt row (s.items id) views) := by
  unfold itemsAt
  cases hs : row.snapshot_at with
  | none =>
    have hzero := hl.snapshot_at.1 hs
    have hnil : claimsOf claims id = [] := by
      have hmap := hl.attempts
      rw [hzero] at hmap
      exact List.map_eq_nil_iff.1 hmap
    rw [hnil, hl.unclaimed hzero]
    exact ⟨fun _ hc => absurd hc List.not_mem_nil, ordered_snapshot views⟩
  | some t =>
    have hpositive : 0 < row.attempt_count :=
      Nat.pos_of_ne_zero (fun hzero => by simp [hl.snapshot_at.2 hzero] at hs)
    refine ⟨fun c hc => (hl.items hlive c hc).symm, ?_⟩
    cases hclaims : claimsOf claims id with
    | nil =>
      have hmap := congrArg List.length hl.attempts
      simp [hclaims] at hmap
      omega
    | cons c cs =>
      have hc : c ∈ claimsOf claims id := by simp [hclaims]
      simp only [Option.isNone_some, Bool.false_eq_true, if_false]
      rw [hl.items hlive c hc]
      exact hl.ordered c hc

theorem claimsOf_snoc (claims : List Claim) (c : Claim) (id : String) :
    claimsOf (claims ++ [c]) id =
      if c.job.id = id then claimsOf claims id ++ [c] else claimsOf claims id := by
  unfold claimsOf
  rw [List.filter_append]
  split_ifs with hid
  · simp [hid]
  · simp [hid]

section Claiming

variable {s : Store} {claims : List Claim} {id : String} {row : BackupJob} {c : Claim}

/-- One more claim of the job. -/
theorem lawful_claimed {worker_id : String} {now : Time} {total : Nat} {items : List Item}
    (hl : Lawful s id row (claimsOf claims id)) (hlt : row.attempt_count < 3)
    (hc : c.job = ⟨id, claimedRow settings worker_id now total row⟩)
    (hcitems : c.items = items) (hsnapshot : c.snapshot = row.snapshot_at.isNone)
    (hsame : ∀ c ∈ claimsOf claims id, c.items = items) (hordered : Ordered items) :
    Lawful (s.setItems id items) id (claimedRow settings worker_id now total row)
      (claimsOf claims id ++ [c]) := by
  have hattempt : c.job.row.attempt_count = row.attempt_count + 1 := by
    rw [hc]
    rfl
  have hall : ∀ c' ∈ claimsOf claims id ++ [c], c'.items = items := by
    intro c' hc'
    rcases List.mem_append.1 hc' with hc' | hc'
    · exact hsame c' hc'
    · obtain rfl := List.mem_singleton.1 hc'
      exact hcitems
  refine ⟨?_, hlt, fun hstatus => Status.noConfusion hstatus, ?_,
    fun hzero => absurd hzero (Nat.succ_ne_zero _), ?_, fun hstatus => Status.noConfusion hstatus,
    ?_, ?_, ?_, ?_, fun hstatus => Status.noConfusion hstatus⟩
  · rw [List.map_append, hl.attempts, List.map_singleton, hattempt]
    change List.range' 1 row.attempt_count ++ [row.attempt_count + 1] =
      List.range' 1 (row.attempt_count + 1)
    rw [List.range'_1_concat, Nat.add_comm]
  · simp [claimedRow]
  · intro _ c' hc'
    rw [hall c' hc']
    simp [Store.setItems]
  · intro c' hc' c'' hc''
    rw [hall c' hc', hall c'' hc'']
  · intro c' hc'
    rw [hall c' hc']
    exact hordered
  · intro c' hc'
    rcases List.mem_append.1 hc' with hc' | hc'
    · exact hl.snapshot c' hc'
    · obtain rfl := List.mem_singleton.1 hc'
      rw [hsnapshot, hattempt, Option.isNone_iff_eq_none, hl.snapshot_at]
      omega
  · intro c' hc'
    rcases List.mem_append.1 hc' with hc' | hc'
    · exact hl.key c' hc'
    · obtain rfl := List.mem_singleton.1 hc'
      rw [hc]

end Claiming

/-- One more claim over the same items. -/
theorem Holds.more {s : Store} {claims : List Claim}
    (h : Holds settings s claims worker_id phase job) (hjob : phase.job = some job) {c : Claim}
    (hsame : ∀ c' ∈ claimsOf claims c.job.id, c'.items = c.items) :
    Holds settings s (claims ++ [c]) worker_id phase job := by
  obtain ⟨c₀, hc₀, hworker, hc₀job⟩ := h.claim
  have hall : ∀ P : List Item → Prop, (∀ c' ∈ claimsOf claims job.id, P c'.items) →
      ∀ c' ∈ claimsOf (claims ++ [c]) job.id, P c'.items := by
    intro P hP c' hc'
    obtain ⟨hmem, hid⟩ := mem_claimsOf.1 hc'
    rcases List.mem_append.1 hmem with hmem | hmem
    · exact hP c' (mem_claimsOf.2 ⟨hmem, hid⟩)
    · obtain rfl := List.mem_singleton.1 hmem
      have hmem₀ : c₀ ∈ claimsOf claims job.id := mem_claimsOf.2 ⟨hc₀, by rw [hc₀job]⟩
      rw [← hsame c₀ (by rw [hid]; exact hmem₀)]
      exact hP c₀ hmem₀
  refine ⟨⟨c₀, List.mem_append_left _ hc₀, hworker, hc₀job⟩, h.owner, ?_⟩
  have hprogress := h.progress
  cases phase with
  | building j build =>
    cases hjob
    exact ⟨hall (fun items => build.written ++ build.rows <+: items ∧
      (build.manifest_count = items.length ∨ Expired s job.id)) hprogress.1, hprogress.2⟩
  | archived j result =>
    cases hjob
    exact ⟨hprogress.1, hprogress.2.1, fun file hf =>
      hall (fun items => file.entries = items ∨ Expired s job.id) (hprogress.2.2 file hf)⟩
  | built j result =>
    cases hjob
    exact ⟨hprogress.1, hprogress.2.1, fun file hf =>
      hall (fun items => file.entries = items ∨ Expired s job.id) (hprogress.2.2 file hf)⟩
  | idle => trivial
  | claimed j => trivial
  | failing j error_code => trivial

/-! ## Steps of the machine -/

/-- The files that a worker with a job may write. -/
def ownFile (settings : Settings) (worker_id : String) (job : Claimed) (path : Path) : Prop :=
  path = attempt_temp_path settings job worker_id

theorem Inv.ownFile_others (h : Inv settings w) {worker' : String} {job' : Claimed}
    (hjob : (w.workers worker_id).job = some job) (hjob' : (w.workers worker').job = some job')
    (hne : worker' ≠ worker_id) :
    ¬ ownFile settings worker_id job (attempt_temp_path settings job' worker') := by
  obtain ⟨c, hc, rfl, rfl⟩ := (h.workers worker_id job hjob).claim
  obtain ⟨c', hc', rfl, rfl⟩ := (h.workers worker' job' hjob').claim
  exact h.jobs.temp_path_ne hc' hc hne

/-- A step by no worker, or by a worker between two jobs. -/
theorem Inv.passing (h : Inv settings w) (hp : Passing (fun _ => False) w.store s') :
    Inv settings { w with store := s' } where
  jobs := h.jobs.passing hp (fun _ _ _ _ => not_false)
  workers := fun worker_id job hjob => (h.workers worker_id job hjob).passing hjob hp not_false

/-- A step of a worker that passes the rows on. -/
theorem Inv.moved (h : Inv settings w) (hjob : (w.workers worker_id).job = some job)
    (hp : Passing own w.store s') (hown : ∀ path, own path → ownFile settings worker_id job path ∨
      path = .artifact (artifact_key job.id job.row) ∧
        ∃ row, w.store.jobs.rows job.id = some row ∧ row.status = .running)
    (hphase : phase'.job = some job ∨ phase'.job = none)
    (hprogress : phase'.job = some job → Progress settings s' w.claims worker_id phase') :
    Inv settings { w.setWorker worker_id phase' with store := s' } := by
  refine ⟨h.jobs.passing hp ?_, ?_⟩
  · intro id row hrow hcompleted howned
    rcases hown _ howned with hpath | ⟨hpath, row', hrow', hrunning⟩
    · cases hpath
    · have hid : id = job.id := congrArg ArtifactKey.job_id (Path.artifact.inj hpath)
      rw [hid, hrow'] at hrow
      cases hrow
      rw [hrunning] at hcompleted
      cases hcompleted
  · intro worker' job' hjob'
    by_cases hne : worker' = worker_id
    · subst hne
      simp only [World.setWorker, if_true] at hjob' ⊢
      obtain rfl : job = job' := by
        rcases hphase with hphase | hphase
        · rw [hphase] at hjob'
          exact Option.some.inj hjob'
        · rw [hphase] at hjob'
          cases hjob'
      have hholds := h.workers worker' job hjob
      refine ⟨hholds.claim, fun row' hrow' howned => ?_, hprogress hjob'⟩
      obtain ⟨row, hrow, hpasses⟩ := passing_row hp hrow'
      simp only [owned, Bool.and_eq_true, decide_eq_true_eq] at howned
      obtain ⟨hrunning, hlease⟩ := hpasses.running howned.1
      rw [hpasses.attempt_count]
      refine hholds.owner row hrow ?_
      simp [owned, hrunning, ← hlease, howned.2]
    · simp only [World.setWorker, if_neg hne] at hjob' ⊢
      refine (h.workers worker' job' hjob').passing hjob' hp (fun howned => ?_)
      rcases hown _ howned with hpath | ⟨hpath, _⟩
      · exact h.ownFile_others hjob hjob' hne hpath
      · cases hpath

variable (settings) in
theorem heartbeat_files (worker_id job_id : String) (processed_count : Nat) (now : Time)
    (s : Store) : (heartbeat settings worker_id job_id processed_count now s).2.files = s.files := by
  unfold heartbeat
  cases (s.jobs.rows job_id).filter (leased worker_id now) with
  | none => rfl
  | some row => rfl

theorem rows_write (s : Store) (path : Path) (f : File → File) :
    (s.write path f).files.rows path = (s.files.rows path).map f := by
  unfold Store.write
  rw [Table.rows_update]
  simp

variable (settings) in
/-- The three ways in which a worker that holds a job goes on. -/
inductive Turned (w : World) (worker_id : String) (job : Claimed) (phase' : Phase) (s' : Store) :
    Prop
  | moved (hp : Passing (ownFile settings worker_id job) w.store s')
    (hphase : phase'.job = some job ∨ phase'.job = none)
    (hprogress : phase'.job = some job → Progress settings s' w.claims worker_id phase')
  | renamed (result : BackupArtifactResult) (now : Time)
    (hbuilt : Packed settings w.store w.claims worker_id job result)
    (hs' : s' = (rename_artifact settings worker_id job result now w.store).2)
    (hphase : ∃ error_code, phase' = .failing job error_code)
  | completed (result : BackupArtifactResult) (now : Time)
    (hbuilt : Packed settings w.store w.claims worker_id job result)
    (hs' : s' = (complete_job settings worker_id job result now w.store).2)
    (hphase : phase' = .idle ∨ ∃ error_code, phase' = .failing job error_code)

theorem abandon_turned {error : Error} {s : Store}
    (hp : Passing (ownFile settings worker_id job) w.store s) :
    Turned settings w worker_id job (abandon settings worker_id job error s).1
      (abandon settings worker_id job error s).2 :=
  .moved (hp.trans (unlink_passing nofun)) (.inl rfl) (fun _ => trivial)

/-- A heartbeat of a worker that goes on in `phase` while the job is its own. -/
theorem beat_turned {s : Store} (phase : Phase) {processed_count : Nat}
    (hp : Passing (ownFile settings worker_id job) w.store s) (hphase : phase.job = some job)
    (hprogress : ∀ s₂, Passing (ownFile settings worker_id job) w.store s₂ → s₂.files = s.files →
      Progress settings s₂ w.claims worker_id phase)
    (hturn : (match heartbeat settings worker_id job.id processed_count now s with
      | (true, s) => some (phase, s)
      | (false, s) => some (abandon settings worker_id job .leaseLost s)) = some (phase', s')) :
    Turned settings w worker_id job phase' s' := by
  have hbeat := hp.trans (heartbeat_passing settings s worker_id job.id
    processed_count now)
  have hfiles := heartbeat_files settings worker_id job.id processed_count now s
  generalize heartbeat settings worker_id job.id processed_count now s = beaten
    at hturn hbeat hfiles
  rcases beaten with ⟨_ | _, s₂⟩
  · cases hturn
    exact abandon_turned hbeat
  · cases hturn
    exact .moved hbeat (.inl hphase) (fun _ => hprogress _ hbeat hfiles)

theorem turn_turned (h : Inv settings w) {act : Act}
    (hturn : turn settings worker_id act (w.workers worker_id) w.store = some (phase', s')) :
    ∃ job, (w.workers worker_id).job = some job ∧
      Turned settings w worker_id job phase' s' := by
  have hholds := h.workers worker_id
  have htemp : ∀ job key, attempt_temp_path settings job worker_id ≠ .artifact key :=
    fun _ _ heq => Path.noConfusion heq
  generalize hphase : w.workers worker_id = phase at hturn hholds ⊢
  cases phase with
  | idle => cases act <;> cases hturn
  | claimed job =>
    refine ⟨job, rfl, ?_⟩
    cases act with
    | open_archive =>
      cases hturn
      have hrow : ∀ c ∈ claimsOf w.claims job.id,
          (w.store.items job.id).length = c.items.length ∨
            Expired (w.store.create (attempt_temp_path settings job worker_id)) job.id := by
        intro c hc
        obtain ⟨hmem, hid⟩ := mem_claimsOf.1 hc
        obtain ⟨row, hrow⟩ := h.jobs.found hmem
        rw [hid] at hrow
        by_cases hlive : row.status = .expired
        · exact .inr ⟨row, hrow, hlive⟩
        · exact .inl (congrArg List.length ((h.jobs.lawful _ _ hrow).items hlive c hc))
      refine .moved (create_passing (htemp job) rfl) (.inl rfl) (fun _ => ⟨?_, rfl, ?_⟩)
      · exact fun c hc => ⟨List.nil_prefix, hrow c hc⟩
      · intro file hfile
        change (w.store.files.set _ _).rows _ = some file at hfile
        rw [Table.rows_set_self] at hfile
        cases hfile
        rfl
    | raised error =>
      cases hturn
      exact .moved (passing_files _ _ (fun _ _ => rfl) (fun _ _ => .inl rfl)) (.inl rfl)
        (fun _ => trivial)
    | _ => cases hturn
  | building job build =>
    refine ⟨job, rfl, ?_⟩
    obtain ⟨hread, hlast, hentries⟩ := (hholds job rfl).progress
    have hkeeps : ∀ (s : Store) (build' : Build),
        Passing (ownFile settings worker_id job) w.store s →
        build'.written ++ build'.rows = build.written ++ build.rows →
        build'.manifest_count = build.manifest_count →
        build'.last_ordinal = build.last_ordinal →
        (∀ file, s.files.rows (attempt_temp_path settings job worker_id) = some file →
          file.entries = build'.written) →
        Progress settings s w.claims worker_id (.building job build') := by
      intro s build' hp hsame hmanifest hordinal hfile
      refine ⟨fun c hc => ?_, by rw [hordinal, hsame, hlast], hfile⟩
      rw [hsame, hmanifest]
      exact ⟨(hread c hc).1, (hread c hc).2.imp_right (Expired.passing hp)⟩
    have hwrite : ∀ f : File → File, Passing (ownFile settings worker_id job) w.store
        (w.store.write (attempt_temp_path settings job worker_id) f) :=
      fun f => write_passing f (htemp job) rfl
    cases act with
    | read_items =>
      simp only [turn] at hturn
      split_ifs at hturn with hmore
      cases hturn
      rw [hmore.1, List.append_nil] at hread hlast
      refine .moved (passing_files _ _ (fun _ _ => rfl) (fun _ _ => .inl rfl)) (.inl rfl)
        (fun _ => ⟨fun c hc => ⟨?_, (hread c hc).2⟩, ?_, hentries⟩)
      · obtain ⟨hmem, hid⟩ := mem_claimsOf.1 hc
        obtain ⟨row, hrow⟩ := h.jobs.found hmem
        rw [hid] at hrow
        have hlawful := h.jobs.lawful _ _ hrow
        by_cases hexpired : row.status = .expired
        · have hnil : (build.read w.store job.id).rows = [] := by
            simp [Build.read, nextBatch, hlawful.deleted hexpired]
          rw [hnil, List.append_nil]
          exact (hread c hc).1
        · change build.written ++ nextBatch w.store job.id build.last_ordinal <+: c.items
          rw [hlast]
          exact nextBatch_prefix (hlawful.items hexpired c hc) (hlawful.ordered c hc)
            (hread c hc).1
      · change lastOrdinal build.last_ordinal (nextBatch w.store job.id build.last_ordinal) =
          lastOrdinal 0 (build.written ++ nextBatch w.store job.id build.last_ordinal)
        rw [← lastOrdinal_append, ← hlast]
    | write_message size now =>
      simp only [turn] at hturn
      cases hrows : build.rows with
      | nil =>
        rw [hrows] at hturn
        cases hturn
      | cons item rows =>
        rw [hrows] at hturn
        refine beat_turned _ (hwrite _) rfl (fun s₂ hp hfiles => ?_) hturn
        refine hkeeps _ _ hp (by simp [hrows]) rfl rfl (fun file hfile => ?_)
        rw [hfiles, rows_write] at hfile
        obtain ⟨_, _, rfl⟩ := Option.map_eq_some_iff.1 hfile
        rfl
    | write_chunk size beat =>
      simp only [turn] at hturn
      have hsize : ∀ file, (w.store.write (attempt_temp_path settings job worker_id)
          (fun file => { file with size := size })).files.rows
            (attempt_temp_path settings job worker_id) = some file →
          file.entries = build.written := by
        intro file hfile
        rw [rows_write] at hfile
        obtain ⟨before, hbefore, rfl⟩ := Option.map_eq_some_iff.1 hfile
        exact hentries before hbefore
      cases beat with
      | none =>
        cases hturn
        exact .moved (hwrite _) (.inl rfl) (fun _ => hkeeps _ _ (hwrite _) rfl rfl rfl hsize)
      | some now =>
        refine beat_turned _ (hwrite _) rfl (fun s₂ hp hfiles => ?_) hturn
        exact hkeeps _ _ hp rfl rfl rfl (fun file hfile => hsize file (hfiles ▸ hfile))
    | close_archive size =>
      simp only [turn] at hturn
      split_ifs at hturn with hdone hcount
      · cases hturn
        exact abandon_turned (hwrite _)
      · cases hfile : (w.store.write (attempt_temp_path settings job worker_id)
          (fun file => { file with size := size })).files.rows
            (attempt_temp_path settings job worker_id) with
        | none =>
          rw [hfile] at hturn
          cases hturn
          exact .moved (hwrite _) (.inl rfl) (fun _ => trivial)
        | some file =>
          rw [hfile] at hturn
          cases hturn
          refine .moved (hwrite _) (.inl rfl) (fun _ => ⟨rfl, rfl, fun file' hfile' c hc => ?_⟩)
          rw [rows_write] at hfile'
          obtain ⟨before, hbefore, rfl⟩ := Option.map_eq_some_iff.1 hfile'
          obtain ⟨hpre, hmanifest⟩ := hread c hc
          rw [hdone.1, List.append_nil] at hpre
          refine hmanifest.imp (fun hlength => ?_) (Expired.passing (hwrite _))
          rw [← not_not.1 hcount] at hlength
          exact (hentries before hbefore).trans (hpre.eq_of_length hlength)
    | raised error =>
      cases hturn
      exact abandon_turned (passing_files _ _ (fun _ _ => rfl) (fun _ _ => .inl rfl))
    | _ => cases hturn
  | archived job result =>
    refine ⟨job, rfl, ?_⟩
    have hpacked := (hholds job rfl).progress
    cases act with
    | last_heartbeat now =>
      simp only [turn] at hturn
      refine beat_turned (.built job result)
        (passing_files _ _ (fun _ _ => rfl) (fun _ _ => .inl rfl)) rfl
        (fun s₂ hp hfiles => ⟨hpacked.1, hpacked.2.1, fun file hfile c hc => ?_⟩) hturn
      rw [hfiles] at hfile
      exact (hpacked.2.2 file hfile c hc).imp_right (Expired.passing hp)
    | raised error =>
      cases hturn
      exact .moved (passing_files _ _ (fun _ _ => rfl) (fun _ _ => .inl rfl)) (.inl rfl)
        (fun _ => trivial)
    | _ => cases hturn
  | built job result =>
    refine ⟨job, rfl, ?_⟩
    have hpacked := (hholds job rfl).progress
    cases act with
    | complete_job now =>
      simp only [turn] at hturn
      rcases hcomplete : complete_job settings worker_id job result now w.store with ⟨e | b, s⟩
      · rw [hcomplete] at hturn
        cases hturn
        exact .completed result now hpacked (by rw [hcomplete]) (.inr ⟨_, rfl⟩)
      · rw [hcomplete] at hturn
        cases hturn
        exact .completed result now hpacked (by rw [hcomplete]) (.inl rfl)
    | complete_job_undone now =>
      cases hturn
      exact .renamed result now hpacked rfl ⟨_, rfl⟩
    | raised error =>
      cases hturn
      exact .moved (passing_files _ _ (fun _ _ => rfl) (fun _ _ => .inl rfl)) (.inl rfl)
        (fun _ => trivial)
    | _ => cases hturn
  | failing job error_code =>
    refine ⟨job, rfl, ?_⟩
    cases act with
    | fail_job =>
      cases hturn
      exact .moved (fail_job_passing _ _ _ _) (.inr rfl) nofun
    | _ => cases hturn

/-! ## Completion and expiry -/

/-- What `complete_job` finds: the job is not its own any more, the file is not what it should
be, or the file becomes the artifact. -/
theorem rename_artifact_cases (worker_id : String) (job : Claimed) (result : BackupArtifactResult)
    (now : Time) (s : Store)
    (htemp : result.temp_path = some (attempt_temp_path settings job worker_id)) :
    (rename_artifact settings worker_id job result now s =
      (.ok none, s.unlink (attempt_temp_path settings job worker_id))) ∨
    ∃ row, s.jobs.rows job.id = some row ∧ leased worker_id now row = true ∧
      ((∃ e, rename_artifact settings worker_id job result now s = (.error e, s)) ∨
      ∃ file, s.files.rows (attempt_temp_path settings job worker_id) = some file ∧
        file.size = result.size_bytes ∧
        rename_artifact settings worker_id job result now s = (.ok (some row),
          s.replace (attempt_temp_path settings job worker_id)
            (.artifact result.artifact_key) file)) := by
  unfold rename_artifact
  rw [htemp, Option.getD_some]
  cases hrow : (s.jobs.rows job.id).filter (leased worker_id now) with
  | none => exact .inl rfl
  | some row =>
    obtain ⟨hfound, hleased⟩ := Option.filter_eq_some_iff.1 hrow
    refine .inr ⟨row, hfound, hleased, ?_⟩
    dsimp only
    cases hfile : s.files.rows (attempt_temp_path settings job worker_id) with
    | none => exact .inl ⟨_, rfl⟩
    | some file =>
      by_cases hsize : file.size = result.size_bytes
      · exact .inr ⟨file, rfl, hsize, if_neg (not_not.2 hsize)⟩
      · exact .inl ⟨_, if_pos hsize⟩

theorem leased_running {row : BackupJob} (h : leased worker_id now row = true) :
    owned worker_id row = true ∧ row.status = .running := by
  simp only [leased, owned, Bool.and_eq_true, decide_eq_true_eq] at h ⊢
  exact ⟨h.1, h.1.1⟩

theorem rename_artifact_passing {result : BackupArtifactResult} (now : Time) (s : Store)
    (hkey : result.artifact_key = artifact_key job.id job.row)
    (htemp : result.temp_path = some (attempt_temp_path settings job worker_id)) :
    ∃ own, Passing own s (rename_artifact settings worker_id job result now s).2 ∧
      ∀ path, own path → ownFile settings worker_id job path ∨
        path = .artifact (artifact_key job.id job.row) ∧
          ∃ row, s.jobs.rows job.id = some row ∧ row.status = .running := by
  rcases rename_artifact_cases worker_id job result now s htemp with
    hnone | ⟨row, hrow, hleased, ⟨e, herror⟩ | ⟨file, _, _, hfile⟩⟩
  · rw [hnone]
    exact ⟨_, unlink_passing nofun, fun _ hown => .inl hown⟩
  · rw [herror]
    exact ⟨_, passing_files s s.files (fun _ _ => rfl) (fun _ _ => .inl rfl),
      fun _ hown => .inl hown⟩
  · rw [hfile, hkey]
    exact ⟨_, replace_passing s _ _ file, fun path hown =>
      hown.imp_right (fun heq => ⟨heq, row, hrow, (leased_running hleased).2⟩)⟩

theorem Inv.renamed (h : Inv settings w) (hjob : (w.workers worker_id).job = some job)
    {result : BackupArtifactResult}
    (hpacked : Packed settings w.store w.claims worker_id job result) (now : Time)
    (hphase : phase' = .idle ∨ ∃ error_code, phase' = .failing job error_code) :
    Inv settings { w.setWorker worker_id phase' with
      store := (rename_artifact settings worker_id job result now w.store).2 } := by
  obtain ⟨own, hp, hown⟩ := rename_artifact_passing now w.store hpacked.1 hpacked.2.1
  refine h.moved hjob hp hown ?_ ?_
  · rcases hphase with rfl | ⟨_, rfl⟩
    · exact .inr rfl
    · exact .inl rfl
  · intro _
    rcases hphase with rfl | ⟨_, rfl⟩
    · trivial
    · trivial

/-- A worker that holds a job has its row, with the key that the worker has. -/
theorem Inv.held_row (h : Inv settings w) (hjob : (w.workers worker_id).job = some job) :
    ∃ row, w.store.jobs.rows job.id = some row ∧
      Lawful w.store job.id row (claimsOf w.claims job.id) ∧
      artifact_key job.id job.row = artifact_key job.id row := by
  obtain ⟨c, hc, _, rfl⟩ := (h.workers worker_id job hjob).claim
  obtain ⟨row, hrow⟩ := h.jobs.found hc
  have hlawful := h.jobs.lawful _ _ hrow
  exact ⟨row, hrow, hlawful, hlawful.key c (mem_claimsOf.2 ⟨hc, rfl⟩)⟩

theorem Inv.setJob (h : Inv settings w) (id : String) (items : List Item)
    (hl : Lawful (w.store.setItems id items) id row' (claimsOf w.claims id))
    (hlive : ∀ row, w.store.jobs.rows id = some row → row.status ≠ .expired)
    (howned : ∀ worker_id, owned worker_id row' = false) :
    Inv settings { w with store := (w.store.setItems id items).setJob id row' } where
  jobs := h.jobs.setJob hl (fun _ _ => rfl)
  workers := fun worker_id job hjob =>
    ((h.workers worker_id job hjob).setItems id items).setJob hlive (howned worker_id)

theorem not_owned {row : BackupJob} (h : row.status ≠ .running) (worker_id : String) :
    owned worker_id row = false := by
  simp [owned, h]

theorem Inv.completed (h : Inv settings w) (hjob : (w.workers worker_id).job = some job)
    {result : BackupArtifactResult}
    (hpacked : Packed settings w.store w.claims worker_id job result) (now : Time)
    (hphase : phase' = .idle ∨ ∃ error_code, phase' = .failing job error_code) :
    Inv settings { w.setWorker worker_id phase' with
      store := (complete_job settings worker_id job result now w.store).2 } := by
  have hrenamed := h.renamed hjob hpacked now hphase
  unfold complete_job
  rcases rename_artifact_cases worker_id job result now w.store hpacked.2.1 with
    hnone | ⟨row, hrow, hleased, ⟨e, herror⟩ | ⟨file, hfile, hsize, hok⟩⟩
  · rw [hnone] at hrenamed ⊢
    exact hrenamed
  · rw [herror] at hrenamed ⊢
    exact hrenamed
  · rw [hok] at hrenamed ⊢
    have hrunning := (leased_running hleased).2
    obtain ⟨row', hrow', _, hkey⟩ := h.held_row hjob
    rw [hrow] at hrow'
    cases hrow'
    have hlive : row.status ≠ .expired := by
      rw [hrunning]
      exact fun hstatus => Status.noConfusion hstatus
    have hl := hrenamed.jobs.lawful job.id row hrow
    have hcompleted : Lawful ((w.store.replace (attempt_temp_path settings job worker_id)
        (.artifact result.artifact_key) file).setItems job.id (w.store.items job.id)) job.id
        (completedRow settings result now row) (claimsOf w.claims job.id) := by
      rw [show w.store.items job.id = (w.store.replace (attempt_temp_path settings job worker_id)
        (.artifact result.artifact_key) file).items job.id from rfl, setItems_self]
      refine ⟨hl.attempts, hl.most, fun hstatus => Status.noConfusion hstatus, hl.snapshot_at,
        hl.unclaimed, fun _ => hl.items hlive, fun hstatus => Status.noConfusion hstatus, hl.same,
        hl.ordered, hl.snapshot, hl.key, fun _ => ⟨?_, file, ?_, hsize, fun c hc => ?_⟩⟩
      · exact congrArg some (hpacked.1.trans hkey)
      · change ((w.store.files.erase _).set (.artifact result.artifact_key) file).rows _ = _
        rw [hpacked.1, hkey]
        exact Table.rows_set_self _ _ _
      · refine (hpacked.2.2 file hfile c hc).resolve_right ?_
        rintro ⟨row', hrow', hexpired⟩
        rw [hrow] at hrow'
        cases hrow'
        exact hlive hexpired
    have hwritten := hrenamed.setJob job.id (w.store.items job.id) hcompleted ?_
      (not_owned (fun hstatus => Status.noConfusion hstatus))
    · rwa [show w.store.items job.id = (w.store.replace
        (attempt_temp_path settings job worker_id) (.artifact result.artifact_key)
        file).items job.id from rfl, setItems_self] at hwritten
    · intro row' hrow'
      change w.store.jobs.rows job.id = some row' at hrow'
      rw [hrow] at hrow'
      cases hrow'
      exact hlive

theorem Inv.expire_job (h : Inv settings w) {job : String × BackupJob}
    (hrow : w.store.jobs.rows job.1 = some job.2) (hstatus : job.2.status = .completed) :
    Inv settings { w with store := expire_job w.store job } := by
  have hl := h.jobs.lawful _ _ hrow
  obtain ⟨hkey, _⟩ := hl.artifact hstatus
  have hexpired : Lawful (w.store.setItems job.1 []) job.1 (expiredRow job.2)
      (claimsOf w.claims job.1) :=
    { hl with
      queued := fun hstatus => Status.noConfusion hstatus
      unclaimed := fun _ => if_pos rfl
      items := fun hlive => absurd rfl hlive
      deleted := fun _ => if_pos rfl
      artifact := fun hstatus => Status.noConfusion hstatus }
  have hlive : ∀ row, w.store.jobs.rows job.1 = some row → row.status ≠ .expired := by
    intro row hrow'
    rw [hrow] at hrow'
    cases hrow'
    rw [hstatus]
    exact fun heq => Status.noConfusion heq
  have hwritten := h.setJob job.1 [] hexpired hlive
    (not_owned (fun hstatus => Status.noConfusion hstatus))
  -- The files go after the row: no statement reads what another one writes.
  have hfiles : Passing (fun path => path = .artifact (artifact_key job.1 job.2))
      ((w.store.setItems job.1 []).setJob job.1 (expiredRow job.2))
      (mailbox_backup.expire_job w.store job) := by
    have hunlinked : Passing (fun path => path = .artifact (artifact_key job.1 job.2))
        ((w.store.setItems job.1 []).setJob job.1 (expiredRow job.2))
        (((w.store.setItems job.1 []).setJob job.1 (expiredRow job.2)).unlink
          (.artifact (artifact_key job.1 job.2))) := unlink_passing (fun _ _ => rfl)
    unfold mailbox_backup.expire_job
    rw [hkey]
    exact hunlinked.trans (cleanup_part_passing _ job.1 job.2)
  refine ⟨hwritten.jobs.passing hfiles ?_, fun worker_id job' hjob =>
    (hwritten.workers worker_id job' hjob).passing hjob hfiles
      (fun heq => Path.noConfusion heq)⟩
  intro id row hrow' hcompleted heq
  obtain rfl : id = job.1 := congrArg ArtifactKey.job_id (Path.artifact.inj heq)
  change (w.store.jobs.set job.1 (expiredRow job.2)).rows job.1 = some row at hrow'
  rw [Table.rows_set_self] at hrow'
  cases hrow'
  exact Status.noConfusion hcompleted

theorem expire_job_jobs (s : Store) (job : String × BackupJob) :
    (expire_job s job).jobs = s.jobs.set job.1 (expiredRow job.2) := by
  unfold expire_job
  cases job.2.artifact_key with
  | none => rfl
  | some key => rfl

/-- The rule for the loop of `expire_artifacts`: each turn finds its row as it was selected. -/
theorem expire_artifacts_rule {P : Store → Prop} {s : Store} (now : Time) (locked : List String)
    (h : P s) (hturn : ∀ s job, P s → s.jobs.rows job.1 = some job.2 →
      job.2.status = .completed → P (expire_job s job)) : P (expire_artifacts now locked s) := by
  unfold expire_artifacts
  have hselected : ∀ job ∈ (s.jobs.orderedBy BackupJob.created_at).filter
      (fun job => due now job.2 && decide (job.1 ∉ locked)),
      s.jobs.rows job.1 = some job.2 ∧ job.2.status = .completed := by
    intro job hjob
    obtain ⟨hmem, hdue⟩ := List.mem_filter.1 hjob
    simp only [due, Bool.and_eq_true, decide_eq_true_eq] at hdue
    exact ⟨Table.mem_orderedBy.1 hmem, hdue.1.1⟩
  have hnodup : (((s.jobs.orderedBy BackupJob.created_at).filter
      (fun job => due now job.2 && decide (job.1 ∉ locked))).map Prod.fst).Nodup :=
    (List.filter_sublist.map Prod.fst).nodup (Table.nodup_orderedBy _ _)
  generalize (s.jobs.orderedBy BackupJob.created_at).filter _ = jobs at hselected hnodup
  induction jobs generalizing s with
  | nil => exact h
  | cons job jobs ih =>
    rw [List.map_cons, List.nodup_cons] at hnodup
    obtain ⟨hrow, hstatus⟩ := hselected job List.mem_cons_self
    refine ih (hturn s job h hrow hstatus) (fun job' hjob' => ?_) hnodup.2
    obtain ⟨hrow', hstatus'⟩ := hselected job' (List.mem_cons_of_mem _ hjob')
    have hne : job'.1 ≠ job.1 := by
      intro heq
      exact hnodup.1 (heq ▸ List.mem_map_of_mem hjob')
    rw [expire_job_jobs, Table.rows_set_ne _ _ hne]
    exact ⟨hrow', hstatus'⟩

theorem Inv.expire_artifacts (h : Inv settings w) (now : Time) (locked : List String) :
    Inv settings { w with store := expire_artifacts now locked w.store } :=
  expire_artifacts_rule (P := fun s => Inv settings { w with store := s }) now locked h
    (fun _ _ hs hrow hstatus => hs.expire_job hrow hstatus)

theorem create_job_ok {job_id company_id user_id : String} {mailbox_type : MailboxType}
    {folder_id : Option String} {s : Store}
    (h : create_job job_id company_id user_id mailbox_type folder_id now s = .ok s') :
    s.jobs.rows job_id = none ∧
      s' = s.setJob job_id (queuedJob company_id user_id mailbox_type folder_id now) := by
  obtain ⟨_, hnew, h⟩ := Raise.bind_ok.1 h
  obtain ⟨_, _, h⟩ := Raise.bind_ok.1 h
  cases h
  exact ⟨Option.isNone_iff_eq_none.1 (Raise.require_ok.1 hnew), rfl⟩

theorem Inv.create_job (h : Inv settings w) {job_id company_id user_id : String}
    {mailbox_type : MailboxType} {folder_id : Option String}
    (hcreate : create_job job_id company_id user_id mailbox_type folder_id now w.store = .ok s') :
    Inv settings { w with store := s' } := by
  obtain ⟨hnone, rfl⟩ := create_job_ok hcreate
  have hl := lawful_queued h.jobs hnone company_id user_id mailbox_type folder_id now
  rw [← setItems_self w.store job_id] at hl
  have hwritten := h.setJob job_id (w.store.items job_id) hl ?_
    (not_owned (fun hstatus => Status.noConfusion hstatus))
  · rwa [setItems_self] at hwritten
  · intro row hrow
    rw [hnone] at hrow
    cases hrow

variable (settings) in
/-- The row and the items of the job that `claim_next` takes. -/
theorem claim_next_cases (worker_id : String) (now : Time) (locked : List String)
    (views : List View) (s : Store) :
    claim_next settings worker_id now locked views s = (none, fail_exhausted now s) ∨
    ∃ id row items, nextJob now locked (fail_exhausted now s) = some (id, row) ∧
      items = itemsAt row ((fail_exhausted now s).items id) views ∧
      claim_next settings worker_id now locked views s =
        (some ⟨id, claimedRow settings worker_id now items.length row⟩,
          ((fail_exhausted now s).setItems id items).setJob id
            (claimedRow settings worker_id now items.length row)) := by
  unfold claim_next
  dsimp only
  cases nextJob now locked (fail_exhausted now s) with
  | none => exact .inl rfl
  | some found => exact .inr ⟨found.1, found.2, _, rfl, rfl, rfl⟩

/-- A worker takes a job: the others keep theirs, and the items are those of the claims before. -/
theorem Inv.claimed (h : Inv settings w) {id : String} {row : BackupJob} {c : Claim}
    (hrow : w.store.jobs.rows id = some row) (hlt : row.attempt_count < 3)
    (hlive : row.status ≠ .expired)
    (hc : c.job = ⟨id, claimedRow settings worker_id now c.items.length row⟩)
    (hworker : c.worker_id = worker_id) (hsnapshot : c.snapshot = row.snapshot_at.isNone)
    (hsame : ∀ c' ∈ claimsOf w.claims id, c'.items = c.items) (hordered : Ordered c.items) :
    Inv settings { w.setWorker worker_id (.claimed c.job) with
      store := (w.store.setItems id c.items).setJob id c.job.row
      claims := w.claims ++ [c] } := by
  have hid : c.job.id = id := by rw [hc]
  have hjobrow : c.job.row = claimedRow settings worker_id now c.items.length row := by
    rw [hc]
  have hlawful : Lawful (w.store.setItems id c.items) id c.job.row
      (claimsOf (w.claims ++ [c]) id) := by
    rw [claimsOf_snoc, if_pos hid, hjobrow]
    exact lawful_claimed (h.jobs.lawful id row hrow) hlt hc rfl hsnapshot hsame hordered
  refine ⟨h.jobs.setJob hlawful (fun k hk => ?_), fun worker' job' hjob' => ?_⟩
  · rw [claimsOf_snoc, if_neg (fun heq => hk (heq.symm.trans hid))]
  · by_cases hne : worker' = worker_id
    · subst hne
      simp only [World.setWorker, if_true] at hjob' ⊢
      cases hjob'
      refine ⟨⟨c, by simp, hworker, rfl⟩, fun row' hrow' _ => ?_, trivial⟩
      change (w.store.jobs.set id c.job.row).rows c.job.id = some row' at hrow'
      rw [hid, Table.rows_set_self] at hrow'
      cases hrow'
      rfl
    · simp only [World.setWorker, if_neg hne] at hjob' ⊢
      have hholds := (h.workers worker' job' hjob').more (c := c) hjob' (hid ▸ hsame)
      refine (hholds.setItems id c.items).setJob (fun row' hrow' => ?_) ?_
      · change w.store.jobs.rows id = some row' at hrow'
        rw [hrow] at hrow'
        cases hrow'
        exact hlive
      · rw [hjobrow]
        simp [owned, claimedRow, Ne.symm hne]

theorem Inv.claim_next (h : Inv settings w) {locked : List String} {views : List View}
    (hclaim : claim_next settings worker_id now locked views w.store = (some job, s')) :
    Inv settings { w.setWorker worker_id (.claimed job) with
      store := s'
      claims := w.claims ++ [claimOf worker_id w.store s' job] } := by
  have hp : Passing (fun _ => False) w.store (fail_exhausted now w.store) :=
    fail_exhausted_passing w.store now
  have hbefore := h.passing hp
  rcases claim_next_cases settings worker_id now locked views w.store with
    hnone | ⟨id, row, items, hnext, hitems, hsome⟩
  · rw [hnone] at hclaim
    cases hclaim
  · rw [hsome] at hclaim
    cases hclaim
    obtain ⟨hrow, hlt, hstatus⟩ := nextJob_eq_some hnext
    have hlive : row.status ≠ .expired := by
      rcases hstatus with hstatus | hstatus
      · rw [hstatus]
        exact fun heq => Status.noConfusion heq
      · rw [hstatus]
        exact fun heq => Status.noConfusion heq
    obtain ⟨hsame, hordered⟩ := itemsAt_eq (hbefore.jobs.lawful id row hrow) hlive views
    rw [← hitems] at hsame hordered
    obtain ⟨row₀, hrow₀, hpasses⟩ := passing_row hp hrow
    have htaken : claimOf worker_id w.store (((fail_exhausted now w.store).setItems id items).setJob
        id (claimedRow settings worker_id now items.length row))
        ⟨id, claimedRow settings worker_id now items.length row⟩ =
        ⟨worker_id, ⟨id, claimedRow settings worker_id now items.length row⟩, items,
          row.snapshot_at.isNone⟩ := by
      unfold claimOf
      rw [hrow₀, hpasses.snapshot_at]
      simp [Store.setJob, Store.setItems]
    rw [htaken]
    exact hbefore.claimed (c := ⟨worker_id, ⟨id, claimedRow settings worker_id now items.length
      row⟩, items, row.snapshot_at.isNone⟩) hrow hlt hlive rfl rfl rfl hsame hordered

theorem Inv.step {w' : World} (h : Inv settings w) {event : Event}
    (hstep : step settings w event = some w') : Inv settings w' := by
  cases event with
  | create_job job_id company_id user_id mailbox_type folder_id now =>
    obtain ⟨s', hs', rfl⟩ := Option.map_eq_some_iff.1 hstep
    exact h.create_job (Raise.ok_of_toOption hs')
  | retry_job job_id new_id company_id user_id now =>
    obtain ⟨s', hs', rfl⟩ := Option.map_eq_some_iff.1 hstep
    obtain ⟨row, _, hretry⟩ := Raise.bind_ok.1 (Raise.ok_of_toOption hs')
    obtain ⟨_, _, hretry⟩ := Raise.bind_ok.1 hretry
    obtain ⟨_, _, hretry⟩ := Raise.bind_ok.1 hretry
    exact h.create_job hretry
  | expire_artifacts now locked =>
    cases hstep
    exact h.expire_artifacts now locked
  | claim_next worker_id now locked views =>
    simp only [mailbox_backup.step] at hstep
    split_ifs at hstep with hidle
    rcases claim_next_cases settings worker_id now locked views w.store with
      hnone | ⟨id, row, items, _, _, hsome⟩
    · rw [hnone] at hstep
      cases hstep
      exact h.passing (fail_exhausted_passing w.store now)
    · have hclaimed := h.claim_next hsome
      rw [hsome] at hstep
      cases hstep
      exact hclaimed
  | turn worker_id act =>
    obtain ⟨⟨phase', s'⟩, hturn, rfl⟩ := Option.map_eq_some_iff.1 hstep
    obtain ⟨job, hjob, hturned⟩ := turn_turned h hturn
    cases hturned with
    | moved hp hphase hprogress =>
      exact h.moved hjob hp (fun _ hown => .inl hown) hphase hprogress
    | renamed result now hpacked hs' hphase =>
      subst hs'
      exact h.renamed hjob hpacked now (.inr hphase)
    | completed result now hpacked hs' hphase =>
      subst hs'
      exact h.completed hjob hpacked now hphase

end moaworks.mailbox_backup
