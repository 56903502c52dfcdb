-- What one step of the mailbox backups does: the reader of the items goes through the snapshot in
-- its order, and the transactions pass a row on, unless they claim, complete or expire its job.
import Mathlib.Data.List.Infix
import MoaWorks.BackupRuns

namespace moaworks.mailbox_backup

variable {settings : Settings}
variable {s : Store} {own : Path → Prop}

/-! ## The snapshot -/

/-- The ordinals of the items go up from 1. -/
def Ordered (items : List Item) : Prop := (0 :: items.map Item.ordinal).Pairwise (· < ·)

theorem ordered_snoc {items : List Item} {item : Item} :
    Ordered (items ++ [item]) ↔ Ordered items ∧ 0 < item.ordinal ∧
      ∀ a ∈ items, a.ordinal < item.ordinal := by
  unfold Ordered
  rw [List.map_append, ← List.cons_append, List.pairwise_append]
  simp

/-- Inserting items that come later keeps the order, whatever the keys do not allow. -/
theorem ordered_foldl_insert_item {new items : List Item} (hitems : Ordered items)
    (hnew : Ordered new) (hlater : ∀ a ∈ items, ∀ b ∈ new, a.ordinal < b.ordinal) :
    Ordered (new.foldl insert_item items) := by
  induction new generalizing items with
  | nil => exact hitems
  | cons item new ih =>
    unfold Ordered at hnew
    rw [List.map_cons, List.pairwise_cons, List.pairwise_cons] at hnew
    obtain ⟨hpositive, hfirst, hrest⟩ := hnew
    have hnew : Ordered new :=
      List.pairwise_cons.2 ⟨fun n hn => hpositive n (List.mem_cons_of_mem _ hn), hrest⟩
    rw [List.foldl_cons]
    unfold insert_item
    split_ifs with hconflict
    · exact ih hitems hnew (fun a ha b hb => hlater a ha b (List.mem_cons_of_mem _ hb))
    · refine ih ?_ hnew ?_
      · exact ordered_snoc.2 ⟨hitems, hpositive _ List.mem_cons_self,
          fun a ha => hlater a ha item List.mem_cons_self⟩
      · intro a ha b hb
        rcases List.mem_append.1 ha with ha | ha
        · exact hlater a ha b (List.mem_cons_of_mem _ hb)
        · obtain rfl := List.mem_singleton.1 ha
          exact hfirst _ (List.mem_map_of_mem hb)

theorem ordered_numbered (views : List View) : Ordered (numbered views) := by
  have hordinals : (numbered views).map Item.ordinal = List.range' 1 views.length := by
    unfold numbered
    rw [List.map_map]
    exact List.zipIdx_map_snd 1 views
  unfold Ordered
  rw [hordinals]
  exact List.pairwise_cons.2 ⟨fun n hn => (List.mem_range'_1.1 hn).1, List.pairwise_lt_range'⟩

theorem ordered_snapshot (views : List View) : Ordered (snapshot_items [] views) :=
  ordered_foldl_insert_item (List.pairwise_singleton _ _) (ordered_numbered views) nofun

/-! ## What the reader of the items has read -/

/-- The items after those that were read are the rest of the snapshot. -/
theorem filter_lastOrdinal {read rest : List Item} (h : Ordered (read ++ rest)) :
    (read ++ rest).filter (fun item => decide (lastOrdinal 0 read < item.ordinal)) = rest := by
  unfold Ordered at h
  rw [List.map_append, ← List.cons_append, List.pairwise_append] at h
  obtain ⟨hread, _, hlater⟩ := h
  have hlast : lastOrdinal 0 read ∈ 0 :: read.map Item.ordinal := by
    unfold lastOrdinal
    cases hr : read.getLast? with
    | none => exact List.mem_cons_self
    | some item =>
      exact List.mem_cons_of_mem _ (List.mem_map_of_mem (List.mem_of_getLast? hr))
  have hupto : ∀ item ∈ read, item.ordinal ≤ lastOrdinal 0 read := by
    intro item hitem
    obtain ⟨front, last, rfl⟩ : ∃ front last, read = front ++ [last] :=
      (List.eq_nil_or_concat' read).resolve_left (List.ne_nil_of_mem hitem)
    have hordered : Ordered (front ++ [last]) := hread
    rcases List.mem_append.1 hitem with hitem | hitem
    · simpa [lastOrdinal] using ((ordered_snoc.1 hordered).2.2 item hitem).le
    · obtain rfl := List.mem_singleton.1 hitem
      simp [lastOrdinal]
  rw [List.filter_append, List.filter_eq_nil_iff.2, List.nil_append, List.filter_eq_self]
  · intro item hitem
    exact decide_eq_true (hlater _ hlast _ (List.mem_map_of_mem hitem))
  · intro item hitem hlt
    exact absurd (of_decide_eq_true hlt) (Nat.not_lt.2 (hupto item hitem))

theorem lastOrdinal_append (read rows : List Item) :
    lastOrdinal (lastOrdinal 0 read) rows = lastOrdinal 0 (read ++ rows) := by
  unfold lastOrdinal
  rw [List.getLast?_append]
  cases rows.getLast? with
  | none => rfl
  | some item => rfl

/-- One more batch is the next part of the snapshot. -/
theorem nextBatch_prefix {job_id : String} {read items : List Item}
    (hitems : s.items job_id = items) (hordered : Ordered items) (hread : read <+: items) :
    read ++ nextBatch s job_id (lastOrdinal 0 read) <+: items := by
  obtain ⟨rest, rfl⟩ := hread
  unfold nextBatch
  rw [hitems, filter_lastOrdinal hordered]
  exact List.prefix_append_right_inj read |>.2 (List.take_prefix _ _)

/-! ## The rows -/

/-- What a transaction makes of a row, unless it claims, completes or expires the job. -/
structure Passes (row row' : BackupJob) : Prop where
  key : ∀ id, artifact_key id row' = artifact_key id row
  attempt_count : row'.attempt_count = row.attempt_count
  snapshot_at : row'.snapshot_at = row.snapshot_at
  queued : row'.status = .queued → row.status = .queued ∨ row'.attempt_count < 3
  running : row'.status = .running → row.status = .running ∧ row'.lease_owner = row.lease_owner
  ended : row'.status = .completed ∨ row'.status = .expired → row' = row
  final : row.status = .completed ∨ row.status = .failed ∨ row.status = .expired → row' = row

theorem Passes.refl (row : BackupJob) : Passes row row :=
  ⟨fun _ => rfl, rfl, rfl, .inl, fun h => ⟨h, rfl⟩, fun _ => rfl, fun _ => rfl⟩

/-- A step of this kind over the whole store; the files of `own` are those that it writes. -/
structure Passing (own : Path → Prop) (s s' : Store) : Prop where
  rows : ∀ id, Option.Rel Passes (s.jobs.rows id) (s'.jobs.rows id)
  items : s'.items = s.items
  artifacts : ∀ key, ¬ own (.artifact key) →
    s'.files.rows (.artifact key) = s.files.rows (.artifact key)
  parts : ∀ path, ¬ own path → s'.files.rows path = s.files.rows path ∨ s'.files.rows path = none

theorem passing_files (s : Store) (files : Table Path File)
    (hartifacts : ∀ key, ¬ own (.artifact key) →
      files.rows (.artifact key) = s.files.rows (.artifact key)) (hparts : ∀ path, ¬ own path →
      files.rows path = s.files.rows path ∨ files.rows path = none) :
    Passing own s { s with files := files } := by
  refine ⟨fun id => ?_, rfl, hartifacts, hparts⟩
  change Option.Rel Passes (s.jobs.rows id) (s.jobs.rows id)
  cases s.jobs.rows id with
  | none => exact .none
  | some row => exact .some (.refl row)

/-- A step that writes a row of the kind, and no file but those of `own`. -/
theorem passing_setJob {id : String} {row row' : BackupJob} (hrow : s.jobs.rows id = some row)
    (h : Passes row row') : Passing own s (s.setJob id row') := by
  refine ⟨fun k => ?_, rfl, fun _ _ => rfl, fun _ _ => .inl rfl⟩
  change Option.Rel Passes (s.jobs.rows k) ((s.jobs.set id row').rows k)
  rw [Table.rows_set]
  split_ifs with hk
  · subst hk
    rw [hrow]
    exact .some h
  · cases s.jobs.rows k with
    | none => exact .none
    | some row => exact .some (.refl row)

theorem Passes.trans {row row' row'' : BackupJob} (h : Passes row row') (h' : Passes row' row'') :
    Passes row row'' where
  key := fun id => (h'.key id).trans (h.key id)
  attempt_count := h'.attempt_count.trans h.attempt_count
  snapshot_at := h'.snapshot_at.trans h.snapshot_at
  queued := by
    intro hq
    rcases h'.queued hq with hq | hlt
    · rw [h'.attempt_count]
      exact h.queued hq
    · exact .inr hlt
  running := fun hr => ⟨(h.running (h'.running hr).1).1,
    (h'.running hr).2.trans (h.running (h'.running hr).1).2⟩
  ended := by
    intro he
    obtain rfl := h'.ended he
    exact h.ended he
  final := by
    intro hf
    obtain rfl := h.final hf
    exact h'.final hf

theorem Passing.trans {s' s'' : Store} (h : Passing own s s') (h' : Passing own s' s'') :
    Passing own s s'' where
  rows := by
    intro id
    have hrows := h.rows id
    have hrows' := h'.rows id
    generalize s.jobs.rows id = row at hrows
    generalize s'.jobs.rows id = row' at hrows hrows'
    generalize s''.jobs.rows id = row'' at hrows'
    cases hrows with
    | none => exact hrows'
    | some hp => cases hrows' with
      | some hp' => exact .some (hp.trans hp')
  items := h'.items.trans h.items
  artifacts := fun key hown => (h'.artifacts key hown).trans (h.artifacts key hown)
  parts := by
    intro path hown
    rcases h'.parts path hown with heq | hnone
    · rw [heq]
      exact h.parts path hown
    · exact .inr hnone

theorem unlink_passing {path : Path} (hpath : ∀ key, path = .artifact key → own path) :
    Passing own s (s.unlink path) := by
  refine passing_files s _ (fun key hkey => ?_) (fun p _ => ?_)
  · have hne : Path.artifact key ≠ path := by
      rintro rfl
      exact hkey (hpath key rfl)
    rw [Table.rows_erase, if_neg hne]
  · rw [Table.rows_erase]
    split_ifs with hp
    · exact .inr rfl
    · exact .inl rfl

theorem cleanup_part_passing (s : Store) (id : String) (row : BackupJob) :
    Passing own s (_cleanup_part id row s) := by
  refine passing_files s _ (fun key _ => ?_) (fun path _ => ?_)
  · rw [Table.rows_filter]
    cases s.files.rows (.artifact key) with
    | none => rfl
    | some file => rfl
  · rw [Table.rows_filter]
    cases s.files.rows path with
    | none => exact .inl rfl
    | some file =>
      simp only [Option.filter]
      split_ifs with hp
      · exact .inl rfl
      · exact .inr rfl

theorem write_passing {path : Path} (f : File → File) (hpath : ∀ key, path ≠ .artifact key)
    (hown : own path) : Passing own s (s.write path f) := by
  refine passing_files s _ (fun key _ => ?_) (fun p hp => ?_)
  · rw [Table.rows_update]
    simp [Ne.symm (hpath key)]
  · have hne : p ≠ path := by
      rintro rfl
      exact hp hown
    rw [Table.rows_update]
    simp [hne]

theorem create_passing {path : Path} (hpath : ∀ key, path ≠ .artifact key) (hown : own path) :
    Passing own s (s.create path) := by
  refine passing_files s _ (fun key _ => ?_) (fun p hp => ?_)
  · rw [Table.rows_set, if_neg (Ne.symm (hpath key))]
  · have hne : p ≠ path := by
      rintro rfl
      exact hp hown
    exact .inl (Table.rows_set_ne _ _ hne)

theorem replace_passing (s : Store) (source : Path) (key : ArtifactKey) (file : File) :
    Passing (fun path => path = source ∨ path = .artifact key) s
      (s.replace source (.artifact key) file) := by
  have hrows : ∀ path, ¬ (path = source ∨ path = .artifact key) →
      (s.replace source (.artifact key) file).files.rows path = s.files.rows path := by
    intro path hpath
    have hne := not_or.1 hpath
    unfold Store.replace
    rw [Table.rows_set_ne _ _ hne.2, Table.rows_erase, if_neg hne.1]
  exact passing_files s _ (fun k hk => hrows _ hk) (fun path hpath => .inl (hrows path hpath))

variable (settings) in
theorem heartbeat_passing (s : Store) (worker_id job_id : String) (processed_count : Nat)
    (now : Time) : Passing own s (heartbeat settings worker_id job_id processed_count now s).2 := by
  unfold heartbeat
  cases hrow : (s.jobs.rows job_id).filter (leased worker_id now) with
  | none => exact passing_files s s.files (fun _ _ => rfl) (fun _ _ => .inl rfl)
  | some row =>
    obtain ⟨hrow, hleased⟩ := Option.filter_eq_some_iff.1 hrow
    have hrunning : row.status = .running := by
      simp only [leased, owned, Bool.and_eq_true, decide_eq_true_eq] at hleased
      exact hleased.1.1
    refine passing_setJob hrow ⟨fun _ => rfl, rfl, rfl, .inl, fun h => ⟨h, rfl⟩, ?_, ?_⟩
    · rintro (h | h) <;> simp [hrunning] at h
    · rintro (h | h | h) <;> simp [hrunning] at h

theorem fail_job_passing (s : Store) (worker_id : String) (job : Claimed) (error_code : String) :
    Passing own s (fail_job settings worker_id job error_code s).2 := by
  unfold fail_job
  cases hrow : (s.jobs.rows job.id).filter (owned worker_id) with
  | none => exact passing_files s s.files (fun _ _ => rfl) (fun _ _ => .inl rfl)
  | some row =>
    obtain ⟨hrow, howned⟩ := Option.filter_eq_some_iff.1 hrow
    have hrunning : row.status = .running := by
      simp only [owned, Bool.and_eq_true, decide_eq_true_eq] at howned
      exact howned.1
    refine (passing_setJob hrow ?_).trans (unlink_passing nofun)
    have hstatus : (failedRow error_code row).status =
        if 3 ≤ row.attempt_count then .failed else .queued := rfl
    refine ⟨fun _ => rfl, rfl, rfl, fun h => .inr ?_, ?_, ?_, ?_⟩
    · rw [hstatus] at h
      split_ifs at h with hmost
      exact Nat.not_le.1 hmost
    · intro h
      rw [hstatus] at h
      split_ifs at h
    · rintro (h | h) <;> (rw [hstatus] at h; split_ifs at h)
    · rintro (h | h | h) <;> simp [hrunning] at h

theorem fail_exhausted_passing (s : Store) (now : Time) : Passing own s (fail_exhausted now s) := by
  unfold fail_exhausted
  generalize (s.jobs.orderedBy BackupJob.created_at).filter _ = terminal
  have hrows : Passing own s
      { s with jobs := s.jobs.update (fun _ row => exhausted now row) failExhausted } := by
    refine ⟨fun id => ?_, rfl, fun _ _ => rfl, fun _ _ => .inl rfl⟩
    change Option.Rel Passes (s.jobs.rows id) ((s.jobs.update _ _).rows id)
    rw [Table.rows_update]
    cases s.jobs.rows id with
    | none => exact .none
    | some row =>
      refine .some ?_
      change Passes row (if exhausted now row then failExhausted row else row)
      split_ifs with hexhausted
      · simp only [exhausted, Bool.and_eq_true, decide_eq_true_eq] at hexhausted
        refine ⟨fun _ => rfl, rfl, rfl, nofun, nofun, ?_, ?_⟩
        · rintro (h | h) <;> cases h
        · rintro (h | h | h) <;> simp [hexhausted.1.1] at h
      · exact .refl row
  generalize Store.mk _ _ _ = s' at hrows ⊢
  induction terminal generalizing s' with
  | nil => exact hrows
  | cons job terminal ih => exact ih _ (hrows.trans (cleanup_part_passing _ _ _))

end moaworks.mailbox_backup
