-- The delivery of the reminders over whole runs: each event is emitted once at most, and a run that
-- goes through delivers what is due, unless another one was cut off with it.
import MoaWorks.ScheduleReminders

namespace moaworks.schedule_notification

variable {db : Db} {interval_seconds : Int}
variable {now : Time} {k : Reminder} {phase : Phase} {i j : Nat} {w w' : World} {r : Running}

/-! ## Windows -/

/-- The reminder is due in the window that ends now. -/
def Due (interval_seconds : Int) (r : Reminder) (now : Time) : Prop :=
  notification_due_in_window r.due_at now (notification_grace_window interval_seconds) = true

theorem due_iff {r : Reminder} : Due interval_seconds r now ↔
    (now : Int) - notification_grace_window interval_seconds < r.due_at ∧ r.due_at ≤ now := by
  unfold Due notification_due_in_window
  rw [Bool.and_eq_true, decide_eq_true_eq, decide_eq_true_eq]

/-- A claim is kept longer than a reminder stays due. -/
theorem grace_le_lease (interval_seconds : Int) :
    notification_grace_window interval_seconds ≤ processing_lease_window interval_seconds := by
  unfold notification_grace_window processing_lease_window microseconds
  have hgrace := min_le_right (max (interval_seconds * 3) 60) 300
  have hlease := le_max_right (interval_seconds * 10) 300
  omega

/-- So no claim of a reminder is taken over while the reminder is due. -/
theorem not_retryable {r : Reminder} {d : Delivery} (hclaimed : Due interval_seconds r d.updated_at)
    (hnow : Due interval_seconds r now) (hstatus : d.status ≠ .failed) :
    delivery_claim_retryable d now (processing_lease_window interval_seconds) = false := by
  have hlease := grace_le_lease interval_seconds
  rw [due_iff] at hclaimed hnow
  unfold delivery_claim_retryable
  rw [Bool.or_eq_false_iff, Bool.and_eq_false_iff]
  refine ⟨decide_eq_false hstatus, .inr (decide_eq_false ?_)⟩
  omega

/-- What a run goes through is due. -/
theorem due_of_mem {r : Reminder} (h : r ∈ due db (notification_grace_window interval_seconds) now) :
    Due interval_seconds r now := by
  unfold due at h
  obtain ⟨⟨id, schedule⟩, _, h⟩ := List.mem_flatMap.1 h
  unfold remindersOf at h
  obtain ⟨occurrence, _, h⟩ := List.mem_flatMap.1 h
  obtain ⟨alert, _, h⟩ := List.mem_flatMap.1 h
  split_ifs at h with hwindow
  · obtain ⟨recipient, _, rfl⟩ := List.mem_map.1 h
    exact hwindow
  · exact absurd h List.not_mem_nil

theorem takeWhile_mono {l : List Time} {e e' : Int} (h : e ≤ e') {t : Time}
    (ht : t ∈ l.takeWhile (fun (t : Time) => decide ((t : Int) < e))) :
    t ∈ l.takeWhile (fun (t : Time) => decide ((t : Int) < e')) := by
  induction l with
  | nil => exact ht
  | cons a l ih =>
    rw [List.takeWhile_cons] at ht ⊢
    split_ifs at ht with ha
    · have ha' : decide ((a : Int) < e') = true :=
        decide_eq_true (lt_of_lt_of_le (of_decide_eq_true ha) h)
      rw [if_pos ha']
      rcases List.mem_cons.1 ht with rfl | ht
      · exact List.mem_cons_self
      · exact List.mem_cons_of_mem _ (ih ht)
    · exact absurd ht List.not_mem_nil

/-- A reminder that a run went through is in each later run for which it is due. -/
theorem due_later {now' : Time} {r : Reminder}
    (h : r ∈ due db (notification_grace_window interval_seconds) now) (hle : now ≤ now')
    (hdue : Due interval_seconds r now') :
    r ∈ due db (notification_grace_window interval_seconds) now' := by
  unfold due at h ⊢
  obtain ⟨⟨id, schedule⟩, hselected, h⟩ := List.mem_flatMap.1 h
  dsimp only at h
  unfold remindersOf at h
  obtain ⟨occurrence, hoccurrence, h⟩ := List.mem_flatMap.1 h
  obtain ⟨alert, halert, h⟩ := List.mem_flatMap.1 h
  split_ifs at h with hwindow
  · obtain ⟨recipient, hrecipient, rfl⟩ := List.mem_map.1 h
    have hdue' := due_iff.1 hdue
    -- An alert comes before the start of its schedule.
    have hbefore : (now' : Int) - notification_grace_window interval_seconds ≤ occurrence := by
      have hle : (occurrence : Int) - microseconds (60 * alert) ≤ occurrence := by
        unfold microseconds
        omega
      exact le_of_lt (lt_of_lt_of_le hdue'.1 hle)
    unfold schedule_occurrences at hoccurrence
    obtain ⟨hseries, _⟩ := List.mem_filter.1 hoccurrence
    refine List.mem_flatMap.2 ⟨(id, schedule), ?_, ?_⟩
    · unfold selected at hselected ⊢
      obtain ⟨hrow, hok⟩ := List.mem_filter.1 hselected
      refine List.mem_filter.2 ⟨hrow, ?_⟩
      dsimp only at hok ⊢
      rw [Bool.and_eq_true] at hok ⊢
      refine ⟨hok.1, ?_⟩
      cases hrepetition : schedule.repetition with
      | some series => rfl
      | none =>
        have hstart : occurrence = schedule.starts_at := by
          have hmem := (List.takeWhile_sublist _).mem hseries
          unfold Schedule.series at hmem
          rw [hrepetition] at hmem
          exact List.mem_singleton.1 hmem
        rw [← hstart]
        exact decide_eq_true hbefore
    · dsimp only
      unfold remindersOf
      refine List.mem_flatMap.2 ⟨occurrence, ?_, List.mem_flatMap.2 ⟨alert, halert, ?_⟩⟩
      · unfold schedule_occurrences
        refine List.mem_filter.2 ⟨takeWhile_mono ?_ hseries, decide_eq_true hbefore⟩
        exact Int.add_le_add_right (Int.ofNat_le.2 hle) _
      · split_ifs with hwindow'
        · exact List.mem_map.2 ⟨recipient, hrecipient, rfl⟩
        · exact absurd hdue hwindow'
  · exact absurd h List.not_mem_nil

/-! ## What one step does -/

/-- The run that a phase belongs to. -/
def Phase.run? : Phase → Option Running
  | .idle => none
  | .running r => some r
  | .claimed r _ => some r
  | .finishing r _ _ => some r

/-- The run has claimed the reminder. -/
def Phase.Holds (k : Reminder) : Phase → Prop
  | .claimed _ k' => k' = k
  | .finishing _ k' _ => k' = k
  | _ => False

/-- The run has claimed the reminder, and its event is not emitted. -/
def Phase.Waits (k : Reminder) : Phase → Prop
  | .claimed _ k' => k' = k
  | .finishing _ k' false => k' = k
  | _ => False

theorem Phase.Waits.holds (h : phase.Waits k) : phase.Holds k := by
  cases phase with
  | idle => exact h
  | running r => exact h
  | claimed r k' => exact h
  | finishing r k' emitted =>
    cases emitted with
    | false => exact h
    | true => exact h.elim

theorem setRun_self (w : World) (i : Nat) (phase : Phase) : (w.setRun i phase).runs i = phase :=
  if_pos rfl

theorem setRun_ne (w : World) (phase : Phase) (h : j ≠ i) : (w.setRun i phase).runs j = w.runs j := if_neg h

/-- The turns of a run: it ends, it claims the next reminder, or it goes past it. -/
inductive Turn (db : Db) (interval_seconds : Int) (w : World) (i : Nat) (r : Running) : World → Prop
  | complete (h : r.todo = [] ∨ r.limit ≤ r.sent) : Turn db interval_seconds w i r
      { w.setRun i .idle with completed := w.completed ++ [⟨r.now, r.failures⟩] }
  | claim (k : Reminder) (todo : List Reminder) (company : String) (htodo : r.todo = k :: todo)
      (hfree : claimable interval_seconds w k r.now = true) : Turn db interval_seconds w i r
      { w.setRun i (.claimed { r with todo := todo } k) with
        deliveries := w.deliveries.set k (claimedRow company r.now (w.deliveries.rows k)) }
  | skip (k : Reminder) (todo : List Reminder) (htodo : r.todo = k :: todo)
      (hlimit : r.sent < r.limit) (hfree : claimable interval_seconds w k r.now = false) :
      Turn db interval_seconds w i r (w.setRun i (.running { r with todo := todo }))

theorem turn_nextTurn (db : Db) (interval_seconds : Int) (w : World) (i : Nat) (r : Running) :
    Turn db interval_seconds w i r (nextTurn db interval_seconds w i r) := by
  unfold nextTurn
  split
  · rename_i htodo
    exact .complete (.inl htodo)
  · rename_i k todo htodo
    split_ifs with hlimit hfree
    · exact .complete (.inr hlimit)
    · exact .claim k todo _ htodo hfree
    · exact .skip k todo htodo (Nat.lt_of_not_le hlimit) (Bool.eq_false_of_not_eq_true hfree)

/-- The row of a claim is in processing since its run has started. -/
theorem claimedRow_spec (company : String) (now : Time) (old : Option Delivery) :
    (claimedRow company now old).status = .processing ∧
      (claimedRow company now old).updated_at = now := by
  cases old with
  | none => exact ⟨rfl, rfl⟩
  | some d => exact ⟨rfl, rfl⟩

theorem rows_finished (w : World) (i : Nat) (r : Running) (k j : Reminder) (emitted : Bool) :
    (finished w i r k emitted).deliveries.rows j =
      (w.deliveries.rows j).map (fun d => if j = k then finishedRow emitted r.now d else d) := by
  unfold finished
  rw [Table.rows_update]
  simp only [decide_eq_true_eq]

/-! ## Each event is emitted once -/

/-- What holds of each phase, and of each row, in all runs. -/
structure World.Inv (interval_seconds : Int) (w : World) : Prop where
  todo : ∀ i r, (w.runs i).run? = some r → ∀ k ∈ r.todo, Due interval_seconds k r.now
  held : ∀ i k, (w.runs i).Holds k → ∃ d, w.deliveries.rows k = some d ∧ d.status = .processing
  single : ∀ i j k, (w.runs i).Holds k → (w.runs j).Holds k → i = j
  /-- Whoever has claimed a reminder has done it while it was due. -/
  window : ∀ k d, w.deliveries.rows k = some d → d.status = .processing →
    Due interval_seconds k d.updated_at
  emitted : ∀ k ∈ w.emitted, (∃ d, w.deliveries.rows k = some d ∧ d.status ≠ .failed) ∧
    ∀ i, ¬(w.runs i).Waits k
  once : w.emitted.Nodup

/-- What was emitted, or is held by a run, is not claimed while it is due. -/
theorem World.Inv.not_claimable (h : w.Inv interval_seconds) (hdue : Due interval_seconds k now)
    {d : Delivery} (hrow : w.deliveries.rows k = some d) (hstatus : d.status ≠ .failed) :
    claimable interval_seconds w k now = false := by
  unfold claimable
  rw [hrow, Option.all_some]
  by_cases hprocessing : d.status = .processing
  · exact not_retryable (h.window k d hrow hprocessing) hdue hstatus
  · unfold delivery_claim_retryable
    rw [decide_eq_false hstatus, decide_eq_false hprocessing]
    rfl

/-- A run goes on with fewer reminders, and holds none. -/
theorem World.Inv.setRun (h : w.Inv interval_seconds) (i : Nat)
    (htodo : ∀ r, phase.run? = some r → ∀ k ∈ r.todo, Due interval_seconds k r.now)
    (hfree : ∀ k, ¬phase.Holds k) : (w.setRun i phase).Inv interval_seconds where
  todo := by
    intro j r hr
    by_cases hj : j = i
    · rw [hj, setRun_self] at hr
      exact htodo r hr
    · rw [setRun_ne w phase hj] at hr
      exact h.todo j r hr
  held := by
    intro j k hk
    by_cases hj : j = i
    · rw [hj, setRun_self] at hk
      exact absurd hk (hfree k)
    · rw [setRun_ne w phase hj] at hk
      exact h.held j k hk
  single := by
    intro j j' k hk hk'
    by_cases hj : j = i
    · rw [hj, setRun_self] at hk
      exact absurd hk (hfree k)
    · by_cases hj' : j' = i
      · rw [hj', setRun_self] at hk'
        exact absurd hk' (hfree k)
      · rw [setRun_ne w phase hj] at hk
        rw [setRun_ne w phase hj'] at hk'
        exact h.single j j' k hk hk'
  window := h.window
  emitted := by
    intro k hk
    refine ⟨(h.emitted k hk).1, fun j hj => ?_⟩
    by_cases hji : j = i
    · rw [hji, setRun_self] at hj
      exact hfree k hj.holds
    · rw [setRun_ne w phase hji] at hj
      exact (h.emitted k hk).2 j hj
  once := h.once

theorem World.Inv.stop (h : w.Inv interval_seconds) (i : Nat) :
    (w.setRun i .idle).Inv interval_seconds :=
  h.setRun i nofun (fun _ hk => hk)

/-- The clock and the list of the runs that went through do not matter. -/
theorem World.Inv.congr (h : w.Inv interval_seconds) (hruns : w'.runs = w.runs)
    (hdeliveries : w'.deliveries = w.deliveries) (hemitted : w'.emitted = w.emitted) :
    w'.Inv interval_seconds where
  todo := by
    rw [hruns]
    exact h.todo
  held := by
    rw [hruns, hdeliveries]
    exact h.held
  single := by
    rw [hruns]
    exact h.single
  window := by
    rw [hdeliveries]
    exact h.window
  emitted := by
    rw [hruns, hdeliveries, hemitted]
    exact h.emitted
  once := by
    rw [hemitted]
    exact h.once

/-- Who holds a reminder after one run went on: that run, as its phase says, or another as before. -/
theorem holds_setRun (h : ((w.setRun i phase).runs j).Holds k) :
    (j = i ∧ phase.Holds k) ∨ (j ≠ i ∧ (w.runs j).Holds k) := by
  by_cases hj : j = i
  · rw [hj, setRun_self] at h
    exact .inl ⟨hj, h⟩
  · rw [setRun_ne w phase hj] at h
    exact .inr ⟨hj, h⟩

theorem waits_setRun (h : ((w.setRun i phase).runs j).Waits k) :
    (j = i ∧ phase.Waits k) ∨ (j ≠ i ∧ (w.runs j).Waits k) := by
  by_cases hj : j = i
  · rw [hj, setRun_self] at h
    exact .inl ⟨hj, h⟩
  · rw [setRun_ne w phase hj] at h
    exact .inr ⟨hj, h⟩

theorem run?_setRun (h : ((w.setRun i phase).runs j).run? = some r) :
    (j = i ∧ phase.run? = some r) ∨ (j ≠ i ∧ (w.runs j).run? = some r) := by
  by_cases hj : j = i
  · rw [hj, setRun_self] at h
    exact .inl ⟨hj, h⟩
  · rw [setRun_ne w phase hj] at h
    exact .inr ⟨hj, h⟩

theorem World.Inv.claim (h : w.Inv interval_seconds) (hi : w.runs i = .running r)
    {todo : List Reminder} (htodo : r.todo = k :: todo)
    (hfree : claimable interval_seconds w k r.now = true) (company : String) :
    World.Inv interval_seconds { w.setRun i (.claimed { r with todo := todo } k) with
      deliveries := w.deliveries.set k (claimedRow company r.now (w.deliveries.rows k)) } := by
  obtain ⟨hstatus, hupdated⟩ := claimedRow_spec company r.now (w.deliveries.rows k)
  have hdue : ∀ j ∈ r.todo, Due interval_seconds j r.now := h.todo i r (by rw [hi]; rfl)
  have hk : Due interval_seconds k r.now := hdue k (by rw [htodo]; exact List.mem_cons_self)
  -- A row that is held, or was delivered, would have stopped the claim.
  have hfailed : ∀ d, w.deliveries.rows k = some d → d.status = .failed := by
    intro d hd
    by_contra hne
    rw [h.not_claimable hk hd hne] at hfree
    cases hfree
  have hnobody : ∀ j, ¬(w.runs j).Holds k := by
    intro j hj
    obtain ⟨d, hd, hprocessing⟩ := h.held j k hj
    rw [hfailed d hd] at hprocessing
    cases hprocessing
  have hnot : k ∉ w.emitted := by
    intro hmem
    obtain ⟨⟨d, hd, hne⟩, _⟩ := h.emitted k hmem
    exact hne (hfailed d hd)
  refine ⟨fun j r' hr' => ?_, fun j k' hk' => ?_, fun j j' k' hj hj' => ?_, fun k' d hd => ?_,
    fun k' hk' => ⟨?_, fun j hj => ?_⟩, h.once⟩
  · rcases run?_setRun hr' with ⟨_, hr'⟩ | ⟨_, hr'⟩
    · cases hr'
      intro k' hk'
      exact hdue k' (by rw [htodo]; exact List.mem_cons_of_mem _ hk')
    · exact h.todo j r' hr'
  · rcases holds_setRun hk' with ⟨_, rfl⟩ | ⟨_, hold⟩
    · exact ⟨_, Table.rows_set_self _ _ _, hstatus⟩
    · have hne : k' ≠ k := by
        rintro rfl
        exact hnobody j hold
      obtain ⟨d, hd, hprocessing⟩ := h.held j k' hold
      exact ⟨d, (Table.rows_set_ne _ _ hne).trans hd, hprocessing⟩
  · rcases holds_setRun hj with ⟨rfl, rfl⟩ | ⟨_, hold⟩
    · rcases holds_setRun hj' with ⟨rfl, _⟩ | ⟨_, hold'⟩
      · rfl
      · exact absurd hold' (hnobody j')
    · rcases holds_setRun hj' with ⟨rfl, rfl⟩ | ⟨_, hold'⟩
      · exact absurd hold (hnobody j)
      · exact h.single j j' k' hold hold'
  · by_cases hne : k' = k
    · rw [hne, Table.rows_set_self] at hd
      cases hd
      rw [hne, hupdated]
      exact fun _ => hk
    · rw [Table.rows_set_ne _ _ hne] at hd
      exact h.window k' d hd
  · have hne : k' ≠ k := by
      rintro rfl
      exact hnot hk'
    obtain ⟨d, hd, hrow⟩ := (h.emitted k' hk').1
    exact ⟨d, (Table.rows_set_ne _ _ hne).trans hd, hrow⟩
  · rcases waits_setRun hj with ⟨_, rfl⟩ | ⟨_, hold⟩
    · exact hnot hk'
    · exact (h.emitted k' hk').2 j hold

theorem World.Inv.emit (h : w.Inv interval_seconds) (hi : w.runs i = .claimed r k) (succeeds : Bool) :
    World.Inv interval_seconds { w.setRun i (.finishing r k succeeds) with
      emitted := if succeeds then w.emitted ++ [k] else w.emitted } := by
  have hwaits : (w.runs i).Waits k := by
    rw [hi]
    rfl
  have hnot : k ∉ w.emitted := fun hmem => (h.emitted k hmem).2 i hwaits
  refine ⟨fun j r' hr' => ?_, fun j k' hk' => ?_, fun j j' k' hj hj' => ?_, h.window, ?_, ?_⟩
  · rcases run?_setRun hr' with ⟨rfl, hrun⟩ | ⟨_, hrun⟩
    · exact h.todo j r' (by rw [hi]; exact hrun)
    · exact h.todo j r' hrun
  · rcases holds_setRun hk' with ⟨rfl, rfl⟩ | ⟨_, hold⟩
    · exact h.held j k hwaits.holds
    · exact h.held j k' hold
  · rcases holds_setRun hj with ⟨rfl, rfl⟩ | ⟨_, hold⟩
    · rcases holds_setRun hj' with ⟨rfl, _⟩ | ⟨_, hold'⟩
      · rfl
      · exact h.single j j' k hwaits.holds hold'
    · rcases holds_setRun hj' with ⟨rfl, rfl⟩ | ⟨_, hold'⟩
      · exact h.single j j' k hold hwaits.holds
      · exact h.single j j' k' hold hold'
  · have hold : ∀ k' ∈ w.emitted, (∃ d, w.deliveries.rows k' = some d ∧ d.status ≠ .failed) ∧
        ∀ j, ¬((w.setRun i (.finishing r k succeeds)).runs j).Waits k' := by
      intro k' hk'
      refine ⟨(h.emitted k' hk').1, fun j hj => ?_⟩
      rcases waits_setRun hj with ⟨_, hmine⟩ | ⟨_, hold⟩
      · obtain rfl : k = k' := hmine.holds
        exact hnot hk'
      · exact (h.emitted k' hk').2 j hold
    cases succeeds with
    | false => exact hold
    | true =>
      intro k' hk'
      rcases List.mem_append.1 hk' with hk' | hk'
      · exact hold k' hk'
      · obtain rfl := List.mem_singleton.1 hk'
        obtain ⟨d, hd, hprocessing⟩ := h.held i k' hwaits.holds
        refine ⟨⟨d, hd, by rw [hprocessing]; nofun⟩, fun j hj => ?_⟩
        rcases waits_setRun hj with ⟨_, hj⟩ | ⟨hne, hj⟩
        · exact hj
        · exact hne (h.single j i k' hj.holds hwaits.holds)
  · cases succeeds with
    | false => exact h.once
    | true =>
      refine List.nodup_append.2 ⟨h.once, List.nodup_singleton k, fun a ha b hb => ?_⟩
      rw [List.mem_singleton.1 hb]
      rintro rfl
      exact hnot ha

/-- The result of a delivery goes into the row that its run has claimed. -/
theorem World.Inv.finish (h : w.Inv interval_seconds) {emitted : Bool}
    (hi : w.runs i = .finishing r k emitted) (hsent : emitted = false → k ∉ w.emitted) :
    (finished w i r k emitted).Inv interval_seconds := by
  have hholds : (w.runs i).Holds k := by
    rw [hi]
    rfl
  -- What another run holds is another reminder, whose row stays.
  have hother : ∀ j k', ((finished w i r k emitted).runs j).Holds k' →
      j ≠ i ∧ k' ≠ k ∧ (w.runs j).Holds k' := by
    intro j k' hj
    rcases holds_setRun hj with ⟨_, hmine⟩ | ⟨hne, hold⟩
    · exact hmine.elim
    · refine ⟨hne, ?_, hold⟩
      rintro rfl
      exact hne (h.single j i k' hold hholds)
  refine ⟨fun j r' hr' => ?_, fun j k' hk' => ?_, fun j j' k' hj hj' => ?_,
    fun k' d hd hprocessing => ?_, fun k' hk' => ⟨?_, fun j hj => ?_⟩, h.once⟩
  · rcases run?_setRun hr' with ⟨_, hr'⟩ | ⟨_, hr'⟩
    · have hdue := h.todo i r (by rw [hi]; rfl)
      cases hr'
      cases emitted with
      | false => exact hdue
      | true => exact hdue
    · exact h.todo j r' hr'
  · obtain ⟨_, hne, hold⟩ := hother j k' hk'
    obtain ⟨d, hd, hrow⟩ := h.held j k' hold
    refine ⟨d, ?_, hrow⟩
    rw [rows_finished, hd, Option.map_some, if_neg hne]
  · exact h.single j j' k' (hother j k' hj).2.2 (hother j' k' hj').2.2
  · rw [rows_finished] at hd
    obtain ⟨d', hd', rfl⟩ := Option.map_eq_some_iff.1 hd
    split_ifs at hprocessing ⊢ with hk
    · cases emitted with
      | false => cases hprocessing
      | true => cases hprocessing
    · exact h.window k' d' hd' hprocessing
  · obtain ⟨d, hd, hrow⟩ := (h.emitted k' hk').1
    refine ⟨_, by rw [rows_finished, hd, Option.map_some], ?_⟩
    split_ifs with hk
    · cases emitted with
      | false => exact absurd (hk ▸ hk') (hsent rfl)
      | true => nofun
    · exact hrow
  · exact (h.emitted k' hk').2 j (by
      rcases waits_setRun hj with ⟨_, hj⟩ | ⟨_, hj⟩
      · exact hj.elim
      · exact hj)

theorem inv_step (h : w.Inv interval_seconds) {e : Event}
    (hstep : step db interval_seconds w e = some w') : w'.Inv interval_seconds := by
  cases e with
  | start i now limit =>
    dsimp only [step] at hstep
    split at hstep
    · split_ifs at hstep
      cases hstep
      have hkeep : (w.setRun i (.running ⟨now, limit,
          due db (notification_grace_window interval_seconds) now, 0, 0⟩)).Inv
          interval_seconds := by
        refine h.setRun i (fun r hr k hk => ?_) (fun _ hk => hk)
        cases hr
        exact due_of_mem hk
      exact hkeep.congr rfl rfl rfl
    · cases hstep
  | next i =>
    dsimp only [step] at hstep
    split at hstep
    · rename_i r hr
      cases hstep
      have hdue : ∀ k ∈ r.todo, Due interval_seconds k r.now := h.todo i r (by rw [hr]; rfl)
      have hturn := turn_nextTurn db interval_seconds w i r
      generalize nextTurn db interval_seconds w i r = w' at hturn ⊢
      cases hturn with
      | complete => exact (h.stop i).congr rfl rfl rfl
      | claim k todo company htodo hfree => exact h.claim hr htodo hfree company
      | skip k todo htodo hlimit hfree =>
        refine h.setRun i (fun r' hr' k' hk' => ?_) (fun _ hk => hk)
        cases hr'
        exact hdue k' (by rw [htodo]; exact List.mem_cons_of_mem _ hk')
    · cases hstep
  | emit_event i succeeds =>
    dsimp only [step] at hstep
    split at hstep
    · rename_i r k hi
      cases hstep
      exact h.emit hi succeeds
    · cases hstep
  | finish i =>
    dsimp only [step] at hstep
    split at hstep
    · rename_i r k emitted hi
      cases hstep
      refine h.finish hi (fun hfalse hmem => (h.emitted k hmem).2 i ?_)
      rw [hi, hfalse]
      rfl
    · cases hstep
  | crash i =>
    cases hstep
    exact h.stop i

theorem inv_start (h : (machine db interval_seconds).Start w) : w.Inv interval_seconds := by
  obtain ⟨hdeliveries, hruns, hemitted, _⟩ := h
  refine ⟨fun i r hr => ?_, fun i k hk => ?_, fun i j k hk => ?_, fun k d hd => ?_,
    fun k hk => ?_, ?_⟩
  · rw [hruns] at hr
    cases hr
  · rw [hruns] at hk
    exact hk.elim
  · rw [hruns] at hk
    exact hk.elim
  · rw [hdeliveries] at hd
    cases hd
  · rw [hemitted] at hk
    exact absurd hk List.not_mem_nil
  · rw [hemitted]
    exact List.nodup_nil

/-! ## What a run delivers -/

/-- No run is cut off with a reminder that it has claimed and that is not delivered; no run comes to
a reminder that another run has claimed and not delivered yet, or to its limit. -/
def Meets (w : World) : Event → Prop
  | .crash i => ∀ k, ¬(w.runs i).Waits k
  | .next i => ∀ r k todo, w.runs i = .running r → r.todo = k :: todo →
    r.sent < r.limit ∧ ∀ j, ¬(w.runs j).Waits k
  | _ => True

/-- A reminder that a run is to deliver is still before it, or is being delivered, or was, or the
run has failed. -/
def Served (w : World) (i : Nat) (r : Running) (k : Reminder) : Prop :=
  k ∈ r.todo ∨ (w.runs i).Waits k ∨ k ∈ w.emitted ∨ 0 < r.failures

structure World.Delivers (db : Db) (interval_seconds : Int) (w : World) : Prop where
  processing : ∀ k d, w.deliveries.rows k = some d → d.status = .processing →
    (∃ i, (w.runs i).Waits k) ∨ k ∈ w.emitted
  sent : ∀ k d, w.deliveries.rows k = some d → d.status = .sent → k ∈ w.emitted
  finishing : ∀ i r k, w.runs i = .finishing r k true → k ∈ w.emitted
  served : ∀ i r, (w.runs i).run? = some r →
    ∀ k ∈ due db (notification_grace_window interval_seconds) r.now, Served w i r k
  completed : ∀ c ∈ w.completed, c.failures = 0 →
    ∀ k ∈ due db (notification_grace_window interval_seconds) c.now, k ∈ w.emitted

theorem served_mono (hruns : w'.runs i = w.runs i) (hemitted : ∀ j ∈ w.emitted, j ∈ w'.emitted)
    (h : Served w i r k) : Served w' i r k := by
  rcases h with h | h | h | h
  · exact .inl h
  · exact .inr (.inl (by rw [hruns]; exact h))
  · exact .inr (.inr (.inl (hemitted k h)))
  · exact .inr (.inr (.inr h))

/-- One run goes on and waits for no reminder any more; the rest stays as it was. -/
theorem World.Delivers.setRun (h : w.Delivers db interval_seconds) (i : Nat)
    (hwaits : ∀ k, ¬(w.runs i).Waits k) (hfree : ∀ k, ¬phase.Holds k)
    (hserved : ∀ r, phase.run? = some r → ∀ k ∈ due db (notification_grace_window interval_seconds)
      r.now, Served (w.setRun i phase) i r k) :
    (w.setRun i phase).Delivers db interval_seconds where
  processing := by
    intro k d hd hprocessing
    rcases h.processing k d hd hprocessing with ⟨j, hj⟩ | hk
    · have hne : j ≠ i := by
        rintro rfl
        exact hwaits k hj
      exact .inl ⟨j, by rw [setRun_ne w phase hne]; exact hj⟩
    · exact .inr hk
  sent := h.sent
  finishing := by
    intro j r k hj
    by_cases hji : j = i
    · rw [hji, setRun_self] at hj
      rw [hj] at hfree
      exact absurd rfl (hfree k)
    · rw [setRun_ne w phase hji] at hj
      exact h.finishing j r k hj
  served := by
    intro j r hr k hk
    rcases run?_setRun hr with ⟨rfl, hrun⟩ | ⟨hne, hrun⟩
    · exact hserved r hrun k hk
    · exact served_mono (setRun_ne w phase hne) (fun _ hk => hk) (h.served j r hrun k hk)
  completed := h.completed

theorem World.Delivers.stop (h : w.Delivers db interval_seconds) (hwaits : ∀ k, ¬(w.runs i).Waits k) :
    (w.setRun i .idle).Delivers db interval_seconds :=
  h.setRun i hwaits (fun _ hk => hk) nofun

/-- Without a failure, a run at its end has delivered what was due. -/
theorem World.Delivers.complete (h : w.Delivers db interval_seconds) (hi : w.runs i = .running r)
    (htodo : r.todo = []) :
    World.Delivers db interval_seconds
      { w.setRun i .idle with completed := w.completed ++ [⟨r.now, r.failures⟩] } := by
  have hnot : ∀ k, ¬(w.runs i).Waits k := by
    intro k hk
    rw [hi] at hk
    exact hk
  have hkeep := h.stop hnot
  refine ⟨hkeep.processing, hkeep.sent, hkeep.finishing, hkeep.served, fun c hc hfailures k hk => ?_⟩
  rcases List.mem_append.1 hc with hc | hc
  · exact h.completed c hc hfailures k hk
  · obtain rfl := List.mem_singleton.1 hc
    rcases h.served i r (by rw [hi]; rfl) k hk with hserved | hserved | hserved | hserved
    · rw [htodo] at hserved
      exact absurd hserved List.not_mem_nil
    · exact absurd hserved (hnot k)
    · exact hserved
    · exact absurd hfailures (Nat.ne_of_gt hserved)

theorem World.Delivers.claim (h : w.Delivers db interval_seconds) (hi : w.runs i = .running r)
    {todo : List Reminder} (htodo : r.todo = k :: todo) (company : String) :
    World.Delivers db interval_seconds { w.setRun i (.claimed { r with todo := todo } k) with
      deliveries := w.deliveries.set k (claimedRow company r.now (w.deliveries.rows k)) } := by
  have hnot : ∀ k', ¬(w.runs i).Waits k' := by
    intro k' hk'
    rw [hi] at hk'
    exact hk'
  refine ⟨fun k' d hd hprocessing => ?_, fun k' d hd hsent => ?_, fun j r' k' hj => ?_,
    fun j r' hr' k' hk' => ?_, h.completed⟩
  · by_cases hne : k' = k
    · exact .inl ⟨i, by rw [hne]; exact (setRun_self w i _).symm ▸ rfl⟩
    · rw [Table.rows_set_ne _ _ hne] at hd
      rcases h.processing k' d hd hprocessing with ⟨j, hj⟩ | hk'
      · have hji : j ≠ i := by
          rintro rfl
          exact hnot k' hj
        exact .inl ⟨j, (setRun_ne w _ hji).symm ▸ hj⟩
      · exact .inr hk'
  · by_cases hne : k' = k
    · rw [hne, Table.rows_set_self] at hd
      cases hd
      rw [(claimedRow_spec company r.now (w.deliveries.rows k)).1] at hsent
      cases hsent
    · rw [Table.rows_set_ne _ _ hne] at hd
      exact h.sent k' d hd hsent
  · by_cases hji : j = i
    · rw [hji] at hj
      rw [setRun_self] at hj
      cases hj
    · exact h.finishing j r' k' ((setRun_ne w _ hji).symm.trans hj)
  · rcases run?_setRun hr' with ⟨rfl, hrun⟩ | ⟨hne, hrun⟩
    · cases hrun
      rcases h.served j r (by rw [hi]; rfl) k' hk' with hserved | hserved | hserved | hserved
      · rw [htodo] at hserved
        rcases List.mem_cons.1 hserved with rfl | hserved
        · exact .inr (.inl ((setRun_self w j _).symm ▸ rfl))
        · exact .inl hserved
      · exact absurd hserved (hnot k')
      · exact .inr (.inr (.inl hserved))
      · exact .inr (.inr (.inr hserved))
    · exact served_mono (setRun_ne w _ hne) (fun _ hk => hk) (h.served j r' hrun k' hk')

/-- What is not claimed, and no run is working on, was delivered. -/
theorem World.Delivers.skip (h : w.Delivers db interval_seconds)
    (hfree : claimable interval_seconds w k now = false) (hnobody : ∀ j, ¬(w.runs j).Waits k) :
    k ∈ w.emitted := by
  unfold claimable at hfree
  cases hrow : w.deliveries.rows k with
  | none =>
    rw [hrow] at hfree
    cases hfree
  | some d =>
    cases hstatus : d.status with
    | processing =>
      rcases h.processing k d hrow hstatus with ⟨j, hj⟩ | hk
      · exact absurd hj (hnobody j)
      · exact hk
    | sent => exact h.sent k d hrow hstatus
    | failed =>
      rw [hrow, Option.all_some] at hfree
      unfold delivery_claim_retryable at hfree
      rw [decide_eq_true hstatus] at hfree
      cases hfree

theorem World.Delivers.emit (h : w.Delivers db interval_seconds) (hi : w.runs i = .claimed r k)
    (succeeds : Bool) :
    World.Delivers db interval_seconds { w.setRun i (.finishing r k succeeds) with
      emitted := if succeeds then w.emitted ++ [k] else w.emitted } := by
  have hgrows : ∀ j ∈ w.emitted, j ∈ if succeeds then w.emitted ++ [k] else w.emitted := by
    intro j hj
    split_ifs
    · exact List.mem_append_left _ hj
    · exact hj
  -- The reminder of the run is delivered, or waits for its result.
  have hmine : ∀ k', (w.runs i).Waits k' → (Phase.finishing r k succeeds).Waits k' ∨
      k' ∈ if succeeds then w.emitted ++ [k] else w.emitted := by
    intro k' hk'
    rw [hi] at hk'
    cases succeeds with
    | false => exact .inl hk'
    | true => exact .inr (List.mem_append_right _ (List.mem_singleton.2 hk'.symm))
  refine ⟨fun k' d hd hprocessing => ?_, fun k' d hd hsent => hgrows k' (h.sent k' d hd hsent),
    fun j r' k' hj => ?_, fun j r' hr' k' hk' => ?_, fun c hc hfailures k' hk' =>
      hgrows k' (h.completed c hc hfailures k' hk')⟩
  · rcases h.processing k' d hd hprocessing with ⟨j, hj⟩ | hk'
    · by_cases hji : j = i
      · rw [hji] at hj
        exact (hmine k' hj).imp (fun hwaits => ⟨i, (setRun_self w i _).symm ▸ hwaits⟩) id
      · exact .inl ⟨j, (setRun_ne w _ hji).symm ▸ hj⟩
    · exact .inr (hgrows k' hk')
  · by_cases hji : j = i
    · rw [hji] at hj
      rw [setRun_self] at hj
      cases hj
      exact List.mem_append_right _ (List.mem_singleton_self _)
    · exact hgrows k' (h.finishing j r' k' ((setRun_ne w _ hji).symm.trans hj))
  · rcases run?_setRun hr' with ⟨rfl, hrun⟩ | ⟨hne, hrun⟩
    · cases hrun
      rcases h.served j r (by rw [hi]; rfl) k' hk' with hserved | hserved | hserved | hserved
      · exact .inl hserved
      · rcases hmine k' hserved with hwaits | hemitted
        · exact .inr (.inl ((setRun_self w j _).symm ▸ hwaits))
        · exact .inr (.inr (.inl hemitted))
      · exact .inr (.inr (.inl (hgrows k' hserved)))
      · exact .inr (.inr (.inr hserved))
    · exact served_mono (setRun_ne w _ hne) hgrows (h.served j r' hrun k' hk')

theorem World.Delivers.finish (h : w.Delivers db interval_seconds) {emitted : Bool}
    (hi : w.runs i = .finishing r k emitted) :
    (finished w i r k emitted).Delivers db interval_seconds := by
  have hserved := h.served i r (by rw [hi]; rfl)
  -- Nobody but this run waited for its result.
  have hother : ∀ k' j, k' ≠ k → (w.runs j).Waits k' → j ≠ i := by
    rintro k' j hne hj rfl
    rw [hi] at hj
    exact hne (Phase.Waits.holds hj).symm
  refine ⟨fun k' d hd hprocessing => ?_, fun k' d hd hsent => ?_, fun j r' k' hj => ?_,
    fun j r' hr' k' hk' => ?_, h.completed⟩
  · rw [rows_finished] at hd
    obtain ⟨d', hd', rfl⟩ := Option.map_eq_some_iff.1 hd
    split_ifs at hprocessing with hk
    · cases emitted with
      | false => cases hprocessing
      | true => cases hprocessing
    · rcases h.processing k' d' hd' hprocessing with ⟨j, hj⟩ | hk'
      · exact .inl ⟨j, (setRun_ne w _ (hother k' j hk hj)).symm ▸ hj⟩
      · exact .inr hk'
  · rw [rows_finished] at hd
    obtain ⟨d', hd', rfl⟩ := Option.map_eq_some_iff.1 hd
    split_ifs at hsent with hk
    · cases emitted with
      | false => cases hsent
      | true => exact hk ▸ h.finishing i r k hi
    · exact h.sent k' d' hd' hsent
  · by_cases hji : j = i
    · rw [hji] at hj
      exact absurd ((setRun_self w i _).symm.trans hj) nofun
    · exact h.finishing j r' k' ((setRun_ne w _ hji).symm.trans hj)
  · rcases run?_setRun hr' with ⟨rfl, hrun⟩ | ⟨hne, hrun⟩
    · cases emitted with
      | false =>
        cases hrun
        exact .inr (.inr (.inr (Nat.succ_pos _)))
      | true =>
        cases hrun
        rcases hserved k' hk' with hleft | hwaits | hdone | hfailed
        · exact .inl hleft
        · rw [hi] at hwaits
          exact hwaits.elim
        · exact .inr (.inr (.inl hdone))
        · exact .inr (.inr (.inr hfailed))
    · exact served_mono (setRun_ne w _ hne) (fun _ hk => hk) (h.served j r' hrun k' hk')

theorem delivers_step (h : w.Delivers db interval_seconds) {e : Event} (hmeets : Meets w e)
    (hstep : step db interval_seconds w e = some w') : w'.Delivers db interval_seconds := by
  cases e with
  | start i now limit =>
    dsimp only [step] at hstep
    split at hstep
    · rename_i hidle
      split_ifs at hstep
      cases hstep
      have hkeep : (w.setRun i (.running ⟨now, limit,
          due db (notification_grace_window interval_seconds) now, 0, 0⟩)).Delivers db
          interval_seconds := by
        refine h.setRun i (fun k hk => ?_) (fun _ hk => hk) (fun r hr k hk => ?_)
        · rw [hidle] at hk
          exact hk
        · cases hr
          exact .inl hk
      exact ⟨hkeep.processing, hkeep.sent, hkeep.finishing, hkeep.served, hkeep.completed⟩
    · cases hstep
  | next i =>
    dsimp only [step] at hstep
    split at hstep
    · rename_i r hi
      cases hstep
      have hturn := turn_nextTurn db interval_seconds w i r
      generalize nextTurn db interval_seconds w i r = w' at hturn ⊢
      cases hturn with
      | complete hend =>
        refine h.complete hi ?_
        cases htodo : r.todo with
        | nil => rfl
        | cons k todo =>
          obtain ⟨hlimit, _⟩ := hmeets r k todo hi htodo
          rcases hend with hend | hend
          · exact hend ▸ htodo.symm
          · exact absurd hlimit (Nat.not_lt_of_le hend)
      | claim k todo company htodo _ => exact h.claim hi htodo company
      | skip k todo htodo hlimit hfree =>
        have hdone := h.skip hfree (hmeets r k todo hi htodo).2
        refine h.setRun i (fun k' hk' => ?_) (fun _ hk' => hk') (fun r' hr' k' hk' => ?_)
        · rw [hi] at hk'
          exact hk'
        · cases hr'
          rcases h.served i r (by rw [hi]; rfl) k' hk' with hleft | hwaits | hemitted | hfailed
          · rw [htodo] at hleft
            rcases List.mem_cons.1 hleft with rfl | hleft
            · exact .inr (.inr (.inl hdone))
            · exact .inl hleft
          · rw [hi] at hwaits
            exact hwaits.elim
          · exact .inr (.inr (.inl hemitted))
          · exact .inr (.inr (.inr hfailed))
    · cases hstep
  | emit_event i succeeds =>
    dsimp only [step] at hstep
    split at hstep
    · rename_i r k hi
      cases hstep
      exact h.emit hi succeeds
    · cases hstep
  | finish i =>
    dsimp only [step] at hstep
    split at hstep
    · rename_i r k emitted hi
      cases hstep
      exact h.finish hi
    · cases hstep
  | crash i =>
    cases hstep
    exact h.stop hmeets

theorem delivers_start (h : (machine db interval_seconds).Start w) :
    w.Delivers db interval_seconds := by
  obtain ⟨hdeliveries, hruns, _, hcompleted⟩ := h
  refine ⟨fun k d hd => ?_, fun k d hd => ?_, fun i r k hi => ?_, fun i r hr => ?_, fun c hc => ?_⟩
  · rw [hdeliveries] at hd
    cases hd
  · rw [hdeliveries] at hd
    cases hd
  · rw [hruns] at hi
    cases hi
  · rw [hruns] at hr
    cases hr
  · rw [hcompleted] at hc
    exact absurd hc List.not_mem_nil

/-- In all runs each event is emitted once at most. In the runs in which no claim is cut off, no
run meets the claim of another, or its limit, a run without a failure has delivered at its end each
reminder that it, or a run before it, went through and that was still due. -/
theorem reminders_are_delivered (db : Db) (interval_seconds : Int) :
    (∀ w, (machine db interval_seconds).Reachable w → w.emitted.Nodup) ∧
    ∀ w, (machine db interval_seconds).Reach Meets w → ∀ c ∈ w.completed, c.failures = 0 →
      ∀ now ≤ c.now, ∀ k ∈ due db (notification_grace_window interval_seconds) now,
        notification_due_in_window k.due_at c.now (notification_grace_window interval_seconds) =
          true → k ∈ w.emitted := by
  constructor
  · intro w hw
    have hinv : w.Inv interval_seconds :=
      hw.invariant (fun _ => inv_start) (fun _ _ _ hinv hstep => inv_step hinv hstep)
    exact hinv.once
  · intro w hw c hc hfailures now hnow k hk hdue
    have hdelivers : w.Delivers db interval_seconds :=
      hw.invariant (fun _ => delivers_start)
        (fun _ _ _ _ hdelivers hmeets hstep => delivers_step hdelivers hmeets hstep)
    exact hdelivers.completed c hc hfailures k (due_later hk hnow hdue)

/-! ## One meeting -/

/-- A meeting at minute 20, with an alert 10 minutes before it. -/
def anasDb : Db where
  users := Table.empty.set "ana" ⟨"acme", true⟩
  schedules := Table.empty.set "meeting" ⟨"acme", "ana", true, none, minutes 20, [10], []⟩

def anasReminder : Reminder := ⟨"meeting", minutes 20, 10, "ana"⟩

def quiet : World := ⟨0, .empty, fun _ => .idle, [], []⟩

theorem start_quiet : (machine anasDb 60).Start quiet := ⟨rfl, fun _ => rfl, rfl, rfl⟩

theorem due_meeting :
    due anasDb (notification_grace_window 60) (minutes 10) = [anasReminder] := by
  decide

/-- The run that is in time for the alert. -/
def inTime : Running := ⟨minutes 10, 500, [anasReminder], 0, 0⟩

def started : World := { quiet.setRun 0 (.running inTime) with clock := minutes 10 }

theorem step_started :
    (machine anasDb 60).step quiet (.start 0 (minutes 10) 500) = some started := by
  dsimp only [machine, step, quiet]
  rw [due_meeting]
  rfl

def underway : World := ((machine anasDb 60).step started (.next 0)).get (by decide)

def told : World := ((machine anasDb 60).run underway [.emit_event 0 true, .finish 0]).get
  (by decide)

def ended : World := ((machine anasDb 60).step told (.next 0)).get (by decide)

theorem meets_started : Meets started (.next 0) := by
  intro r k todo hr _
  have hr' : started.runs 0 = .running inTime := setRun_self quiet 0 _
  obtain rfl := Phase.running.inj (hr'.symm.trans hr)
  refine ⟨by decide, fun j hj => ?_⟩
  rcases waits_setRun hj with ⟨_, hj⟩ | ⟨_, hj⟩
  · exact hj
  · exact hj

theorem meets_told : Meets told (.next 0) := by
  intro r k todo hr htodo
  have hr' : told.runs 0 = .running { inTime with todo := [], sent := 1 } := by decide
  obtain rfl := Phase.running.inj (hr'.symm.trans hr)
  cases htodo

/-- Ana is told of her meeting. -/
theorem ana_is_reminded : ended.completed = [⟨minutes 10, 0⟩] ∧ anasReminder ∈ ended.emitted := by
  have hcompleted : ended.completed = [⟨minutes 10, 0⟩] := by decide +kernel
  have hended : (machine anasDb 60).Reach Meets ended := by
    have hstarted : (machine anasDb 60).Reach Meets started :=
      (Machine.Reach.start start_quiet).next
        (show Meets quiet (.start 0 (minutes 10) 500) from trivial) step_started
    have hunderway : (machine anasDb 60).Reach Meets underway :=
      hstarted.next meets_started (Option.some_get _).symm
    have htold : (machine anasDb 60).Reach Meets told := by
      refine hunderway.run (fun e he w => ?_) (Option.some_get _).symm
      rcases List.mem_cons.1 he with rfl | he
      · trivial
      · rw [List.mem_singleton.1 he]
        trivial
    exact htold.next meets_told (Option.some_get _).symm
  refine ⟨hcompleted, (reminders_are_delivered anasDb 60).2 ended hended ⟨minutes 10, 0⟩ ?_ rfl
    (minutes 10) (Nat.le_refl _) anasReminder ?_ (by decide)⟩
  · rw [hcompleted]
    exact List.mem_singleton_self _
  · rw [due_meeting]
    exact List.mem_singleton_self _

/-- The run is cut off with its claim, and the next one comes a minute later. -/
def cutOff : World :=
  ((machine anasDb 60).run quiet [.start 0 (minutes 10) 500, .next 0, .crash 0,
    .start 1 (minutes 11) 500, .next 1, .next 1]).get (by decide)

/-- Nobody takes a claim over while its reminder is due. -/
theorem a_claim_that_is_cut_off_is_lost : (machine anasDb 60).Reachable cutOff ∧
    cutOff.deliveries.rows anasReminder = some ⟨"acme", .processing, none, minutes 10⟩ ∧
    cutOff.completed = [⟨minutes 11, 0⟩] ∧ minutes 10 + seconds 60 ≤ minutes 11 ∧
    notification_due_in_window anasReminder.due_at (minutes 11) (notification_grace_window 60) =
      true ∧
    anasReminder ∈ due anasDb (notification_grace_window 60) (minutes 11) ∧
    anasReminder ∉ cutOff.emitted :=
  ⟨Machine.reachable_of_run start_quiet (Option.some_get _).symm, by decide +kernel,
    by decide +kernel, by decide, by decide, by decide +kernel, by decide +kernel⟩

end moaworks.schedule_notification
