-- The laws of the outbox over whole runs: what is recorded as done was reconciled after it was
-- put in, and what is not done is in the hands of a run or waits for one.
import MoaWorks.Lib.TableOrder
import MoaWorks.SenderOutbox

namespace moaworks.mail_delivery_worker

variable {id : String} {e : Entry} {row : Row} {w w' : World} {phase : Phase}

/-! ## The order of the batches -/

/-- Of an ordered list, what a prefix leaves out comes after the whole prefix. -/
theorem take_of_not_mem {α : Type*} {R : α → α → Prop} {l : List α} (h : l.Pairwise R) {x : α}
    (hx : x ∈ l) {n : Nat} (hnot : x ∉ l.take n) :
    (l.take n).length = n ∧ ∀ y ∈ l.take n, R y x := by
  have hdrop : x ∈ l.drop n := by
    rw [← List.take_append_drop n l] at hx
    exact (List.mem_append.1 hx).resolve_left hnot
  constructor
  · have hpos := List.length_pos_of_mem hdrop
    rw [List.length_drop] at hpos
    rw [List.length_take]
    omega
  · rw [← List.take_append_drop n l, List.pairwise_append] at h
    exact fun y hy => h.2.2 y hy x hdrop

/-- The entry comes no later in the order of the query. -/
def Entry.Before (e e' : Entry) : Prop :=
  e.next_attempt_at < e'.next_attempt_at ∨
  (e.next_attempt_at = e'.next_attempt_at ∧ e.created_at ≤ e'.created_at)

theorem mem_ordered {entries : Table String Entry} :
    (id, e) ∈ ordered entries ↔ entries.rows id = some e := by
  unfold ordered
  rw [List.mem_insertionSort, Table.mem_orderedBy]

theorem pairwise_ordered (entries : Table String Entry) :
    (ordered entries).Pairwise (fun a b => a.2.Before b.2) := by
  have hcreated : (entries.orderedBy Entry.created_at).Pairwise
      (fun a b => a.2.created_at ≤ b.2.created_at) :=
    (Table.pairwise_orderedBy entries Entry.created_at).imp (fun h => h.1)
  have hsorted : (ordered entries).Pairwise (fun a b =>
      a.2.next_attempt_at ≤ b.2.next_attempt_at ∧
        (b.2.next_attempt_at ≤ a.2.next_attempt_at → a.2.created_at ≤ b.2.created_at)) :=
    Table.insertionSort_stable
      (r := fun a b : String × Entry => a.2.next_attempt_at ≤ b.2.next_attempt_at)
      (fun _ _ => Nat.le_total _ _) (fun _ _ _ => Nat.le_trans) hcreated
  refine hsorted.imp ?_
  rintro a b ⟨hle, hties⟩
  rcases Nat.lt_or_eq_of_le hle with hlt | heq
  · exact .inl hlt
  · exact .inr ⟨heq, hties (Nat.le_of_eq heq.symm)⟩

variable {entries : Table String Entry} {mail_domains : Table String String} {now : Time}
  {limit : Nat} {busy : List String}

theorem of_queryRow (h : queryRow mail_domains now busy id e = some row) :
    waiting e = true ∧ id ∉ busy ∧ row.id = id ∧ row.company_id = e.company_id := by
  unfold queryRow at h
  split_ifs at h with hok
  obtain ⟨mail_domain, _, rfl⟩ := Option.map_eq_some_iff.1 h
  exact ⟨hok.1, hok.2.2, rfl, rfl⟩

/-- A row of a batch is an entry that waits. -/
theorem of_mem_batch (h : row ∈ batch entries mail_domains now limit busy) :
    ∃ e, entries.rows row.id = some e ∧ waiting e = true ∧ row.company_id = e.company_id := by
  unfold batch at h
  obtain ⟨⟨id, e⟩, he, hrow⟩ := List.mem_filterMap.1 (List.mem_of_mem_take h)
  obtain ⟨hwaiting, _, hid, hcompany⟩ := of_queryRow hrow
  exact ⟨e, hid ▸ mem_ordered.1 he, hwaiting, hcompany⟩

/-- The rows of the query come in the order of their entries. -/
theorem pairwise_rows (entries : Table String Entry) (mail_domains : Table String String)
    (now : Time) (busy : List String) :
    ((ordered entries).filterMap (fun (id, e) => queryRow mail_domains now busy id e)).Pairwise
      (fun a b => ∀ e e', entries.rows a.id = some e → entries.rows b.id = some e' →
        e.Before e') := by
  rw [List.pairwise_filterMap]
  refine (pairwise_ordered entries).imp_of_mem ?_
  rintro ⟨id, e⟩ ⟨id', e'⟩ hmem hmem' hbefore a ha b hb f f' hf hf'
  obtain ⟨_, _, hid, _⟩ := of_queryRow ha
  obtain ⟨_, _, hid', _⟩ := of_queryRow hb
  rw [hid, mem_ordered.1 hmem] at hf
  rw [hid', mem_ordered.1 hmem'] at hf'
  cases hf
  cases hf'
  exact hbefore

/-- An entry whose time has come is in the batch, or the batch is full of entries before it. -/
theorem mem_batch (he : entries.rows id = some e) (hwaiting : waiting e = true)
    (hnow : e.next_attempt_at ≤ now) (hbusy : id ∉ busy)
    (hdomain : (mail_domains.rows e.company_id).isSome) :
    id ∈ (batch entries mail_domains now limit busy).map Row.id ∨
      ((batch entries mail_domains now limit busy).length = limit ∧
        ∀ row ∈ batch entries mail_domains now limit busy, ∃ e', entries.rows row.id = some e' ∧
          e'.Before e) := by
  obtain ⟨mail_domain, hdomain⟩ := Option.isSome_iff_exists.1 hdomain
  have hrow : queryRow mail_domains now busy id e =
      some ⟨id, e.company_id, e.attempt_count, mail_domain⟩ := by
    unfold queryRow
    rw [if_pos ⟨hwaiting, hnow, hbusy⟩, hdomain]
    rfl
  by_cases hmem : (⟨id, e.company_id, e.attempt_count, mail_domain⟩ : Row) ∈
      batch entries mail_domains now limit busy
  · exact .inl (List.mem_map.2 ⟨_, hmem, rfl⟩)
  · obtain ⟨hfull, hbefore⟩ := take_of_not_mem (pairwise_rows entries mail_domains now busy)
      (List.mem_filterMap.2 ⟨(id, e), mem_ordered.2 he, hrow⟩) hmem
    refine .inr ⟨hfull, fun row hrow => ?_⟩
    obtain ⟨e', he', _⟩ := of_mem_batch hrow
    exact ⟨e', he', hbefore row hrow e' e he' he⟩

/-! ## What one step does to the entries -/

/-- The rows that a run has in its hands. -/
def Phase.rows : Phase → List Row
  | .idle => []
  | .working _ rows => rows
  | .reconciling _ row rows _ => row :: rows
  | .recording _ row rows _ => row :: rows

/-- A run that is alive works on the entry. -/
def WorkedOn (w : World) (id : String) : Prop :=
  ∃ i, ∃ row ∈ (w.runs i).rows, row.id = id

theorem setRun_self (w : World) (i : Nat) (phase : Phase) : (w.setRun i phase).runs i = phase :=
  if_pos rfl

theorem setRun_ne (w : World) {i j : Nat} (phase : Phase) (h : j ≠ i) :
    (w.setRun i phase).runs j = w.runs j := if_neg h

theorem rows_take (w : World) (now : Time) (rows : List Row) (id : String) :
    (w.take now rows).entries.rows id = (w.entries.rows id).map (fun e =>
      if id ∈ rows.map Row.id then processingEntry now e else e) := by
  unfold World.take
  rw [Table.rows_update]
  simp only [decide_eq_true_eq]

theorem rows_write (w : World) (id k : String) (f : Entry → Entry) :
    (w.write id f).entries.rows k = (w.entries.rows k).map (fun e => if k = id then f e else e) := by
  unfold World.write
  rw [Table.rows_update]
  simp only [decide_eq_true_eq]

theorem company_resultEntry (now : Time) (row : Row) (error : Option String) (e : Entry) :
    (resultEntry now row error e).company_id = e.company_id := by
  cases error with
  | none => rfl
  | some error => rfl

theorem status_resultEntry (now : Time) (row : Row) (error : Option String) (e : Entry) :
    (resultEntry now row error e).status = if error = none then .succeeded else .failed := by
  cases error with
  | none => rfl
  | some error => rfl

/-- Entries stay, under their companies, and so do the reconciliations. -/
structure Extends (w w' : World) : Prop where
  entries : ∀ id e, w.entries.rows id = some e →
    ∃ e', w'.entries.rows id = some e' ∧ e'.company_id = e.company_id
  reconciled : ∀ r ∈ w.reconciled, r ∈ w'.reconciled

theorem extends_write (w : World) (id : String) {f : Entry → Entry}
    (hf : ∀ e, (f e).company_id = e.company_id) (i : Nat) (phase : Phase) :
    Extends w ((w.write id f).setRun i phase) := by
  refine ⟨fun k e he => ?_, fun _ hr => hr⟩
  refine ⟨_, (rows_write w id k f).trans (by rw [he, Option.map_some]), ?_⟩
  split_ifs
  · exact hf e
  · rfl

theorem extends_setRun (w : World) (i : Nat) (phase : Phase) : Extends w (w.setRun i phase) :=
  ⟨fun _ e he => ⟨e, he, rfl⟩, fun _ hr => hr⟩

theorem extends_step {event : Event} (hstep : step w event = some w') : Extends w w' := by
  cases event with
  | enqueue id company_id now =>
    dsimp only [step] at hstep
    split at hstep
    · rename_i hnone
      cases hstep
      refine ⟨fun k e he => ⟨e, ?_, rfl⟩, fun _ hr => hr⟩
      have hne : k ≠ id := by
        rintro rfl
        rw [hnone] at he
        cases he
      exact (Table.rows_set_ne _ _ hne).trans he
    · cases hstep
  | save_settings company_id mail_domain =>
    cases hstep
    exact ⟨fun _ e he => ⟨e, he, rfl⟩, fun _ hr => hr⟩
  | select i now limit busy =>
    dsimp only [step] at hstep
    split at hstep
    · cases hstep
      refine ⟨fun k e he => ?_, fun _ hr => hr⟩
      refine ⟨_, (rows_take w now _ k).trans (by rw [he, Option.map_some]), ?_⟩
      split_ifs
      · rfl
      · rfl
    · cases hstep
  | next i =>
    dsimp only [step] at hstep
    split at hstep
    · cases hstep
      exact extends_setRun w i _
    · cases hstep
      exact extends_setRun w i _
    · cases hstep
  | reconcile_company i error =>
    dsimp only [step] at hstep
    split at hstep
    · cases hstep
      refine ⟨fun _ e he => ⟨e, he, rfl⟩, fun r hr => ?_⟩
      dsimp only
      split_ifs
      · exact List.mem_append_left _ hr
      · exact hr
    · cases hstep
  | record i =>
    dsimp only [step] at hstep
    split at hstep
    · cases hstep
      exact extends_write w _ (company_resultEntry _ _ _) i _
    · cases hstep
  | record_raised i committed error =>
    dsimp only [step] at hstep
    split at hstep
    · rename_i now row rows hi
      cases hstep
      cases committed with
      | false => exact extends_setRun w i _
      | true =>
        rw [if_pos rfl]
        exact extends_write w _ (company_resultEntry now row none) i _
    · cases hstep
  | crash i =>
    cases hstep
    exact extends_setRun w i _

/-! ## What is done was reconciled -/

/-- A reconciliation of the company that began with the entry in the outbox has returned. -/
def Reconciles (w : World) (company_id id : String) : Prop :=
  ∃ r ∈ w.reconciled, r.company_id = company_id ∧ (r.entries.rows id).isSome

/-- The rows of a run are entries, and what it has reconciled it has reconciled for them. -/
structure PhaseInv (w : World) (phase : Phase) : Prop where
  rows : ∀ row ∈ phase.rows, ∃ e, w.entries.rows row.id = some e ∧ e.company_id = row.company_id
  began : ∀ now row rows entries, phase = .reconciling now row rows entries →
    (entries.rows row.id).isSome
  recording : ∀ now row rows, phase = .recording now row rows none →
    Reconciles w row.company_id row.id

theorem PhaseInv.mono (h : PhaseInv w phase) (he : Extends w w') :
    PhaseInv w' phase where
  rows := by
    intro row hrow
    obtain ⟨e, hentry, hcompany⟩ := h.rows row hrow
    obtain ⟨e', hentry', hsame⟩ := he.entries row.id e hentry
    exact ⟨e', hentry', hsame.trans hcompany⟩
  began := h.began
  recording := by
    intro now row rows hphase
    obtain ⟨r, hr, hcompany, hid⟩ := h.recording now row rows hphase
    exact ⟨r, he.reconciled r hr, hcompany, hid⟩

structure World.Inv (w : World) : Prop where
  runs : ∀ i, PhaseInv w (w.runs i)
  succeeded : ∀ id e, w.entries.rows id = some e → e.status = .succeeded →
    Reconciles w e.company_id id

theorem Reconciles.mono {company_id : String} (h : Reconciles w company_id id) (he : Extends w w') :
    Reconciles w' company_id id := by
  obtain ⟨r, hr, hcompany, hid⟩ := h
  exact ⟨r, he.reconciled r hr, hcompany, hid⟩

/-- One run goes on; of the entries it may only record as done what it has reconciled. -/
theorem World.Inv.advance (h : w.Inv) (he : Extends w w') (i : Nat)
    (hruns : ∀ j, w'.runs j = if j = i then phase else w.runs j) (hphase : PhaseInv w' phase)
    (hdone : ∀ id e', w'.entries.rows id = some e' → e'.status = .succeeded →
      (∃ e, w.entries.rows id = some e ∧ e.status = .succeeded ∧ e.company_id = e'.company_id) ∨
      Reconciles w' e'.company_id id) : w'.Inv where
  runs := by
    intro j
    rw [hruns]
    split_ifs
    · exact hphase
    · exact (h.runs j).mono he
  succeeded := by
    intro id e' he' hstatus
    rcases hdone id e' he' hstatus with ⟨e, hentry, hold, hcompany⟩ | hnew
    · rw [← hcompany]
      exact (h.succeeded id e hentry hold).mono he
    · exact hnew

theorem idle_inv (w : World) : PhaseInv w .idle := by
  refine ⟨fun _ hrow => absurd hrow List.not_mem_nil, ?_, ?_⟩
  · rintro _ _ _ _ ⟨⟩
  · rintro _ _ _ ⟨⟩

theorem working_inv {rows : List Row} (now : Time)
    (h : ∀ row ∈ rows, ∃ e, w.entries.rows row.id = some e ∧ e.company_id = row.company_id) :
    PhaseInv w (.working now rows) := by
  refine ⟨h, ?_, ?_⟩
  · rintro _ _ _ _ ⟨⟩
  · rintro _ _ _ ⟨⟩

/-- The commit of a success, for the row of a run that has reconciled its company. -/
theorem reconciles_write (hrow : ∃ e, w.entries.rows row.id = some e ∧
      e.company_id = row.company_id) {f : Entry → Entry} (hf : ∀ e, (f e).company_id = e.company_id)
    (hdone : ∀ e, (f e).status = .succeeded → Reconciles w row.company_id row.id) (i : Nat)
    (phase : Phase) : ∀ id e',
    ((w.write row.id f).setRun i phase).entries.rows id = some e' → e'.status = .succeeded →
      (∃ e, w.entries.rows id = some e ∧ e.status = .succeeded ∧ e.company_id = e'.company_id) ∨
      Reconciles ((w.write row.id f).setRun i phase) e'.company_id id := by
  intro id e' he' hstatus
  obtain ⟨e, he, rfl⟩ := Option.map_eq_some_iff.1 ((rows_write w row.id id f).symm.trans he')
  by_cases hid : id = row.id
  · rw [if_pos hid] at hstatus ⊢
    obtain ⟨e₀, he₀, hcompany⟩ := hrow
    rw [hid, he₀] at he
    cases he
    rw [hf, hcompany, hid]
    exact .inr ((hdone _ hstatus).mono (extends_write w row.id hf i phase))
  · rw [if_neg hid] at hstatus ⊢
    exact .inl ⟨e, he, hstatus, rfl⟩

theorem inv_step (h : w.Inv) {event : Event} (hstep : step w event = some w') : w'.Inv := by
  have he := extends_step hstep
  cases event with
  | enqueue id company_id now =>
    dsimp only [step] at hstep
    split at hstep
    · cases hstep
      refine ⟨fun j => (h.runs j).mono he, fun k e hk hstatus => ?_⟩
      by_cases hne : k = id
      · rw [hne] at hk
        rw [(Table.rows_set_self _ _ _)] at hk
        cases hk
        cases hstatus
      · rw [(Table.rows_set_ne _ _ hne)] at hk
        exact h.succeeded k e hk hstatus
    · cases hstep
  | save_settings company_id mail_domain =>
    cases hstep
    exact ⟨fun j => (h.runs j).mono he, h.succeeded⟩
  | select i now limit busy =>
    dsimp only [step] at hstep
    split at hstep
    · cases hstep
      refine h.advance he i (fun _ => rfl) (working_inv now (fun row hrow => ?_))
        (fun id e' he' hstatus => ?_)
      · obtain ⟨e, hentry, _, hcompany⟩ := of_mem_batch hrow
        obtain ⟨e', hentry', hsame⟩ := he.entries row.id e hentry
        exact ⟨e', hentry', hsame.trans hcompany.symm⟩
      · obtain ⟨e, hentry, rfl⟩ := Option.map_eq_some_iff.1 ((rows_take w now _ id).symm.trans he')
        split_ifs at hstatus ⊢
        · cases hstatus
        · exact .inl ⟨e, hentry, hstatus, rfl⟩
    · cases hstep
  | next i =>
    dsimp only [step] at hstep
    split at hstep
    · cases hstep
      exact h.advance he i (fun _ => rfl) (idle_inv _) (fun id e he hs => .inl ⟨e, he, hs, rfl⟩)
    · rename_i now row rows hi
      have hrows := (h.runs i).rows
      rw [hi] at hrows
      cases hstep
      refine h.advance he i (fun _ => rfl) ⟨hrows, ?_, ?_⟩
        (fun id e he hs => .inl ⟨e, he, hs, rfl⟩)
      · rintro _ _ _ _ ⟨⟩
        obtain ⟨e, hentry, _⟩ := hrows row List.mem_cons_self
        rw [hentry]
        rfl
      · rintro _ _ _ ⟨⟩
    · cases hstep
  | reconcile_company i error =>
    dsimp only [step] at hstep
    split at hstep
    · rename_i now row rows entries hi
      have hrows := (h.runs i).rows
      rw [hi] at hrows
      cases hstep
      refine h.advance he i (fun _ => rfl) ⟨hrows, ?_, ?_⟩
        (fun id e he hs => .inl ⟨e, he, hs, rfl⟩)
      · rintro _ _ _ _ ⟨⟩
      · rintro _ _ _ ⟨⟩
        refine ⟨⟨row.company_id, entries⟩, ?_, rfl, (h.runs i).began now row rows entries hi⟩
        dsimp only
        rw [if_pos rfl]
        exact List.mem_append_right _ (List.mem_singleton_self _)
    · cases hstep
  | record i =>
    dsimp only [step] at hstep
    split at hstep
    · rename_i now row rows error hi
      have hrows := (h.runs i).rows
      rw [hi] at hrows
      cases hstep
      refine h.advance he i (fun _ => rfl)
        (working_inv now (fun row' hrow' => ((h.runs i).mono he).rows row' ?_))
        (reconciles_write (hrows row List.mem_cons_self) (company_resultEntry _ _ _)
          (fun e hstatus => ?_) i _)
      · rw [hi]
        exact List.mem_cons_of_mem _ hrow'
      · rw [status_resultEntry] at hstatus
        split_ifs at hstatus with herror
        exact (h.runs i).recording now row rows (herror ▸ hi)
    · cases hstep
  | record_raised i committed error =>
    dsimp only [step] at hstep
    split at hstep
    · rename_i now row rows hi
      have hrows := (h.runs i).rows
      rw [hi] at hrows
      cases hstep
      have hruns : ∀ j, ((if committed then w.write row.id (succeededEntry now) else w).setRun i
          (.recording now row rows (some error))).runs j =
          if j = i then .recording now row rows (some error) else w.runs j := by
        intro j
        cases committed with
        | false => rfl
        | true => rfl
      refine h.advance he i hruns ⟨fun row' hrow' => ((h.runs i).mono he).rows row' ?_, ?_, ?_⟩ ?_
      · rw [hi]
        exact hrow'
      · rintro _ _ _ _ ⟨⟩
      · rintro _ _ _ ⟨⟩
      · cases committed with
        | false => exact fun id e he hs => .inl ⟨e, he, hs, rfl⟩
        | true =>
          rw [if_pos rfl]
          exact reconciles_write (hrows row List.mem_cons_self) (company_resultEntry now row none)
            (fun _ _ => (h.runs i).recording now row rows hi) i _
    · cases hstep
  | crash i =>
    cases hstep
    exact h.advance he i (fun _ => rfl) (idle_inv _) (fun id e he hs => .inl ⟨e, he, hs, rfl⟩)

/-! ## What is not done is in the hands of a run, or waits for one -/

/-- No run is cut off while an entry that it has taken is in processing. -/
def Meets (w : World) : Event → Prop
  | .crash i => ∀ row ∈ (w.runs i).rows, ∀ e, w.entries.rows row.id = some e →
    e.status ≠ .processing
  | _ => True

/-- What is in processing is in the hands of a run. -/
def World.Keeps (w : World) : Prop :=
  ∀ id e, w.entries.rows id = some e → e.status = .processing → WorkedOn w id

/-- A run goes on with what it has in its hands; what another run has stays there. -/
theorem WorkedOn.mono (h : WorkedOn w id) {i : Nat}
    (hruns : ∀ j, w'.runs j = if j = i then phase else w.runs j)
    (hrows : ∀ row ∈ (w.runs i).rows, row.id = id → ∃ row' ∈ phase.rows, row'.id = id) :
    WorkedOn w' id := by
  obtain ⟨j, row, hrow, hid⟩ := h
  by_cases hj : j = i
  · obtain ⟨row', hrow', hid'⟩ := hrows row (hj ▸ hrow) hid
    refine ⟨i, row', ?_, hid'⟩
    rw [hruns, if_pos rfl]
    exact hrow'
  · refine ⟨j, row, ?_, hid⟩
    rw [hruns, if_neg hj]
    exact hrow

/-- A write of a result leaves no entry of its run in processing but those that are left. -/
theorem keeps_write (h : w.Keeps) {i : Nat} {rows : List Row} (hi : (w.runs i).rows = row :: rows)
    {f : Entry → Entry} (hf : ∀ e, (f e).status ≠ .processing)
    (hphase : ∀ row ∈ rows, row ∈ phase.rows) : ((w.write row.id f).setRun i phase).Keeps := by
  intro id e' he' hstatus
  obtain ⟨e, he, rfl⟩ := Option.map_eq_some_iff.1 ((rows_write w row.id id f).symm.trans he')
  split_ifs at hstatus with hid
  · exact absurd hstatus (hf e)
  · refine (h id e he hstatus).mono (fun _ => rfl) (fun row' hrow' hid' => ⟨row', ?_, hid'⟩)
    rw [hi] at hrow'
    rcases List.mem_cons.1 hrow' with rfl | hrow'
    · exact absurd hid'.symm hid
    · exact hphase row' hrow'

theorem resultEntry_done (now : Time) (row : Row) (error : Option String) (e : Entry) :
    (resultEntry now row error e).status ≠ .processing := by
  cases error with
  | none => exact nofun
  | some error => exact nofun

theorem keeps_step (h : w.Keeps) {event : Event} (hmeets : Meets w event)
    (hstep : step w event = some w') : w'.Keeps := by
  cases event with
  | enqueue id company_id now =>
    dsimp only [step] at hstep
    split at hstep
    · cases hstep
      intro k e hk hstatus
      by_cases hne : k = id
      · rw [hne] at hk
        rw [(Table.rows_set_self _ _ _)] at hk
        cases hk
        cases hstatus
      · rw [(Table.rows_set_ne _ _ hne)] at hk
        exact h k e hk hstatus
    · cases hstep
  | save_settings company_id mail_domain =>
    cases hstep
    exact h
  | select i now limit busy =>
    dsimp only [step] at hstep
    split at hstep
    · rename_i hi
      cases hstep
      intro id e' he' hstatus
      obtain ⟨e, he, rfl⟩ := Option.map_eq_some_iff.1 ((rows_take w now _ id).symm.trans he')
      split_ifs at hstatus with hid
      · obtain ⟨row, hrow, hid⟩ := List.mem_map.1 hid
        exact ⟨i, row, by rw [setRun_self]; exact hrow, hid⟩
      · refine (h id e he hstatus).mono (fun _ => rfl) (fun row hrow _ => ?_)
        rw [hi] at hrow
        exact absurd hrow List.not_mem_nil
    · cases hstep
  | next i =>
    dsimp only [step] at hstep
    split at hstep
    · rename_i hi
      cases hstep
      refine fun id e he hs => (h id e he hs).mono (fun _ => rfl) (fun row hrow _ => ?_)
      rw [hi] at hrow
      exact absurd hrow List.not_mem_nil
    · rename_i hi
      cases hstep
      refine fun id e he hs => (h id e he hs).mono (fun _ => rfl) (fun row hrow hid => ?_)
      rw [hi] at hrow
      exact ⟨row, hrow, hid⟩
    · cases hstep
  | reconcile_company i error =>
    dsimp only [step] at hstep
    split at hstep
    · rename_i hi
      cases hstep
      refine fun id e he hs => (h id e he hs).mono (fun _ => rfl) (fun row hrow hid => ?_)
      rw [hi] at hrow
      exact ⟨row, hrow, hid⟩
    · cases hstep
  | record i =>
    dsimp only [step] at hstep
    split at hstep
    · rename_i now row rows error hi
      cases hstep
      have hrows : (w.runs i).rows = row :: rows := by
        rw [hi]
        rfl
      exact keeps_write h hrows (resultEntry_done now row error) (fun _ hrow => hrow)
    · cases hstep
  | record_raised i committed error =>
    dsimp only [step] at hstep
    split at hstep
    · rename_i now row rows hi
      cases hstep
      have hrows : (w.runs i).rows = row :: rows := by
        rw [hi]
        rfl
      cases committed with
      | false =>
        refine fun id e he hs => (h id e he hs).mono (fun _ => rfl) (fun row' hrow' hid => ?_)
        rw [hi] at hrow'
        exact ⟨row', hrow', hid⟩
      | true =>
        rw [if_pos rfl]
        exact keeps_write h hrows (resultEntry_done now row none)
          (fun _ hrow => List.mem_cons_of_mem _ hrow)
    · cases hstep
  | crash i =>
    cases hstep
    intro id e he hstatus
    refine (h id e he hstatus).mono (fun _ => rfl) (fun row hrow hid => ?_)
    exact absurd hstatus (hmeets row hrow e (hid ▸ he))

/-! ## Runs that come later -/

/-- The first transaction of a run. -/
structure Selection where
  run : Nat
  now : Time
  limit : Nat
  busy : List String

def Selection.event (s : Selection) : Event := .select s.run s.now s.limit s.busy

/-- The entries that wait. -/
def waitingIds (w : World) : Finset String := w.entries.select (fun _ e => waiting e)

theorem step_selection {s : Selection} (h : step w s.event = some w') :
    w.runs s.run = .idle ∧
      w' = (w.take s.now (batch w.entries w.mail_domains s.now s.limit s.busy)).setRun s.run
        (.working s.now (batch w.entries w.mail_domains s.now s.limit s.busy)) := by
  dsimp only [Selection.event, step] at h
  split at h
  · rename_i hi
    exact ⟨hi, (Option.some.inj h).symm⟩
  · cases h

theorem workedOn_selection {s : Selection} (h : step w s.event = some w') (hid : WorkedOn w id) :
    WorkedOn w' id := by
  obtain ⟨hi, rfl⟩ := step_selection h
  refine hid.mono (fun _ => rfl) (fun row hrow _ => ?_)
  rw [hi] at hrow
  exact absurd hrow List.not_mem_nil

/-- A batch takes entries away from those that wait. -/
theorem waiting_selection {s : Selection} (h : step w s.event = some w')
    (hrow : row ∈ batch w.entries w.mail_domains s.now s.limit s.busy) :
    (waitingIds w').card < (waitingIds w).card := by
  obtain ⟨_, rfl⟩ := step_selection h
  obtain ⟨e, he, hwaiting, _⟩ := of_mem_batch hrow
  have hmem : row.id ∈ waitingIds w := (Table.mem_select _ _ _).2 ⟨e, he, hwaiting⟩
  refine Finset.card_lt_card ((Finset.ssubset_iff_of_subset ?_).2 ⟨row.id, hmem, ?_⟩)
  · intro k hk
    obtain ⟨e', he', hwaiting'⟩ := (Table.mem_select _ _ _).1 hk
    obtain ⟨e₀, he₀, rfl⟩ := Option.map_eq_some_iff.1 ((rows_take w _ _ k).symm.trans he')
    refine (Table.mem_select _ _ _).2 ⟨e₀, he₀, ?_⟩
    split_ifs at hwaiting'
    · cases hwaiting'
    · exact hwaiting'
  · intro hk
    obtain ⟨e', he', hwaiting'⟩ := (Table.mem_select _ _ _).1 hk
    obtain ⟨e₀, he₀, rfl⟩ := Option.map_eq_some_iff.1 ((rows_take w _ _ row.id).symm.trans he')
    rw [if_pos (List.mem_map.2 ⟨row, hrow, rfl⟩)] at hwaiting'
    cases hwaiting'

/-- Of as many runs as there are entries that wait, one takes the entry. -/
theorem taken_in_time (hwaiting : waiting e = true) {selections : List Selection}
    (hs : ∀ s ∈ selections, e.next_attempt_at ≤ s.now ∧ 0 < s.limit ∧
      id ∉ s.busy) (he : w.entries.rows id = some e)
    (hdomain : (w.mail_domains.rows e.company_id).isSome)
    (hmany : (waitingIds w).card ≤ selections.length)
    (hrun : machine.run w (selections.map Selection.event) = some w') : WorkedOn w' id := by
  have hkeep : ∀ (l : List Selection) (v v' : World), WorkedOn v id →
      machine.run v (l.map Selection.event) = some v' → WorkedOn v' id := by
    intro l
    induction l with
    | nil =>
      rintro v v' hv ⟨⟩
      exact hv
    | cons s l ih =>
      intro v v' hv hrun
      obtain ⟨u, hu, hrest⟩ := Option.bind_eq_some_iff.1 hrun
      exact ih u v' (workedOn_selection hu hv) hrest
  induction selections generalizing w with
  | nil =>
    have hmem : id ∈ waitingIds w := (Table.mem_select _ _ _).2 ⟨e, he, hwaiting⟩
    exact absurd (Finset.card_pos.2 ⟨id, hmem⟩) (Nat.not_lt_of_le hmany)
  | cons s l ih =>
    obtain ⟨u, hu, hrest⟩ := Option.bind_eq_some_iff.1 hrun
    obtain ⟨hnow, hlimit, hbusy⟩ := hs s List.mem_cons_self
    obtain ⟨_, heq⟩ := step_selection hu
    have hbatch : id ∈ (batch w.entries w.mail_domains s.now s.limit s.busy).map Row.id ∨ _ :=
      mem_batch he hwaiting hnow hbusy hdomain
    rcases hbatch with hmem | ⟨hfull, _⟩
    · obtain ⟨row, hrow, hid⟩ := List.mem_map.1 hmem
      refine hkeep l u w' ⟨s.run, row, ?_, hid⟩ hrest
      rw [heq, setRun_self]
      exact hrow
    · by_cases hmem : id ∈ (batch w.entries w.mail_domains s.now s.limit s.busy).map Row.id
      · obtain ⟨row, hrow, hid⟩ := List.mem_map.1 hmem
        refine hkeep l u w' ⟨s.run, row, ?_, hid⟩ hrest
        rw [heq, setRun_self]
        exact hrow
      · obtain ⟨row, hrow⟩ := List.length_pos_iff_exists_mem.1 (hfull.symm ▸ hlimit)
        have hless := waiting_selection hu hrow
        refine ih (fun s hs' => hs s (List.mem_cons_of_mem _ hs')) ?_ ?_ ?_ hrest
        · rw [heq]
          exact (rows_take w _ _ id).trans (by rw [he, Option.map_some, if_neg hmem])
        · rw [heq]
          exact hdomain
        · rw [List.length_cons] at hmany
          omega

/-- What a run does for the entry that starts when its time has come: it takes the entry, or a full
batch of entries before it. Of as many runs as there are entries that wait, one takes it. -/
structure WaitsForRun (w : World) (id : String) (e : Entry) : Prop where
  at_once : ∀ now limit busy, e.next_attempt_at ≤ now → id ∉ busy →
    (w.mail_domains.rows e.company_id).isSome →
    id ∈ (batch w.entries w.mail_domains now limit busy).map Row.id ∨
      ((batch w.entries w.mail_domains now limit busy).length = limit ∧
        ∀ row ∈ batch w.entries w.mail_domains now limit busy, ∃ e',
          w.entries.rows row.id = some e' ∧ e'.Before e)
  in_time : ∀ selections : List Selection,
    (∀ s ∈ selections, e.next_attempt_at ≤ s.now ∧ 0 < s.limit ∧ id ∉ s.busy) →
    (w.mail_domains.rows e.company_id).isSome → (waitingIds w).card ≤ selections.length →
    ∀ w', machine.run w (selections.map Selection.event) = some w' → WorkedOn w' id

theorem waitsForRun (he : w.entries.rows id = some e) (hwaiting : waiting e = true) :
    WaitsForRun w id e where
  at_once := fun _ _ _ hnow hbusy hdomain => mem_batch he hwaiting hnow hbusy hdomain
  in_time := fun _ hs hdomain hmany _ hrun => taken_in_time hwaiting hs he hdomain hmany hrun

/-- In all runs an entry is done only when its company was reconciled with the entry in the outbox.
In the runs that are not cut off in the middle of a batch, each other entry is in the hands of a
run, or waits for one. -/
theorem outbox_keeps_its_entries (w : World) :
    (machine.Reachable w → ∀ id e, w.entries.rows id = some e → e.status = .succeeded →
      ∃ r ∈ w.reconciled, r.company_id = e.company_id ∧ (r.entries.rows id).isSome) ∧
    (machine.Reach Meets w → ∀ id e, w.entries.rows id = some e → e.status ≠ .succeeded →
      WorkedOn w id ∨ WaitsForRun w id e) := by
  constructor
  · intro hw id e he hstatus
    have hinv : w.Inv := by
      refine hw.invariant (I := World.Inv) ?_ (fun _ _ _ hinv hstep => inv_step hinv hstep)
      rintro s ⟨hentries, hruns, _⟩
      refine ⟨fun i => ?_, fun id e he => ?_⟩
      · rw [hruns]
        exact idle_inv s
      · rw [hentries] at he
        cases he
    exact hinv.succeeded id e he hstatus
  · intro hw id e he hstatus
    have hkeeps : w.Keeps := by
      refine hw.invariant (I := World.Keeps) ?_
        (fun _ _ _ _ hkeeps hmeets hstep => keeps_step hkeeps hmeets hstep)
      rintro s ⟨hentries, _⟩ id e he
      rw [hentries] at he
      cases he
    cases hs : e.status with
    | pending => exact .inr (waitsForRun he (by unfold waiting; rw [hs]; rfl))
    | processing => exact .inl (hkeeps id e he hs)
    | succeeded => exact absurd hs hstatus
    | failed => exact .inr (waitsForRun he (by unfold waiting; rw [hs]; rfl))

/-! ## One entry -/

def emptyOutbox : World := ⟨.empty, .empty, fun _ => .idle, []⟩

theorem start_emptyOutbox : machine.Start emptyOutbox := ⟨rfl, fun _ => rfl, rfl⟩

def notCrash : Event → Bool
  | .crash _ => false
  | _ => true

theorem meets_of_notCrash (w : World) (event : Event) (h : notCrash event = true) :
    Meets w event := by
  cases event with
  | crash i => cases h
  | _ => trivial

/-- A run in which the reconciliation fails. -/
def failedOnce : World :=
  (machine.runWithin (fun _ event => notCrash event = true) emptyOutbox
    [.save_settings "acme" "acme.com", .enqueue "e1" "acme" 0, .select 0 (seconds 1) 50 [], .next 0,
      .reconcile_company 0 (some "timeout"), .record 0, .next 0]).get (by decide)

/-- The entry waits for its next attempt. -/
theorem the_entry_is_tried_again :
    WorkedOn failedOnce "e1" ∨ WaitsForRun failedOnce "e1"
      ⟨"acme", .failed, 1, seconds 31, some "timeout", 0, seconds 1⟩ := by
  refine (outbox_keeps_its_entries failedOnce).2 ?_ "e1" _ (by decide +kernel) nofun
  exact ((Machine.Reach.start start_emptyOutbox).runWithin (Option.some_get _).symm).mono
    meets_of_notCrash

def oneEntry : World :=
  ⟨Table.empty.set "e1" (newEntry "acme" 0), Table.empty.set "acme" "acme.com", fun _ => .idle, []⟩

def takenRows : List Row := batch oneEntry.entries oneEntry.mail_domains (seconds 1) 50 []

/-- The process ends when the batch is committed. -/
def cutOff : World :=
  ((oneEntry.take (seconds 1) takenRows).setRun 0 (.working (seconds 1) takenRows)).setRun 0 .idle

theorem run_cutOff : machine.run emptyOutbox [.save_settings "acme" "acme.com",
    .enqueue "e1" "acme" 0, .select 0 (seconds 1) 50 [], .crash 0] = some cutOff := rfl

/-- Nobody works on the entry, and no run will ever take it. -/
theorem a_batch_that_is_cut_off_is_lost : machine.Reachable cutOff ∧
    cutOff.entries.rows "e1" = some ⟨"acme", .processing, 0, 0, none, 0, seconds 1⟩ ∧
    (cutOff.mail_domains.rows "acme").isSome ∧ ¬WorkedOn cutOff "e1" ∧
    ∀ now limit busy,
      "e1" ∉ (batch cutOff.entries cutOff.mail_domains now limit busy).map Row.id := by
  have hrow : cutOff.entries.rows "e1" = some ⟨"acme", .processing, 0, 0, none, 0, seconds 1⟩ := by
    decide +kernel
  refine ⟨Machine.reachable_of_run start_emptyOutbox run_cutOff, hrow, rfl, ?_, ?_⟩
  · rintro ⟨i, row, hmem, _⟩
    by_cases hi : i = 0
    · rw [hi] at hmem
      exact absurd hmem List.not_mem_nil
    · rw [show cutOff.runs i = .idle from
        (setRun_ne _ _ hi).trans (setRun_ne _ _ hi)] at hmem
      exact absurd hmem List.not_mem_nil
  · intro now limit busy hmem
    obtain ⟨row, hmem, hid⟩ := List.mem_map.1 hmem
    obtain ⟨e, he, hwaiting, _⟩ := of_mem_batch hmem
    rw [hid, hrow] at he
    cases he
    cases hwaiting

end moaworks.mail_delivery_worker
