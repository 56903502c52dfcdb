-- The life of an approval: in every run, the status, the index and the lines
-- of a document fit together, and a round decides each line once.
import MoaWorks.ApprovalOutcomes

namespace moaworks.approvals

open approval_delegations (Date Delegation _seoul_today)
open directory_store (AuthUserSummary Directory Error)

variable {db db' : Db} {w w' : World} {actor : AuthUserSummary} {actor_id document_id reason : String}
  {document document' : Document} {today : Date} {started now : Time} {accepted forced : Bool}
  {done rest : List Line} {first target line : Line}
variable {status : LineStatus} {signature : Option Signature} {delegation_id : Option String}
  {f : Line → Line}

/-! ## The workflow of one document -/

/-- A pending line that carries nothing of a decision. -/
def Line.Undecided (line : Line) : Prop :=
  line.status = .pending ∧ line.comment = none ∧ line.decided_by_user_id = none ∧
    line.decided_at = none ∧ line.signature = .none ∧ line.delegation_id = none

/-- Approved lines, and pending ones behind them. -/
structure Split (document : Document) (done rest : List Line) : Prop where
  lines : document.lines = done ++ rest
  approved : ∀ line ∈ done, line.status = .approved
  pending : ∀ line ∈ rest, line.status = .pending

structure Workflow (document : Document) : Prop where
  draft : document.status = .draft → ∀ line ∈ document.lines, line.Undecided
  submitted : document.status = .submitted → ∃ done first rest,
    Split document done (first :: rest) ∧ document.current_line_index = some first.sequence
  approved : document.status = .approved → ∀ line ∈ document.lines, line.status = .approved
  rejected : document.status = .rejected → ∃ line ∈ document.lines, line.status = .rejected
  withdrawn : document.status = .withdrawn → ∃ done rest, Split document done rest
  index : document.current_line_index = none ↔ document.status ≠ .submitted

theorem new_lines_undecided {ids : NewIds} {approvers : List Approver} :
    ∀ line ∈ new_lines ids approvers, line.Undecided := by
  intro line hline
  unfold new_lines at hline
  obtain ⟨entry, _, rfl⟩ := List.mem_map.1 hline
  exact ⟨rfl, rfl, rfl, rfl, rfl, rfl⟩

/-- A document out of circulation, in a status other than submitted. -/
theorem Workflow.of_draft (hstatus : document.status = .draft)
    (hindex : document.current_line_index = none)
    (hlines : ∀ line ∈ document.lines, line.Undecided) : Workflow document := by
  constructor
  · intro _
    exact hlines
  all_goals simp [hstatus, hindex]

theorem Workflow.of_approved (hstatus : document.status = .approved)
    (hindex : document.current_line_index = none)
    (hlines : ∀ line ∈ document.lines, line.status = .approved) : Workflow document := by
  constructor
  case approved =>
    intro _
    exact hlines
  all_goals simp [hstatus, hindex]

theorem Workflow.of_rejected (hstatus : document.status = .rejected)
    (hindex : document.current_line_index = none)
    (hline : ∃ line ∈ document.lines, line.status = .rejected) : Workflow document := by
  constructor
  case rejected =>
    intro _
    exact hline
  all_goals simp [hstatus, hindex]

theorem Workflow.of_withdrawn (hstatus : document.status = .withdrawn)
    (hindex : document.current_line_index = none) (hsplit : Split document done rest) :
    Workflow document := by
  constructor
  case withdrawn =>
    intro _
    exact ⟨done, rest, hsplit⟩
  all_goals simp [hstatus, hindex]

theorem Workflow.of_submitted (hstatus : document.status = .submitted)
    (hindex : document.current_line_index = some first.sequence)
    (hsplit : Split document done (first :: rest)) : Workflow document := by
  constructor
  case submitted =>
    intro _
    exact ⟨done, first, rest, hsplit, hindex⟩
  all_goals simp [hstatus, hindex]

/-! ## Decisions on the lines -/

theorem Document.id_inj {a b : Line} (ha : a ∈ document.lines) (hb : b ∈ document.lines)
    (h : a.id = b.id) : a = b :=
  List.inj_on_of_nodup_map document.keyed ha hb h

theorem Line.decide_self :
    (target.decide status reason actor now signature delegation_id target).status = status ∧
      (target.decide status reason actor now signature delegation_id target).delegation_id =
        delegation_id ∧
      (target.decide status reason actor now signature delegation_id target).approver_user_id =
        target.approver_user_id := by
  unfold Line.decide
  rw [if_pos rfl]
  exact ⟨rfl, rfl, rfl⟩

theorem Line.decide_other (h : line.id ≠ target.id) :
    target.decide status reason actor now signature delegation_id line = line := by
  unfold Line.decide
  rw [if_neg h]

/-- In a submitted document, the pending line of the index is the first pending one. -/
theorem Split.target_eq (h : Split document done (first :: rest))
    (hindex : document.current_line_index = some first.sequence) (htarget : target ∈ document.lines)
    (hpending : target.pendingAt document.current_line_index = true) : target = first := by
  have hfirst : first ∈ document.lines := by
    rw [h.lines]
    exact List.mem_append_right _ List.mem_cons_self
  apply document.sequence_inj htarget hfirst
  rw [hindex] at hpending
  exact Option.some.inj (pendingAt_iff.1 hpending).1

theorem Split.decided_lines (h : Split document done (first :: rest)) :
    document.lines.map (first.decide status reason actor now signature delegation_id) =
      done ++ first.decide status reason actor now signature delegation_id first :: rest := by
  have hkeyed := document.keyed
  rw [h.lines, List.map_append, List.map_cons, List.nodup_append, List.nodup_cons] at hkeyed
  obtain ⟨_, ⟨hrest, _⟩, hdone⟩ := hkeyed
  have hother : ∀ lines : List Line, (∀ line ∈ lines, line.id ≠ first.id) →
      lines.map (first.decide status reason actor now signature delegation_id) = lines := by
    intro lines hlines
    calc lines.map (first.decide status reason actor now signature delegation_id)
        = lines.map id := List.map_congr_left (fun line hline => Line.decide_other (hlines line hline))
      _ = lines := List.map_id lines
  rw [h.lines, List.map_append, List.map_cons, hother done, hother rest]
  · intro line hline heq
    apply hrest
    rw [← heq]
    exact List.mem_map_of_mem hline
  · intro line hline
    exact hdone line.id (List.mem_map_of_mem hline) first.id List.mem_cons_self

/-- The lines behind the first pending one are what a decision finds as remaining. -/
theorem Split.remaining (h : Split document done (first :: rest)) :
    remaining_pending document first = rest := by
  have hordered := document.ordered
  rw [h.lines, List.pairwise_append, List.pairwise_cons] at hordered
  obtain ⟨_, ⟨hrest, _⟩, hdone⟩ := hordered
  unfold remaining_pending
  rw [h.lines, List.filter_append, List.filter_cons]
  have hnone : done.filter (fun line =>
      decide (first.sequence < line.sequence) && decide (line.status = .pending)) = [] := by
    rw [List.filter_eq_nil_iff]
    intro line hline
    have hlt := hdone line hline first List.mem_cons_self
    simp only [Bool.and_eq_true, decide_eq_true_eq]
    omega
  have hall : rest.filter (fun line =>
      decide (first.sequence < line.sequence) && decide (line.status = .pending)) = rest := by
    rw [List.filter_eq_self]
    intro line hline
    rw [Bool.and_eq_true, decide_eq_true_eq, decide_eq_true_eq]
    exact ⟨hrest line hline, h.pending line (List.mem_cons_of_mem _ hline)⟩
  rw [hnone, hall]
  simp

theorem workflow_line_approved (h : Split document done (first :: rest)) {signature : Signature} :
    Workflow (line_approved document first reason actor now signature delegation_id) := by
  have hlines : document.lines.map (first.decide .approved reason actor now (some signature)
      delegation_id) = done ++
        first.decide .approved reason actor now (some signature) delegation_id first :: rest :=
    h.decided_lines
  have happroved : ∀ line ∈ done ++ [first.decide .approved reason actor now (some signature)
      delegation_id first], line.status = .approved := by
    intro line hline
    rcases List.mem_append.1 hline with hdone | hfirst
    · exact h.approved line hdone
    · rw [List.mem_singleton.1 hfirst]
      exact Line.decide_self.1
  unfold line_approved
  dsimp only
  rw [h.remaining]
  cases rest with
  | nil =>
    apply Workflow.of_approved rfl rfl
    intro line hline
    apply happroved line
    rw [← hlines]
    exact hline
  | cons next rest =>
    have hpending : ∀ line ∈ next :: rest, line.status = .pending := by
      intro line hline
      exact h.pending line (List.mem_cons_of_mem _ hline)
    rw [List.append_cons] at hlines
    exact Workflow.of_submitted rfl rfl ⟨hlines, happroved, hpending⟩

/-- Each accepted operation keeps the workflow. -/
theorem Changes.workflow (h : Changes db actor document document') (hw : Workflow document) :
    Workflow document' := by
  cases h with
  | rewrites payload now hcreator hstatus =>
    have hindex : document.current_line_index = none := by
      apply hw.index.2
      rw [hstatus]
      simp
    have hdraft : (rewritten document payload now).status = .draft := hstatus
    apply Workflow.of_draft hdraft hindex
    intro line hline
    cases hline
  | submits first now hcreator hstatus hfirst =>
    obtain ⟨rest, hrest⟩ := List.head?_eq_some_iff.1 hfirst
    have hpending : ∀ line ∈ first :: rest, line.status = .pending := by
      intro line hline
      rw [← hrest] at hline
      exact (hw.draft hstatus line hline).1
    have hnone : ∀ line ∈ ([] : List Line), line.status = .approved := by
      intro line hline
      cases hline
    have hlines : document.lines = [] ++ first :: rest := hrest
    exact Workflow.of_submitted rfl rfl ⟨hlines, hnone, hpending⟩
  | withdraws now hcreator hstatus =>
    obtain ⟨done, first, rest, hsplit, _⟩ := hw.submitted hstatus
    exact Workflow.of_withdrawn rfl rfl ⟨hsplit.lines, hsplit.approved, hsplit.pending⟩
  | redrafts now hcreator hstatus =>
    apply Workflow.of_draft rfl rfl
    intro line hline
    obtain ⟨old, _, rfl⟩ := List.mem_map.1 hline
    exact ⟨rfl, rfl, rfl, rfl, rfl, rfl⟩
  | forces accepted reason now hstatus hpending =>
    cases accepted with
    | true =>
      obtain ⟨done, first, rest, hsplit, _⟩ := hw.submitted hstatus
      apply Workflow.of_approved rfl rfl
      intro line hline
      obtain ⟨old, hold, rfl⟩ := List.mem_map.1 hline
      unfold Line.force_approve
      split_ifs with hopen
      · rfl
      · rw [hsplit.lines] at hold
        rcases List.mem_append.1 hold with hdone | hrest
        · exact hsplit.approved old hdone
        · exact absurd (hsplit.pending old hrest) hopen
    | false =>
      apply Workflow.of_rejected rfl rfl
      obtain ⟨line, hline, hopen⟩ := hpending
      refine ⟨line.force_reject reason actor now, List.mem_map_of_mem hline, ?_⟩
      unfold Line.force_reject
      rw [if_neg (by rw [hopen]; simp)]
  | decides accepted target delegation_id today reason now signature hstatus htarget hpending hright =>
    obtain ⟨done, first, rest, hsplit, hindex⟩ := hw.submitted hstatus
    obtain rfl := hsplit.target_eq hindex htarget hpending
    cases accepted with
    | true => exact workflow_line_approved hsplit
    | false =>
      apply Workflow.of_rejected rfl rfl
      exact ⟨_, List.mem_map_of_mem htarget, Line.decide_self.1⟩

theorem workflow_new_document {ids : NewIds} {payload : Payload} {approvers : List Approver} :
    Workflow (new_document ids actor payload approvers now) :=
  Workflow.of_draft rfl rfl new_lines_undecided

/-! ## The decisions of a round -/

/-- The actor was the approver, or held a delegation of the approver on that date. -/
def Decision.Entitled (decision : Decision) : Prop :=
  decision.actor_id = decision.approver_user_id ∨
    ∃ row, decision.delegation = some row ∧ row.owner_user_id = decision.approver_user_id ∧
      row.delegate_user_id = decision.actor_id ∧ row.covers decision.date = true

/-- A round decides each line once, in the order of the sequences, by those
who may; a forced decision may skip the order and the right. -/
structure Round (decisions : List Decision) : Prop where
  once : (decisions.map (·.line_id)).Nodup
  in_order : decisions.Pairwise (fun a b => b.forced = false → a.sequence < b.sequence)
  entitled : ∀ decision ∈ decisions, decision.forced = false → decision.Entitled

/-- Each decision so far has left its line in the document, decided. -/
def Traced (document : Document) (decisions : List Decision) : Prop :=
  ∀ decision ∈ decisions, ∃ line ∈ document.lines, line.id = decision.line_id ∧
    line.sequence = decision.sequence ∧ line.status ≠ .pending

theorem round_nil : Round [] := ⟨List.nodup_nil, List.Pairwise.nil, by simp⟩

/-- The changed lines of an UPDATE, where no statement changes ids. -/
theorem changed_mapLines (hf : ∀ line, (f line).id = line.id ∧ (f line).sequence = line.sequence) :
    changed document (document.mapLines f hf) =
      (document.lines.filter (fun line => decide (f line ≠ line))).map f := by
  unfold changed Document.mapLines
  dsimp only
  rw [List.filter_map]
  congr 1
  apply List.filter_congr
  intro line hline
  rw [Function.comp_apply, decide_eq_decide, not_iff_not]
  constructor
  · intro hmem
    exact document.id_inj hmem hline (hf line).1
  · intro heq
    rw [heq]
    exact hline

/-- A round goes on with decisions on pending lines. -/
theorem Round.append {decisions : List Decision} (h : Round decisions)
    (htraced : Traced document decisions)
    (hf : ∀ line, (f line).id = line.id ∧ (f line).sequence = line.sequence) {lines : List Line}
    (hlines : lines.Sublist document.lines) (hpending : ∀ line ∈ lines, line.status = .pending)
    (hforced : forced = false → ∃ target, lines = [target] ∧
      (∀ line ∈ document.lines, line.status ≠ .pending → line.sequence < target.sequence) ∧
      (decisionOf db actor_id false today (f target)).Entitled) :
    Round (decisions ++ (lines.map f).map (decisionOf db actor_id forced today)) := by
  constructor
  · rw [List.map_append, List.nodup_append]
    refine ⟨h.once, ?_, ?_⟩
    · have hids : ((lines.map f).map (decisionOf db actor_id forced today)).map (·.line_id) =
          lines.map (·.id) := by
        rw [List.map_map, List.map_map]
        apply List.map_congr_left
        intro line _
        exact (hf line).1
      rw [hids]
      exact document.keyed.sublist (hlines.map _)
    · -- an old decision has left a decided line, the new ones are on pending lines
      intro id hold other hnew heq
      subst heq
      obtain ⟨decision, hdecision, rfl⟩ := List.mem_map.1 hold
      obtain ⟨_, hnew, hid⟩ := List.mem_map.1 hnew
      obtain ⟨_, hafter, rfl⟩ := List.mem_map.1 hnew
      obtain ⟨line, hline, rfl⟩ := List.mem_map.1 hafter
      obtain ⟨old, holdLine, holdId, _, holdStatus⟩ := htraced decision hdecision
      have heq : old = line := by
        apply document.id_inj holdLine (hlines.subset hline)
        rw [holdId, ← hid]
        exact (hf line).1
      rw [heq] at holdStatus
      exact holdStatus (hpending line hline)
  · rw [List.pairwise_append]
    refine ⟨h.in_order, ?_, ?_⟩
    · cases forced with
      | true =>
        rw [List.pairwise_map]
        apply List.pairwise_of_forall
        intro _ _ hfalse
        cases hfalse
      | false =>
        obtain ⟨target, rfl, _⟩ := hforced rfl
        exact List.pairwise_singleton _ _
    · intro decision hdecision new hnew hunforced
      obtain ⟨_, hafter, rfl⟩ := List.mem_map.1 hnew
      obtain ⟨target, rfl, hbefore, _⟩ := hforced hunforced
      obtain ⟨line, hline, rfl⟩ := List.mem_map.1 hafter
      rw [List.mem_singleton.1 hline]
      obtain ⟨old, holdLine, _, hsequence, hstatus⟩ := htraced decision hdecision
      have hlt := hbefore old holdLine hstatus
      rw [hsequence] at hlt
      rw [show (decisionOf db actor_id forced today (f target)).sequence = target.sequence
        from (hf target).2]
      exact hlt
  · intro decision hdecision hunforced
    rcases List.mem_append.1 hdecision with hold | hnew
    · exact h.entitled decision hold hunforced
    · obtain ⟨_, hafter, rfl⟩ := List.mem_map.1 hnew
      have hfalse : forced = false := hunforced
      subst hfalse
      obtain ⟨target, rfl, _, hentitled⟩ := hforced rfl
      obtain ⟨line, hline, rfl⟩ := List.mem_map.1 hafter
      rw [List.mem_singleton.1 hline]
      exact hentitled

/-- How a decision changes the lines: `f` on each of them, and only `lines`,
all of them pending, become others. -/
structure Deciding (document document' : Document) (f : Line → Line) (lines : List Line) : Prop where
  key : ∀ line, (f line).id = line.id ∧ (f line).sequence = line.sequence
  after : document'.lines = document.lines.map f
  changed : changed document document' = lines.map f
  sub : lines.Sublist document.lines
  pending : ∀ line ∈ lines, line.status = .pending
  decided : ∀ line ∈ lines, (f line).status ≠ .pending
  kept : ∀ line, line.status ≠ .pending → (f line).status ≠ .pending

theorem Traced.append {decisions : List Decision} {lines : List Line}
    (h : Traced document decisions) (hdeciding : Deciding document document' f lines) :
    Traced document' (decisions ++ (lines.map f).map (decisionOf db actor_id forced today)) := by
  intro decision hdecision
  rw [hdeciding.after]
  rcases List.mem_append.1 hdecision with hold | hnew
  · obtain ⟨line, hline, hid, hsequence, hstatus⟩ := h decision hold
    refine ⟨f line, List.mem_map_of_mem hline, ?_, ?_, hdeciding.kept line hstatus⟩
    · rw [(hdeciding.key line).1, hid]
    · rw [(hdeciding.key line).2, hsequence]
  · obtain ⟨_, hafter, rfl⟩ := List.mem_map.1 hnew
    obtain ⟨line, hline, rfl⟩ := List.mem_map.1 hafter
    exact ⟨f line, List.mem_map_of_mem (hdeciding.sub.subset hline), rfl, rfl,
      hdeciding.decided line hline⟩

/-- A forced approval or rejection decides pending lines only. -/
theorem deciding_of_forced (key : ∀ line, (f line).id = line.id ∧ (f line).sequence = line.sequence)
    (hafter : document'.lines = document.lines.map f)
    (hsame : ∀ line ∈ document.lines, line.status ≠ .pending → f line = line)
    (hdecided : ∀ line, (f line).status ≠ .pending) :
    Deciding document document' f (document.lines.filter (fun line => decide (f line ≠ line))) := by
  refine ⟨key, hafter, ?_, List.filter_sublist, ?_, fun line _ => hdecided line,
    fun line _ => hdecided line⟩
  · rw [← changed_mapLines key]
    unfold changed Document.mapLines
    rw [hafter]
  · intro line hline
    rw [List.mem_filter, decide_eq_true_eq] at hline
    by_contra hstatus
    exact hline.2 (hsame line hline.1 hstatus)

/-- A decision on the first pending line changes this line only. -/
theorem deciding_of_first (h : Split document done (first :: rest)) (hstatus : status ≠ .pending)
    (hafter : document'.lines =
      document.lines.map (first.decide status reason actor now signature delegation_id)) :
    Deciding document document' (first.decide status reason actor now signature delegation_id)
      [first] := by
  have hfirst : first ∈ document.lines := by
    rw [h.lines]
    exact List.mem_append_right _ List.mem_cons_self
  have hpending : first.status = .pending := h.pending first List.mem_cons_self
  have hself : (first.decide status reason actor now signature delegation_id first).status = status :=
    Line.decide_self.1
  refine ⟨first.decide_key status reason actor now signature delegation_id, hafter, ?_,
    List.singleton_sublist.2 hfirst, ?_, ?_, ?_⟩
  · have hmap : changed document document' = changed document (document.mapLines
        (first.decide status reason actor now signature delegation_id)
        (first.decide_key status reason actor now signature delegation_id)) := by
      unfold changed Document.mapLines
      rw [hafter]
    rw [hmap, changed_mapLines]
    congr 1
    have hone : document.lines.filter (fun line => decide
        (first.decide status reason actor now signature delegation_id line ≠ line)) =
        document.lines.filter (fun line => decide (line = first)) := by
      apply List.filter_congr
      intro line hline
      rw [decide_eq_decide]
      constructor
      · intro hchanged
        by_contra hne
        exact hchanged (Line.decide_other (fun hid => hne (document.id_inj hline hfirst hid)))
      · rintro rfl heq
        rw [heq, hpending] at hself
        exact hstatus hself.symm
    have hcount : document.lines.count first = 1 :=
      List.count_eq_one_of_mem (List.Nodup.of_map _ document.keyed) hfirst
    rw [hone, List.filter_eq, hcount, List.replicate_one]
  · intro line hline
    rw [List.mem_singleton.1 hline]
    exact hpending
  · intro line hline
    rw [List.mem_singleton.1 hline, hself]
    exact hstatus
  · intro line hline
    unfold Line.decide
    split_ifs
    · exact hstatus
    · exact hline

/-! ## Every run -/

structure Sound (w : World) : Prop where
  workflow : ∀ document_id document, w.db.documents.rows document_id = some document →
    Workflow document
  round : ∀ document_id, Round (w.decisions document_id)
  traced : ∀ document_id document, w.db.documents.rows document_id = some document →
    document.status = .submitted → Traced document (w.decisions document_id)

theorem decisionsOf_eq (hrow : db.documents.rows document_id = some document)
    (hwritten : Written db document_id document' db') :
    decisionsOf db db' document_id actor_id forced today =
      (changed document document').map (decisionOf db actor_id forced today) := by
  have hafter : db'.documents.rows document_id = some document' := by
    rw [hwritten.documents, Table.rows_set_self]
  unfold decisionsOf
  rw [hrow, hafter]

/-- What a decision adds to the round. -/
theorem Decided.deciding (hactor : db.directory._fetch_actor_summary actor_id = .ok actor)
    (hworkflow : Workflow document) (hstatus : document.status = .submitted)
    (h : Decided db actor document today accepted forced document') :
    ∃ f lines, Deciding document document' f lines ∧
      (forced = false → ∃ target, lines = [target] ∧
        (∀ line ∈ document.lines, line.status ≠ .pending → line.sequence < target.sequence) ∧
        (decisionOf db actor_id false today (f target)).Entitled) := by
  obtain ⟨done, first, rest, hsplit, hindex⟩ := hworkflow.submitted hstatus
  cases h with
  | forces reason now hforced hpending =>
    have hnever : forced = false → False := by
      rw [hforced]
      simp
    cases accepted with
    | true =>
      refine ⟨_, _, deciding_of_forced (Line.force_approve_key reason actor now) rfl ?_ ?_,
        fun hfalse => (hnever hfalse).elim⟩
      · intro line _ hdone
        unfold Line.force_approve
        rw [if_neg hdone]
      · intro line
        unfold Line.force_approve
        split_ifs with hopen
        · simp
        · exact hopen
    | false =>
      refine ⟨_, _, deciding_of_forced (Line.force_reject_key reason actor now) rfl ?_ ?_,
        fun hfalse => (hnever hfalse).elim⟩
      · intro line hline hdone
        unfold Line.force_reject
        -- a line that is not pending is approved
        have happroved : line.status = .approved := by
          rw [hsplit.lines] at hline
          rcases List.mem_append.1 hline with hmem | hmem
          · exact hsplit.approved line hmem
          · exact absurd (hsplit.pending line hmem) hdone
        rw [if_pos happroved]
      · intro line
        unfold Line.force_reject
        split_ifs with happroved
        · rw [happroved]
          simp
        · simp
  | decides target delegation_id reason now signature hforced htarget hpending hright =>
    obtain rfl := hsplit.target_eq hindex htarget hpending
    have hbefore : ∀ line ∈ document.lines, line.status ≠ .pending →
        line.sequence < target.sequence := by
      intro line hline hdone
      have hordered := document.ordered
      rw [hsplit.lines, List.pairwise_append] at hordered
      rw [hsplit.lines] at hline
      rcases List.mem_append.1 hline with hmem | hmem
      · exact hordered.2.2 line hmem target List.mem_cons_self
      · exact absurd (hsplit.pending line hmem) hdone
    have hentitled : ∀ status signature, (decisionOf db actor_id false today
        (target.decide status reason actor now signature delegation_id target)).Entitled := by
      intro status signature
      unfold Decision.Entitled decisionOf
      dsimp only
      rw [Line.decide_self.2.1, Line.decide_self.2.2]
      have hid : actor.userId = actor_id := (Directory.fetch_actor_summary_ok hactor).1
      rcases hright with ⟨happrover, _⟩ | ⟨id, hdelegation, hmem⟩
      · left
        rw [happrover, hid]
      · right
        obtain ⟨row, hrow, hp⟩ := (Table.mem_select _ _ _).1 hmem
        simp only [Bool.and_eq_true, decide_eq_true_eq] at hp
        refine ⟨row, ?_, hp.1.1.2, ?_, hp.2⟩
        · rw [hdelegation, Option.bind_some, hrow]
        · rw [hp.1.2, hid]
    cases accepted with
    | true =>
      refine ⟨_, _, deciding_of_first hsplit (by simp) ?_,
        fun _ => ⟨target, rfl, hbefore, hentitled .approved (some signature)⟩⟩
      rw [if_pos rfl]
      unfold line_approved
      dsimp only
      split <;> rfl
    | false =>
      exact ⟨_, _, deciding_of_first hsplit (by simp) rfl,
        fun _ => ⟨target, rfl, hbefore, hentitled .rejected none⟩⟩

/-- One document is written, and the others stay as they are. -/
theorem Sound.write (h : Sound w) (hwritten : Written w.db document_id document' w'.db)
    (hworkflow : Workflow document') (hround : ∀ id, Round (w'.decisions id))
    (hothers : ∀ id, id ≠ document_id → w'.decisions id = w.decisions id)
    (htraced : document'.status = .submitted → Traced document' (w'.decisions document_id)) :
    Sound w' := by
  have hrows : ∀ id document, w'.db.documents.rows id = some document →
      id = document_id ∧ document = document' ∨
        id ≠ document_id ∧ w.db.documents.rows id = some document := by
    intro id document hrow
    rw [hwritten.documents, Table.rows_set] at hrow
    by_cases hid : id = document_id
    · rw [if_pos hid] at hrow
      exact Or.inl ⟨hid, (Option.some.inj hrow).symm⟩
    · rw [if_neg hid] at hrow
      exact Or.inr ⟨hid, hrow⟩
  constructor
  · intro id document hrow
    rcases hrows id document hrow with ⟨rfl, rfl⟩ | ⟨_, hold⟩
    · exact hworkflow
    · exact h.workflow id document hold
  · exact hround
  · intro id document hrow hstatus
    rcases hrows id document hrow with ⟨rfl, rfl⟩ | ⟨hid, hold⟩
    · exact htraced hstatus
    · rw [hothers id hid]
      exact h.traced id document hold hstatus

/-- The documents and the decisions stay as they are. -/
theorem Sound.keep (h : Sound w) (hdocuments : w'.db.documents = w.db.documents)
    (hdecisions : w'.decisions = w.decisions) : Sound w' := by
  constructor
  · rw [hdocuments]
    exact h.workflow
  · rw [hdecisions]
    exact h.round
  · rw [hdocuments, hdecisions]
    exact h.traced

theorem sound_step {a : Action} (h : Sound w) (hstep : step w a = some w') : Sound w' := by
  cases step_does hstep with
  | creates actor_id document_id actor ids payload approvers now _ _ _ hwritten hdecisions =>
    apply h.write hwritten workflow_new_document
    · rw [hdecisions]
      exact h.round
    · intro id _
      rw [hdecisions]
    · intro hstatus
      cases hstatus
  | writes document_id actor document document' hrow hchanges hclosed hwritten hdecisions =>
    apply h.write hwritten (hchanges.workflow (h.workflow document_id document hrow))
    · rw [hdecisions]
      exact h.round
    · intro id _
      rw [hdecisions]
    · intro hstatus
      exact absurd hstatus hclosed
  | submits document_id actor document first now hrow hchanges hwritten hdecisions =>
    apply h.write hwritten (hchanges.workflow (h.workflow document_id document hrow))
    · intro id
      rw [hdecisions]
      dsimp only [World.note]
      split_ifs
      · exact round_nil
      · exact h.round id
    · intro id hid
      rw [hdecisions]
      exact if_neg hid
    · intro _
      rw [hdecisions]
      dsimp only [World.note]
      rw [if_pos rfl]
      intro decision hdecision
      cases hdecision
  | decides actor_id document_id actor document document' accepted forced started hactor hrow hstatus
      hdecided hwritten hdecisions =>
    have hworkflow := h.workflow document_id document hrow
    have htraced := h.traced document_id document hrow hstatus
    obtain ⟨f, lines, hdeciding, hforced⟩ := hdecided.deciding hactor hworkflow hstatus
    have hnew : decisionsOf w.db w'.db document_id actor_id forced (_seoul_today started) =
        (lines.map f).map (decisionOf w.db actor_id forced (_seoul_today started)) := by
      rw [decisionsOf_eq hrow hwritten, hdeciding.changed]
    rw [hnew] at hdecisions
    apply h.write hwritten ((hdecided.changes hstatus).workflow hworkflow)
    · intro id
      rw [hdecisions]
      dsimp only [World.note]
      split_ifs
      · exact (h.round document_id).append htraced hdeciding.key hdeciding.sub hdeciding.pending
          hforced
      · exact h.round id
    · intro id hid
      rw [hdecisions]
      exact if_neg hid
    · intro _
      rw [hdecisions]
      dsimp only [World.note]
      rw [if_pos rfl]
      exact htraced.append hdeciding
  | trashes _ _ _ _ _ _ _ hdocuments _ hdecisions => exact h.keep hdocuments hdecisions
  | delegates _ _ _ hw =>
    subst hw
    exact h.keep rfl rfl
  | administers _ _ _ hw =>
    subst hw
    exact h.keep rfl rfl
  | others halike hdecisions => exact h.keep halike.documents hdecisions

theorem sound_of_reachable (h : machine.Reachable w) : Sound w := by
  apply Machine.Reachable.invariant _ _ h
  · intro s hstart
    constructor
    · intro id document hrow
      rw [hstart.documents] at hrow
      cases hrow
    · intro id
      rw [hstart.decisions id]
      exact round_nil
    · intro id document hrow
      rw [hstart.documents] at hrow
      cases hrow
  · intro s a s' hs hstep
    exact sound_step hs hstep

/-- In every run, by any actors and in any order, each document keeps to its
workflow, and in each round every line is decided at most once, in the order of
the sequences unless forced, and by its approver or a valid deputy unless forced. -/
theorem approvals_keep_their_workflow (w : World) (h : machine.Reachable w) :
    (∀ document_id document, w.db.documents.rows document_id = some document → Workflow document) ∧
      ∀ document_id, Round (w.decisions document_id) :=
  ⟨(sound_of_reachable h).workflow, (sound_of_reachable h).round⟩

/-- Bo decides first, and then decides for Ana by her delegation. -/
def deputyRun : Option World := machine.run emptyWorld
  [.create "ana" "doc" sampleIds (plainPayload ["bo", "ana"]) 1, .submit "ana" "doc" 2,
    .decide "bo" "doc" "fine" true false 3 3,
    .delegate "leave" ⟨"first", "ana", "bo", 0, 6, "leave", true, 1, 3, 3, none⟩,
    .decide "bo" "doc" "fine" true false 4 4]

theorem a_deputy_keeps_the_workflow :
    (∀ document, (deputyRun.get (by decide +kernel)).db.documents.rows "doc" = some document →
        Workflow document) ∧
      Round ((deputyRun.get (by decide +kernel)).decisions "doc") :=
  have hreach : machine.Reachable (deputyRun.get (by decide +kernel)) :=
    Machine.reachable_of_run start_emptyWorld (Option.some_get _).symm
  have hkept := approvals_keep_their_workflow _ hreach
  ⟨hkept.1 "doc", hkept.2 "doc"⟩

/-- The run above ends approved, with one decision for each line. -/
example : ((deputyRun.get (by decide +kernel)).decisions "doc").map (fun d => (d.sequence, d.actor_id)) =
    [(1, "bo"), (2, "bo")] := by decide +kernel

end moaworks.approvals
