-- The two ways to ask what an actor sees, and the three ways to ask what the
-- actor may decide, give the same answers.
import MoaWorks.ApprovalOperations

namespace moaworks.approvals

open approval_delegations (Date _seoul_today)
open directory_store (AuthUserSummary Directory Error)
open Raise (require found bind_ok require_ok found_ok)

variable {db db' : Db} {actor : AuthUserSummary} {actor_id document_id : String}
  {document : Document} {today : Date} {started now : Time}

/-! ## Visible documents -/

theorem fetch_required_ok : _fetch_required_approval_document db document_id = .ok document ↔
    db.documents.rows document_id = some document ∧
      (db.directory.users.rows document.creator_user_id).isSome := by
  unfold _fetch_required_approval_document
  rw [found_ok, Option.filter_eq_some_iff]

/-- A document that its creator, a line, the audience, the department or a
delegation shows to the actor. -/
def Concerns (db : Db) (actor : AuthUserSummary) (today : Date) (document_id : String)
    (document : Document) : Prop :=
  _can_view_all_approvals actor = true ∨ document.creator_user_id = actor.userId ∨
    (document.shared_with_department = true ∧ document.status = .approved ∧
      document.creator_department_id = actor.departmentId) ∨
    shown db actor today document_id document = true

theorem assert_visible_ok : _assert_approval_visible db actor today document_id document = .ok () ↔
    document.company_id = actor.companyId ∧
      (db.deletions.rows (document_id, actor.userId)).bind (·.permanently_deleted_at) = none ∧
      Concerns db actor today document_id document := by
  unfold _assert_approval_visible Concerns
  have hdeleted : ¬ (db.deletions.rows (document_id, actor.userId)).any
        (fun deletion => deletion.permanently_deleted_at.isSome) = true ↔
      (db.deletions.rows (document_id, actor.userId)).bind (·.permanently_deleted_at) = none := by
    cases db.deletions.rows (document_id, actor.userId) <;> simp
  rw [← hdeleted]
  constructor
  · intro h
    obtain ⟨_, hcompany, h⟩ := bind_ok.1 h
    obtain ⟨_, hkept, h⟩ := bind_ok.1 h
    refine ⟨require_ok.1 hcompany, require_ok.1 hkept, ?_⟩
    split_ifs at h with hall hshared
    · rcases hall with hall | hcreator
      · exact Or.inl hall
      · exact Or.inr (Or.inl hcreator)
    · exact Or.inr (Or.inr (Or.inl hshared))
    · exact Or.inr (Or.inr (Or.inr (require_ok.1 h)))
  · rintro ⟨hcompany, hkept, hconcerns⟩
    refine bind_ok.2 ⟨(), require_ok.2 hcompany, bind_ok.2 ⟨(), require_ok.2 hkept, ?_⟩⟩
    split_ifs with hall hshared
    · rfl
    · rfl
    · rcases hconcerns with h | h | h | h
      · exact absurd (Or.inl h) hall
      · exact absurd (Or.inr h) hall
      · exact absurd h hshared
      · exact require_ok.2 h

theorem sqlEq_some {α : Type*} [DecidableEq α] {a : Option α} {b : α} :
    sqlEq a (some b) = true ↔ a = some b := by
  rw [sqlEq_iff]
  constructor
  · rintro ⟨x, rfl, hx⟩
    rw [hx]
  · intro h
    exact ⟨b, h, rfl⟩

/-- The WHERE clause of the list says what the check of one document says. -/
theorem listed_iff (hcreator : (db.directory.users.rows document.creator_user_id).isSome)
    (hdepartment : actor.departmentId.isSome) :
    listed db actor today document_id document = true ↔
      _assert_approval_visible db actor today document_id document = .ok () := by
  rw [assert_visible_ok]
  obtain ⟨department_id, hdepartment⟩ := Option.isSome_iff_exists.1 hdepartment
  unfold listed Concerns shown
  rw [hcreator, hdepartment, Bool.true_and]
  simp only [Bool.and_eq_true, Bool.or_eq_true, decide_eq_true_eq, sqlEq_some, List.any_eq_true,
    and_assoc]
  constructor
  · rintro ⟨hcompany, hkept, hor⟩
    refine ⟨hcompany, hkept, ?_⟩
    rw [hcompany] at hor
    rcases hor with (((((hall | hcreator) | happrover) | hdecided) | haudience) | hshared) | hdeputy
    · exact Or.inl hall
    · exact Or.inr (Or.inl hcreator)
    · obtain ⟨line, hline, hid⟩ := happrover
      exact Or.inr (Or.inr (Or.inr (Or.inr ⟨line, hline, Or.inl (Or.inl hid)⟩)))
    · obtain ⟨line, hline, hid⟩ := hdecided
      exact Or.inr (Or.inr (Or.inr (Or.inr ⟨line, hline, Or.inl (Or.inr hid)⟩)))
    · exact Or.inr (Or.inr (Or.inr (Or.inl haudience)))
    · exact Or.inr (Or.inr (Or.inl hshared))
    · obtain ⟨line, hline, hpending⟩ := hdeputy
      exact Or.inr (Or.inr (Or.inr (Or.inr ⟨line, hline, Or.inr hpending⟩)))
  · rintro ⟨hcompany, hkept, hor⟩
    refine ⟨hcompany, hkept, ?_⟩
    rw [hcompany]
    rcases hor with hall | hcreator | hshared | haudience | ⟨line, hline, (hid | hid) | hpending⟩
    · exact Or.inl (Or.inl (Or.inl (Or.inl (Or.inl (Or.inl hall)))))
    · exact Or.inl (Or.inl (Or.inl (Or.inl (Or.inl (Or.inr hcreator)))))
    · exact Or.inl (Or.inr hshared)
    · exact Or.inl (Or.inl (Or.inr haudience))
    · exact Or.inl (Or.inl (Or.inl (Or.inl (Or.inr ⟨line, hline, hid⟩))))
    · exact Or.inl (Or.inl (Or.inl (Or.inr ⟨line, hline, hid⟩)))
    · exact Or.inr ⟨line, hline, hpending⟩

/-! ## The right to act -/

theorem Document.sequence_inj {a b : Line} (ha : a ∈ document.lines) (hb : b ∈ document.lines)
    (h : a.sequence = b.sequence) : a = b := by
  have hnodup : (document.lines.map (·.sequence)).Nodup := by
    unfold List.Nodup
    rw [List.pairwise_map]
    apply document.ordered.imp
    intro x y hxy
    omega
  exact List.inj_on_of_nodup_map hnodup ha hb h

/-- The index on document and sequence: one line at most has a sequence. -/
theorem Document.find_sequence {line : Line} (hline : line ∈ document.lines) :
    document.lines.find? (fun other => decide (some other.sequence = some line.sequence)) =
      some line := by
  have hsome : (document.lines.find?
      (fun other => decide (some other.sequence = some line.sequence))).isSome := by
    rw [List.find?_isSome]
    exact ⟨line, hline, by simp⟩
  obtain ⟨found, hfound⟩ := Option.isSome_iff_exists.1 hsome
  have hsequence : found.sequence = line.sequence := by
    have hp := List.find?_some hfound
    rw [decide_eq_true_eq] at hp
    exact Option.some.inj hp
  rw [hfound, document.sequence_inj (List.mem_of_find?_eq_some hfound) hline hsequence]

theorem pendingAt_iff {line : Line} {index : Option Nat} :
    line.pendingAt index = true ↔ some line.sequence = index ∧ line.status = .pending := by
  unfold Line.pendingAt
  rw [Bool.and_eq_true, decide_eq_true_eq, sqlEq_iff]
  constructor
  · rintro ⟨⟨x, hx, rfl⟩, hstatus⟩
    exact ⟨hx, hstatus⟩
  · rintro ⟨rfl, hstatus⟩
    exact ⟨⟨_, rfl, rfl⟩, hstatus⟩

/-- The current line is pending, and the actor is its approver or a deputy. -/
def MayAct (db : Db) (actor : AuthUserSummary) (today : Date) (document : Document) : Prop :=
  document.status = .submitted ∧ ∃ line ∈ document.lines,
    line.pendingAt document.current_line_index = true ∧
      line.decidable db actor.companyId actor today = true

theorem can_actor_process_iff :
    _can_actor_process_current_line db document actor today = true ↔ MayAct db actor today document := by
  unfold _can_actor_process_current_line MayAct
  split_ifs with hclosed
  · constructor
    · intro h
      cases h
    · rintro ⟨hstatus, line, _, hpending, _⟩
      rcases hclosed with hclosed | hindex
      · exact absurd hstatus hclosed
      · rw [pendingAt_iff, hindex] at hpending
        cases hpending.1
  · rw [not_or, not_not] at hclosed
    simp only [List.any_eq_true, Bool.and_eq_true]
    constructor
    · intro h
      exact ⟨hclosed.1, h⟩
    · intro h
      exact h.2

theorem mem_actionable_iff (hrow : db.documents.rows document_id = some document)
    (hcompany : document.company_id = actor.companyId) {document_ids : Finset String}
    (hid : document_id ∈ document_ids) :
    document_id ∈ _fetch_actor_actionable_document_ids db actor today document_ids ↔
      _can_actor_process_current_line db document actor today = true := by
  rw [can_actor_process_iff]
  unfold _fetch_actor_actionable_document_ids MayAct
  rw [Table.mem_select]
  constructor
  · rintro ⟨row, hfound, h⟩
    rw [hrow] at hfound
    cases hfound
    simp only [Bool.and_eq_true, decide_eq_true_eq, List.any_eq_true] at h
    rw [← hcompany]
    exact ⟨h.1.2, h.2⟩
  · rintro ⟨hstatus, hline⟩
    refine ⟨document, hrow, ?_⟩
    simp only [Bool.and_eq_true, decide_eq_true_eq, List.any_eq_true]
    rw [← hcompany] at hline
    exact ⟨⟨⟨hid, hcompany⟩, hstatus⟩, hline⟩

theorem newest_delegation_some {company_id owner_user_id delegate_user_id : String} :
    (newest_delegation db company_id owner_user_id delegate_user_id today).isSome ↔
      (delegated db company_id owner_user_id delegate_user_id today).Nonempty := by
  unfold newest_delegation
  rw [Option.isSome_iff_ne_none, Ne, List.argmax_eq_none, Finset.nonempty_iff_ne_empty]
  constructor
  · intro h hempty
    apply h
    rw [hempty, Finset.sort_empty]
  · intro h hnil
    apply h
    rw [← Finset.sort_toFinset (delegated db company_id owner_user_id delegate_user_id today)
      (· ≤ ·), hnil, List.toFinset_nil]

/-- The delegation that a decision uses is one that is in force. -/
theorem newest_delegation_mem {company_id owner_user_id delegate_user_id delegation_id : String}
    (h : newest_delegation db company_id owner_user_id delegate_user_id today = some delegation_id) :
    delegation_id ∈ delegated db company_id owner_user_id delegate_user_id today := by
  unfold newest_delegation at h
  exact (Finset.mem_sort _).1 (List.argmax_mem h)

/-- What `target_line` finds: the pending line of the index, and nothing for the
approver or a delegation that is in force for the deputy. -/
theorem target_line_ok {target : Line × Option String} (h : target_line db actor document today = .ok target) :
    target.1 ∈ document.lines ∧ target.1.pendingAt document.current_line_index = true ∧
      ((target.1.approver_user_id = actor.userId ∧ target.2 = none) ∨
        ∃ delegation_id, target.2 = some delegation_id ∧
          delegation_id ∈ delegated db actor.companyId target.1.approver_user_id actor.userId today) := by
  unfold target_line at h
  obtain ⟨line, hfound, h⟩ := bind_ok.1 h
  rw [found_ok, Option.filter_eq_some_iff, decide_eq_true_eq] at hfound
  obtain ⟨hfind, hstatus⟩ := hfound
  have hsequence := List.find?_some hfind
  rw [decide_eq_true_eq] at hsequence
  have hline := List.mem_of_find?_eq_some hfind
  have hpending : line.pendingAt document.current_line_index = true :=
    pendingAt_iff.2 ⟨hsequence, hstatus⟩
  split_ifs at h with happrover
  · cases h
    exact ⟨hline, hpending, Or.inl ⟨happrover, rfl⟩⟩
  · obtain ⟨delegation_id, hdelegation, h⟩ := bind_ok.1 h
    cases h
    rw [found_ok] at hdelegation
    exact ⟨hline, hpending, Or.inr ⟨delegation_id, rfl, newest_delegation_mem hdelegation⟩⟩

theorem target_line_exists_iff : (∃ target, target_line db actor document today = .ok target) ↔
    ∃ line ∈ document.lines, line.pendingAt document.current_line_index = true ∧
      line.decidable db actor.companyId actor today = true := by
  constructor
  · rintro ⟨target, h⟩
    obtain ⟨hline, hpending, hright⟩ := target_line_ok h
    refine ⟨target.1, hline, hpending, ?_⟩
    unfold Line.decidable
    rw [Bool.or_eq_true, decide_eq_true_eq, decide_eq_true_eq]
    rcases hright with ⟨happrover, _⟩ | ⟨delegation_id, _, hmem⟩
    · exact Or.inl happrover
    · exact Or.inr ⟨delegation_id, hmem⟩
  · rintro ⟨line, hline, hpending, hright⟩
    obtain ⟨hsequence, hstatus⟩ := pendingAt_iff.1 hpending
    unfold target_line
    rw [← hsequence, document.find_sequence hline]
    by_cases happrover : line.approver_user_id = actor.userId
    · refine ⟨(line, none), bind_ok.2 ⟨line, ?_, ?_⟩⟩
      · rw [found_ok, Option.filter_eq_some_iff, decide_eq_true_eq]
        exact ⟨rfl, hstatus⟩
      · rw [if_pos happrover]
        rfl
    · unfold Line.decidable at hright
      rw [Bool.or_eq_true, decide_eq_true_eq, decide_eq_true_eq, or_iff_right happrover] at hright
      obtain ⟨delegation_id, hdelegation⟩ :=
        Option.isSome_iff_exists.1 (newest_delegation_some.2 hright)
      refine ⟨(line, some delegation_id), bind_ok.2 ⟨line, ?_, ?_⟩⟩
      · rw [found_ok, Option.filter_eq_some_iff, decide_eq_true_eq]
        exact ⟨rfl, hstatus⟩
      · rw [if_neg happrover]
        exact bind_ok.2 ⟨delegation_id, found_ok.2 hdelegation, rfl⟩

/-- A decision that is not forced is accepted exactly when the actor may act. -/
theorem decision_accepted_iff (hactor : db.directory._fetch_actor_summary actor_id = .ok actor)
    (hdocument : _fetch_required_approval_document db document_id = .ok document) {reason : String}
    (hreason : Text.strip reason ≠ "") (accepted : Bool) :
    (∃ db', _process_approval_decision db actor_id document_id reason accepted false now started =
      .ok db') ↔ MayAct db actor (_seoul_today started) document := by
  unfold _process_approval_decision MayAct
  rw [← target_line_exists_iff]
  constructor
  · rintro ⟨db', h⟩
    obtain ⟨_, _, h⟩ := bind_ok.1 h
    obtain ⟨found, hfound, h⟩ := bind_ok.1 h
    rw [hactor] at hfound
    cases hfound
    obtain ⟨row, hrow, h⟩ := bind_ok.1 h
    rw [hdocument] at hrow
    cases hrow
    obtain ⟨_, hstatus, h⟩ := bind_ok.1 h
    obtain ⟨_, _, h⟩ := bind_ok.1 h
    rw [if_neg (by decide)] at h
    obtain ⟨target, htarget, _⟩ := bind_ok.1 h
    unfold _assert_document_status at hstatus
    rw [require_ok, List.mem_singleton] at hstatus
    exact ⟨hstatus, target, htarget⟩
  · rintro ⟨hstatus, target, htarget⟩
    have hlines : document.lines ≠ [] := List.ne_nil_of_mem (target_line_ok htarget).1
    have hopen : _assert_document_status document [.submitted] "결재 처리" = .ok () :=
      require_ok.2 (List.mem_singleton.2 hstatus)
    have hrest : ∃ db', (do
        let target ← target_line db actor document (_seoul_today started)
        if accepted then
          return save db actor document_id (event_name true target.2) document
            (line_approved document target.1 (Text.strip reason) actor now
              (signature_snapshot db actor) target.2) (some (Text.strip reason))
        else
          return save db actor document_id (event_name false target.2) document
            (line_rejected document target.1 (Text.strip reason) actor now target.2)
            (some (Text.strip reason)) : Except Error Db) = .ok db' := by
      rw [htarget]
      cases accepted
      · exact ⟨_, rfl⟩
      · exact ⟨_, rfl⟩
    obtain ⟨db', hrest⟩ := hrest
    refine ⟨db', bind_ok.2 ⟨(), require_ok.2 hreason, bind_ok.2 ⟨actor, hactor,
      bind_ok.2 ⟨document, hdocument, bind_ok.2 ⟨(), hopen, bind_ok.2 ⟨(), require_ok.2 hlines, ?_⟩⟩⟩⟩⟩⟩
    rw [if_neg (by decide)]
    exact hrest

/-! ## The claims of the two APIs -/

theorem list_ok_iff {responses : Finset Response} :
    list_approval_documents db actor_id started = .ok responses ↔
      ∃ actor, db.directory._fetch_actor_summary actor_id = .ok actor ∧
        responses = (_fetch_visible_approval_rows db actor (_seoul_today started)).image (fun id =>
          ⟨id, decide (id ∈ _fetch_actor_actionable_document_ids db actor (_seoul_today started)
            (_fetch_visible_approval_rows db actor (_seoul_today started)))⟩) := by
  unfold list_approval_documents
  rw [bind_ok]
  constructor
  · rintro ⟨actor, hactor, h⟩
    cases h
    exact ⟨actor, hactor, rfl⟩
  · rintro ⟨actor, hactor, rfl⟩
    exact ⟨actor, hactor, rfl⟩

theorem get_ok_iff {response : Response} :
    get_approval_document db actor_id document_id started = .ok response ↔
      ∃ actor document, db.directory._fetch_actor_summary actor_id = .ok actor ∧
        _fetch_required_approval_document db document_id = .ok document ∧
        _assert_approval_visible db actor (_seoul_today started) document_id document = .ok () ∧
        response = ⟨document_id,
          _can_actor_process_current_line db document actor (_seoul_today started)⟩ := by
  unfold get_approval_document
  rw [bind_ok]
  constructor
  · rintro ⟨actor, hactor, h⟩
    obtain ⟨document, hdocument, h⟩ := bind_ok.1 h
    obtain ⟨_, hvisible, h⟩ := bind_ok.1 h
    cases h
    exact ⟨actor, document, hactor, hdocument, hvisible, rfl⟩
  · rintro ⟨actor, document, hactor, hdocument, hvisible, rfl⟩
    exact ⟨actor, hactor, bind_ok.2 ⟨document, hdocument, bind_ok.2 ⟨(), hvisible, rfl⟩⟩⟩

theorem mem_visible_iff (hactor : db.directory._fetch_actor_summary actor_id = .ok actor) :
    document_id ∈ _fetch_visible_approval_rows db actor today ↔
      ∃ document, _fetch_required_approval_document db document_id = .ok document ∧
        _assert_approval_visible db actor today document_id document = .ok () := by
  have hdepartment := (Directory.fetch_actor_summary_ok hactor).2.2
  unfold _fetch_visible_approval_rows
  rw [Table.mem_select]
  constructor
  · rintro ⟨document, hrow, hlisted⟩
    have hcreator : (db.directory.users.rows document.creator_user_id).isSome := by
      unfold listed at hlisted
      simp only [Bool.and_eq_true] at hlisted
      exact hlisted.1.1.1
    exact ⟨document, fetch_required_ok.2 ⟨hrow, hcreator⟩,
      (listed_iff hcreator hdepartment).1 hlisted⟩
  · rintro ⟨document, hdocument, hvisible⟩
    obtain ⟨hrow, hcreator⟩ := fetch_required_ok.1 hdocument
    exact ⟨document, hrow, (listed_iff hcreator hdepartment).2 hvisible⟩

/-- The list returns exactly the documents that can be opened. -/
theorem listed_iff_opened :
    (∃ responses, list_approval_documents db actor_id started = .ok responses ∧
      ∃ response ∈ responses, response.id = document_id) ↔
      ∃ response, get_approval_document db actor_id document_id started = .ok response := by
  constructor
  · rintro ⟨responses, hlist, response, hmem, hid⟩
    obtain ⟨actor, hactor, rfl⟩ := list_ok_iff.1 hlist
    obtain ⟨id, hvisible, rfl⟩ := Finset.mem_image.1 hmem
    dsimp only at hid
    subst hid
    obtain ⟨document, hdocument, hshown⟩ := (mem_visible_iff hactor).1 hvisible
    exact ⟨_, get_ok_iff.2 ⟨actor, document, hactor, hdocument, hshown, rfl⟩⟩
  · rintro ⟨response, hget⟩
    obtain ⟨actor, document, hactor, hdocument, hshown, _⟩ := get_ok_iff.1 hget
    have hvisible := (mem_visible_iff hactor).2 ⟨document, hdocument, hshown⟩
    exact ⟨_, list_ok_iff.2 ⟨actor, hactor, rfl⟩, _, Finset.mem_image_of_mem _ hvisible, rfl⟩

/-- Ana has submitted a document to Bo. -/
def submittedToBo : Option Db :=
  (do
    let db ← create_approval_document twoCompanies "ana" "doc" sampleIds (plainPayload ["bo"]) 1
    submit_approval_document db "ana" "doc" 2 : Except Error Db).toOption

def bo : AuthUserSummary := ⟨"bo", "first", "Bo", ["approval:create", "approval:act"], some "sales"⟩

end moaworks.approvals
