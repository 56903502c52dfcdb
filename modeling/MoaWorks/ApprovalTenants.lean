-- The approvals of two companies: which operations of one company reach a
-- document of the other.
import MoaWorks.ApprovalWorkflow

namespace moaworks.approvals

open approval_delegations (Date Delegation _seoul_today)
open directory_store (AuthUserSummary Directory Error)
open Raise (require found bind_ok require_ok found_ok)

variable {db db' : Db} {w w' : World} {actor : AuthUserSummary} {actor_id document_id : String}
  {document document' : Document} {today : Date} {started now : Time} {company_id : String}

/-! ## Operations on one document -/

inductive Operation
  | get (started : Time)
  | read (now started : Time)
  | audit_logs (started : Time)
  | attachment (attachment_id : String) (started : Time)
  | preview (attachment_id : String) (started : Time) (detected : Option String)
  | signature (line_id : String) (started : Time)
  | update (ids : NewIds) (payload : Payload) (now : Time)
  | submit (now : Time)
  | approve (reason : String) (now started : Time)
  | reject (reason : String) (now started : Time)
  | withdraw (now : Time)
  | rework (now : Time)
  | force_approve (reason : String) (now started : Time)
  | force_reject (reason : String) (now started : Time)
  | delete (now : Time)
  | restore (now : Time)
  | permanently_delete (now : Time)

/-- The tables after an operation that succeeds. What only reads leaves them. -/
def perform (db : Db) (actor_id document_id : String) : Operation → Except Error Db
  | .get started => (get_approval_document db actor_id document_id started).map (fun _ => db)
  | .read now started => mark_approval_document_read db actor_id document_id now started
  | .audit_logs started => (get_audit_logs db actor_id document_id started).map (fun _ => db)
  | .attachment attachment_id started =>
    (get_approval_attachment db actor_id document_id attachment_id started).map (fun _ => db)
  | .preview attachment_id started detected =>
    (get_approval_attachment_preview db actor_id document_id attachment_id started detected).map
      (fun _ => db)
  | .signature line_id started =>
    (get_approval_line_signature db actor_id document_id line_id started).map (fun _ => db)
  | .update ids payload now => update_approval_document db actor_id document_id ids payload now
  | .submit now => submit_approval_document db actor_id document_id now
  | .approve reason now started => approve_approval_document db actor_id document_id reason now started
  | .reject reason now started => reject_approval_document db actor_id document_id reason now started
  | .withdraw now => withdraw_approval_document db actor_id document_id now
  | .rework now => rework_approval_document db actor_id document_id now
  | .force_approve reason now started => admin_force_approve db actor_id document_id reason now started
  | .force_reject reason now started => admin_force_reject db actor_id document_id reason now started
  | .delete now => delete_approval_document_for_actor db actor_id document_id now
  | .restore now => restore_approval_document_for_actor db actor_id document_id now
  | .permanently_delete now =>
    permanently_delete_approval_document_for_actor db actor_id document_id now

/-- The committed tables after an operation: an exception rolls back. -/
def committed (db : Db) (result : Except Error Db) : Db :=
  match result with
  | .ok db' => db'
  | .error _ => db

/-- The operation fails and leaves the document with its lines, its audiences
and its deletions. -/
structure Refused (db : Db) (actor_id document_id : String) (op : Operation) : Prop where
  fails : ∃ error, perform db actor_id document_id op = .error error
  document : (committed db (perform db actor_id document_id op)).documents.rows document_id =
    db.documents.rows document_id
  audiences : ∀ user_id, (committed db (perform db actor_id document_id op)).audiences.rows
    (document_id, user_id) = db.audiences.rows (document_id, user_id)
  deletions : ∀ user_id, (committed db (perform db actor_id document_id op)).deletions.rows
    (document_id, user_id) = db.deletions.rows (document_id, user_id)

theorem refused_iff {op : Operation} : Refused db actor_id document_id op ↔
    ∀ db', perform db actor_id document_id op ≠ .ok db' := by
  constructor
  · intro h db' hok
    obtain ⟨error, herror⟩ := h.fails
    rw [herror] at hok
    cases hok
  · intro h
    have hfails : ∃ error, perform db actor_id document_id op = .error error := by
      cases hresult : perform db actor_id document_id op with
      | error error => exact ⟨error, rfl⟩
      | ok db' => exact absurd hresult (h db')
    obtain ⟨error, herror⟩ := hfails
    refine ⟨⟨error, herror⟩, ?_, ?_, ?_⟩
    · rw [herror]
      rfl
    · intro _
      rw [herror]
      rfl
    · intro _
      rw [herror]
      rfl

/-! ## Everybody at home -/

/-- Creators, approvers and delegating owners are in the company of their rows. -/
structure Homed (db : Db) : Prop where
  creators : ∀ document_id document, db.documents.rows document_id = some document →
    db.directory.companyOf document.creator_user_id = some document.company_id
  approvers : ∀ document_id document, db.documents.rows document_id = some document →
    ∀ line ∈ document.lines, db.directory.companyOf line.approver_user_id = some document.company_id
  owners : ∀ delegation_id row, db.delegations.rows delegation_id = some row →
    db.directory.companyOf row.owner_user_id = some row.company_id

/-- What no change of a document touches. -/
structure SameParties (document document' : Document) : Prop where
  company : document'.company_id = document.company_id
  creator : document'.creator_user_id = document.creator_user_id
  approvers : ∀ line' ∈ document'.lines, ∃ line ∈ document.lines,
    line'.approver_user_id = line.approver_user_id

theorem sameParties_map {f : Line → Line} (hf : ∀ line, (f line).approver_user_id = line.approver_user_id)
    (hlines : document'.lines = document.lines.map f)
    (hcompany : document'.company_id = document.company_id)
    (hcreator : document'.creator_user_id = document.creator_user_id) :
    SameParties document document' := by
  refine ⟨hcompany, hcreator, ?_⟩
  intro line' hline'
  rw [hlines] at hline'
  obtain ⟨line, hline, rfl⟩ := List.mem_map.1 hline'
  exact ⟨line, hline, hf line⟩

theorem sameParties_lines (hlines : document'.lines = document.lines)
    (hcompany : document'.company_id = document.company_id)
    (hcreator : document'.creator_user_id = document.creator_user_id) :
    SameParties document document' := by
  refine ⟨hcompany, hcreator, ?_⟩
  intro line hline
  rw [hlines] at hline
  exact ⟨line, hline, rfl⟩

theorem Changes.sameParties (h : Changes db actor document document') :
    SameParties document document' := by
  cases h with
  | rewrites payload now hcreator hstatus =>
    refine ⟨rfl, rfl, ?_⟩
    intro line hline
    cases hline
  | submits first now => exact sameParties_lines rfl rfl rfl
  | withdraws now => exact sameParties_lines rfl rfl rfl
  | redrafts now =>
    have hreset : ∀ line : Line, line.reset.approver_user_id = line.approver_user_id := fun _ => rfl
    exact sameParties_map hreset rfl rfl rfl
  | forces accepted reason now =>
    cases accepted with
    | true =>
      have hforce : ∀ line : Line, (line.force_approve reason actor now).approver_user_id =
          line.approver_user_id := by
        intro line
        unfold Line.force_approve
        split_ifs <;> rfl
      exact sameParties_map hforce rfl rfl rfl
    | false =>
      have hforce : ∀ line : Line, (line.force_reject reason actor now).approver_user_id =
          line.approver_user_id := by
        intro line
        unfold Line.force_reject
        split_ifs <;> rfl
      exact sameParties_map hforce rfl rfl rfl
  | decides accepted target delegation_id today reason now signature =>
    have hdecide : ∀ (status : LineStatus) (signature : Option Signature) (line : Line),
        (target.decide status reason actor now signature delegation_id line).approver_user_id =
          line.approver_user_id := by
      intro status signature line
      unfold Line.decide
      split_ifs <;> rfl
    cases accepted with
    | true =>
      rw [if_pos rfl]
      unfold line_approved
      dsimp only
      split
      · exact sameParties_map (hdecide .approved (some signature)) rfl rfl rfl
      · exact sameParties_map (hdecide .approved (some signature)) rfl rfl rfl
    | false => exact sameParties_map (hdecide .rejected none) rfl rfl rfl

theorem Homed.write (h : Homed db) (hwritten : Written db document_id document' db')
    (hcreator : db.directory.companyOf document'.creator_user_id = some document'.company_id)
    (happrovers : ∀ line ∈ document'.lines,
      db.directory.companyOf line.approver_user_id = some document'.company_id) : Homed db' := by
  have hrows : ∀ id document, db'.documents.rows id = some document →
      document = document' ∨ db.documents.rows id = some document := by
    intro id document hrow
    rw [hwritten.documents, Table.rows_set] at hrow
    by_cases hid : id = document_id
    · rw [if_pos hid] at hrow
      exact Or.inl (Option.some.inj hrow).symm
    · rw [if_neg hid] at hrow
      exact Or.inr hrow
  constructor
  · intro id document hrow
    rw [hwritten.directory]
    rcases hrows id document hrow with rfl | hold
    · exact hcreator
    · exact h.creators id document hold
  · intro id document hrow
    rw [hwritten.directory]
    rcases hrows id document hrow with rfl | hold
    · exact happrovers
    · exact h.approvers id document hold
  · rw [hwritten.directory, hwritten.delegations]
    exact h.owners

theorem Homed.change (h : Homed db) (hrow : db.documents.rows document_id = some document)
    (hchanges : Changes db actor document document')
    (hwritten : Written db document_id document' db') : Homed db' := by
  obtain ⟨hcompany, hcreator, happrovers⟩ := hchanges.sameParties
  apply h.write hwritten
  · rw [hcompany, hcreator]
    exact h.creators document_id document hrow
  · intro line' hline'
    obtain ⟨line, hline, heq⟩ := happrovers line' hline'
    rw [heq, hcompany]
    exact h.approvers document_id document hrow line hline

theorem homed_step {a : Action} (h : Homed w.db) (hstep : step w a = some w') : Homed w'.db := by
  cases step_does hstep with
  | creates actor_id document_id actor ids payload approvers now hactor happrovers _ hwritten _ =>
    obtain ⟨hid, hcompany, _⟩ := Directory.fetch_actor_summary_ok hactor
    apply h.write hwritten
    · rw [← hid] at hcompany
      exact hcompany
    · intro line hline
      obtain ⟨entry, hentry, rfl⟩ := List.mem_map.1 hline
      exact happrovers entry.1 (List.fst_mem_of_mem_zipIdx hentry)
  | writes _ _ _ _ hrow hchanges _ hwritten _ => exact h.change hrow hchanges hwritten
  | submits _ _ _ _ _ hrow hchanges hwritten _ => exact h.change hrow hchanges hwritten
  | decides _ _ _ _ _ _ _ _ _ hrow hstatus hdecided hwritten _ =>
    exact h.change hrow (hdecided.changes hstatus) hwritten
  | trashes _ _ _ _ _ _ hdirectory hdocuments hdelegations _ =>
    constructor
    · rw [hdocuments, hdirectory]
      exact h.creators
    · rw [hdocuments, hdirectory]
      exact h.approvers
    · rw [hdelegations, hdirectory]
      exact h.owners
  | delegates delegation_id row hhome hw =>
    subst hw
    refine ⟨h.creators, h.approvers, ?_⟩
    intro id other hother
    dsimp only at hother
    rw [Table.rows_set] at hother
    split_ifs at hother with hid
    · cases hother
      exact hhome
    · exact h.owners id other hother
  | administers change directory happly hw =>
    subst hw
    constructor
    · intro id document hrow
      exact Directory.companyOf_apply happly (h.creators id document hrow)
    · intro id document hrow line hline
      exact Directory.companyOf_apply happly (h.approvers id document hrow line hline)
    · intro id row hrow
      exact Directory.companyOf_apply happly (h.owners id row hrow)
  | others halike _ =>
    constructor
    · rw [halike.documents, halike.directory]
      exact h.creators
    · rw [halike.documents, halike.directory]
      exact h.approvers
    · rw [halike.delegations, halike.directory]
      exact h.owners

theorem homed_of_reachable (h : machine.Reachable w) : Homed w.db := by
  apply Machine.Reachable.invariant _ _ h
  · intro s hstart
    constructor
    · intro id document hrow
      rw [hstart.documents] at hrow
      cases hrow
    · intro id document hrow
      rw [hstart.documents] at hrow
      cases hrow
    · intro id row hrow
      rw [hstart.delegations] at hrow
      cases hrow
  · intro s a s' hs hstep
    exact homed_step hs hstep

/-! ## An actor of another company -/

/-- The actor works in a company that is not the company of the document. -/
structure Foreign (db : Db) (actor_id document_id : String) (document : Document) : Prop where
  row : db.documents.rows document_id = some document
  company : ∃ company_id, db.directory.companyOf actor_id = some company_id ∧
    company_id ≠ document.company_id

theorem Foreign.actor_ne (h : Foreign db actor_id document_id document)
    (hactor : db.directory._fetch_actor_summary actor_id = .ok actor) :
    actor.userId = actor_id ∧ actor.companyId ≠ document.company_id := by
  obtain ⟨hid, hcompany, _⟩ := Directory.fetch_actor_summary_ok hactor
  obtain ⟨company_id, hhome, hne⟩ := h.company
  rw [hcompany] at hhome
  rw [Option.some.inj hhome]
  exact ⟨hid, hne⟩

theorem Foreign.found (h : Foreign db actor_id document_id document) {other : Document}
    (hother : _fetch_required_approval_document db document_id = .ok other) : other = document := by
  have hrow := (fetch_required_ok.1 hother).1
  rw [h.row] at hrow
  exact (Option.some.inj hrow).symm

/-- The document is not visible to the actor. -/
theorem Foreign.invisible (h : Foreign db actor_id document_id document) {other : Document}
    (hactor : db.directory._fetch_actor_summary actor_id = .ok actor)
    (hother : _fetch_required_approval_document db document_id = .ok other) :
    _assert_approval_visible db actor today document_id other ≠ .ok () := by
  intro hvisible
  rw [h.found hother] at hvisible
  exact (h.actor_ne hactor).2 (assert_visible_ok.1 hvisible).1.symm

/-- The actor has no row of the company in any role of the document. -/
theorem Foreign.stranger (h : Foreign db actor_id document_id document) {user_id : String}
    (hhome : db.directory.companyOf user_id = some document.company_id) : user_id ≠ actor_id := by
  rintro rfl
  obtain ⟨company_id, hcompany, hne⟩ := h.company
  rw [hhome] at hcompany
  exact hne (Option.some.inj hcompany).symm

theorem Foreign.not_creator (h : Foreign db actor_id document_id document) (hhomed : Homed db)
    (hactor : db.directory._fetch_actor_summary actor_id = .ok actor) {other : Document}
    (hother : _fetch_required_approval_document db document_id = .ok other) :
    other.creator_user_id ≠ actor.userId := by
  rw [h.found hother, (h.actor_ne hactor).1]
  exact h.stranger (hhomed.creators document_id document h.row)

/-- The actor may decide no line: neither as its approver nor by a delegation. -/
theorem Foreign.not_entitled (h : Foreign db actor_id document_id document) (hhomed : Homed db)
    (hactor : db.directory._fetch_actor_summary actor_id = .ok actor) {line : Line}
    (hline : line ∈ document.lines) {delegation_id : Option String} :
    ¬ Entitled db actor today line delegation_id := by
  have happrover := hhomed.approvers document_id document h.row line hline
  rintro (⟨hself, _⟩ | ⟨id, _, hmem⟩)
  · rw [(h.actor_ne hactor).1] at hself
    exact h.stranger happrover hself
  · obtain ⟨row, hrow, hp⟩ := (Table.mem_select _ _ _).1 hmem
    simp only [Bool.and_eq_true, decide_eq_true_eq] at hp
    have howner := hhomed.owners id row hrow
    rw [hp.1.1.1, hp.1.1.2, happrover] at howner
    exact (h.actor_ne hactor).2 (Option.some.inj howner).symm

/-- A forced decision that the code accepts from a foreign actor: the reason is
not blank, the actor may log in and the document is submitted. -/
def Forces (db : Db) (actor_id : String) (document : Document) (op : Operation) : Prop :=
  ∃ reason now started, (op = .force_approve reason now started ∨ op = .force_reject reason now started) ∧
    Text.strip reason ≠ "" ∧ document.status = .submitted ∧
    ∃ actor, db.directory._fetch_actor_summary actor_id = .ok actor

theorem forced_accepted_iff {reason : String} {accepted : Bool} (hworkflow : Workflow document)
    (hdocument : _fetch_required_approval_document db document_id = .ok document) :
    (∃ db', _process_approval_decision db actor_id document_id reason accepted true now started =
      .ok db') ↔ Text.strip reason ≠ "" ∧ document.status = .submitted ∧
        ∃ actor, db.directory._fetch_actor_summary actor_id = .ok actor := by
  constructor
  · rintro ⟨db', hok⟩
    obtain ⟨actor, found, _, hsaved, hstatus, hreason, _⟩ := decision_ok hok
    have hsame : found = document := by
      have hfound := hsaved.found
      rw [hdocument] at hfound
      exact (Except.ok.inj hfound).symm
    rw [hsame] at hstatus
    exact ⟨hreason, hstatus, actor, hsaved.known⟩
  · rintro ⟨hreason, hstatus, actor, hactor⟩
    obtain ⟨done, first, rest, hsplit, _⟩ := hworkflow.submitted hstatus
    have hfirst : first ∈ document.lines := by
      rw [hsplit.lines]
      exact List.mem_append_right _ List.mem_cons_self
    have hpending : ∃ line ∈ document.lines, line.status = .pending :=
      ⟨first, hfirst, hsplit.pending first List.mem_cons_self⟩
    have hopen : _assert_document_status document [.submitted] "결재 처리" = .ok () :=
      status_ok.2 (List.mem_singleton.2 hstatus)
    unfold _process_approval_decision
    cases accepted
    · exact ⟨_, bind_ok.2 ⟨(), require_ok.2 hreason, bind_ok.2 ⟨actor, hactor,
        bind_ok.2 ⟨document, hdocument, bind_ok.2 ⟨(), hopen,
        bind_ok.2 ⟨(), require_ok.2 (List.ne_nil_of_mem hfirst),
        bind_ok.2 ⟨(), require_ok.2 hpending, rfl⟩⟩⟩⟩⟩⟩⟩
    · exact ⟨_, bind_ok.2 ⟨(), require_ok.2 hreason, bind_ok.2 ⟨actor, hactor,
        bind_ok.2 ⟨document, hdocument, bind_ok.2 ⟨(), hopen,
        bind_ok.2 ⟨(), require_ok.2 (List.ne_nil_of_mem hfirst),
        bind_ok.2 ⟨(), require_ok.2 hpending, rfl⟩⟩⟩⟩⟩⟩⟩

/-- A decision that is not forced fails. -/
theorem Foreign.not_decides (h : Foreign db actor_id document_id document) (hhomed : Homed db)
    {reason : String} {accepted : Bool} :
    _process_approval_decision db actor_id document_id reason accepted false now started ≠ .ok db' := by
  intro hok
  obtain ⟨actor, found, _, hsaved, _, _, hdecided⟩ := decision_ok hok
  have hfound := h.found hsaved.found
  subst hfound
  cases hdecided with
  | forces _ _ hforced => cases hforced
  | decides _ _ _ _ _ _ htarget _ hright =>
    exact h.not_entitled hhomed hsaved.known htarget hright

theorem map_const_ok {α : Type} {result : Except Error α}
    (h : result.map (fun _ => db) = .ok db') : ∃ value, result = .ok value := by
  cases result with
  | error _ => cases h
  | ok value => exact ⟨value, rfl⟩

/-- The operations that look at the document first. -/
theorem Foreign.not_reads (h : Foreign db actor_id document_id document) {α : Type}
    {rest : AuthUserSummary → Document → Except Error α} {value : α}
    (hok : (do
      let actor ← db.directory._fetch_actor_summary actor_id
      let document ← _fetch_required_approval_document db document_id
      _assert_approval_visible db actor (_seoul_today started) document_id document
      rest actor document : Except Error α) = .ok value) : False := by
  obtain ⟨actor, hactor, hok⟩ := bind_ok.1 hok
  obtain ⟨other, hother, hok⟩ := bind_ok.1 hok
  obtain ⟨_, hvisible, _⟩ := bind_ok.1 hok
  exact h.invisible hactor hother hvisible

/-- The operations that ask for the creator first. -/
theorem Foreign.not_owns (h : Foreign db actor_id document_id document) (hhomed : Homed db)
    {rest : AuthUserSummary → Document → Except Error Db}
    (hok : (do
      let actor ← db.directory._fetch_actor_summary actor_id
      let document ← _fetch_required_approval_document db document_id
      _assert_creator actor document
      rest actor document : Except Error Db) = .ok db') : False := by
  obtain ⟨actor, hactor, hok⟩ := bind_ok.1 hok
  obtain ⟨other, hother, hok⟩ := bind_ok.1 hok
  obtain ⟨_, hcreator, _⟩ := bind_ok.1 hok
  exact h.not_creator hhomed hactor hother (creator_ok.1 hcreator)

theorem Foreign.accepted_iff (h : Foreign db actor_id document_id document) (hhomed : Homed db)
    (hworkflow : Workflow document) {op : Operation} :
    (∃ db', perform db actor_id document_id op = .ok db') ↔ Forces db actor_id document op := by
  have hdocument : _fetch_required_approval_document db document_id = .ok document := by
    apply fetch_required_ok.2 ⟨h.row, ?_⟩
    have hcreator := hhomed.creators document_id document h.row
    unfold Directory.companyOf at hcreator
    rw [Option.map_eq_some_iff] at hcreator
    obtain ⟨user, huser, _⟩ := hcreator
    rw [huser]
    rfl
  cases op with
  | get started | audit_logs started | attachment attachment_id started
  | signature line_id started =>
    constructor
    · rintro ⟨db', hok⟩
      obtain ⟨value, hok⟩ := map_const_ok hok
      exact (h.not_reads hok).elim
    · rintro ⟨_, _, _, hop | hop, _⟩ <;> cases hop
  | preview attachment_id started detected =>
    constructor
    · rintro ⟨db', hok⟩
      obtain ⟨value, hok⟩ := map_const_ok hok
      obtain ⟨key, hattachment, _⟩ := bind_ok.1 hok
      exact (h.not_reads hattachment).elim
    · rintro ⟨_, _, _, hop | hop, _⟩ <;> cases hop
  | read now started =>
    constructor
    · rintro ⟨db', hok⟩
      exact (h.not_reads hok).elim
    · rintro ⟨_, _, _, hop | hop, _⟩ <;> cases hop
  | update | submit | withdraw | rework | delete | restore | permanently_delete =>
    constructor
    · rintro ⟨db', hok⟩
      exact (h.not_owns hhomed hok).elim
    · rintro ⟨_, _, _, hop | hop, _⟩ <;> cases hop
  | approve | reject =>
    constructor
    · rintro ⟨db', hok⟩
      exact (h.not_decides hhomed hok).elim
    · rintro ⟨_, _, _, hop | hop, _⟩ <;> cases hop
  | force_approve reason now started =>
    constructor
    · intro hok
      exact ⟨reason, now, started, Or.inl rfl, (forced_accepted_iff hworkflow hdocument).1 hok⟩
    · rintro ⟨_, _, _, hop | hop, hforced⟩
      · cases hop
        exact (forced_accepted_iff hworkflow hdocument).2 hforced
      · cases hop
  | force_reject reason now started =>
    constructor
    · intro hok
      exact ⟨reason, now, started, Or.inr rfl, (forced_accepted_iff hworkflow hdocument).1 hok⟩
    · rintro ⟨_, _, _, hop | hop, hforced⟩
      · cases hop
      · cases hop
        exact (forced_accepted_iff hworkflow hdocument).2 hforced

/-- Ana, of the first company, has submitted a document to Bo. -/
def submittedRun : Option World := machine.run emptyWorld
  [.create "ana" "doc" sampleIds (plainPayload ["bo"]) 1, .submit "ana" "doc" 2]

theorem submittedRun_reachable : machine.Reachable (submittedRun.get (by decide)) :=
  Machine.reachable_of_run start_emptyWorld (Option.some_get _).symm

/-- Eve works in the second company. -/
theorem eve_is_foreign : Foreign (submittedRun.get (by decide)).db "eve" "doc"
    (((submittedRun.get (by decide)).db.documents.rows "doc").get (by decide)) where
  row := (Option.some_get _).symm
  company := ⟨"second", by decide, by decide⟩

end moaworks.approvals
