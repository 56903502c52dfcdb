-- What each accepted operation on an approval does to its document, and the
-- machine of all operations.
import MoaWorks.ApprovalVisibility
import MoaWorks.Lib.Machine

namespace moaworks.approvals

open approval_delegations (Date Delegation _seoul_today)
open directory_store (AuthUserSummary Directory Error)
open Raise (require found bind_ok require_ok found_ok)

variable {db db' : Db} {actor : AuthUserSummary} {actor_id document_id reason : String}
  {document document' : Document} {today : Date} {started now : Time} {accepted forced : Bool}
  {payload : Payload} {ids : NewIds}

/-! ## One document -/

/-- The actor may decide the line: as its approver, or as a deputy by a
delegation that is in force. -/
def Entitled (db : Db) (actor : AuthUserSummary) (today : Date) (line : Line)
    (delegation_id : Option String) : Prop :=
  (line.approver_user_id = actor.userId ∧ delegation_id = none) ∨
    ∃ id, delegation_id = some id ∧
      id ∈ delegated db actor.companyId line.approver_user_id actor.userId today

/-- The ways in which an accepted operation changes a document. -/
inductive Changes (db : Db) (actor : AuthUserSummary) (document : Document) : Document → Prop
  | rewrites (payload : Payload) (now : Time) (hcreator : document.creator_user_id = actor.userId)
      (hstatus : document.status = .draft) : Changes db actor document (rewritten document payload now)
  | submits (first : Line) (now : Time) (hcreator : document.creator_user_id = actor.userId)
      (hstatus : document.status = .draft) (hfirst : document.lines.head? = some first) :
      Changes db actor document (submitted document actor first now)
  | withdraws (now : Time) (hcreator : document.creator_user_id = actor.userId)
      (hstatus : document.status = .submitted) : Changes db actor document (withdrawn document now)
  | redrafts (now : Time) (hcreator : document.creator_user_id = actor.userId)
      (hstatus : document.status = .rejected ∨ document.status = .withdrawn) :
      Changes db actor document (redrafted document now)
  | forces (accepted : Bool) (reason : String) (now : Time) (hstatus : document.status = .submitted)
      (hpending : ∃ line ∈ document.lines, line.status = .pending) :
      Changes db actor document (if accepted then force_approved document reason actor now
        else force_rejected document reason actor now)
  | decides (accepted : Bool) (target : Line) (delegation_id : Option String) (today : Date)
      (reason : String) (now : Time) (signature : Signature) (hstatus : document.status = .submitted)
      (htarget : target ∈ document.lines)
      (hpending : target.pendingAt document.current_line_index = true)
      (hright : Entitled db actor today target delegation_id) :
      Changes db actor document (if accepted
        then line_approved document target reason actor now signature delegation_id
        else line_rejected document target reason actor now delegation_id)

/-! ## Accepted operations -/

theorem creator_ok {u : Unit} : _assert_creator actor document = .ok u ↔
    document.creator_user_id = actor.userId := by
  unfold _assert_creator
  exact require_ok

theorem status_ok {allowed : List ApprovalStatus} {label : String} {u : Unit} :
    _assert_document_status document allowed label = .ok u ↔ document.status ∈ allowed := by
  unfold _assert_document_status
  exact require_ok

/-- What a saved operation has checked and changed. -/
structure Saved (db : Db) (actor_id document_id : String) (db' : Db) (actor : AuthUserSummary)
    (document document' : Document) : Prop where
  known : db.directory._fetch_actor_summary actor_id = .ok actor
  found : _fetch_required_approval_document db document_id = .ok document
  saved : ∃ event text, db' = save db actor document_id event document document' text
  changes : Changes db actor document document'

theorem submit_ok (h : submit_approval_document db actor_id document_id now = .ok db') :
    ∃ actor document first, Saved db actor_id document_id db' actor document
      (submitted document actor first now) := by
  unfold submit_approval_document at h
  obtain ⟨actor, hactor, h⟩ := bind_ok.1 h
  obtain ⟨document, hdocument, h⟩ := bind_ok.1 h
  obtain ⟨_, hcreator, h⟩ := bind_ok.1 h
  obtain ⟨_, hstatus, h⟩ := bind_ok.1 h
  obtain ⟨first, hfirst, h⟩ := bind_ok.1 h
  obtain ⟨_, _, h⟩ := bind_ok.1 h
  cases h
  rw [status_ok, List.mem_singleton] at hstatus
  exact ⟨actor, document, first, hactor, hdocument, ⟨_, _, rfl⟩,
    .submits first now (creator_ok.1 hcreator) hstatus (found_ok.1 hfirst)⟩

theorem withdraw_ok (h : withdraw_approval_document db actor_id document_id now = .ok db') :
    ∃ actor document, Saved db actor_id document_id db' actor document (withdrawn document now) := by
  unfold withdraw_approval_document at h
  obtain ⟨actor, hactor, h⟩ := bind_ok.1 h
  obtain ⟨document, hdocument, h⟩ := bind_ok.1 h
  obtain ⟨_, hcreator, h⟩ := bind_ok.1 h
  obtain ⟨_, hstatus, h⟩ := bind_ok.1 h
  cases h
  rw [status_ok, List.mem_singleton] at hstatus
  exact ⟨actor, document, hactor, hdocument, ⟨_, _, rfl⟩,
    .withdraws now (creator_ok.1 hcreator) hstatus⟩

theorem rework_ok (h : rework_approval_document db actor_id document_id now = .ok db') :
    ∃ actor document, Saved db actor_id document_id db' actor document (redrafted document now) := by
  unfold rework_approval_document at h
  obtain ⟨actor, hactor, h⟩ := bind_ok.1 h
  obtain ⟨document, hdocument, h⟩ := bind_ok.1 h
  obtain ⟨_, hcreator, h⟩ := bind_ok.1 h
  obtain ⟨_, hstatus, h⟩ := bind_ok.1 h
  cases h
  rw [status_ok, List.mem_cons, List.mem_singleton] at hstatus
  exact ⟨actor, document, hactor, hdocument, ⟨_, _, rfl⟩,
    .redrafts now (creator_ok.1 hcreator) hstatus⟩

/-- The document after a decision. -/
inductive Decided (db : Db) (actor : AuthUserSummary) (document : Document) (today : Date)
    (accepted forced : Bool) : Document → Prop
  | forces (reason : String) (now : Time) (hforced : forced = true)
      (hpending : ∃ line ∈ document.lines, line.status = .pending) :
      Decided db actor document today accepted forced (if accepted
        then force_approved document reason actor now else force_rejected document reason actor now)
  | decides (target : Line) (delegation_id : Option String) (reason : String) (now : Time)
      (signature : Signature) (hforced : forced = false) (htarget : target ∈ document.lines)
      (hpending : target.pendingAt document.current_line_index = true)
      (hright : Entitled db actor today target delegation_id) :
      Decided db actor document today accepted forced (if accepted
        then line_approved document target reason actor now signature delegation_id
        else line_rejected document target reason actor now delegation_id)

theorem Decided.changes (hstatus : document.status = .submitted)
    (h : Decided db actor document today accepted forced document') :
    Changes db actor document document' := by
  cases h with
  | forces reason now _ hpending => exact .forces accepted reason now hstatus hpending
  | decides target delegation_id reason now signature _ htarget hpending hright =>
    exact .decides accepted target delegation_id today reason now signature hstatus htarget hpending
      hright

theorem decision_ok
    (h : _process_approval_decision db actor_id document_id reason accepted forced now started =
      .ok db') :
    ∃ actor document document', Saved db actor_id document_id db' actor document document' ∧
      document.status = .submitted ∧ Text.strip reason ≠ "" ∧
      Decided db actor document (_seoul_today started) accepted forced document' := by
  unfold _process_approval_decision at h
  obtain ⟨_, hreason, h⟩ := bind_ok.1 h
  obtain ⟨actor, hactor, h⟩ := bind_ok.1 h
  obtain ⟨document, hdocument, h⟩ := bind_ok.1 h
  obtain ⟨_, hstatus, h⟩ := bind_ok.1 h
  obtain ⟨_, _, h⟩ := bind_ok.1 h
  rw [status_ok, List.mem_singleton] at hstatus
  have hdecided : ∃ document', (∃ event text, db' = save db actor document_id event document
      document' text) ∧ Decided db actor document (_seoul_today started) accepted forced document' := by
    cases forced with
    | true =>
      rw [if_pos rfl] at h
      obtain ⟨_, hpending, h⟩ := bind_ok.1 h
      refine ⟨_, ?_, .forces (Text.strip reason) now rfl (require_ok.1 hpending)⟩
      cases accepted <;> cases h <;> exact ⟨_, _, rfl⟩
    | false =>
      rw [if_neg (by decide)] at h
      obtain ⟨target, htarget, h⟩ := bind_ok.1 h
      obtain ⟨hline, hpending, hright⟩ := target_line_ok htarget
      refine ⟨_, ?_, .decides target.1 target.2 (Text.strip reason) now (signature_snapshot db actor)
        rfl hline hpending hright⟩
      cases accepted <;> cases h <;> exact ⟨_, _, rfl⟩
  obtain ⟨document', hsaved, hdecided⟩ := hdecided
  exact ⟨actor, document, document', ⟨hactor, hdocument, hsaved, hdecided.changes hstatus⟩, hstatus,
    require_ok.1 hreason, hdecided⟩

/-- Another database with the same people, documents, deletions and delegations. -/
structure Alike (db db' : Db) : Prop where
  directory : db'.directory = db.directory
  documents : db'.documents = db.documents
  deletions : db'.deletions = db.deletions
  delegations : db'.delegations = db.delegations

theorem replace_audiences_ok {references viewers : List String}
    (h : _replace_approval_audiences db actor document_id references viewers now = .ok db') :
    ∃ audiences, db' = { db with audiences := audiences } := by
  unfold _replace_approval_audiences at h
  obtain ⟨_, _, h⟩ := bind_ok.1 h
  obtain ⟨_, _, h⟩ := bind_ok.1 h
  obtain ⟨_, _, h⟩ := bind_ok.1 h
  obtain ⟨_, _, h⟩ := bind_ok.1 h
  cases h
  exact ⟨_, rfl⟩

theorem attach_ok {id upload_id : String} {row : Upload}
    (h : attach db document_id id upload_id row now = .ok db') :
    ∃ attachments uploads, db' = { db with attachments := attachments, uploads := uploads } := by
  unfold attach at h
  obtain ⟨_, _, h⟩ := bind_ok.1 h
  obtain ⟨_, _, h⟩ := bind_ok.1 h
  cases h
  exact ⟨_, _, rfl⟩

/-- The loop over the attachments of a request. -/
theorem attach_all_ok {entries : List ((AttachmentMeta × Upload) × Nat)}
    (h : entries.foldlM (fun db entry =>
      attach db document_id (ids.attachment entry.2) entry.1.1.uploadId entry.1.2 now) db = .ok db') :
    ∃ attachments uploads, db' = { db with attachments := attachments, uploads := uploads } := by
  induction entries generalizing db with
  | nil =>
    cases h
    exact ⟨_, _, rfl⟩
  | cons entry entries ih =>
    rw [List.foldlM_cons] at h
    obtain ⟨next, hnext, h⟩ := bind_ok.1 h
    obtain ⟨attachments, uploads, rfl⟩ := attach_ok hnext
    obtain ⟨attachments', uploads', rfl⟩ := ih h
    exact ⟨attachments', uploads', rfl⟩

theorem consume_uploads_ok {attachments : List AttachmentMeta} {retained_count retained_size : Nat}
    (h : _consume_approval_uploads db ids actor attachments document_id now retained_count
      retained_size = .ok db') :
    ∃ attachments uploads, db' = { db with attachments := attachments, uploads := uploads } := by
  unfold _consume_approval_uploads at h
  obtain ⟨_, _, h⟩ := bind_ok.1 h
  obtain ⟨_, _, h⟩ := bind_ok.1 h
  obtain ⟨_, _, h⟩ := bind_ok.1 h
  exact attach_all_ok h

theorem approvers_ok {user_ids : List String} {approvers : List Approver}
    (h : _validate_approval_approvers db actor user_ids = .ok approvers) :
    ∀ approver ∈ approvers, db.directory.companyOf approver.user_id = some actor.companyId := by
  unfold _validate_approval_approvers at h
  obtain ⟨_, _, h⟩ := bind_ok.1 h
  obtain ⟨_, _, h⟩ := bind_ok.1 h
  obtain ⟨_, hmembers, h⟩ := bind_ok.1 h
  cases h
  intro approver happrover
  obtain ⟨user_id, hmem, rfl⟩ := List.mem_map.1 happrover
  exact Directory.active_member_company (require_ok.1 hmembers user_id hmem)

/-- The tables that a creation or an update leaves, with the one document that it writes. -/
structure Written (db : Db) (document_id : String) (document : Document) (db' : Db) : Prop where
  directory : db'.directory = db.directory
  documents : db'.documents = db.documents.set document_id document
  deletions : db'.deletions = db.deletions
  delegations : db'.delegations = db.delegations
  preferences : db'.preferences = db.preferences
  stored : db'.stored = db.stored

theorem create_ok (h : create_approval_document db actor_id document_id ids payload now = .ok db') :
    ∃ actor approvers, db.directory._fetch_actor_summary actor_id = .ok actor ∧
      (∀ approver ∈ approvers, db.directory.companyOf approver.user_id = some actor.companyId) ∧
      db.documents.rows document_id = none ∧
      Written db document_id (new_document ids actor payload approvers now) db' := by
  unfold create_approval_document at h
  obtain ⟨actor, hactor, h⟩ := bind_ok.1 h
  obtain ⟨approvers, happrovers, h⟩ := bind_ok.1 h
  obtain ⟨_, hnew, h⟩ := bind_ok.1 h
  obtain ⟨db₁, haudiences, h⟩ := bind_ok.1 h
  obtain ⟨db₂, huploads, h⟩ := bind_ok.1 h
  cases h
  obtain ⟨audiences, rfl⟩ := replace_audiences_ok haudiences
  obtain ⟨attachments, uploads, rfl⟩ := consume_uploads_ok huploads
  exact ⟨actor, approvers, hactor, approvers_ok happrovers, require_ok.1 hnew,
    rfl, rfl, rfl, rfl, rfl, rfl⟩

theorem update_ok (h : update_approval_document db actor_id document_id ids payload now = .ok db') :
    ∃ actor document, db.directory._fetch_actor_summary actor_id = .ok actor ∧
      _fetch_required_approval_document db document_id = .ok document ∧
      document.creator_user_id = actor.userId ∧ document.status = .draft ∧
      Written db document_id (rewritten document payload now) db' := by
  unfold update_approval_document at h
  obtain ⟨actor, hactor, h⟩ := bind_ok.1 h
  obtain ⟨document, hdocument, h⟩ := bind_ok.1 h
  obtain ⟨_, hcreator, h⟩ := bind_ok.1 h
  obtain ⟨_, hstatus, h⟩ := bind_ok.1 h
  obtain ⟨approvers, _, h⟩ := bind_ok.1 h
  obtain ⟨retained, _, h⟩ := bind_ok.1 h
  obtain ⟨_, _, h⟩ := bind_ok.1 h
  obtain ⟨_, _, h⟩ := bind_ok.1 h
  obtain ⟨db₁, haudiences, h⟩ := bind_ok.1 h
  obtain ⟨db₂, huploads, h⟩ := bind_ok.1 h
  cases h
  rw [status_ok, List.mem_singleton] at hstatus
  obtain ⟨audiences, rfl⟩ := replace_audiences_ok haudiences
  obtain ⟨attachments, uploads, rfl⟩ := consume_uploads_ok huploads
  exact ⟨actor, document, hactor, hdocument, creator_ok.1 hcreator, hstatus,
    rfl, rfl, rfl, rfl, rfl, rfl⟩

theorem read_ok (h : mark_approval_document_read db actor_id document_id now started = .ok db') :
    (∃ audiences audit_logs, db' = { db with audiences := audiences, audit_logs := audit_logs }) ∧
      ∃ actor document, db.directory._fetch_actor_summary actor_id = .ok actor ∧
      _fetch_required_approval_document db document_id = .ok document ∧
      _assert_approval_visible db actor (_seoul_today started) document_id document = .ok () := by
  unfold mark_approval_document_read at h
  obtain ⟨actor, hactor, h⟩ := bind_ok.1 h
  obtain ⟨document, hdocument, h⟩ := bind_ok.1 h
  obtain ⟨_, hvisible, h⟩ := bind_ok.1 h
  refine ⟨?_, actor, document, hactor, hdocument, hvisible⟩
  split at h
  · cases h
    exact ⟨_, _, rfl⟩
  · cases h
    exact ⟨_, _, rfl⟩

theorem trash_ok {state : TrashState} (h : _set_approval_deletion db actor_id document_id state now = .ok db') :
    ∃ actor document, db.directory._fetch_actor_summary actor_id = .ok actor ∧
      _fetch_required_approval_document db document_id = .ok document ∧
      document.creator_user_id = actor.userId ∧
      set_deletion db.deletions (document_id, actor.userId) state now = .ok db'.deletions ∧
      ∃ audit_logs, db' = { db with deletions := db'.deletions, audit_logs := audit_logs } := by
  unfold _set_approval_deletion at h
  obtain ⟨actor, hactor, h⟩ := bind_ok.1 h
  obtain ⟨document, hdocument, h⟩ := bind_ok.1 h
  obtain ⟨_, hcreator, h⟩ := bind_ok.1 h
  obtain ⟨_, _, h⟩ := bind_ok.1 h
  obtain ⟨deletions, hdeletions, h⟩ := bind_ok.1 h
  cases h
  exact ⟨actor, document, hactor, hdocument, creator_ok.1 hcreator, hdeletions, _, rfl⟩

/-! ## The machine -/

/-- A change of one line: which, by whom, and by which right. -/
structure Decision where
  line_id : String
  sequence : Nat
  approver_user_id : String
  actor_id : String
  forced : Bool
  date : Date
  delegation : Option Delegation
  deriving DecidableEq, Repr

/-- The tables, and the decisions of the current round of each document. -/
structure World where
  db : Db
  decisions : String → List Decision

inductive Action
  | create (actor_id document_id : String) (ids : NewIds) (payload : Payload) (now : Time)
  | update (actor_id document_id : String) (ids : NewIds) (payload : Payload) (now : Time)
  | submit (actor_id document_id : String) (now : Time)
  | decide (actor_id document_id reason : String) (accepted forced : Bool) (now started : Time)
  | withdraw (actor_id document_id : String) (now : Time)
  | rework (actor_id document_id : String) (now : Time)
  | read (actor_id document_id : String) (now started : Time)
  | trash (actor_id document_id : String) (state : TrashState) (now : Time)
  /-- A staged upload, with its file. -/
  | stage (upload_id : String) (upload : Upload)
  /-- A committed call on the delegations. -/
  | delegate (delegation_id : String) (row : Delegation)
  | prefer (user_id : String) (preference : Preference)
  | administer (change : Directory.Change)

/-- The lines that differ from all lines of the document before. -/
def changed (before after : Document) : List Line :=
  after.lines.filter (fun line => decide (line ∉ before.lines))

/-- The decision that has left the line as it is. -/
def decisionOf (db : Db) (actor_id : String) (forced : Bool) (date : Date) (line : Line) : Decision :=
  ⟨line.id, line.sequence, line.approver_user_id, actor_id, forced, date,
    line.delegation_id.bind db.delegations.rows⟩

def decisionsOf (db db' : Db) (document_id actor_id : String) (forced : Bool) (date : Date) :
    List Decision :=
  match db.documents.rows document_id, db'.documents.rows document_id with
  | some before, some after => (changed before after).map (decisionOf db actor_id forced date)
  | _, _ => []

namespace World

/-- The state after an operation that leaves the decisions alone. -/
def commit (w : World) (result : Except Error Db) : Option World :=
  result.toOption.map (fun db => { w with db := db })

def note (w : World) (document_id : String) (decisions : List Decision) : World :=
  { w with decisions := fun id => if id = document_id then decisions else w.decisions id }

end World

def step (w : World) : Action → Option World
  | .create actor_id document_id ids payload now =>
    w.commit (create_approval_document w.db actor_id document_id ids payload now)
  | .update actor_id document_id ids payload now =>
    w.commit (update_approval_document w.db actor_id document_id ids payload now)
  | .submit actor_id document_id now =>
    -- a new round begins
    (w.commit (submit_approval_document w.db actor_id document_id now)).map
      (fun w' => w'.note document_id [])
  | .decide actor_id document_id reason accepted forced now started =>
    (w.commit (_process_approval_decision w.db actor_id document_id reason accepted forced now
      started)).map (fun w' => w'.note document_id (w.decisions document_id ++
        decisionsOf w.db w'.db document_id actor_id forced (_seoul_today started)))
  | .withdraw actor_id document_id now =>
    w.commit (withdraw_approval_document w.db actor_id document_id now)
  | .rework actor_id document_id now => w.commit (rework_approval_document w.db actor_id document_id now)
  | .read actor_id document_id now started =>
    w.commit (mark_approval_document_read w.db actor_id document_id now started)
  | .trash actor_id document_id state now =>
    w.commit (_set_approval_deletion w.db actor_id document_id state now)
  | .stage upload_id upload =>
    some { w with db := { w.db with
      uploads := w.db.uploads.set upload_id upload
      stored := fun key => w.db.stored key || decide (key = upload.storage_key) } }
  | .delegate delegation_id row =>
    if w.db.directory.companyOf row.owner_user_id = some row.company_id then
      some { w with db := { w.db with delegations := w.db.delegations.set delegation_id row } }
    else none
  | .prefer user_id preference =>
    some { w with db := { w.db with preferences := w.db.preferences.set user_id preference } }
  | .administer change =>
    (w.db.directory.apply change).map (fun directory => { w with db := { w.db with directory := directory } })

/-- A start: no document and no delegation yet. -/
structure Start (w : World) : Prop where
  documents : w.db.documents = Table.empty
  delegations : w.db.delegations = Table.empty
  decisions : ∀ document_id, w.decisions document_id = []

def machine : Machine World Action where
  Start := Start
  step := step

/-! ## What one step does -/

variable {w w' : World}

theorem commit_eq_some {result : Except Error Db} (h : w.commit result = some w') :
    ∃ db', result = .ok db' ∧ w' = { w with db := db' } := by
  unfold World.commit at h
  rw [Option.map_eq_some_iff] at h
  obtain ⟨db', hdb, rfl⟩ := h
  exact ⟨db', Raise.ok_of_toOption hdb, rfl⟩

/-- The steps, by the tables that they change. -/
inductive Does (w : World) (a : Action) (w' : World) : Prop
  | creates (actor_id document_id : String) (actor : AuthUserSummary) (ids : NewIds)
      (payload : Payload) (approvers : List Approver) (now : Time)
      (hactor : w.db.directory._fetch_actor_summary actor_id = .ok actor)
      (happrovers : ∀ approver ∈ approvers,
        w.db.directory.companyOf approver.user_id = some actor.companyId)
      (hnew : w.db.documents.rows document_id = none)
      (hwritten : Written w.db document_id (new_document ids actor payload approvers now) w'.db)
      (hdecisions : w'.decisions = w.decisions)
  | writes (document_id : String) (actor : AuthUserSummary) (document document' : Document)
      (hrow : w.db.documents.rows document_id = some document)
      (hchanges : Changes w.db actor document document') (hclosed : document'.status ≠ .submitted)
      (hwritten : Written w.db document_id document' w'.db) (hdecisions : w'.decisions = w.decisions)
  | submits (document_id : String) (actor : AuthUserSummary) (document : Document) (first : Line)
      (now : Time) (hrow : w.db.documents.rows document_id = some document)
      (hchanges : Changes w.db actor document (submitted document actor first now))
      (hwritten : Written w.db document_id (submitted document actor first now) w'.db)
      (hdecisions : w'.decisions = (w.note document_id []).decisions)
  | decides (actor_id document_id : String) (actor : AuthUserSummary) (document document' : Document)
      (accepted forced : Bool) (started : Time)
      (hactor : w.db.directory._fetch_actor_summary actor_id = .ok actor)
      (hrow : w.db.documents.rows document_id = some document) (hstatus : document.status = .submitted)
      (hdecided : Decided w.db actor document (_seoul_today started) accepted forced document')
      (hwritten : Written w.db document_id document' w'.db)
      (hdecisions : w'.decisions = (w.note document_id (w.decisions document_id ++
        decisionsOf w.db w'.db document_id actor_id forced (_seoul_today started))).decisions)
  | trashes (actor_id document_id : String) (state : TrashState) (now : Time)
      (ha : a = .trash actor_id document_id state now)
      (hdeletions : set_deletion w.db.deletions (document_id, actor_id) state now =
        .ok w'.db.deletions)
      (hdirectory : w'.db.directory = w.db.directory) (hdocuments : w'.db.documents = w.db.documents)
      (hdelegations : w'.db.delegations = w.db.delegations) (hdecisions : w'.decisions = w.decisions)
  | delegates (delegation_id : String) (row : Delegation)
      (hhome : w.db.directory.companyOf row.owner_user_id = some row.company_id)
      (hw : w' = { w with db := { w.db with
        delegations := w.db.delegations.set delegation_id row } })
  | administers (change : Directory.Change) (directory : Directory)
      (happly : w.db.directory.apply change = some directory)
      (hw : w' = { w with db := { w.db with directory := directory } })
  | others (halike : Alike w.db w'.db) (hdecisions : w'.decisions = w.decisions)

theorem Saved.row (h : Saved db actor_id document_id db' actor document document') :
    db.documents.rows document_id = some document :=
  (fetch_required_ok.1 h.found).1

theorem Saved.written (h : Saved db actor_id document_id db' actor document document') :
    Written db document_id document' db' := by
  obtain ⟨event, text, rfl⟩ := h.saved
  exact ⟨rfl, rfl, rfl, rfl, rfl, rfl⟩

theorem step_does {a : Action} (h : step w a = some w') : Does w a w' := by
  cases a with
  | create actor_id document_id ids payload now =>
    obtain ⟨db', hok, rfl⟩ := commit_eq_some h
    obtain ⟨actor, approvers, hactor, happrovers, hnew, hwritten⟩ := create_ok hok
    exact .creates actor_id document_id actor ids payload approvers now hactor happrovers hnew
      hwritten rfl
  | update actor_id document_id ids payload now =>
    obtain ⟨db', hok, rfl⟩ := commit_eq_some h
    obtain ⟨actor, document, _, hfound, hcreator, hstatus, hwritten⟩ := update_ok hok
    have hclosed : (rewritten document payload now).status ≠ .submitted := by
      unfold rewritten
      rw [hstatus]
      simp
    exact .writes document_id actor document _ (fetch_required_ok.1 hfound).1
      (.rewrites payload now hcreator hstatus) hclosed hwritten rfl
  | submit actor_id document_id now =>
    obtain ⟨w₁, hcommit, rfl⟩ := Option.map_eq_some_iff.1 h
    obtain ⟨db', hok, rfl⟩ := commit_eq_some hcommit
    obtain ⟨actor, document, first, hsaved⟩ := submit_ok hok
    exact .submits document_id actor document first now hsaved.row hsaved.changes hsaved.written rfl
  | decide actor_id document_id reason accepted forced now started =>
    obtain ⟨w₁, hcommit, rfl⟩ := Option.map_eq_some_iff.1 h
    obtain ⟨db', hok, rfl⟩ := commit_eq_some hcommit
    obtain ⟨actor, document, document', hsaved, hstatus, _, hdecided⟩ := decision_ok hok
    exact .decides actor_id document_id actor document document' accepted forced started hsaved.known
      hsaved.row hstatus hdecided hsaved.written rfl
  | withdraw actor_id document_id now =>
    obtain ⟨db', hok, rfl⟩ := commit_eq_some h
    obtain ⟨actor, document, hsaved⟩ := withdraw_ok hok
    exact .writes document_id actor document _ hsaved.row hsaved.changes (by simp [withdrawn])
      hsaved.written rfl
  | rework actor_id document_id now =>
    obtain ⟨db', hok, rfl⟩ := commit_eq_some h
    obtain ⟨actor, document, hsaved⟩ := rework_ok hok
    exact .writes document_id actor document _ hsaved.row hsaved.changes (by simp [redrafted])
      hsaved.written rfl
  | read actor_id document_id now started =>
    obtain ⟨db', hok, rfl⟩ := commit_eq_some h
    obtain ⟨⟨audiences, audit_logs, rfl⟩, _⟩ := read_ok hok
    exact .others ⟨rfl, rfl, rfl, rfl⟩ rfl
  | trash actor_id document_id state now =>
    obtain ⟨db', hok, rfl⟩ := commit_eq_some h
    obtain ⟨actor, document, hactor, _, _, hdeletions, audit_logs, hdb⟩ := trash_ok hok
    rw [(Directory.fetch_actor_summary_ok hactor).1] at hdeletions
    refine .trashes actor_id document_id state now rfl hdeletions ?_ ?_ ?_ rfl <;> rw [hdb]
  | stage upload_id upload =>
    cases h
    exact .others ⟨rfl, rfl, rfl, rfl⟩ rfl
  | delegate delegation_id row =>
    dsimp only [step] at h
    split_ifs at h with hhome
    cases h
    exact .delegates delegation_id row hhome rfl
  | prefer user_id preference =>
    cases h
    exact .others ⟨rfl, rfl, rfl, rfl⟩ rfl
  | administer change =>
    obtain ⟨directory, happly, rfl⟩ := Option.map_eq_some_iff.1 h
    exact .administers change directory happly rfl

/-- No document yet, in the two companies. -/
def emptyWorld : World := ⟨twoCompanies, fun _ => []⟩

theorem start_emptyWorld : machine.Start emptyWorld := ⟨rfl, rfl, fun _ => rfl⟩

end moaworks.approvals
