-- The approvals: documents with their lines, what an actor sees of them and
-- what the actor may decide.
import MoaWorks.Delegations
import MoaWorks.Lib.Raise
import MoaWorks.Lib.Text
import Mathlib.Data.Finset.Sort
import Mathlib.Data.List.MinMax
import Mathlib.Data.String.Basic

namespace moaworks.approvals

open approval_delegations (Date Delegation Delegations _seoul_today)
open directory_store (AuthUserSummary Directory Error)
open Raise (require found)

/-! ## The tables -/

inductive ApprovalStatus
  | draft
  | submitted
  | approved
  | rejected
  | withdrawn
  deriving DecidableEq, Repr

def ApprovalStatus.text : ApprovalStatus → String
  | draft => "draft"
  | submitted => "submitted"
  | approved => "approved"
  | rejected => "rejected"
  | withdrawn => "withdrawn"

inductive LineStatus
  | pending
  | approved
  | rejected
  deriving DecidableEq, Repr

/-- The four columns of a signature, all NULL without one. -/
structure Signature where
  storage_key : Option String
  file_name : Option String
  content_type : Option String
  size_bytes : Option Nat
  deriving DecidableEq, Repr

def Signature.none : Signature := ⟨.none, .none, .none, .none⟩

/-- A row of `approval_lines`, without its document. -/
structure Line where
  id : String
  approver_user_id : String
  approver_user_name : String
  sequence : Nat
  status : LineStatus
  comment : Option String
  decided_by_user_id : Option String
  decided_at : Option Time
  signature : Signature
  delegation_id : Option String
  deriving DecidableEq, Repr

/-- A row of `approval_documents` with its rows of `approval_lines`, which the
primary key and the index `idx_approval_lines_document_sequence` keep apart. -/
structure Document where
  company_id : String
  title : String
  content : String
  creator_user_id : String
  creator_department_id : Option String
  urgent : Bool
  shared_with_department : Bool
  status : ApprovalStatus
  current_line_index : Option Nat
  submitted_by_user_id : Option String
  submitted_at : Option Time
  created_at : Time
  updated_at : Time
  lines : List Line
  keyed : (lines.map (·.id)).Nodup
  ordered : lines.Pairwise (fun a b => a.sequence < b.sequence)
  deriving DecidableEq

/-- UPDATE of the lines. No statement changes an id or a sequence. -/
def Document.mapLines (document : Document) (f : Line → Line)
    (hf : ∀ line, (f line).id = line.id ∧ (f line).sequence = line.sequence) : Document :=
  { document with
    lines := document.lines.map f
    keyed := by
      have hid : (fun line : Line => line.id) ∘ f = (fun line => line.id) :=
        funext (fun line => (hf line).1)
      rw [List.map_map, hid]
      exact document.keyed
    ordered := by
      rw [List.pairwise_map]
      apply document.ordered.imp
      intro a b hab
      rw [(hf a).2, (hf b).2]
      exact hab }

inductive AudienceType
  | reference
  | viewer
  deriving DecidableEq, Repr

def AudienceType.text : AudienceType → String
  | reference => "reference"
  | viewer => "viewer"

structure Audience where
  audience_type : AudienceType
  read_at : Option Time
  created_at : Time
  deriving DecidableEq, Repr

/-- A row of `approval_document_deletions`. -/
structure Deletion where
  deleted_at : Time
  permanently_deleted_at : Option Time
  deriving DecidableEq, Repr

structure Attachment where
  document_id : String
  file_name : String
  content_type : String
  size_bytes : Nat
  storage_key : String
  created_at : Time
  deriving DecidableEq, Repr

structure Upload where
  company_id : String
  owner_user_id : String
  file_name : String
  content_type : String
  size_bytes : Nat
  storage_key : String
  expires_at : Time
  deriving DecidableEq, Repr

/-- A row of `approval_basic_preferences`. -/
structure Preference where
  company_id : String
  writing_method : String
  attachment_image_display : String
  signature : Signature
  version : Nat
  deriving DecidableEq, Repr

structure AuditLog where
  company_id : String
  actor_user_id : String
  target_id : String
  event : String
  status_before : Option String
  status_after : Option String
  reason : Option String
  deriving DecidableEq, Repr

/-- The tables, with the audiences and the deletions under document and user,
and the storage keys whose file is there. -/
structure Db where
  directory : Directory
  documents : Table String Document
  audiences : Table (String × String) Audience
  deletions : Table (String × String) Deletion
  delegations : Delegations
  preferences : Table String Preference
  attachments : Table String Attachment
  uploads : Table String Upload
  audit_logs : List AuditLog
  stored : String → Bool

/-! ## Reading a document -/

variable (db : Db)

/-- The join with the creator finds no row when there is no such user. -/
def _fetch_required_approval_document (document_id : String) : Except Error Document :=
  found ((db.documents.rows document_id).filter
      (fun document => (db.directory.users.rows document.creator_user_id).isSome))
    (.not_found "대상 결재 문서를 찾을 수 없습니다.")

def _can_view_all_approvals (actor : AuthUserSummary) : Bool :=
  decide ("admin:*" ∈ actor.permissions) || decide ("approval:force" ∈ actor.permissions)

/-- The delegations of an owner to a delegate that are in force on a date. -/
def delegated (company_id owner_user_id delegate_user_id : String) (today : Date) : Finset String :=
  db.delegations.select (fun _ row => decide (row.company_id = company_id) &&
    decide (row.owner_user_id = owner_user_id) &&
    decide (row.delegate_user_id = delegate_user_id) && row.covers today)

/-- The line is the pending line of the index; a NULL index is no line's. -/
def Line.pendingAt (line : Line) (index : Option Nat) : Bool :=
  sqlEq (some line.sequence) index && decide (line.status = .pending)

/-- The WHERE clause of `_fetch_visible_approval_rows` on one document. -/
def listed (actor : AuthUserSummary) (today : Date) (document_id : String) (document : Document) : Bool :=
  (db.directory.users.rows document.creator_user_id).isSome &&
    decide (document.company_id = actor.companyId) &&
    decide ((db.deletions.rows (document_id, actor.userId)).bind (·.permanently_deleted_at) = none) &&
    (_can_view_all_approvals actor ||
      decide (document.creator_user_id = actor.userId) ||
      document.lines.any (fun line => decide (line.approver_user_id = actor.userId)) ||
      document.lines.any (fun line => sqlEq line.decided_by_user_id (some actor.userId)) ||
      (db.audiences.rows (document_id, actor.userId)).isSome ||
      (document.shared_with_department && decide (document.status = .approved) &&
        sqlEq document.creator_department_id actor.departmentId) ||
      document.lines.any (fun line => line.pendingAt document.current_line_index &&
        decide (delegated db document.company_id line.approver_user_id actor.userId today).Nonempty))

def _fetch_visible_approval_rows (actor : AuthUserSummary) (today : Date) : Finset String :=
  db.documents.select (listed db actor today)

def invisible : Error := .permission_error "대상 결재 문서에 접근할 수 없습니다."

/-- The last query of `_assert_approval_visible`. -/
def shown (actor : AuthUserSummary) (today : Date) (document_id : String) (document : Document) : Bool :=
  (db.audiences.rows (document_id, actor.userId)).isSome ||
    document.lines.any (fun line =>
      decide (line.approver_user_id = actor.userId) ||
      sqlEq line.decided_by_user_id (some actor.userId) ||
      (line.pendingAt document.current_line_index &&
        decide (delegated db actor.companyId line.approver_user_id actor.userId today).Nonempty))

def _assert_approval_visible (actor : AuthUserSummary) (today : Date) (document_id : String)
    (document : Document) : Except Error Unit := do
  require (document.company_id = actor.companyId) invisible
  require (¬ (db.deletions.rows (document_id, actor.userId)).any
    (fun deletion => deletion.permanently_deleted_at.isSome)) invisible
  if _can_view_all_approvals actor ∨ document.creator_user_id = actor.userId then
    return
  if document.shared_with_department ∧ document.status = .approved ∧
      document.creator_department_id = actor.departmentId then
    return
  require (shown db actor today document_id document) invisible

/-! ## The right to act -/

/-- A line that the actor may decide, as approver or as deputy. -/
def Line.decidable (line : Line) (company_id : String) (actor : AuthUserSummary) (today : Date) : Bool :=
  decide (line.approver_user_id = actor.userId) ||
    decide (delegated db company_id line.approver_user_id actor.userId today).Nonempty

def _can_actor_process_current_line (document : Document) (actor : AuthUserSummary) (today : Date) : Bool :=
  if document.status ≠ .submitted ∨ document.current_line_index = none then false
  else document.lines.any (fun line => line.pendingAt document.current_line_index &&
    line.decidable db actor.companyId actor today)

def _fetch_actor_actionable_document_ids (actor : AuthUserSummary) (today : Date)
    (document_ids : Finset String) : Finset String :=
  db.documents.select (fun id document => decide (id ∈ document_ids) &&
    decide (document.company_id = actor.companyId) && decide (document.status = .submitted) &&
    document.lines.any (fun line => line.pendingAt document.current_line_index &&
      line.decidable db document.company_id actor today))

/-- The part of `ApprovalDocumentResponse` that depends on the actor. -/
structure Response where
  id : String
  canCurrentUserAct : Bool
  deriving DecidableEq, Repr

/-- The order of the rows is left out. -/
def list_approval_documents (actor_id : String) (started : Time) : Except Error (Finset Response) := do
  let actor ← db.directory._fetch_actor_summary actor_id
  let rows := _fetch_visible_approval_rows db actor (_seoul_today started)
  let actionable_ids := _fetch_actor_actionable_document_ids db actor (_seoul_today started) rows
  return rows.image (fun id => ⟨id, decide (id ∈ actionable_ids)⟩)

def get_approval_document (actor_id document_id : String) (started : Time) : Except Error Response := do
  let actor ← db.directory._fetch_actor_summary actor_id
  let document ← _fetch_required_approval_document db document_id
  _assert_approval_visible db actor (_seoul_today started) document_id document
  return ⟨document_id, _can_actor_process_current_line db document actor (_seoul_today started)⟩

/-- The texts of the log, newest last. -/
def get_audit_logs (actor_id target_id : String) (started : Time) : Except Error (List AuditLog) := do
  let actor ← db.directory._fetch_actor_summary actor_id
  let document ← _fetch_required_approval_document db target_id
  _assert_approval_visible db actor (_seoul_today started) target_id document
  return db.audit_logs.filter (fun log => decide (log.company_id = actor.companyId) &&
    decide (log.target_id = target_id))

/-- `ApprovalAttachmentStorage.stored_path` raises when the file is not there. -/
def stored_path (storage_key : String) : Except Error String := do
  require (db.stored storage_key) (.value_error "결재 첨부 파일을 찾을 수 없습니다.")
  return storage_key

def get_approval_attachment (actor_id document_id attachment_id : String) (started : Time) :
    Except Error String := do
  let actor ← db.directory._fetch_actor_summary actor_id
  let document ← _fetch_required_approval_document db document_id
  _assert_approval_visible db actor (_seoul_today started) document_id document
  let row ← found ((db.attachments.rows attachment_id).filter
      (fun row => decide (row.document_id = document_id)))
    (.value_error "대상 결재 첨부를 찾을 수 없습니다.")
  stored_path db row.storage_key

/-- `detected` is what the bytes of the file are taken for. -/
def get_approval_attachment_preview (actor_id document_id attachment_id : String) (started : Time)
    (detected : Option String) : Except Error String := do
  let _ ← get_approval_attachment db actor_id document_id attachment_id started
  found detected (.value_error "미리보기 가능한 이미지 첨부가 아닙니다.")

def get_approval_line_signature (actor_id document_id line_id : String) (started : Time) :
    Except Error String := do
  let actor ← db.directory._fetch_actor_summary actor_id
  let document ← _fetch_required_approval_document db document_id
  _assert_approval_visible db actor (_seoul_today started) document_id document
  let storage_key ← found ((document.lines.find? (fun line => decide (line.id = line_id))).bind
      (fun line => line.signature.storage_key))
    (.value_error "승인 시점의 서명이 없습니다.")
  require (db.stored storage_key) (.value_error "서명 파일을 찾을 수 없습니다.")
  return storage_key

end moaworks.approvals
