-- The operations on approvals, each as one transaction: what it raises, or
-- the tables that it commits.
import MoaWorks.Approvals
import Mathlib

namespace moaworks.approvals

open approval_delegations (Date _seoul_today)
open directory_store (AuthUserSummary Directory Error)
open Raise (require found)

variable (db : Db)

/-! ## Parts of the operations -/

def _assert_creator (actor : AuthUserSummary) (document : Document) : Except Error Unit :=
  require (document.creator_user_id = actor.userId)
    (.permission_error "작성자만 수행할 수 있는 작업입니다.")

/-- `allowed` stands in the order of `sorted`. -/
def _assert_document_status (document : Document) (allowed : List ApprovalStatus)
    (action_label : String) : Except Error Unit :=
  require (document.status ∈ allowed) (.value_error
    (action_label ++ "은(는) " ++ String.intercalate ", " (allowed.map (·.text)) ++
      " 상태에서만 가능합니다."))

/-- A row of `_validate_approval_approvers`. -/
structure Approver where
  user_id : String
  user_name : String
  deriving DecidableEq, Repr

def _validate_approval_approvers (actor : AuthUserSummary) (approver_user_ids : List String) :
    Except Error (List Approver) := do
  require approver_user_ids.Nodup (.value_error "결재선 사용자를 중복 지정할 수 없습니다.")
  require (approver_user_ids.length ≤ 20) (.value_error "결재선은 최대 20명까지 지정할 수 있습니다.")
  require (∀ user_id ∈ approver_user_ids, db.directory.active_member actor.companyId user_id)
    (.value_error "같은 회사의 활성 사용자만 결재선에 지정할 수 있습니다.")
  return approver_user_ids.map (fun user_id =>
    ⟨user_id, ((db.directory.users.rows user_id).map (·.name)).getD ""⟩)

/-- The INSERTs of one audience type, against the key of document and user. -/
def insert_audiences (document_id : String) (audience_type : AudienceType) (now : Time)
    (audiences : Table (String × String) Audience) (rows : List Approver) :
    Except Error (Table (String × String) Audience) :=
  rows.foldlM (fun audiences item => do
    require (audiences.rows (document_id, item.user_id) = none)
      (.unique_violation "approval_document_audiences_document_id_user_id_key")
    return audiences.set (document_id, item.user_id) ⟨audience_type, none, now⟩) audiences

def _replace_approval_audiences (actor : AuthUserSummary) (document_id : String)
    (reference_user_ids viewer_user_ids : List String) (now : Time) : Except Error Db := do
  let references ← _validate_approval_approvers db actor reference_user_ids
  let viewers ← _validate_approval_approvers db actor viewer_user_ids
  let kept := db.audiences.filter (fun k _ => decide (k.1 ≠ document_id))
  let audiences ← insert_audiences document_id .reference now kept references
  let audiences ← insert_audiences document_id .viewer now audiences viewers
  return { db with audiences := audiences }

structure AttachmentMeta where
  uploadId : String
  fileName : String
  contentType : String
  sizeBytes : Nat
  deriving DecidableEq, Repr

def APPROVAL_ATTACHMENT_MAX_COUNT : Nat := 10

def APPROVAL_ATTACHMENT_MAX_TOTAL_BYTES : Nat := 25 * 1024 * 1024

/-- The upload that an attachment of a request names. -/
def resolve_upload (actor : AuthUserSummary) (now : Time) (attachment : AttachmentMeta) :
    Except Error Upload := do
  let row ← found ((db.uploads.rows attachment.uploadId).filter (fun row =>
      decide (row.owner_user_id = actor.userId) && decide (row.company_id = actor.companyId) &&
        decide (row.expires_at > now)))
    (.value_error "사용할 수 없거나 만료된 결재 첨부 업로드입니다.")
  require (row.file_name = attachment.fileName ∧ row.content_type = attachment.contentType ∧
      row.size_bytes = attachment.sizeBytes)
    (.value_error "결재 첨부 정보가 업로드 결과와 일치하지 않습니다.")
  let _ ← stored_path db row.storage_key
  return row

/-- The ids that one call draws: random, so no two of them are the same. -/
structure NewIds where
  line : Nat ↪ String
  attachment : Nat ↪ String

/-- The INSERT of one attachment, against its two unique indexes, and the
DELETE of its upload. -/
def attach (document_id id upload_id : String) (row : Upload) (now : Time) : Except Error Db := do
  require (db.attachments.rows id = none) (.unique_violation "approval_attachments_pkey")
  require (¬ (db.attachments.select
      (fun _ other => decide (other.storage_key = row.storage_key))).Nonempty)
    (.unique_violation "approval_attachments_storage_key_key")
  return { db with
    attachments := db.attachments.set id
      ⟨document_id, row.file_name, row.content_type, row.size_bytes, row.storage_key, now⟩
    uploads := db.uploads.erase upload_id }

def _consume_approval_uploads (ids : NewIds) (actor : AuthUserSummary)
    (attachments : List AttachmentMeta) (document_id : String) (now : Time)
    (retained_count retained_size : Nat) : Except Error Db := do
  require (retained_count + attachments.length ≤ APPROVAL_ATTACHMENT_MAX_COUNT)
    (.value_error "결재 첨부는 최대 10개까지 등록할 수 있습니다.")
  let resolved ← attachments.mapM (resolve_upload db actor now)
  require (retained_size + (resolved.map (·.size_bytes)).sum ≤ APPROVAL_ATTACHMENT_MAX_TOTAL_BYTES)
    (.value_error "결재 첨부의 전체 크기는 25MB를 초과할 수 없습니다.")
  ((attachments.zip resolved).zipIdx).foldlM (fun db entry =>
    attach db document_id (ids.attachment entry.2) entry.1.1.uploadId entry.1.2 now) db

/-- `_insert_audit` for a document. -/
def _insert_audit (actor : AuthUserSummary) (target_id event : String)
    (status_before status_after reason : Option String) : Db :=
  { db with
    audit_logs := db.audit_logs ++
      [⟨actor.companyId, actor.userId, target_id, event, status_before, status_after, reason⟩] }

/-- UPDATE of one document and its lines, with the entry of the log. -/
def save (actor : AuthUserSummary) (document_id event : String) (before after : Document)
    (reason : Option String) : Db :=
  _insert_audit { db with documents := db.documents.set document_id after } actor document_id event
    (some before.status.text) (some after.status.text) reason

/-! ## Drafts -/

/-- `ApprovalDocumentCreateRequest`, and the retained attachments of an update. -/
structure Payload where
  title : String
  content : String
  approverUserIds : List String
  referenceUserIds : List String
  viewerUserIds : List String
  urgent : Bool
  shareWithDepartment : Bool
  attachments : List AttachmentMeta
  retainedAttachmentIds : List String
  deriving DecidableEq, Repr

/-- The rows of a new approval line, numbered from one. -/
def new_lines (ids : NewIds) (approvers : List Approver) : List Line :=
  approvers.zipIdx.map (fun entry =>
    { id := ids.line entry.2
      approver_user_id := entry.1.user_id
      approver_user_name := entry.1.user_name
      sequence := entry.2 + 1
      status := .pending
      comment := none
      decided_by_user_id := none
      decided_at := none
      signature := .none
      delegation_id := none })

theorem new_lines_keyed (ids : NewIds) (approvers : List Approver) :
    ((new_lines ids approvers).map (·.id)).Nodup := by
  unfold new_lines
  rw [List.map_map]
  have hid : (fun line : Line => line.id) ∘ (fun entry : Approver × Nat =>
      ({ id := ids.line entry.2, approver_user_id := entry.1.user_id,
         approver_user_name := entry.1.user_name, sequence := entry.2 + 1, status := .pending,
         comment := none, decided_by_user_id := none, decided_at := none, signature := .none,
         delegation_id := none } : Line)) = ids.line ∘ Prod.snd := rfl
  rw [hid, ← List.map_map, List.zipIdx_map_snd]
  exact List.Nodup.map ids.line.injective List.nodup_range'

theorem new_lines_ordered (ids : NewIds) (approvers : List Approver) :
    (new_lines ids approvers).Pairwise (fun a b => a.sequence < b.sequence) := by
  unfold new_lines
  rw [List.pairwise_map]
  have hpairs : (approvers.zipIdx.map Prod.snd).Pairwise (· < ·) := by
    rw [List.zipIdx_map_snd]
    exact List.pairwise_lt_range'
  rw [List.pairwise_map] at hpairs
  apply hpairs.imp
  intro a b hab
  dsimp only
  omega

/-- A new draft. -/
def new_document (ids : NewIds) (actor : AuthUserSummary) (payload : Payload)
    (approvers : List Approver) (now : Time) : Document where
  company_id := actor.companyId
  title := Text.strip payload.title
  content := Text.strip payload.content
  creator_user_id := actor.userId
  creator_department_id := actor.departmentId
  urgent := payload.urgent
  shared_with_department := payload.shareWithDepartment
  status := .draft
  current_line_index := none
  submitted_by_user_id := none
  submitted_at := none
  created_at := now
  updated_at := now
  lines := new_lines ids approvers
  keyed := new_lines_keyed ids approvers
  ordered := new_lines_ordered ids approvers

def create_approval_document (actor_id document_id : String) (ids : NewIds) (payload : Payload)
    (now : Time) : Except Error Db := do
  let actor ← db.directory._fetch_actor_summary actor_id
  let approvers ← _validate_approval_approvers db actor payload.approverUserIds
  require (db.documents.rows document_id = none) (.unique_violation "approval_documents_pkey")
  let db := { db with
    documents := db.documents.set document_id (new_document ids actor payload approvers now) }
  let db ← _replace_approval_audiences db actor document_id payload.referenceUserIds
    payload.viewerUserIds now
  let db ← _consume_approval_uploads db ids actor payload.attachments document_id now 0 0
  return _insert_audit db actor document_id "approval.created" none (some "draft") none

/-- The draft after an update without approvers: its lines are deleted. -/
def rewritten (document : Document) (payload : Payload) (now : Time) : Document :=
  { document with
    title := Text.strip payload.title
    content := Text.strip payload.content
    urgent := payload.urgent
    shared_with_department := payload.shareWithDepartment
    updated_at := now
    lines := []
    keyed := List.nodup_nil
    ordered := List.Pairwise.nil }

def update_approval_document (actor_id document_id : String) (ids : NewIds) (payload : Payload)
    (now : Time) : Except Error Db := do
  let actor ← db.directory._fetch_actor_summary actor_id
  let document ← _fetch_required_approval_document db document_id
  _assert_creator actor document
  _assert_document_status document [.draft] "수정"
  let approvers ← _validate_approval_approvers db actor payload.approverUserIds
  let retained ← payload.retainedAttachmentIds.mapM (fun attachment_id =>
    found ((db.attachments.rows attachment_id).filter
        (fun row => decide (row.document_id = document_id)))
      (.value_error "유지할 결재 첨부를 찾을 수 없습니다."))
  require (retained.length + payload.attachments.length ≤ APPROVAL_ATTACHMENT_MAX_COUNT)
    (.value_error "결재 첨부는 최대 10개까지 등록할 수 있습니다.")
  -- the rows are dictionaries, so `approver.userId` raises for the first approver
  require (approvers = []) (.attribute_error "'dict' object has no attribute 'userId'")
  let db := { db with documents := db.documents.set document_id (rewritten document payload now) }
  let db ← _replace_approval_audiences db actor document_id payload.referenceUserIds
    payload.viewerUserIds now
  let db := { db with
    attachments := db.attachments.filter (fun id row =>
      decide (row.document_id ≠ document_id) || decide (id ∈ payload.retainedAttachmentIds)) }
  let db ← _consume_approval_uploads db ids actor payload.attachments document_id now
    retained.length (retained.map (·.size_bytes)).sum
  return _insert_audit db actor document_id "approval.updated" (some "draft") (some "draft") none

/-! ## Submission -/

def submitted (document : Document) (actor : AuthUserSummary) (first : Line) (now : Time) : Document :=
  { document with
    status := .submitted
    current_line_index := some first.sequence
    submitted_by_user_id := some actor.userId
    submitted_at := some now
    updated_at := now }

def submit_approval_document (actor_id document_id : String) (now : Time) : Except Error Db := do
  let actor ← db.directory._fetch_actor_summary actor_id
  let document ← _fetch_required_approval_document db document_id
  _assert_creator actor document
  _assert_document_status document [.draft] "상신"
  let first ← found document.lines.head?
    (.value_error "상신하려면 결재선을 최소 1명 이상 지정해야 합니다.")
  let _ ← document.lines.mapM (fun line => db.directory._fetch_actor_summary line.approver_user_id)
  return save db actor document_id "approval.submitted" document
    (submitted document actor first now) none

def withdrawn (document : Document) (now : Time) : Document :=
  { document with status := .withdrawn, current_line_index := none, updated_at := now }

def withdraw_approval_document (actor_id document_id : String) (now : Time) : Except Error Db := do
  let actor ← db.directory._fetch_actor_summary actor_id
  let document ← _fetch_required_approval_document db document_id
  _assert_creator actor document
  _assert_document_status document [.submitted] "회수"
  return save db actor document_id "approval.withdrawn" document (withdrawn document now) none

/-- The line as before its first decision. -/
def Line.reset (line : Line) : Line :=
  { line with
    status := .pending
    comment := none
    decided_by_user_id := none
    decided_at := none
    signature := .none
    delegation_id := none }

def redrafted (document : Document) (now : Time) : Document :=
  { document.mapLines Line.reset (fun _ => ⟨rfl, rfl⟩) with
    status := .draft
    current_line_index := none
    submitted_by_user_id := none
    submitted_at := none
    updated_at := now }

def rework_approval_document (actor_id document_id : String) (now : Time) : Except Error Db := do
  let actor ← db.directory._fetch_actor_summary actor_id
  let document ← _fetch_required_approval_document db document_id
  _assert_creator actor document
  _assert_document_status document [.rejected, .withdrawn] "재기안"
  return save db actor document_id "approval.redrafted" document (redrafted document now) none

/-! ## Decisions -/

/-- The delegation that `ORDER BY updated_at DESC LIMIT 1` gives; the order
of the ids breaks ties. -/
def newest_delegation (company_id owner_user_id delegate_user_id : String) (today : Date) :
    Option String :=
  ((delegated db company_id owner_user_id delegate_user_id today).sort (· ≤ ·)).argmax
    (fun id => ((db.delegations.rows id).map (·.updated_at)).getD 0)

/-- The line of a decision that is not forced, with the delegation it uses. -/
def target_line (actor : AuthUserSummary) (document : Document) (today : Date) :
    Except Error (Line × Option String) := do
  let line ← found ((document.lines.find? (fun line =>
      decide (some line.sequence = document.current_line_index))).filter
        (fun line => decide (line.status = .pending)))
    (.value_error "현재 처리 가능한 결재선이 없습니다.")
  if line.approver_user_id = actor.userId then
    return (line, none)
  let delegation_id ← found (newest_delegation db actor.companyId line.approver_user_id actor.userId today)
    (.permission_error "현재 결재선의 담당자 또는 유효한 대결자만 처리할 수 있습니다.")
  return (line, some delegation_id)

/-- The snapshot of the signature of the actor. -/
def signature_snapshot (actor : AuthUserSummary) : Signature :=
  match db.preferences.rows actor.userId with
  | none => .none
  | some preference => if preference.company_id = actor.companyId then preference.signature else .none

/-- The decided line `target`; the other lines stay. -/
def Line.decide (target : Line) (status : LineStatus) (reason : String) (actor : AuthUserSummary)
    (now : Time) (signature : Option Signature) (delegation_id : Option String) (line : Line) : Line :=
  if line.id = target.id then
    { line with
      status := status
      comment := some reason
      decided_by_user_id := some actor.userId
      decided_at := some now
      signature := signature.getD line.signature
      delegation_id := delegation_id }
  else line

theorem Line.decide_key (target : Line) (status : LineStatus) (reason : String)
    (actor : AuthUserSummary) (now : Time) (signature : Option Signature)
    (delegation_id : Option String) (line : Line) :
    (target.decide status reason actor now signature delegation_id line).id = line.id ∧
      (target.decide status reason actor now signature delegation_id line).sequence =
        line.sequence := by
  unfold Line.decide
  split_ifs <;> exact ⟨rfl, rfl⟩

/-- The UPDATE of a forced approval: it keeps what a pending line already has. -/
def Line.force_approve (reason : String) (actor : AuthUserSummary) (now : Time) (line : Line) : Line :=
  if line.status = .pending then
    { line with
      status := .approved
      comment := line.comment.or (some reason)
      decided_by_user_id := line.decided_by_user_id.or (some actor.userId)
      decided_at := line.decided_at.or (some now) }
  else line

/-- The UPDATE of a forced rejection: every line but the approved ones. -/
def Line.force_reject (reason : String) (actor : AuthUserSummary) (now : Time) (line : Line) : Line :=
  if line.status = .approved then line
  else
    { line with
      status := .rejected
      comment := some reason
      decided_by_user_id := some actor.userId
      decided_at := some now }

theorem Line.force_approve_key (reason : String) (actor : AuthUserSummary) (now : Time) (line : Line) :
    (line.force_approve reason actor now).id = line.id ∧
      (line.force_approve reason actor now).sequence = line.sequence := by
  unfold Line.force_approve
  split_ifs <;> exact ⟨rfl, rfl⟩

theorem Line.force_reject_key (reason : String) (actor : AuthUserSummary) (now : Time) (line : Line) :
    (line.force_reject reason actor now).id = line.id ∧
      (line.force_reject reason actor now).sequence = line.sequence := by
  unfold Line.force_reject
  split_ifs <;> exact ⟨rfl, rfl⟩

/-- The end of a decision: the new status and the new index. -/
def closed (document : Document) (status : ApprovalStatus) (index : Option Nat) (now : Time) : Document :=
  { document with status := status, current_line_index := index, updated_at := now }

/-- The pending lines behind the decided one, as they were read. -/
def remaining_pending (document : Document) (target : Line) : List Line :=
  document.lines.filter (fun line =>
    decide (target.sequence < line.sequence) && decide (line.status = .pending))

def force_approved (document : Document) (reason : String) (actor : AuthUserSummary) (now : Time) :
    Document :=
  closed (document.mapLines (Line.force_approve reason actor now)
    (Line.force_approve_key reason actor now)) .approved none now

def force_rejected (document : Document) (reason : String) (actor : AuthUserSummary) (now : Time) :
    Document :=
  closed (document.mapLines (Line.force_reject reason actor now)
    (Line.force_reject_key reason actor now)) .rejected none now

def line_approved (document : Document) (target : Line) (reason : String) (actor : AuthUserSummary)
    (now : Time) (signature : Signature) (delegation_id : Option String) : Document :=
  let decided := document.mapLines
    (target.decide .approved reason actor now (some signature) delegation_id)
    (target.decide_key .approved reason actor now (some signature) delegation_id)
  match remaining_pending document target with
  | [] => closed decided .approved none now
  | next :: _ => closed decided .submitted (some next.sequence) now

def line_rejected (document : Document) (target : Line) (reason : String) (actor : AuthUserSummary)
    (now : Time) (delegation_id : Option String) : Document :=
  closed (document.mapLines (target.decide .rejected reason actor now none delegation_id)
    (target.decide_key .rejected reason actor now none delegation_id)) .rejected none now

/-- The name of the event of a decision that is not forced. -/
def event_name (accepted : Bool) (delegation_id : Option String) : String :=
  match accepted, delegation_id with
  | true, none => "approval.approved"
  | true, some _ => "approval.delegated_approved"
  | false, none => "approval.rejected"
  | false, some _ => "approval.delegated_rejected"

/-- `started` is the time of the transaction, from which its date comes. -/
def _process_approval_decision (actor_id document_id reason : String) (accepted forced : Bool)
    (now started : Time) : Except Error Db := do
  require (Text.strip reason ≠ "") (.value_error "사유를 입력해야 합니다.")
  let actor ← db.directory._fetch_actor_summary actor_id
  let document ← _fetch_required_approval_document db document_id
  _assert_document_status document [.submitted] "결재 처리"
  require (document.lines ≠ []) (.value_error "결재선이 없는 문서입니다.")
  if forced then
    require (∃ line ∈ document.lines, line.status = .pending)
      (.value_error "직권 처리할 대기 결재선이 없습니다.")
    if accepted then
      return save db actor document_id "approval.force_approved" document
        (force_approved document (Text.strip reason) actor now) (some (Text.strip reason))
    else
      return save db actor document_id "approval.force_rejected" document
        (force_rejected document (Text.strip reason) actor now) (some (Text.strip reason))
  else
    let target ← target_line db actor document (_seoul_today started)
    if accepted then
      return save db actor document_id (event_name true target.2) document
        (line_approved document target.1 (Text.strip reason) actor now (signature_snapshot db actor)
          target.2) (some (Text.strip reason))
    else
      return save db actor document_id (event_name false target.2) document
        (line_rejected document target.1 (Text.strip reason) actor now target.2)
        (some (Text.strip reason))

def approve_approval_document (actor_id document_id reason : String) (now started : Time) :
    Except Error Db :=
  _process_approval_decision db actor_id document_id reason true false now started

def reject_approval_document (actor_id document_id reason : String) (now started : Time) :
    Except Error Db :=
  _process_approval_decision db actor_id document_id reason false false now started

def admin_force_approve (actor_id document_id reason : String) (now started : Time) :
    Except Error Db :=
  _process_approval_decision db actor_id document_id reason true true now started

def admin_force_reject (actor_id document_id reason : String) (now started : Time) :
    Except Error Db :=
  _process_approval_decision db actor_id document_id reason false true now started

/-! ## Reading and deleting -/

def mark_approval_document_read (actor_id document_id : String) (now started : Time) :
    Except Error Db := do
  let actor ← db.directory._fetch_actor_summary actor_id
  let document ← _fetch_required_approval_document db document_id
  _assert_approval_visible db actor (_seoul_today started) document_id document
  match (db.audiences.rows (document_id, actor.userId)).filter
      (fun audience => decide (audience.read_at = none)) with
  | none => return db
  | some audience =>
    return _insert_audit { db with
        audiences := db.audiences.set (document_id, actor.userId)
          { audience with read_at := some now } }
      actor document_id "approval.audience_read" none (some audience.audience_type.text) none

inductive TrashState
  | deleted
  | restored
  | permanently_deleted
  deriving DecidableEq, Repr

def TrashState.event : TrashState → String
  | deleted => "approval.deleted"
  | restored => "approval.restored"
  | permanently_deleted => "approval.permanently_deleted"

/-- The statement of `_set_approval_deletion` on the row of document and user. -/
def set_deletion (deletions : Table (String × String) Deletion) (key : String × String)
    (state : TrashState) (now : Time) : Except Error (Table (String × String) Deletion) :=
  match state with
  -- the conflict branch also clears `permanently_deleted_at`
  | .deleted => .ok (deletions.set key ⟨now, none⟩)
  | .restored =>
    .ok (deletions.filter (fun k row =>
      decide (k ≠ key) || decide (row.permanently_deleted_at ≠ none)))
  | .permanently_deleted =>
    match (deletions.rows key).filter (fun row => decide (row.permanently_deleted_at = none)) with
    | none => .error (.value_error "휴지통에 있는 문서만 영구 삭제할 수 있습니다.")
    | some row => .ok (deletions.set key { row with permanently_deleted_at := some now })

def _set_approval_deletion (actor_id document_id : String) (state : TrashState) (now : Time) :
    Except Error Db := do
  let actor ← db.directory._fetch_actor_summary actor_id
  let document ← _fetch_required_approval_document db document_id
  _assert_creator actor document
  require (document.status ∈ [.draft, .approved])
    (.value_error "초안 또는 완료 문서만 삭제할 수 있습니다.")
  let deletions ← set_deletion db.deletions (document_id, actor.userId) state now
  return _insert_audit { db with deletions := deletions } actor document_id state.event
    (some document.status.text) (some document.status.text) none

def delete_approval_document_for_actor (actor_id document_id : String) (now : Time) :
    Except Error Db :=
  _set_approval_deletion db actor_id document_id .deleted now

def restore_approval_document_for_actor (actor_id document_id : String) (now : Time) :
    Except Error Db :=
  _set_approval_deletion db actor_id document_id .restored now

def permanently_delete_approval_document_for_actor (actor_id document_id : String) (now : Time) :
    Except Error Db :=
  _set_approval_deletion db actor_id document_id .permanently_deleted now

/-! ## A small installation -/

/-- Two companies: Ana and Bo work in the first, and Eve forces decisions in the second. -/
def twoCompanies : Db where
  directory :=
    { users := ((Table.empty.set "ana" ⟨"first", "Ana", some "sales", "staff", .active, some .active⟩).set
        "bo" ⟨"first", "Bo", some "sales", "staff", .active, some .active⟩).set
        "eve" ⟨"second", "Eve", some "office", "lead", .active, some .active⟩
      roles := (Table.empty.set "staff" ⟨"first", ["approval:create", "approval:act"], .active⟩).set
        "lead" ⟨"second", ["approval:force"], .active⟩
      departments := (Table.empty.set "sales" ⟨"first", .active⟩).set "office" ⟨"second", .active⟩ }
  documents := Table.empty
  audiences := Table.empty
  deletions := Table.empty
  delegations := Table.empty
  preferences := Table.empty
  attachments := Table.empty
  uploads := Table.empty
  audit_logs := []
  stored := fun _ => false

/-- Ids of growing length. -/
def longIds (c : Char) : Nat ↪ String where
  toFun n := String.ofList (List.replicate n c)
  inj' := by
    intro m n h
    have hlength : (List.replicate m c).length = (List.replicate n c).length := by
      rw [String.ofList_injective h]
    simpa using hlength

def sampleIds : NewIds := ⟨longIds 'l', longIds 'a'⟩

/-- A plain request for these approvers. -/
def plainPayload (approverUserIds : List String) : Payload where
  title := "Trip"
  content := "Two days"
  approverUserIds := approverUserIds
  referenceUserIds := []
  viewerUserIds := []
  urgent := false
  shareWithDepartment := false
  attachments := []
  retainedAttachmentIds := []

end moaworks.approvals
