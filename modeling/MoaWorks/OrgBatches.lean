-- The batches of the bulk import: what is shown when a workbook is validated,
-- and what is written when its batch is applied.
import MoaWorks.OrgImport

namespace moaworks.org

open Raise

/-! ## Previews -/

/-- `OrgImportDeactivationPreview`. -/
structure PreviewRow where
  userId : String
  loginId : String
  name : String
  email : String
  currentDepartmentName : String
  currentRoleName : String
  currentStatus : String
  reason : String
  deriving DecidableEq, Repr

def preview_row (d : Directory) (listed : Listed) : PreviewRow where
  userId := listed.id
  loginId := login_of listed.user
  name := listed.user.name
  email := normalize_email listed.user.email
  currentDepartmentName :=
    ((d.departments.rows listed.user.department_id).map (·.name)).getD ""
  currentRoleName := ((d.roles.rows listed.user.role_id).map (·.name)).getD ""
  currentStatus := listed.user.status.text
  reason := listed.reason

def deactivation_preview_rows (d : Directory) (listed : List Listed) : List PreviewRow :=
  listed.map (preview_row d)

def PreviewRow.target (row : PreviewRow) : String × String :=
  (normalize_email row.email, Text.strip row.reason)

/-- The sorted lists of targets are equal: each is a rearrangement of the other. -/
def same_preview_targets (left right : List PreviewRow) : Bool :=
  (left.map PreviewRow.target).isPerm (right.map PreviewRow.target)

/-! ## Batches -/

def Scope.text : Scope → String
  | .none => "none"
  | .uploaded_departments_only => "uploaded_departments_only"
  | .company_all => "company_all"

/-- A row of `org_import_batches`, with the parts of `payload_json` and `preview_json` that are
read again. -/
structure Batch where
  validation_status : String
  apply_status : String
  departments : List departments.ImportRow
  users : List UserRow
  deactivationScope : String
  usersToDeactivate : List PreviewRow
  protectedUsers : List PreviewRow
  errors : List Issue
  warnings : List Issue

structure World where
  directory : Directory
  batches : Table String Batch

/-- The columns that an analysis fills. -/
def batch_of (d : Directory) (analysis : Analysis) (validation_status apply_status : String) : Batch where
  validation_status := validation_status
  apply_status := apply_status
  departments := analysis.departments
  users := analysis.users
  deactivationScope := analysis.deactivation_scope.text
  usersToDeactivate := deactivation_preview_rows d analysis.users_to_deactivate
  protectedUsers := deactivation_preview_rows d analysis.protected_users
  errors := analysis.errors
  warnings := analysis.warnings

/-! ## Validation -/

/-- The sheets of a workbook, by their names. -/
structure Workbook where
  departments : Option Worksheet
  users : Option Worksheet

def no_sheets : String := "엑셀 파일에는 departments, users 시트가 모두 있어야 합니다."

def parse_workbook (workbook : Workbook) :
    Except String (List RawDepartment × List RawUser) := do
  let department_sheet ← found workbook.departments no_sheets
  let user_sheet ← found workbook.users no_sheets
  let department_rows ← read_sheet_rows department_sheet DEPARTMENT_HEADERS
  let user_rows ← read_sheet_rows user_sheet USER_HEADERS
  return (department_rows.map RawDepartment.ofSheet, user_rows.map RawUser.ofSheet)

/-- `batch_id` is the new id. -/
def validate_upload (int_float : String → Whole) (w : World) (batch_id : String)
    (actor_email : Option String) (workbook : Workbook) (deactivation_scope : Option String) :
    Except String World := do
  let rows ← parse_workbook workbook
  let analysis ← analyze_import int_float w.directory rows.1 rows.2 actor_email
    (normalize_deactivation_scope deactivation_scope)
  return { w with batches := w.batches.set batch_id (batch_of w.directory analysis
    (if analysis.errors = [] then "passed" else "failed") "pending") }

/-! ## The writes -/

/-- The new ids of one call, by the numbers of the rows. -/
structure NewIds where
  department : Nat → String
  user : Nat → String

/-- The column `sort_order` is an INTEGER. -/
def integer (value : Int) : Bool := decide (-2 ^ 31 ≤ value) && decide (value < 2 ^ 31)

/-- The old departments become inactive, and each row makes a new one. -/
def insert_departments (d : Directory) (ids : NewIds) (rows : List departments.ImportRow) :
    Except String Directory := do
  require (rows.all (fun row => integer row.sortOrder)) "integer out of range"
  return { d with
    departments := departments.insertRows rows
      (rows.map (fun row => (row, ids.department row.rowNumber))) (fun _ => none)
      (departments.deactivate d.departments)
    department_codes := rows.foldl
      (fun codes row => codes.set (ids.department row.rowNumber) row.departmentCode)
      d.department_codes }

def row_status (row : UserRow) : DirectoryUserStatus := if row.active then .active else .inactive

def moved_user (current : User) (row : UserRow) (department_id role_id : String) : User :=
  { current with
    name := row.name
    department_id := department_id
    role_id := role_id
    status := row_status row }

def imported_user (row : UserRow) (email department_id role_id : String) (now : Nat) : User where
  email := email
  name := row.name
  department_id := department_id
  role_id := role_id
  status := row_status row
  user_type := "user"
  is_department_head := false
  must_change_password := true
  created_at := now

/-- The loop over the users. `analyzed` is the directory that the analysis has read. -/
def place_user (analyzed : Directory) (rows : List departments.ImportRow) (ids : NewIds) (now : Nat)
    (d : Directory) (row : UserRow) : Except String Directory := do
  let department ← resolve_department rows row.departmentCode
  let role_id ← resolve_role analyzed row.roleCode
  let department_id := ids.department department.rowNumber
  match existing_user analyzed row.loginId with
  | some (user_id, _) =>
    match d.users.rows user_id with
    | none => return d
    | some current => d.write_user user_id (moved_user current row department_id role_id)
  | none =>
    let email := row.loginId ++ "@" ++ d.company_domain
    require (d.email_taken email = false) "users_email_key"
    d.write_user (ids.user row.rowNumber) (imported_user row email department_id role_id now)

/-- `UPDATE users SET status = 'inactive' WHERE id = …`. -/
def Directory.deactivate_user (d : Directory) (user_id : String) : Directory :=
  let users := d.users.update (fun id _ => decide (id = user_id))
    (fun user => { user with status := .inactive })
  { d with users := users }

def write_import (d : Directory) (analysis : Analysis) (ids : NewIds) (now : Nat) :
    Except String Directory := do
  let built ← insert_departments d ids analysis.departments
  let placed ← analysis.users.foldlM (place_user d analysis.departments ids now) built
  return analysis.users_to_deactivate.foldl (fun d listed => d.deactivate_user listed.id) placed

/-! ## Applying -/

/-- `OrgImportApplyRequest`. -/
structure OrgImportApplyRequest where
  batchId : String
  confirmDeactivateMissingUsers : Bool
  confirmationText : Option String
  deriving DecidableEq, Repr

def COMPANY_ALL_CONFIRMATION_TEXT : String := "회사 전체 누락 사용자 비활성화에 동의합니다."

def DEACTIVATION_CONFIRMATION_TEXT : String := "누락 사용자 비활성화에 동의합니다."

def confirmed (scope : Scope) (payload : OrgImportApplyRequest) : Bool :=
  let text := Text.strip (payload.confirmationText.getD "")
  match scope with
  | .company_all => decide (text = COMPANY_ALL_CONFIRMATION_TEXT)
  | _ => payload.confirmDeactivateMissingUsers || decide (text = DEACTIVATION_CONFIRMATION_TEXT)

def fetch_batch_row (w : World) (batch_id : String) : Except String Batch :=
  found (w.batches.rows batch_id) "대상 업로드 배치를 찾을 수 없습니다."

/-- The analysis of a stored batch against the directory as it is now. -/
def analyze_batch (int_float : String → Whole) (d : Directory) (batch : Batch)
    (actor_email : Option String) : Except String Analysis :=
  analyze_import int_float d (batch.departments.map RawDepartment.ofPayload)
    (batch.users.map RawUser.ofPayload) actor_email
    (normalize_deactivation_scope (some batch.deactivationScope))

def apply_batch (int_float : String → Whole) (w : World) (actor_email : Option String) (ids : NewIds)
    (now : Nat) (payload : OrgImportApplyRequest) : Except String World := do
  let batch ← fetch_batch_row w payload.batchId
  require (batch.apply_status ≠ "applied") "이미 적용이 완료된 배치입니다."
  let analysis ← analyze_batch int_float w.directory batch actor_email
  require (analysis.errors = []) "검증 오류가 남아 있어 적용할 수 없습니다."
  let deactivation_preview := deactivation_preview_rows w.directory analysis.users_to_deactivate
  let protected_preview := deactivation_preview_rows w.directory analysis.protected_users
  require (same_preview_targets batch.usersToDeactivate deactivation_preview = true ∧
    same_preview_targets batch.protectedUsers protected_preview = true)
    "ORG_IMPORT_REVALIDATION_REQUIRED"
  require (protected_preview = []) "ORG_IMPORT_PROTECTED_USERS_BLOCKED"
  require (deactivation_preview = [] ∨ confirmed analysis.deactivation_scope payload = true)
    "ORG_IMPORT_DEACTIVATION_CONFIRM_REQUIRED"
  let written ← write_import w.directory analysis ids now
  return {
    directory := written
    batches := w.batches.set payload.batchId
      (batch_of w.directory analysis batch.validation_status "applied") }

end moaworks.org
