-- The bulk import of departments and users: what is read from a workbook, and
-- what its analysis against the directory finds.
import Mathlib
import MoaWorks.OrgUsers

namespace moaworks.org

open Raise

/-! ## Cells and sheets -/

/-- The value of a cell: None, a text, or something else with its `str` and its `bool`. -/
inductive Cell
  | none
  | text (value : String)
  | other (shown : String) (truthy : Bool)
  deriving DecidableEq, Repr

def Cell.truthy : Cell → Bool
  | .none => false
  | .text value => decide (value ≠ "")
  | .other _ truthy => truthy

/-- `a or b`. -/
def Cell.or (a b : Cell) : Cell := if a.truthy then a else b

/-- What `int(float(text))` gives. A text that is no number raises ValueError,
an infinite one OverflowError. -/
inductive Whole
  | int (value : Int)
  | value_error
  | overflow_error
  deriving DecidableEq, Repr

def normalize_text : Cell → String
  | .none => ""
  | .text value => Text.strip value
  | .other shown _ => Text.strip shown

/-- `_normalize_status` with the default `active`: whether the status is active. -/
def normalize_status (value : Cell) : Bool :=
  decide (Text.lower (normalize_text value) ≠ "inactive")

def normalize_int (int_float : String → Whole) (value : Cell) (default : Int) : Except String Int :=
  let text := normalize_text value
  if text = "" then .ok default
  else match int_float text with
    | .int value => .ok value
    | .value_error => .ok default
    | .overflow_error => .error "cannot convert float infinity to integer"

def login_chars : List Char := "abcdefghijklmnopqrstuvwxyz0123456789._-".toList

def normalize_login_id (value : Cell) : String :=
  let normalized := Text.lower (normalize_text value)
  if normalized.toList.all (fun char => decide (char ∈ login_chars)) then normalized else ""

structure Worksheet where
  title : String
  max_row : Nat
  /-- The first row, when there is one. -/
  header : Option (List Cell)
  /-- The rows from the second on. -/
  rows : List (List Cell)

def MAX_DATA_ROWS : Nat := 10000

def DEPARTMENT_HEADERS : List String :=
  ["department_code", "department_name", "parent_department_code", "sort_order", "status"]

def USER_HEADERS : List String := ["login_id", "name", "department_code", "role_code", "status"]

/-- The rows with their numbers, from `start` on, without the blank ones. -/
def numbered (width : Nat) : Nat → List (List Cell) → List (Nat × List Cell)
  | _, [] => []
  | start, values :: rest =>
    if (values.take width).all (fun value => decide (normalize_text value = "")) then
      numbered width (start + 1) rest
    else (start, values) :: numbered width (start + 1) rest

def read_sheet_rows (worksheet : Worksheet) (expected_headers : List String) :
    Except String (List (Nat × List Cell)) := do
  require (worksheet.max_row ≤ MAX_DATA_ROWS + 1)
    (worksheet.title ++ " 시트의 데이터 행은 10,000행 이하여야 합니다.")
  let header_cells ← found worksheet.header (worksheet.title ++ " 시트 헤더를 찾을 수 없습니다.")
  require ((header_cells.map normalize_text).take expected_headers.length = expected_headers)
    (worksheet.title ++ " 시트 헤더가 올바르지 않습니다.")
  return numbered expected_headers.length 2 worksheet.rows

/-! ## Raw rows -/

/-- A raw row of departments: under the names of the sheet in an upload, and
under the names of the payload in a stored batch. -/
structure RawDepartment where
  rowNumber : Nat
  department_code : Cell
  departmentCode : Cell
  department_name : Cell
  departmentName : Cell
  parent_department_code : Cell
  parentDepartmentCode : Cell
  /-- `raw["sort_order"]` when the key is there. -/
  sort_order : Option Cell
  sortOrder : Cell
  status : Cell

def RawDepartment.ofSheet (entry : Nat × List Cell) : RawDepartment where
  rowNumber := entry.1
  department_code := entry.2.getD 0 .none
  departmentCode := .none
  department_name := entry.2.getD 1 .none
  departmentName := .none
  parent_department_code := entry.2.getD 2 .none
  parentDepartmentCode := .none
  sort_order := some (entry.2.getD 3 .none)
  sortOrder := .none
  status := entry.2.getD 4 .none

def status_text (active : Bool) : String := if active then "active" else "inactive"

/-- A normalised row, as the payload of a batch keeps it. -/
def RawDepartment.ofPayload (row : departments.ImportRow) : RawDepartment where
  rowNumber := row.rowNumber
  department_code := .none
  departmentCode := .text row.departmentCode
  department_name := .none
  departmentName := .text row.departmentName
  parent_department_code := .none
  parentDepartmentCode := (row.parentDepartmentCode.map Cell.text).getD .none
  sort_order := none
  sortOrder := .other (toString row.sortOrder) (decide (row.sortOrder ≠ 0))
  status := .text (status_text row.active)

structure RawUser where
  rowNumber : Nat
  login_id : Cell
  loginId : Cell
  name : Cell
  department_code : Cell
  departmentCode : Cell
  role_code : Cell
  roleCode : Cell
  status : Cell

def RawUser.ofSheet (entry : Nat × List Cell) : RawUser where
  rowNumber := entry.1
  login_id := entry.2.getD 0 .none
  loginId := .none
  name := entry.2.getD 1 .none
  department_code := entry.2.getD 2 .none
  departmentCode := .none
  role_code := entry.2.getD 3 .none
  roleCode := .none
  status := entry.2.getD 4 .none

/-- A row of the sheet `users`, with its texts normalised. -/
structure UserRow where
  rowNumber : Nat
  loginId : String
  name : String
  departmentCode : String
  roleCode : String
  active : Bool
  deriving DecidableEq, Repr

def RawUser.ofPayload (row : UserRow) : RawUser where
  rowNumber := row.rowNumber
  login_id := .none
  loginId := .text row.loginId
  name := .text row.name
  department_code := .none
  departmentCode := .text row.departmentCode
  role_code := .none
  roleCode := .text row.roleCode
  status := .text (status_text row.active)

/-! ## Normalised rows -/

def normalize_department (int_float : String → Whole) (raw : RawDepartment) :
    Except String departments.ImportRow := do
  let parent_department_code :=
    normalize_text (raw.parent_department_code.or raw.parentDepartmentCode)
  let sort_order ← normalize_int int_float (raw.sort_order.getD raw.sortOrder) 100
  return {
    rowNumber := raw.rowNumber
    departmentCode := normalize_text (raw.department_code.or raw.departmentCode)
    departmentName := normalize_text (raw.department_name.or raw.departmentName)
    parentDepartmentCode :=
      if parent_department_code = "" then none else some parent_department_code
    sortOrder := sort_order
    active := normalize_status raw.status }

def normalize_user (raw : RawUser) : UserRow where
  rowNumber := raw.rowNumber
  loginId := normalize_login_id (raw.login_id.or raw.loginId)
  name := normalize_text raw.name
  departmentCode := normalize_text (raw.department_code.or raw.departmentCode)
  roleCode := normalize_text (raw.role_code.or raw.roleCode)
  active := normalize_status raw.status

/-! ## What the rows refer to -/

/-- The one role with the id or else the name, or the issue. -/
def resolve_role (d : Directory) (role_code : String) : Except String String :=
  if role_code = "" then .error "role_code는 필수입니다."
  else if (d.roles.rows role_code).isSome then .ok role_code
  else match (d.roles.orderedBy (·.created_at)).filter (fun entry => decide (entry.2.name = role_code)) with
    | [] => .error ("권한 역할 '" ++ role_code ++ "'를 찾지 못했습니다.")
    | [entry] => .ok entry.1
    | _ => .error ("권한 역할 '" ++ role_code ++ "'가 중복되어 매핑이 모호합니다.")

/-- The one uploaded department with the code, or the issue. -/
def resolve_department (rows : List departments.ImportRow) (department_code : String) :
    Except String departments.ImportRow :=
  if department_code = "" then .error "department_code는 필수입니다."
  else match rows.filter (fun row => decide (row.departmentCode = department_code)) with
    | [] => .error ("부서 코드 '" ++ department_code ++ "'를 찾지 못했습니다.")
    | [row] => .ok row
    | _ => .error ("부서 코드 '" ++ department_code ++ "'가 중복되어 사용자 소속 연결이 모호합니다.")

/-- The users that the import compares with, in the order of their creation. -/
def existing_users (d : Directory) : List (String × User) :=
  (d.users.orderedBy (·.created_at)).filter (fun entry => d.joined entry.2)

/-- The key of `existing_users_by_login_id`. -/
def login_key (email : String) : String := Text.lower (Text.before '@' email)

/-- `existing_users_by_login_id.get(login_id)`: the last user with a key stays in the map. -/
def existing_user (d : Directory) (login_id : String) : Option (String × User) :=
  if login_id = "" then none
  else (existing_users d).reverse.find? (fun entry => decide (login_key entry.2.email = login_id))

/-! ## Issues -/

structure Issue where
  sheet : String
  rowNumber : Option Nat
  message : String
  deriving DecidableEq, Repr

def required (sheet : String) (rowNumber : Nat) (text message : String) : List Issue :=
  if text = "" then [⟨sheet, some rowNumber, message⟩] else []

def issue_of {α : Type} (sheet : String) (rowNumber : Nat) : Except String α → List Issue
  | .ok _ => []
  | .error message => [⟨sheet, some rowNumber, message⟩]

def department_issues (row : departments.ImportRow) : List Issue :=
  required "departments" row.rowNumber row.departmentCode "department_code는 필수입니다." ++
    required "departments" row.rowNumber row.departmentName "department_name은 필수입니다."

def parent_issues (rows : List departments.ImportRow) (row : departments.ImportRow) : List Issue :=
  issue_of "departments" row.rowNumber (departments.parentRow rows row)

/-- `seen` are the login ids of the rows before. -/
def login_issues (seen : List String) (row : UserRow) : List Issue :=
  if row.loginId = "" then
    [⟨"users", some row.rowNumber, "login_id는 필수이며 영문 소문자/숫자/.-_만 사용할 수 있습니다."⟩]
  else if row.loginId ∈ seen then
    [⟨"users", some row.rowNumber, "login_id '" ++ row.loginId ++ "'가 중복됩니다."⟩]
  else []

def admin_issues (d : Directory) (row : UserRow) : List Issue :=
  if (existing_user d row.loginId).any (fun entry => decide (entry.2.user_type = "admin")) then
    [⟨"users", some row.rowNumber, "관리자 계정은 일괄 업로드 대상으로 사용할 수 없습니다."⟩]
  else []

def user_issues (d : Directory) (rows : List departments.ImportRow) (seen : List String)
    (row : UserRow) : List Issue :=
  login_issues seen row ++
    required "users" row.rowNumber row.name "name은 필수입니다." ++
    (if row.departmentCode = "" then
      [⟨"users", some row.rowNumber, "department_code는 필수입니다."⟩] else []) ++
    issue_of "users" row.rowNumber (resolve_role d row.roleCode) ++
    (if row.departmentCode = "" then []
      else issue_of "users" row.rowNumber (resolve_department rows row.departmentCode)) ++
    admin_issues d row

/-- The issues of the users, with the login ids seen so far. -/
def users_issues (d : Directory) (rows : List departments.ImportRow) :
    List String → List UserRow → List Issue
  | _, [] => []
  | seen, row :: rest =>
    user_issues d rows seen row ++ users_issues d rows (row.loginId :: seen) rest

/-! ## Users who are missing from the file -/

inductive Scope
  | none
  | uploaded_departments_only
  | company_all
  deriving DecidableEq, Repr

def normalize_deactivation_scope (scope : Option String) : Scope :=
  let normalized := Text.lower (Text.strip (scope.getD ""))
  if normalized = "none" then .none
  else if normalized = "company_all" then .company_all
  else .uploaded_departments_only

def VERIFICATION_ACCOUNT_PREFIXES : List String :=
  ["verify.", "test.", "incident.", "bulk.", "layoutverify", "roleverify"]

def EXPLICIT_PROTECTED_EMAILS : List String :=
  ["admin@moaworks.local", "cyhuh@moaworks.local", "ysla@moaworks.local"]

def is_verification_account (login_id : String) : Bool :=
  VERIFICATION_ACCOUNT_PREFIXES.any
    (fun start => start.toList.isPrefixOf (Text.lower (Text.strip login_id)).toList)

/-- An address as the comparison reads it. -/
def normalize_email (email : String) : String := Text.lower (Text.strip email)

/-- The login id of a normalised address. -/
def login_of (user : User) : String := Text.before '@' (normalize_email user.email)

def is_protected_account (user : User) (actor_email : String) : Bool :=
  decide (user.user_type = "admin") ||
    decide (normalize_email user.email ∈ EXPLICIT_PROTECTED_EMAILS) ||
    (decide (actor_email ≠ "") && decide (normalize_email user.email = actor_email))

/-- What becomes of a user in the comparison. -/
inductive Comparison
  | skip
  | protect (reason : String)
  | deactivate (reason : String)
  deriving DecidableEq, Repr

/-- The code of the user's department is one of the uploaded codes. -/
def in_uploaded_departments (d : Directory) (codes : List String) (user : User) : Bool :=
  decide (Text.strip ((d.department_codes.rows user.department_id).getD "") ∈ codes)

def missing_reason (scope : Scope) : String :=
  if scope = .company_all then "회사 전체 누락 비교" else "업로드 범위 누락"

def compare (d : Directory) (scope : Scope) (login_ids codes : List String) (actor_email : String)
    (user : User) : Comparison :=
  if user.status = .deleted ∨ user.status = .inactive then .skip
  else if login_of user ∈ login_ids then .skip
  else if scope = .none ∨
      (scope = .uploaded_departments_only ∧ in_uploaded_departments d codes user = false) then .skip
  else if is_protected_account user actor_email then
    .protect "보호 계정은 업로드 누락 비교에서 제외됩니다."
  else if scope = .uploaded_departments_only ∧ is_verification_account (login_of user) = false then
    .protect "기본 정책에서는 검수용 계정만 자동 비활성화 대상으로 비교합니다."
  else .deactivate (missing_reason scope)

/-- A user with the reason why he is in a list of the analysis. -/
structure Listed where
  id : String
  user : User
  reason : String
  deriving DecidableEq, Repr

def to_deactivate (comparison : User → Comparison) (entry : String × User) : Option Listed :=
  match comparison entry.2 with
  | .deactivate reason => some ⟨entry.1, entry.2, reason⟩
  | _ => none

def to_protect (comparison : User → Comparison) (entry : String × User) : Option Listed :=
  match comparison entry.2 with
  | .protect reason => some ⟨entry.1, entry.2, reason⟩
  | _ => none

/-! ## Warnings -/

def code_warning (rows : List departments.ImportRow) (code : String) : Option Issue :=
  let items := rows.filter (fun row => decide (row.departmentCode = code))
  if 1 < items.length then
    some ⟨"departments", none, "업무용 부서 코드 '" ++ code ++ "'가 " ++ toString items.length ++ "회 중복됩니다."⟩
  else none

def protected_warning (protected_users : List Listed) : List Issue :=
  if protected_users = [] then []
  else [⟨"users", none, "보호 계정 " ++ toString protected_users.length ++
    "명은 비활성화 예정 목록에서 제외되었습니다. 업로드 파일을 수정한 뒤 다시 검토하세요."⟩]

def scope_warning : Scope → List Issue
  | .none => []
  | .uploaded_departments_only => [⟨"users", none,
      "기본 정책은 업로드 부서 범위 안의 검수용 계정만 누락 사용자 비교 대상으로 삼습니다."⟩]
  | .company_all => [⟨"users", none,
      "회사 전체 누락 사용자 비활성화 정책이 선택되었습니다. 보호 계정이 포함되면 적용이 차단됩니다."⟩]

/-! ## The analysis -/

structure Analysis where
  departments : List departments.ImportRow
  users : List UserRow
  users_to_deactivate : List Listed
  protected_users : List Listed
  deactivation_scope : Scope
  errors : List Issue
  warnings : List Issue

/-- `str(actor.userEmail).strip().lower()`. -/
def actor_address (actor_email : Option String) : String := (actor_email.map normalize_email).getD ""

def analyze_import (int_float : String → Whole) (d : Directory)
    (departments : List RawDepartment) (users : List RawUser) (actor_email : Option String)
    (scope : Scope) : Except String Analysis := do
  let normalized_departments ← departments.mapM (normalize_department int_float)
  let normalized_users := users.map normalize_user
  let uploaded_login_ids := (normalized_users.map (·.loginId)).filter (fun id => decide (id ≠ ""))
  let uploaded_department_codes :=
    (normalized_departments.map (·.departmentCode)).filter (fun code => decide (code ≠ ""))
  let comparison :=
    compare d scope uploaded_login_ids uploaded_department_codes (actor_address actor_email)
  let protected_users := (existing_users d).filterMap (to_protect comparison)
  return {
    departments := normalized_departments
    users := normalized_users
    users_to_deactivate := (existing_users d).filterMap (to_deactivate comparison)
    protected_users := protected_users
    deactivation_scope := scope
    errors := normalized_departments.flatMap department_issues ++
      normalized_departments.flatMap (parent_issues normalized_departments) ++
      users_issues d normalized_departments [] normalized_users
    warnings := uploaded_department_codes.eraseDups.filterMap (code_warning normalized_departments) ++
      protected_warning protected_users ++ scope_warning scope }

end moaworks.org
