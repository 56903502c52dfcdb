-- The directory of a company: its users, their departments and their roles,
-- and the calls of an administrator that change one user or one department.
import MoaWorks.AdminLimit
import MoaWorks.Departments
import MoaWorks.Lib.Raise

namespace moaworks.org

open Raise

/-- `DirectoryUserStatus`. -/
inductive DirectoryUserStatus
  | active
  | inactive
  | deleted
  | pending_mfa
  deriving DecidableEq, Repr

def DirectoryUserStatus.text : DirectoryUserStatus → String
  | .active => "active"
  | .inactive => "inactive"
  | .deleted => "deleted"
  | .pending_mfa => "pending_mfa"

/-- A row of `roles`. -/
structure Role where
  name : String
  permissions : List String
  status : String
  created_at : Nat
  deriving DecidableEq, Repr

/-- A row of `users`. -/
structure User where
  email : String
  name : String
  department_id : String
  role_id : String
  status : DirectoryUserStatus
  user_type : String
  is_department_head : Bool
  must_change_password : Bool
  created_at : Nat
  deriving DecidableEq, Repr

/-- The tables of the one company. `department_codes` is the column
`department_code` of `departments`, where it is not NULL. -/
structure Directory where
  company_domain : String
  departments : departments.Departments
  department_codes : Table String String
  roles : Table String Role
  users : Table String User

namespace Directory

variable (d : Directory)

/-! ## Writing a user -/

/-- What the trigger on `users` reads. -/
def limit_view : admin_active_limit.Db where
  users := d.users.map (fun user => ⟨user.status.text, user.user_type, user.role_id⟩)
  roles := d.roles.map (fun role => ⟨role.permissions⟩)

/-- The condition under which `enforce_admin_active_user_limit` raises. -/
def over_limit (id : String) (new : User) : Bool :=
  !admin_active_limit.old_is_active_admin d.limit_view id &&
    d.limit_view.is_active_admin ⟨new.status.text, new.user_type, new.role_id⟩ &&
    decide (3 ≤ admin_active_limit.active_admin_count d.limit_view id)

def put_user (id : String) (user : User) : Directory := { d with users := d.users.set id user }

/-- INSERT, or UPDATE of status, type or role, with the trigger. -/
def write_user (id : String) (new : User) : Except String Directory :=
  if d.over_limit id new then .error "ADMIN_ACTIVE_LIMIT_REACHED" else .ok (d.put_user id new)

/-- `UPDATE users SET is_department_head = FALSE WHERE department_id = … AND id <> …`. -/
def clear_heads (department_id user_id : String) : Directory :=
  let users := d.users.update
    (fun id user => decide (user.department_id = department_id) && decide (id ≠ user_id))
    (fun user => { user with is_department_head := false })
  { d with users := users }

/-! ## Reading -/

/-- The joins of `users` with `departments` and `roles` find a row. -/
def joined (user : User) : Bool :=
  (d.departments.rows user.department_id).isSome && (d.roles.rows user.role_id).isSome

def fetch_user_access_row (user_id : String) : Option User := (d.users.rows user_id).filter d.joined

def fetch_required_department (department_id : String) : Except String departments.Department :=
  found (d.departments.rows department_id) departments.not_found

def fetch_required_role (role_id : String) : Except String Role :=
  found (d.roles.rows role_id) "대상 권한을 찾을 수 없습니다."

/-- `SELECT 1 FROM users WHERE email = …`. -/
def email_taken (email : String) : Bool :=
  decide (d.users.select (fun _ user => decide (user.email = email))).Nonempty

/-- The administrators that the guards count: all that are not deleted. -/
def admin_count : Nat :=
  (d.users.select (fun _ user => decide (user.user_type = "admin") &&
    decide (user.status ≠ .deleted))).card

end Directory

/-! ## The calls -/

/-- `UserCreateRequest`. -/
structure UserCreateRequest where
  name : String
  loginId : Option String
  email : Option String
  departmentId : String
  roleId : String
  status : DirectoryUserStatus
  userType : String
  isDepartmentHead : Bool
  deriving DecidableEq, Repr

/-- `UserUpdateRequest`. -/
structure UserUpdateRequest where
  name : Option String
  password : Option String
  departmentId : Option String
  roleId : Option String
  status : Option DirectoryUserStatus
  userType : Option String
  isDepartmentHead : Option Bool
  deriving DecidableEq, Repr

def no_user : String := "대상 사용자를 찾을 수 없습니다."

def derive_login_id (login_id email : Option String) : Except String String :=
  match login_id.filter (fun text => decide (Text.strip text ≠ "")),
      email.filter (fun text => decide (Text.strip text ≠ "")) with
  | some login_id, _ => .ok (Text.lower (Text.strip login_id))
  | none, some email => .ok (Text.before '@' (Text.lower (Text.strip email)))
  | none, none => .error "아이디를 입력해야 합니다."

def build_user_email (login_id company_domain : String) : String :=
  login_id ++ "@" ++ Text.lower (Text.strip company_domain)

/-- The row that `create_user` inserts. The type is stored as it was sent. -/
def created_user (payload : UserCreateRequest) (email : String) (now : Nat) : User where
  email := email
  name := Text.strip payload.name
  department_id := payload.departmentId
  role_id := payload.roleId
  status := payload.status
  user_type := payload.userType
  is_department_head := payload.isDepartmentHead
  must_change_password := false
  created_at := now

/-- `user_id` is the new id. -/
def create_user (d : Directory) (user_id : String) (now : Nat) (payload : UserCreateRequest) :
    Except String Directory := do
  let login_id ← derive_login_id payload.loginId payload.email
  let normalized_email := build_user_email login_id d.company_domain
  let _department ← d.fetch_required_department payload.departmentId
  let _role ← d.fetch_required_role payload.roleId
  require (d.email_taken normalized_email = false) "이미 존재하는 이메일입니다."
  -- the new user is not in the table yet
  let cleared := if payload.isDepartmentHead then d.clear_heads payload.departmentId user_id else d
  cleared.write_user user_id (created_user payload normalized_email now)

/-- `payload.x or current`: an empty text does not count. -/
def or_current (text : Option String) (current : String) : String :=
  (text.filter (fun text => decide (text ≠ ""))).getD current

/-- The row that `update_user` writes. -/
def updated_user (current : User) (payload : UserUpdateRequest) : User where
  email := current.email
  name := (payload.name.map Text.strip).getD current.name
  department_id := or_current payload.departmentId current.department_id
  role_id := or_current payload.roleId current.role_id
  status := payload.status.getD current.status
  user_type := Text.lower (Text.strip (or_current payload.userType current.user_type))
  is_department_head := payload.isDepartmentHead.getD current.is_department_head
  must_change_password := if payload.password.isSome then false else current.must_change_password
  created_at := current.created_at

def update_user (d : Directory) (user_id : String) (payload : UserUpdateRequest) :
    Except String Directory := do
  let current ← found (d.fetch_user_access_row user_id) no_user
  let next := updated_user current payload
  require (next.user_type = "admin" ∨ next.user_type = "user")
    "계정 분류는 admin 또는 user만 사용할 수 있습니다."
  let department ← d.fetch_required_department next.department_id
  let role ← d.fetch_required_role next.role_id
  require (department.status ≠ .deleted) "삭제된 부서는 선택할 수 없습니다."
  require (role.status ≠ "deleted") "삭제된 권한 역할은 선택할 수 없습니다."
  require (¬ (current.user_type = "admin" ∧ (next.user_type ≠ "admin" ∨ next.status = .deleted) ∧
    d.admin_count ≤ 1)) "마지막 관리자 계정은 일반 사용자로 변경할 수 없습니다."
  let cleared := if next.is_department_head then d.clear_heads next.department_id user_id else d
  cleared.write_user user_id next

def delete_user (d : Directory) (actor_user_id user_id : String) : Except String Directory := do
  let current ← found (d.fetch_user_access_row user_id) no_user
  require (user_id ≠ actor_user_id) "본인 계정은 삭제할 수 없습니다."
  require (current.status ≠ .deleted) "이미 삭제된 사용자입니다."
  require (¬ (current.user_type = "admin" ∧ d.admin_count ≤ 1)) "마지막 관리자 계정은 삭제할 수 없습니다."
  d.write_user user_id { current with status := .deleted }

/-- A user who is not deleted belongs to the department. -/
def Directory.staffed (d : Directory) (department_id : String) : Bool :=
  decide (d.users.select (fun _ user => decide (user.department_id = department_id) &&
    decide (user.status ≠ .deleted))).Nonempty

def delete_department (d : Directory) (department_id : String) : Except String Directory := do
  let remaining ← departments.delete_department d.departments department_id (d.staffed department_id)
  return { d with departments := remaining }

end moaworks.org
