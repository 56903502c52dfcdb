-- The people behind the approvals: users with their roles, departments and
-- mail accounts, and what the approvals ask about them.
import MoaWorks.Lib.Table

namespace moaworks.directory_store

inductive Status
  | active
  | inactive
  | deleted
  deriving DecidableEq, Repr

/-- A row of `users`, with the status of its row of `mail_accounts`. -/
structure UserRow where
  company_id : String
  name : String
  department_id : Option String
  role_id : String
  status : Status
  mail_account : Option Status
  deriving DecidableEq, Repr

structure RoleRow where
  company_id : String
  permissions : List String
  status : Status
  deriving DecidableEq, Repr

structure DepartmentRow where
  company_id : String
  status : Status
  deriving DecidableEq, Repr

structure Directory where
  users : Table String UserRow
  roles : Table String RoleRow
  departments : Table String DepartmentRow

/-- What an operation raises, by the class of the exception. -/
inductive Error
  | value_error (message : String)
  | permission_error (message : String)
  | not_found (message : String)
  | attribute_error (message : String)
  | unique_violation (index : String)
  | delegation_period (message : String)
  | delegate_invalid (message : String)
  | delegation_overlap (message : String)
  | delegation_conflict (message : String)
  | delegation_not_found (message : String)
  deriving DecidableEq, Repr

structure AuthUserSummary where
  userId : String
  companyId : String
  userName : String
  permissions : List String
  departmentId : Option String
  deriving DecidableEq, Repr

namespace Directory

variable (directory : Directory)

/-- `_assert_user_accessible`, on the joined row. -/
def refusal (user : UserRow) (role : RoleRow) (mail_account : Status) : Option String :=
  if user.status = .inactive then some "비활성화된 사용자 계정입니다."
  else if user.status = .deleted then some "삭제된 사용자 계정입니다. 관리자에게 문의하세요."
  else if role.status = .inactive then some "사용자의 권한 역할이 비활성화되어 로그인할 수 없습니다."
  else if role.status = .deleted then some "사용자의 권한 역할이 삭제되어 로그인할 수 없습니다."
  else if mail_account ≠ .active then some "메일 계정이 비활성화되어 로그인할 수 없습니다."
  else none

/-- `_fetch_user_access_row`: a user without a department, a role or a mail
account has no row in the join. -/
def _fetch_user_access_row (user_id : String) : Option (UserRow × RoleRow × Status) := do
  let user ← directory.users.rows user_id
  let department_id ← user.department_id
  let _ ← directory.departments.rows department_id
  let role ← directory.roles.rows user.role_id
  let mail_account ← user.mail_account
  return (user, role, mail_account)

def _fetch_actor_summary (user_id : String) : Except Error AuthUserSummary :=
  match directory._fetch_user_access_row user_id with
  | none => .error (.value_error "대상 사용자를 찾을 수 없습니다.")
  | some (user, role, mail_account) =>
    match refusal user role mail_account with
    | some message => .error (.permission_error message)
    | none => .ok ⟨user_id, user.company_id, user.name, role.permissions, user.department_id⟩

/-- The WHERE clause of `_validate_delegate` and `_validate_approval_approvers`:
an active user of the company, with an active role, in no or an active department. -/
def active_member (company_id user_id : String) : Bool :=
  (directory.users.rows user_id).any (fun user =>
    decide (user.company_id = company_id) && decide (user.status = .active) &&
    (directory.roles.rows user.role_id).any (fun role =>
      decide (role.company_id = user.company_id) && decide (role.status = .active)) &&
    match user.department_id with
    | none => true
    | some department_id => (directory.departments.rows department_id).any (fun department =>
        decide (department.company_id = user.company_id) && decide (department.status = .active)))

/-- The company of a user. -/
def companyOf (user_id : String) : Option String :=
  (directory.users.rows user_id).map (·.company_id)

/-! ## Administration -/

/-- A row that the administration writes. -/
inductive Change
  | user (id : String) (row : UserRow)
  | role (id : String) (row : RoleRow)
  | department (id : String) (row : DepartmentRow)
  deriving DecidableEq, Repr

/-- Any change but one: no statement moves a user to another company. -/
def apply : Change → Option Directory
  | .user id row =>
    if (directory.users.rows id).all (fun old => decide (old.company_id = row.company_id)) then
      some { directory with users := directory.users.set id row }
    else none
  | .role id row => some { directory with roles := directory.roles.set id row }
  | .department id row => some { directory with departments := directory.departments.set id row }

variable {directory} {directory' : Directory} {actor : AuthUserSummary} {user_id : String}

theorem fetch_actor_summary_ok (h : directory._fetch_actor_summary user_id = .ok actor) :
    actor.userId = user_id ∧ directory.companyOf user_id = some actor.companyId ∧
      actor.departmentId.isSome := by
  unfold _fetch_actor_summary at h
  split at h
  · cases h
  · rename_i user role mail_account hrow
    split at h
    · cases h
    · cases h
      unfold _fetch_user_access_row at hrow
      simp only [Option.bind_eq_bind, Option.bind_eq_some_iff] at hrow
      obtain ⟨row, huser, department_id, hdepartment, _, _, _, _, _, _, heq⟩ := hrow
      cases heq
      refine ⟨rfl, ?_, ?_⟩
      · unfold companyOf
        rw [huser]
        rfl
      · dsimp only
        rw [hdepartment]
        rfl

theorem active_member_company {company_id : String}
    (h : directory.active_member company_id user_id = true) :
    directory.companyOf user_id = some company_id := by
  unfold active_member at h
  rw [Option.any_eq_true] at h
  obtain ⟨user, huser, h⟩ := h
  simp only [Bool.and_eq_true, decide_eq_true_eq] at h
  unfold companyOf
  rw [huser, ← h.1.1.1]
  rfl

/-- A user keeps the company. -/
theorem companyOf_apply {change : Change} (h : directory.apply change = some directory')
    {company_id : String} (hcompany : directory.companyOf user_id = some company_id) :
    directory'.companyOf user_id = some company_id := by
  cases change with
  | user id row =>
    dsimp only [apply] at h
    split_ifs at h with hsame
    cases h
    unfold companyOf at hcompany ⊢
    dsimp only
    by_cases hid : user_id = id
    · subst hid
      obtain ⟨old, hold, rfl⟩ := Option.map_eq_some_iff.1 hcompany
      rw [hold, Option.all_some, decide_eq_true_eq] at hsame
      rw [Table.rows_set_self, hsame]
      rfl
    · rw [Table.rows_set_ne _ _ hid]
      exact hcompany
  | role id row =>
    cases h
    exact hcompany
  | department id row =>
    cases h
    exact hcompany

end Directory

end moaworks.directory_store
