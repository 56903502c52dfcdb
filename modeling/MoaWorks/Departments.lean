-- The departments of a company: how they are created, moved and deleted, and
-- how an uploaded workbook replaces them.
import MoaWorks.Lib.Forest
import MoaWorks.Lib.Machine
import MoaWorks.Lib.Table
import MoaWorks.Lib.Text

namespace moaworks.departments

inductive Status
  | active
  | inactive
  | deleted
  deriving DecidableEq, Repr

/-- A row of `departments`. -/
structure Department where
  name : String
  parent_id : Option String
  status : Status
  sort_order : Int
  is_default : Bool
  deriving DecidableEq, Repr

abbrev Departments := Table String Department

/-- The parent of a department; the column has no foreign key. -/
def parentOf (departments : Departments) (id : String) : Option String :=
  (departments.rows id).bind (·.parent_id)

/-! ## One department -/

def not_found : String := "대상 부서를 찾을 수 없습니다."

def parent_deleted : String := "삭제된 부서는 상위 부서로 선택할 수 없습니다."

def create_department (departments : Departments) (id name : String) (parent_id : Option String)
    (sort_order : Int) : Except String Departments :=
  let inserted := departments.set id ⟨Text.strip name, parent_id, .active, sort_order, false⟩
  match parent_id with
  | none => .ok inserted
  | some parent_id =>
    match departments.rows parent_id with
    | none => .error not_found
    | some parent => if parent.status = .deleted then .error parent_deleted else .ok inserted

/-- `DepartmentUpdateRequest`. The schema knows no status `deleted`. -/
structure DepartmentUpdateRequest where
  name : Option String
  parentId : Option String
  sortOrder : Option Int
  activate : Option Bool
  deriving DecidableEq, Repr

/-- The row that an update writes. -/
def updated (current : Department) (payload : DepartmentUpdateRequest) : Department where
  name := (payload.name.map Text.strip).getD current.name
  parent_id := payload.parentId.or current.parent_id
  status := (payload.activate.map (fun active => if active then .active else .inactive)).getD
    current.status
  sort_order := payload.sortOrder.getD current.sort_order
  is_default := current.is_default

def update_department (departments : Departments) (department_id : String)
    (payload : DepartmentUpdateRequest) : Except String Departments :=
  match departments.rows department_id with
  | none => .error not_found
  | some current =>
    let next := updated current payload
    -- an empty parent id counts as no parent, and is stored
    match next.parent_id.filter (fun next_parent_id => decide (next_parent_id ≠ "")) with
    | none => .ok (departments.set department_id next)
    | some next_parent_id =>
      match departments.rows next_parent_id with
      | none => .error not_found
      | some parent =>
        if next_parent_id = department_id then .error "부서를 자기 자신 아래로 이동할 수 없습니다."
        else if parent.status = .deleted then .error parent_deleted
        else .ok (departments.set department_id next)

/-- `staffed`: a user who is not deleted belongs to the department. -/
def delete_department (departments : Departments) (department_id : String) (staffed : Bool) :
    Except String Departments :=
  match departments.rows department_id with
  | none => .error not_found
  | some current =>
    if current.status = .deleted then .error "이미 삭제된 부서입니다."
    else if current.is_default then .error "기본 부서는 삭제할 수 없습니다."
    else if (departments.select (fun _ child =>
        decide (child.parent_id = some department_id) && decide (child.status ≠ .deleted))).Nonempty then
      .error "하위 부서가 있어 삭제할 수 없습니다."
    else if staffed then .error "소속 사용자가 있어 삭제할 수 없습니다."
    else .ok (departments.set department_id { current with status := .deleted })

/-! ## The workbook -/

/-- A row of the sheet `departments`, with its texts normalised. -/
structure ImportRow where
  rowNumber : Nat
  departmentCode : String
  departmentName : String
  parentDepartmentCode : Option String
  sortOrder : Int
  active : Bool
  deriving DecidableEq, Repr

/-- `_analyze_import` for the parent of one row: its row number, or the issue. -/
def parentRow (rows : List ImportRow) (row : ImportRow) : Except String (Option Nat) :=
  match row.parentDepartmentCode with
  | none => .ok none
  | some code =>
    match rows.filter (fun other => decide (other.departmentCode ≠ "") &&
        decide (other.departmentCode = code)) with
    | [] => .error ("상위 부서 코드 '" ++ code ++ "'를 찾지 못했습니다.")
    | [parent] =>
      if parent.rowNumber = row.rowNumber then .error "자기 자신을 상위 부서로 지정할 수 없습니다."
      else .ok (some parent.rowNumber)
    | _ => .error ("상위 부서 코드 '" ++ code ++ "'가 중복되어 부모 연결이 모호합니다.")

/-- The issues of one row. -/
def issues (rows : List ImportRow) (row : ImportRow) : List String :=
  (if row.departmentCode = "" then ["department_code는 필수입니다."] else []) ++
    (if row.departmentName = "" then ["department_name은 필수입니다."] else []) ++
    (match parentRow rows row with
      | .ok _ => []
      | .error issue => [issue])

/-- The loop over the new departments. `created` is `created_department_ids`;
a parent that comes later in the sheet is not in it yet. -/
def insertRows (rows : List ImportRow) :
    List (ImportRow × String) → (Nat → Option String) → Departments → Departments
  | [], _, departments => departments
  | (row, id) :: rest, created, departments =>
    let created' := fun n => if n = row.rowNumber then some id else created n
    let parent_id := match parentRow rows row with
      | .ok (some parentRowNumber) => created' parentRowNumber
      | _ => none
    insertRows rows rest created' (departments.set id
      ⟨row.departmentName, parent_id, if row.active then .active else .inactive, row.sortOrder,
        false⟩)

def deactivate (departments : Departments) : Departments :=
  departments.update (fun _ department => decide (department.status = .active))
    (fun department => { department with status := .inactive })

/-- `apply_batch` for the departments of the batch, each with its new id. The
checks of the users and of the confirmations, whatever they say, are `passed`. -/
def apply_batch (departments : Departments) (rows : List (ImportRow × String)) (passed : Bool) :
    Except String Departments :=
  let sheet := rows.map (·.1)
  if ¬ ∀ row ∈ sheet, issues sheet row = [] then .error "검증 오류가 남아 있어 적용할 수 없습니다."
  else if passed = false then .error "ORG_IMPORT_REVALIDATION_REQUIRED"
  else .ok (insertRows sheet rows (fun _ => none) (deactivate departments))

/-! ## The machine -/

inductive Action
  | create_department (id name : String) (parent_id : Option String) (sort_order : Int)
  | update_department (department_id : String) (payload : DepartmentUpdateRequest)
  | delete_department (department_id : String) (staffed : Bool)
  | apply_batch (rows : List (ImportRow × String)) (passed : Bool)
  deriving DecidableEq, Repr

/-- A new random id: no row has it, not even as its parent. -/
def fresh (departments : Departments) (id : String) : Bool :=
  decide (id ≠ "") && decide (departments.rows id = none) &&
    decide (∀ k ∈ departments.keys, parentOf departments k ≠ some id)

def step (departments : Departments) : Action → Option Departments
  | .create_department id name parent_id sort_order =>
    if fresh departments id then (create_department departments id name parent_id sort_order).toOption
    else none
  | .update_department department_id payload =>
    (update_department departments department_id payload).toOption
  | .delete_department department_id staffed =>
    (delete_department departments department_id staffed).toOption
  | .apply_batch rows passed =>
    if (∀ entry ∈ rows, fresh departments entry.2) ∧ (rows.map (·.2)).Nodup then
      (apply_batch departments rows passed).toOption
    else none

/-- Only deleted departments stand under a deleted one. -/
def Living (departments : Departments) : Prop :=
  ∀ id department parent_id parent, departments.rows id = some department →
    department.status ≠ .deleted → department.parent_id = some parent_id →
    departments.rows parent_id = some parent → parent.status ≠ .deleted

/-- A start: a sound hierarchy in which every department has an id. -/
structure Start (departments : Departments) : Prop where
  acyclic : Forest.Acyclic (parentOf departments)
  living : Living departments
  named : departments.rows "" = none

def machine : Machine Departments Action where
  Start := Start
  step := step

end moaworks.departments
