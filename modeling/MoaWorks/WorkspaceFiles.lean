-- The files of the workspace: who has access to a file and may do what with it, and the lists that
-- an actor sees of them.
import Mathlib.Data.String.Basic
import MoaWorks.Clock
import MoaWorks.Lib.Raise
import MoaWorks.Lib.Table
import MoaWorks.Lib.Text

namespace moaworks.workspace

/-! ## Rows -/

structure AuthUserSummary where
  userId : String
  companyId : String
  deriving DecidableEq, Repr

structure User where
  company_id : String
  department_id : Option String
  active : Bool
  deriving DecidableEq, Repr

structure Department where
  company_id : String
  active : Bool
  deriving DecidableEq, Repr

inductive Status
  | active | deleted
  deriving DecidableEq, Repr

/-- A row of `workspace_files`. -/
structure File where
  company_id : String
  owner_user_id : String
  folder_id : Option String
  file_name : String
  content_type : String
  size_bytes : Nat
  checksum : String
  status : Status
  current_version : Nat
  version : Nat
  created_at : Time
  updated_at : Time
  deriving DecidableEq, Repr

inductive Target
  | user | department
  deriving DecidableEq, Repr

inductive Permission
  | viewer | editor | owner
  deriving DecidableEq, Repr

/-- A row of `workspace_file_shares`. -/
structure Share where
  file_id : String
  target_type : Target
  target_id : String
  permission : Permission
  active : Bool
  deriving DecidableEq, Repr

/-- The tables that decide on the access to a file. -/
structure Access where
  users : Table String User
  departments : Table String Department
  shares : List Share
  /-- Files with the users whose favorites they are. -/
  favorites : List (String × String)

/-! ## Access -/

/-- The department of the actor, in the condition of the access. -/
def accessDepartment (db : Access) (user_id : String) : Option String :=
  (db.users.rows user_id).bind (fun actor =>
    actor.department_id.filter (fun id => actor.active && (db.departments.rows id).any (fun d =>
      decide (d.company_id = actor.company_id) && d.active)))

/-- The same in the permission of `_lock_file_access`. -/
def lockedDepartment (db : Access) (user_id : String) : Option String :=
  (db.users.rows user_id).bind (fun actor =>
    actor.department_id.filter (fun id => actor.active && (db.departments.rows id).any (fun d =>
      d.active)))

/-- The same in the lists. -/
def listedDepartment (db : Access) (user_id : String) : Option String :=
  (db.users.rows user_id).bind User.department_id

/-- A share of the file is active for the actor, or for the department. -/
def shared (db : Access) (file_id : String) (p : Share → Bool) (user_id : String)
    (department : Option String) : Bool :=
  db.shares.any (fun s => decide (s.file_id = file_id) && s.active && p s &&
    match s.target_type with
    | .user => decide (s.target_id = user_id)
    | .department => sqlEq (some s.target_id) department)

def _file_access_sql (db : Access) (user : AuthUserSummary) (id : String) (f : File) : Bool :=
  decide (f.company_id = user.companyId) &&
  (db.users.rows user.userId).any (fun actor =>
    decide (actor.company_id = f.company_id) && actor.active) &&
  (decide (f.owner_user_id = user.userId) ||
    shared db id (fun _ => true) user.userId (accessDepartment db user.userId))

def isEditor (s : Share) : Bool := decide (s.permission = .editor)

def effective_permission (db : Access) (user_id : String) (department : Option String)
    (id : String) (f : File) : Permission :=
  if f.owner_user_id = user_id then .owner
  else if shared db id isEditor user_id department then .editor
  else .viewer

inductive Action
  | detail | download | rename | version | move | share | favorite | trash | restore
  deriving DecidableEq, Repr

def allowed : Permission → List Action
  | .owner => [.detail, .download, .rename, .version, .move, .share, .favorite, .trash, .restore]
  | .editor => [.detail, .download, .rename, .version, .favorite]
  | .viewer => [.detail, .download, .favorite]

structure HTTPException where
  status_code : Nat
  code : String
  userMessage : String
  deriving DecidableEq, Repr

def _missing : HTTPException := ⟨404, "WORKSPACE_NOT_FOUND", "대상을 찾을 수 없습니다."⟩

def forbidden : HTTPException := ⟨403, "FILE_FORBIDDEN", "이 작업을 수행할 권한이 없습니다."⟩

def _lock_file_access (db : Access) (files : Table String File) (user : AuthUserSummary)
    (item_id : String) (action : Action) (required_status : Status) :
    Except HTTPException File := do
  let row ← Raise.found ((files.rows item_id).filter (_file_access_sql db user item_id)) _missing
  Raise.require (row.status = required_status) _missing
  Raise.require (required_status = .deleted → row.owner_user_id = user.userId) _missing
  let department := lockedDepartment db user.userId
  let permission := effective_permission db user.userId department item_id row
  Raise.require (action ∈ allowed permission) forbidden
  return row

/-! ## Lists -/

inductive Scope
  | mine | shared | department | recent | favorites | trash
  deriving DecidableEq, Repr

def shareTo (db : Access) (file_id : String) (target_type : Target) (target : Option String) :
    Bool :=
  db.shares.any (fun s => decide (s.file_id = file_id) && decide (s.target_type = target_type) &&
    sqlEq (some s.target_id) target && s.active)

/-- The clause of a scope. -/
def inScope (db : Access) (user_id : String) (now : Time) (scope : Scope) (id : String) (f : File) :
    Bool :=
  match scope with
  | .mine => decide (f.owner_user_id = user_id) && decide (f.status = .active)
  | .shared => decide (f.owner_user_id ≠ user_id) && decide (f.status = .active) &&
      shareTo db id .user (some user_id)
  | .department => decide (f.status = .active) &&
      shareTo db id .department (listedDepartment db user_id)
  | .recent => decide (f.status = .active) &&
      decide ((now : Int) - minutes (30 * 24 * 60) ≤ (f.updated_at : Int))
  | .favorites => decide (f.status = .active) && decide ((id, user_id) ∈ db.favorites)
  | .trash => decide (f.owner_user_id = user_id) && decide (f.status = .deleted)

/-- LIKE, with the texts in lower case. -/
def like : List Char → List Char → Bool
  | [], s => s.isEmpty
  | '%' :: p, s => s.tails.any (fun t => like p t)
  | '_' :: p, _ :: s => like p s
  | '\\' :: c :: p, d :: s => decide (c = d) && like p s
  | c :: p, d :: s => decide (c = d) && like p s
  | _ :: _, [] => false

def ilike (pattern s : String) : Bool := like (Text.lower pattern).toList (Text.lower s).toList

structure Permissions where
  download : Bool
  favorite : Bool
  rename : Bool
  newVersion : Bool
  move : Bool
  share : Bool
  trash : Bool
  restore : Bool
  deriving DecidableEq, Repr

structure FileView where
  id : String
  fileName : String
  contentType : String
  sizeBytes : Nat
  status : Status
  folderId : Option String
  currentVersion : Nat
  version : Nat
  owner_user_id : String
  isFavorite : Bool
  created_at : Time
  updated_at : Time
  permissions : Permissions
  deriving DecidableEq, Repr

def _file_view (id : String) (row : File) (is_favorite : Bool) (effective : Permission)
    (actor_id : String) : FileView :=
  let owner := decide (row.owner_user_id = actor_id) || decide (effective = .owner)
  let editor := decide (effective = .editor)
  let permissions : Permissions :=
    if row.status = .deleted then ⟨false, false, false, false, false, false, false, owner⟩
    else ⟨true, true, owner || editor, owner || editor, owner, owner, owner, false⟩
  ⟨id, row.file_name, row.content_type, row.size_bytes, row.status, row.folder_id,
    row.current_version, row.version, row.owner_user_id, is_favorite, row.created_at,
    row.updated_at, permissions⟩

/-- `folder` is `none` when no folder is specified. -/
def _list_files (db : Access) (files : Table String File) (user : AuthUserSummary) (scope : Scope)
    (folder : Option (Option String)) (query : String) (now : Time) : List FileView :=
  files.orderedKeys.filterMap (fun id => (files.rows id).bind (fun f =>
    if _file_access_sql db user id f && inScope db user.userId now scope id f &&
        (decide (query = "") || ilike ("%" ++ query ++ "%") f.file_name) &&
        folder.all (fun folder_id => decide (f.folder_id = folder_id)) then
      some (_file_view id f (decide ((id, user.userId) ∈ db.favorites))
        (effective_permission db user.userId (listedDepartment db user.userId) id f) user.userId)
    else none))

end moaworks.workspace
