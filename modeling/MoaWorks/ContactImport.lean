-- The import of contacts from a CSV file (workspace_service.py): the rows of the file, the plan
-- that the preview shows, and the call that carries it out.
import Mathlib.Data.List.Sort
import Mathlib.Order.Lattice.Nat
import Mathlib.Data.String.Basic
import Mathlib.Data.Finset.Lattice.Fold
import MoaWorks.Lib.Program
import MoaWorks.Lib.Raise
import MoaWorks.Lib.Table
import MoaWorks.Lib.Text

namespace moaworks.contact_import

open Raise (require)

abbrev Bytes := List UInt8

/-- A call of the library raised, a request was refused, or the database refused a statement. -/
inductive Error
  | csv (message : String)
  | http (status_code : Nat) (code userMessage : String)
  | database (message : String)
  deriving DecidableEq

/-- What comes from the libraries: SHA-256, the decoding of UTF-8 with or without a mark, the
records of a CSV text as far as its reader gets, and `str.lower`. -/
structure Environment where
  sha256 : Bytes → String
  decode : Bytes → Option String
  reader : String → List (List String) × Option String
  lower : String → String
  sha256_length : ∀ content, (sha256 content).toList.length = 64
  sha256_digits : ∀ content, ∀ c ∈ (sha256 content).toList,
    ('0' ≤ c ∧ c ≤ '9') ∨ ('a' ≤ c ∧ c ≤ 'f')
  lower_lower : ∀ s, lower (lower s) = lower s

/-! ## The database -/

/-- A row of `users`. -/
structure UserRow where
  company_id : String
  active : Bool
  deriving DecidableEq

/-- A row of `contact_groups`. -/
structure Group where
  company_id : String
  owner_user_id : String
  name : String
  sort_order : Nat
  active : Bool
  deriving DecidableEq

/-- A row of `personal_contacts`. -/
structure Contact where
  company_id : String
  owner_user_id : String
  group_id : Option String
  name : String
  email : String
  phone : String
  company_name : String
  memo : String
  active : Bool
  deriving DecidableEq

structure Database where
  users : Table String UserRow
  contact_groups : Table String Group
  personal_contacts : Table String Contact

/-- `AuthUserSummary` -/
structure User where
  userId : String
  companyId : String

/-- The names that `uuid4` draws for the n-th group and the n-th contact of a call. -/
structure Draws where
  group : Nat → String
  contact : Nat → String

section

variable (env : Environment) (user : User)

/-! ## The file -/

def fileInvalid (userMessage : String) : Error := .http 400 "CONTACT_IMPORT_FILE_INVALID" userMessage

def allowedTypes : List String :=
  ["text/csv", "application/csv", "application/vnd.ms-excel", "text/plain", "application/octet-stream"]

def validateContactImportFile (file_name content_type : String) (content : Bytes) :
    Except Error Unit := do
  require (".csv".toList.isSuffixOf (env.lower file_name).toList = true)
    (fileInvalid "CSV 파일만 가져올 수 있습니다.")
  require (env.lower content_type ∈ allowedTypes) (fileInvalid "CSV 형식의 파일을 선택하세요.")
  require (content ≠ [])
    (.http 400 "CONTACT_IMPORT_FILE_EMPTY" "빈 CSV 파일은 가져올 수 없습니다.")
  require (content.length ≤ 1024 * 1024)
    (.http 413 "CONTACT_IMPORT_FILE_TOO_LARGE" "CSV 파일은 최대 1MB입니다.")

structure Row where
  rowNumber : Nat
  name : String
  email : String
  phone : String
  companyName : String
  memo : String
  groupName : String
  deriving DecidableEq

structure RowError where
  rowNumber : Nat
  message : String
  deriving DecidableEq

structure Parsed where
  digest : String
  rows : List Row
  errors : List RowError
  totalRows : Nat

/-- `" ".join(s.split())` -/
def collapse (s : String) : String :=
  String.ofList ([' '].intercalate ((s.toList.splitOnP Text.isSpace).filter (fun word => word ≠ [])))

/-- `[^\s@]+@[^\s@]+\.[^\s@]+`: the domain has a dot inside. -/
def isEmail (s : String) : Bool :=
  match s.toList.splitOn '@' with
  | [name, domain] => name != [] && name.all (fun c => !Text.isSpace c) &&
      domain.all (fun c => !Text.isSpace c) && domain.tail.dropLast.contains '.'
  | _ => false

/-- `raw.get(header) or ""` of a row of `DictReader`. -/
def field (headers record : List String) (header : String) : String :=
  ((headers.zip record).lookup header).getD ""

def rowErrors (headers record : List String) (row : Row) : List String :=
  (if headers.length < record.length then ["허용된 헤더 수보다 값이 많습니다."] else []) ++
  (if row.name = "" ∨ 120 < row.name.length then ["이름은 1~120자여야 합니다."] else []) ++
  (if ¬ isEmail row.email = true ∨ 255 < row.email.length then
    ["이메일 형식이 올바르지 않습니다."] else []) ++
  (if 64 < row.phone.length then ["전화번호는 64자 이하여야 합니다."] else []) ++
  (if 160 < row.companyName.length then ["회사명은 160자 이하여야 합니다."] else []) ++
  (if 2000 < row.memo.length then ["메모는 2000자 이하여야 합니다."] else []) ++
  (if 60 < row.groupName.length then ["그룹 이름은 60자 이하여야 합니다."] else [])

def rowOf (headers : List String) (index : Nat) (record : List String) : Row where
  rowNumber := index
  name := collapse (field headers record "name")
  email := env.lower (Text.strip (field headers record "email"))
  phone := Text.strip (field headers record "phone")
  companyName := Text.strip (field headers record "companyName")
  memo := Text.strip (field headers record "memo")
  groupName := collapse (field headers record "groupName")

/-- The loop over the rows of the file: the good ones, and the errors of the others. -/
def parseRows (headers : List String) : Nat → List (List String) → List Row × List RowError
  | _, [] => ([], [])
  | index, record :: records =>
    let row := rowOf env headers index record
    let (rows, errors) := parseRows headers (index + 1) records
    match rowErrors headers record row with
    | [] => (row :: rows, errors)
    | messages => (rows, ⟨index, " ".intercalate messages⟩ :: errors)

def requiredHeaders : List String := ["name", "email"]

def allowedHeaders : List String := ["name", "email", "phone", "companyName", "memo", "groupName"]

def validHeaders (headers : List String) : Bool :=
  requiredHeaders.all headers.contains && headers.all allowedHeaders.contains && decide headers.Nodup

def parseContactCsv (content : Bytes) : Except Error Parsed :=
  let digest := env.sha256 content
  match env.decode content with
  | none => .error (.http 400 "CONTACT_IMPORT_ENCODING_INVALID" "UTF-8 CSV 파일만 가져올 수 있습니다.")
  | some text =>
    let headers := ((env.reader text).1.headD []).map Text.strip
    match (env.reader text).1, (env.reader text).2 with
    | [], some message => .error (.csv message)
    | records, failure =>
      if ¬ validHeaders headers = true then
        .ok ⟨digest, [], [⟨1, "CSV 헤더를 확인하세요. 필수 헤더는 name,email입니다."⟩], 0⟩
      else
        match failure with
        | some message => .error (.csv message)
        | none =>
          -- the reader passes over empty lines
          let raw_rows := records.tail.filter (fun record => record ≠ [])
          if 500 < raw_rows.length then
            .ok ⟨digest, [], [⟨502, "CSV 데이터 행은 최대 500개입니다."⟩], raw_rows.length⟩
          else
            let (rows, errors) := parseRows env headers 2 raw_rows
            .ok ⟨digest, rows, errors, raw_rows.length⟩

/-! ## The plan -/

/-- The active contacts of the user with this address. -/
def existingContacts (db : Database) (email : String) : Finset String :=
  db.personal_contacts.select (fun _ c => decide (c.company_id = user.companyId) &&
    decide (c.owner_user_id = user.userId) && c.active && decide (env.lower c.email = email))

/-- `existing_groups`: the active groups of the user, by their names in lower case. -/
def existingGroups (db : Database) (key : String) : Option String :=
  (db.contact_groups.orderedKeys.filter (fun id => (db.contact_groups.rows id).any (fun g =>
    decide (g.company_id = user.companyId) && decide (g.owner_user_id = user.userId) && g.active &&
      decide (env.lower g.name = key)))).getLast?

structure Plan where
  rowsToCreate : List Row
  existingEmailCount : Nat
  fileDuplicateCount : Nat
  groupsToCreate : List String

/-- The loop over the rows, with the addresses seen so far. -/
def planRows (exists_ : String → Bool) : List String → List Row → List Row × Nat × Nat
  | _, [] => ([], 0, 0)
  | seen, row :: rows =>
    if row.email ∈ seen then
      let (create, existing, duplicates) := planRows exists_ seen rows
      (create, existing, duplicates + 1)
    else
      let (create, existing, duplicates) := planRows exists_ (row.email :: seen) rows
      if exists_ row.email then (create, existing + 1, duplicates)
      else (row :: create, existing, duplicates)

def groupsToCreate (db : Database) (rows : List Row) : List String :=
  ((rows.map Row.groupName).filter (fun name =>
    decide (name ≠ "") && (existingGroups env user db (env.lower name)).isNone)).dedup.insertionSort
      (· ≤ ·)

def buildContactImportPlan (db : Database) (parsed : Parsed) : Plan :=
  let (create, existing, duplicates) :=
    planRows (fun email => decide (existingContacts env user db email ≠ ∅)) [] parsed.rows
  ⟨create, existing, duplicates, groupsToCreate env user db create⟩

structure Preview where
  digest : String
  totalRows : Nat
  errors : List RowError
  newCount : Nat
  existingEmailCount : Nat
  fileDuplicateCount : Nat
  groupsToCreate : List String
  canApply : Bool

def previewContactImport (db : Database) (file_name content_type : String) (content : Bytes) :
    Except Error Preview := do
  validateContactImportFile env file_name content_type content
  let parsed ← parseContactCsv env content
  if parsed.errors ≠ [] then
    pure ⟨parsed.digest, parsed.totalRows, parsed.errors, 0, 0, 0, [], false⟩
  else
    let plan := buildContactImportPlan env user db parsed
    pure ⟨parsed.digest, parsed.totalRows, [], plan.rowsToCreate.length, plan.existingEmailCount,
      plan.fileDuplicateCount, plan.groupsToCreate, true⟩

/-! ## The call -/

/-- A text that the database takes: it stores no NUL. -/
def storable (s : String) : Bool := s.toList.all (fun c => c != Char.ofNat 0)

def raiseOf {α : Type} : Except Error α → Program Database Error α
  | .ok a => pure a
  | .error e => throw e

def lockContactOwner : Program Database Error Unit := do
  let db ← get
  if db.users.rows user.userId = some ⟨user.companyId, true⟩ then pure ()
  else throw (.http 404 "WORKSPACE_NOT_FOUND" "대상을 찾을 수 없습니다.")

/-- INSERT INTO contact_groups, under `uq_contact_groups_owner_name_active`. -/
def insertGroup (id : String) (g : Group) : Program Database Error Unit := do
  let db ← get
  if ¬ storable g.name = true then throw (.database "text fields cannot contain NUL")
  else if (db.contact_groups.rows id).isSome then throw (.database "contact_groups_pkey")
  else if db.contact_groups.select (fun _ h => h.active && decide (h.owner_user_id = g.owner_user_id) &&
      decide (env.lower h.name = env.lower g.name)) ≠ ∅ then
    throw (.database "uq_contact_groups_owner_name_active")
  else modify (fun db => { db with contact_groups := db.contact_groups.set id g })

/-- INSERT INTO personal_contacts, under `uq_personal_contacts_owner_email_active`. -/
def insertContact (id : String) (c : Contact) : Program Database Error Unit := do
  let db ← get
  if ¬ [c.name, c.email, c.phone, c.company_name, c.memo].all storable = true then
    throw (.database "text fields cannot contain NUL")
  else if (db.personal_contacts.rows id).isSome then throw (.database "personal_contacts_pkey")
  else if db.personal_contacts.select (fun _ d => d.active &&
      decide (d.owner_user_id = c.owner_user_id) && decide (env.lower d.email = env.lower c.email)) ≠ ∅ then
    throw (.database "uq_personal_contacts_owner_email_active")
  else modify (fun db => { db with personal_contacts := db.personal_contacts.set id c })

/-- `COALESCE(MAX(sort_order),-1)+1` of the active groups of the user. -/
def nextSort (db : Database) : Nat :=
  (db.contact_groups.select (fun _ g => decide (g.owner_user_id = user.userId) && g.active)).sup
    (fun id => ((db.contact_groups.rows id).map (fun g => g.sort_order + 1)).getD 0)

def groupOf (name : String) (sort_order : Nat) : Group where
  company_id := user.companyId
  owner_user_id := user.userId
  name := name
  sort_order := sort_order
  active := true

/-- The loop over `groupsToCreate`, with `group_by_name`. -/
def insertGroups (draws : Draws) (next_sort : Nat) :
    List String → Nat → (String → Option String) → Program Database Error (String → Option String)
  | [], _, group_by_name => pure group_by_name
  | group_name :: names, offset, group_by_name => do
    insertGroup env (draws.group offset) (groupOf user group_name (next_sort + offset))
    insertGroups draws next_sort names (offset + 1) (fun key =>
      if key = env.lower group_name then some (draws.group offset) else group_by_name key)

def contactOf (group_by_name : String → Option String) (row : Row) : Contact where
  company_id := user.companyId
  owner_user_id := user.userId
  group_id := if row.groupName ≠ "" then group_by_name (env.lower row.groupName) else none
  name := row.name
  email := row.email
  phone := row.phone
  company_name := row.companyName
  memo := row.memo
  active := true

/-- The loop over `rowsToCreate`, with the number of contacts created so far. -/
def insertContacts (draws : Draws) (group_by_name : String → Option String) :
    List Row → Nat → Program Database Error Nat
  | [], created => pure created
  | row :: rows, created => do
    insertContact env (draws.contact created) (contactOf env user group_by_name row)
    insertContacts draws group_by_name rows (created + 1)

structure Applied where
  createdCount : Nat
  skippedCount : Nat
  groupCount : Nat
  digest : String
  deriving DecidableEq

/-- `[0-9a-f]{64}` -/
def isDigest (s : String) : Bool :=
  decide (s.toList.length = 64) &&
    s.toList.all (fun c => decide ('0' ≤ c ∧ c ≤ '9') || decide ('a' ≤ c ∧ c ≤ 'f'))

/-- The transaction of the import. -/
def applyPlan (draws : Draws) (parsed : Parsed) : Program Database Error Applied := do
  lockContactOwner user
  let db ← get
  let plan := buildContactImportPlan env user db parsed
  let group_by_name ← insertGroups env user draws (nextSort user db) plan.groupsToCreate 0
    (existingGroups env user db)
  let created ← insertContacts env user draws group_by_name plan.rowsToCreate 0
  pure ⟨created, plan.existingEmailCount + plan.fileDuplicateCount, plan.groupsToCreate.length,
    parsed.digest⟩

def applyContactImport (draws : Draws) (file_name content_type : String) (content : Bytes)
    (expected_digest : String) : Program Database Error Applied := do
  raiseOf (validateContactImportFile env file_name content_type content)
  let parsed ← raiseOf (parseContactCsv env content)
  if ¬ isDigest expected_digest = true ∨ parsed.digest ≠ expected_digest then
    throw (.http 409 "CONTACT_IMPORT_DIGEST_CONFLICT" "미리보기와 같은 CSV 파일을 다시 선택하세요.")
  else if parsed.errors ≠ [] then
    throw (.http 400 "CONTACT_IMPORT_ROWS_INVALID" "오류 행을 수정한 뒤 다시 가져오세요.")
  else Program.transaction (applyPlan env user draws parsed)

end

end moaworks.contact_import
