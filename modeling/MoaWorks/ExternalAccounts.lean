-- The external mail accounts of the users: their rows and jobs, and the transactions of the
-- requests that create, change, test, collect and delete them.
import Mathlib.Data.String.Basic
import MoaWorks.Clock
import MoaWorks.Lib.Maildrop
import MoaWorks.Lib.Raise
import MoaWorks.Lib.Table
import MoaWorks.Lib.TextLaws

namespace moaworks.mail_external

inductive Error
  | invalid_endpoint (message : String)
  | secret_required (message : String)
  | rate_limited (message : String)
  | conflict (message : String)
  | limit (message : String)
  | test_required (message : String)
  | collection_busy (message : String)
  | not_found (message : String)
  | forbidden (message : String)
  | connection_failed (message : String)
  deriving DecidableEq, Repr

/-! ## Rows -/

inductive TlsMode
  | ssl | starttls
  deriving DecidableEq, Repr

inductive ConnectionStatus
  | untested | success | failed
  deriving DecidableEq, Repr

/-- The columns of a connection, with the password that `encrypted_password` decrypts to. -/
structure Connection where
  host : String
  port : Nat
  tls_mode : TlsMode
  username : String
  password : String
  deriving DecidableEq, Repr

structure Account where
  company_id : String
  user_id : String
  owner_mail_account_id : String
  display_name : String
  connection : Connection
  target_folder_id : Option String
  delete_from_server : Bool
  enabled : Bool
  connection_status : ConnectionStatus
  last_test_at : Option Time
  next_collect_at : Option Time
  last_collect_at : Option Time
  version : Nat
  deleted_at : Option Time
  deriving DecidableEq, Repr

inductive Trigger
  | manual | scheduled
  deriving DecidableEq, Repr

inductive JobStatus
  | queued | running | completed | partly | failed
  deriving DecidableEq, Repr

def JobStatus.active : JobStatus → Bool
  | queued => true
  | running => true
  | _ => false

structure Counts where
  seen : Nat
  imported : Nat
  duplicate : Nat
  deleted : Nat
  failed : Nat
  deriving DecidableEq, Repr

def Counts.zero : Counts := ⟨0, 0, 0, 0, 0⟩

structure CollectionJob where
  account_id : String
  company_id : String
  user_id : String
  trigger : Trigger
  status : JobStatus
  lease_owner : Option String
  lease_expires_at : Option Time
  attempt_count : Nat
  next_attempt_at : Time
  counts : Counts
  error_code : Option String
  created_at : Time
  started_at : Option Time
  completed_at : Option Time
  deriving DecidableEq, Repr

inductive RemoteDeleteStatus
  | kept | pending | deleted | failed
  deriving DecidableEq, Repr

structure Import where
  message_id : String
  remote_delete_status : RemoteDeleteStatus
  remote_delete_code : Option String
  imported_at : Time
  remote_deleted_at : Option Time
  deriving DecidableEq, Repr

/-- A mail that was collected, with its attachments. -/
structure Message where
  company_id : String
  sender_user_id : String
  source_external_account_id : String
  sender_email : String
  sender_display_name : String
  subject : String
  body_text : String
  body_html : Option String
  recipient_email : String
  folder_id : Option String
  attachments : List String
  sent_at : Time
  deriving DecidableEq, Repr

structure Folder where
  company_id : String
  user_id : String
  deriving DecidableEq, Repr

structure User where
  email : String
  name : String
  deriving DecidableEq, Repr

structure Db where
  users : Table String User
  /-- The mail account of each user. -/
  mail_accounts : Table String String
  folders : Table String Folder
  accounts : Table String Account
  jobs : Table String CollectionJob
  /-- The imports under `(account_id, uidl)`. -/
  imports : Table (String × String) Import
  messages : Table String Message

def Db.setAccount (db : Db) (id : String) (account : Account) : Db :=
  { db with accounts := db.accounts.set id account }

def Db.setJob (db : Db) (id : String) (job : CollectionJob) : Db :=
  { db with jobs := db.jobs.set id job }

structure AuthUserSummary where
  userId : String
  companyId : String
  deriving DecidableEq, Repr

/-! ## Endpoints -/

def isLabelChar (c : Char) : Bool :=
  (decide ('a' ≤ c) && decide (c ≤ 'z')) || (decide ('0' ≤ c) && decide (c ≤ '9')) ||
  decide (c = '-')

/-- `[a-z0-9](?:[a-z0-9-]{0,61}[a-z0-9])?`. -/
def isLabel (label : List Char) : Bool :=
  decide (label ≠ []) && decide (label.length ≤ 63) && label.all isLabelChar &&
  decide (label.head? ≠ some '-') && decide (label.getLast? ≠ some '-')

/-- The pattern of a domain name: two labels or more. -/
def isDomainName (value : String) : Bool :=
  let labels := value.toList.splitOn '.'
  decide (2 ≤ labels.length) && labels.all isLabel

def endpointMessage : String := "외부메일 서버 주소를 확인해 주세요."

/-- `is_ip` says which texts `ipaddress.ip_address` takes. -/
def validate_syntax (is_ip : String → Bool) (host : String) (port : Nat) (tls_mode : TlsMode) :
    Except Error String := do
  let value := Text.rstrip '.' (Text.lower (Text.strip host))
  Raise.require (value ≠ "" ∧ value.length ≤ 253 ∧ ¬ "://".toList <:+: value.toList ∧
    value.toList.all (fun c => decide (33 ≤ c.toNat)) = true) (.invalid_endpoint endpointMessage)
  Raise.require (value ≠ "localhost" ∧ ¬ ".local".toList <:+ value.toList)
    (.invalid_endpoint endpointMessage)
  Raise.require (is_ip value = false) (.invalid_endpoint "IP 주소는 사용할 수 없습니다.")
  Raise.require (isDomainName value = true) (.invalid_endpoint endpointMessage)
  Raise.require ((tls_mode = .ssl ∧ port = 995) ∨ (tls_mode = .starttls ∧ port = 110))
    (.invalid_endpoint "허용된 보안 연결과 포트를 선택해 주세요.")
  return value

/-! ## Creating and changing accounts -/

structure AccountPayload where
  displayName : String
  host : String
  port : Nat
  tlsMode : TlsMode
  username : String
  password : Option String
  targetFolderId : Option String
  deleteFromServer : Bool
  enabled : Bool
  deriving DecidableEq, Repr

def blank (password : Option String) : Bool :=
  password.all (fun p => decide (Text.strip p = ""))

def prepare_secret (password existing : Option String) : Except Error String :=
  match password with
  | some p => if blank (some p) then Raise.found existing
      (.secret_required "비밀번호를 입력해 주세요.") else .ok p
  | none => Raise.found existing (.secret_required "비밀번호를 입력해 주세요.")

def ownAccounts (db : Db) (actor : AuthUserSummary) : Finset String :=
  db.accounts.select (fun _ a => decide (a.company_id = actor.companyId) &&
    decide (a.user_id = actor.userId) && a.deleted_at.isNone)

/-- The rows of the index `uq_mail_external_active_identity`. -/
def sameIdentity (actor : AuthUserSummary) (connection : Connection) (a : Account) : Bool :=
  decide (a.company_id = actor.companyId) && decide (a.user_id = actor.userId) &&
  decide (Text.lower a.connection.host = Text.lower connection.host) &&
  decide (a.connection.port = connection.port) &&
  decide (Text.lower a.connection.username = Text.lower connection.username) &&
  a.deleted_at.isNone

def identityTaken (db : Db) (actor : AuthUserSummary) (connection : Connection) (id : String) :
    Prop :=
  ∃ k ∈ db.accounts.select (fun k a => sameIdentity actor connection a && decide (k ≠ id)), True

instance (db : Db) (actor : AuthUserSummary) (connection : Connection) (id : String) :
    Decidable (identityTaken db actor connection id) :=
  inferInstanceAs (Decidable (∃ _ ∈ _, True))

def requireFolder (db : Db) (actor : AuthUserSummary) (folder_id : Option String) :
    Except Error Unit :=
  match folder_id with
  | none => .ok ()
  | some id => Raise.require (db.folders.rows id = some ⟨actor.companyId, actor.userId⟩)
      (.forbidden "저장 메일함을 사용할 수 없습니다.")

def identityConflict : Error := .conflict "이미 등록된 외부메일 계정입니다."

def testRequired : Error := .test_required "연결 테스트를 먼저 완료해 주세요."

def accountNotFound : Error := .not_found "외부메일 계정을 찾을 수 없습니다."

def collectionBusy : Error := .collection_busy "수집 작업 중에는 계정을 삭제할 수 없습니다."

variable (is_ip : String → Bool)

def create_account (account_id : String) (actor : AuthUserSummary) (payload : AccountPayload)
    (db : Db) : Except Error Db := do
  let host ← validate_syntax is_ip payload.host payload.port payload.tlsMode
  Raise.require (payload.enabled = false) testRequired
  let password ← prepare_secret payload.password none
  Raise.require ((ownAccounts db actor).card < 5) (.limit "외부메일 계정은 최대 5개입니다.")
  let owner ← Raise.found (db.mail_accounts.rows actor.userId)
    (.forbidden "메일 계정을 사용할 수 없습니다.")
  requireFolder db actor payload.targetFolderId
  let connection : Connection :=
    ⟨host, payload.port, payload.tlsMode, Text.strip payload.username, password⟩
  Raise.require (db.accounts.rows account_id = none ∧
    ¬ identityTaken db actor connection account_id) identityConflict
  return db.setAccount account_id {
    company_id := actor.companyId
    user_id := actor.userId
    owner_mail_account_id := owner
    display_name := Text.strip payload.displayName
    connection := connection
    target_folder_id := payload.targetFolderId
    delete_from_server := payload.deleteFromServer
    enabled := false
    connection_status := .untested
    last_test_at := none
    next_collect_at := none
    last_collect_at := none
    version := 1
    deleted_at := none }

/-- The account of the caller, if it is not deleted. -/
def ownAccount (db : Db) (actor : AuthUserSummary) (account_id : String) : Option Account :=
  (db.accounts.rows account_id).filter (fun a => decide (a.company_id = actor.companyId) &&
    decide (a.user_id = actor.userId) && a.deleted_at.isNone)

/-- The settings change, or a password was typed: `connection_state`. -/
def resets (old new : Connection) (password_changed : Bool) : Bool :=
  password_changed || decide (old.host ≠ new.host) || decide (old.port ≠ new.port) ||
  decide (old.tls_mode ≠ new.tls_mode) || decide (old.username ≠ new.username)

/-- `bool(payload.password)`. -/
def typed (password : Option String) : Bool := password.any (fun p => decide (p ≠ ""))

/-- The row that `update_account` writes. -/
def updatedAccount (payload : AccountPayload) (connection : Connection) (old : Account) :
    Account :=
  let reset := resets old.connection connection (typed payload.password)
  let status := if reset then .untested else old.connection_status
  { old with
    display_name := Text.strip payload.displayName
    connection := connection
    target_folder_id := payload.targetFolderId
    delete_from_server := payload.deleteFromServer
    enabled := payload.enabled && decide (status = .success)
    connection_status := status
    version := old.version + 1 }

def update_account (account_id : String) (actor : AuthUserSummary) (payload : AccountPayload)
    (expectedVersion : Nat) (db : Db) : Except Error Db := do
  let old ← Raise.found (ownAccount db actor account_id) accountNotFound
  Raise.require (old.version = expectedVersion)
    (.conflict "다른 위치에서 계정이 변경되었습니다.")
  let host ← validate_syntax is_ip payload.host payload.port payload.tlsMode
  let password ← prepare_secret payload.password (some old.connection.password)
  requireFolder db actor payload.targetFolderId
  let connection : Connection :=
    ⟨host, payload.port, payload.tlsMode, Text.strip payload.username, password⟩
  let new := updatedAccount payload connection old
  Raise.require (¬ (payload.enabled = true ∧ new.connection_status ≠ .success ∧
    resets old.connection connection (typed payload.password) = false)) testRequired
  Raise.require (¬ identityTaken db actor connection account_id) identityConflict
  return db.setAccount account_id new

/-! ## Testing -/

def reserve_test_attempt (account_id : String) (actor : AuthUserSummary) (now : Time) (db : Db) :
    Except Error Db := do
  let account ← Raise.found (ownAccount db actor account_id) accountNotFound
  Raise.require (account.last_test_at.all (fun t => decide (t + seconds 30 ≤ now)))
    (.rate_limited "잠시 후 다시 시도해 주세요.")
  return db.setAccount account_id { account with last_test_at := some now }

/-- The row that `test_account` writes after a test. -/
def testedAccount (passed : Bool) (now : Time) (account : Account) : Account :=
  if passed then { account with connection_status := .success, last_test_at := some now }
  else { account with
    connection_status := .failed, enabled := false, last_test_at := some now }

/-- The verdict of a test is written to the row as it is now, deleted or not. -/
def record_test (account_id : String) (actor : AuthUserSummary) (passed : Bool) (now : Time)
    (db : Db) : Db :=
  let tested := fun (k : String) (a : Account) => decide (k = account_id) &&
    decide (a.company_id = actor.companyId) && decide (a.user_id = actor.userId)
  { db with accounts := db.accounts.update tested (testedAccount passed now) }

/-! ## Jobs -/

/-- A job of the account is queued or running. -/
def activeJobs (db : Db) (account_id : String) : Finset String :=
  db.jobs.select (fun _ job => decide (job.account_id = account_id) && job.status.active)

def queuedJob (account_id company_id user_id : String) (trigger : Trigger) (now : Time) :
    CollectionJob where
  account_id := account_id
  company_id := company_id
  user_id := user_id
  trigger := trigger
  status := .queued
  lease_owner := none
  lease_expires_at := none
  attempt_count := 0
  next_attempt_at := now
  counts := .zero
  error_code := none
  created_at := now
  started_at := none
  completed_at := none

/-- INSERT … ON CONFLICT DO NOTHING under the index `uq_mail_external_active_job`. -/
def insert_job (job_id : String) (job : CollectionJob) (db : Db) : Option Db :=
  if db.jobs.rows job_id = none ∧ activeJobs db job.account_id = ∅ then some (db.setJob job_id job)
  else none

/-- The write of `delete_account`. -/
def mark_deleted (account_id : String) (actor : AuthUserSummary) (now : Time) (db : Db) :
    Except Error Db := do
  let account ← Raise.found (ownAccount db actor account_id) accountNotFound
  return db.setAccount account_id { account with
    enabled := false, deleted_at := some now, version := account.version + 1 }

end moaworks.mail_external
