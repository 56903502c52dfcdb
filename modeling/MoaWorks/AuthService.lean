-- Login, recovery and enrolment of administrators: the rows that the calls
-- of `AuthService` share, and what each call reads and writes.
import MoaWorks.AdminLimit
import MoaWorks.AdminMfa
import MoaWorks.BreakGlass
import MoaWorks.Lib.History

namespace moaworks.auth_service

open admin_mfa (Challenge EncryptedMfaSecret AdminMfaService Profile Purpose freshChallenge newProfile)
open admin_active_limit (User)

/-! ## Rows -/

/-- What a call needs of a row of `users` beside its status and role.
`mail_status` is that of the mail account, if there is one. -/
structure Account where
  password_hash : String
  mail_status : Option String
  auth_session_version : Nat
  deriving DecidableEq, Repr

/-- A pending row of `admin_mfa_invitations`, of which a user has one at most.
Its `requested_user_type` is `admin` and its `requested_status` is `active`. -/
structure Invitation where
  requested_role_id : Option String
  expires_at : Time
  deriving DecidableEq, Repr

/-- A row of `admin_mfa_recovery_codes`. -/
structure RecoveryCode where
  code : admin_mfa.AdminMfaMac
  used_at : Option Time
  deriving DecidableEq, Repr

/-- What an administrator, or the custodians for him, gave to get a new authenticator. -/
inductive Proof
  | step_up
  | recovery_code
  | recovery_otp
  | break_glass
  deriving DecidableEq, Repr

/-- A proof of a user, and an enrolment that was confirmed. It `overwrites` when
the profile and the user were active, and its authority is the place of a proof in the log. -/
inductive Event
  | proved (user_id : String) (proof : Proof)
  | confirmed (user_id : String) (overwrites : Bool) (authority : Option Nat)
  deriving DecidableEq, Repr

/-- The rows. `authority` and `log` are not in the database: the first names the
proof by which a challenge was issued, the second has all events, newest last. -/
structure World where
  clock : Time
  directory : admin_active_limit.Db
  role_status : String → Option String
  accounts : String → Option Account
  profiles : String → Option Profile
  challenges : String → Option Challenge
  recovery_codes : String → List RecoveryCode
  invitations : String → Option Invitation
  policy : Option Nat
  requests : String → Option break_glass.RequestRow
  approvals : String → List break_glass.ApprovalRow
  authority : String → Option Nat
  log : List Event

/-- The service of the codes, the passwords, the domain of the company once it is
set up, the user of each address in lower case, and the custodians. -/
structure Environment where
  service : AdminMfaService
  verify_password : String → String → Bool
  login_domain : Option String
  user_with_email : String → Option String
  crypto : break_glass.Crypto
  keyring : break_glass.Keyring

/-- Why a call raises. -/
inductive Failure
  | mfa (failure : admin_mfa.Failure)
  | permission_error (message : String)
  | value_error (message : String)
  | assertion_error
  | break_glass (failure : break_glass.BreakGlassError)
  deriving DecidableEq, Repr

def http (status : Nat) (code userMessage : String) : Failure := .mfa (.http status code userMessage)

/-- The times of a call: of the flow that it looks up first, of the SELECT of its
transaction, and of the writes. -/
structure Moments where
  called : Time
  now : Time
  later : Time
  called_le : called ≤ now
  now_le : now ≤ later
  deriving DecidableEq, Repr

/-- Neither used nor cancelled. -/
def unused (row : Challenge) : Bool :=
  decide (row.consumed_at = none) && decide (row.cancelled_at = none)

/-! ## Writes -/

namespace World

/-- INSERT of a challenge. -/
def issue (w : World) (id : String) (row : Challenge) (authority : Option Nat) : World :=
  { w with
    challenges := fun k => if k = id then some row else w.challenges k
    authority := fun k => if k = id then authority else w.authority k }

def set_challenge (w : World) (id : String) (row : Challenge) : World :=
  { w with challenges := fun k => if k = id then some row else w.challenges k }

/-- UPDATE of the unused challenges that `p` selects. -/
def cancel (w : World) (p : Challenge → Bool) (later : Time) : World :=
  { w with
    challenges := fun k => (w.challenges k).map (fun row =>
      if p row && unused row then { row with cancelled_at := some later } else row) }

def set_profile (w : World) (user_id : String) (profile : Profile) : World :=
  { w with profiles := fun k => if k = user_id then some profile else w.profiles k }

/-- UPDATE of the row of a user. -/
def set_account (w : World) (user_id : String) (f : Account → Account) : World :=
  { w with accounts := fun k => if k = user_id then (w.accounts k).map f else w.accounts k }

def set_recovery_codes (w : World) (user_id : String) (codes : List RecoveryCode) : World :=
  { w with recovery_codes := fun k => if k = user_id then codes else w.recovery_codes k }

def set_request (w : World) (id : String) (row : break_glass.RequestRow) : World :=
  { w with requests := fun k => if k = id then some row else w.requests k }

def record (w : World) (event : Event) : World := { w with log := w.log ++ [event] }

/-- The profile and the user are active. -/
def active (w : World) (user_id : String) : Bool :=
  (w.profiles user_id).any (fun profile => decide (profile.status = .active)) &&
    (w.directory.users.rows user_id).any (fun user => decide (user.status = "active"))

end World

/-- `auth_session_version = auth_session_version + 1`. -/
def Account.end_sessions (account : Account) : Account :=
  { account with auth_session_version := account.auth_session_version + 1 }

/-! ## Accounts -/

/-- A row of `_fetch_user_access_row`, with what the calls use of it. -/
structure AccessRow where
  password_hash : String
  user_status : String
  user_type : String
  role_status : String
  permissions : List String
  mail_account_status : String
  deriving DecidableEq, Repr

/-- The JOIN of a user and his account with his role and his mail account. -/
def World.access_row (w : World) (user : User) (account : Account) : Option AccessRow :=
  match w.directory.roles.rows user.role_id, w.role_status user.role_id, account.mail_status with
  | some role, some role_status, some mail_account_status =>
    some ⟨account.password_hash, user.status, user.user_type, role_status, role.permissions,
      mail_account_status⟩
  | _, _, _ => none

def _fetch_user_access_row (w : World) (user_id : String) : Option AccessRow :=
  match w.directory.users.rows user_id, w.accounts user_id with
  | some user, some account => w.access_row user account
  | _, _ => none

def _assert_user_accessible (row : AccessRow) : Except Failure Unit :=
  if row.user_status = "inactive" then .error (.permission_error "비활성화된 사용자 계정입니다.")
  else if row.user_status = "deleted" then
    .error (.permission_error "삭제된 사용자 계정입니다. 관리자에게 문의하세요.")
  else if row.role_status = "inactive" then
    .error (.permission_error "사용자의 권한 역할이 비활성화되어 로그인할 수 없습니다.")
  else if row.role_status = "deleted" then
    .error (.permission_error "사용자의 권한 역할이 삭제되어 로그인할 수 없습니다.")
  else if row.mail_account_status ≠ "active" then
    .error (.permission_error "메일 계정이 비활성화되어 로그인할 수 없습니다.")
  else .ok ()

/-- `get_user_summary`, after which the token is issued. -/
def get_user_summary (w : World) (user_id : String) : Except Failure Unit :=
  match _fetch_user_access_row w user_id with
  | none => .error (.value_error "대상 사용자를 찾을 수 없습니다.")
  | some row => _assert_user_accessible row

variable (env : Environment)

/-- `authenticate`: the user, if the password is right and he may be in. -/
def authenticate (w : World) (email password : String) : Except Failure (String × AccessRow) :=
  match env.user_with_email (Text.lower (Text.strip email)) with
  | none => .error (.value_error (if env.login_domain = none then "초기 설정이 완료되지 않았습니다."
      else "아이디 또는 비밀번호가 올바르지 않습니다."))
  | some user_id =>
    match _fetch_user_access_row w user_id with
    | none => .error (.value_error (if env.login_domain = none then "초기 설정이 완료되지 않았습니다."
        else "아이디 또는 비밀번호가 올바르지 않습니다."))
    | some row =>
      if env.verify_password password row.password_hash = false then
        .error (.value_error "아이디 또는 비밀번호가 올바르지 않습니다.")
      else (_assert_user_accessible row).map (fun _ => (user_id, row))

def _authenticate_pending_admin (w : World) (normalized_email password : String) :
    Except Failure (String × AccessRow) :=
  match (env.user_with_email normalized_email).bind (fun user_id =>
      (_fetch_user_access_row w user_id).map (fun row => (user_id, row))) with
  | none => .error (.permission_error "사용할 수 없는 계정입니다.")
  | some (user_id, row) =>
    if row.user_status ≠ "pending_mfa" then
      .error (.permission_error "사용할 수 없는 계정입니다.")
    else if row.role_status ≠ "active" then
      .error (.permission_error "사용자의 권한 역할이 비활성화되어 로그인할 수 없습니다.")
    else if env.verify_password password row.password_hash = false then
      .error (.value_error "아이디 또는 비밀번호가 올바르지 않습니다.")
    else .ok (user_id, row)

/-- The pending invitation of a user that has not expired. -/
def World.pending_invitation (w : World) (user_id : String) (now : Time) : Option Invitation :=
  (w.invitations user_id).filter (fun invitation => decide (now < invitation.expires_at))

/-! ## Login -/

inductive LoginAnswer
  | token
  | challenge (id nextAction : String)
  deriving DecidableEq, Repr

def _issue_admin_login_or_enrollment_challenge (w : World) (user_id : String) (row : AccessRow)
    (challenge_id : String) (times : Moments) : World × LoginAnswer :=
  let is_active_profile := (w.profiles user_id).any (fun profile => decide (profile.status = .active))
  let login := is_active_profile && decide (row.user_status = "active")
  (w.issue challenge_id
    (freshChallenge (if login then .login else .admin_enrollment) user_id none none none
      (times.later + minutes 10) times.later) none,
    .challenge challenge_id (if login then "mfa_required" else "mfa_enrollment_required"))

/-- The user of a login. -/
def loginUser (w : World) (email password : String) : Except Failure (String × AccessRow) :=
  let normalized_email := Text.lower (Text.strip email)
  if env.login_domain.any (fun domain =>
      decide (domain ≠ "") && !("@" ++ domain).toList.isSuffixOf normalized_email.toList) then
    .error (http 401 "AUTH_DOMAIN_NOT_ALLOWED" "회사 도메인 계정만 로그인할 수 있습니다.")
  else match authenticate env w email password with
    | .ok found => .ok found
    | .error (.permission_error message) =>
      match _authenticate_pending_admin env w normalized_email password with
      | .ok found => .ok found
      | .error (.value_error pending) => .error (http 401 "AUTH_LOGIN_FAILED" pending)
      | .error _ => .error (http 423 "AUTH_ACCOUNT_LOCKED" message)
    | .error (.value_error message) => .error (http 401 "AUTH_LOGIN_FAILED" message)
    | .error failure => .error failure

def login (w : World) (email password challenge_id : String) (times : Moments) :
    World × Except Failure LoginAnswer :=
  match loginUser env w email password with
  | .error failure => (w, .error failure)
  | .ok (user_id, row) =>
    if row.user_type = "admin" ∨ "admin:*" ∈ row.permissions ∨
        (w.pending_invitation user_id times.now).isSome then
      let (w', answer) := _issue_admin_login_or_enrollment_challenge w user_id row challenge_id times
      (w', .ok answer)
    else (w, .ok .token)

/-! ## The recovery address -/

/-- `_resolve_mfa_flow_user`: the id of the user. -/
def _resolve_mfa_flow_user (w : World) (actor flow_challenge_id : Option String) (now : Time) :
    Except Failure String :=
  match flow_challenge_id with
  | none =>
    match actor with
    | none => .error (http 401 "AUTH_MFA_FLOW_REQUIRED" "관리자 인증 요청이 필요합니다.")
    | some user_id => .ok user_id
  | some flow_id =>
    match w.challenges flow_id with
    | none =>
      .error (http 401 "AUTH_MFA_FLOW_INVALID" "관리자 인증 요청이 만료되었거나 올바르지 않습니다.")
    | some flow =>
      if (flow.purpose = .admin_enrollment ∨ flow.purpose = .mfa_reenroll) ∧
          flow.isOpen now = true ∧ actor.all (fun user_id => decide (user_id = flow.user_id)) then
        if (w.directory.users.rows flow.user_id).any (fun user =>
            (w.directory.roles.rows user.role_id).isSome) then
          .ok flow.user_id
        else .error (http 401 "AUTH_MFA_FLOW_INVALID" "관리자 인증 대상 계정을 찾을 수 없습니다.")
      else
        .error (http 401 "AUTH_MFA_FLOW_INVALID" "관리자 인증 요청이 만료되었거나 올바르지 않습니다.")

/-- `issue_email_otp` with its default lifetime. `otp` is random below a million. -/
def issue_email_otp (w : World) (challenge_id user_id : String) (purpose : Purpose) (email : String)
    (otp : Nat) (authority : Option Nat) (times : Moments) : Except Failure World :=
  let normalized_email := Text.lower (Text.strip email)
  if '@' ∉ normalized_email.toList then .error (.value_error "복구 이메일 형식이 올바르지 않습니다.")
  else match env.service.email_otp_mac 0 purpose challenge_id user_id normalized_email
      (admin_mfa.sixDigits (otp % 1000000)) with
    | none => .error (.mfa .configuration)
    | some mac =>
      .ok (w.issue challenge_id (freshChallenge purpose user_id (some normalized_email) (some mac)
        none (times.later + minutes 10) times.later) authority)

structure RecoveryEmailRequest where
  flowChallengeId : Option String
  recoveryEmail : String
  currentPassword : Option String
  currentTotp : Option String
  deriving DecidableEq, Repr

/-- The password, and a code of the app when there is an active one. The world
has the used step, and the place of the proof is its authority. -/
def step_up (w : World) (user_id : String) (payload : RecoveryEmailRequest) (now : Time) :
    Except Failure (World × Option Nat) :=
  match _fetch_user_access_row w user_id, payload.currentPassword with
  | some row, some password =>
    if env.verify_password password row.password_hash = false then
      .error (http 401 "AUTH_MFA_STEP_UP_FAILED" "현재 비밀번호가 올바르지 않습니다.")
    else match w.profiles user_id with
      | none => .ok (w, none)
      | some profile =>
        if profile.status = .active then
          match payload.currentTotp with
          | none =>
            .error (http 401 "AUTH_MFA_STEP_UP_FAILED" "현재 인증 앱 코드가 올바르지 않습니다.")
          | some code =>
            match admin_mfa.consume_profile_totp env.service profile user_id code now with
            | .error failure => .error (.mfa failure)
            | .ok none =>
              .error (http 401 "AUTH_MFA_STEP_UP_FAILED" "현재 인증 앱 코드가 올바르지 않습니다.")
            | .ok (some step) =>
              .ok ((w.set_profile user_id { profile with last_used_step := some step }).record
                (.proved user_id .step_up), some w.log.length)
        else .ok (w, none)
  | _, _ => .error (http 401 "AUTH_MFA_STEP_UP_FAILED" "현재 비밀번호가 올바르지 않습니다.")

/-- `_cancel_challenge`, when its mail could not be sent. -/
def _cancel_challenge (w : World) (challenge_id : String) (later : Time) : World :=
  match w.challenges challenge_id with
  | none => w
  | some row =>
    if unused row then w.set_challenge challenge_id { row with cancelled_at := some later } else w

/-- `delivered` says whether the sender of the mail returned. -/
def request_recovery_email (w : World) (actor : Option String) (payload : RecoveryEmailRequest)
    (challenge_id : String) (otp : Nat) (delivered : Bool) (times : Moments) :
    World × Except Failure String :=
  match _resolve_mfa_flow_user w actor payload.flowChallengeId times.called with
  | .error failure => (w, .error failure)
  | .ok user_id =>
    match (match payload.flowChallengeId with
        | none => step_up env w user_id payload times.now
        | some flow_id => .ok (w, w.authority flow_id)) with
    | .error failure => (w, .error failure)
    | .ok (w', authority) =>
      match issue_email_otp env w' challenge_id user_id .email_verify payload.recoveryEmail otp
          authority times with
      | .error failure => (w', .error failure)
      | .ok issued =>
        if delivered then (issued, .ok challenge_id)
        else (_cancel_challenge issued challenge_id times.later, .error
          (http 503 "AUTH_MFA_EMAIL_DELIVERY_FAILED"
            "인증 메일을 보내지 못했습니다. 잠시 후 다시 시도하세요."))

/-- `consume_email_otp` on the row of the challenge, if it exists. -/
def consume_email_otp (w : World) (challenge_id user_id : String) (purpose : Purpose)
    (email code : String) (times : Moments) : World × Bool :=
  match w.challenges challenge_id with
  | none => (w, false)
  | some row =>
    let (row', consumed) := admin_mfa.consume_email_otp env.service challenge_id row user_id purpose
      email code times.now times.later
    (w.set_challenge challenge_id row', consumed)

structure RecoveryEmailVerifyRequest where
  flowChallengeId : Option String
  verificationChallengeId : String
  recoveryEmail : String
  code : String
  deriving DecidableEq, Repr

def verify_recovery_email (w : World) (actor : Option String) (payload : RecoveryEmailVerifyRequest)
    (times : Moments) : World × Except Failure Unit :=
  match _resolve_mfa_flow_user w actor payload.flowChallengeId times.called with
  | .error failure => (w, .error failure)
  | .ok user_id =>
    let (w', consumed) := consume_email_otp env w payload.verificationChallengeId user_id .email_verify
      payload.recoveryEmail payload.code times
    if consumed = false then
      (w', .error (http 401 "AUTH_MFA_EMAIL_CODE_INVALID" "이메일 인증 코드가 올바르지 않습니다."))
    else if payload.flowChallengeId = none then
      match (w'.profiles user_id).filter (fun profile => decide (profile.status = .active)) with
      | none =>
        (w', .error (http 409 "AUTH_MFA_PROFILE_NOT_ACTIVE" "활성 관리자 인증 프로필을 찾을 수 없습니다."))
      | some profile =>
        ((w'.set_profile user_id { profile with
            recovery_email := some payload.recoveryEmail
            recovery_email_verified_at := some times.later
            profile_version := profile.profile_version + 1 }).set_account user_id
          Account.end_sessions, .ok ())
    else (w', .ok ())

end moaworks.auth_service
