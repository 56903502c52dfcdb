-- Enrolment of an authenticator, its codes, recovery and break-glass, and the
-- machine of all the calls, one after another.
import MoaWorks.AuthService
import MoaWorks.Lib.Machine

namespace moaworks.auth_service

open admin_mfa (Challenge EncryptedMfaSecret Profile freshChallenge newProfile)
open admin_active_limit (User)

variable (env : Environment)

/-! ## Enrolment -/

/-- The verified address that the caller names, whether or not it can be used. -/
def named_verification (w : World) (user_id : String) (verification_id : Option String) :
    Option (String × Challenge) :=
  verification_id.bind (fun id =>
    ((w.challenges id).filter (fun row =>
      decide (row.purpose = .email_verify) && decide (row.user_id = user_id))).map (fun row => (id, row)))

/-- The challenge of a recovery that the caller came with. -/
def named_reenroll (w : World) (user_id : String) (flow_id : Option String) :
    Option (String × Challenge) :=
  flow_id.bind (fun id =>
    ((w.challenges id).filter (fun row =>
      decide (row.purpose = .mfa_reenroll) && decide (row.user_id = user_id))).map (fun row => (id, row)))

/-- `verified` of `start_totp_enrollment`: the challenge that authorises the start. -/
def verified (w : World) (user_id : String) (flow_id verification_id : Option String) :
    Option (String × Challenge) :=
  (named_verification w user_id verification_id).or (named_reenroll w user_id flow_id)

/-- The long test of `start_totp_enrollment`: a verified address must be used up,
the challenge of a recovery must not. -/
def accepts_verified (row : Challenge) (verification_id : Option String) (now : Time) : Bool :=
  decide (row.cancelled_at = none) && decide (now < row.expires_at) &&
    (if verification_id.isSome then row.consumed_at.isSome else decide (row.consumed_at = none))

/-- `UPDATE … SET consumed_at …` on the challenge of a recovery. A verified
address has been consumed already and stays as it is. -/
def consume_reenroll (w : World) (id : String) (row : Challenge) (later : Time) : World :=
  if row.purpose = .mfa_reenroll ∧ row.consumed_at = none then
    w.set_challenge id { row with consumed_at := some later }
  else w

/-- The secrets of a call: they are random. -/
structure Fresh where
  challenge_id : String
  profile_id : String
  nonce : String
  seed : String
  deriving DecidableEq, Repr

/-- The profile of the user, or the row that a first enrolment inserts. -/
def own_profile (w : World) (user_id profile_id : String) : Profile :=
  (w.profiles user_id).getD (newProfile profile_id)

/-- The open enrolments of a user. -/
def enrolling (user_id : String) (row : Challenge) : Bool :=
  decide (row.user_id = user_id) && decide (row.purpose = .enroll)

/-- The writes of `start_totp_enrollment`. -/
def insert_enrollment (w : World) (user_id id : String) (row : Challenge) (fresh : Fresh)
    (later : Time) : World :=
  let profile := own_profile w user_id fresh.profile_id
  let encrypted := env.service.encrypt_totp_seed fresh.nonce profile.id user_id fresh.seed
  (((consume_reenroll w id row later).set_profile user_id profile).cancel (enrolling user_id) later).issue
    fresh.challenge_id
    (freshChallenge .enroll user_id row.target_email none (some encrypted) (later + minutes 10) later)
    (w.authority id)

structure TotpStarted where
  challengeId : String
  manualKey : String
  deriving DecidableEq, Repr

def start_totp_enrollment (w : World) (actor flow_id verification_id : Option String) (fresh : Fresh)
    (times : Moments) : World × Except Failure TotpStarted :=
  match _resolve_mfa_flow_user w actor flow_id times.called with
  | .error failure => (w, .error failure)
  | .ok user_id =>
    match verified w user_id flow_id verification_id with
    | none =>
      (w, .error (http 401 "AUTH_MFA_EMAIL_VERIFICATION_REQUIRED" "관리자 복구 확인이 필요합니다."))
    | some (id, row) =>
      if accepts_verified row verification_id times.now = false then
        (w, .error (http 401 "AUTH_MFA_EMAIL_VERIFICATION_REQUIRED" "관리자 복구 확인이 필요합니다."))
      else (insert_enrollment env w user_id id row fresh times.later,
        .ok ⟨fresh.challenge_id, fresh.seed⟩)

/-! ## The end of an enrolment -/

/-- The trigger `enforce_admin_active_user_limit` refuses this row of a user. -/
def limit_reached (directory : admin_active_limit.Db) (user_id : String) (new : User) : Bool :=
  !admin_active_limit.old_is_active_admin directory user_id && directory.is_active_admin new &&
    decide (3 ≤ admin_active_limit.active_admin_count directory user_id)

/-- The user as an invitation wants him. -/
def appointed (role_id : String) : User := ⟨"active", "admin", role_id⟩

/-- The account of a user whose invitation is completed. -/
def Account.appoint (account : Account) : Account :=
  { account.end_sessions with mail_status := account.mail_status.map (fun _ => "active") }

/-- The invitation would make a fourth active administrator. -/
def exceeds_limit (w : World) (user_id : String) (invitation : Invitation) : Bool :=
  limit_reached w.directory user_id (appointed (invitation.requested_role_id.getD ""))

/-- The user takes up his invitation, which is completed. -/
def World.appoint (w : World) (user_id role_id : String) : World :=
  { w.set_account user_id Account.appoint with
    directory := { w.directory with
      users := w.directory.users.update (fun id _ => decide (id = user_id)) (fun _ => appointed role_id) }
    invitations := fun k => if k = user_id then none else w.invitations k }

/-- The UPDATE of the user, with his pending invitation if he has one. The
trigger comes before the NOT NULL of `role_id`. -/
def update_user (w : World) (user_id : String) (later : Time) : Except Failure World :=
  match w.pending_invitation user_id later with
  | none => .ok (w.set_account user_id Account.end_sessions)
  | some invitation =>
    if exceeds_limit w user_id invitation then
      .error (http 409 "ADMIN_ACTIVE_LIMIT_REACHED" "활성 관리자 계정은 최대 3개까지 사용할 수 있습니다.")
    else match invitation.requested_role_id with
      | none => .error (.mfa (.not_null_violation "role_id"))
      | some role_id => .ok (w.appoint user_id role_id)

/-- The ten new recovery codes. -/
def recovery_rows (profile_id user_id : String) (codes : List String) : Except Failure (List RecoveryCode) :=
  codes.mapM (fun code =>
    match env.service.recovery_code_mac 0 profile_id user_id code with
    | none => .error (.mfa .configuration)
    | some mac => .ok ⟨mac, none⟩)

/-- The challenges that an enrolment ends. -/
def entering (user_id : String) (row : Challenge) : Bool :=
  decide (row.user_id = user_id) && (decide (row.purpose = .admin_enrollment) ||
    decide (row.purpose = .mfa_reenroll))

/-- The transaction of `confirm_totp_enrollment` after its code was accepted. -/
def complete_enrollment (w : World) (id user_id : String) (outcome : admin_mfa.Outcome)
    (recovery_codes : List String) (times : Moments) : Except Failure World := do
  let rows ← recovery_rows env outcome.profile.id user_id recovery_codes
  let updated ← update_user ((w.set_profile user_id outcome.profile).set_recovery_codes user_id rows)
    user_id times.later
  match w.policy with
  | none => .error (http 503 "ADMIN_MFA_POLICY_UNAVAILABLE" "관리자 인증 정책을 확인해 주세요.")
  | some _ =>
    .ok (((updated.set_challenge id outcome.challenge).cancel (entering user_id) times.later).record
      (.confirmed user_id (w.active user_id) (w.authority id)))

def confirm_totp_enrollment (w : World) (challenge_id code : String) (recovery_codes : List String)
    (times : Moments) : World × Except Failure Unit :=
  match (w.challenges challenge_id).filter (fun row => admin_mfa.confirm_eligible row times.now) with
  | none =>
    (w, .error (.mfa (admin_mfa.enrollment_invalid "인증 앱 등록 요청이 만료되었거나 올바르지 않습니다.")))
  | some row =>
    match w.profiles row.user_id with
    | none => (w, .error (.mfa (admin_mfa.enrollment_invalid "MFA profile을 찾을 수 없습니다.")))
    | some profile =>
      match admin_mfa.confirm_totp_enrollment env.service row profile code times.now times.later with
      | .error failure => (w, .error (.mfa failure))
      | .ok outcome =>
        if outcome.step = none then
          (w.set_challenge challenge_id outcome.challenge,
            .error (http 401 "AUTH_MFA_CODE_INVALID" "인증 앱 코드가 올바르지 않습니다."))
        else match complete_enrollment env w challenge_id row.user_id outcome recovery_codes times with
          | .error failure => (w, .error failure)
          | .ok w' => (w', get_user_summary w' row.user_id)

/-! ## Codes of the app -/

def verify_admin_mfa (w : World) (challenge_id code : String) (times : Moments) :
    World × Except Failure Unit :=
  match (w.challenges challenge_id).filter (fun row => admin_mfa.verify_eligible row times.now) with
  | none => (w, .error (.mfa admin_mfa.verify_challenge_invalid))
  | some row =>
    match (w.profiles row.user_id).filter (fun profile => decide (profile.status = .active)) with
    | none => (w, .error (.mfa admin_mfa.verify_profile_required))
    | some profile =>
      match admin_mfa.verify_admin_mfa env.service w.policy row profile code times.now times.later with
      | .error failure => (w, .error (.mfa failure))
      | .ok outcome =>
        let w' := (w.set_challenge challenge_id outcome.challenge).set_profile row.user_id outcome.profile
        if outcome.step = none then
          (w', .error (http 401 "AUTH_MFA_CODE_INVALID" "인증 앱 코드가 올바르지 않습니다."))
        else (w', get_user_summary w' row.user_id)

/-! ## Recovery -/

/-- The active user of an address, with his active profile. -/
def recoverable (w : World) (email : Option String) : Option (String × Profile) :=
  (email.bind env.user_with_email).bind (fun user_id =>
    if w.active user_id then
      ((w.profiles user_id).filter (fun profile => profile.recovery_email_verified_at.isSome)).map
        (fun profile => (user_id, profile))
    else none)

/-- An unknown address is answered like a known one. -/
def request_recovery (w : World) (email challenge_id : String) (otp : Nat) (delivered : Bool)
    (times : Moments) : World × Except Failure String :=
  match recoverable env w (some email) with
  | none => (w, .ok challenge_id)
  | some (user_id, profile) =>
    match profile.recovery_email with
    | none => (w, .error (.mfa .type_error))
    | some recovery_email =>
      match issue_email_otp env w challenge_id user_id .recovery recovery_email otp none times with
      | .error failure => (w, .error failure)
      | .ok issued =>
        if delivered then (issued, .ok challenge_id)
        else (_cancel_challenge issued challenge_id times.later, .error
          (http 503 "AUTH_MFA_RECOVERY_DELIVERY_FAILED"
            "복구 메일을 보내지 못했습니다. 잠시 후 다시 시도하세요."))

/-- The last of the codes that `p` selects is used. -/
def use_last (p : RecoveryCode → Bool) (later : Time) : List RecoveryCode → Option (List RecoveryCode)
  | [] => none
  | code :: rest =>
    match use_last p later rest with
    | some rest' => some (code :: rest')
    | none => if p code then some ({ code with used_at := some later } :: rest) else none

/-- `consume_recovery_code` on the unused codes of a profile. -/
def consume_recovery_code (w : World) (user_id : String) (profile : Profile) (code : String)
    (later : Time) : Option World :=
  (use_last (fun row => decide (row.used_at = none) &&
      env.service.recovery_code_matches row.code profile.id user_id code) later
    (w.recovery_codes user_id)).map (w.set_recovery_codes user_id)

structure RecoveryVerifyRequest where
  challengeId : Option String
  code : Option String
  email : Option String
  recoveryCode : Option String
  deriving DecidableEq, Repr

def recovery_invalid : Failure :=
  http 401 "AUTH_MFA_RECOVERY_INVALID" "복구 정보가 만료되었거나 올바르지 않습니다."

/-- The proof of `verify_recovery`, and the user and the address that it is for. -/
def recovery_proof (w : World) (payload : RecoveryVerifyRequest) (times : Moments) :
    World × Except Failure (String × Option String × Proof) :=
  match payload.recoveryCode with
  | some code =>
    match recoverable env w payload.email with
    | none => (w, .error recovery_invalid)
    | some (user_id, profile) =>
      match consume_recovery_code env w user_id profile code times.later with
      | none => (w, .error recovery_invalid)
      | some w' => (w', .ok (user_id, profile.recovery_email, .recovery_code))
  | none =>
    match payload.challengeId, payload.code with
    | some challenge_id, some code =>
      match (w.challenges challenge_id).filter (fun row =>
          decide (row.purpose = .recovery) && row.isOpen times.called) with
      | none => (w, .error recovery_invalid)
      | some row =>
        match row.target_email with
        | none => (w, .error (.mfa .type_error))
        | some target_email =>
          let (w', consumed) := consume_email_otp env w challenge_id row.user_id .recovery target_email
            code times
          if consumed then (w', .ok (row.user_id, some target_email, .recovery_otp))
          else (w', .error recovery_invalid)
    | _, _ => (w, .error .assertion_error)

def verify_recovery (w : World) (payload : RecoveryVerifyRequest) (reenroll_id : String)
    (times : Moments) : World × Except Failure String :=
  match recovery_proof env w payload times with
  | (w', .error failure) => (w', .error failure)
  | (w', .ok (user_id, target_email, proof)) =>
    ((w'.record (.proved user_id proof)).issue reenroll_id
      (freshChallenge .mfa_reenroll user_id target_email none none (times.later + minutes 10) times.later)
      (some w'.log.length), .ok reenroll_id)

/-! ## Break-glass -/

def REENROLL_TTL_SECONDS : Nat := 600

/-- `_lock_request` and the approvals. A request that has expired is marked. -/
def expire_request (w : World) (request_id : String) (row : break_glass.RequestRow) (now : Time) : World :=
  if row.status = .pending ∧ row.expires_at ≤ now then
    w.set_request request_id { row with status := .expired }
  else w

/-- The writes of `execute`. The new challenge has no address. -/
def open_reenroll (w : World) (user_id challenge_id : String) (profile : Profile) (later : Time) : World :=
  ((((w.cancel (fun row => decide (row.user_id = user_id)) later).record
      (.proved user_id .break_glass)).issue challenge_id
        (freshChallenge .mfa_reenroll user_id none none none (later + seconds REENROLL_TTL_SECONDS) later)
        (some w.log.length)).set_account user_id Account.end_sessions).set_profile user_id
    { profile with profile_version := profile.profile_version + 1 }

def execute (w : World) (request_id challenge_id : String) (times : Moments) :
    World × Except Failure String :=
  match w.requests request_id with
  | none =>
    (w, .error (.break_glass (.request_unavailable "대기 중인 복구 요청을 찾을 수 없습니다.")))
  | some row =>
    match break_glass.approval_check env.crypto env.keyring row (w.approvals request_id) times.now with
    | .error failure => (expire_request w request_id row times.now, .error (.break_glass failure))
    | .ok () =>
      if w.accounts row.target_user_id = none then
        (w, .error (.break_glass (.request_unavailable "대상 계정을 찾을 수 없습니다.")))
      else match w.profiles row.target_user_id with
        | none =>
          (w, .error (.break_glass (.request_unavailable "대상 MFA profile을 찾을 수 없습니다.")))
        | some profile =>
          ((open_reenroll w row.target_user_id challenge_id profile times.later).set_request request_id
            { row with status := .consumed }, .ok challenge_id)

/-! ## The machine -/

/-- One call, with what it draws at random. -/
inductive Call
  | login (email password challenge_id : String)
  | request_recovery_email (actor : Option String) (payload : RecoveryEmailRequest)
      (challenge_id : String) (otp : Nat) (delivered : Bool)
  | verify_recovery_email (actor : Option String) (payload : RecoveryEmailVerifyRequest)
  | start_totp_enrollment (actor flow_id verification_id : Option String) (fresh : Fresh)
  | confirm_totp_enrollment (challenge_id code : String) (recovery_codes : List String)
  | verify_admin_mfa (challenge_id code : String)
  | request_recovery (email challenge_id : String) (otp : Nat) (delivered : Bool)
  | verify_recovery (payload : RecoveryVerifyRequest) (reenroll_id : String)
  | execute (request_id challenge_id : String)
  deriving DecidableEq, Repr

/-- The id that a call draws for its new challenge. -/
def Call.new_id : Call → Option String
  | login _ _ id | request_recovery_email _ _ id _ _ | request_recovery _ id _ _ | verify_recovery _ id
  | execute _ id => some id
  | start_totp_enrollment _ _ _ fresh => some fresh.challenge_id
  | verify_recovery_email _ _ | confirm_totp_enrollment _ _ _ | verify_admin_mfa _ _ => none

structure Action where
  call : Call
  times : Moments
  deriving DecidableEq, Repr

/-- The world after a call. -/
def perform (w : World) (times : Moments) : Call → World
  | .login email password id => (login env w email password id times).1
  | .request_recovery_email actor payload id otp delivered =>
    (request_recovery_email env w actor payload id otp delivered times).1
  | .verify_recovery_email actor payload => (verify_recovery_email env w actor payload times).1
  | .start_totp_enrollment actor flow_id verification_id fresh =>
    (start_totp_enrollment env w actor flow_id verification_id fresh times).1
  | .confirm_totp_enrollment id code codes => (confirm_totp_enrollment env w id code codes times).1
  | .verify_admin_mfa id code => (verify_admin_mfa env w id code times).1
  | .request_recovery email id otp delivered => (request_recovery env w email id otp delivered times).1
  | .verify_recovery payload id => (verify_recovery env w payload id times).1
  | .execute request_id id => (execute env w request_id id times).1

/-- Calls come one after another, and each draws an id that no challenge has. -/
def step (w : World) (a : Action) : Option World :=
  if w.clock ≤ a.times.called ∧ a.call.new_id.all (fun id => decide (w.challenges id = none)) then
    some (perform env { w with clock := a.times.later } a.times a.call)
  else none

/-- A start: no challenge has been issued, and the row of the policy is there. -/
structure Start (w : World) : Prop where
  challenges : ∀ id, w.challenges id = none
  log : w.log = []
  policy : w.policy.isSome

def machine : Machine World Action := ⟨Start, step env⟩

end moaworks.auth_service
