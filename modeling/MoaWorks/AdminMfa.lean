-- The one-time codes of administrators: the rows of challenges and
-- profiles, the codes of the authenticator app and of a mail, and what one
-- code does to the row of its challenge.
import MoaWorks.Clock
import MoaWorks.Lib.Text
import Mathlib.Tactic.IntervalCases
import Mathlib.Tactic.SplitIfs

namespace moaworks.admin_mfa

/-! ## Rows -/

/-- The four columns of an encrypted seed. They are all there or all NULL. -/
structure EncryptedMfaSecret where
  keyVersion : Nat
  nonce : String
  ciphertext : String
  tag : String
  deriving DecidableEq, Repr

structure AdminMfaMac where
  keyVersion : Nat
  mac : String
  deriving DecidableEq, Repr

inductive Purpose
  | login
  | enroll
  | admin_enrollment
  | email_verify
  | recovery
  | mfa_reenroll
  deriving DecidableEq, Repr

def Purpose.text : Purpose → String
  | login => "login"
  | enroll => "enroll"
  | admin_enrollment => "admin_enrollment"
  | email_verify => "email_verify"
  | recovery => "recovery"
  | mfa_reenroll => "mfa_reenroll"

/-- A row of `admin_mfa_challenges`. Its key is the hash of the challenge id. -/
structure Challenge where
  purpose : Purpose
  user_id : String
  target_email : Option String
  code : Option AdminMfaMac
  pending_totp : Option EncryptedMfaSecret
  expires_at : Time
  attempt_count : Nat
  consumed_at : Option Time
  cancelled_at : Option Time
  created_at : Time
  deriving DecidableEq, Repr

/-- The row of an INSERT. -/
def freshChallenge (purpose : Purpose) (user_id : String) (target_email : Option String)
    (code : Option AdminMfaMac) (pending_totp : Option EncryptedMfaSecret)
    (expires_at created_at : Time) : Challenge where
  purpose := purpose
  user_id := user_id
  target_email := target_email
  code := code
  pending_totp := pending_totp
  expires_at := expires_at
  attempt_count := 0
  consumed_at := none
  cancelled_at := none
  created_at := created_at

inductive ProfileStatus
  | pending
  | active
  | disabled
  deriving DecidableEq, Repr

/-- A row of `admin_mfa_profiles`, one for each user. -/
structure Profile where
  id : String
  recovery_email : Option String
  recovery_email_verified_at : Option Time
  totp : Option EncryptedMfaSecret
  profile_version : Nat
  last_used_step : Option Nat
  status : ProfileStatus
  activated_at : Option Time
  deriving DecidableEq, Repr

/-- The constraint `admin_mfa_profiles_active_material_check`. -/
def Profile.active_material (profile : Profile) : Bool :=
  decide (profile.status ≠ .active) || (profile.recovery_email.isSome &&
    profile.recovery_email_verified_at.isSome && profile.totp.isSome && profile.activated_at.isSome)

/-- The row that a first enrolment inserts. -/
def newProfile (id : String) : Profile where
  id := id
  recovery_email := none
  recovery_email_verified_at := none
  totp := none
  profile_version := 0
  last_used_step := none
  status := .pending
  activated_at := none

/-! ## The service -/

/-- `AdminMfaService` with its keys. The fields that compute stand for AES-GCM,
HMAC and the Unicode tables; what the code relies on is that a seed can be
decrypted with the profile and the user it was encrypted for, and that the
digits among the ASCII characters are `0` to `9`. -/
structure AdminMfaService where
  /-- The truncated HMAC-SHA1 of a seed and a step. -/
  truncated : String → Nat → Nat
  /-- Nonce, profile, user and seed. -/
  encrypt_totp_seed : String → String → String → String → EncryptedMfaSecret
  decrypt_totp_seed : String → String → EncryptedMfaSecret → Option String
  otp_hmac : Nat → Option (String → String)
  otp_current_key_version : Nat
  recovery_hmac : Nat → Option (String → String)
  recovery_current_key_version : Nat
  /-- `recovery_current_key_version` is the greatest version of the keys. -/
  recovery_key : (recovery_hmac recovery_current_key_version).isSome
  /-- `str.isdigit` on one character. -/
  isDigit : Char → Bool
  /-- `\d` of the request schemas on one character. -/
  isDecimal : Char → Bool
  decrypt_encrypt : ∀ nonce profile_id user_id seed,
    decrypt_totp_seed profile_id user_id (encrypt_totp_seed nonce profile_id user_id seed) = some seed
  isDigit_ascii : ∀ c : Char, c.toNat < 128 → isDigit c = ('0' ≤ c && c ≤ '9')
  isDigit_of_isDecimal : ∀ c : Char, isDecimal c = true → isDigit c = true

/-- Why a call raises: a refusal with its HTTP status, code and message, a
comparison of non-ASCII texts, a missing key, a CHECK or a NOT NULL of a table. -/
inductive Failure
  | http (status : Nat) (code userMessage : String)
  | type_error
  | configuration
  | check_violation (constraint : String)
  | not_null_violation (column : String)
  deriving DecidableEq, Repr

/-- The decimal digit of `n` at a power of ten. -/
def digit (n : Nat) : Char := Char.ofNat (48 + n % 10)

/-- `f"{n:06d}"` for `n` below a million. -/
def sixDigits (n : Nat) : String :=
  String.ofList [digit (n / 100000), digit (n / 10000), digit (n / 1000), digit (n / 100),
    digit (n / 10), digit n]

def isAscii (code : String) : Bool := code.toList.all (fun c => decide (c.toNat < 128))

/-- The step of a moment. -/
def stepOf (moment : Time) : Nat := moment / seconds 30

/-- `range(current_step - 1, current_step + 2)`. Moments lie after the first
step of 1970, so no step is negative. -/
def window (moment : Time) : List Nat := [stepOf moment - 1, stepOf moment, stepOf moment + 1]

namespace AdminMfaService

variable (service : AdminMfaService)

/-- `^\d{6}$` of the request schemas. -/
def admits (code : String) : Bool :=
  decide (code.length = 6) && code.toList.all service.isDecimal

def _hotp (seed : String) (step : Nat) : String :=
  sixDigits (service.truncated seed step % 1000000)

/-- `hmac.compare_digest` on texts: it raises unless both are ASCII. -/
def compare_digest (expected code : String) : Except Failure Bool :=
  if isAscii expected && isAscii code then .ok (decide (expected = code)) else .error .type_error

/-- The loop of `verify_totp` over the steps of its window. -/
def verifySteps (seed code : String) (last_accepted_step : Option Nat) :
    List Nat → Except Failure (Option Nat)
  | [] => .ok none
  | step :: rest =>
    if last_accepted_step.any (fun last => decide (step ≤ last)) then
      verifySteps seed code last_accepted_step rest
    else match compare_digest (service._hotp seed step) code with
      | .error failure => .error failure
      | .ok true => .ok (some step)
      | .ok false => verifySteps seed code last_accepted_step rest

def verify_totp (seed code : String) (moment : Time) (last_accepted_step : Option Nat) :
    Except Failure (Option Nat) :=
  if code.length ≠ 6 ∨ code.toList.all service.isDigit = false then .ok none
  else service.verifySteps seed code last_accepted_step (window moment)

/-- The text that `email_otp_mac` signs. -/
def otpMaterial (version : Nat) (purpose : Purpose) (challenge_id user_id email code : String) :
    String :=
  String.intercalate "\x1f"
    [toString version, purpose.text, challenge_id, user_id, Text.lower (Text.strip email), code]

def email_otp_mac (key_version : Nat) (purpose : Purpose) (challenge_id user_id email code : String) :
    Option AdminMfaMac :=
  let version := if key_version = 0 then service.otp_current_key_version else key_version
  (service.otp_hmac version).map (fun mac =>
    ⟨version, mac (otpMaterial version purpose challenge_id user_id email code)⟩)

def email_otp_matches (expected : AdminMfaMac) (purpose : Purpose)
    (challenge_id user_id email code : String) : Bool :=
  (service.email_otp_mac expected.keyVersion purpose challenge_id user_id email code).any
    (fun candidate => decide (expected.mac = candidate.mac))

def recoveryMaterial (version : Nat) (profile_id user_id code : String) : String :=
  String.intercalate "\x1f" [toString version, profile_id, user_id, code]

def recovery_code_mac (key_version : Nat) (profile_id user_id code : String) :
    Option AdminMfaMac :=
  let version := if key_version = 0 then service.recovery_current_key_version else key_version
  (service.recovery_hmac version).map (fun mac =>
    ⟨version, mac (recoveryMaterial version profile_id user_id code)⟩)

def recovery_code_matches (expected : AdminMfaMac) (profile_id user_id code : String) : Bool :=
  (service.recovery_code_mac expected.keyVersion profile_id user_id code).any
    (fun candidate => decide (expected.mac = candidate.mac))

end AdminMfaService

/-! ## One code and its challenge -/

namespace Challenge

/-- Neither used nor cancelled, and not expired. -/
def isOpen (challenge : Challenge) (now : Time) : Bool :=
  decide (challenge.consumed_at = none) && decide (challenge.cancelled_at = none) &&
    decide (now < challenge.expires_at)

def eligible (challenge : Challenge) (now : Time) : Bool :=
  challenge.isOpen now && decide (challenge.attempt_count < 5)

/-- The UPDATE after a wrong code: the fifth one cancels the challenge. -/
def miss (challenge : Challenge) (now : Time) : Challenge :=
  { challenge with
    attempt_count := challenge.attempt_count + 1
    cancelled_at := if 5 ≤ challenge.attempt_count + 1 then some now else challenge.cancelled_at }

/-- `UPDATE … SET consumed_at … WHERE consumed_at IS NULL AND cancelled_at IS NULL`. -/
def consume (challenge : Challenge) (now : Time) : Option Challenge :=
  if challenge.consumed_at = none ∧ challenge.cancelled_at = none then
    some { challenge with consumed_at := some now }
  else none

end Challenge

variable (service : AdminMfaService)

/-- `consume_email_otp` on the locked row: the new row, and whether the code was
accepted. Rows for a mail have a code, by `admin_mfa_challenges_email_binding_check`. -/
def consume_email_otp (challenge_id : String) (row : Challenge) (user_id : String)
    (purpose : Purpose) (email code : String) (now later : Time) : Challenge × Bool :=
  let normalized_email := Text.lower (Text.strip email)
  let matched := decide (row.purpose = purpose) && decide (row.user_id = user_id) &&
    decide (row.target_email = some normalized_email) && row.code.any (fun mac =>
      service.email_otp_matches mac purpose challenge_id user_id normalized_email code)
  if row.eligible now && matched then
    match row.consume later with
    | some consumed => (consumed, true)
    | none => (row, false)
  else if row.eligible now then (row.miss later, false)
  else (row, false)

/-- The rows that a code of the app leaves, and the step at which it was accepted. -/
structure Outcome where
  challenge : Challenge
  profile : Profile
  step : Option Nat
  deriving DecidableEq, Repr

def verify_challenge_invalid : Failure :=
  .http 401 "AUTH_MFA_CHALLENGE_INVALID" "관리자 인증 요청이 만료되었거나 올바르지 않습니다."

def verify_profile_required : Failure :=
  .http 401 "AUTH_MFA_PROFILE_REQUIRED" "관리자 인증 등록이 필요합니다."

/-- The first check of `verify_admin_mfa`, on the locked challenge. -/
def verify_eligible (challenge : Challenge) (now : Time) : Bool :=
  decide (challenge.purpose = .login) && challenge.eligible now

/-- `verify_admin_mfa` on the locked rows of an eligible challenge and of an
active profile. `later` is the time of its UPDATEs. -/
def verify_admin_mfa (policy : Option Nat) (challenge : Challenge) (profile : Profile)
    (code : String) (now later : Time) : Except Failure Outcome :=
  match profile.totp with
  | none => .error .type_error
  | some encrypted =>
    match service.decrypt_totp_seed profile.id challenge.user_id encrypted with
    | none => .error .configuration
    | some seed =>
      match service.verify_totp seed code now profile.last_used_step with
      | .error failure => .error failure
      | .ok none => .ok ⟨challenge.miss later, profile, none⟩
      | .ok (some step) =>
        let fresh := profile.last_used_step.all (fun last => decide (last < step))
        let profile' := if fresh then { profile with last_used_step := some step } else profile
        match policy with
        | none =>
          .error (.http 503 "ADMIN_MFA_POLICY_UNAVAILABLE" "관리자 인증 정책을 확인해 주세요.")
        | some _ =>
          match challenge.consume later with
          | some consumed => .ok ⟨consumed, profile', if fresh then some step else none⟩
          | none => .ok ⟨challenge, profile', none⟩

def enrollment_invalid (userMessage : String) : Failure :=
  .http 401 "AUTH_MFA_ENROLLMENT_INVALID" userMessage

/-- The first check of `confirm_totp_enrollment`, on the locked challenge. -/
def confirm_eligible (challenge : Challenge) (now : Time) : Bool :=
  decide (challenge.purpose = .enroll) && challenge.eligible now

/-- The UPDATE of the profile in `confirm_totp_enrollment`. -/
def enrolledProfile (challenge : Challenge) (profile : Profile) (encrypted : EncryptedMfaSecret)
    (step : Nat) (later : Time) : Profile where
  id := profile.id
  recovery_email := challenge.target_email
  recovery_email_verified_at := some later
  totp := some encrypted
  profile_version := profile.profile_version + 1
  last_used_step := some step
  status := .active
  activated_at := some later

/-- `confirm_totp_enrollment` on the locked rows of an eligible challenge and of
the profile of its user. -/
def confirm_totp_enrollment (challenge : Challenge) (profile : Profile) (code : String)
    (now later : Time) : Except Failure Outcome :=
  match challenge.pending_totp with
  | none => .error .type_error
  | some encrypted =>
    match service.decrypt_totp_seed profile.id challenge.user_id encrypted with
    | none => .error .configuration
    | some seed =>
      match service.verify_totp seed code now none with
      | .error failure => .error failure
      | .ok none => .ok ⟨challenge.miss later, profile, none⟩
      | .ok (some step) =>
        let profile' := enrolledProfile challenge profile encrypted step later
        if profile'.active_material = false then
          .error (.check_violation "admin_mfa_profiles_active_material_check")
        else match challenge.consume later with
          | some consumed => .ok ⟨consumed, profile', some step⟩
          | none =>
            .error (.http 409 "AUTH_MFA_ENROLLMENT_RACE" "인증 앱 등록 요청이 이미 사용되었습니다.")

/-- `consume_profile_totp` on the locked row of an active profile: the step, if
the code is accepted. -/
def consume_profile_totp (profile : Profile) (user_id code : String) (now : Time) :
    Except Failure (Option Nat) :=
  match profile.totp with
  | none => .ok none
  | some encrypted =>
    match service.decrypt_totp_seed profile.id user_id encrypted with
    | none => .error .configuration
    | some seed =>
      match service.verify_totp seed code now profile.last_used_step with
      | .error failure => .error failure
      | .ok none => .ok none
      | .ok (some step) =>
        .ok (if profile.last_used_step.all (fun last => decide (last < step)) then some step
          else none)

/-! ## The codes of the app -/

theorem digit_spec (n : Nat) : (digit n).toNat = 48 + n % 10 := by
  have h : n % 10 < 10 := Nat.mod_lt _ (by omega)
  unfold digit
  generalize n % 10 = d at h
  interval_cases d <;> rfl

/-- The six characters of a code are ASCII digits. -/
theorem sixDigits_toList {n : Nat} {c : Char} (h : c ∈ (sixDigits n).toList) :
    48 ≤ c.toNat ∧ c.toNat < 58 := by
  have hdigit : ∀ k, 48 ≤ (digit k).toNat ∧ (digit k).toNat < 58 := by
    intro k
    rw [digit_spec]
    omega
  simp only [sixDigits, String.toList_ofList, List.mem_cons, List.not_mem_nil, or_false] at h
  rcases h with rfl | rfl | rfl | rfl | rfl | rfl <;> exact hdigit _

namespace AdminMfaService

variable {service}
variable {seed code : String} {last : Option Nat} {now : Time} {step : Nat}

theorem hotp_ascii : isAscii (service._hotp seed step) = true := by
  unfold isAscii
  rw [List.all_eq_true]
  intro c hc
  have h := sixDigits_toList hc
  rw [decide_eq_true_eq]
  omega

theorem hotp_length : (service._hotp seed step).length = 6 := by
  simp [_hotp, sixDigits, String.length]

theorem hotp_digits : (service._hotp seed step).toList.all service.isDigit = true := by
  rw [List.all_eq_true]
  intro c hc
  have h := sixDigits_toList hc
  have hzero : ('0' : Char) ≤ c := h.1
  have hnine : c ≤ ('9' : Char) := by
    have hle : c.toNat ≤ 57 := by omega
    exact hle
  rw [service.isDigit_ascii c (by omega)]
  simp [hzero, hnine]

/-- The step was accepted before, so the loop skips it. -/
def spent (last : Option Nat) (step : Nat) : Bool := last.any (fun l => decide (step ≤ l))

theorem spent_eq_false : spent last step = false ↔ ∀ l, last = some l → l < step := by
  cases last with
  | none => simp [spent]
  | some l => simp [spent]

theorem verifySteps_accepts {steps : List Nat}
    (h : service.verifySteps seed code last steps = .ok (some step)) :
    step ∈ steps ∧ spent last step = false ∧ service._hotp seed step = code := by
  induction steps with
  | nil => simp [verifySteps] at h
  | cons s rest ih =>
    unfold verifySteps at h
    split_ifs at h with hspent
    · obtain ⟨hmem, hrest⟩ := ih h
      exact ⟨List.mem_cons_of_mem _ hmem, hrest⟩
    · unfold compare_digest at h
      rw [hotp_ascii, Bool.true_and] at h
      by_cases hascii : isAscii code = true
      · rw [if_pos hascii] at h
        by_cases hsame : service._hotp seed s = code
        · simp only [hsame, decide_true, Except.ok.injEq, Option.some.injEq] at h
          subst h
          exact ⟨List.mem_cons_self, by simpa [spent] using hspent, hsame⟩
        · simp only [hsame, decide_false] at h
          obtain ⟨hmem, hrest⟩ := ih h
          exact ⟨List.mem_cons_of_mem _ hmem, hrest⟩
      · rw [if_neg hascii] at h
        cases h

/-- An accepted step is newer than the last one, and at most one step away from now. -/
theorem verify_totp_accepts (h : service.verify_totp seed code now last = .ok (some step)) :
    (∀ l, last = some l → l < step) ∧ stepOf now ≤ step + 1 ∧ step ≤ stepOf now + 1 ∧
      service._hotp seed step = code := by
  unfold verify_totp at h
  split_ifs at h with hshape
  · cases h
  · obtain ⟨hmem, hspent, hcode⟩ := verifySteps_accepts h
    simp only [window, List.mem_cons, List.not_mem_nil, or_false] at hmem
    refine ⟨spent_eq_false.1 hspent, ?_, ?_, hcode⟩
    · omega
    · omega

/-- The codes for which `verify_totp` gives an answer: no comparison with a
non-ASCII text is made. -/
def comparable (service : AdminMfaService) (code : String) (now : Time) (last : Option Nat) : Bool :=
  isAscii code || decide (code.length ≠ 6) || !code.toList.all service.isDigit ||
    (window now).all (spent last)

theorem verifySteps_raises {steps : List Nat} : (∃ failure,
    service.verifySteps seed code last steps = .error failure) ↔
      isAscii code = false ∧ steps.all (spent last) = false := by
  induction steps with
  | nil => simp [verifySteps]
  | cons s rest ih =>
    unfold verifySteps
    rw [List.all_cons]
    by_cases hspent : spent last s = true
    · have hif : last.any (fun l => decide (s ≤ l)) = true := hspent
      rw [if_pos hif, ih, hspent, Bool.true_and]
    · have hif : ¬ last.any (fun l => decide (s ≤ l)) = true := hspent
      rw [if_neg hif]
      unfold compare_digest
      rw [hotp_ascii, Bool.true_and]
      by_cases hascii : isAscii code = true
      · rw [if_pos hascii]
        by_cases hsame : service._hotp seed s = code
        · simp [hsame, hascii]
        · simp only [hsame, decide_false]
          rw [ih]
          simp [hascii]
      · rw [if_neg hascii]
        simp [hascii, hspent]

theorem verify_totp_raises : (∃ failure, service.verify_totp seed code now last = .error failure) ↔
    service.comparable code now last = false := by
  unfold verify_totp comparable
  split_ifs with hshape
  · rcases hshape with hlength | hdigits
    · simp [hlength]
    · simp [hdigits]
  · rw [not_or, not_not, Bool.not_eq_false] at hshape
    rw [verifySteps_raises]
    simp [hshape]

/-- The code of the current step is accepted where no step was used before. -/
theorem verify_totp_current : ∃ step,
    service.verify_totp seed (service._hotp seed (stepOf now)) now none = .ok (some step) := by
  unfold verify_totp
  rw [if_neg (by simp [hotp_length, hotp_digits])]
  simp only [window, verifySteps, compare_digest, hotp_ascii, Option.any_none, Bool.and_self,
    ↓reduceIte, Bool.false_eq_true]
  by_cases h : service._hotp seed (stepOf now - 1) = service._hotp seed (stepOf now)
  · exact ⟨stepOf now - 1, by simp [h]⟩
  · exact ⟨stepOf now, by simp [h]⟩

end AdminMfaService

/-! ## What a code leaves -/

variable {service}

namespace Challenge

variable {challenge : Challenge} {now later : Time}

theorem eligible_iff : challenge.eligible now = true ↔ challenge.consumed_at = none ∧
    challenge.cancelled_at = none ∧ now < challenge.expires_at ∧ challenge.attempt_count < 5 := by
  simp [eligible, isOpen, and_assoc]

theorem consume_of_eligible (h : challenge.eligible now = true) :
    challenge.consume later = some { challenge with consumed_at := some later } := by
  obtain ⟨hconsumed, hcancelled, _⟩ := eligible_iff.1 h
  unfold consume
  rw [if_pos ⟨hconsumed, hcancelled⟩]

end Challenge

/-- A code for a mail: it is accepted and uses the challenge up, or it counts
as a wrong one, or the challenge was not eligible. -/
theorem consume_email_otp_cases (challenge_id : String) (row : Challenge) (user_id : String)
    (purpose : Purpose) (email code : String) (now later : Time) :
    let result := consume_email_otp service challenge_id row user_id purpose email code now later
    (row.eligible now = true ∧ result = ({ row with consumed_at := some later }, true)) ∨
      (row.eligible now = true ∧ result = (row.miss later, false)) ∨
      (row.eligible now = false ∧ result = (row, false)) := by
  unfold consume_email_otp
  dsimp only
  split_ifs with hmatched heligible
  · rw [Bool.and_eq_true] at hmatched
    left
    rw [Challenge.consume_of_eligible hmatched.1]
    exact ⟨hmatched.1, rfl⟩
  · exact Or.inr (Or.inl ⟨heligible, rfl⟩)
  · exact Or.inr (Or.inr ⟨by simpa using heligible, rfl⟩)

section Codes

variable {policy : Option Nat} {challenge : Challenge} {profile : Profile} {code : String}
  {now later : Time} {outcome : Outcome} {failure : Failure}

theorem verify_admin_mfa_cases (heligible : challenge.eligible now = true)
    (h : verify_admin_mfa service policy challenge profile code now later = .ok outcome) :
    outcome = ⟨challenge.miss later, profile, none⟩ ∨
      ∃ step, outcome = ⟨{ challenge with consumed_at := some later },
          { profile with last_used_step := some step }, some step⟩ ∧
        (∀ last, profile.last_used_step = some last → last < step) ∧
        stepOf now ≤ step + 1 ∧ step ≤ stepOf now + 1 := by
  unfold verify_admin_mfa at h
  split at h
  · cases h
  · split at h
    · cases h
    · rename_i encrypted _ seed _
      split at h
      · cases h
      · cases h
        exact Or.inl rfl
      · rename_i step hstep
        obtain ⟨hfresh, hlow, hhigh, _⟩ := AdminMfaService.verify_totp_accepts hstep
        have hall : profile.last_used_step.all (fun last => decide (last < step)) = true := by
          simpa [Option.all_eq_true] using hfresh
        dsimp only at h
        rw [hall, Challenge.consume_of_eligible heligible] at h
        split at h
        · cases h
        · cases h
          exact Or.inr ⟨step, rfl, hfresh, hlow, hhigh⟩

/-- With a readable secret, a code is refused unseen only by a comparison that
raises, or after it was accepted. -/
theorem verify_admin_mfa_raises {encrypted : EncryptedMfaSecret} (htotp : profile.totp = some encrypted)
    (hread : (service.decrypt_totp_seed profile.id challenge.user_id encrypted).isSome)
    (h : verify_admin_mfa service policy challenge profile code now later = .error failure) :
    service.comparable code now profile.last_used_step = false ∨
      ∃ status text message, failure = .http status text message := by
  obtain ⟨seed, hseed⟩ := Option.isSome_iff_exists.1 hread
  unfold verify_admin_mfa at h
  simp only [htotp, hseed] at h
  split at h
  · rename_i raised hraised
    exact Or.inl (AdminMfaService.verify_totp_raises.1 ⟨raised, hraised⟩)
  · cases h
  · split at h
    · cases h
      exact Or.inr ⟨_, _, _, rfl⟩
    · split at h <;> cases h

theorem confirm_totp_enrollment_cases (heligible : challenge.eligible now = true)
    (h : confirm_totp_enrollment service challenge profile code now later = .ok outcome) :
    outcome = ⟨challenge.miss later, profile, none⟩ ∨
      ∃ step encrypted, challenge.pending_totp = some encrypted ∧
        outcome = ⟨{ challenge with consumed_at := some later },
          enrolledProfile challenge profile encrypted step later, some step⟩ ∧
        (service.decrypt_totp_seed profile.id challenge.user_id encrypted).isSome ∧
        (enrolledProfile challenge profile encrypted step later).active_material = true ∧
        stepOf now ≤ step + 1 ∧ step ≤ stepOf now + 1 := by
  unfold confirm_totp_enrollment at h
  split at h
  · cases h
  · rename_i encrypted hpending
    split at h
    · cases h
    · rename_i seed hseed
      split at h
      · cases h
      · cases h
        exact Or.inl rfl
      · rename_i step hstep
        obtain ⟨_, hlow, hhigh, _⟩ := AdminMfaService.verify_totp_accepts hstep
        dsimp only at h
        split_ifs at h with hmaterial
        rw [Challenge.consume_of_eligible heligible] at h
        cases h
        rw [Bool.not_eq_false] at hmaterial
        exact Or.inr ⟨step, encrypted, hpending, rfl, by rw [hseed]; rfl, hmaterial, hlow, hhigh⟩

theorem confirm_totp_enrollment_raises {encrypted : EncryptedMfaSecret}
    (hpending : challenge.pending_totp = some encrypted)
    (hread : (service.decrypt_totp_seed profile.id challenge.user_id encrypted).isSome)
    (h : confirm_totp_enrollment service challenge profile code now later = .error failure) :
    service.comparable code now none = false ∨
      (∃ constraint, failure = .check_violation constraint) ∨
      ∃ status text message, failure = .http status text message := by
  obtain ⟨seed, hseed⟩ := Option.isSome_iff_exists.1 hread
  unfold confirm_totp_enrollment at h
  simp only [hpending, hseed] at h
  split at h
  · rename_i raised hraised
    exact Or.inl (AdminMfaService.verify_totp_raises.1 ⟨raised, hraised⟩)
  · cases h
  · split_ifs at h
    · cases h
      exact Or.inr (Or.inl ⟨_, rfl⟩)
    · split at h
      · cases h
      · cases h
        exact Or.inr (Or.inr ⟨_, _, _, rfl⟩)

theorem consume_profile_totp_cases {user_id : String} {step : Nat}
    (h : consume_profile_totp service profile user_id code now = .ok (some step)) :
    (∀ last, profile.last_used_step = some last → last < step) ∧
      stepOf now ≤ step + 1 ∧ step ≤ stepOf now + 1 := by
  unfold consume_profile_totp at h
  split at h
  · cases h
  · split at h
    · cases h
    · split at h
      · cases h
      · cases h
      · rename_i step' hstep
        obtain ⟨hfresh, hlow, hhigh, _⟩ := AdminMfaService.verify_totp_accepts hstep
        split_ifs at h
        · cases h
          exact ⟨hfresh, hlow, hhigh⟩
        · cases h

end Codes

/-! ## A service to run -/

/-- The codes of the first steps of the seed `12345678901234567890`, and the
digits of ASCII and of Arabic. Nothing is hidden. -/
def plainService : AdminMfaService where
  truncated := fun _ step =>
    [1284755224, 1094287082, 137359152, 1726969429, 1640338314, 868254676, 1918287922, 82162583,
      673399871, 645520489].getD step 0
  encrypt_totp_seed := fun nonce _ _ seed => ⟨1, nonce, seed, ""⟩
  decrypt_totp_seed := fun _ _ encrypted => some encrypted.ciphertext
  otp_hmac := fun version => if version = 1 then some id else none
  otp_current_key_version := 1
  recovery_hmac := fun version => if version = 1 then some id else none
  recovery_current_key_version := 1
  recovery_key := rfl
  isDigit := fun c => ('0' ≤ c && c ≤ '9') || ('\u0660' ≤ c && c ≤ '\u0669')
  isDecimal := fun c => ('0' ≤ c && c ≤ '9') || ('\u0660' ≤ c && c ≤ '\u0669')
  decrypt_encrypt := fun _ _ _ _ => rfl
  isDigit_ascii := by
    intro c hc
    have hlow : ¬ '\u0660' ≤ c := by
      intro hle
      have h : 0x660 ≤ c.toNat := hle
      omega
    simp [hlow]
  isDigit_of_isDecimal := fun _ h => h

end moaworks.admin_mfa
