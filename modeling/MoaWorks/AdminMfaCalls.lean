-- The calls that check a code, as transactions that overlap: each locks the
-- row of its challenge, or of a profile, or first one and then the other.
import MoaWorks.AdminMfa
import MoaWorks.Lib.Locks
import MoaWorks.Lib.Machine

namespace moaworks.admin_mfa

/-! ## Calls and sessions -/

inductive Call
  | verify_admin_mfa (challenge_id code : String)
  | confirm_totp_enrollment (challenge_id code : String)
  | consume_email_otp (challenge_id user_id : String) (purpose : Purpose) (email code : String)
  | consume_profile_totp (profile_id user_id code : String)
  deriving DecidableEq, Repr

namespace Call

def challenge_id : Call → Option String
  | verify_admin_mfa id _ | confirm_totp_enrollment id _ | consume_email_otp id _ _ _ _ => some id
  | consume_profile_totp _ _ _ => none

def code : Call → String
  | verify_admin_mfa _ code | confirm_totp_enrollment _ code | consume_email_otp _ _ _ _ code
  | consume_profile_totp _ _ code => code

/-- The calls with a second SELECT, for the profile. -/
def readsProfile : Call → Bool
  | verify_admin_mfa _ _ | confirm_totp_enrollment _ _ => true
  | _ => false

/-- Whether that SELECT takes this profile: `verify_admin_mfa` wants an active one. -/
def takes (call : Call) (profile : Profile) : Bool :=
  match call with
  | verify_admin_mfa _ _ => decide (profile.status = .active)
  | _ => true

/-- The check of a call on its locked challenge. `consume_email_otp` raises nothing there. -/
def startsOn (call : Call) (row : Challenge) (now : Time) : Bool :=
  match call with
  | verify_admin_mfa _ _ => verify_eligible row now
  | confirm_totp_enrollment _ _ => confirm_eligible row now
  | consume_email_otp _ _ _ _ _ => true
  | consume_profile_totp _ _ _ => false

end Call

/-- Where a session is in its call. `now` is the `statement_timestamp()` of the
call's first SELECT, which is taken before the row lock is there. -/
inductive Session
  | idle
  | called (call : Call) (now : Time)
  | challenged (call : Call) (row : Challenge) (now : Time)
  | paired (call : Call) (row : Challenge) (profile : Profile) (now : Time)
  | profiled (call : Call) (profile : Profile) (now : Time)

/-- What became of a code that was tried on an eligible challenge, and when a
challenge was cancelled. -/
inductive Guess
  | missed (challenge_id : String)
  | accepted (challenge_id : String)
  | cancelled (challenge_id : String)
  deriving DecidableEq, Repr

/-- An accepted step, the secret that it was a step of, and the time of the
call. A secret is named by the challenge that it was enrolled with; the first
secret of a run has no name. -/
structure Used where
  user_id : String
  secret : Option String
  step : Nat
  now : Time
  deriving DecidableEq, Repr

/-- The committed rows, the row locks and the sessions; which secret each
profile has; what was tried and which steps were accepted, newest last. -/
structure World where
  challenges : String → Option Challenge
  profiles : String → Option Profile
  policy : Option Nat
  challenge_locks : Locks String Nat
  profile_locks : Locks String Nat
  sessions : Nat → Session
  secrets : String → Option String
  guesses : List Guess
  used : List Used

inductive Action
  | begin (t : Nat) (call : Call) (now : Time)
  | lock (t : Nat)
  | lock_profile (t : Nat)
  | finish (t : Nat) (later : Time)
  | abort (t : Nat)
  /-- Another operation inserts a challenge, without a seed. -/
  | issue (id : String) (purpose : Purpose) (user_id : String) (target_email : Option String)
      (code : Option AdminMfaMac) (expires_at created_at : Time)
  /-- `start_totp_enrollment` inserts one with a seed. -/
  | start (id user_id nonce seed : String) (target_email : Option String)
      (expires_at created_at : Time)
  | first_profile (user_id id : String)
  /-- Another operation cancels an open challenge. -/
  | cancel (id : String) (later : Time)
  /-- `start_totp_enrollment` uses up the challenge of a recovery. -/
  | spend (id : String) (later : Time)
  /-- `verify_recovery_email` sets the address of an active profile, and a
  break-glass request only its version. -/
  | touch_profile (user_id : String) (email : Option (String × Time))
  deriving DecidableEq, Repr

namespace World

def put (w : World) (t : Nat) (session : Session) : World :=
  { w with sessions := fun u => if u = t then session else w.sessions u }

/-- The end of a transaction, by its commit or by a rollback. -/
def finish (w : World) (t : Nat) : World :=
  { w.put t .idle with
    challenge_locks := w.challenge_locks.release t
    profile_locks := w.profile_locks.release t }

def set_challenge (w : World) (id : String) (row : Challenge) (guesses : List Guess) : World :=
  { w with
    challenges := fun k => if k = id then some row else w.challenges k
    guesses := w.guesses ++ guesses }

def set_profile (w : World) (user_id : String) (profile : Profile) (used : List Used) : World :=
  { w with
    profiles := fun k => if k = user_id then some profile else w.profiles k
    used := w.used ++ used }

/-- The profile of the user has the secret of this challenge from now on. -/
def enrol (w : World) (user_id challenge_id : String) : World :=
  { w with secrets := fun k => if k = user_id then some challenge_id else w.secrets k }

end World

/-- The events of a wrong code, and of the fifth one. -/
def missedBy (id : String) (row : Challenge) : List Guess :=
  if 5 ≤ row.attempt_count + 1 then [.missed id, .cancelled id] else [.missed id]

/-! ## The statements -/

variable (service : AdminMfaService)

def lock (w : World) (t : Nat) : Option World :=
  match w.sessions t with
  | .called (.consume_profile_totp profile_id user_id code) now =>
    match w.profiles user_id with
    | none => some (w.finish t)
    | some profile =>
      if w.profile_locks.open_to t user_id = false then none
      else if profile.id = profile_id ∧ profile.status = .active then
        some { w.put t (.profiled (.consume_profile_totp profile_id user_id code) profile now) with
          profile_locks := w.profile_locks.take t user_id }
      else some (w.finish t)
  | .called call now =>
    match call.challenge_id with
    | none => none
    | some id =>
      match w.challenges id with
      | none => some (w.finish t)
      | some row =>
        if w.challenge_locks.open_to t id = false then none
        else if call.startsOn row now then
          some { w.put t (.challenged call row now) with
            challenge_locks := w.challenge_locks.take t id }
        else some (w.finish t)
  | _ => none

/-- The second SELECT of `verify_admin_mfa`, which wants an active profile, and
of `confirm_totp_enrollment`, which takes any. -/
def lock_profile (w : World) (t : Nat) : Option World :=
  match w.sessions t with
  | .challenged call row now =>
    if call.readsProfile = false then none
    else match w.profiles row.user_id with
      | none => some (w.finish t)
      | some profile =>
        if w.profile_locks.open_to t row.user_id = false then none
        else if call.takes profile then
          some { w.put t (.paired call row profile now) with
            profile_locks := w.profile_locks.take t row.user_id }
        else some (w.finish t)
  | _ => none

/-- The commit of an answer of the app. The secret of the step is `secret`. -/
def save (w : World) (t : Nat) (id : String) (row : Challenge) (outcome : Outcome)
    (secret : Option String) (now : Time) : World :=
  match outcome.step with
  | none =>
    ((w.finish t).set_challenge id outcome.challenge (missedBy id row)).set_profile row.user_id
      outcome.profile []
  | some step =>
    ((w.finish t).set_challenge id outcome.challenge [.accepted id]).set_profile row.user_id
      outcome.profile [⟨row.user_id, secret, step, now⟩]

/-- A call that raises is rolled back. Its code was not accepted, unless it
failed after that. -/
def refuse (w : World) (t : Nat) (id : String) (failure : Failure) : World :=
  match failure with
  | .type_error | .configuration => { w.finish t with guesses := w.guesses ++ [.missed id] }
  | .http _ _ _ | .check_violation _ | .not_null_violation _ => w.finish t

/-- The rest of a call, which it does with its rows locked. -/
def finish (w : World) (t : Nat) (later : Time) : Option World :=
  match w.sessions t with
  | .challenged (.consume_email_otp id user_id purpose email code) row now =>
    let (row', ok) := consume_email_otp service id row user_id purpose email code now later
    some ((w.finish t).set_challenge id row'
      (if ok then [.accepted id] else if row.eligible now then missedBy id row else []))
  | .paired (.verify_admin_mfa id code) row profile now =>
    match verify_admin_mfa service w.policy row profile code now later with
    | .error failure => some (refuse w t id failure)
    | .ok outcome => some (save w t id row outcome (w.secrets row.user_id) now)
  | .paired (.confirm_totp_enrollment id code) row profile now =>
    match confirm_totp_enrollment service row profile code now later with
    | .error failure => some (refuse w t id failure)
    | .ok outcome =>
      let w' := save w t id row outcome (some id) now
      some (if outcome.step.isSome then w'.enrol row.user_id id else w')
  | .profiled (.consume_profile_totp _ user_id code) profile now =>
    match consume_profile_totp service profile user_id code now with
    | .error _ | .ok none => some (w.finish t)
    | .ok (some step) =>
      some ((w.finish t).set_profile user_id { profile with last_used_step := some step }
        [⟨user_id, w.secrets user_id, step, now⟩])
  | _ => none

/-- What the operations that check no code do to a profile. -/
def touched (profile : Profile) : Option (String × Time) → Profile
  | none => { profile with profile_version := profile.profile_version + 1 }
  | some (email, later) =>
    { profile with
      recovery_email := some email
      recovery_email_verified_at := some later
      profile_version := profile.profile_version + 1 }

def step (w : World) : Action → Option World
  | .begin t call now =>
    match w.sessions t with
    | .idle => if service.admits call.code then some (w.put t (.called call now)) else none
    | _ => none
  | .lock t => lock w t
  | .lock_profile t => lock_profile w t
  | .finish t later => finish service w t later
  | .abort t => some (w.finish t)
  | .issue id purpose user_id target_email code expires_at created_at =>
    if w.challenges id = none ∧ purpose ≠ .enroll then
      some (w.set_challenge id
        (freshChallenge purpose user_id target_email code none expires_at created_at) [])
    else none
  | .start id user_id nonce seed target_email expires_at created_at =>
    match w.profiles user_id with
    | none => none
    | some profile =>
      if w.challenges id = none then
        some (w.set_challenge id (freshChallenge .enroll user_id target_email none
          (some (service.encrypt_totp_seed nonce profile.id user_id seed)) expires_at created_at) [])
      else none
  | .first_profile user_id id =>
    if w.profiles user_id = none then some (w.set_profile user_id (newProfile id) []) else none
  | .cancel id later =>
    match w.challenges id with
    | none => none
    | some row =>
      if w.challenge_locks.holder id = none ∧ row.consumed_at = none ∧ row.cancelled_at = none then
        some (w.set_challenge id { row with cancelled_at := some later } [.cancelled id])
      else none
  | .spend id later =>
    match w.challenges id with
    | none => none
    | some row =>
      if row.purpose = .mfa_reenroll ∧ w.challenge_locks.holder id = none ∧
          row.consumed_at = none ∧ row.cancelled_at = none then
        some (w.set_challenge id { row with consumed_at := some later } [])
      else none
  | .touch_profile user_id email =>
    match w.profiles user_id with
    | none => none
    | some profile =>
      if w.profile_locks.holder user_id = none ∧ (email = none ∨ profile.status = .active) then
        some (w.set_profile user_id (touched profile email) [])
      else none

/-- A start: no challenge, no session, and profiles whose secrets can be read. -/
structure Start (w : World) : Prop where
  challenges : ∀ id, w.challenges id = none
  sessions : ∀ t, w.sessions t = .idle
  challenge_locks : ∀ id, w.challenge_locks.holder id = none
  profile_locks : ∀ user_id, w.profile_locks.holder user_id = none
  secrets : ∀ user_id, w.secrets user_id = none
  guesses : w.guesses = []
  used : w.used = []
  readable : ∀ user_id profile encrypted, w.profiles user_id = some profile →
    profile.totp = some encrypted →
      (service.decrypt_totp_seed profile.id user_id encrypted).isSome
  active : ∀ user_id profile, w.profiles user_id = some profile → profile.active_material = true

def machine : Machine World Action where
  Start := Start service
  step := step service

/-- One administrator with an authenticator app, and nobody in a call. -/
def oneAdmin : World where
  challenges := fun _ => none
  profiles := fun user_id => if user_id = "admin" then some
    { newProfile "profile" with
      recovery_email := some "admin@example.test"
      recovery_email_verified_at := some 0
      totp := some ⟨1, "nonce", "12345678901234567890", "tag"⟩
      profile_version := 1
      status := .active
      activated_at := some 0 } else none
  policy := some 0
  challenge_locks := .free
  profile_locks := .free
  sessions := fun _ => .idle
  secrets := fun _ => none
  guesses := []
  used := []

theorem oneAdmin_starts : Start plainService oneAdmin where
  challenges := fun _ => rfl
  sessions := fun _ => rfl
  challenge_locks := fun _ => rfl
  profile_locks := fun _ => rfl
  secrets := fun _ => rfl
  guesses := rfl
  used := rfl
  readable := fun _ _ _ _ _ => rfl
  active := by
    intro user_id profile h
    simp only [oneAdmin, Option.ite_none_right_eq_some, Option.some.injEq] at h
    rw [← h.2]
    rfl

/-- One call of session `t` with all its statements. -/
def tries (t : Nat) (call : Call) (now : Time) : List Action :=
  [.begin t call now, .lock t, .lock_profile t, .finish t now]

end moaworks.admin_mfa
