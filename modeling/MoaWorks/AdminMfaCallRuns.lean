-- What one statement of the overlapping calls does to the challenges, to the
-- profiles and to the record of tries, and that locked rows stay as they are.
import MoaWorks.AdminMfaCalls

namespace moaworks.admin_mfa

/-! ## Locked rows -/

namespace Session

/-- The challenge that the session has locked. -/
def challenge : Session → Option (String × Challenge)
  | challenged call row _ | paired call row _ _ => call.challenge_id.map (fun id => (id, row))
  | _ => none

/-- The profile that the session has locked, with its user. -/
def profile : Session → Option (String × Profile)
  | paired _ row profile _ => some (row.user_id, profile)
  | profiled (.consume_profile_totp _ user_id _) profile _ => some (user_id, profile)
  | _ => none

/-- The call, where it has passed its check of the challenge. -/
def started : Session → Option (Call × Challenge × Time)
  | challenged call row now | paired call row _ now => some (call, row, now)
  | _ => none

/-- The call, where its second SELECT has taken a profile. -/
def taken : Session → Option (Call × Profile)
  | paired call _ profile _ => some (call, profile)
  | _ => none

end Session

/-- The session has the locks of the rows that it has read, and they are as it read them. -/
structure Holding (w : World) (t : Nat) (session : Session) : Prop where
  challenge : ∀ id row, session.challenge = some (id, row) →
    w.challenge_locks.holder id = some t ∧ w.challenges id = some row
  profile : ∀ user_id profile, session.profile = some (user_id, profile) →
    w.profile_locks.holder user_id = some t ∧ w.profiles user_id = some profile
  started : ∀ call row now, session.started = some (call, row, now) → call.startsOn row now = true
  taken : ∀ call profile, session.taken = some (call, profile) → call.takes profile = true

theorem holding_idle (w : World) (t : Nat) : Holding w t .idle := by
  constructor
  · intro id row h
    cases h
  · intro user_id profile h
    cases h
  · intro call row now h
    cases h
  · intro call profile h
    cases h

/-- Others may change the rows that the session has not locked. -/
theorem Holding.kept {w w' : World} {t : Nat} {session : Session} (h : Holding w t session)
    (hchallenge : ∀ id row, w.challenge_locks.holder id = some t → w.challenges id = some row →
      w'.challenge_locks.holder id = some t ∧ w'.challenges id = some row)
    (hprofile : ∀ user_id profile, w.profile_locks.holder user_id = some t →
      w.profiles user_id = some profile →
      w'.profile_locks.holder user_id = some t ∧ w'.profiles user_id = some profile) :
    Holding w' t session := by
  constructor
  · intro id row hs
    obtain ⟨hlock, hrow⟩ := h.challenge id row hs
    exact hchallenge id row hlock hrow
  · intro user_id profile hs
    obtain ⟨hlock, hrow⟩ := h.profile user_id profile hs
    exact hprofile user_id profile hlock hrow
  · exact h.started
  · exact h.taken

/-- Secrets that the service can decrypt for the profile that they are stored for. -/
def readable (service : AdminMfaService) (user_id : String) (profile : Profile)
    (totp : Option EncryptedMfaSecret) : Prop :=
  ∀ encrypted, totp = some encrypted →
    (service.decrypt_totp_seed profile.id user_id encrypted).isSome

/-- What holds of the sessions and of the stored secrets in every run. -/
structure Ordered (service : AdminMfaService) (w : World) : Prop where
  sessions : ∀ t, Holding w t (w.sessions t)
  profiles : ∀ user_id profile, w.profiles user_id = some profile →
    profile.active_material = true ∧ readable service user_id profile profile.totp
  enrolments : ∀ id row, w.challenges id = some row → row.purpose = .enroll →
    row.pending_totp.isSome ∧ ∃ profile, w.profiles row.user_id = some profile ∧
      readable service row.user_id profile row.pending_totp

/-! ## What one statement does -/

/-- A code that cannot be compared with any step of the window. -/
def incomparable (service : AdminMfaService) (w : World) : Action → Bool
  | .finish t _ =>
    match w.sessions t with
    | .paired (.verify_admin_mfa _ code) _ profile now =>
      !service.comparable code now profile.last_used_step
    | .paired (.confirm_totp_enrollment _ code) _ _ now => !service.comparable code now none
    | _ => false
  | _ => false

/-- The statements, by what they do. Those of a call are of session `t`. -/
inductive Does (service : AdminMfaService) (w : World) (a : Action) : World → Prop
  /-- A call begins, waits, or locks a row. -/
  | turns (t : Nat) (session : Session) (challenge_locks profile_locks : Locks String Nat)
      (hchallenges : ∀ u id, u ≠ t → w.challenge_locks.holder id = some u →
        challenge_locks.holder id = some u)
      (hprofiles : ∀ u user_id, u ≠ t → w.profile_locks.holder user_id = some u →
        profile_locks.holder user_id = some u)
      (hself : Holding { w.put t session with
        challenge_locks := challenge_locks, profile_locks := profile_locks } t session) :
      Does service w a { w.put t session with
        challenge_locks := challenge_locks, profile_locks := profile_locks }
  | ends (t : Nat) : Does service w a (w.finish t)
  | misses (t : Nat) (id : String) (row : Challenge) (now later : Time)
      (hlock : w.challenge_locks.holder id = some t) (hrow : w.challenges id = some row)
      (heligible : row.eligible now = true) :
      Does service w a ((w.finish t).set_challenge id (row.miss later) (missedBy id row))
  /-- The comparison raises, and the wrong code is not counted. -/
  | raises (t : Nat) (id : String) (hraises : incomparable service w a = true) :
      Does service w a { w.finish t with guesses := w.guesses ++ [.missed id] }
  /-- `consume_email_otp` accepts a code. -/
  | accepts (t : Nat) (id : String) (row : Challenge) (now later : Time)
      (hlock : w.challenge_locks.holder id = some t) (hrow : w.challenges id = some row)
      (heligible : row.eligible now = true) :
      Does service w a ((w.finish t).set_challenge id { row with consumed_at := some later }
        [.accepted id])
  | verifies (t : Nat) (id : String) (row : Challenge) (profile : Profile) (step : Nat)
      (now later : Time) (hlock : w.challenge_locks.holder id = some t)
      (hrow : w.challenges id = some row) (heligible : row.eligible now = true)
      (hplock : w.profile_locks.holder row.user_id = some t)
      (hprofile : w.profiles row.user_id = some profile)
      (hfresh : ∀ last, profile.last_used_step = some last → last < step)
      (hlow : stepOf now ≤ step + 1) (hhigh : step ≤ stepOf now + 1) :
      Does service w a (((w.finish t).set_challenge id { row with consumed_at := some later }
        [.accepted id]).set_profile row.user_id { profile with last_used_step := some step }
        [⟨row.user_id, w.secrets row.user_id, step, now⟩])
  | enrols (t : Nat) (id : String) (row : Challenge) (profile profile' : Profile) (step : Nat)
      (now later : Time) (hlock : w.challenge_locks.holder id = some t)
      (hrow : w.challenges id = some row) (heligible : row.eligible now = true)
      (hplock : w.profile_locks.holder row.user_id = some t)
      (hprofile : w.profiles row.user_id = some profile) (hid : profile'.id = profile.id)
      (hstep : profile'.last_used_step = some step) (hmaterial : profile'.active_material = true)
      (hread : readable service row.user_id profile' profile'.totp)
      (hlow : stepOf now ≤ step + 1) (hhigh : step ≤ stepOf now + 1) :
      Does service w a ((((w.finish t).set_challenge id { row with consumed_at := some later }
        [.accepted id]).set_profile row.user_id profile'
        [⟨row.user_id, some id, step, now⟩]).enrol row.user_id id)
  /-- `consume_profile_totp` accepts a code. -/
  | uses (t : Nat) (user_id : String) (profile : Profile) (step : Nat) (now : Time)
      (hplock : w.profile_locks.holder user_id = some t)
      (hprofile : w.profiles user_id = some profile)
      (hfresh : ∀ last, profile.last_used_step = some last → last < step)
      (hlow : stepOf now ≤ step + 1) (hhigh : step ≤ stepOf now + 1) :
      Does service w a ((w.finish t).set_profile user_id
        { profile with last_used_step := some step } [⟨user_id, w.secrets user_id, step, now⟩])
  | issues (id : String) (row : Challenge) (hnone : w.challenges id = none)
      (hattempts : row.attempt_count = 0) (hconsumed : row.consumed_at = none)
      (hcancelled : row.cancelled_at = none)
      (henroll : row.purpose = .enroll → row.pending_totp.isSome ∧
        ∃ profile, w.profiles row.user_id = some profile ∧
          readable service row.user_id profile row.pending_totp) :
      Does service w a (w.set_challenge id row [])
  | opens (user_id id : String) (hnone : w.profiles user_id = none) :
      Does service w a (w.set_profile user_id (newProfile id) [])
  | cancels (id : String) (row : Challenge) (later : Time) (hrow : w.challenges id = some row)
      (hfree : w.challenge_locks.holder id = none) (hconsumed : row.consumed_at = none)
      (hcancelled : row.cancelled_at = none) :
      Does service w a (w.set_challenge id { row with cancelled_at := some later }
        [.cancelled id])
  | spends (id : String) (row : Challenge) (later : Time) (hrow : w.challenges id = some row)
      (hfree : w.challenge_locks.holder id = none) (hconsumed : row.consumed_at = none)
      (hcancelled : row.cancelled_at = none) :
      Does service w a (w.set_challenge id { row with consumed_at := some later } [])
  | touches (user_id : String) (profile profile' : Profile)
      (hprofile : w.profiles user_id = some profile)
      (hfree : w.profile_locks.holder user_id = none) (hid : profile'.id = profile.id)
      (htotp : profile'.totp = profile.totp)
      (hlast : profile'.last_used_step = profile.last_used_step)
      (hmaterial : profile'.active_material = true) :
      Does service w a (w.set_profile user_id profile' [])

variable {service : AdminMfaService} {w w' : World} {t : Nat} {a : Action}

theorem set_challenge_same {id : String} {row : Challenge} (h : w.challenges id = some row) :
    w.set_challenge id row [] = w := by
  have hrows : (fun k => if k = id then some row else w.challenges k) = w.challenges := by
    funext k
    split_ifs with hk
    · rw [hk, h]
    · rfl
  unfold World.set_challenge
  rw [hrows, List.append_nil]

theorem set_profile_same {user_id : String} {profile : Profile}
    (h : w.profiles user_id = some profile) : w.set_profile user_id profile [] = w := by
  have hrows : (fun k => if k = user_id then some profile else w.profiles k) = w.profiles := by
    funext k
    split_ifs with hk
    · rw [hk, h]
    · rfl
  unfold World.set_profile
  rw [hrows, List.append_nil]

/-- A phase without locked rows, with the locks as they are. -/
theorem Does.to_session {session : Session} (h : ∀ w', Holding w' t session) :
    Does service w a (w.put t session) :=
  .turns t session w.challenge_locks w.profile_locks (fun _ _ _ hk => hk) (fun _ _ _ hk => hk) (h _)

theorem startsOn_eligible {call : Call} {row : Challenge} {now : Time}
    (h : call.startsOn row now = true) (hreads : call.readsProfile = true) :
    row.eligible now = true := by
  cases call with
  | verify_admin_mfa => exact (Bool.and_eq_true_iff.1 h).2
  | confirm_totp_enrollment => exact (Bool.and_eq_true_iff.1 h).2
  | consume_email_otp => cases hreads
  | consume_profile_totp => cases hreads

theorem kept_take {l : Locks String Nat} {key : String} (h : l.open_to t key = true) (u : Nat)
    (k : String) (hu : u ≠ t) (hk : l.holder k = some u) : (l.take t key).holder k = some u :=
  Locks.holder_take_of_open h hk hu

theorem put_self (w : World) (t : Nat) (session : Session) :
    (w.put t session).sessions t = session := by
  simp [World.put]

theorem put_other (w : World) (session : Session) {u : Nat} (h : u ≠ t) :
    (w.put t session).sessions u = w.sessions u := by
  simp [World.put, h]

/-- `SELECT … FOR UPDATE` of the challenge. -/
theorem Does.challenges {call : Call} {row : Challenge} {now : Time} {id : String}
    (hid : call.challenge_id = some id) (hrow : w.challenges id = some row)
    (hopen : w.challenge_locks.open_to t id = true) (hstarts : call.startsOn row now = true) :
    Does service w a { w.put t (.challenged call row now) with
      challenge_locks := w.challenge_locks.take t id } := by
  apply Does.turns t (.challenged call row now) (w.challenge_locks.take t id) w.profile_locks
    (kept_take hopen) (fun _ _ _ hk => hk)
  constructor
  · intro id' row' hs
    simp only [Session.challenge, hid, Option.map_some, Option.some.injEq, Prod.mk.injEq] at hs
    obtain ⟨rfl, rfl⟩ := hs
    exact ⟨Locks.holder_take_self _ _ _, hrow⟩
  · intro user_id profile hs
    cases hs
  · intro call' row' now' hs
    cases hs
    exact hstarts
  · intro call' profile hs
    cases hs

theorem lock_does (h : lock w t = some w') : Does service w a w' := by
  unfold lock at h
  split at h
  · rename_i profile_id user_id code now hs
    split at h
    · cases h
      exact .ends t
    · rename_i profile hprofile
      split_ifs at h with hopen htakes
      · cases h
        rw [Bool.not_eq_false] at hopen
        apply Does.turns t _ w.challenge_locks (w.profile_locks.take t user_id)
          (fun _ _ _ hk => hk) (kept_take hopen)
        constructor
        · intro id row hs'
          cases hs'
        · intro user_id' profile' hs'
          cases hs'
          exact ⟨Locks.holder_take_self _ _ _, hprofile⟩
        · intro call row now' hs'
          cases hs'
        · intro call profile' hs'
          cases hs'
      · cases h
        exact .ends t
  · rename_i call now hs hcall
    split at h
    · cases h
    · rename_i id hid
      split at h
      · cases h
        exact .ends t
      · rename_i row hrow
        split_ifs at h with hopen hstarts
        · cases h
          rw [Bool.not_eq_false] at hopen
          exact .challenges hid hrow hopen hstarts
        · cases h
          exact .ends t
  · cases h

theorem lock_profile_does (hi : Ordered service w) (h : lock_profile w t = some w') :
    Does service w a w' := by
  unfold lock_profile at h
  split at h
  · rename_i call row now hs
    have hheld := hi.sessions t
    rw [hs] at hheld
    by_cases hreads : call.readsProfile = false
    · rw [if_pos hreads] at h
      cases h
    · rw [if_neg hreads] at h
      split at h
      · cases h
        exact .ends t
      · rename_i profile hprofile
        split_ifs at h with hopen htakes
        · cases h
          rw [Bool.not_eq_false] at hopen
          apply Does.turns t _ w.challenge_locks (w.profile_locks.take t row.user_id)
            (fun _ _ _ hk => hk) (kept_take hopen)
          constructor
          · exact hheld.challenge
          · intro user_id profile' hs'
            cases hs'
            exact ⟨Locks.holder_take_self _ _ _, hprofile⟩
          · intro call' row' now' hs'
            cases hs'
            exact hheld.started call row now rfl
          · intro call' profile' hs'
            cases hs'
            exact htakes
        · cases h
          exact .ends t
  · cases h

theorem active_totp {profile : Profile} (hmaterial : profile.active_material = true)
    (hactive : profile.status = .active) : ∃ encrypted, profile.totp = some encrypted := by
  have h : profile.totp.isSome = true := by
    simp only [Profile.active_material, hactive, ne_eq, not_true_eq_false, decide_false,
      Bool.false_or, Bool.and_eq_true] at hmaterial
    exact hmaterial.1.2
  exact Option.isSome_iff_exists.1 h

/-- The end of a call whose code counts as a wrong one. -/
theorem save_missed {id : String} {row : Challenge} {profile : Profile} {later : Time}
    {secret : Option String} {now : Time} (hprofile : w.profiles row.user_id = some profile) :
    save w t id row ⟨row.miss later, profile, none⟩ secret now =
      (w.finish t).set_challenge id (row.miss later) (missedBy id row) := by
  have hsame : ((w.finish t).set_challenge id (row.miss later) (missedBy id row)).profiles
      row.user_id = some profile := hprofile
  exact set_profile_same hsame

/-- A call that raises after it accepted the code leaves no trace. -/
theorem refuse_does {id : String} {failure : Failure}
    (h : incomparable service w a = true ∨ (∃ constraint, failure = .check_violation constraint) ∨
      ∃ status text message, failure = .http status text message) :
    Does service w a (refuse w t id failure) := by
  unfold refuse
  rcases h with hraises | ⟨constraint, rfl⟩ | ⟨status, text, message, rfl⟩
  · split
    · exact .raises t id hraises
    · exact .raises t id hraises
    · exact .ends t
    · exact .ends t
    · exact .ends t
  · exact .ends t
  · exact .ends t

theorem finish_does {later : Time} (hi : Ordered service w)
    (h : finish service w t later = some w') : Does service w (.finish t later) w' := by
  have hheld := hi.sessions t
  unfold finish at h
  split at h
  · rename_i id user_id purpose email code row now hs
    rw [hs] at hheld
    obtain ⟨hlock, hrow⟩ := hheld.challenge id row rfl
    have hcases := @consume_email_otp_cases service id row user_id purpose email code
      now later
    dsimp only at h hcases
    rcases hcases with ⟨heligible, hresult⟩ | ⟨heligible, hresult⟩ | ⟨heligible, hresult⟩
    · simp only [hresult, ↓reduceIte, Option.some.injEq] at h
      subst h
      exact .accepts t id row now later hlock hrow heligible
    · simp only [hresult, Bool.false_eq_true, ↓reduceIte, heligible, Option.some.injEq] at h
      subst h
      exact .misses t id row now later hlock hrow heligible
    · simp only [hresult, Bool.false_eq_true, ↓reduceIte, heligible, Option.some.injEq] at h
      subst h
      have hsame : (w.finish t).challenges id = some row := hrow
      rw [set_challenge_same hsame]
      exact .ends t
  · rename_i id code row profile now hs
    rw [hs] at hheld
    obtain ⟨hlock, hrow⟩ := hheld.challenge id row rfl
    obtain ⟨hplock, hprofile⟩ := hheld.profile row.user_id profile rfl
    have heligible := startsOn_eligible (hheld.started _ row now rfl) rfl
    split at h
    · rename_i failure hfailure
      cases h
      obtain ⟨hmaterial, hread⟩ := hi.profiles row.user_id profile hprofile
      obtain ⟨encrypted, htotp⟩ := active_totp hmaterial (by simpa [Call.takes] using hheld.taken _ _ rfl)
      apply refuse_does
      rcases verify_admin_mfa_raises htotp (hread encrypted htotp) hfailure with hraises | hhttp
      · left
        simp [incomparable, hs, hraises]
      · exact Or.inr (Or.inr hhttp)
    · rename_i outcome houtcome
      cases h
      rcases verify_admin_mfa_cases heligible houtcome with rfl | ⟨step, rfl, hfresh, hlow, hhigh⟩
      · rw [save_missed hprofile]
        exact .misses t id row now later hlock hrow heligible
      · exact .verifies t id row profile step now later hlock hrow heligible hplock hprofile hfresh
          hlow hhigh
  · rename_i id code row profile now hs
    rw [hs] at hheld
    obtain ⟨hlock, hrow⟩ := hheld.challenge id row rfl
    obtain ⟨hplock, hprofile⟩ := hheld.profile row.user_id profile rfl
    have hstarts := hheld.started _ row now rfl
    have heligible := startsOn_eligible hstarts rfl
    split at h
    · rename_i failure hfailure
      cases h
      have hpurpose : row.purpose = .enroll := by simpa using (Bool.and_eq_true_iff.1 hstarts).1
      obtain ⟨hseed, profile', hprofile', hread⟩ := hi.enrolments id row hrow hpurpose
      obtain rfl : profile = profile' := by simpa [hprofile] using hprofile'
      obtain ⟨encrypted, hpending⟩ := Option.isSome_iff_exists.1 hseed
      apply refuse_does
      rcases confirm_totp_enrollment_raises hpending (hread encrypted hpending) hfailure with
        hraises | hother
      · left
        simp [incomparable, hs, hraises]
      · exact Or.inr hother
    · rename_i outcome houtcome
      cases h
      rcases confirm_totp_enrollment_cases heligible houtcome with
        rfl | ⟨step, encrypted, hpending, rfl, hread, hmaterial, hlow, hhigh⟩
      · dsimp only [Option.isSome]
        rw [if_neg (by simp), save_missed hprofile]
        exact .misses t id row now later hlock hrow heligible
      · apply Does.enrols t id row profile (enrolledProfile row profile encrypted step later) step
          now later hlock hrow heligible hplock hprofile rfl rfl hmaterial _ hlow hhigh
        intro encrypted' hsome
        obtain rfl : encrypted = encrypted' := by simpa [enrolledProfile] using hsome
        exact hread
  · rename_i profile_id user_id code profile now hs
    rw [hs] at hheld
    obtain ⟨hplock, hprofile⟩ := hheld.profile user_id profile rfl
    split at h
    · cases h
      exact .ends t
    · cases h
      exact .ends t
    · rename_i step hstep
      cases h
      obtain ⟨hfresh, hlow, hhigh⟩ := consume_profile_totp_cases hstep
      exact .uses t user_id profile step now hplock hprofile hfresh hlow hhigh
  · cases h

theorem touched_material {profile : Profile} {mail : String × Time}
    (h : profile.active_material = true) : (touched profile (some mail)).active_material = true := by
  simp only [Profile.active_material, touched, Option.isSome_some, Bool.and_true, Bool.true_and,
    Bool.or_eq_true, Bool.and_eq_true] at h ⊢
  rcases h with h | h
  · exact Or.inl h
  · exact Or.inr ⟨h.1.2, h.2⟩

theorem step_does (hi : Ordered service w) (h : step service w a = some w') :
    Does service w a w' := by
  cases a with
  | begin t call now =>
    simp only [step] at h
    split at h
    · split_ifs at h
      cases h
      apply Does.to_session
      intro w'
      constructor
      · intro id row hs
        cases hs
      · intro user_id profile hs
        cases hs
      · intro call' row now' hs
        cases hs
      · intro call' profile hs
        cases hs
    · cases h
  | lock t => exact lock_does h
  | lock_profile t => exact lock_profile_does hi h
  | finish t later => exact finish_does hi h
  | abort t =>
    cases h
    exact .ends t
  | issue id purpose user_id target_email code expires_at created_at =>
    simp only [step] at h
    split_ifs at h with hnew
    cases h
    apply Does.issues id _ hnew.1 rfl rfl rfl
    intro henroll
    exact absurd henroll hnew.2
  | start id user_id nonce seed target_email expires_at created_at =>
    simp only [step] at h
    split at h
    · cases h
    · rename_i profile hprofile
      split_ifs at h with hnew
      cases h
      apply Does.issues id _ hnew rfl rfl rfl
      intro _
      refine ⟨rfl, profile, hprofile, ?_⟩
      intro encrypted hsome
      obtain rfl : service.encrypt_totp_seed nonce profile.id user_id seed = encrypted := by
        simpa [freshChallenge] using hsome
      simp [freshChallenge, service.decrypt_encrypt]
  | first_profile user_id id =>
    simp only [step] at h
    split_ifs at h with hnew
    cases h
    exact .opens user_id id hnew
  | cancel id later =>
    simp only [step] at h
    split at h
    · cases h
    · rename_i row hrow
      split_ifs at h with hopen
      cases h
      exact .cancels id row later hrow hopen.1 hopen.2.1 hopen.2.2
  | spend id later =>
    simp only [step] at h
    split at h
    · cases h
    · rename_i row hrow
      split_ifs at h with hopen
      cases h
      exact .spends id row later hrow hopen.2.1 hopen.2.2.1 hopen.2.2.2
  | touch_profile user_id email =>
    simp only [step] at h
    split at h
    · cases h
    · rename_i profile hprofile
      split_ifs at h with hopen
      cases h
      have hmaterial := (hi.profiles user_id profile hprofile).1
      cases email with
      | none =>
        exact .touches user_id profile (touched profile none) hprofile hopen.1 rfl rfl rfl hmaterial
      | some mail =>
        exact .touches user_id profile (touched profile (some mail)) hprofile hopen.1 rfl rfl rfl
          (touched_material hmaterial)

/-! ## The order is kept -/

section Order

theorem readable_of_id {user_id : String} {profile profile' : Profile}
    {totp : Option EncryptedMfaSecret} (hid : profile'.id = profile.id)
    (h : readable service user_id profile totp) : readable service user_id profile' totp := by
  unfold readable
  rw [hid]
  exact h

/-- At the end of a call the other sessions still hold what they have locked. -/
theorem others_hold (t : Nat) (hi : ∀ u, Holding w u (w.sessions u))
    (hends : w'.sessions = (w.finish t).sessions ∧
      w'.challenge_locks = w.challenge_locks.release t ∧
      w'.profile_locks = w.profile_locks.release t)
    (hrows : ∀ id, w.challenge_locks.holder id ≠ some t → w'.challenges id = w.challenges id)
    (hprofiles : ∀ user_id, w.profile_locks.holder user_id ≠ some t →
      w'.profiles user_id = w.profiles user_id) (u : Nat) : Holding w' u (w'.sessions u) := by
  obtain ⟨hsessions, hclocks, hplocks⟩ := hends
  by_cases hu : u = t
  · have hidle : w'.sessions u = .idle := by
      rw [hsessions, hu]
      exact put_self w t .idle
    rw [hidle]
    exact holding_idle w' u
  · have hsame : w'.sessions u = w.sessions u := by
      rw [hsessions]
      exact put_other w .idle hu
    rw [hsame]
    apply (hi u).kept
    · intro id row hlock hrow
      refine ⟨?_, ?_⟩
      · rw [hclocks, Locks.holder_release]
        exact ⟨hlock, hu⟩
      · rw [hrows id (by rw [hlock]; simpa using hu), hrow]
    · intro user_id profile hlock hprofile
      refine ⟨?_, ?_⟩
      · rw [hplocks, Locks.holder_release]
        exact ⟨hlock, hu⟩
      · rw [hprofiles user_id (by rw [hlock]; simpa using hu), hprofile]

theorem set_row_ne {α : Type} {rows : String → Option α} {k j : String} {row : α} {p : Prop}
    (hp : p) (hj : j = k → ¬ p) : (if j = k then some row else rows j) = rows j := by
  rw [if_neg (fun h => hj h hp)]

theorem Does.sessions_step (hi : ∀ u, Holding w u (w.sessions u)) (h : Does service w a w') (u : Nat) :
    Holding w' u (w'.sessions u) := by
  cases h with
  | turns t session challenge_locks profile_locks hchallenges hprofiles hself =>
    by_cases hu : u = t
    · subst hu
      have hsession : (w.put u session).sessions u = session := put_self w u session
      dsimp only
      rw [hsession]
      exact hself
    · have hsession : (w.put t session).sessions u = w.sessions u := put_other w session hu
      dsimp only
      rw [hsession]
      apply (hi u).kept
      · intro id row hlock hrow
        exact ⟨hchallenges u id hu hlock, hrow⟩
      · intro user_id profile hlock hprofile
        exact ⟨hprofiles u user_id hu hlock, hprofile⟩
  | ends t => exact others_hold t hi ⟨rfl, rfl, rfl⟩ (fun _ _ => rfl) (fun _ _ => rfl) u
  | raises t id =>
    apply others_hold t hi
    · exact ⟨rfl, rfl, rfl⟩
    · exact fun _ _ => rfl
    · exact fun _ _ => rfl
  | misses t id row now later hlock =>
    apply others_hold t hi
    · exact ⟨rfl, rfl, rfl⟩
    · exact fun k hk => set_row_ne hk (by rintro rfl hne; exact hne hlock)
    · exact fun _ _ => rfl
  | accepts t id row now later hlock =>
    apply others_hold t hi
    · exact ⟨rfl, rfl, rfl⟩
    · exact fun k hk => set_row_ne hk (by rintro rfl hne; exact hne hlock)
    · exact fun _ _ => rfl
  | verifies t id row profile step now later hlock hrow heligible hplock =>
    apply others_hold t hi
    · exact ⟨rfl, rfl, rfl⟩
    · exact fun k hk => set_row_ne hk (by rintro rfl hne; exact hne hlock)
    · exact fun k hk => set_row_ne hk (by rintro rfl hne; exact hne hplock)
  | enrols t id row profile profile' step now later hlock hrow heligible hplock =>
    apply others_hold t hi
    · exact ⟨rfl, rfl, rfl⟩
    · exact fun k hk => set_row_ne hk (by rintro rfl hne; exact hne hlock)
    · exact fun k hk => set_row_ne hk (by rintro rfl hne; exact hne hplock)
  | uses t user_id profile step now hplock =>
    apply others_hold t hi
    · exact ⟨rfl, rfl, rfl⟩
    · exact fun _ _ => rfl
    · exact fun k hk => set_row_ne hk (by rintro rfl hne; exact hne hplock)
  | issues id row hnone =>
    apply (hi u).kept
    · intro k row' hlock hrow
      refine ⟨hlock, ?_⟩
      rw [← hrow]
      exact set_row_ne hrow (by rintro rfl hrow'; rw [hnone] at hrow'; cases hrow')
    · intro user_id profile hlock hprofile
      exact ⟨hlock, hprofile⟩
  | opens user_id id hnone =>
    apply (hi u).kept
    · intro k row hlock hrow
      exact ⟨hlock, hrow⟩
    · intro k profile hlock hprofile
      refine ⟨hlock, ?_⟩
      rw [← hprofile]
      exact set_row_ne hprofile (by rintro rfl hprofile'; rw [hnone] at hprofile'; cases hprofile')
  | cancels id row later hrow hfree =>
    apply (hi u).kept
    · intro k row' hlock hrow'
      refine ⟨hlock, ?_⟩
      rw [← hrow']
      exact set_row_ne hlock (by rintro rfl hlock'; rw [hfree] at hlock'; cases hlock')
    · intro user_id profile hlock hprofile
      exact ⟨hlock, hprofile⟩
  | spends id row later hrow hfree =>
    apply (hi u).kept
    · intro k row' hlock hrow'
      refine ⟨hlock, ?_⟩
      rw [← hrow']
      exact set_row_ne hlock (by rintro rfl hlock'; rw [hfree] at hlock'; cases hlock')
    · intro user_id profile hlock hprofile
      exact ⟨hlock, hprofile⟩
  | touches user_id profile profile' hprofile hfree =>
    apply (hi u).kept
    · intro k row hlock hrow
      exact ⟨hlock, hrow⟩
    · intro k stored hlock hstored
      refine ⟨hlock, ?_⟩
      rw [← hstored]
      exact set_row_ne hlock (by rintro rfl hlock'; rw [hfree] at hlock'; cases hlock')

/-- A profile keeps its id. -/
theorem Does.profile_id (h : Does service w a w') {user_id : String} {profile : Profile}
    (hprofile : w.profiles user_id = some profile) :
    ∃ profile', w'.profiles user_id = some profile' ∧ profile'.id = profile.id := by
  have hput : ∀ (user : String) (stored next : Profile), w.profiles user = some stored →
      next.id = stored.id → ∃ profile',
        (if user_id = user then some next else w.profiles user_id) = some profile' ∧
          profile'.id = profile.id := by
    intro user stored next hstored hid
    by_cases huser : user_id = user
    · subst huser
      obtain rfl : stored = profile := by simpa [hprofile] using hstored.symm
      exact ⟨next, if_pos rfl, hid⟩
    · exact ⟨profile, by rw [if_neg huser, hprofile], rfl⟩
  cases h with
  | verifies t id row stored step now later hlock hrow heligible hplock hstored =>
    exact hput row.user_id stored _ hstored rfl
  | enrols t id row stored next step now later hlock hrow heligible hplock hstored hid =>
    exact hput row.user_id stored next hstored hid
  | uses t user stored step now hplock hstored => exact hput user stored _ hstored rfl
  | touches user stored next hstored hfree hid => exact hput user stored next hstored hid
  | opens user id hnone =>
    refine ⟨profile, ?_, rfl⟩
    rw [← hprofile]
    exact set_row_ne hprofile (by rintro rfl hprofile'; rw [hnone] at hprofile'; cases hprofile')
  | _ => exact ⟨profile, hprofile, rfl⟩

/-- The challenges after a step: new ones, and the old ones with their seeds. -/
theorem Does.row_before (h : Does service w a w') {id : String} {row' : Challenge}
    (hrow' : w'.challenges id = some row') :
    (∃ row, w.challenges id = some row ∧ row'.purpose = row.purpose ∧ row'.user_id = row.user_id ∧
      row'.pending_totp = row.pending_totp) ∨
    (row'.purpose = .enroll → row'.pending_totp.isSome ∧
      ∃ profile, w.profiles row'.user_id = some profile ∧
        readable service row'.user_id profile row'.pending_totp) := by
  have hput : ∀ (k : String) (stored next : Challenge), w.challenges k = some stored →
      (if id = k then some next else w.challenges id) = some row' →
      next.purpose = stored.purpose → next.user_id = stored.user_id →
      next.pending_totp = stored.pending_totp →
      ∃ row, w.challenges id = some row ∧ row'.purpose = row.purpose ∧ row'.user_id = row.user_id ∧
        row'.pending_totp = row.pending_totp := by
    intro k stored next hstored hnext hpurpose huser hpending
    by_cases hk : id = k
    · subst hk
      rw [if_pos rfl] at hnext
      cases hnext
      exact ⟨stored, hstored, hpurpose, huser, hpending⟩
    · rw [if_neg hk] at hnext
      exact ⟨row', hnext, rfl, rfl, rfl⟩
  cases h with
  | misses t k row now later hlock hrow =>
    exact Or.inl (hput k row _ hrow hrow' rfl rfl rfl)
  | accepts t k row now later hlock hrow =>
    exact Or.inl (hput k row _ hrow hrow' rfl rfl rfl)
  | verifies t k row profile step now later hlock hrow =>
    exact Or.inl (hput k row _ hrow hrow' rfl rfl rfl)
  | enrols t k row profile profile' step now later hlock hrow =>
    exact Or.inl (hput k row _ hrow hrow' rfl rfl rfl)
  | cancels k row later hrow => exact Or.inl (hput k row _ hrow hrow' rfl rfl rfl)
  | spends k row later hrow => exact Or.inl (hput k row _ hrow hrow' rfl rfl rfl)
  | issues k row hnone hattempts hconsumed hcancelled henroll =>
    by_cases hk : id = k
    · have hput : (w.set_challenge k row []).challenges id = some row := if_pos hk
      rw [hput] at hrow'
      cases hrow'
      exact Or.inr henroll
    · have hput : (w.set_challenge k row []).challenges id = w.challenges id := if_neg hk
      rw [hput] at hrow'
      exact Or.inl ⟨row', hrow', rfl, rfl, rfl⟩
  | _ => exact Or.inl ⟨row', hrow', rfl, rfl, rfl⟩

theorem active_material_newProfile (id : String) : (newProfile id).active_material = true := rfl

theorem Does.profiles_step (hi : Ordered service w) (h : Does service w a w') {user_id : String}
    {profile' : Profile} (hprofile' : w'.profiles user_id = some profile') :
    profile'.active_material = true ∧ readable service user_id profile' profile'.totp := by
  have hput : ∀ (user : String) (next : Profile),
      (if user_id = user then some next else w.profiles user_id) = some profile' →
      (next.active_material = true ∧ readable service user next next.totp) →
      profile'.active_material = true ∧ readable service user_id profile' profile'.totp := by
    intro user next hnext hgood
    by_cases huser : user_id = user
    · subst huser
      rw [if_pos rfl] at hnext
      cases hnext
      exact hgood
    · rw [if_neg huser] at hnext
      exact hi.profiles user_id profile' hnext
  cases h with
  | verifies t id row stored step now later hlock hrow heligible hplock hstored =>
    obtain ⟨hmaterial, hread⟩ := hi.profiles row.user_id stored hstored
    exact hput row.user_id _ hprofile' ⟨hmaterial, readable_of_id rfl hread⟩
  | enrols t id row stored next step now later hlock hrow heligible hplock hstored hid hstep
      hmaterial hread =>
    exact hput row.user_id next hprofile' ⟨hmaterial, hread⟩
  | uses t user stored step now hplock hstored =>
    obtain ⟨hmaterial, hread⟩ := hi.profiles user stored hstored
    exact hput user _ hprofile' ⟨hmaterial, readable_of_id rfl hread⟩
  | touches user stored next hstored hfree hid htotp hlast hmaterial =>
    obtain ⟨_, hread⟩ := hi.profiles user stored hstored
    rw [← htotp] at hread
    exact hput user next hprofile' ⟨hmaterial, readable_of_id hid hread⟩
  | opens user id hnone =>
    refine hput user (newProfile id) hprofile' ⟨active_material_newProfile id, ?_⟩
    intro encrypted hsome
    cases hsome
  | _ => exact hi.profiles user_id profile' hprofile'

theorem Does.ordered (hi : Ordered service w) (h : Does service w a w') : Ordered service w' := by
  constructor
  case sessions => exact h.sessions_step hi.sessions
  case profiles =>
    intro user_id profile' hprofile'
    exact h.profiles_step hi hprofile'
  case enrolments =>
    intro id row' hrow' hpurpose
    have hfound : row'.pending_totp.isSome ∧ ∃ profile, w.profiles row'.user_id = some profile ∧
        readable service row'.user_id profile row'.pending_totp := by
      rcases h.row_before hrow' with ⟨row, hrow, hp, hu, hs⟩ | hnew
      · rw [hp] at hpurpose
        rw [hu, hs]
        exact hi.enrolments id row hrow hpurpose
      · exact hnew hpurpose
    obtain ⟨hseed, profile, hprofile, hread⟩ := hfound
    obtain ⟨profile', hprofile', hid⟩ := h.profile_id hprofile
    exact ⟨hseed, profile', hprofile', readable_of_id hid hread⟩

theorem start_ordered (h : Start service w) : Ordered service w := by
  constructor
  case sessions =>
    intro t
    rw [h.sessions t]
    exact holding_idle w t
  case profiles =>
    intro user_id profile hprofile
    exact ⟨h.active user_id profile hprofile,
      fun encrypted htotp => h.readable user_id profile encrypted hprofile htotp⟩
  case enrolments =>
    intro id row hrow
    rw [h.challenges id] at hrow
    cases hrow

theorem ordered_of_reach {ok : World → Action → Prop} (h : (machine service).Reach ok w) :
    Ordered service w := by
  apply Machine.Reach.invariant _ _ h
  · exact fun _ hstart => start_ordered hstart
  · intro w a w' _ hi _ hstep
    exact (step_does hi hstep).ordered hi

end Order

end moaworks.admin_mfa
