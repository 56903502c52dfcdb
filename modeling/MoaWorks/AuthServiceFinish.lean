-- Finishing a started enrolment: the code of the new secret is accepted, and
-- what the tables may still refuse was decided when the enrolment was started.
import MoaWorks.AuthServiceRuns

namespace moaworks.auth_service

open admin_mfa (Challenge EncryptedMfaSecret AdminMfaService Profile Purpose freshChallenge newProfile)
open admin_active_limit (User)

variable {env : Environment} {w w' : World} {times : Moments} {fresh : Prop}

/-! ## What every call keeps -/

/-- Challenges and profiles stay, with what they were inserted with. -/
structure Kept (w w' : World) : Prop where
  challenges : ∀ id row, w.challenges id = some row →
    ∃ row', w'.challenges id = some row' ∧ Closes row row'
  profiles : ∀ user_id profile, w.profiles user_id = some profile →
    ∃ profile', w'.profiles user_id = some profile' ∧ profile'.id = profile.id
  policy : w'.policy = w.policy

theorem Kept.refl (w : World) : Kept w w where
  challenges := fun _ row hrow => ⟨row, hrow, Closes.refl row⟩
  profiles := fun _ profile hprofile => ⟨profile, hprofile, rfl⟩
  policy := rfl

theorem Kept.trans {w'' : World} (h : Kept w w') (h' : Kept w' w'') : Kept w w'' where
  challenges := by
    intro id row hrow
    obtain ⟨row', hrow', hcloses⟩ := h.challenges id row hrow
    obtain ⟨row'', hrow'', hcloses'⟩ := h'.challenges id row' hrow'
    exact ⟨row'', hrow'', hcloses.trans hcloses'⟩
  profiles := by
    intro user_id profile hprofile
    obtain ⟨profile', hprofile', hid⟩ := h.profiles user_id profile hprofile
    obtain ⟨profile'', hprofile'', hid'⟩ := h'.profiles user_id profile' hprofile'
    exact ⟨profile'', hprofile'', hid'.trans hid⟩
  policy := h'.policy.trans h.policy

theorem kept_of_closes {row : Challenge} {id : String}
    (h : Option.Rel Closes (w.challenges id) (w'.challenges id)) (hrow : w.challenges id = some row) :
    ∃ row', w'.challenges id = some row' ∧ Closes row row' := by
  rw [hrow] at h
  revert h
  generalize w'.challenges id = found
  rintro (hcloses | _)
  exact ⟨_, rfl, hcloses⟩

theorem Quiet.kept (h : Quiet w w') : Kept w w' where
  challenges := fun id _ hrow => kept_of_closes (h.challenges id) hrow
  profiles := by
    intro user_id profile hprofile
    have htouched := h.profiles user_id
    rw [hprofile] at htouched
    revert htouched
    generalize w'.profiles user_id = found
    rintro (_ | _ | ⟨hid, _⟩)
    exact ⟨_, rfl, hid⟩
  policy := h.policy

theorem kept_issue {id : String} (row : Challenge) (authority : Option Nat)
    (hid : w.challenges id = none) : Kept w (w.issue id row authority) where
  challenges := by
    intro k old hold
    have hne : k ≠ id := by
      rintro rfl
      rw [hid] at hold
      cases hold
    exact ⟨old, (if_neg hne).trans hold, Closes.refl old⟩
  profiles := fun _ profile hprofile => ⟨profile, hprofile, rfl⟩
  policy := rfl

theorem Confirmed.kept {id : String} {row : Challenge} (h : Confirmed w w' id row) : Kept w w' where
  challenges := fun k _ hrow => kept_of_closes (h.challenges k) hrow
  profiles := by
    intro user_id profile hprofile
    by_cases huser : user_id = row.user_id
    · obtain ⟨old, new, hold, hnew, hid, _⟩ := h.profile
      rw [huser, hold] at hprofile
      cases hprofile
      rw [huser]
      exact ⟨new, hnew, hid⟩
    · exact ⟨profile, (h.others user_id huser).1.trans hprofile, rfl⟩
  policy := h.policy

theorem Quiet.unknown {before : World} {id : String} (h : Quiet w before)
    (hid : w.challenges id = none) : before.challenges id = none := by
  cases hrow : before.challenges id with
  | none => rfl
  | some row =>
    obtain ⟨row', hrow', _⟩ := rows_of_quiet h hrow
    rw [hid] at hrow'
    cases hrow'

theorem Effect.kept (h : Effect fresh w w') : Kept w w' := by
  cases h with
  | quiet hquiet => exact hquiet.kept
  | issued before id row authority hquiet hid _ _ heq =>
    rw [heq]
    exact hquiet.kept.trans (kept_issue row authority (hquiet.unknown hid))
  | confirmed id row hdone => exact hdone.kept

theorem step_keeps {a : Action} (h : step env w a = some w') : Kept w w' := by
  have hkept := (step_effect h).2.kept
  exact ⟨hkept.challenges, hkept.profiles, hkept.policy⟩

theorem later_keeps (hreach : (machine env).Reachable w) (h : (machine env).Later w w') : Kept w w' := by
  refine Machine.Later.keeps (P := Kept w) hreach h ?_ (Kept.refl w)
  intro s a s' _ hkept hstep
  exact hkept.trans (step_keeps hstep)

theorem policy_there (h : (machine env).Reachable w) : w.policy.isSome := by
  refine Machine.Reachable.invariant (I := fun s => s.policy.isSome) (fun s (hs : Start s) => hs.policy) ?_ h
  intro s a s' hpolicy hstep
  rw [(step_keeps hstep).policy]
  exact hpolicy

/-! ## The code of the new secret -/

theorem recovery_rows_ok (profile_id user_id : String) (codes : List String) :
    ∃ rows, recovery_rows env profile_id user_id codes = .ok rows := by
  unfold recovery_rows
  induction codes with
  | nil => exact ⟨[], rfl⟩
  | cons code codes ih =>
    obtain ⟨rows, hrows⟩ := ih
    obtain ⟨mac, hmac⟩ := Option.isSome_iff_exists.1 env.service.recovery_key
    have hcode : env.service.recovery_code_mac 0 profile_id user_id code =
        some ⟨env.service.recovery_current_key_version, mac (AdminMfaService.recoveryMaterial
          env.service.recovery_current_key_version profile_id user_id code)⟩ := by
      simp [AdminMfaService.recovery_code_mac, hmac]
    exact ⟨_, by rw [List.mapM_cons, hrows, hcode]; rfl⟩

/-- The row that an enrolment makes is refused exactly when it has no address. -/
theorem enrolled_material (row : Challenge) (profile : Profile) (encrypted : EncryptedMfaSecret)
    (accepted : Nat) (later : Time) :
    (admin_mfa.enrolledProfile row profile encrypted accepted later).active_material =
      row.target_email.isSome := by
  simp [Profile.active_material, admin_mfa.enrolledProfile]

/-- With the code of the current step an enrolment is accepted, or its row is refused. -/
theorem current_code_confirms {row : Challenge} {profile : Profile} {encrypted : EncryptedMfaSecret}
    {seed : String} (heligible : row.eligible times.now = true)
    (hpending : row.pending_totp = some encrypted)
    (hseed : env.service.decrypt_totp_seed profile.id row.user_id encrypted = some seed) :
    ∃ accepted, admin_mfa.confirm_totp_enrollment env.service row profile
        (env.service._hotp seed (admin_mfa.stepOf times.now)) times.now times.later =
      if row.target_email.isSome then
        .ok ⟨{ row with consumed_at := some times.later },
          admin_mfa.enrolledProfile row profile encrypted accepted times.later, some accepted⟩
      else .error (.check_violation "admin_mfa_profiles_active_material_check") := by
  obtain ⟨accepted, haccepted⟩ : ∃ accepted, env.service.verify_totp seed
      (env.service._hotp seed (admin_mfa.stepOf times.now)) times.now none = .ok (some accepted) :=
    AdminMfaService.verify_totp_current
  refine ⟨accepted, ?_⟩
  unfold admin_mfa.confirm_totp_enrollment
  simp only [hpending, hseed, haccepted, enrolled_material,
    Challenge.consume_of_eligible heligible]
  cases row.target_email.isSome with
  | false => simp
  | true => simp

/-! ## The rest of the transaction -/

/-- `_assert_user_accessible` lets a user in with this row and this account. -/
def World.lets_in (w : World) (user : User) (account : Account) : Bool :=
  (w.access_row user account).any (fun row => (_assert_user_accessible row).isOk)

/-- The user may be in once his enrolment is confirmed: as he is, or as his
invitation makes him if it names a role. -/
def usable_afterwards (w : World) (user_id : String) (later : Time) : Bool :=
  match w.directory.users.rows user_id, w.accounts user_id with
  | some user, some account =>
    match w.pending_invitation user_id later with
    | none => w.lets_in user account
    | some invitation =>
      invitation.requested_role_id.any (fun role_id => w.lets_in (appointed role_id) account.appoint)
  | _, _ => false

/-- The pending invitation of the user, if there is one, makes no fourth active administrator. -/
def within_limit (w : World) (user_id : String) (later : Time) : Bool :=
  (w.pending_invitation user_id later).all (fun invitation => !exceeds_limit w user_id invitation)

theorem get_user_summary_ok {user_id : String} : get_user_summary w user_id = .ok () ↔
    ∃ user account, w.directory.users.rows user_id = some user ∧ w.accounts user_id = some account ∧
      w.lets_in user account = true := by
  have hok : ∀ row, _assert_user_accessible row = .ok () ↔ (_assert_user_accessible row).isOk = true := by
    intro row
    cases _assert_user_accessible row <;> simp [Except.isOk, Except.toBool]
  unfold get_user_summary _fetch_user_access_row World.lets_in
  cases huser : w.directory.users.rows user_id with
  | none => simp
  | some user =>
    cases haccount : w.accounts user_id with
    | none => simp
    | some account =>
      cases hrow : w.access_row user account with
      | none => simp [hrow]
      | some row => simp [hrow, hok]

/-- What a user gets is decided by his role and by the tables of roles. -/
theorem lets_in_congr {user : User} {account account' : Account}
    (hdirectory : w'.directory.roles = w.directory.roles) (hstatus : w'.role_status = w.role_status)
    (hmail : account'.mail_status = account.mail_status) :
    w'.lets_in user account' = w.lets_in user account := by
  unfold World.lets_in World.access_row
  rw [hdirectory, hstatus, hmail]
  split
  · simp only [Option.any_some, _assert_user_accessible]
  · rfl

/-- The transaction after the code: the world, or why it is rolled back. -/
theorem complete_enrollment_eq {id user_id : String} {outcome : admin_mfa.Outcome} {codes : List String}
    (hpolicy : w.policy.isSome) : ∃ rows, complete_enrollment env w id user_id outcome codes times =
      (update_user ((w.set_profile user_id outcome.profile).set_recovery_codes user_id rows) user_id
        times.later).map (fun updated =>
          ((updated.set_challenge id outcome.challenge).cancel (entering user_id) times.later).record
            (.confirmed user_id (w.active user_id) (w.authority id))) := by
  obtain ⟨rows, hrows⟩ := @recovery_rows_ok env outcome.profile.id user_id codes
  obtain ⟨required_epoch, hepoch⟩ := Option.isSome_iff_exists.1 hpolicy
  refine ⟨rows, ?_⟩
  unfold complete_enrollment
  rw [hrows, hepoch]
  dsimp only [bind, Except.bind]
  cases update_user ((w.set_profile user_id outcome.profile).set_recovery_codes user_id rows) user_id
    times.later with
  | error failure => rfl
  | ok updated => rfl

/-- The summary of a user whose rows were updated. -/
theorem summary_of_update {user_id : String} {f : User → User} {g : Account → Account}
    (hroles : w'.directory.roles = w.directory.roles) (hstatus : w'.role_status = w.role_status)
    (husers : w'.directory.users.rows user_id = (w.directory.users.rows user_id).map f)
    (haccounts : w'.accounts user_id = (w.accounts user_id).map g) :
    get_user_summary w' user_id = .ok () ↔ ∃ user account, w.directory.users.rows user_id = some user ∧
      w.accounts user_id = some account ∧ w.lets_in (f user) (g account) = true := by
  rw [get_user_summary_ok, husers, haccounts]
  constructor
  · rintro ⟨user', account', huser', haccount', hlets⟩
    obtain ⟨user, huser, rfl⟩ := Option.map_eq_some_iff.1 huser'
    obtain ⟨account, haccount, rfl⟩ := Option.map_eq_some_iff.1 haccount'
    refine ⟨user, account, huser, haccount, ?_⟩
    rw [← lets_in_congr hroles hstatus rfl]
    exact hlets
  · rintro ⟨user, account, huser, haccount, hlets⟩
    refine ⟨f user, g account, by rw [huser]; rfl, by rw [haccount]; rfl, ?_⟩
    rw [lets_in_congr hroles hstatus rfl]
    exact hlets

theorem usable_afterwards_iff {user_id : String} {later : Time} :
    usable_afterwards w user_id later = true ↔
      ∃ user account, w.directory.users.rows user_id = some user ∧ w.accounts user_id = some account ∧
        match w.pending_invitation user_id later with
        | none => w.lets_in user account = true
        | some invitation => ∃ role_id, invitation.requested_role_id = some role_id ∧
            w.lets_in (appointed role_id) account.appoint = true := by
  unfold usable_afterwards
  cases w.directory.users.rows user_id with
  | none => simp
  | some user =>
    cases w.accounts user_id with
    | none => simp
    | some account =>
      cases w.pending_invitation user_id later with
      | none => simp
      | some invitation => simp [Option.any_eq_true]

/-- The UPDATE of a user within the limit: it fails only for an invitation without a role. -/
theorem update_user_within {user_id : String} {later : Time}
    (hlimit : within_limit w user_id later = true) : update_user w user_id later =
      match w.pending_invitation user_id later with
      | none => .ok (w.set_account user_id Account.end_sessions)
      | some invitation =>
        match invitation.requested_role_id with
        | none => .error (.mfa (.not_null_violation "role_id"))
        | some role_id => .ok (w.appoint user_id role_id) := by
  unfold within_limit at hlimit
  unfold update_user
  cases hinvitation : w.pending_invitation user_id later with
  | none => rfl
  | some invitation =>
    rw [hinvitation, Option.all_some, Bool.not_eq_true'] at hlimit
    exact if_neg (by simp [hlimit])

theorem ok_then_iff {done : World} {f : World → World} {P : World → Prop} :
    (∃ result, (Except.ok done : Except Failure World).map f = .ok result ∧ P result) ↔ P (f done) := by
  constructor
  · rintro ⟨result, hresult, hp⟩
    cases hresult
    exact hp
  · exact fun hp => ⟨f done, rfl, hp⟩

/-- After an accepted code the call succeeds exactly when the user may be in afterwards. -/
theorem completes_iff {id user_id : String} {outcome : admin_mfa.Outcome} {codes : List String}
    (hpolicy : w.policy.isSome) (hlimit : within_limit w user_id times.later = true) :
    (∃ done, complete_enrollment env w id user_id outcome codes times = .ok done ∧
      get_user_summary done user_id = .ok ()) ↔ usable_afterwards w user_id times.later = true := by
  obtain ⟨rows, heq⟩ := @complete_enrollment_eq env w times id user_id outcome codes hpolicy
  have hpending : ((w.set_profile user_id outcome.profile).set_recovery_codes user_id
      rows).pending_invitation user_id times.later = w.pending_invitation user_id times.later := rfl
  have hwithin : within_limit ((w.set_profile user_id outcome.profile).set_recovery_codes user_id rows)
      user_id times.later = true := hlimit
  rw [heq, usable_afterwards_iff, update_user_within hwithin, hpending]
  cases w.pending_invitation user_id times.later with
  | none =>
    rw [ok_then_iff]
    refine (summary_of_update (w := w) (f := fun user => user) (g := Account.end_sessions) ?_ ?_ ?_
      ?_).trans ?_
    · rfl
    · rfl
    · exact Option.map_id'.symm
    · exact if_pos rfl
    · have hsame : ∀ user account, w.lets_in user account.end_sessions = w.lets_in user account :=
        fun user account => lets_in_congr rfl rfl rfl
      simp only [hsame]
  | some invitation =>
    cases hrole : invitation.requested_role_id with
    | none => simp [hrole, Except.map]
    | some role_id =>
      simp only [hrole]
      rw [ok_then_iff]
      refine (summary_of_update (w := w) (f := fun _ => appointed role_id) (g := Account.appoint) ?_ ?_
        ?_ ?_).trans ?_
      · change (w.appoint user_id role_id).directory.roles = _
        rfl
      · change (w.appoint user_id role_id).role_status = _
        rfl
      · change (w.appoint user_id role_id).directory.users.rows user_id = _
        simp [World.appoint]
      · exact if_pos rfl
      · simp

theorem complete_enrollment_fails {id user_id : String} {outcome : admin_mfa.Outcome}
    {codes : List String} {failure : Failure} (hpolicy : w.policy.isSome)
    (hlimit : within_limit w user_id times.later = true)
    (h : complete_enrollment env w id user_id outcome codes times = .error failure) :
    failure = .mfa (.not_null_violation "role_id") := by
  obtain ⟨rows, heq⟩ := @complete_enrollment_eq env w times id user_id outcome codes hpolicy
  have hwithin : within_limit ((w.set_profile user_id outcome.profile).set_recovery_codes user_id rows)
      user_id times.later = true := hlimit
  rw [heq, update_user_within hwithin] at h
  split at h
  · cases h
  · split at h
    · cases h
      rfl
    · cases h

/-- After the commit no constraint of a table is at stake. -/
theorem get_user_summary_fails {user_id : String} {failure : Failure}
    (h : get_user_summary w user_id = .error failure) : ∀ raised, failure ≠ .mfa raised := by
  rintro raised rfl
  unfold get_user_summary at h
  split at h
  · cases h
  · unfold _assert_user_accessible at h
    split_ifs at h <;> cases h

/-! ## From the start to the end -/

/-- The challenge that authorises a start. -/
def authorising (w : World) (actor flow_id verification_id : Option String) (times : Moments) :
    Option Challenge :=
  match _resolve_mfa_flow_user w actor flow_id times.called with
  | .error _ => none
  | .ok user_id => (verified w user_id flow_id verification_id).map (fun found => found.2)

theorem start_ok {actor flow_id verification_id : Option String} {drawn : Fresh}
    {started : TotpStarted}
    (h : (start_totp_enrollment env w actor flow_id verification_id drawn times).2 = .ok started) :
    ∃ user_id id source, authorising w actor flow_id verification_id times = some source ∧
      started = ⟨drawn.challenge_id, drawn.seed⟩ ∧
      (start_totp_enrollment env w actor flow_id verification_id drawn times).1 =
        insert_enrollment env w user_id id source drawn times.later := by
  unfold start_totp_enrollment authorising at *
  cases hresolved : _resolve_mfa_flow_user w actor flow_id times.called with
  | error failure =>
    rw [hresolved] at h
    cases h
  | ok user_id =>
    rw [hresolved] at h
    dsimp only at h ⊢
    cases hverified : verified w user_id flow_id verification_id with
    | none =>
      rw [hverified] at h
      cases h
    | some found =>
      obtain ⟨id, source⟩ := found
      rw [hverified] at h
      dsimp only at h ⊢
      split_ifs at h ⊢
      · cases h
        exact ⟨user_id, id, source, rfl, rfl, rfl⟩

/-- What a start leaves: its challenge, and the profile that the seed was encrypted for. -/
theorem insert_enrollment_rows (w : World) (user_id id : String) (source : Challenge) (drawn : Fresh)
    (later : Time) : ∃ row profile,
      (insert_enrollment env w user_id id source drawn later).challenges drawn.challenge_id = some row ∧
      (insert_enrollment env w user_id id source drawn later).profiles user_id = some profile ∧
      row.purpose = .enroll ∧ row.user_id = user_id ∧ row.target_email = source.target_email ∧
      row.pending_totp = some (env.service.encrypt_totp_seed drawn.nonce profile.id user_id drawn.seed) :=
  ⟨_, _, if_pos rfl, if_pos rfl, rfl, rfl, rfl, rfl⟩

/-- The answer to the code of the current step, for an enrolment whose seed can be read. -/
theorem confirm_answer {id seed : String} {row : Challenge} {profile : Profile}
    {encrypted : EncryptedMfaSecret} {codes : List String} (hrow : w.challenges id = some row)
    (hpurpose : row.purpose = .enroll) (heligible : row.eligible times.now = true)
    (hprofile : w.profiles row.user_id = some profile) (hpending : row.pending_totp = some encrypted)
    (hseed : env.service.decrypt_totp_seed profile.id row.user_id encrypted = some seed)
    (hpolicy : w.policy.isSome) (hlimit : within_limit w row.user_id times.later = true) :
    let answer := (confirm_totp_enrollment env w id
      (env.service._hotp seed (admin_mfa.stepOf times.now)) codes times).2
    (answer ≠ .error (.mfa (.check_violation "admin_mfa_profiles_active_material_check")) ↔
      row.target_email.isSome) ∧
    (answer = .ok () ↔ row.target_email.isSome ∧
      usable_afterwards w row.user_id times.later = true) := by
  obtain ⟨accepted, haccepted⟩ := current_code_confirms heligible hpending hseed
  have hfound : (w.challenges id).filter (fun row => admin_mfa.confirm_eligible row times.now) =
      some row := by
    rw [hrow, Option.filter_some, if_pos (by simp [admin_mfa.confirm_eligible, hpurpose, heligible])]
  unfold confirm_totp_enrollment
  rw [hfound]
  simp only [hprofile, haccepted]
  cases hemail : row.target_email.isSome with
  | false => simp
  | true =>
    have hcompletes := @completes_iff env w times id row.user_id ⟨{ row with consumed_at := some times.later },
      admin_mfa.enrolledProfile row profile encrypted accepted times.later, some accepted⟩ codes hpolicy
      hlimit
    rw [← hcompletes, if_pos rfl]
    simp only [reduceCtorEq, ↓reduceIte]
    cases hdone : complete_enrollment env w id row.user_id ⟨{ row with consumed_at := some times.later },
      admin_mfa.enrolledProfile row profile encrypted accepted times.later, some accepted⟩ codes
      times with
    | error failure =>
      rw [complete_enrollment_fails hpolicy hlimit hdone]
      simp
    | ok done =>
      cases hsummary : get_user_summary done row.user_id with
      | error failure =>
        have hraised := get_user_summary_fails hsummary
        simp [hsummary, hraised]
      | ok => simp [hsummary]

/-- A started enrolment, while its challenge is eligible, and the code of its
seed for the current step: the row of the profile is refused exactly when the
challenge that authorised the start had no address, and else the call succeeds
as soon as the user may be in afterwards. -/
theorem started_enrolments_finish_iff {v : World} {ended : Moments}
    {actor flow_id verification_id : Option String} {drawn : Fresh} {started : TotpStarted}
    {row : Challenge} {codes : List String} (hreach : (machine env).Reachable w)
    (hstep : step env w ⟨.start_totp_enrollment actor flow_id verification_id drawn, times⟩ = some w')
    (hstarted : (start_totp_enrollment env { w with clock := times.later } actor flow_id verification_id
      drawn times).2 = .ok started)
    (hlater : (machine env).Later w' v) (hrow : v.challenges started.challengeId = some row)
    (heligible : row.eligible ended.now = true)
    (hlimit : within_limit v row.user_id ended.later = true) :
    let answer := (confirm_totp_enrollment env { v with clock := ended.later } started.challengeId
      (env.service._hotp started.manualKey (admin_mfa.stepOf ended.now)) codes ended).2
    let addressed := (authorising w actor flow_id verification_id times).any
      (fun source => source.target_email.isSome)
    (answer ≠ .error (.mfa (.check_violation "admin_mfa_profiles_active_material_check")) ↔
      addressed = true) ∧
    (answer = .ok () ↔ addressed = true ∧ usable_afterwards v row.user_id ended.later = true) := by
  obtain ⟨user_id, id, source, hsource, rfl, hworld⟩ := start_ok hstarted
  have hnext : w' = insert_enrollment env { w with clock := times.later } user_id id source drawn
      times.later := by
    unfold step at hstep
    split_ifs at hstep
    cases hstep
    exact hworld
  obtain ⟨inserted, profile, hinserted, hprofile, hpurpose, huser, hemail, hpending⟩ :=
    @insert_enrollment_rows env { w with clock := times.later } user_id id source drawn times.later
  rw [← hnext] at hinserted hprofile
  have hreach' : (machine env).Reachable w' := .next hreach trivial hstep
  have hkept := later_keeps hreach' hlater
  obtain ⟨row', hrow', hcloses⟩ := hkept.challenges _ _ hinserted
  obtain ⟨profile', hprofile', hid⟩ := hkept.profiles _ _ hprofile
  rw [hrow] at hrow'
  cases hrow'
  have hrow_user : row.user_id = user_id := hcloses.user_id.trans huser
  have hseed : env.service.decrypt_totp_seed profile'.id row.user_id
      (env.service.encrypt_totp_seed drawn.nonce profile.id user_id drawn.seed) = some drawn.seed := by
    rw [hid, hrow_user]
    exact env.service.decrypt_encrypt _ _ _ _
  have hpolicy : v.policy.isSome := policy_there (hreach'.later hlater)
  have hsource' : authorising w actor flow_id verification_id times = some source := hsource
  have hanswer := @confirm_answer env { v with clock := ended.later } ended drawn.challenge_id drawn.seed
    row profile' _ codes hrow (hcloses.purpose.trans hpurpose) heligible
    (by rw [hrow_user]; exact hprofile') (hcloses.pending_totp.trans hpending) hseed
    hpolicy hlimit
  rw [hcloses.target_email, hemail] at hanswer
  dsimp only
  rw [hsource', Option.any_some]
  exact hanswer

/-- The world after a request with its approvals was executed. -/
theorem executed_world {request_id id : String} {row : break_glass.RequestRow} {profile : Profile}
    (hrequest : w.requests request_id = some row)
    (hsigned : break_glass.approval_check env.crypto env.keyring row (w.approvals request_id) times.now =
      .ok ()) (haccount : w.accounts row.target_user_id ≠ none)
    (hprofile : w.profiles row.target_user_id = some profile) :
    perform env w times (.execute request_id id) =
      (open_reenroll w row.target_user_id id profile times.later).set_request request_id
        { row with status := .consumed } := by
  unfold perform execute
  dsimp only
  rw [hrequest]
  dsimp only
  rw [hsigned]
  dsimp only
  rw [if_neg haccount, hprofile]

/-! ### Two recoveries -/

/-- A code by mail opens the way to a new enrolment. -/
def recoveredByMail : World :=
  ((machine plainEnvironment).run adminAlone
    [⟨.request_recovery "admin@example.test" "r" 123456 true, at_once (seconds 60)⟩,
      ⟨.verify_recovery ⟨some "r", some "123456", none, none⟩ "reenroll", at_once (seconds 61)⟩]).get
    (by decide)

theorem admin_enrolled : (adminAlone.profiles "admin").isSome := by decide

/-- So does a request that two custodians signed. -/
def recoveredByCustodians : World :=
  (open_reenroll { adminAlone with clock := seconds 60 } "admin" "reenroll"
    ((adminAlone.profiles "admin").get admin_enrolled) (seconds 60)).set_request "bg_01"
      { break_glass.lostPhone with status := .consumed }

theorem custodians_signed : break_glass.approval_check plainEnvironment.crypto plainEnvironment.keyring
    break_glass.lostPhone (adminAlone.approvals "bg_01") (seconds 60) = .ok () := by
  refine (break_glass.approval_check_passes rfl (by decide)).2 ⟨?_, ?_⟩
  · exact ⟨break_glass.approvedBy "a" [1], by simp [adminAlone], break_glass.approvedBy "b" [2],
      by simp [adminAlone], by simp [break_glass.approvedBy, break_glass.signedRow],
      break_glass.a_endorses false, break_glass.b_endorses false⟩
  · intro approval happroval
    simp only [adminAlone, List.mem_cons, List.not_mem_nil, or_false] at happroval
    rcases happroval with rfl | rfl
    · exact break_glass.a_endorses false
    · exact break_glass.b_endorses false

theorem step_taken {a : Action} (hclock : w.clock ≤ a.times.called)
    (hid : a.call.new_id.all (fun id => decide (w.challenges id = none)) = true) :
    step env w a = some (perform env { w with clock := a.times.later } a.times a.call) :=
  if_pos ⟨hclock, hid⟩

theorem custodians_execute : step plainEnvironment adminAlone
    ⟨.execute "bg_01" "reenroll", at_once (seconds 60)⟩ = some recoveredByCustodians := by
  have haccount : ({ adminAlone with clock := seconds 60 } : World).accounts
      break_glass.lostPhone.target_user_id ≠ none := by decide
  have hprofile : ({ adminAlone with clock := seconds 60 } : World).profiles
      break_glass.lostPhone.target_user_id = some ((adminAlone.profiles "admin").get admin_enrolled) :=
    (Option.some_get admin_enrolled).symm
  have hworld := @executed_world plainEnvironment { adminAlone with clock := seconds 60 }
    (at_once (seconds 60)) "bg_01" "reenroll" break_glass.lostPhone _ rfl custodians_signed haccount
    hprofile
  exact (step_taken (Nat.zero_le _) rfl).trans (congrArg some hworld)

theorem recovered_by_custodians : (machine plainEnvironment).Reachable recoveredByCustodians := by
  have hstep : (machine plainEnvironment).step adminAlone
      ⟨.execute "bg_01" "reenroll", at_once (seconds 60)⟩ = some recoveredByCustodians :=
    custodians_execute
  exact .next (.start adminAlone_starts) trivial hstep

/-- The enrolment that both start, and its code of two minutes. -/
def drawnOnce : Fresh := ⟨"enroll", "profile", "nonce", "seed"⟩

def reenrols : Action :=
  ⟨.start_totp_enrollment none (some "reenroll") none drawnOnce, at_once (seconds 62)⟩

def startedFrom (w : World) : World × Except Failure TotpStarted :=
  start_totp_enrollment plainEnvironment { w with clock := seconds 62 } none (some "reenroll") none
    drawnOnce (at_once (seconds 62))

/-- The answer to the code of two minutes. -/
def answer_in (w : World) : Except Failure Unit :=
  (confirm_totp_enrollment plainEnvironment { w with clock := seconds 120 } "enroll"
    (plainEnvironment.service._hotp "seed" (admin_mfa.stepOf (seconds 120))) []
    (at_once (seconds 120))).2

theorem mail_started : ((startedFrom recoveredByMail).1.challenges "enroll").isSome := by
  decide

theorem mail_recovery_finishes : answer_in (startedFrom recoveredByMail).1 = .ok () := by
  have hreach : (machine plainEnvironment).Reachable recoveredByMail :=
    Machine.reachable_of_run adminAlone_starts (Option.some_get _).symm
  have hstep : step plainEnvironment recoveredByMail reenrols = some (startedFrom recoveredByMail).1 :=
    if_pos (by decide +kernel)
  have hstarted : (startedFrom recoveredByMail).2 = .ok ⟨"enroll", "seed"⟩ := by decide +kernel
  have heligible : (((startedFrom recoveredByMail).1.challenges "enroll").get mail_started).eligible
      (at_once (seconds 120)).now = true := by
    decide +kernel
  exact (started_enrolments_finish_iff hreach hstep hstarted (.refl _)
    (Option.some_get mail_started).symm heligible (by decide +kernel)).2.2
      ⟨by decide +kernel, by decide +kernel⟩

theorem custodians_started : ((startedFrom recoveredByCustodians).1.challenges "enroll").isSome := by
  decide

/-- The challenge of a break-glass request has no address, and the enrolment that
it authorises cannot be confirmed. -/
theorem custodians_cannot_finish : (machine plainEnvironment).Reachable recoveredByCustodians ∧
    (startedFrom recoveredByCustodians).2 = .ok ⟨"enroll", "seed"⟩ ∧
    (∃ row, (startedFrom recoveredByCustodians).1.challenges "enroll" = some row ∧
      row.eligible (seconds 120) = true ∧
      within_limit (startedFrom recoveredByCustodians).1 row.user_id (seconds 120) = true) ∧
    answer_in (startedFrom recoveredByCustodians).1 =
      .error (.mfa (.check_violation "admin_mfa_profiles_active_material_check")) :=
  ⟨recovered_by_custodians, by decide +kernel,
    ⟨_, (Option.some_get custodians_started).symm, by decide +kernel, by decide +kernel⟩,
    by decide +kernel⟩

end moaworks.auth_service
