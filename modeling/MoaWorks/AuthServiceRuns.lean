-- What one call can do to the challenges, the profiles and the log: it
-- closes and touches rows, and issues one challenge or confirms an enrolment.
import MoaWorks.AdminMfaCalls
import MoaWorks.AuthServiceOperations
import MoaWorks.BreakGlassLaws

namespace moaworks.auth_service

open admin_mfa (Challenge EncryptedMfaSecret AdminMfaService Profile Purpose freshChallenge newProfile)

variable {id user_id email : String} {authority : Option Nat}

/-! ## Rows that are closed, and profiles that are touched -/

/-- What an UPDATE may do to a challenge: it is never opened again. -/
structure Closes (row row' : Challenge) : Prop where
  purpose : row'.purpose = row.purpose
  user_id : row'.user_id = row.user_id
  target_email : row'.target_email = row.target_email
  pending_totp : row'.pending_totp = row.pending_totp
  created_at : row'.created_at = row.created_at
  unused : unused row' = true → unused row = true

theorem unused_iff {row : Challenge} :
    unused row = true ↔ row.consumed_at = none ∧ row.cancelled_at = none := by
  simp [unused]

namespace Closes

variable {row row' row'' : Challenge} {now later : Time}

theorem refl (row : Challenge) : Closes row row := ⟨rfl, rfl, rfl, rfl, rfl, id⟩

theorem trans (h : Closes row row') (h' : Closes row' row'') : Closes row row'' where
  purpose := h'.purpose.trans h.purpose
  user_id := h'.user_id.trans h.user_id
  target_email := h'.target_email.trans h.target_email
  pending_totp := h'.pending_totp.trans h.pending_totp
  created_at := h'.created_at.trans h.created_at
  unused := fun hu => h.unused (h'.unused hu)

theorem consumed : Closes row { row with consumed_at := some later } := by
  refine ⟨rfl, rfl, rfl, rfl, rfl, fun h => ?_⟩
  cases (unused_iff.1 h).1

theorem cancelled : Closes row { row with cancelled_at := some later } := by
  refine ⟨rfl, rfl, rfl, rfl, rfl, fun h => ?_⟩
  cases (unused_iff.1 h).2

/-- A wrong code either counts or cancels. -/
theorem missed : Closes row (row.miss later) := by
  refine ⟨rfl, rfl, rfl, rfl, rfl, fun h => ?_⟩
  obtain ⟨hconsumed, hcancelled⟩ := unused_iff.1 h
  unfold Challenge.miss at hcancelled
  dsimp only at hcancelled
  split_ifs at hcancelled
  · exact unused_iff.2 ⟨hconsumed, hcancelled⟩

end Closes

/-- What a profile is before and after a call that enrols nobody. -/
inductive Touched : Option Profile → Option Profile → Prop
  | none : Touched none none
  | first {profile : Profile} : profile.status = .pending → profile.activated_at = Option.none →
      Touched Option.none (some profile)
  | some {profile profile' : Profile} : profile'.id = profile.id → profile'.status = profile.status →
      profile'.totp = profile.totp → profile'.activated_at = profile.activated_at →
      Touched (some profile) (some profile')

theorem Touched.refl (profile : Option Profile) : Touched profile profile := by
  cases profile with
  | none => exact .none
  | some profile => exact .some rfl rfl rfl rfl

theorem Touched.trans {p p' p'' : Option Profile} (h : Touched p p') (h' : Touched p' p'') :
    Touched p p'' := by
  cases h with
  | none => exact h'
  | first hstatus hactivated =>
    cases h' with
    | some _ hstatus' _ hactivated' =>
      exact .first (hstatus'.trans hstatus) (hactivated'.trans hactivated)
  | some hid hstatus htotp hactivated =>
    cases h' with
    | some hid' hstatus' htotp' hactivated' =>
      exact .some (hid'.trans hid) (hstatus'.trans hstatus) (htotp'.trans htotp)
        (hactivated'.trans hactivated)

/-! ## Calls that open nothing -/

/-- The event confirms an enrolment of the user. -/
def Event.confirms (user_id : String) : Event → Bool
  | .proved _ _ => false
  | .confirmed confirmed_id _ _ => decide (confirmed_id = user_id)

/-- Rows were closed and touched, and proofs were given. -/
structure Quiet (w w' : World) : Prop where
  clock : w'.clock = w.clock
  users : w'.directory.users = w.directory.users
  policy : w'.policy = w.policy
  authority : w'.authority = w.authority
  challenges : ∀ id, Option.Rel Closes (w.challenges id) (w'.challenges id)
  profiles : ∀ user_id, Touched (w.profiles user_id) (w'.profiles user_id)
  log : ∃ proofs, w'.log = w.log ++ proofs ∧
    ∀ event ∈ proofs, ∀ user_id, event.confirms user_id = false

theorem closes_self (row : Option Challenge) : Option.Rel Closes row row := by
  cases row with
  | none => exact .none
  | some row => exact .some (Closes.refl row)

namespace Quiet

variable {w w' w'' : World}

theorem refl (w : World) : Quiet w w where
  clock := rfl
  users := rfl
  policy := rfl
  authority := rfl
  challenges := fun _ => closes_self _
  profiles := fun _ => Touched.refl _
  log := ⟨[], by simp⟩

theorem trans (h : Quiet w w') (h' : Quiet w' w'') : Quiet w w'' where
  clock := h'.clock.trans h.clock
  users := h'.users.trans h.users
  policy := h'.policy.trans h.policy
  authority := h'.authority.trans h.authority
  challenges := by
    intro id
    have h1 := h.challenges id
    have h2 := h'.challenges id
    revert h1 h2
    generalize w.challenges id = r, w'.challenges id = r', w''.challenges id = r''
    rintro (hclose | _) h2
    · cases h2 with
      | some hclose' => exact .some (hclose.trans hclose')
    · exact h2
  profiles := fun user_id => (h.profiles user_id).trans (h'.profiles user_id)
  log := by
    obtain ⟨proofs, hlog, hproofs⟩ := h.log
    obtain ⟨proofs', hlog', hproofs'⟩ := h'.log
    refine ⟨proofs ++ proofs', by rw [hlog', hlog, List.append_assoc], ?_⟩
    intro event hevent
    rcases List.mem_append.1 hevent with hevent | hevent
    · exact hproofs event hevent
    · exact hproofs' event hevent

theorem set_challenge {id : String} {row row' : Challenge} (hrow : w.challenges id = some row)
    (hcloses : Closes row row') : Quiet w (w.set_challenge id row') := by
  refine { refl w with challenges := ?_ }
  intro k
  change Option.Rel Closes (w.challenges k) (if k = id then some row' else w.challenges k)
  split_ifs with hk
  · rw [hk, hrow]
    exact .some hcloses
  · exact closes_self _

theorem cancel (p : Challenge → Bool) (later : Time) : Quiet w (w.cancel p later) := by
  refine { refl w with challenges := ?_ }
  intro k
  change Option.Rel Closes (w.challenges k) ((w.challenges k).map _)
  cases w.challenges k with
  | none => exact .none
  | some row =>
    refine .some ?_
    dsimp only
    split_ifs
    · exact Closes.cancelled
    · exact Closes.refl row

theorem set_profile {user_id : String} {profile : Profile}
    (h : Touched (w.profiles user_id) (some profile)) : Quiet w (w.set_profile user_id profile) := by
  refine { refl w with profiles := ?_ }
  intro k
  change Touched (w.profiles k) (if k = user_id then some profile else w.profiles k)
  split_ifs with hk
  · rw [hk]
    exact h
  · exact Touched.refl _

theorem set_account (user_id : String) (f : Account → Account) : Quiet w (w.set_account user_id f) :=
  { refl w with }

theorem set_recovery_codes (user_id : String) (codes : List RecoveryCode) :
    Quiet w (w.set_recovery_codes user_id codes) :=
  { refl w with }

theorem set_request (id : String) (row : break_glass.RequestRow) : Quiet w (w.set_request id row) :=
  { refl w with }

theorem proved (user_id : String) (proof : Proof) : Quiet w (w.record (.proved user_id proof)) := by
  refine { refl w with log := ⟨[.proved user_id proof], rfl, ?_⟩ }
  intro event hevent k
  rw [List.mem_singleton.1 hevent]
  rfl

end Quiet

/-! ## What a call does -/

/-- The profile was last activated before the challenge was issued. -/
def newer (w : World) (row : Challenge) : Bool :=
  (w.profiles row.user_id).all (fun profile =>
    profile.activated_at.all (fun activated_at => decide (activated_at < row.created_at)))

/-- The authority is the place of the last event, a proof of the user. -/
def JustProved (log : List Event) (user_id : String) (authority : Option Nat) : Prop :=
  ∃ past proof, log = past ++ [.proved user_id proof] ∧ authority = some past.length

/-- Why a new challenge is issued, after `w` has become `w'`. `fresh` says that a
verified address is newer than the authenticator that it may replace. -/
def Justified (fresh : Prop) (w w' : World) (row : Challenge) (authority : Option Nat) : Prop :=
  match row.purpose with
  | .mfa_reenroll => JustProved w'.log row.user_id authority
  | .email_verify => w.active row.user_id = false ∨ JustProved w'.log row.user_id authority ∨
      ∃ id flow, w.challenges id = some flow ∧ unused flow = true ∧ flow.user_id = row.user_id ∧
        (flow.purpose = .admin_enrollment ∨ flow.purpose = .mfa_reenroll) ∧ authority = w.authority id
  | .enroll => (∀ id row', w'.challenges id = some row' → row'.user_id = row.user_id →
        row'.purpose = .enroll → unused row' = false) ∧
      ∃ id source, w.challenges id = some source ∧ source.user_id = row.user_id ∧
        authority = w.authority id ∧ ((source.purpose = .mfa_reenroll ∧ unused source = true) ∨
          (source.purpose = .email_verify ∧
            (fresh → w.active source.user_id = true → newer w source = true)))
  | .admin_enrollment => w.active row.user_id = false
  | .login | .recovery => True

/-- An enrolment was confirmed. -/
structure Confirmed (w w' : World) (id : String) (row : Challenge) : Prop where
  found : w.challenges id = some row
  purpose : row.purpose = .enroll
  unused : unused row = true
  clock : w'.clock = w.clock
  policy : w'.policy = w.policy
  authority : w'.authority = w.authority
  challenges : ∀ k, Option.Rel Closes (w.challenges k) (w'.challenges k)
  used : ∀ row', w'.challenges id = some row' → auth_service.unused row' = false
  entered : ∀ k row', w'.challenges k = some row' → entering row.user_id row' = true →
    auth_service.unused row' = false
  others : ∀ user_id, user_id ≠ row.user_id → w'.profiles user_id = w.profiles user_id ∧
    w'.directory.users.rows user_id = w.directory.users.rows user_id
  profile : ∃ profile profile', w.profiles row.user_id = some profile ∧
    w'.profiles row.user_id = some profile' ∧ profile'.id = profile.id ∧
    profile'.activated_at = some w.clock
  log : w'.log = w.log ++ [.confirmed row.user_id (w.active row.user_id) (w.authority id)]

/-- What one call does. -/
inductive Effect (fresh : Prop) (w w' : World) : Prop
  | quiet : Quiet w w' → Effect fresh w w'
  | issued (before : World) (id : String) (row : Challenge) (authority : Option Nat) :
      Quiet w before → w.challenges id = none → row.created_at = w.clock →
      Justified fresh w before row authority → w' = before.issue id row authority → Effect fresh w w'
  | confirmed (id : String) (row : Challenge) : Confirmed w w' id row → Effect fresh w w'

variable {env : Environment} {w w' : World} {times : Moments} {fresh : Prop}

/-! ## Each call -/

theorem Effect.none_done : Effect fresh w w := .quiet (Quiet.refl w)

theorem rows_of_closes {row' : Challenge}
    (h : Option.Rel Closes (w.challenges id) (w'.challenges id))
    (hrow : w'.challenges id = some row') :
    ∃ row, w.challenges id = some row ∧ Closes row row' := by
  rw [hrow] at h
  revert h
  generalize w.challenges id = found
  rintro (hcloses | _)
  exact ⟨_, rfl, hcloses⟩

theorem rows_of_quiet {row' : Challenge} (h : Quiet w w') (hrow : w'.challenges id = some row') :
    ∃ row, w.challenges id = some row ∧ Closes row row' :=
  rows_of_closes (h.challenges id) hrow

theorem access_row_status {user : admin_active_limit.User} {account : Account} {row : AccessRow}
    (h : w.access_row user account = some row) : row.user_status = user.status := by
  unfold World.access_row at h
  split at h
  · cases h
    rfl
  · cases h

theorem fetched_status {row : AccessRow} (h : _fetch_user_access_row w user_id = some row) :
    ∃ user, w.directory.users.rows user_id = some user ∧ row.user_status = user.status := by
  unfold _fetch_user_access_row at h
  split at h
  · rename_i user account huser haccount
    exact ⟨user, huser, access_row_status h⟩
  · cases h

theorem authenticate_row {password : String} {row : AccessRow}
    (h : authenticate env w email password = .ok (user_id, row)) :
    _fetch_user_access_row w user_id = some row := by
  unfold authenticate at h
  split at h
  · cases h
  · split at h
    · cases h
    · rename_i found hfound
      split_ifs at h
      cases haccess : _assert_user_accessible found with
      | error failure =>
        rw [haccess] at h
        cases h
      | ok =>
        rw [haccess] at h
        cases h
        exact hfound

theorem pending_admin_row {password : String} {row : AccessRow}
    (h : _authenticate_pending_admin env w email password = .ok (user_id, row)) :
    _fetch_user_access_row w user_id = some row := by
  unfold _authenticate_pending_admin at h
  split at h
  · cases h
  · rename_i found_id found hfound
    split_ifs at h
    cases h
    obtain ⟨k, _, hk⟩ := Option.bind_eq_some_iff.1 hfound
    obtain ⟨found', hfound', he⟩ := Option.map_eq_some_iff.1 hk
    cases he
    exact hfound'

theorem loginUser_row {password : String} {row : AccessRow}
    (h : loginUser env w email password = .ok (user_id, row)) :
    _fetch_user_access_row w user_id = some row := by
  unfold loginUser at h
  dsimp only at h
  split_ifs at h
  · split at h
    · rename_i found hfound
      cases h
      exact authenticate_row hfound
    · split at h
      · rename_i found hfound
        cases h
        exact pending_admin_row hfound
      · cases h
      · cases h
    · cases h
    · cases h

theorem login_effect (email password id : String) (hclock : w.clock = times.later)
    (hid : w.challenges id = none) : Effect fresh w (login env w email password id times).1 := by
  unfold login
  split
  · exact Effect.none_done
  · rename_i user_id row huser
    split_ifs with hadmin
    · obtain ⟨user, hrow, hstatus⟩ := fetched_status (loginUser_row huser)
      dsimp only [_issue_admin_login_or_enrollment_challenge]
      refine .issued w id _ none (Quiet.refl w) hid hclock.symm ?_ rfl
      have hactive : w.active user_id =
          ((w.profiles user_id).any (fun profile => decide (profile.status = .active)) &&
            decide (row.user_status = "active")) := by
        unfold World.active
        rw [hrow, hstatus, Option.any_some]
      rw [← hactive]
      by_cases hlogin : w.active user_id = true
      · rw [if_pos hlogin]
        trivial
      · rw [if_neg hlogin]
        exact (Bool.not_eq_true _).mp hlogin
    · exact Effect.none_done

/-! ## Codes by mail -/

/-- A resolved flow is open, and it is one of the two that need no session. -/
theorem resolved {actor : Option String} {now : Time}
    (h : _resolve_mfa_flow_user w actor (some id) now = .ok user_id) :
    ∃ flow, w.challenges id = some flow ∧ unused flow = true ∧ flow.user_id = user_id ∧
      (flow.purpose = .admin_enrollment ∨ flow.purpose = .mfa_reenroll) := by
  unfold _resolve_mfa_flow_user at h
  dsimp only at h
  split at h
  · cases h
  · rename_i flow hflow
    split_ifs at h with hopen
    cases h
    obtain ⟨hpurpose, hunused, _⟩ := hopen
    unfold Challenge.isOpen at hunused
    rw [Bool.and_eq_true] at hunused
    exact ⟨flow, hflow, hunused.1, rfl, hpurpose⟩

theorem issue_email_otp_ok {purpose : Purpose} {otp : Nat} {issued : World}
    (h : issue_email_otp env w id user_id purpose email otp authority times = .ok issued) :
    ∃ row, issued = w.issue id row authority ∧ row.purpose = purpose ∧ row.user_id = user_id ∧
      row.created_at = times.later := by
  unfold issue_email_otp at h
  dsimp only at h
  split_ifs at h
  split at h
  · cases h
  · cases h
    exact ⟨_, rfl, rfl, rfl, rfl⟩

/-- A mail that was not sent: the challenge is cancelled at once. -/
theorem cancel_issued (w : World) (id : String) (row : Challenge) (authority : Option Nat)
    (later : Time) : ∃ row', _cancel_challenge (w.issue id row authority) id later =
      w.issue id row' authority ∧ Closes row row' := by
  have hself : (w.issue id row authority).challenges id = some row := if_pos rfl
  unfold _cancel_challenge
  rw [hself]
  dsimp only
  split_ifs
  · refine ⟨{ row with cancelled_at := some later }, ?_, Closes.cancelled⟩
    unfold World.set_challenge World.issue
    congr 1
    funext k
    dsimp only
    split_ifs
    · rfl
    · rfl
  · exact ⟨row, rfl, Closes.refl row⟩

theorem Justified.closed {before : World} {row row' : Challenge}
    (h : Justified fresh w before row authority) (hcloses : Closes row row') :
    Justified fresh w before row' authority := by
  unfold Justified at h ⊢
  rw [hcloses.purpose, hcloses.user_id]
  exact h

/-- A code by mail was issued, and its mail was sent or not. -/
theorem mailed_effect {before issued : World} {purpose : Purpose} {otp : Nat} (delivered : Bool)
    (hquiet : Quiet w before) (hclock : w.clock = times.later) (hid : w.challenges id = none)
    (hissued : issue_email_otp env before id user_id purpose email otp authority times = .ok issued)
    (hwhy : ∀ row : Challenge, row.purpose = purpose → row.user_id = user_id →
      Justified fresh w before row authority) :
    Effect fresh w (if delivered then issued else _cancel_challenge issued id times.later) := by
  obtain ⟨row, rfl, hpurpose, huser, hcreated⟩ := issue_email_otp_ok hissued
  have hjust := hwhy row hpurpose huser
  split_ifs
  · exact .issued before id row authority hquiet hid (hcreated.trans hclock.symm) hjust rfl
  · obtain ⟨row', heq, hcloses⟩ := cancel_issued before id row authority times.later
    rw [heq]
    exact .issued before id row' authority hquiet hid
      (hcloses.created_at.trans (hcreated.trans hclock.symm)) (hjust.closed hcloses) rfl

theorem step_up_ok {payload : RecoveryEmailRequest} {now : Time} {before : World}
    (h : step_up env w user_id payload now = .ok (before, authority)) :
    Quiet w before ∧
      (w.active user_id = false ∨ JustProved before.log user_id authority) := by
  unfold step_up at h
  split at h
  · split_ifs at h
    split at h
    · rename_i hprofile
      cases h
      exact ⟨Quiet.refl w, Or.inl (by simp [World.active, hprofile])⟩
    · rename_i profile hprofile
      split_ifs at h with hactive
      · split at h
        · cases h
        · split at h
          · cases h
          · cases h
          · rename_i step _
            cases h
            refine ⟨(Quiet.set_profile ?_).trans (Quiet.proved user_id .step_up), Or.inr ?_⟩
            · rw [hprofile]
              exact .some rfl rfl rfl rfl
            · exact ⟨w.log, .step_up, rfl, rfl⟩
      · cases h
        exact ⟨Quiet.refl w, Or.inl (by simp [World.active, hprofile, hactive])⟩
  · cases h

theorem request_recovery_email_effect (actor : Option String) (payload : RecoveryEmailRequest)
    (id : String) (otp : Nat) (delivered : Bool) (hclock : w.clock = times.later)
    (hid : w.challenges id = none) :
    Effect fresh w (request_recovery_email env w actor payload id otp delivered times).1 := by
  unfold request_recovery_email
  split
  · exact Effect.none_done
  · rename_i user_id huser
    split
    · exact Effect.none_done
    · rename_i before authority hbefore
      have hquiet : Quiet w before ∧ (w.active user_id = false ∨
          JustProved before.log user_id authority ∨ ∃ flow_id flow, w.challenges flow_id = some flow ∧
            unused flow = true ∧ flow.user_id = user_id ∧
            (flow.purpose = .admin_enrollment ∨ flow.purpose = .mfa_reenroll) ∧
            authority = w.authority flow_id) := by
        split at hbefore
        · obtain ⟨hquiet, hwhy⟩ := step_up_ok hbefore
          exact ⟨hquiet, hwhy.imp_right Or.inl⟩
        · rename_i flow_id hflow_id
          cases hbefore
          rw [hflow_id] at huser
          obtain ⟨flow, hflow, hunused, hflow_user, hpurpose⟩ := resolved huser
          exact ⟨Quiet.refl w, Or.inr (Or.inr ⟨flow_id, flow, hflow, hunused, hflow_user, hpurpose, rfl⟩)⟩
      split
      · exact .quiet hquiet.1
      · rename_i issued hissued
        have hwhy : ∀ row : Challenge, row.purpose = .email_verify → row.user_id = user_id →
            Justified fresh w before row authority := by
          intro row hpurpose hrow
          unfold Justified
          rw [hpurpose, hrow]
          exact hquiet.2
        have heffect := mailed_effect delivered hquiet.1 hclock hid hissued hwhy
        split_ifs at heffect ⊢
        · exact heffect
        · exact heffect

theorem request_recovery_effect (email id : String) (otp : Nat) (delivered : Bool)
    (hclock : w.clock = times.later) (hid : w.challenges id = none) :
    Effect fresh w (request_recovery env w email id otp delivered times).1 := by
  unfold request_recovery
  split
  · exact Effect.none_done
  · rename_i user_id _ _
    split
    · exact Effect.none_done
    · split
      · exact Effect.none_done
      · rename_i issued hissued
        have hwhy : ∀ row : Challenge, row.purpose = .recovery → row.user_id = user_id →
            Justified fresh w w row none := by
          intro row hpurpose _
          unfold Justified
          rw [hpurpose]
          trivial
        have heffect := mailed_effect delivered (Quiet.refl w) hclock hid hissued hwhy
        split_ifs at heffect ⊢
        · exact heffect
        · exact heffect

theorem consume_email_otp_closes (service : AdminMfaService) (id : String) (row : Challenge)
    (user_id : String) (purpose : Purpose) (email code : String) (now later : Time) :
    Closes row (admin_mfa.consume_email_otp service id row user_id purpose email code now later).1 := by
  obtain ⟨_, h⟩ | ⟨_, h⟩ | ⟨_, h⟩ :=
    @admin_mfa.consume_email_otp_cases service id row user_id purpose email code now later
  · rw [h]
    exact Closes.consumed
  · rw [h]
    exact Closes.missed
  · rw [h]
    exact Closes.refl row

theorem consume_email_otp_quiet (id user_id : String) (purpose : Purpose) (email code : String) :
    Quiet w (consume_email_otp env w id user_id purpose email code times).1 := by
  unfold consume_email_otp
  split
  · exact Quiet.refl w
  · rename_i row hrow
    exact Quiet.set_challenge hrow (consume_email_otp_closes _ _ _ _ _ _ _ _ _)

theorem verify_recovery_email_effect (actor : Option String) (payload : RecoveryEmailVerifyRequest) :
    Effect fresh w (verify_recovery_email env w actor payload times).1 := by
  unfold verify_recovery_email
  split
  · exact Effect.none_done
  · rename_i user_id _
    dsimp only
    have hquiet : Quiet w (consume_email_otp env w payload.verificationChallengeId user_id .email_verify
        payload.recoveryEmail payload.code times).1 := consume_email_otp_quiet _ _ _ _ _
    split_ifs
    · exact .quiet hquiet
    · split
      · exact .quiet hquiet
      · rename_i profile hprofile
        obtain ⟨hprofile, _⟩ := Option.filter_eq_some_iff.1 hprofile
        refine .quiet ((hquiet.trans (Quiet.set_profile ?_)).trans (Quiet.set_account _ _))
        rw [hprofile]
        exact .some rfl rfl rfl rfl
    · exact .quiet hquiet

/-! ## The start of an enrolment -/

theorem named_verification_ok {verification_id : Option String} {row : Challenge}
    (h : named_verification w user_id verification_id = some (id, row)) :
    w.challenges id = some row ∧ row.purpose = .email_verify ∧ row.user_id = user_id := by
  obtain ⟨k, _, hk⟩ := Option.bind_eq_some_iff.1 h
  obtain ⟨row', hrow', he⟩ := Option.map_eq_some_iff.1 hk
  cases he
  obtain ⟨hfound, htest⟩ := Option.filter_eq_some_iff.1 hrow'
  rw [Bool.and_eq_true, decide_eq_true_eq, decide_eq_true_eq] at htest
  exact ⟨hfound, htest⟩

theorem named_reenroll_ok {flow_id : Option String} {row : Challenge}
    (h : named_reenroll w user_id flow_id = some (id, row)) :
    flow_id = some id ∧ w.challenges id = some row ∧ row.purpose = .mfa_reenroll ∧
      row.user_id = user_id := by
  obtain ⟨k, hflow, hk⟩ := Option.bind_eq_some_iff.1 h
  obtain ⟨row', hrow', he⟩ := Option.map_eq_some_iff.1 hk
  cases he
  obtain ⟨hfound, htest⟩ := Option.filter_eq_some_iff.1 hrow'
  rw [Bool.and_eq_true, decide_eq_true_eq, decide_eq_true_eq] at htest
  exact ⟨hflow, hfound, htest⟩

theorem consume_reenroll_quiet {row : Challenge} (later : Time) (hrow : w.challenges id = some row) :
    Quiet w (consume_reenroll w id row later) := by
  unfold consume_reenroll
  split_ifs
  · exact Quiet.set_challenge hrow Closes.consumed
  · exact Quiet.refl w

theorem own_profile_touched (w : World) (user_id profile_id : String) :
    Touched (w.profiles user_id) (some (own_profile w user_id profile_id)) := by
  unfold own_profile
  cases w.profiles user_id with
  | none => exact .first rfl rfl
  | some profile => exact .some rfl rfl rfl rfl

/-- After the UPDATE none of the selected challenges is unused. -/
theorem cancelled_row {p : Challenge → Bool} {later : Time} {row : Challenge}
    (hrow : (w.cancel p later).challenges id = some row) (hselected : p row = true) :
    unused row = false := by
  obtain ⟨row', _, heq⟩ := Option.map_eq_some_iff.1 hrow
  split_ifs at heq with h
  · rw [← heq]
    simp [unused]
  · rw [heq] at h
    rw [hselected, Bool.true_and] at h
    exact (Bool.not_eq_true _).mp h

/-- A verified address that a start uses is newer than the authenticator of an
active profile of an active user. -/
def new_verification (w : World) (actor flow_id verification_id : Option String) (times : Moments) :
    Bool :=
  match _resolve_mfa_flow_user w actor flow_id times.called with
  | .error _ => true
  | .ok user_id =>
    (named_verification w user_id verification_id).all (fun (_, row) =>
      !accepts_verified row verification_id times.now || !w.active user_id || newer w row)

theorem start_effect (actor flow_id verification_id : Option String) (drawn : Fresh)
    (hclock : w.clock = times.later) (hid : w.challenges drawn.challenge_id = none) :
    Effect (new_verification w actor flow_id verification_id times = true) w
      (start_totp_enrollment env w actor flow_id verification_id drawn times).1 := by
  unfold start_totp_enrollment
  split
  · exact Effect.none_done
  · rename_i user_id huser
    split
    · exact Effect.none_done
    · rename_i id row hverified
      split_ifs with haccepts
      · exact Effect.none_done
      · rw [Bool.not_eq_false] at haccepts
        have hsource : w.challenges id = some row ∧ row.user_id = user_id ∧
            ((row.purpose = .mfa_reenroll ∧ unused row = true) ∨ (row.purpose = .email_verify ∧
              (new_verification w actor flow_id verification_id times = true →
                w.active row.user_id = true → newer w row = true))) := by
          unfold verified at hverified
          rcases Option.or_eq_some_iff.1 hverified with hnamed | ⟨_, hnamed⟩
          · obtain ⟨hfound, hpurpose, hrow⟩ := named_verification_ok hnamed
            refine ⟨hfound, hrow, Or.inr ⟨hpurpose, fun hnew hactive => ?_⟩⟩
            unfold new_verification at hnew
            rw [huser] at hnew
            simp only [hnamed, Option.all_some, haccepts, Bool.not_true, Bool.false_or] at hnew
            rw [hrow] at hactive
            simpa [hactive] using hnew
          · obtain ⟨hflow_id, hfound, hpurpose, hrow⟩ := named_reenroll_ok hnamed
            rw [hflow_id] at huser
            obtain ⟨flow, hflow, hunused, _⟩ := resolved huser
            rw [hfound] at hflow
            cases hflow
            exact ⟨hfound, hrow, Or.inl ⟨hpurpose, hunused⟩⟩
        obtain ⟨hfound, hrow, hwhy⟩ := hsource
        have hconsumed := consume_reenroll_quiet times.later hfound
        have hprofile : Quiet w ((consume_reenroll w id row times.later).set_profile user_id
            (own_profile w user_id drawn.profile_id)) := by
          refine hconsumed.trans (Quiet.set_profile ?_)
          have hsame : (consume_reenroll w id row times.later).profiles = w.profiles := by
            unfold consume_reenroll
            split_ifs <;> rfl
          rw [hsame]
          exact own_profile_touched w user_id drawn.profile_id
        refine .issued _ drawn.challenge_id _ (w.authority id)
          (hprofile.trans (Quiet.cancel (enrolling user_id) times.later)) hid hclock.symm ?_ rfl
        constructor
        · intro k row' hrow' huser' hpurpose'
          refine cancelled_row hrow' ?_
          have huser'' : row'.user_id = user_id := huser'
          simp [enrolling, huser'', hpurpose']
        · exact ⟨id, row, hfound, hrow, rfl, hwhy⟩

/-! ## The end of an enrolment -/

/-- The UPDATE of the user touches his own row alone, and neither challenges nor profiles. -/
theorem update_user_ok {later : Time} (h : update_user w user_id later = .ok w') :
    w'.clock = w.clock ∧ w'.policy = w.policy ∧ w'.authority = w.authority ∧
      w'.challenges = w.challenges ∧ w'.profiles = w.profiles ∧ w'.log = w.log ∧
      ∀ other, other ≠ user_id → w'.directory.users.rows other = w.directory.users.rows other := by
  unfold update_user at h
  split at h
  · cases h
    exact ⟨rfl, rfl, rfl, rfl, rfl, rfl, fun _ _ => rfl⟩
  · split_ifs at h
    split at h
    · cases h
    · cases h
      refine ⟨rfl, rfl, rfl, rfl, rfl, rfl, fun other hother => ?_⟩
      simp [World.appoint, hother]

theorem complete_enrollment_ok {outcome : admin_mfa.Outcome} {codes : List String}
    (h : complete_enrollment env w id user_id outcome codes times = .ok w') :
    w'.clock = w.clock ∧ w'.policy = w.policy ∧ w'.authority = w.authority ∧
      w'.challenges = ((w.set_challenge id outcome.challenge).cancel (entering user_id)
        times.later).challenges ∧
      w'.profiles = (w.set_profile user_id outcome.profile).profiles ∧
      w'.log = w.log ++ [.confirmed user_id (w.active user_id) (w.authority id)] ∧
      ∀ other, other ≠ user_id → w'.directory.users.rows other = w.directory.users.rows other := by
  unfold complete_enrollment at h
  cases hrows : recovery_rows env outcome.profile.id user_id codes with
  | error failure =>
    rw [hrows] at h
    cases h
  | ok rows =>
    rw [hrows] at h
    cases hupdated : update_user ((w.set_profile user_id outcome.profile).set_recovery_codes user_id rows)
        user_id times.later with
    | error failure =>
      simp only [bind, Except.bind, hupdated] at h
      cases h
    | ok updated =>
      obtain ⟨hclock, hpolicy, hauthority, hchallenges, hprofiles, hlog, hothers⟩ :=
        update_user_ok hupdated
      simp only [bind, Except.bind, hupdated] at h
      split at h
      · cases h
      · cases h
        refine ⟨hclock, hpolicy, hauthority, ?_, hprofiles, ?_, hothers⟩
        · simp only [World.record, World.cancel, World.set_challenge, hchallenges]
          rfl
        · simp only [World.record, World.cancel, World.set_challenge, hlog]
          rfl

theorem complete_enrollment_confirms {row : Challenge} {profile : Profile}
    {outcome : admin_mfa.Outcome} {codes : List String} (hfound : w.challenges id = some row)
    (hpurpose : row.purpose = .enroll) (hunused : unused row = true)
    (hprofile : w.profiles row.user_id = some profile)
    (hchallenge : outcome.challenge = { row with consumed_at := some times.later })
    (hid : outcome.profile.id = profile.id)
    (hactivated : outcome.profile.activated_at = some w.clock)
    (h : complete_enrollment env w id row.user_id outcome codes times = .ok w') :
    Confirmed w w' id row := by
  obtain ⟨hclock, hpolicy, hauthority, hchallenges, hprofiles, hlog, hothers⟩ :=
    complete_enrollment_ok h
  rw [hchallenge] at hchallenges
  have hquiet : Quiet w ((w.set_challenge id { row with consumed_at := some times.later }).cancel
      (entering row.user_id) times.later) :=
    (Quiet.set_challenge hfound Closes.consumed).trans (Quiet.cancel _ _)
  refine {
    found := hfound
    purpose := hpurpose
    unused := hunused
    clock := hclock
    policy := hpolicy
    authority := hauthority
    challenges := fun k => hchallenges ▸ hquiet.challenges k
    used := fun row' hrow' => ?_
    entered := fun k row' hrow' hentering => cancelled_row (hchallenges ▸ hrow') hentering
    others := fun user_id hne => ⟨hprofiles ▸ if_neg hne, hothers user_id hne⟩
    profile := ⟨profile, outcome.profile, hprofile, hprofiles ▸ if_pos rfl, hid, hactivated⟩
    log := hlog }
  obtain ⟨before, hbefore, hcloses⟩ := rows_of_quiet (Quiet.cancel _ _) (hchallenges ▸ hrow')
  have hself : (w.set_challenge id { row with consumed_at := some times.later }).challenges id =
      some { row with consumed_at := some times.later } := if_pos rfl
  rw [hself] at hbefore
  cases hbefore
  cases hused : auth_service.unused row' with
  | false => rfl
  | true =>
    have hstill := hcloses.unused hused
    simp [auth_service.unused] at hstill

theorem confirm_effect (id code : String) (codes : List String) (hclock : w.clock = times.later) :
    Effect fresh w (confirm_totp_enrollment env w id code codes times).1 := by
  unfold confirm_totp_enrollment
  split
  · exact Effect.none_done
  · rename_i row hrow
    obtain ⟨hfound, heligible⟩ := Option.filter_eq_some_iff.1 hrow
    unfold admin_mfa.confirm_eligible at heligible
    rw [Bool.and_eq_true, decide_eq_true_eq] at heligible
    obtain ⟨hpurpose, heligible⟩ := heligible
    split
    · exact Effect.none_done
    · rename_i profile hprofile
      split
      · exact Effect.none_done
      · rename_i outcome houtcome
        have hcases := admin_mfa.confirm_totp_enrollment_cases heligible houtcome
        split_ifs with hstep
        · rcases hcases with rfl | ⟨step, encrypted, _, rfl, _⟩
          · exact .quiet (Quiet.set_challenge hfound Closes.missed)
          · cases hstep
        · rcases hcases with rfl | ⟨step, encrypted, _, rfl, _⟩
          · exact absurd rfl hstep
          · split
            · exact Effect.none_done
            · rename_i done hdone
              obtain ⟨hconsumed, hcancelled, _⟩ := Challenge.eligible_iff.1 heligible
              refine .confirmed id row (complete_enrollment_confirms hfound hpurpose
                (unused_iff.2 ⟨hconsumed, hcancelled⟩) hprofile rfl rfl ?_ hdone)
              rw [hclock]
              rfl

/-! ## The other calls -/

theorem verify_admin_mfa_effect (id code : String) :
    Effect fresh w (verify_admin_mfa env w id code times).1 := by
  unfold verify_admin_mfa
  split
  · exact Effect.none_done
  · rename_i row hrow
    obtain ⟨hfound, heligible⟩ := Option.filter_eq_some_iff.1 hrow
    unfold admin_mfa.verify_eligible at heligible
    rw [Bool.and_eq_true] at heligible
    split
    · exact Effect.none_done
    · rename_i profile hprofile
      obtain ⟨hprofile, _⟩ := Option.filter_eq_some_iff.1 hprofile
      split
      · exact Effect.none_done
      · rename_i outcome houtcome
        have hquiet : Quiet w ((w.set_challenge id outcome.challenge).set_profile row.user_id
            outcome.profile) := by
          rcases admin_mfa.verify_admin_mfa_cases heligible.2 houtcome with rfl | ⟨step, rfl, _⟩
          · refine (Quiet.set_challenge hfound Closes.missed).trans (Quiet.set_profile ?_)
            change Touched (w.profiles row.user_id) _
            rw [hprofile]
            exact Touched.refl _
          · refine (Quiet.set_challenge hfound Closes.consumed).trans (Quiet.set_profile ?_)
            change Touched (w.profiles row.user_id) _
            rw [hprofile]
            exact .some rfl rfl rfl rfl
        dsimp only
        split_ifs
        · exact .quiet hquiet
        · exact .quiet hquiet

theorem recovery_proof_quiet (payload : RecoveryVerifyRequest) :
    Quiet w (recovery_proof env w payload times).1 := by
  unfold recovery_proof
  split
  · split
    · exact Quiet.refl w
    · split
      · exact Quiet.refl w
      · rename_i before hbefore
        obtain ⟨codes, _, rfl⟩ := Option.map_eq_some_iff.1 hbefore
        exact Quiet.set_recovery_codes _ codes
  · split
    · split
      · exact Quiet.refl w
      · split
        · exact Quiet.refl w
        · dsimp only
          split_ifs
          · exact consume_email_otp_quiet _ _ _ _ _
          · exact consume_email_otp_quiet _ _ _ _ _
    · exact Quiet.refl w

theorem verify_recovery_effect (payload : RecoveryVerifyRequest) (id : String)
    (hclock : w.clock = times.later) (hid : w.challenges id = none) :
    Effect fresh w (verify_recovery env w payload id times).1 := by
  have hproof : Quiet w (recovery_proof env w payload times).1 := recovery_proof_quiet payload
  unfold verify_recovery
  split
  · rename_i before failure heq
    rw [heq] at hproof
    exact .quiet hproof
  · rename_i before user_id target_email proof heq
    rw [heq] at hproof
    refine .issued _ id _ _ (hproof.trans (Quiet.proved user_id proof)) hid hclock.symm ?_ rfl
    exact ⟨before.log, proof, rfl, rfl⟩

theorem execute_effect (request_id id : String) (hclock : w.clock = times.later)
    (hid : w.challenges id = none) :
    Effect fresh w (execute env w request_id id times).1 := by
  unfold execute
  split
  · exact Effect.none_done
  · rename_i row _
    split
    · refine .quiet ?_
      unfold expire_request
      split_ifs
      · exact Quiet.set_request _ _
      · exact Quiet.refl w
    · split_ifs
      · exact Effect.none_done
      · split
        · exact Effect.none_done
        · rename_i profile hprofile
          have hquiet : Quiet w ((((((w.cancel (fun other => decide (other.user_id = row.target_user_id))
              times.later).record (.proved row.target_user_id .break_glass)).set_account
                row.target_user_id Account.end_sessions)).set_profile row.target_user_id
                  { profile with profile_version := profile.profile_version + 1 }).set_request request_id
                    { row with status := .consumed }) := by
            refine ((((Quiet.cancel _ _).trans (Quiet.proved _ _)).trans (Quiet.set_account _ _)).trans
              (Quiet.set_profile ?_)).trans (Quiet.set_request _ _)
            change Touched (w.profiles row.target_user_id) _
            rw [hprofile]
            exact .some rfl rfl rfl rfl
          refine .issued _ id _ _ hquiet hid hclock.symm ?_ rfl
          exact ⟨w.log, .break_glass, rfl, rfl⟩

/-! ## Each step -/

/-- The condition of a start, and nothing for the other calls. -/
def uses_new_verification (w : World) (a : Action) : Bool :=
  match a.call with
  | .start_totp_enrollment actor flow_id verification_id _ =>
    new_verification w actor flow_id verification_id a.times
  | _ => true

theorem step_effect {a : Action} (h : step env w a = some w') :
    w.clock ≤ a.times.later ∧
      Effect (uses_new_verification w a = true) { w with clock := a.times.later } w' := by
  unfold step at h
  split_ifs at h with hguard
  cases h
  obtain ⟨hclock, hid⟩ := hguard
  refine ⟨le_trans hclock (le_trans a.times.called_le a.times.now_le), ?_⟩
  unfold uses_new_verification
  cases hcall : a.call with
  | login email password id =>
    rw [hcall] at hid
    exact login_effect email password id rfl (by simpa [Call.new_id] using hid)
  | request_recovery_email actor payload id otp delivered =>
    rw [hcall] at hid
    exact request_recovery_email_effect actor payload id otp delivered rfl
      (by simpa [Call.new_id] using hid)
  | verify_recovery_email actor payload => exact verify_recovery_email_effect actor payload
  | start_totp_enrollment actor flow_id verification_id drawn =>
    rw [hcall] at hid
    have hdrawn : w.challenges drawn.challenge_id = none := by simpa [Call.new_id] using hid
    exact @start_effect env { w with clock := a.times.later } a.times actor flow_id verification_id
      drawn rfl hdrawn
  | confirm_totp_enrollment id code codes => exact confirm_effect id code codes rfl
  | verify_admin_mfa id code => exact verify_admin_mfa_effect id code
  | request_recovery email id otp delivered =>
    rw [hcall] at hid
    exact request_recovery_effect email id otp delivered rfl (by simpa [Call.new_id] using hid)
  | verify_recovery payload id =>
    rw [hcall] at hid
    exact verify_recovery_effect payload id rfl (by simpa [Call.new_id] using hid)
  | execute request_id id =>
    rw [hcall] at hid
    exact execute_effect request_id id rfl (by simpa [Call.new_id] using hid)

/-! ## A world to run -/

/-- Passwords are kept as they are, and there are three custodians. -/
def plainEnvironment : Environment where
  service := admin_mfa.plainService
  verify_password := fun password password_hash => decide (password = password_hash)
  login_domain := none
  user_with_email := fun email => if email = "admin@example.test" then some "admin" else none
  crypto := break_glass.plainCrypto
  keyring := break_glass.custodians false

/-- One active administrator with an authenticator. Two custodians have signed a
request for him. -/
def adminAlone : World where
  clock := 0
  directory := admin_active_limit.Db.empty.put_user "admin" ⟨"active", "admin", "role"⟩
    |>.put_role "role" ⟨["admin:*"]⟩
  role_status := fun _ => some "active"
  accounts := fun _ => some ⟨"secret", some "active", 0⟩
  profiles := admin_mfa.oneAdmin.profiles
  challenges := fun _ => none
  recovery_codes := fun _ => []
  invitations := fun _ => none
  policy := some 0
  requests := fun id => if id = "bg_01" then some break_glass.lostPhone else none
  approvals := fun _ => [break_glass.approvedBy "a" [1], break_glass.approvedBy "b" [2]]
  authority := fun _ => none
  log := []

theorem adminAlone_starts : Start adminAlone := ⟨fun _ => rfl, rfl, rfl⟩

/-- The three times of a call are the same. -/
def at_once (moment : Time) : Moments := ⟨moment, moment, moment, le_refl _, le_refl _⟩

end moaworks.auth_service
