-- The steps of the authenticator apps: each secret accepts them in rising
-- order, so that no code is accepted twice.
import MoaWorks.AdminMfaCallRuns

namespace moaworks.admin_mfa

/-- Two acceptances, the earlier one first: those of one secret have rising steps. -/
def Rising (e e' : Used) : Prop :=
  e.user_id = e'.user_id → e.secret = e'.secret → e.step < e'.step

/-- The step is at most one away from the current one. -/
def Used.near (e : Used) : Prop := stepOf e.now ≤ e.step + 1 ∧ e.step ≤ stepOf e.now + 1

/-- The challenge was used up. -/
def Consumed (w : World) (id : String) : Prop :=
  ∃ row, w.challenges id = some row ∧ row.consumed_at.isSome

/-- The profile remembers the step, or a later one. -/
def Remembered (w : World) (e : Used) : Prop :=
  ∃ profile last, w.profiles e.user_id = some profile ∧ profile.last_used_step = some last ∧
    e.step ≤ last

/-- What keeps an accepted step from being accepted again. A secret is named by
its enrolment, which is used up before the secret is. -/
structure Protected (w : World) : Prop where
  rising : w.used.Pairwise Rising
  near : ∀ e ∈ w.used, e.near
  current : ∀ e ∈ w.used, e.secret = w.secrets e.user_id → Remembered w e
  named : ∀ e ∈ w.used, ∀ id, e.secret = some id → Consumed w id
  enrolled : ∀ user_id id, w.secrets user_id = some id → Consumed w id

variable {service : AdminMfaService} {w w' : World} {a : Action}

/-! ## What stays -/

theorem consumed_put {id k : String} {row row' : Challenge} (hid : w.challenges id = some row)
    (hrows : w'.challenges = fun j => if j = id then some row' else w.challenges j)
    (hkeeps : row.consumed_at.isSome → row'.consumed_at.isSome) (h : Consumed w k) :
    Consumed w' k := by
  obtain ⟨stored, hstored, hconsumed⟩ := h
  by_cases hk : k = id
  · subst hk
    rw [hid] at hstored
    cases hstored
    exact ⟨row', by rw [hrows]; exact if_pos rfl, hkeeps hconsumed⟩
  · refine ⟨stored, ?_, hconsumed⟩
    rw [hrows, ← hstored]
    exact if_neg hk

/-- A challenge that was used up stays so. -/
theorem Does.consumed (h : Does service w a w') {id : String} (hid : Consumed w id) :
    Consumed w' id := by
  cases h with
  | misses t k row now later hlock hrow =>
    exact consumed_put hrow rfl (fun hconsumed => hconsumed) hid
  | accepts t k row now later hlock hrow => exact consumed_put hrow rfl (fun _ => rfl) hid
  | verifies t k row profile step now later hlock hrow =>
    exact consumed_put hrow rfl (fun _ => rfl) hid
  | enrols t k row profile profile' step now later hlock hrow =>
    exact consumed_put hrow rfl (fun _ => rfl) hid
  | issues k row hnone =>
    obtain ⟨stored, hstored, hconsumed⟩ := hid
    refine ⟨stored, ?_, hconsumed⟩
    rw [← hstored]
    exact set_row_ne hstored (by rintro rfl hsome; rw [hnone] at hsome; cases hsome)
  | cancels k row later hrow => exact consumed_put hrow rfl (fun hconsumed => hconsumed) hid
  | spends k row later hrow => exact consumed_put hrow rfl (fun _ => rfl) hid
  | _ => exact hid

/-- The profile of one user changes, and does not forget a step. -/
theorem remembered_put {user_id : String} {profile profile' : Profile} {e : Used}
    (huser : w.profiles user_id = some profile)
    (hprofiles : w'.profiles = fun k => if k = user_id then some profile' else w.profiles k)
    (hkeeps : ∀ last, profile.last_used_step = some last →
      ∃ last', profile'.last_used_step = some last' ∧ last ≤ last')
    (h : Remembered w e) : Remembered w' e := by
  obtain ⟨stored, last, hstored, hlast, hstep⟩ := h
  by_cases he : e.user_id = user_id
  · rw [he, huser] at hstored
    cases hstored
    obtain ⟨last', hlast', hle⟩ := hkeeps last hlast
    refine ⟨profile', last', ?_, hlast', by omega⟩
    rw [hprofiles, he]
    exact if_pos rfl
  · refine ⟨stored, last, ?_, hlast, hstep⟩
    rw [hprofiles, ← hstored]
    exact if_neg he

/-- A step that is newer than the last one, in the place of the last one. -/
theorem newer_keeps {profile : Profile} {step : Nat}
    (hfresh : ∀ last, profile.last_used_step = some last → last < step) (last : Nat)
    (h : profile.last_used_step = some last) :
    ∃ last', some step = some last' ∧ last ≤ last' :=
  ⟨step, rfl, Nat.le_of_lt (hfresh last h)⟩

namespace Protected

/-- No step is accepted, and no secret is new. -/
theorem unused (h : Protected w) (hconsumed : ∀ id, Consumed w id → Consumed w' id)
    (hremembered : ∀ e, Remembered w e → Remembered w' e) (hsecrets : w'.secrets = w.secrets)
    (hused : w'.used = w.used) : Protected w' := by
  constructor
  case rising =>
    rw [hused]
    exact h.rising
  case near =>
    rw [hused]
    exact h.near
  case current =>
    rw [hused, hsecrets]
    exact fun e he hsecret => hremembered e (h.current e he hsecret)
  case named =>
    rw [hused]
    exact fun e he id hid => hconsumed id (h.named e he id hid)
  case enrolled =>
    rw [hsecrets]
    exact fun user_id id hid => hconsumed id (h.enrolled user_id id hid)

/-- The current secret of a user accepts a step that is newer than the last one. -/
theorem use {user_id : String} {profile : Profile} {step : Nat} {now : Time} (h : Protected w)
    (hconsumed : ∀ id, Consumed w id → Consumed w' id)
    (hprofile : w.profiles user_id = some profile)
    (hfresh : ∀ last, profile.last_used_step = some last → last < step)
    (hnear : Used.near ⟨user_id, w.secrets user_id, step, now⟩)
    (hprofiles : w'.profiles = fun k =>
      if k = user_id then some { profile with last_used_step := some step } else w.profiles k)
    (hsecrets : w'.secrets = w.secrets)
    (hused : w'.used = w.used ++ [⟨user_id, w.secrets user_id, step, now⟩]) : Protected w' := by
  have hkeeps : ∀ e, Remembered w e → Remembered w' e :=
    fun e => remembered_put hprofile hprofiles (newer_keeps hfresh)
  constructor
  case rising =>
    rw [hused, List.pairwise_append]
    refine ⟨h.rising, List.pairwise_singleton _ _, ?_⟩
    intro e he e' he' huser hsecret
    rw [List.mem_singleton] at he'
    subst he'
    -- the earlier step is remembered by the profile, and the new one is newer
    dsimp only at huser hsecret ⊢
    rw [← huser] at hsecret
    obtain ⟨stored, last, hstored, hlast, hle⟩ := h.current e he hsecret
    rw [huser, hprofile] at hstored
    cases hstored
    have hlt := hfresh last hlast
    omega
  case near =>
    intro e he
    rw [hused, List.mem_append, List.mem_singleton] at he
    rcases he with he | rfl
    · exact h.near e he
    · exact hnear
  case current =>
    intro e he hsecret
    rw [hused, List.mem_append, List.mem_singleton] at he
    rw [hsecrets] at hsecret
    rcases he with he | rfl
    · exact hkeeps e (h.current e he hsecret)
    · refine ⟨{ profile with last_used_step := some step }, step, ?_, rfl, Nat.le_refl _⟩
      rw [hprofiles]
      exact if_pos rfl
  case named =>
    intro e he id hid
    rw [hused, List.mem_append, List.mem_singleton] at he
    rcases he with he | rfl
    · exact hconsumed id (h.named e he id hid)
    · exact hconsumed id (h.enrolled user_id id hid)
  case enrolled =>
    rw [hsecrets]
    exact fun user id hid => hconsumed id (h.enrolled user id hid)

/-- A new secret accepts its first step. Nothing was accepted under its name
before, as its enrolment was open. -/
theorem enrol {user_id id : String} {profile' : Profile} {step : Nat} {now : Time}
    (h : Protected w) (hconsumed : ∀ k, Consumed w k → Consumed w' k)
    (hopen : ¬ Consumed w id) (hused_up : Consumed w' id)
    (hstep : profile'.last_used_step = some step)
    (hnear : Used.near ⟨user_id, some id, step, now⟩)
    (hprofiles : w'.profiles = fun k => if k = user_id then some profile' else w.profiles k)
    (hsecrets : w'.secrets = fun k => if k = user_id then some id else w.secrets k)
    (hused : w'.used = w.used ++ [⟨user_id, some id, step, now⟩]) : Protected w' := by
  constructor
  case rising =>
    rw [hused, List.pairwise_append]
    refine ⟨h.rising, List.pairwise_singleton _ _, ?_⟩
    intro e he e' he' huser hsecret
    rw [List.mem_singleton] at he'
    subst he'
    exact absurd (h.named e he id hsecret) hopen
  case near =>
    intro e he
    rw [hused, List.mem_append, List.mem_singleton] at he
    rcases he with he | rfl
    · exact h.near e he
    · exact hnear
  case current =>
    intro e he hsecret
    rw [hused, List.mem_append, List.mem_singleton] at he
    rw [hsecrets] at hsecret
    dsimp only at hsecret
    rcases he with he | rfl
    · by_cases hu : e.user_id = user_id
      · rw [if_pos hu] at hsecret
        exact absurd (h.named e he id hsecret) hopen
      · rw [if_neg hu] at hsecret
        obtain ⟨stored, last, hstored, hlast⟩ := h.current e he hsecret
        refine ⟨stored, last, ?_, hlast⟩
        rw [hprofiles, ← hstored]
        exact if_neg hu
    · refine ⟨profile', step, ?_, hstep, Nat.le_refl _⟩
      rw [hprofiles]
      exact if_pos rfl
  case named =>
    intro e he k hk
    rw [hused, List.mem_append, List.mem_singleton] at he
    rcases he with he | rfl
    · exact hconsumed k (h.named e he k hk)
    · cases hk
      exact hused_up
  case enrolled =>
    intro user k hk
    rw [hsecrets] at hk
    dsimp only at hk
    by_cases hu : user = user_id
    · rw [if_pos hu] at hk
      cases hk
      exact hused_up
    · rw [if_neg hu] at hk
      exact hconsumed k (h.enrolled user k hk)

end Protected

/-! ## Runs -/

theorem Does.protected (hi : Protected w) (h : Does service w a w') : Protected w' := by
  have hconsumed : ∀ id, Consumed w id → Consumed w' id := fun _ => h.consumed
  cases h with
  | verifies t id row profile step now later hlock hrow heligible hplock hprofile hfresh hlow hhigh =>
    exact hi.use hconsumed hprofile hfresh ⟨hlow, hhigh⟩ rfl rfl rfl
  | uses t user_id profile step now hplock hprofile hfresh hlow hhigh =>
    exact hi.use hconsumed hprofile hfresh ⟨hlow, hhigh⟩ rfl rfl rfl
  | enrols t id row profile profile' step now later hlock hrow heligible hplock hprofile hid hstep
      hmaterial hread hlow hhigh =>
    have hopen : ¬ Consumed w id := by
      rintro ⟨stored, hstored, hconsumed⟩
      rw [hrow] at hstored
      cases hstored
      rw [(Challenge.eligible_iff.1 heligible).1] at hconsumed
      cases hconsumed
    exact hi.enrol hconsumed hopen ⟨_, if_pos rfl, rfl⟩ hstep ⟨hlow, hhigh⟩ rfl rfl rfl
  | opens user_id id hnone =>
    apply hi.unused hconsumed _ rfl (List.append_nil _)
    rintro e ⟨stored, last, hstored, hlast⟩
    refine ⟨stored, last, ?_, hlast⟩
    rw [← hstored]
    exact set_row_ne hstored (by rintro rfl hsome; rw [hnone] at hsome; cases hsome)
  | touches user_id profile profile' hprofile hfree hid htotp hlast =>
    apply hi.unused hconsumed _ rfl (List.append_nil _)
    intro e he
    apply remembered_put hprofile rfl _ he
    intro last hstored
    exact ⟨last, by rw [hlast, hstored], Nat.le_refl _⟩
  | _ => exact hi.unused hconsumed (fun _ he => he) rfl rfl

theorem start_protected (h : Start service w) : Protected w := by
  constructor
  case rising =>
    rw [h.used]
    exact .nil
  case enrolled =>
    intro user_id id hid
    rw [h.secrets user_id] at hid
    cases hid
  all_goals
    intro e he
    rw [h.used] at he
    cases he

/-- Two logins with the same code that overlap, and a new secret. -/
def twoLogins : Option World :=
  (machine plainService).run oneAdmin
    [.issue "first" .login "admin" none none (seconds 700) (seconds 100),
      .issue "second" .login "admin" none none (seconds 700) (seconds 100),
      .begin 1 (.verify_admin_mfa "first" "254676") (seconds 150),
      .begin 2 (.verify_admin_mfa "second" "254676") (seconds 150),
      .lock 1, .lock 2, .lock_profile 1, .finish 1 (seconds 151),
      .lock_profile 2, .finish 2 (seconds 152),
      .start "enrolment" "admin" "nonce" "12345678901234567890" (some "admin@example.test")
        (seconds 760) (seconds 160),
      .begin 1 (.confirm_totp_enrollment "enrolment" "254676") (seconds 161),
      .lock 1, .lock_profile 1, .finish 1 (seconds 162)]

end moaworks.admin_mfa
