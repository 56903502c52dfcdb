-- The guesses at one-time codes: each wrong code counts, the fifth cancels the
-- challenge, and a challenge accepts one code at most.
import MoaWorks.AdminMfaCallRuns
import MoaWorks.Lib.History

namespace moaworks.admin_mfa

/-! ## A challenge and its guesses -/

def Guess.challenge_id : Guess → String
  | missed id | accepted id | cancelled id => id

/-- The row of a challenge agrees with what was tried on it. -/
structure Counted (guesses : List Guess) (id : String) (row : Challenge) : Prop where
  attempts : row.attempt_count = guesses.count (.missed id)
  most : row.attempt_count ≤ 5
  fifth : row.attempt_count = 5 → row.cancelled_at.isSome
  cancelled : row.cancelled_at.isSome ↔ .cancelled id ∈ guesses
  consumed : .accepted id ∈ guesses → row.consumed_at.isSome
  once : guesses.count (.accepted id) ≤ 1
  order : History.Whenever (· = .accepted id) (fun before _ => .cancelled id ∉ before) guesses

namespace Counted

variable {guesses new : List Guess} {id : String} {row : Challenge} {now later : Time}

/-- A new challenge. -/
theorem fresh (hnone : ∀ g ∈ guesses, g.challenge_id ≠ id) (hattempts : row.attempt_count = 0)
    (hcancelled : row.cancelled_at = none) : Counted guesses id row := by
  have hmissed : .missed id ∉ guesses := fun h => hnone _ h rfl
  have haccepted : .accepted id ∉ guesses := fun h => hnone _ h rfl
  have hnever : .cancelled id ∉ guesses := fun h => hnone _ h rfl
  constructor
  case attempts => rw [hattempts, List.count_eq_zero_of_not_mem hmissed]
  case most => omega
  case fifth =>
    intro h
    omega
  case cancelled => simp [hcancelled, hnever]
  case consumed => exact fun h => absurd h haccepted
  case once =>
    rw [List.count_eq_zero_of_not_mem haccepted]
    omega
  case order =>
    rintro before e after hsplit rfl
    exact absurd (by simp [hsplit]) haccepted

/-- What is tried on other challenges. -/
theorem append_other (h : Counted guesses id row) (hnew : ∀ g ∈ new, g.challenge_id ≠ id) :
    Counted (guesses ++ new) id row := by
  have hmissed : .missed id ∉ new := fun hg => hnew _ hg rfl
  have haccepted : .accepted id ∉ new := fun hg => hnew _ hg rfl
  have hcancelled : .cancelled id ∉ new := fun hg => hnew _ hg rfl
  constructor
  case attempts =>
    rw [List.count_append, List.count_eq_zero_of_not_mem hmissed, Nat.add_zero]
    exact h.attempts
  case most => exact h.most
  case fifth => exact h.fifth
  case cancelled => simpa [hcancelled] using h.cancelled
  case consumed => simpa [haccepted] using h.consumed
  case once =>
    rw [List.count_append, List.count_eq_zero_of_not_mem haccepted, Nat.add_zero]
    exact h.once
  case order =>
    rw [History.whenever_append]
    · exact h.order
    · rintro g hg rfl
      exact haccepted hg

/-- An open challenge accepted nothing so far, and was not cancelled. -/
theorem none_accepted (h : Counted guesses id row) (hconsumed : row.consumed_at = none) :
    .accepted id ∉ guesses := by
  intro haccepted
  have := h.consumed haccepted
  simp [hconsumed] at this

theorem none_cancelled (h : Counted guesses id row) (hcancelled : row.cancelled_at = none) :
    .cancelled id ∉ guesses := by
  rw [← h.cancelled]
  simp [hcancelled]

theorem miss (h : Counted guesses id row) (heligible : row.eligible now = true) :
    Counted (guesses ++ missedBy id row) id (row.miss later) := by
  obtain ⟨hconsumed, hcancelled, _, hattempts⟩ := Challenge.eligible_iff.1 heligible
  have haccepted : .accepted id ∉ missedBy id row := by
    unfold missedBy
    split_ifs <;> simp
  have hcount : (missedBy id row).count (.missed id) = 1 := by
    unfold missedBy
    split_ifs
    · simp
    · simp
  have hnever := h.none_cancelled hcancelled
  constructor
  case attempts =>
    rw [List.count_append, hcount, ← h.attempts]
    rfl
  case most =>
    have hmiss : (row.miss later).attempt_count = row.attempt_count + 1 := rfl
    omega
  case fifth =>
    intro hfive
    have hmiss : row.attempt_count + 1 = 5 := hfive
    simp [Challenge.miss, hmiss]
  case cancelled =>
    by_cases hlast : 5 ≤ row.attempt_count + 1
    · simp [Challenge.miss, missedBy, hlast]
    · simp [Challenge.miss, missedBy, hlast, hcancelled, hnever]
  case consumed =>
    intro hmem
    rw [List.mem_append] at hmem
    exact absurd (hmem.resolve_right haccepted) (h.none_accepted hconsumed)
  case once =>
    rw [List.count_append, List.count_eq_zero_of_not_mem haccepted, Nat.add_zero]
    exact h.once
  case order =>
    rw [History.whenever_append]
    · exact h.order
    · rintro g hg rfl
      exact haccepted hg

theorem accept (h : Counted guesses id row) (heligible : row.eligible now = true) :
    Counted (guesses ++ [.accepted id]) id { row with consumed_at := some later } := by
  obtain ⟨hconsumed, hcancelled, _, _⟩ := Challenge.eligible_iff.1 heligible
  constructor
  case attempts =>
    rw [List.count_append]
    simpa using h.attempts
  case most => exact h.most
  case fifth => exact h.fifth
  case cancelled => simpa using h.cancelled
  case consumed => exact fun _ => rfl
  case once =>
    rw [List.count_append, List.count_eq_zero_of_not_mem (h.none_accepted hconsumed)]
    simp
  case order =>
    rw [History.whenever_snoc]
    exact ⟨h.order, fun _ => h.none_cancelled hcancelled⟩

theorem cancel (h : Counted guesses id row) :
    Counted (guesses ++ [.cancelled id]) id { row with cancelled_at := some later } := by
  constructor
  case attempts =>
    rw [List.count_append]
    simpa using h.attempts
  case most => exact h.most
  case fifth => exact fun _ => rfl
  case cancelled => simp
  case consumed => simpa using h.consumed
  case once =>
    rw [List.count_append]
    simpa using h.once
  case order =>
    rw [History.whenever_append (by simp)]
    exact h.order

theorem spend (h : Counted guesses id row) :
    Counted guesses id { row with consumed_at := some later } where
  attempts := h.attempts
  most := h.most
  fifth := h.fifth
  cancelled := h.cancelled
  consumed := fun _ => rfl
  once := h.once
  order := h.order

end Counted

/-! ## All challenges -/

/-- Every row agrees with its guesses, and nothing was tried without a row. -/
structure Accounted (w : World) : Prop where
  rows : ∀ id row, w.challenges id = some row → Counted w.guesses id row
  none : ∀ id, w.challenges id = none → ∀ g ∈ w.guesses, g.challenge_id ≠ id

variable {service : AdminMfaService} {w w' : World} {a : Action}

/-- One row changes, and only its own guesses are new. -/
theorem Accounted.put {id : String} {row : Challenge} {new : List Guess} (h : Accounted w)
    (hrows : w'.challenges = fun k => if k = id then some row else w.challenges k)
    (hguesses : w'.guesses = w.guesses ++ new) (hnew : ∀ g ∈ new, g.challenge_id = id)
    (hcounted : Counted (w.guesses ++ new) id row) : Accounted w' := by
  constructor
  case rows =>
    intro k row' hrow'
    rw [hrows] at hrow'
    dsimp only at hrow'
    rw [hguesses]
    by_cases hk : k = id
    · subst hk
      rw [if_pos rfl] at hrow'
      cases hrow'
      exact hcounted
    · rw [if_neg hk] at hrow'
      apply (h.rows k row' hrow').append_other
      intro g hg hsame
      exact hk (hsame.symm.trans (hnew g hg))
  case none =>
    intro k hk g hg
    rw [hrows] at hk
    dsimp only at hk
    rw [hguesses, List.mem_append] at hg
    by_cases hid : k = id
    · rw [if_pos hid] at hk
      cases hk
    · rw [if_neg hid] at hk
      rcases hg with hg | hg
      · exact h.none k hk g hg
      · rw [hnew g hg]
        exact fun hsame => hid hsame.symm

theorem Accounted.same (h : Accounted w) (hrows : w'.challenges = w.challenges)
    (hguesses : w'.guesses = w.guesses) : Accounted w' := by
  constructor
  · rw [hrows, hguesses]
    exact h.rows
  · rw [hrows, hguesses]
    exact h.none

theorem missedBy_challenge_id {id : String} {row : Challenge} {g : Guess}
    (h : g ∈ missedBy id row) : g.challenge_id = id := by
  unfold missedBy at h
  split_ifs at h
  · rw [List.mem_cons, List.mem_singleton] at h
    rcases h with rfl | rfl <;> rfl
  · rw [List.mem_singleton] at h
    rw [h]
    rfl

theorem Does.accounted (hi : Accounted w) (hok : incomparable service w a = false)
    (h : Does service w a w') : Accounted w' := by
  cases h with
  | turns => exact hi.same rfl rfl
  | ends => exact hi.same rfl rfl
  | raises t id hraises =>
    rw [hok] at hraises
    cases hraises
  | misses t id row now later hlock hrow heligible =>
    exact hi.put rfl rfl (fun _ => missedBy_challenge_id) ((hi.rows id row hrow).miss heligible)
  | accepts t id row now later hlock hrow heligible =>
    exact hi.put rfl rfl (by simp [Guess.challenge_id]) ((hi.rows id row hrow).accept heligible)
  | verifies t id row profile step now later hlock hrow heligible =>
    exact hi.put rfl rfl (by simp [Guess.challenge_id]) ((hi.rows id row hrow).accept heligible)
  | enrols t id row profile profile' step now later hlock hrow heligible =>
    exact hi.put rfl rfl (by simp [Guess.challenge_id]) ((hi.rows id row hrow).accept heligible)
  | uses => exact hi.same rfl rfl
  | issues id row hnone hattempts hconsumed hcancelled =>
    apply hi.put rfl rfl (by simp)
    rw [List.append_nil]
    exact .fresh (hi.none id hnone) hattempts hcancelled
  | opens => exact hi.same rfl rfl
  | cancels id row later hrow =>
    exact hi.put rfl rfl (by simp [Guess.challenge_id]) (hi.rows id row hrow).cancel
  | spends id row later hrow =>
    apply hi.put rfl rfl (by simp)
    rw [List.append_nil]
    exact (hi.rows id row hrow).spend
  | touches => exact hi.same rfl rfl

theorem start_accounted (h : Start service w) : Accounted w := by
  constructor
  · intro id row hrow
    rw [h.challenges id] at hrow
    cases hrow
  · intro id _ g hg
    rw [h.guesses] at hg
    cases hg

/-- In the runs in which every comparison can be made, each wrong code on an
eligible challenge adds one to its count, the fifth cancels it, one code at
most is accepted, and none after it was cancelled. -/
theorem comparable_guesses_are_counted
    (h : (machine service).Reach (fun w a => incomparable service w a = false) w) (id : String)
    (row : Challenge) (hrow : w.challenges id = some row) : Counted w.guesses id row := by
  have hi : Accounted w := by
    apply Machine.Reach.invariant _ _ h
    · exact fun _ hstart => start_accounted hstart
    · intro w a w' hr hi hok hstep
      exact (step_does (ordered_of_reach hr) hstep).accounted hi hok
  exact hi.rows id row hrow

/-- A login with the tries of two calls, which overlap where they can. -/
def twoGuesses : Option World :=
  (machine plainService).runWithin (fun w a => incomparable plainService w a = false) oneAdmin
    [.issue "login" .login "admin" none none (seconds 700) (seconds 100),
      .begin 1 (.verify_admin_mfa "login" "000000") (seconds 150),
      .begin 2 (.verify_admin_mfa "login" "254676") (seconds 150),
      .lock 1, .lock_profile 1, .finish 1 (seconds 151),
      .lock 2, .lock_profile 2, .finish 2 (seconds 152)]

theorem two_guesses_are_counted : ∃ w row, twoGuesses = some w ∧
    w.guesses = [.missed "login", .accepted "login"] ∧ w.challenges "login" = some row ∧
    Counted w.guesses "login" row :=
  ⟨twoGuesses.get (by decide),
    { freshChallenge .login "admin" none none none (seconds 700) (seconds 100) with
      attempt_count := 1
      consumed_at := some (seconds 152) },
    (Option.some_get _).symm, by decide, by decide,
    comparable_guesses_are_counted
      ((Machine.Reach.start oneAdmin_starts).runWithin (Option.some_get _).symm) "login" _
      (by decide)⟩

/-- A login with a code of six Arabic digits. -/
def arabicGuess : Option World :=
  (machine plainService).run oneAdmin
    (.issue "login" .login "admin" none none (seconds 700) (seconds 100) ::
      tries 1 (.verify_admin_mfa "login" "١٢٣٤٥٦") (seconds 150))

/-- That code gets through the schema, but not through the comparison: the call
is rolled back, and the code does not count. -/
theorem other_digits_are_not_counted : ¬ ∀ w, (machine plainService).Reachable w →
    ∀ id row, w.challenges id = some row → Counted w.guesses id row := by
  intro hall
  have hreach : (machine plainService).Reachable (arabicGuess.get (by decide)) :=
    Machine.reachable_of_run oneAdmin_starts (Option.some_get _).symm
  have hcounted := hall _ hreach "login"
    (freshChallenge .login "admin" none none none (seconds 700) (seconds 100)) (by decide)
  exact absurd hcounted.attempts (by decide)

end moaworks.admin_mfa
