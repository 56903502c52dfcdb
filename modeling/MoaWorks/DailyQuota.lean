-- The daily send quota: one counter for each date in Seoul, moved by one
-- upsert, and the law that its grants of a date stay within the limit.
import MoaWorks.Clock
import MoaWorks.Lib.Machine
import MoaWorks.Lib.Table

namespace moaworks.mail_daily_send_quota

/-! ## Dates in Seoul -/

/-- A date of the zone `Asia/Seoul`, in days since the epoch. -/
abbrev Date := Nat

def day : Time := minutes (24 * 60)

/-- Seoul is nine hours ahead of UTC, in summer and in winter. -/
def seoulOffset : Time := minutes (9 * 60)

def usageDate (clock : Time) : Date := (clock + seoulOffset) / day

/-- The end of a date: the next midnight in Seoul. -/
def resetAt (date : Date) : Time := (date + 1) * day - seoulOffset

/-! ## Reservations -/

/-- The row of `_RESERVE_SQL`. The LEFT JOIN gives NULLs when nothing was reserved. -/
structure QuotaRow where
  usage_date : Option Date
  attempt_count : Option Nat
  reset_at : Time
  deriving DecidableEq, Repr

/-- `_RESERVE_SQL` on `mail_engine_daily_send_usage`, at the time of its statement. -/
def reserveSql (usage : Table Date Nat) (limit : Nat) (clock : Time) :
    QuotaRow × Table Date Nat :=
  let date := usageDate clock
  match usage.rows date with
  | none => (⟨some date, some 1, resetAt date⟩, usage.set date 1)
  | some attempt_count =>
    if limit = 0 ∨ attempt_count < limit then
      (⟨some date, some (attempt_count + 1), resetAt date⟩, usage.set date (attempt_count + 1))
    else (⟨none, none, resetAt date⟩, usage)

/-- What `reserve_attempt` returns or raises. -/
inductive Outcome
  | granted (usage_date : Date) (used limit : Nat) (reset_at : Time)
  | limit_exceeded (limit : Nat) (reset_at : Time)
  | unavailable
  deriving DecidableEq, Repr

/-- The checks of `reserve_attempt` on the row. -/
def checkRow (limit : Nat) (row : QuotaRow) : Outcome :=
  match row.usage_date with
  | none =>
    if limit = 0 ∨ row.attempt_count ≠ none then .unavailable
    else .limit_exceeded limit row.reset_at
  | some usage_date =>
    match row.attempt_count with
    | none => .unavailable
    | some used =>
      if used < 1 then .unavailable
      else if 0 < limit ∧ limit < used then .unavailable
      else .granted usage_date used limit row.reset_at

/-- How the database can fail a call: before its statement, or once it has committed. -/
inductive Fault
  | before | after
  deriving DecidableEq, Repr

/-- A call of `reserve_attempt`: the time of its statement, and how it fails. -/
structure Call where
  clock : Time
  fault : Option Fault
  deriving DecidableEq, Repr

def reserve_attempt (usage : Table Date Nat) (limit : Nat) (call : Call) :
    Outcome × Table Date Nat :=
  match call.fault with
  | some .before => (.unavailable, usage)
  | some .after => (.unavailable, (reserveSql usage limit call.clock).2)
  | none =>
    let (row, usage') := reserveSql usage limit call.clock
    (checkRow limit row, usage')

/-! ## Runs -/

/-- The counters, and the dates of the reservations granted so far. -/
structure Quota where
  usage : Table Date Nat
  granted : List Date

def Outcome.dates : Outcome → List Date
  | .granted usage_date _ _ _ => [usage_date]
  | _ => []

/-- One call of one worker. -/
def attempt (limit : Nat) (q : Quota) (call : Call) : Outcome × Quota :=
  let (outcome, usage) := reserve_attempt q.usage limit call
  (outcome, ⟨usage, q.granted ++ outcome.dates⟩)

/-- The quota with a constant limit, called by any number of workers in any order. -/
def machine (limit : Nat) : Machine Quota Call where
  Start q := q = ⟨Table.empty, []⟩
  step q call := some (attempt limit q call).2

/-- The counter of a date, which has no row before its first reservation. -/
def used (usage : Table Date Nat) (date : Date) : Nat := (usage.rows date).getD 0

/-! ## The law -/

/-- The upsert counts the date of its clock up by one within the limit, or
it changes nothing and says when the date ends. -/
theorem reserveSql_cases (usage : Table Date Nat) {limit : Nat} (clock : Time) (h : 0 < limit) :
    (used usage (usageDate clock) < limit ∧
      reserveSql usage limit clock =
        (⟨some (usageDate clock), some (used usage (usageDate clock) + 1),
            resetAt (usageDate clock)⟩,
          usage.set (usageDate clock) (used usage (usageDate clock) + 1))) ∨
    (limit ≤ used usage (usageDate clock) ∧
      reserveSql usage limit clock = (⟨none, none, resetAt (usageDate clock)⟩, usage)) := by
  unfold reserveSql used
  rcases hrow : usage.rows (usageDate clock) with _ | n
  · left
    simp only [hrow, Option.getD_none, Nat.zero_add, and_true]
    exact h
  · simp only [hrow, Option.getD_some]
    have h0 : ¬ limit = 0 := by omega
    by_cases hn : n < limit
    · left
      rw [if_pos (Or.inr hn)]
      exact ⟨hn, rfl⟩
    · right
      rw [if_neg (by omega)]
      exact ⟨by omega, rfl⟩

theorem used_set (usage : Table Date Nat) (date d : Date) (n : Nat) :
    used (usage.set date n) d = if d = date then n else used usage d := by
  unfold used
  rw [Table.rows_set]
  split_ifs <;> rfl

/-- What a call does: it grants its date within the limit, or it refuses and
names the end of its date, or it is unavailable and at most counts. -/
theorem attempt_cases (q : Quota) {limit : Nat} (call : Call) (h : 0 < limit) :
    (∃ used reset_at, (attempt limit q call).1 = .granted (usageDate call.clock) used limit reset_at) ∨
    (attempt limit q call).1 = .limit_exceeded limit (resetAt (usageDate call.clock)) ∨
    (attempt limit q call).1 = .unavailable := by
  unfold attempt reserve_attempt
  rcases call.fault with _ | (_ | _)
  · rcases reserveSql_cases q.usage call.clock h with ⟨hlt, hs⟩ | ⟨_, hs⟩
    · left
      have hone : ¬ used q.usage (usageDate call.clock) + 1 < 1 := by omega
      have hle : ¬ (0 < limit ∧ limit < used q.usage (usageDate call.clock) + 1) := by omega
      refine ⟨used q.usage (usageDate call.clock) + 1, resetAt (usageDate call.clock), ?_⟩
      simp only [hs, checkRow]
      rw [if_neg hone, if_neg hle]
    · right
      left
      have h0 : limit ≠ 0 := by omega
      simp [hs, checkRow, h0]
  · exact Or.inr (Or.inr rfl)
  · exact Or.inr (Or.inr rfl)

theorem attempt_granted (limit : Nat) (q : Quota) (call : Call) :
    (attempt limit q call).2.granted = q.granted ++ (attempt limit q call).1.dates := rfl

/-- The calls of other workers are steps of the quota, and take no grant back. -/
theorem later_others (limit : Nat) (q : Quota) (others : List Call) :
    (machine limit).Later q (others.foldl (fun q c => (attempt limit q c).2) q) ∧
      ∀ d, q.granted.count d ≤
        (others.foldl (fun q c => (attempt limit q c).2) q).granted.count d := by
  induction others using List.reverseRecOn with
  | nil => exact ⟨.refl q, fun d => le_rfl⟩
  | append_singleton others c ih =>
    rw [List.foldl_append]
    refine ⟨ih.1.next (a := c) rfl, fun d => ?_⟩
    simp only [List.foldl_cons, List.foldl_nil, attempt_granted, List.count_append]
    have h := ih.2 d
    omega

/-- The counters stay within the limit, and grants never outnumber them. -/
structure Counted (limit : Nat) (q : Quota) : Prop where
  bounded : ∀ d, used q.usage d ≤ limit
  covers : ∀ d, q.granted.count d ≤ used q.usage d

theorem counted_step {limit : Nat} (h : 0 < limit) {q : Quota} (call : Call)
    (i : Counted limit q) : Counted limit (attempt limit q call).2 := by
  unfold attempt reserve_attempt
  rcases reserveSql_cases q.usage call.clock h with ⟨hlt, hs⟩ | ⟨hge, hs⟩
  · have hle : ¬ (0 < limit ∧ limit < used q.usage (usageDate call.clock) + 1) := by omega
    rcases call.fault with _ | (_ | _)
    · simp only [hs, checkRow, hle, Nat.not_lt.mpr (Nat.le_add_left 1 _), if_false, Outcome.dates]
      constructor
      · intro d
        have hb := i.bounded d
        rw [used_set]
        split_ifs <;> omega
      · intro d
        have hc := i.covers d
        rw [used_set, List.count_append]
        split_ifs with hd
        · subst hd
          simp only [List.count_singleton_self]
          omega
        · have hne : ¬ usageDate call.clock = d := fun he => hd he.symm
          simpa [List.count_singleton, hne] using hc
    · simpa [Outcome.dates] using i
    · simp only [hs, Outcome.dates, List.append_nil]
      constructor
      · intro d
        have hb := i.bounded d
        rw [used_set]
        split_ifs <;> omega
      · intro d
        have hc : q.granted.count d ≤ used q.usage d := i.covers d
        show q.granted.count d ≤ used (q.usage.set _ _) d
        rw [used_set]
        split_ifs with hd
        · subst hd
          omega
        · exact hc
  · have h0 : limit ≠ 0 := by omega
    rcases call.fault with _ | (_ | _)
    · simpa [hs, checkRow, h0, Outcome.dates] using i
    · simpa [Outcome.dates] using i
    · simpa [hs, Outcome.dates] using i

theorem counted_of_reachable {limit : Nat} (h : 0 < limit) {q : Quota}
    (hr : (machine limit).Reachable q) : Counted limit q := by
  apply hr.invariant
  · rintro s rfl
    exact ⟨by simp [used], by simp⟩
  · intro s call s' hi hstep
    simp only [machine, Option.some.injEq] at hstep
    subst hstep
    exact counted_step h call hi

/-- In every run, the grants of one date in Seoul stay within the limit. -/
theorem grants_stay_within_the_limit {limit : Nat} (h : 0 < limit) {q : Quota}
    (hr : (machine limit).Reachable q) (date : Date) : q.granted.count date ≤ limit :=
  le_trans ((counted_of_reachable h hr).covers date) ((counted_of_reachable h hr).bounded date)

/-- A date ends after each of its moments. -/
theorem before_resetAt (clock : Time) : clock < resetAt (usageDate clock) := by
  unfold resetAt usageDate
  have hday : 0 < day := by decide
  have hlt : clock + seoulOffset < day * ((clock + seoulOffset) / day + 1) :=
    Nat.lt_mul_div_succ _ hday
  rw [Nat.mul_comm] at hlt
  exact Nat.lt_sub_of_add_lt hlt

end moaworks.mail_daily_send_quota
