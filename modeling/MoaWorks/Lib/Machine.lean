-- Machines that take one step after another. The rules here turn a fact
-- about one step into a fact about every run, of any length.
import Mathlib.Data.List.Induction
import Mathlib.Tactic.SplitIfs

/-- A machine: its start states, and one step for one action. An action
that the machine refuses gives `none`. -/
structure Machine (σ α : Type*) where
  Start : σ → Prop
  step : σ → α → Option σ

namespace Machine

variable {σ α : Type*} (m : Machine σ α)

/-- The states of the runs in which `ok` holds before each step. -/
inductive Reach (ok : σ → α → Prop) : σ → Prop
  | start {s : σ} : m.Start s → Reach ok s
  | next {s s' : σ} {a : α} : Reach ok s → ok s a → m.step s a = some s' → Reach ok s'

/-- The states of all runs. -/
def Reachable : σ → Prop := m.Reach (fun _ _ => True)

/-- `s'` is `s` or a state that comes after it in some run. -/
inductive Later : σ → σ → Prop
  | refl (s : σ) : Later s s
  | next {s s' s'' : σ} {a : α} : Later s s' → m.step s' a = some s'' → Later s s''

/-- The state after a list of actions, or `none` when one is refused. -/
def run (s : σ) (as : List α) : Option σ := as.foldlM m.step s

/-- `s'` is `s` or a state that comes after it in a run in which `ok` holds before each step. -/
inductive LaterIn (ok : σ → α → Prop) : σ → σ → Prop
  | refl (s : σ) : LaterIn ok s s
  | next {s s' s'' : σ} {a : α} : LaterIn ok s s' → ok s' a → m.step s' a = some s'' →
    LaterIn ok s s''

variable {m}

/-- What holds at the start and stays true in each step is true in each run. -/
theorem Reach.invariant {ok : σ → α → Prop} {I : σ → Prop} (h0 : ∀ s, m.Start s → I s)
    (hs : ∀ s a s', m.Reach ok s → I s → ok s a → m.step s a = some s' → I s')
    {s : σ} (h : m.Reach ok s) : I s := by
  induction h with
  | start h => exact h0 _ h
  | next hr hok hstep ih => exact hs _ _ _ hr ih hok hstep

/-- A run that meets a strong condition is a run that meets a weaker one. -/
theorem Reach.mono {ok ok' : σ → α → Prop} (hw : ∀ s a, ok s a → ok' s a) {s : σ}
    (h : m.Reach ok s) : m.Reach ok' s := by
  induction h with
  | start h => exact .start h
  | next _ hok hstep ih => exact .next ih (hw _ _ hok) hstep

theorem Reach.reachable {ok : σ → α → Prop} {s : σ} (h : m.Reach ok s) : m.Reachable s :=
  h.mono (fun _ _ _ => trivial)

/-- The rule for an invariant of all runs. -/
theorem Reachable.invariant {I : σ → Prop} (h0 : ∀ s, m.Start s → I s)
    (hs : ∀ s a s', I s → m.step s a = some s' → I s') {s : σ} (h : m.Reachable s) : I s :=
  Reach.invariant h0 (fun s a s' _ hi _ hstep => hs s a s' hi hstep) h

theorem Reachable.later {s s' : σ} (h : m.Reachable s) (hl : m.Later s s') : m.Reachable s' := by
  induction hl with
  | refl => exact h
  | next _ hstep ih => exact .next ih trivial hstep

theorem Later.trans {s s' s'' : σ} (h : m.Later s s') (h' : m.Later s' s'') : m.Later s s'' := by
  induction h' with
  | refl => exact h
  | next _ hstep ih => exact .next ih hstep

/-- What each step of a run keeps, the whole run keeps. -/
theorem Later.keeps {P : σ → Prop} {s s' : σ} (hr : m.Reachable s) (hl : m.Later s s')
    (hs : ∀ t a t', m.Reachable t → P t → m.step t a = some t' → P t') (h : P s) : P s' := by
  induction hl with
  | refl => exact h
  | next hl hstep ih => exact hs _ _ _ (hr.later hl) ih hstep

theorem later_of_run {s s' : σ} {as : List α} (h : m.run s as = some s') : m.Later s s' := by
  induction as using List.reverseRecOn generalizing s' with
  | nil =>
    simp only [run, List.foldlM_nil, Option.pure_def, Option.some.injEq] at h
    subst h
    exact .refl s
  | append_singleton as a ih =>
    simp only [run, List.foldlM_append, Option.bind_eq_bind, Option.bind_eq_some_iff,
      List.foldlM_cons, List.foldlM_nil, Option.pure_def] at h
    obtain ⟨t, ht, u, hu, he⟩ := h
    cases he
    exact .next (ih ht) hu

theorem Reach.laterIn {ok : σ → α → Prop} {s s' : σ} (h : m.Reach ok s)
    (hl : m.LaterIn ok s s') : m.Reach ok s' := by
  induction hl with
  | refl => exact h
  | next _ hok hstep ih => exact .next ih hok hstep

/-- What each step of a run that meets the condition keeps, the whole run keeps. -/
theorem LaterIn.keeps {ok : σ → α → Prop} {P : σ → Prop} {s s' : σ} (hr : m.Reach ok s)
    (hl : m.LaterIn ok s s')
    (hs : ∀ t a t', m.Reach ok t → P t → ok t a → m.step t a = some t' → P t') (h : P s) :
    P s' := by
  induction hl with
  | refl => exact h
  | next hl hok hstep ih => exact hs _ _ _ (hr.laterIn hl) ih hok hstep

/-- The state after a list of accepted actions is a state of a run. -/
theorem reachable_of_run {s s' : σ} {as : List α} (h0 : m.Start s)
    (h : m.run s as = some s') : m.Reachable s' :=
  Reachable.later (.start h0) (later_of_run h)

/-- A run goes on with actions that meet the condition in any state. -/
theorem Reach.run {ok : σ → α → Prop} {s s' : σ} {as : List α} (h : m.Reach ok s)
    (hok : ∀ a ∈ as, ∀ t, ok t a) (hrun : m.run s as = some s') : m.Reach ok s' := by
  induction as generalizing s with
  | nil =>
    simp only [Machine.run, List.foldlM_nil, Option.pure_def, Option.some.injEq] at hrun
    subst hrun
    exact h
  | cons a as ih =>
    simp only [Machine.run, List.foldlM_cons, Option.bind_eq_bind,
      Option.bind_eq_some_iff] at hrun
    obtain ⟨t, ht, hrest⟩ := hrun
    exact ih (h.next (hok a (by simp) s) ht) (fun b hb => hok b (by simp [hb])) hrest

/-- The state after a list of actions that meet the condition one after another. -/
def runWithin (m : Machine σ α) (ok : σ → α → Prop) [∀ s a, Decidable (ok s a)] (s : σ)
    (as : List α) : Option σ :=
  as.foldlM (fun s a => if ok s a then m.step s a else none) s

theorem Reach.runWithin {ok : σ → α → Prop} [∀ s a, Decidable (ok s a)] {s s' : σ} {as : List α}
    (h : m.Reach ok s) (hrun : m.runWithin ok s as = some s') : m.Reach ok s' := by
  induction as generalizing s with
  | nil =>
    simp only [Machine.runWithin, List.foldlM_nil, Option.pure_def, Option.some.injEq] at hrun
    subst hrun
    exact h
  | cons a as ih =>
    simp only [Machine.runWithin, List.foldlM_cons, Option.bind_eq_bind,
      Option.bind_eq_some_iff] at hrun
    obtain ⟨t, ht, hrest⟩ := hrun
    split_ifs at ht with hok
    exact ih (h.next hok ht) hrest

end Machine
