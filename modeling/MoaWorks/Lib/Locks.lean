-- Exclusive locks, each held by one transaction until it ends.
import Mathlib.Init

/-- Which transaction holds the lock of each key. -/
structure Locks (κ τ : Type*) where
  holder : κ → Option τ

namespace Locks

variable {κ τ : Type*}

def free : Locks κ τ := ⟨fun _ => none⟩

@[simp] theorem holder_free (k : κ) : (free : Locks κ τ).holder k = none := rfl

variable [DecidableEq τ]

/-- `t` has the lock or can take it: no other transaction holds it. -/
def open_to (l : Locks κ τ) (t : τ) (k : κ) : Bool := (l.holder k).all (fun u => decide (u = t))

theorem open_to_iff {l : Locks κ τ} {t : τ} {k : κ} :
    l.open_to t k = true ↔ ∀ u, l.holder k = some u → u = t := by
  simp [open_to, Option.all_eq_true]

/-- The end of a transaction: all its locks are free again. -/
def release (l : Locks κ τ) (t : τ) : Locks κ τ :=
  ⟨fun k => if l.holder k = some t then none else l.holder k⟩

theorem holder_release {l : Locks κ τ} {t u : τ} {k : κ} :
    (l.release t).holder k = some u ↔ l.holder k = some u ∧ u ≠ t := by
  unfold release
  by_cases h : l.holder k = some t
  · simp only [h, ↓reduceIte, reduceCtorEq, Option.some.injEq, false_iff]
    rintro ⟨rfl, hne⟩
    exact hne rfl
  · simp only [h, ↓reduceIte]
    constructor
    · intro hu
      refine ⟨hu, fun ht => h ?_⟩
      rw [hu, ht]
    · intro hu
      exact hu.1

variable [DecidableEq κ]

def take (l : Locks κ τ) (t : τ) (k : κ) : Locks κ τ :=
  ⟨fun j => if j = k then some t else l.holder j⟩

omit [DecidableEq τ] in
@[simp] theorem holder_take_self (l : Locks κ τ) (t : τ) (k : κ) :
    (l.take t k).holder k = some t := by
  simp [take]

omit [DecidableEq τ] in
theorem holder_take_ne (l : Locks κ τ) (t : τ) {k j : κ} (h : j ≠ k) :
    (l.take t k).holder j = l.holder j := by
  simp [take, h]

/-- Taking an open lock leaves the locks of the others as they are. -/
theorem holder_take_of_open {l : Locks κ τ} {t u : τ} {k j : κ} (h : l.open_to t k = true)
    (hu : l.holder j = some u) (hne : u ≠ t) : (l.take t k).holder j = some u := by
  have hj : j ≠ k := by
    rintro rfl
    exact hne (open_to_iff.1 h u hu)
  rw [holder_take_ne l t hj, hu]

end Locks
