-- Parent pointers: each node has at most one parent. What moving one node
-- under another does to their order.
import Mathlib.Logic.Function.Basic
import Mathlib.Logic.Relation

namespace Forest

variable {κ : Type*}

/-- `b` is the parent of `a`. -/
def Step (parent : κ → Option κ) (a b : κ) : Prop := parent a = some b

/-- `b` stands above `a`, at any distance. -/
def Below (parent : κ → Option κ) : κ → κ → Prop := Relation.TransGen (Step parent)

/-- No node stands above itself. -/
def Acyclic (parent : κ → Option κ) : Prop := ∀ a, ¬ Below parent a a

variable {parent : κ → Option κ} {a b x : κ} {new : Option κ}

theorem not_below_of_leaf (h : ∀ c, parent c ≠ some b) : ¬ Below parent a b := by
  intro hbelow
  obtain ⟨c, _, hstep⟩ := Relation.TransGen.tail'_iff.1 hbelow
  exact h c hstep

/-- The parent of a node is not below it. -/
theorem Acyclic.parent_not_below (h : Acyclic parent) (hstep : parent a = some b) :
    b ≠ a ∧ ¬ Below parent b a := by
  constructor
  · rintro rfl
    exact h b (.single hstep)
  · intro hbelow
    exact h a (Relation.TransGen.head hstep hbelow)

variable [DecidableEq κ]

/-- A way up after `x` was moved is an old one, or it leads up to `x` and goes
on from the new parent. -/
theorem below_update (h : Below (Function.update parent x new) a b) :
    Below parent a b ∨ Relation.ReflTransGen (Step parent) a x ∧
      ∃ y, new = some y ∧ Relation.ReflTransGen (Step parent) y b := by
  induction h with
  | @single b hstep =>
    unfold Step at hstep
    by_cases ha : a = x
    · subst ha
      rw [Function.update_self] at hstep
      exact Or.inr ⟨.refl, b, hstep, .refl⟩
    · rw [Function.update_of_ne ha] at hstep
      exact Or.inl (.single hstep)
  | @tail b c _ hstep ih =>
    unfold Step at hstep
    by_cases hb : b = x
    · subst hb
      rw [Function.update_self] at hstep
      refine Or.inr ⟨?_, c, hstep, .refl⟩
      rcases ih with hold | ⟨hup, _⟩
      · exact hold.to_reflTransGen
      · exact hup
    · rw [Function.update_of_ne hb] at hstep
      rcases ih with hold | ⟨hup, y, hnew, hy⟩
      · exact Or.inl (hold.tail hstep)
      · exact Or.inr ⟨hup, y, hnew, hy.tail hstep⟩

/-- A way up to `x` does not use the edge of `x`. -/
theorem reflTransGen_update (hacyclic : Acyclic parent) (h : Relation.ReflTransGen (Step parent) a x) :
    Relation.ReflTransGen (Step (Function.update parent x new)) a x := by
  induction h using Relation.ReflTransGen.head_induction_on with
  | refl => exact .refl
  | head hstep hrest ih =>
    rename_i c d
    have hne : c ≠ x := by
      rintro rfl
      exact hacyclic c (Relation.TransGen.head' hstep hrest)
    refine .head ?_ ih
    unfold Step
    rw [Function.update_of_ne hne]
    exact hstep

/-- Moving a node under a parent keeps the order exactly when that parent is
neither the node itself nor below it. -/
theorem acyclic_update_iff (hacyclic : Acyclic parent) :
    Acyclic (Function.update parent x new) ↔ ∀ y, new = some y → y ≠ x ∧ ¬ Below parent y x := by
  constructor
  · rintro h y rfl
    have hedge : Step (Function.update parent x (some y)) x y := Function.update_self _ _ _
    constructor
    · rintro rfl
      exact h y (.single hedge)
    · intro hbelow
      have hup : Relation.ReflTransGen (Step (Function.update parent x (some y))) y x :=
        reflTransGen_update hacyclic hbelow.to_reflTransGen
      exact h x (Relation.TransGen.head' hedge hup)
  · intro h a hcycle
    rcases below_update hcycle with hold | ⟨hup, y, hnew, hy⟩
    · exact hacyclic a hold
    · obtain ⟨hne, hbelow⟩ := h y hnew
      rcases Relation.reflTransGen_iff_eq_or_transGen.1 (hy.trans hup) with heq | htrans
      · exact hne heq.symm
      · exact hbelow htrans

end Forest
