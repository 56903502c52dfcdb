-- Sums over the rows of a table, and what a write does to them.
import Mathlib.Algebra.BigOperators.Group.Finset.Basic
import Mathlib.Algebra.Order.BigOperators.Group.Finset
import MoaWorks.Lib.Table

namespace Table

variable {κ ρ : Type*} [DecidableEq κ]

/-- What one key gives to a sum. -/
def share (t : Table κ ρ) (f : κ → ρ → Nat) (k : κ) : Nat := ((t.rows k).map (f k)).getD 0

/-- SELECT SUM(f) over the rows. -/
def total (t : Table κ ρ) (f : κ → ρ → Nat) : Nat := ∑ k ∈ t.keys, t.share f k

omit [DecidableEq κ] in
theorem share_of_none {t : Table κ ρ} {k : κ} (h : t.rows k = none) (f : κ → ρ → Nat) :
    t.share f k = 0 := by
  unfold share
  rw [h]
  rfl

omit [DecidableEq κ] in
theorem share_of_some {t : Table κ ρ} {k : κ} {r : ρ} (h : t.rows k = some r)
    (f : κ → ρ → Nat) : t.share f k = f k r := by
  unfold share
  rw [h]
  rfl

/-- A sum over more keys than hold a row. -/
theorem total_eq_sum (t : Table κ ρ) (f : κ → ρ → Nat) {s : Finset κ} (h : t.keys ⊆ s) :
    t.total f = ∑ k ∈ s, t.share f k := by
  refine Finset.sum_subset h (fun k _ hk => share_of_none ?_ f)
  rw [t.mem_keys] at hk
  exact Option.not_isSome_iff_eq_none.1 hk

/-- A write changes a sum by the new row less the row that it replaces. -/
theorem total_set (t : Table κ ρ) (k : κ) (r : ρ) (f : κ → ρ → Nat) :
    (t.set k r).total f + t.share f k = t.total f + f k r := by
  have hkeys : (t.set k r).keys = insert k t.keys := rfl
  have hnew : (t.set k r).total f = ∑ j ∈ insert k t.keys, (t.set k r).share f j := by
    unfold total
    rw [hkeys]
  rw [hnew, total_eq_sum t f (Finset.subset_insert k t.keys),
    ← Finset.add_sum_erase _ _ (Finset.mem_insert_self k t.keys),
    ← Finset.add_sum_erase _ (fun j => t.share f j) (Finset.mem_insert_self k t.keys)]
  have hrest : ∑ j ∈ (insert k t.keys).erase k, (t.set k r).share f j =
      ∑ j ∈ (insert k t.keys).erase k, t.share f j := by
    refine Finset.sum_congr rfl (fun j hj => ?_)
    unfold share
    rw [rows_set_ne t r (Finset.ne_of_mem_erase hj)]
  rw [hrest, share_of_some (rows_set_self t k r)]
  omega

/-- A write that gives the key no less. -/
theorem total_set_le {t : Table κ ρ} {k : κ} {r : ρ} {f : κ → ρ → Nat} (h : t.share f k ≤ f k r) :
    t.total f ≤ (t.set k r).total f := by
  have := total_set t k r f
  omega

theorem total_le_of_share {t t' : Table κ ρ} {f : κ → ρ → Nat}
    (h : ∀ k, t'.share f k ≤ t.share f k) : t'.total f ≤ t.total f := by
  rw [total_eq_sum t f Finset.subset_union_left, total_eq_sum t' f Finset.subset_union_right]
  exact Finset.sum_le_sum (fun k _ => h k)

theorem total_lt_of_share {t t' : Table κ ρ} {f : κ → ρ → Nat}
    (h : ∀ k, t'.share f k ≤ t.share f k) {k : κ} (hk : t'.share f k < t.share f k) :
    t'.total f < t.total f := by
  have hmem : k ∈ t.keys := by
    rw [t.mem_keys]
    by_contra hnone
    rw [share_of_none (Option.not_isSome_iff_eq_none.mp hnone)] at hk
    exact Nat.not_lt_zero _ hk
  rw [total_eq_sum t f Finset.subset_union_left, total_eq_sum t' f Finset.subset_union_right]
  exact Finset.sum_lt_sum (fun j _ => h j) ⟨k, Finset.mem_union_left _ hmem, hk⟩

end Table
