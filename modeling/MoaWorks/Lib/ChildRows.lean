-- Lists kept as child rows: one row for each position of a parent's list, counted from 1.
import Mathlib.Data.Finset.Sort
import Mathlib.Data.List.Infix
import Mathlib.Order.Interval.Finset.Nat
import MoaWorks.Lib.Table

namespace ChildRows

variable {κ ρ : Type*} [DecidableEq κ]

/-- `INSERT`s of a list, with positions from `n` on. -/
def insertFrom (t : Table (κ × Nat) ρ) (parent : κ) : Nat → List ρ → Table (κ × Nat) ρ
  | _, [] => t
  | n, r :: rs => insertFrom (t.set (parent, n) r) parent (n + 1) rs

/-- `DELETE … WHERE parent = …`. -/
def clear (t : Table (κ × Nat) ρ) (parent : κ) : Table (κ × Nat) ρ :=
  t.filter (fun k _ => decide (k.1 ≠ parent))

/-- The children of a parent are deleted, and a list is written in their place. -/
def replace (t : Table (κ × Nat) ρ) (parent : κ) (l : List ρ) : Table (κ × Nat) ρ :=
  insertFrom (clear t parent) parent 1 l

def positions (t : Table (κ × Nat) ρ) (parent : κ) : Finset Nat :=
  (t.select (fun k _ => decide (k.1 = parent))).image Prod.snd

/-- `SELECT … WHERE parent = … ORDER BY position`. -/
def children (t : Table (κ × Nat) ρ) (parent : κ) : List ρ :=
  ((positions t parent).sort (· ≤ ·)).filterMap (fun n => t.rows (parent, n))

theorem rows_clear (t : Table (κ × Nat) ρ) (parent k : κ) (n : Nat) :
    (clear t parent).rows (k, n) = if k = parent then none else t.rows (k, n) := by
  unfold clear
  rw [Table.rows_filter]
  split_ifs with hk
  · cases t.rows (k, n) <;> simp [hk]
  · cases t.rows (k, n) <;> simp [hk]

theorem rows_insertFrom_ne (parent : κ) {k : κ} (hk : k ≠ parent) (m : Nat) :
    ∀ (l : List ρ) (t : Table (κ × Nat) ρ) (n : Nat),
      (insertFrom t parent n l).rows (k, m) = t.rows (k, m)
  | [], _, _ => rfl
  | r :: rs, t, n => by
    rw [insertFrom, rows_insertFrom_ne parent hk m rs, Table.rows_set_ne]
    exact fun h => hk (Prod.ext_iff.1 h).1

theorem rows_insertFrom_lt (parent : κ) {m : Nat} :
    ∀ (l : List ρ) (t : Table (κ × Nat) ρ) (n : Nat), m < n →
      (insertFrom t parent n l).rows (parent, m) = t.rows (parent, m)
  | [], _, _, _ => rfl
  | r :: rs, t, n, h => by
    rw [insertFrom, rows_insertFrom_lt parent rs _ (n + 1) (by omega), Table.rows_set_ne]
    intro he
    have := (Prod.ext_iff.1 he).2
    omega

theorem rows_insertFrom_ge (parent : κ) (m : Nat) :
    ∀ (l : List ρ) (t : Table (κ × Nat) ρ) (n : Nat), (∀ j, t.rows (parent, n + j) = none) →
      (insertFrom t parent n l).rows (parent, n + m) = l[m]?
  | [], t, n, h => h m
  | r :: rs, t, n, h => by
    rw [insertFrom]
    cases m with
    | zero =>
      rw [rows_insertFrom_lt parent rs _ (n + 1) (by omega)]
      exact Table.rows_set_self ..
    | succ m =>
      have hstep := rows_insertFrom_ge parent m rs (t.set (parent, n) r) (n + 1) ?_
      · rw [List.getElem?_cons_succ, ← hstep, Nat.add_assoc, Nat.add_comm 1 m]
      · intro j
        rw [Table.rows_set_ne, Nat.add_assoc]
        · exact h _
        · intro he
          have := (Prod.ext_iff.1 he).2
          omega

/-- The rows of the parent after a replacement. -/
theorem rows_replace_self (t : Table (κ × Nat) ρ) (parent : κ) (l : List ρ) (n : Nat) :
    (replace t parent l).rows (parent, n) = if n = 0 then none else l[n - 1]? := by
  have hnone : ∀ n, (clear t parent).rows (parent, n) = none := fun n => by
    rw [rows_clear, if_pos rfl]
  unfold replace
  split_ifs with hn
  · rw [hn, rows_insertFrom_lt parent l _ 1 (by omega), hnone]
  · have h := rows_insertFrom_ge parent (n - 1) l (clear t parent) 1 (fun _ => hnone _)
    rwa [Nat.add_comm 1, Nat.sub_add_cancel (Nat.pos_of_ne_zero hn)] at h

theorem rows_replace_ne (t : Table (κ × Nat) ρ) {parent k : κ} (hk : k ≠ parent) (l : List ρ)
    (n : Nat) : (replace t parent l).rows (k, n) = t.rows (k, n) := by
  unfold replace
  rw [rows_insertFrom_ne parent hk, rows_clear, if_neg hk]

theorem mem_positions {t : Table (κ × Nat) ρ} {parent : κ} {n : Nat} :
    n ∈ positions t parent ↔ (t.rows (parent, n)).isSome = true := by
  unfold positions
  rw [Finset.mem_image]
  constructor
  · rintro ⟨⟨k, m⟩, hk, rfl⟩
    obtain ⟨r, hr, hp⟩ := (Table.mem_select ..).1 hk
    obtain rfl : k = parent := of_decide_eq_true hp
    rw [hr]
    rfl
  · intro h
    obtain ⟨r, hr⟩ := Option.isSome_iff_exists.1 h
    exact ⟨(parent, n), (Table.mem_select ..).2 ⟨r, hr, decide_eq_true rfl⟩, rfl⟩

/-- The children depend on the rows of the parent only. -/
theorem children_congr {t t' : Table (κ × Nat) ρ} {parent : κ}
    (h : ∀ n, t.rows (parent, n) = t'.rows (parent, n)) : children t parent = children t' parent := by
  have hpositions : positions t parent = positions t' parent := by
    ext n
    rw [mem_positions, mem_positions, h]
  unfold children
  rw [hpositions]
  exact List.filterMap_congr fun n _ => h n

theorem children_replace_ne (t : Table (κ × Nat) ρ) {parent k : κ} (hk : k ≠ parent)
    (l : List ρ) : children (replace t parent l) k = children t k :=
  children_congr (rows_replace_ne t hk l)

theorem sort_Icc (n : Nat) : (Finset.Icc 1 n).sort (· ≤ ·) = List.range' 1 n := by
  have hperm : ((Finset.Icc 1 n).sort (· ≤ ·)).Perm (List.range' 1 n) := by
    refine (List.perm_ext_iff_of_nodup (Finset.sort_nodup ..) (List.nodup_range' ..)).2 fun a => ?_
    rw [Finset.mem_sort, Finset.mem_Icc, List.mem_range'_1]
    omega
  exact hperm.eq_of_pairwise (fun a b _ _ => le_antisymm) (Finset.pairwise_sort ..)
    (List.pairwise_le_range' ..)

theorem filterMap_range' {f : Nat → Option ρ} :
    ∀ (l : List ρ) (n : Nat), (∀ i, f (n + i) = l[i]?) → (List.range' n l.length).filterMap f = l
  | [], _, _ => rfl
  | r :: rs, n, h => by
    have hhead : f n = some r := h 0
    have htail := filterMap_range' rs (n + 1) fun i => by
      rw [Nat.add_right_comm, Nat.add_assoc]
      exact h (i + 1)
    rw [List.length_cons, List.range'_succ, List.filterMap_cons_some hhead, htail]

/-- What has been written as a list is read back as that list. -/
theorem children_replace_self (t : Table (κ × Nat) ρ) (parent : κ) (l : List ρ) :
    children (replace t parent l) parent = l := by
  have hpositions : positions (replace t parent l) parent = Finset.Icc 1 l.length := by
    ext n
    rw [mem_positions, rows_replace_self, Finset.mem_Icc]
    split_ifs with hn
    · simp [hn]
    · rw [Option.isSome_iff_ne_none, ne_eq, List.getElem?_eq_none_iff]
      omega
  unfold children
  rw [hpositions, sort_Icc]
  refine filterMap_range' l 1 fun i => ?_
  rw [rows_replace_self, if_neg (by omega), Nat.add_sub_cancel_left]

end ChildRows
