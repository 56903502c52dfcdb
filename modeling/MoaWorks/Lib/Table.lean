-- Tables of a database: rows under their primary keys. Only finitely many
-- keys hold a row, so a table can be counted.
import Mathlib.Data.Finset.Card
import Mathlib.Data.Finset.Sort
import Mathlib.Data.Finset.Union
import Mathlib.Tactic.Basic
import Mathlib.Tactic.SplitIfs

/-- `a = b` of SQL in a WHERE clause: a NULL on either side does not match. -/
def sqlEq {α : Type*} [DecidableEq α] : Option α → Option α → Bool
  | some a, some b => decide (a = b)
  | _, _ => false

theorem sqlEq_iff {α : Type*} [DecidableEq α] {a b : Option α} :
    sqlEq a b = true ↔ ∃ x, a = some x ∧ b = some x := by
  cases a <;> cases b <;> simp [sqlEq, eq_comm]

/-- A table: the row of each key, and the finite set of keys that hold one. -/
structure Table (κ ρ : Type*) where
  rows : κ → Option ρ
  keys : Finset κ
  mem_keys : ∀ k, k ∈ keys ↔ (rows k).isSome

namespace Table

variable {κ ρ : Type*}

/-- Two tables with the same rows are the same table. -/
theorem ext_rows {s t : Table κ ρ} (h : ∀ k, s.rows k = t.rows k) : s = t := by
  obtain ⟨r, ks, hk⟩ := s
  obtain ⟨r', ks', hk'⟩ := t
  obtain rfl : r = r' := funext h
  obtain rfl : ks = ks' := by
    ext k
    rw [hk, hk']
  rfl

def empty : Table κ ρ := ⟨fun _ => none, ∅, by simp⟩

@[simp] theorem rows_empty (k : κ) : (empty : Table κ ρ).rows k = none := rfl

variable [DecidableEq κ]

/-- Writes the row of one key: INSERT for a new key, UPDATE for a key that holds a row. -/
def set (t : Table κ ρ) (k : κ) (r : ρ) : Table κ ρ where
  rows := fun j => if j = k then some r else t.rows j
  keys := insert k t.keys
  mem_keys := by
    intro j
    by_cases h : j = k
    · simp [h]
    · simp [h, t.mem_keys]

theorem rows_set (t : Table κ ρ) (k j : κ) (r : ρ) :
    (t.set k r).rows j = if j = k then some r else t.rows j := rfl

@[simp] theorem rows_set_self (t : Table κ ρ) (k : κ) (r : ρ) :
    (t.set k r).rows k = some r := by simp [rows_set]

theorem rows_set_ne (t : Table κ ρ) {k j : κ} (r : ρ) (h : j ≠ k) :
    (t.set k r).rows j = t.rows j := by simp [rows_set, h]

omit [DecidableEq κ] in
/-- UPDATE with a WHERE clause: `f` on every row that `p` selects. -/
def update (t : Table κ ρ) (p : κ → ρ → Bool) (f : ρ → ρ) : Table κ ρ where
  rows := fun k => (t.rows k).map (fun r => if p k r then f r else r)
  keys := t.keys
  mem_keys := by simp [t.mem_keys]

omit [DecidableEq κ] in
@[simp] theorem rows_update (t : Table κ ρ) (p : κ → ρ → Bool) (f : ρ → ρ) (k : κ) :
    (t.update p f).rows k = (t.rows k).map (fun r => if p k r then f r else r) := rfl

omit [DecidableEq κ] in
/-- The keys of the rows that `p` selects. -/
def select (t : Table κ ρ) (p : κ → ρ → Bool) : Finset κ :=
  t.keys.filter (fun k => (t.rows k).any (p k))

omit [DecidableEq κ] in
theorem mem_select (t : Table κ ρ) (p : κ → ρ → Bool) (k : κ) :
    k ∈ t.select p ↔ ∃ r, t.rows k = some r ∧ p k r = true := by
  simp only [select, Finset.mem_filter, t.mem_keys, Option.any_eq_true]
  constructor
  · rintro ⟨_, r, hr, hp⟩
    exact ⟨r, hr, hp⟩
  · rintro ⟨r, hr, hp⟩
    exact ⟨by simp [hr], r, hr, hp⟩

/-- SELECT … ORDER BY the key. -/
def selectOrdered {κ : Type*} [LinearOrder κ] (t : Table κ ρ) (p : κ → ρ → Bool) : List κ :=
  (t.select p).sort (· ≤ ·)

/-- The keys in their order, by a sort that the kernel can evaluate. -/
def orderedKeys {κ : Type*} [LinearOrder κ] (t : Table κ ρ) : List κ :=
  Quot.liftOn t.keys.val (fun keys => keys.insertionSort (· ≤ ·)) (fun keys keys' h =>
    (((List.perm_insertionSort _ keys).trans h).trans
      (List.perm_insertionSort _ keys').symm).eq_of_pairwise' (List.pairwise_insertionSort _ keys)
        (List.pairwise_insertionSort _ keys'))

theorem orderedKeys_perm {κ : Type*} [LinearOrder κ] (t : Table κ ρ) :
    (↑t.orderedKeys : Multiset κ) = t.keys.val := by
  unfold orderedKeys
  generalize t.keys.val = keys
  induction keys using Quot.inductionOn with
  | h keys => exact Multiset.coe_eq_coe.2 (List.perm_insertionSort _ keys)

theorem mem_orderedKeys {κ : Type*} [LinearOrder κ] {t : Table κ ρ} {k : κ} :
    k ∈ t.orderedKeys ↔ (t.rows k).isSome := by
  rw [← t.mem_keys, ← Finset.mem_val, ← orderedKeys_perm, Multiset.mem_coe]

/-- SELECT … ORDER BY a number in the row. Rows with one number come in the order of their keys. -/
def orderedBy {κ : Type*} [LinearOrder κ] (t : Table κ ρ) (f : ρ → Nat) : List (κ × ρ) :=
  (t.orderedKeys.filterMap (fun k => (t.rows k).map (fun r => (k, r)))).insertionSort
    (fun a b => f a.2 ≤ f b.2)

theorem mem_orderedBy {κ : Type*} [LinearOrder κ] {t : Table κ ρ} {f : ρ → Nat} {k : κ} {r : ρ} :
    (k, r) ∈ t.orderedBy f ↔ t.rows k = some r := by
  unfold orderedBy
  rw [List.mem_insertionSort, List.mem_filterMap]
  constructor
  · rintro ⟨j, _, hj⟩
    rw [Option.map_eq_some_iff] at hj
    obtain ⟨r', hr', heq⟩ := hj
    cases heq
    exact hr'
  · intro h
    exact ⟨k, mem_orderedKeys.2 (by simp [h]), by simp [h]⟩

/-- Each key comes once in the order. -/
theorem nodup_orderedBy {κ : Type*} [LinearOrder κ] (t : Table κ ρ) (f : ρ → Nat) :
    ((t.orderedBy f).map Prod.fst).Nodup := by
  unfold orderedBy
  rw [((List.perm_insertionSort _ _).map Prod.fst).nodup_iff]
  have hsub : ∀ l : List κ, ((l.filterMap (fun k => (t.rows k).map (fun r => (k, r)))).map
      Prod.fst).Sublist l := by
    intro l
    induction l with
    | nil => simp
    | cons k l ih =>
      cases hk : t.rows k with
      | none =>
        simp only [List.filterMap_cons, hk, Option.map_none]
        exact ih.cons k
      | some r =>
        simp only [List.filterMap_cons, hk, Option.map_some, List.map_cons]
        exact ih.cons_cons k
  have hnodup : t.orderedKeys.Nodup := by
    rw [← Multiset.coe_nodup, orderedKeys_perm]
    exact t.keys.nodup
  exact (hsub _).nodup hnodup

omit [DecidableEq κ] in
/-- Other columns of the same rows. -/
def map {σ : Type*} (t : Table κ ρ) (f : ρ → σ) : Table κ σ where
  rows := fun k => (t.rows k).map f
  keys := t.keys
  mem_keys := by simp [t.mem_keys]

omit [DecidableEq κ] in
@[simp] theorem rows_map {σ : Type*} (t : Table κ ρ) (f : ρ → σ) (k : κ) :
    (t.map f).rows k = (t.rows k).map f := rfl

/-- The key holds no row any more. -/
def erase (t : Table κ ρ) (k : κ) : Table κ ρ where
  rows := fun j => if j = k then none else t.rows j
  keys := t.keys.erase k
  mem_keys := by
    intro j
    by_cases h : j = k
    · simp [h]
    · simp [h, t.mem_keys]

theorem rows_erase (t : Table κ ρ) (k j : κ) :
    (t.erase k).rows j = if j = k then none else t.rows j := rfl

theorem rows_erase_eq_some {t : Table κ ρ} {k j : κ} {r : ρ} :
    (t.erase k).rows j = some r ↔ j ≠ k ∧ t.rows j = some r := by
  rw [rows_erase]
  split_ifs with h
  · simp [h]
  · simp [h]

omit [DecidableEq κ] in
/-- DELETE of the rows that `p` does not keep. -/
def filter (t : Table κ ρ) (p : κ → ρ → Bool) : Table κ ρ where
  rows := fun k => (t.rows k).filter (p k)
  keys := t.select p
  mem_keys := by
    intro k
    rw [mem_select]
    cases t.rows k <;> simp

omit [DecidableEq κ] in
@[simp] theorem rows_filter (t : Table κ ρ) (p : κ → ρ → Bool) (k : κ) :
    (t.filter p).rows k = (t.rows k).filter (p k) := rfl

/-- INSERT … SELECT … ON CONFLICT DO NOTHING: one row under each of the keys that hold none. -/
def insertAll (t : Table κ ρ) (ks : Finset κ) (r : ρ) : Table κ ρ where
  rows := fun k => (t.rows k).or (if k ∈ ks then some r else none)
  keys := t.keys ∪ ks
  mem_keys := by
    intro k
    rw [Finset.mem_union, t.mem_keys]
    by_cases h : k ∈ ks
    · cases t.rows k <;> simp [h]
    · simp [h]

@[simp] theorem rows_insertAll (t : Table κ ρ) (ks : Finset κ) (r : ρ) (k : κ) :
    (t.insertAll ks r).rows k = (t.rows k).or (if k ∈ ks then some r else none) := rfl

/-- The rows of `p` over those of `t`. -/
def overlay (t p : Table κ ρ) : Table κ ρ where
  rows := fun k => (p.rows k).or (t.rows k)
  keys := t.keys ∪ p.keys
  mem_keys := by
    intro k
    rw [Finset.mem_union, t.mem_keys, p.mem_keys]
    cases p.rows k <;> simp

@[simp] theorem rows_overlay (t p : Table κ ρ) (k : κ) :
    (t.overlay p).rows k = (p.rows k).or (t.rows k) := rfl

theorem overlay_empty (t : Table κ ρ) : t.overlay empty = t := by
  apply ext_rows
  intro k
  simp

theorem overlay_set (t p : Table κ ρ) (k : κ) (r : ρ) :
    t.overlay (p.set k r) = (t.overlay p).set k r := by
  apply ext_rows
  intro j
  rw [rows_overlay, rows_set, rows_set, rows_overlay]
  split_ifs with h
  · rfl
  · rfl

/-- Two overlays that share no key can be laid over a table in any order. -/
theorem overlay_comm (t : Table κ ρ) {p q : Table κ ρ}
    (h : ∀ k, p.rows k = none ∨ q.rows k = none) :
    (t.overlay p).overlay q = (t.overlay q).overlay p := by
  apply ext_rows
  intro k
  simp only [rows_overlay]
  rcases h k with hp | hq
  · simp [hp]
  · simp [hq]

end Table
