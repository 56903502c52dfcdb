-- The order of the rows that `orderedBy` gives. The sort is stable, so the rows of a kind come in
-- one order, whatever rows stand between them.
import MoaWorks.Lib.Table

namespace Table

variable {κ ρ : Type*}

/-- What comes before the list goes before those that are not smaller. -/
theorem orderedInsert_stable {α : Type*} {r s : α → α → Prop} [DecidableRel r]
    (htotal : ∀ a b, r a b ∨ r b a) (htrans : ∀ a b c, r a b → r b c → r a c)
    {a : α} {l : List α} (hs : ∀ b ∈ l, s a b)
    (hl : l.Pairwise (fun a b => r a b ∧ (r b a → s a b))) :
    (l.orderedInsert r a).Pairwise (fun a b => r a b ∧ (r b a → s a b)) := by
  induction l with
  | nil => simp
  | cons b l ih =>
    rw [List.pairwise_cons] at hl
    by_cases hab : r a b
    · rw [List.orderedInsert_cons_of_le _ _ hab, List.pairwise_cons]
      refine ⟨fun c hc => ?_, List.pairwise_cons.2 hl⟩
      rcases List.mem_cons.1 hc with rfl | hc'
      · exact ⟨hab, fun _ => hs c List.mem_cons_self⟩
      · exact ⟨htrans _ _ _ hab (hl.1 c hc').1, fun _ => hs c hc⟩
    · rw [List.orderedInsert_of_not_le _ _ hab, List.pairwise_cons]
      refine ⟨fun c hc => ?_, ih (fun c hc => hs c (List.mem_cons_of_mem _ hc)) hl.2⟩
      rcases (List.mem_orderedInsert r).1 hc with rfl | hc
      · exact ⟨(htotal c b).resolve_left hab, fun h => absurd h hab⟩
      · exact hl.1 c hc

/-- Two elements of one rank keep their order. -/
theorem insertionSort_stable {α : Type*} {r s : α → α → Prop} [DecidableRel r]
    (htotal : ∀ a b, r a b ∨ r b a) (htrans : ∀ a b c, r a b → r b c → r a c)
    {l : List α} (hs : l.Pairwise s) :
    (l.insertionSort r).Pairwise (fun a b => r a b ∧ (r b a → s a b)) := by
  induction l with
  | nil => simp
  | cons a l ih =>
    rw [List.pairwise_cons] at hs
    rw [List.insertionSort_cons]
    refine orderedInsert_stable htotal htrans (fun b hb => ?_) (ih hs.2)
    exact hs.1 b ((List.mem_insertionSort r).1 hb)

/-- In the order of `orderedBy` a row comes before another one by its number, and by its key when
the numbers are equal. -/
theorem pairwise_orderedBy {κ : Type*} [LinearOrder κ] (t : Table κ ρ) (f : ρ → Nat) :
    (t.orderedBy f).Pairwise (fun a b => f a.2 ≤ f b.2 ∧ (f b.2 ≤ f a.2 → a.1 < b.1)) := by
  have hkeys : t.orderedKeys.Pairwise (· < ·) := by
    have hnodup : t.orderedKeys.Nodup := by
      rw [← Multiset.coe_nodup, orderedKeys_perm]
      exact t.keys.nodup
    have hsorted : t.orderedKeys.Pairwise (· ≤ ·) := by
      unfold orderedKeys
      generalize t.keys.val = keys
      induction keys using Quot.inductionOn with
      | h keys => exact List.pairwise_insertionSort _ keys
    exact (hsorted.and hnodup).imp (fun h => lt_of_le_of_ne h.1 h.2)
  unfold orderedBy
  refine insertionSort_stable (r := fun a b : κ × ρ => f a.2 ≤ f b.2)
    (s := fun a b : κ × ρ => a.1 < b.1) (fun a b => Nat.le_total _ _)
    (fun a b c => Nat.le_trans) ?_
  rw [List.pairwise_filterMap]
  refine hkeys.imp ?_
  intro k k' hlt b hb b' hb'
  obtain ⟨r, _, rfl⟩ := Option.map_eq_some_iff.1 hb
  obtain ⟨r', _, rfl⟩ := Option.map_eq_some_iff.1 hb'
  exact hlt

/-- The rows of a kind come in one order, whatever rows of other kinds stand between them. -/
theorem filter_orderedBy_congr {κ : Type*} [LinearOrder κ] {t t' : Table κ ρ} {f : ρ → Nat}
    {p : ρ → Bool} (h : ∀ k, (t.rows k).filter p = (t'.rows k).filter p) :
    (t.orderedBy f).filter (fun x => p x.2) = (t'.orderedBy f).filter (fun x => p x.2) := by
  have hmem : ∀ x, x ∈ (t.orderedBy f).filter (fun x => p x.2) ↔
      x ∈ (t'.orderedBy f).filter (fun x => p x.2) := by
    rintro ⟨k, r⟩
    rw [List.mem_filter, List.mem_filter, mem_orderedBy, mem_orderedBy,
      ← Option.filter_eq_some_iff, ← Option.filter_eq_some_iff, h]
  have hnodup : ∀ t : Table κ ρ, ((t.orderedBy f).filter (fun x => p x.2)).Nodup :=
    fun t => (List.Nodup.of_map _ (nodup_orderedBy t f)).filter _
  refine ((List.perm_ext_iff_of_nodup (hnodup t) (hnodup t')).2 hmem).eq_of_pairwise ?_
    ((pairwise_orderedBy t f).filter _) ((pairwise_orderedBy t' f).filter _)
  rintro a b _ _ ⟨hab, hab'⟩ ⟨hba, hba'⟩
  exact absurd (hab' hba) (lt_asymm (hba' hab))

end Table
