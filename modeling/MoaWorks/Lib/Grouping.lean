-- Queries over tables: what they collect from the rows, and the groups that they count.
import Mathlib.Data.Multiset.Bind
import Mathlib.Data.Finset.Card
import MoaWorks.Lib.Table

namespace Table

variable {κ ρ β : Type*}

/-- SELECT with FROM a table: what `f` makes of each row that it takes. -/
def collect (t : Table κ ρ) (f : κ → ρ → Option β) : Multiset β :=
  t.keys.val.filterMap (fun k => (t.rows k).bind (f k))

theorem mem_collect {t : Table κ ρ} {f : κ → ρ → Option β} {b : β} :
    b ∈ t.collect f ↔ ∃ k r, t.rows k = some r ∧ f k r = some b := by
  unfold collect
  rw [Multiset.mem_filterMap]
  constructor
  · rintro ⟨k, -, hb⟩
    obtain ⟨r, hr, hf⟩ := Option.bind_eq_some_iff.mp hb
    exact ⟨k, r, hr, hf⟩
  · rintro ⟨k, r, hr, hf⟩
    have hk : k ∈ t.keys := (t.mem_keys k).mpr (by rw [hr]; rfl)
    exact ⟨k, hk, Option.bind_eq_some_iff.mpr ⟨r, hr, hf⟩⟩

/-- A query that shows the key of each row shows no key twice. -/
theorem nodup_map_collect {t : Table κ ρ} {f : κ → ρ → Option β} {g : β → κ}
    (h : ∀ k r b, f k r = some b → g b = k) : ((t.collect f).map g).Nodup := by
  unfold collect
  rw [Multiset.map_filterMap]
  refine Multiset.Nodup.filterMap _ (fun k k' b hb hb' => ?_) t.keys.nodup
  obtain ⟨c, hc, rfl⟩ := Option.map_eq_some_iff.mp hb
  obtain ⟨c', hc', heq⟩ := Option.map_eq_some_iff.mp hb'
  obtain ⟨r, -, hr⟩ := Option.bind_eq_some_iff.mp hc
  obtain ⟨r', -, hr'⟩ := Option.bind_eq_some_iff.mp hc'
  rw [← h k r c hr, ← heq, h k' r' c' hr']

end Table

namespace Grouping

variable {α β γ : Type*} [DecidableEq γ]

/-- The groups of a GROUP BY. -/
def groups (s : Multiset α) (g : α → γ) : Finset γ := (s.map g).toFinset

theorem mem_groups {s : Multiset α} {g : α → γ} {c : γ} :
    c ∈ groups s g ↔ ∃ a ∈ s, g a = c := by
  rw [groups, Multiset.mem_toFinset, Multiset.mem_map]

/-- Two queries with the same groups count as many. -/
theorem groups_congr {s : Multiset α} {t : Multiset β} {g : α → γ} {h : β → γ}
    (hst : ∀ c, (∃ a ∈ s, g a = c) ↔ ∃ b ∈ t, h b = c) : groups s g = groups t h := by
  ext c
  rw [mem_groups, mem_groups, hst]

theorem card_groups_eq_zero {s : Multiset α} {g : α → γ} : (groups s g).card = 0 ↔ s = 0 := by
  rw [Finset.card_eq_zero, groups, Multiset.toFinset_eq_empty, Multiset.map_eq_zero]

end Grouping
