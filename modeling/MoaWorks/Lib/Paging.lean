-- Paging with a cursor: each call goes on strictly before the time of the last item that the call
-- before it has shown. Whether all items are shown is decided at the borders of the pages.
import Mathlib.Algebra.Order.Group.Multiset
import Mathlib.Data.Multiset.Filter
import Mathlib.Data.Multiset.Sort

namespace Paging

variable {α : Type*}

/-! ## Calls that go on -/

section Calls

variable (call : Option Nat → List α → Option Nat → Prop)

/-- The pages of calls, each with the cursor of the one before it, until one gives no cursor. -/
inductive Run : Option Nat → List (List α) → Prop
  | last {cursor : Option Nat} {page : List α} : call cursor page none → Run cursor [page]
  | next {cursor : Option Nat} {page : List α} {t : Nat} {pages : List (List α)} :
    call cursor page (some t) → Run (some t) pages → Run cursor (page :: pages)

/-- No calls go on for ever. -/
def Ends (cursor : Option Nat) : Prop :=
  Acc (fun later earlier => ∃ page t, call earlier page (some t) ∧ later = some t) cursor

variable {call}

theorem exists_run (htotal : ∀ cursor, ∃ page next, call cursor page next) {cursor : Option Nat}
    (h : Ends call cursor) : ∃ pages, Run call cursor pages := by
  induction h with
  | intro cursor _ ih =>
    obtain ⟨page, next, hcall⟩ := htotal cursor
    cases next with
    | none => exact ⟨[page], .last hcall⟩
    | some t =>
      obtain ⟨pages, hpages⟩ := ih (some t) ⟨page, t, hcall, rfl⟩
      exact ⟨page :: pages, .next hcall hpages⟩

variable {call' : Option Nat → List α → Option Nat → Prop}

theorem Run.mono (h : ∀ cursor page next, call cursor page next → call' cursor page next)
    {cursor : Option Nat} {pages : List (List α)} (hrun : Run call cursor pages) :
    Run call' cursor pages := by
  induction hrun with
  | last hcall => exact .last (h _ _ _ hcall)
  | next hcall _ ih => exact .next (h _ _ _ hcall) ih

theorem Run.forall {p : List α → Prop} (h : ∀ cursor page next, call cursor page next → p page)
    {cursor : Option Nat} {pages : List (List α)} (hrun : Run call cursor pages) :
    ∀ page ∈ pages, p page := by
  induction hrun with
  | last hcall =>
    intro page hpage
    rw [List.mem_singleton.mp hpage]
    exact h _ _ _ hcall
  | next hcall _ ih =>
    intro page hpage
    rcases List.mem_cons.mp hpage with rfl | hlater
    · exact h _ _ _ hcall
    · exact ih page hlater

/-! Calls that show their pages in another form. -/

variable {β : Type*} {shown : Option Nat → List β → Option Nat → Prop} {f : List α → List β}

theorem run_map (h : ∀ cursor page next,
    shown cursor page next → ∃ page', call cursor page' next ∧ page = f page')
    {cursor : Option Nat} {pages : List (List β)} (hrun : Run shown cursor pages) :
    ∃ pages', Run call cursor pages' ∧ pages = pages'.map f := by
  induction hrun with
  | last hcall =>
    obtain ⟨page', hcall', rfl⟩ := h _ _ _ hcall
    exact ⟨[page'], .last hcall', rfl⟩
  | next hcall _ ih =>
    obtain ⟨page', hcall', rfl⟩ := h _ _ _ hcall
    obtain ⟨pages', hrun', rfl⟩ := ih
    exact ⟨page' :: pages', .next hcall' hrun', rfl⟩

theorem ends_map (h : ∀ cursor page next,
    shown cursor page next → ∃ page', call cursor page' next ∧ page = f page')
    {cursor : Option Nat} (hends : Ends call cursor) : Ends shown cursor := by
  induction hends with
  | intro cursor _ ih =>
    refine Acc.intro cursor (fun later hlater => ?_)
    obtain ⟨page, t, hcall, rfl⟩ := hlater
    obtain ⟨page', hcall', rfl⟩ := h _ _ _ hcall
    exact ih (some t) ⟨page', t, hcall', rfl⟩

end Calls

/-! ## Listings -/

section Listings

variable (time : α → Nat)

/-- ORDER BY time DESC: items of one time come in any order. -/
def IsListing (s : Multiset α) (l : List α) : Prop :=
  (l : Multiset α) = s ∧ l.Pairwise (fun a b => time b ≤ time a)

/-- What is strictly before the cursor. -/
def rest (s : Multiset α) (cursor : Option Nat) : Multiset α :=
  s.filter (fun a => cursor.all (fun t => decide (time a < t)) = true)

/-- The times of the items, latest first. -/
def times (s : Multiset α) : List Nat := (s.map time).sort (· ≥ ·)

/-- A page of at most so many items, and the time of the last one when there are more. -/
def Pages (s : Multiset α) (allowed : Nat → Prop) (cursor : Option Nat) (page : List α)
    (next : Option Nat) : Prop :=
  ∃ limit l, allowed limit ∧ IsListing time (rest time s cursor) l ∧ page = l.take limit ∧
    next = if limit < l.length then page.getLast?.map time else none

/-- No two items on both sides of a border between pages of `n` have the same time. -/
def Separated (n : Nat) (ts : List Nat) : Prop :=
  ∀ k a b, 0 < k → ts[k * n - 1]? = some a → ts[k * n]? = some b → b < a

variable {time} {s : Multiset α} {l : List α} {cursor : Option Nat} {t : Nat}

theorem exists_listing (s : Multiset α) : ∃ l, IsListing time s l := by
  obtain ⟨l, rfl⟩ := Quot.exists_rep s
  have : Std.Total (fun a b => time b ≤ time a) := ⟨fun a b => Nat.le_total (time b) (time a)⟩
  have : IsTrans α (fun a b => time b ≤ time a) := ⟨fun a b c hab hbc => Nat.le_trans hbc hab⟩
  exact ⟨l.insertionSort (fun a b => time b ≤ time a),
    Multiset.coe_eq_coe.mpr (List.perm_insertionSort _ l), List.pairwise_insertionSort _ l⟩

theorem IsListing.times (h : IsListing time s l) : times time s = l.map time := by
  unfold Paging.times
  refine List.Perm.eq_of_pairwise' (r := (· ≥ ·)) (Multiset.pairwise_sort _ _)
    (List.pairwise_map.mpr h.2) ?_
  rw [← Multiset.coe_eq_coe, Multiset.sort_eq, ← h.1, Multiset.map_coe]

@[simp] theorem rest_none (s : Multiset α) : rest time s none = s := by simp [rest]

theorem mem_rest {a : α} : a ∈ rest time s (some t) ↔ a ∈ s ∧ time a < t := by
  simp [rest]

theorem rest_le (s : Multiset α) (cursor : Option Nat) : rest time s cursor ≤ s :=
  Multiset.filter_le _ s

/-- After a page, what is left is what of the rest of the listing is earlier than its last item. -/
theorem rest_after (h : IsListing time (rest time s cursor) l) {n : Nat} {a : α}
    (ha : (l.take n).getLast? = some a) :
    rest time s (some (time a)) = ((l.drop n).filter (fun b => decide (time b < time a)) : List α) := by
  have hmem : a ∈ rest time s cursor := by
    rw [← h.1]
    exact List.mem_of_mem_take (List.mem_of_getLast? ha)
  have hearlier : rest time s (some (time a)) =
      (rest time s cursor).filter (fun b => time b < time a) := by
    unfold rest
    rw [Multiset.filter_filter]
    refine Multiset.filter_congr (fun b _ => ?_)
    cases cursor with
    | none => simp
    | some c =>
      have hac := (mem_rest.mp hmem).2
      simp only [Option.all_some, decide_eq_true_eq]
      omega
  have hpage : (l.take n).filter (fun b => decide (time b < time a)) = [] := by
    rw [List.filter_eq_nil_iff]
    intro b hb
    obtain ⟨front, hfront⟩ := List.getLast?_eq_some_iff.mp ha
    have hsorted := h.2.sublist (List.take_sublist n l)
    rw [hfront] at hsorted hb
    simp only [decide_eq_true_eq, Nat.not_lt]
    rcases List.mem_append.mp hb with hb | hb
    · exact (List.pairwise_append.mp hsorted).2.2 b hb a (List.mem_singleton_self a)
    · rw [List.mem_singleton.mp hb]
  have hsplit : l.filter (fun b => decide (time b < time a)) =
      (l.drop n).filter (fun b => decide (time b < time a)) := by
    conv_lhs => rw [← List.take_append_drop n l, List.filter_append, hpage, List.nil_append]
  rw [hearlier, ← h.1, Multiset.filter_coe, hsplit]

theorem exists_last {n : Nat} (hn : 0 < n) (hlong : n < l.length) :
    ∃ a, (l.take n).getLast? = some a ∧ l[n - 1]? = some a := by
  have hindex : n - 1 < l.length := by omega
  refine ⟨l[n - 1], ?_, List.getElem?_eq_getElem hindex⟩
  rw [List.getLast?_eq_getElem?, List.length_take, Nat.min_eq_left (Nat.le_of_lt hlong),
    List.getElem?_take_of_lt (by omega), List.getElem?_eq_getElem hindex]

/-! ## Runs over pages -/

variable {allowed : Nat → Prop}

theorem pages_total (hsome : ∃ n, allowed n) (cursor : Option Nat) :
    ∃ page next, Pages time s allowed cursor page next := by
  obtain ⟨n, hn⟩ := hsome
  obtain ⟨l, hl⟩ : ∃ l, IsListing time (rest time s cursor) l := exists_listing _
  exact ⟨_, _, n, l, hn, hl, rfl, rfl⟩

/-- What a page with a cursor is, and what it leaves. -/
theorem pages_some (hpos : ∀ n, allowed n → 0 < n) {page : List α}
    (h : Pages time s allowed cursor page (some t)) : ∃ n l a, allowed n ∧
      IsListing time (rest time s cursor) l ∧ page = l.take n ∧ n < l.length ∧
      l[n - 1]? = some a ∧ time a = t ∧
      rest time s (some t) = ((l.drop n).filter (fun b => decide (time b < t)) : List α) := by
  obtain ⟨n, l, hn, hl, rfl, hnext⟩ := h
  by_cases hlong : n < l.length
  · obtain ⟨a, hlast, hindex⟩ := exists_last (hpos n hn) hlong
    rw [if_pos hlong, hlast] at hnext
    cases hnext
    exact ⟨n, l, a, hn, hl, rfl, hlong, hindex, rfl, rest_after hl hlast⟩
  · rw [if_neg hlong] at hnext
    cases hnext

theorem pages_none {page : List α} (hpos : ∀ n, allowed n → 0 < n)
    (h : Pages time s allowed cursor page none) : IsListing time (rest time s cursor) page ∧
      ∃ n, allowed n ∧ page.length ≤ n := by
  obtain ⟨n, l, hn, hl, rfl, hnext⟩ := h
  by_cases hlong : n < l.length
  · obtain ⟨a, hlast, -⟩ := exists_last (hpos n hn) hlong
    rw [if_pos hlong, hlast] at hnext
    cases hnext
  · rw [List.take_of_length_le (Nat.not_lt.mp hlong)]
    exact ⟨hl, n, hn, Nat.not_lt.mp hlong⟩

/-- Each page leaves less. -/
theorem rest_card_lt (hpos : ∀ n, allowed n → 0 < n) {page : List α}
    (h : Pages time s allowed cursor page (some t)) :
    (rest time s (some t)).card < (rest time s cursor).card := by
  obtain ⟨n, l, a, hn, hl, rfl, hlong, -, -, hrest⟩ := pages_some hpos h
  rw [hrest, ← hl.1, Multiset.coe_card, Multiset.coe_card]
  have hfilter := List.length_filter_le (fun b => decide (time b < t)) (l.drop n)
  have hdrop := List.length_drop (i := n) (l := l)
  have hn := hpos n hn
  omega

theorem pages_end (hpos : ∀ n, allowed n → 0 < n) (cursor : Option Nat) :
    Ends (Pages time s allowed) cursor := by
  induction hcard : (rest time s cursor).card using Nat.strong_induction_on generalizing cursor with
  | _ m ih =>
    refine Acc.intro cursor (fun later hlater => ?_)
    obtain ⟨page, t, hcall, rfl⟩ := hlater
    exact ih _ (hcard ▸ rest_card_lt hpos hcall) (some t) rfl

/-- Nothing is shown twice, nor what does not stand before the cursor. -/
theorem run_le (hpos : ∀ n, allowed n → 0 < n) {pages : List (List α)}
    (h : Run (Pages time s allowed) cursor pages) :
    (pages.flatten : Multiset α) ≤ rest time s cursor := by
  induction h with
  | last hcall =>
    rw [List.flatten_singleton, (pages_none hpos hcall).1.1]
  | @next cursor page t pages hcall _ ih =>
    obtain ⟨n, l, a, -, hl, rfl, -, -, -, hrest⟩ := pages_some hpos hcall
    rw [List.flatten_cons, ← Multiset.coe_add, ← hl.1]
    have hfilter : ((l.drop n).filter (fun b => decide (time b < t)) : Multiset α) ≤
        (l.drop n : List α) := Multiset.coe_le.mpr List.filter_sublist.subperm
    have hle := add_le_add (le_refl ((l.take n : List α) : Multiset α))
      (le_trans ih (hrest.le.trans hfilter))
    rwa [Multiset.coe_add (l.take n) (l.drop n), List.take_append_drop] at hle

/-- The pages come in the order of the listing. -/
theorem run_sorted (hpos : ∀ n, allowed n → 0 < n) {pages : List (List α)}
    (h : Run (Pages time s allowed) cursor pages) :
    pages.flatten.Pairwise (fun a b => time b ≤ time a) ∧
      pages.Pairwise (fun page later => ∀ a ∈ page, ∀ b ∈ later, time b < time a) := by
  induction h with
  | last hcall =>
    rw [List.flatten_singleton]
    exact ⟨(pages_none hpos hcall).1.2, List.pairwise_singleton _ _⟩
  | @next cursor page t pages hcall hrun ih =>
    obtain ⟨n, l, a, -, hl, rfl, -, hindex, rfl, hrest⟩ := pages_some hpos hcall
    -- Every item of the page is at least as late as its last one, and the rest is earlier.
    have hpage : ∀ b ∈ l.take n, time a ≤ time b := by
      intro b hb
      obtain ⟨i, hi, rfl⟩ := List.getElem_of_mem hb
      obtain ⟨hlast, hlasteq⟩ := List.getElem?_eq_some_iff.mp hindex
      rw [List.length_take] at hi
      rw [List.getElem_take, ← hlasteq]
      rcases Nat.lt_or_ge i (n - 1) with hlt | hge
      · exact List.pairwise_iff_getElem.mp hl.2 i (n - 1) (by omega) hlast hlt
      · have heq : i = n - 1 := by omega
        subst heq
        exact Nat.le_refl _
    have hlater : ∀ b ∈ pages.flatten, time b < time a := by
      intro b hb
      have hmem := Multiset.mem_of_le (run_le hpos hrun) (Multiset.mem_coe.mpr hb)
      exact (mem_rest.mp hmem).2
    constructor
    · rw [List.flatten_cons, List.pairwise_append]
      refine ⟨hl.2.sublist (List.take_sublist n l), ih.1, fun b hb c hc => ?_⟩
      exact Nat.le_of_lt (Nat.lt_of_lt_of_le (hlater c hc) (hpage b hb))
    · refine List.pairwise_cons.mpr ⟨fun page' hpage' b hb c hc => ?_, ih.2⟩
      exact Nat.lt_of_lt_of_le (hlater c (List.mem_flatten_of_mem hpage' hc)) (hpage b hb)

/-! ## Completeness -/

theorem separated_of_short {n : Nat} {ts : List Nat} (h : ts.length ≤ n) : Separated n ts := by
  intro k a b hk _ hb
  have hlt := (List.getElem?_eq_some_iff.mp hb).1
  have hle := Nat.le_mul_of_pos_left n hk
  omega

/-- The first border, and those behind it. -/
theorem separated_iff {n : Nat} (hn : 0 < n) {ts : List Nat} {a : Nat} (ha : ts[n - 1]? = some a) :
    Separated n ts ↔ (∀ b, ts[n]? = some b → b < a) ∧ Separated n (ts.drop n) := by
  have hshift : ∀ k, 0 < k → n + (k * n - 1) = (k + 1) * n - 1 ∧ n + k * n = (k + 1) * n := by
    intro k hk
    have hle := Nat.le_mul_of_pos_left n hk
    have hmul := Nat.add_one_mul k n
    omega
  constructor
  · intro h
    refine ⟨fun b hb => h 1 a b Nat.one_pos (by simpa using ha) (by simpa using hb), ?_⟩
    intro k b c hk hb hc
    rw [List.getElem?_drop] at hb hc
    rw [(hshift k hk).1] at hb
    rw [(hshift k hk).2] at hc
    exact h (k + 1) b c (Nat.succ_pos k) hb hc
  · rintro ⟨hfirst, hbehind⟩ k b c hk hb hc
    rcases k with _ | _ | k
    · exact absurd hk (Nat.lt_irrefl 0)
    · rw [Nat.zero_add, Nat.one_mul] at hb hc
      rw [ha] at hb
      cases hb
      exact hfirst c hc
    · refine hbehind (k + 1) b c (Nat.succ_pos k) ?_ ?_
      · rw [List.getElem?_drop, (hshift (k + 1) (Nat.succ_pos k)).1]
        exact hb
      · rw [List.getElem?_drop, (hshift (k + 1) (Nat.succ_pos k)).2]
        exact hc

/-- The items behind a border are all earlier when the first of them is. -/
theorem filter_drop_iff (hl : l.Pairwise (fun a b => time b ≤ time a)) {n : Nat} :
    (l.drop n).filter (fun b => decide (time b < t)) = l.drop n ↔
      ∀ b, (l.map time)[n]? = some b → b < t := by
  rw [List.filter_eq_self]
  have hsorted := hl.sublist (List.drop_sublist n l)
  have hhead : (l.map time)[n]? = ((l.drop n)[0]?).map time := by
    rw [List.getElem?_map, List.getElem?_drop, Nat.add_zero]
  rw [hhead]
  revert hsorted
  rcases l.drop n with _ | ⟨c, front⟩
  · simp
  · intro hsorted
    simp only [List.getElem?_cons_zero, Option.map_some, Option.some.injEq, forall_eq',
      decide_eq_true_eq, List.mem_cons, forall_eq_or_imp]
    refine ⟨And.left, fun hc => ⟨hc, fun b hb => ?_⟩⟩
    exact Nat.lt_of_le_of_lt (List.rel_of_pairwise_cons hsorted hb) hc

/-- Pages of one size show all items exactly when no border parts items of one time. -/
theorem run_complete_iff {n : Nat} (hn : 0 < n) {pages : List (List α)}
    (h : Run (Pages time s (fun limit => limit = n)) cursor pages) :
    (pages.flatten : Multiset α) = rest time s cursor ↔
      Separated n (times time (rest time s cursor)) := by
  have hpos : ∀ limit, limit = n → 0 < limit := fun limit hlimit => hlimit ▸ hn
  induction h with
  | last hcall =>
    obtain ⟨hlisting, limit, rfl, hshort⟩ := pages_none hpos hcall
    rw [List.flatten_singleton, hlisting.times]
    exact iff_of_true hlisting.1 (separated_of_short (by rwa [List.length_map]))
  | @next cursor page t pages hcall hrun ih =>
    obtain ⟨limit, l, a, rfl, hl, rfl, hlong, hindex, hat, hrest⟩ := pages_some hpos hcall
    have hborder : (l.map time)[limit - 1]? = some t := by
      rw [List.getElem?_map, hindex, Option.map_some, hat]
    have hle := run_le hpos hrun
    have hfilter : ((l.drop limit).filter (fun b => decide (time b < t))).Sublist (l.drop limit) :=
      List.filter_sublist
    rw [hl.times, separated_iff hn hborder, ← filter_drop_iff hl.2, ← List.map_drop,
      List.flatten_cons, ← Multiset.coe_add, ← hl.1]
    have hcancel : ((l.take limit : List α) : Multiset α) + pages.flatten = l ↔
        (pages.flatten : Multiset α) = (l.drop limit : List α) := by
      conv_lhs => rw [← List.take_append_drop limit l, ← Multiset.coe_add]
      rw [List.take_append_drop, add_right_inj]
    rw [hcancel]
    constructor
    · intro hcomplete
      have hall : (l.drop limit).filter (fun b => decide (time b < t)) = l.drop limit := by
        refine hfilter.eq_of_length_le ?_
        rw [hcomplete, hrest] at hle
        exact (Multiset.coe_le.mp hle).length_le
      have hlisting : IsListing time (rest time s (some t)) (l.drop limit) :=
        ⟨by rw [hrest, hall], hl.2.sublist (List.drop_sublist limit l)⟩
      refine ⟨hall, ?_⟩
      rw [← hlisting.times]
      exact ih.mp (hcomplete.trans hlisting.1)
    · rintro ⟨hall, hbehind⟩
      have hlisting : IsListing time (rest time s (some t)) (l.drop limit) :=
        ⟨by rw [hrest, hall], hl.2.sublist (List.drop_sublist limit l)⟩
      rw [← hlisting.times] at hbehind
      exact (ih.mpr hbehind).trans hlisting.1.symm

/-- Items of different times are all shown, whatever the sizes of the pages. -/
theorem run_complete (hpos : ∀ n, allowed n → 0 < n) (hnodup : (times time s).Nodup)
    {pages : List (List α)} (h : Run (Pages time s allowed) cursor pages) :
    (pages.flatten : Multiset α) = rest time s cursor := by
  induction h with
  | last hcall =>
    rw [List.flatten_singleton]
    exact (pages_none hpos hcall).1.1
  | @next cursor page t pages hcall hrun ih =>
    obtain ⟨n, l, a, hn, hl, rfl, hlong, hindex, hat, hrest⟩ := pages_some hpos hcall
    have hall : (l.drop n).filter (fun b => decide (time b < t)) = l.drop n := by
      rw [filter_drop_iff hl.2]
      intro b hb
      have hdistinct : (l.map time).Nodup := by
        rw [← hl.times]
        have hsub : List.Subperm (times time (rest time s cursor)) (times time s) := by
          rw [← Multiset.coe_le]
          unfold times
          rw [Multiset.sort_eq, Multiset.sort_eq]
          exact Multiset.map_le_map (rest_le s cursor)
        obtain ⟨ts, hperm, hsublist⟩ := hsub
        exact hperm.nodup_iff.mp (hsublist.nodup hnodup)
      have hpair : (l.map time).Pairwise (fun x y => y ≤ x) := List.pairwise_map.mpr hl.2
      have hborder : (l.map time)[n - 1]? = some t := by
        rw [List.getElem?_map, hindex, Option.map_some, hat]
      obtain ⟨hi, rfl⟩ := List.getElem?_eq_some_iff.mp hborder
      obtain ⟨hj, rfl⟩ := List.getElem?_eq_some_iff.mp hb
      have hlt : n - 1 < n := Nat.sub_lt (hpos n hn) Nat.one_pos
      have hle := List.pairwise_iff_getElem.mp hpair (n - 1) n hi hj hlt
      refine Nat.lt_of_le_of_ne hle (fun heq => ?_)
      exact absurd (hdistinct.getElem_inj_iff.mp heq) (Nat.ne_of_gt hlt)
    rw [List.flatten_cons, ← Multiset.coe_add, ih, hrest, hall, Multiset.coe_add,
      List.take_append_drop]
    exact hl.1

/-- One item a page shows no two items of one time. -/
theorem times_distinct (hpos : ∀ n, allowed n → 0 < n) {pages : List (List α)}
    (h : Run (Pages time s allowed) none pages) (hsingle : ∀ page ∈ pages, page.length ≤ 1)
    (hcomplete : (pages.flatten : Multiset α) = s) : (times time s).Nodup := by
  have hstrict := (run_sorted hpos h).2
  have hflat : pages.flatten.Pairwise (fun a b => time b < time a) := by
    rw [List.pairwise_flatten]
    refine ⟨fun page hpage => ?_, hstrict⟩
    rcases page with _ | ⟨a, _ | ⟨b, page⟩⟩
    · exact List.Pairwise.nil
    · exact List.pairwise_singleton _ _
    · have hle := hsingle _ hpage
      simp only [List.length_cons] at hle
      omega
  have hlisting : IsListing time s pages.flatten :=
    ⟨hcomplete, hflat.imp (fun hlt => Nat.le_of_lt hlt)⟩
  rw [hlisting.times, List.Nodup, List.pairwise_map]
  exact hflat.imp (fun hlt heq => absurd heq.symm (Nat.ne_of_lt hlt))

/-! ## Windows -/

/-- What a window of `k` items leaves out comes after `k` others that are no earlier. -/
theorem count_of_dropped {k : Nat} {x : α} (h : IsListing time s l) (hx : x ∈ l.drop k) :
    k < (s.filter (fun y => time x ≤ time y)).card := by
  have hsplit : l.take k ++ l.drop k = l := List.take_append_drop k l
  have hsorted := h.2
  rw [← hsplit, List.pairwise_append] at hsorted
  have hlong : (l.take k).length = k := by
    rw [List.length_take]
    have hpos := List.length_pos_of_mem hx
    rw [List.length_drop] at hpos
    omega
  have hfront : (l.take k).filter (fun y => decide (time x ≤ time y)) = l.take k :=
    List.filter_eq_self.mpr (fun y hy => decide_eq_true (hsorted.2.2 y hy x hx))
  have hback : 0 < ((l.drop k).filter (fun y => decide (time x ≤ time y))).length :=
    List.length_pos_of_mem (List.mem_filter.mpr ⟨hx, decide_eq_true (Nat.le_refl _)⟩)
  rw [← h.1, Multiset.filter_coe, Multiset.coe_card, ← hsplit, List.filter_append,
    List.length_append, hfront, hlong]
  omega

/-- Where so many are no earlier than an item, some listing has the item behind the window. -/
theorem exists_listing_without {k : Nat} {x : α} (hnodup : s.Nodup)
    (hcount : k < (s.filter (fun y => time x ≤ time y)).card) :
    ∃ l, IsListing time s l ∧ x ∉ l.take k := by
  classical
  -- Of the items of its time, the listing has `x` last.
  obtain ⟨l, hl, hsorted⟩ : ∃ l, IsListing (fun y => 2 * time y + if y = x then 0 else 1) s l :=
    exists_listing s
  have hlisting : IsListing time s l := by
    refine ⟨hl, hsorted.imp (fun {a b} hab => ?_)⟩
    dsimp only at hab
    split_ifs at hab <;> omega
  refine ⟨l, hlisting, fun hx => ?_⟩
  have hl_nodup : l.Nodup := by rwa [← Multiset.coe_nodup, hl]
  have hsplit : l.take k ++ l.drop k = l := List.take_append_drop k l
  have hback : (l.drop k).filter (fun y => decide (time x ≤ time y)) = [] := by
    rw [List.filter_eq_nil_iff]
    intro z hz
    rw [← hsplit, List.pairwise_append] at hsorted
    rw [← hsplit, List.nodup_append] at hl_nodup
    have hafter := hsorted.2.2 x hx z hz
    have hne : z ≠ x := fun heq => hl_nodup.2.2 x hx z hz heq.symm
    dsimp only at hafter
    rw [if_pos rfl, if_neg hne] at hafter
    simp only [decide_eq_true_eq]
    omega
  have hshort := List.length_filter_le (fun y => decide (time x ≤ time y)) (l.take k)
  rw [← hl, Multiset.filter_coe, Multiset.coe_card, ← hsplit, List.filter_append,
    List.length_append, hback, List.length_nil] at hcount
  rw [List.length_take] at hshort
  omega

/-- A filter keeps a listing. -/
theorem IsListing.filter (h : IsListing time s l) (p : α → Prop) [DecidablePred p] :
    IsListing time (s.filter p) (l.filter (fun a => decide (p a))) :=
  ⟨by rw [← h.1, Multiset.filter_coe], h.2.sublist List.filter_sublist⟩

end Listings

end Paging
