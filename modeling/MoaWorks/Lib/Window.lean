-- A queue that is always looked at through its first entries: each turn takes the window off the
-- queue but for the entries that stay, and an entry behind many that stay is never reached.
import Mathlib.Data.List.Nodup
import Mathlib.Data.List.Count

namespace Window

variable {α : Type}

/-- A window of `k` entries shows as much of what is sought as there is, or as it can hold, just
when nothing is sought behind it or everything in it is. -/
theorem shows_enough_iff (p : α → Bool) (k : Nat) (l : List α) :
    min k (l.countP p) ≤ (l.take k).countP p ↔
      (∀ a ∈ l.drop k, p a = false) ∨ ∀ a ∈ l.take k, p a = true := by
  have hsplit : l.countP p = (l.take k).countP p + (l.drop k).countP p := by
    rw [← List.countP_append, List.take_append_drop]
  have hbehind : (l.drop k).countP p = 0 ↔ ∀ a ∈ l.drop k, p a = false := by
    rw [List.countP_eq_zero]
    exact forall₂_congr (fun a _ => by rw [Bool.not_eq_true])
  have hfront : (l.take k).countP p = (l.take k).length ↔ ∀ a ∈ l.take k, p a = true :=
    List.countP_eq_length
  rw [← hbehind, ← hfront, List.length_take]
  have hle : (l.take k).countP p ≤ min k l.length := by
    rw [← List.length_take]
    exact List.countP_le_length
  have hlong : (l.drop k).countP p ≤ l.length - k := by
    rw [← List.length_drop]
    exact List.countP_le_length
  omega

variable [DecidableEq α]

/-- The queue after one turn. -/
def slide (k : Nat) (stays : α → Bool) (l : List α) : List α :=
  l.filter (fun a => decide (a ∉ l.take k) || stays a)

/-- The entry comes into the window within `n` turns. -/
def Reached (k : Nat) (stays : α → Bool) : Nat → List α → α → Prop
  | 0, _, _ => False
  | n + 1, l, a => a ∈ l.take k ∨ Reached k stays n (slide k stays l) a

theorem reached_succ {k n : Nat} {stays : α → Bool} {l : List α} {a : α} :
    Reached k stays (n + 1) l a ↔ a ∈ l.take k ∨ Reached k stays n (slide k stays l) a := Iff.rfl

theorem slide_congr {k : Nat} {stays stays' : α → Bool} {l : List α}
    (h : ∀ a ∈ l, stays a = stays' a) : slide k stays l = slide k stays' l :=
  List.filter_congr (fun a ha => by rw [h a ha])

theorem reached_congr {k : Nat} {stays stays' : α → Bool} {a : α} (n : Nat) {l : List α}
    (h : ∀ b ∈ l, stays b = stays' b) : Reached k stays n l a ↔ Reached k stays' n l a := by
  induction n generalizing l with
  | zero => exact Iff.rfl
  | succ n ih =>
    rw [reached_succ, reached_succ, ← slide_congr h]
    exact or_congr Iff.rfl (ih (fun b hb => h b (List.mem_of_mem_filter hb)))

def before : List α → α → List α
  | [], _ => []
  | b :: l, a => if b = a then [] else b :: before l a

@[simp] theorem before_cons_self (a : α) (l : List α) : before (a :: l) a = [] := if_pos rfl

theorem before_cons_ne {a b : α} (h : b ≠ a) (l : List α) :
    before (b :: l) a = b :: before l a := if_neg h

theorem mem_split {l : List α} {a : α} (ha : a ∈ l) : ∃ post, l = before l a ++ a :: post := by
  induction l with
  | nil => cases ha
  | cons b l ih =>
    by_cases hb : b = a
    · subst hb
      exact ⟨l, by rw [before_cons_self, List.nil_append]⟩
    · obtain ⟨post, hpost⟩ := ih ((List.mem_cons.1 ha).resolve_left (Ne.symm hb))
      refine ⟨post, ?_⟩
      rw [before_cons_ne hb, List.cons_append, ← hpost]

/-- In a queue without repetition the place of an entry says whether the window shows it. -/
theorem mem_take_iff {k : Nat} {l : List α} (hl : l.Nodup) {a : α} (ha : a ∈ l) :
    a ∈ l.take k ↔ (before l a).length < k := by
  obtain ⟨post, hpost⟩ := mem_split ha
  constructor
  · intro hmem
    by_contra hk
    rw [hpost, List.take_append_of_le_length (Nat.le_of_not_lt hk)] at hmem
    rw [hpost] at hl
    exact (List.nodup_append.1 hl).2.2 a (List.mem_of_mem_take hmem) a List.mem_cons_self rfl
  · intro hk
    rw [hpost, List.take_append]
    refine List.mem_append_right _ ?_
    obtain ⟨d, hd⟩ := Nat.exists_eq_add_of_lt hk
    rw [hd, Nat.add_assoc, Nat.add_sub_cancel_left]
    exact List.mem_cons_self

theorem mem_slide_iff {k : Nat} {stays : α → Bool} {l : List α} {a : α} :
    a ∈ slide k stays l ↔ a ∈ l ∧ (a ∉ l.take k ∨ stays a = true) := by
  unfold slide
  rw [List.mem_filter, Bool.or_eq_true, decide_eq_true_eq]

theorem before_slide {k : Nat} {stays : α → Bool} {l : List α} {a : α} (ha : a ∉ l.take k) :
    before (slide k stays l) a =
      (before l a).filter (fun b => decide (b ∉ l.take k) || stays b) := by
  have hkept : ∀ p : α → Bool, p a = true → ∀ l : List α,
      before (l.filter p) a = (before l a).filter p := by
    intro p hp l
    induction l with
    | nil => rfl
    | cons b l ih =>
      by_cases hb : b = a
      · subst hb
        rw [List.filter_cons_of_pos hp, before_cons_self, before_cons_self, List.filter_nil]
      · rw [before_cons_ne hb]
        by_cases hpb : p b = true
        · rw [List.filter_cons_of_pos hpb, List.filter_cons_of_pos hpb, before_cons_ne hb, ih]
        · rw [List.filter_cons_of_neg hpb, List.filter_cons_of_neg hpb, ih]
  exact hkept _ (by rw [decide_eq_true ha, Bool.true_or]) l

/-- Of those before an entry, the ones that stay remain as long as it is not reached. -/
theorem stuck_before_slide {k : Nat} {stays : α → Bool} {l : List α} {a : α}
    (ha : a ∉ l.take k) :
    (before (slide k stays l) a).countP stays = (before l a).countP stays := by
  rw [before_slide ha, List.countP_filter]
  refine List.countP_congr (fun b _ => ?_)
  rw [Bool.and_eq_true, Bool.or_eq_true]
  exact ⟨And.left, fun hb => ⟨hb, .inr hb⟩⟩

theorem not_reached {k : Nat} {stays : α → Bool} {a : α} (n : Nat) {l : List α} (hl : l.Nodup)
    (ha : a ∈ l) (hstuck : k ≤ (before l a).countP stays) : ¬Reached k stays n l a := by
  induction n generalizing l with
  | zero => exact id
  | succ n ih =>
    have hout : a ∉ l.take k := by
      rw [mem_take_iff hl ha]
      exact Nat.not_lt.2 (Nat.le_trans hstuck List.countP_le_length)
    rintro (hmem | hlater)
    · exact hout hmem
    · refine ih (hl.filter _) (mem_slide_iff.2 ⟨ha, .inl hout⟩) ?_ hlater
      exact (stuck_before_slide hout).symm ▸ hstuck

/-- A turn that does not reach an entry takes one of those before it off, unless they all stay. -/
theorem before_shrinks {k : Nat} {stays : α → Bool} {l : List α} {a : α} (hl : l.Nodup)
    (ha : a ∈ l) (hout : a ∉ l.take k) (hfree : (before l a).countP stays < k) :
    (before (slide k stays l) a).length < (before l a).length := by
  have hk : k ≤ (before l a).length := by
    rw [mem_take_iff hl ha] at hout
    exact Nat.le_of_not_lt hout
  obtain ⟨post, hpost⟩ := mem_split ha
  have htake : l.take k = (before l a).take k := by
    conv_lhs => rw [hpost]
    exact List.take_append_of_le_length hk
  obtain ⟨b, hb, hgoes⟩ : ∃ b ∈ (before l a).take k, stays b ≠ true := by
    by_contra hall
    push Not at hall
    have hlength := List.countP_eq_length.2 hall
    have hsub := ((before l a).take_sublist k).countP_le (p := stays)
    rw [hlength, List.length_take, Nat.min_eq_left hk] at hsub
    exact absurd hfree (Nat.not_lt.2 hsub)
  rw [before_slide hout, List.length_filter_lt_length_iff_exists]
  refine ⟨b, List.mem_of_mem_take hb, ?_⟩
  rw [Bool.or_eq_true, decide_eq_true_eq]
  exact fun h => h.elim (fun hnot => hnot (htake ▸ hb)) hgoes

theorem reached {k : Nat} {stays : α → Bool} {a : α} (n : Nat) {l : List α} (hl : l.Nodup)
    (ha : a ∈ l) (hn : (before l a).length < n) (hfree : (before l a).countP stays < k) :
    Reached k stays n l a := by
  induction n generalizing l with
  | zero => exact absurd hn (Nat.not_lt_zero _)
  | succ n ih =>
    by_cases hout : a ∈ l.take k
    · exact .inl hout
    · refine .inr (ih (hl.filter _) (mem_slide_iff.2 ⟨ha, .inl hout⟩) ?_ ?_)
      · exact Nat.lt_of_lt_of_le (before_shrinks hl ha hout hfree) (Nat.lt_succ_iff.1 hn)
      · exact (stuck_before_slide hout).symm ▸ hfree

/-- With as many turns as entries, an entry is reached just when fewer than a window of those
before it stay. -/
theorem reached_iff {k n : Nat} {stays : α → Bool} {l : List α} {a : α} (hl : l.Nodup)
    (ha : a ∈ l) (hn : l.length ≤ n) :
    Reached k stays n l a ↔ (before l a).countP stays < k := by
  constructor
  · intro hreached
    by_contra hstuck
    exact not_reached n hl ha (Nat.le_of_not_lt hstuck) hreached
  · intro hfree
    refine reached n hl ha ?_ hfree
    obtain ⟨post, hpost⟩ := mem_split ha
    refine Nat.lt_of_lt_of_le ?_ hn
    conv_rhs => rw [hpost, List.length_append, List.length_cons]
    exact Nat.lt_add_of_pos_right (Nat.succ_pos _)

end Window
