-- Laws of the operations on texts: what stripping and lowering leave alone.
import Mathlib.Data.List.DropRight
import Mathlib.Data.List.TakeDrop
import MoaWorks.Lib.Text

namespace Text

variable {s t : String} {c : Char}

theorem strip_toList (s : String) :
    (strip s).toList = (s.toList.dropWhile isSpace).rdropWhile isSpace := by
  unfold strip dropEndWhile List.rdropWhile
  rw [String.toList_ofList]

theorem lower_toList (s : String) : (lower s).toList = s.toList.map Char.toLower := by
  unfold lower
  rw [String.toList_ofList]

theorem before_toList (c : Char) (s : String) :
    (before c s).toList = s.toList.takeWhile (fun x => x != c) := by
  unfold before
  rw [String.toList_ofList]

/-! ## Characters -/

theorem toLower_upper {c : Char} (hlow : 65 ≤ c.toNat) (hhigh : c.toNat ≤ 90) :
    c.toLower.toNat = c.toNat + 32 := by
  unfold Char.toLower
  rw [dif_pos ⟨hlow, hhigh⟩]
  change (c.val + 32).toNat = c.toNat + 32
  rw [UInt32.toNat_add]
  change (c.toNat + 32) % 2 ^ 32 = c.toNat + 32
  omega

theorem toLower_cases (c : Char) : c.toLower = c ∨
    65 ≤ c.toNat ∧ c.toNat ≤ 90 ∧ c.toLower.toNat = c.toNat + 32 := by
  by_cases h : 65 ≤ c.toNat ∧ c.toNat ≤ 90
  · exact .inr ⟨h.1, h.2, toLower_upper h.1 h.2⟩
  · left
    unfold Char.toLower
    exact dif_neg h

theorem isSpace_range {c : Char} (hlow : 65 ≤ c.toNat) (hhigh : c.toNat ≤ 122) : isSpace c = false := by
  unfold isSpace
  simp only [Bool.or_eq_false_iff, Bool.and_eq_false_iff, decide_eq_false_iff_not, beq_eq_false_iff_ne]
  omega

theorem isSpace_toLower (c : Char) : isSpace c.toLower = isSpace c := by
  rcases toLower_cases c with h | ⟨hlow, hhigh, h⟩
  · rw [h]
  · rw [isSpace_range hlow (by omega), isSpace_range (by omega) (by omega)]

theorem toLower_toLower (c : Char) : c.toLower.toLower = c.toLower := by
  rcases toLower_cases c with h | ⟨hlow, hhigh, h⟩
  · rw [h, h]
  · rcases toLower_cases c.toLower with h' | ⟨_, hhigh', _⟩
    · exact h'
    · omega

theorem rsplit_some {c : Char} {s x y : String} (h : rsplit c s = some (x, y)) :
    s.toList = x.toList ++ c :: y.toList := by
  unfold rsplit at h
  rw [List.span_eq_takeWhile_dropWhile] at h
  cases hdrop : s.toList.reverse.dropWhile (fun x => x != c) with
  | nil =>
    rw [hdrop] at h
    cases h
  | cons a init =>
    rw [hdrop] at h
    obtain ⟨rfl, rfl⟩ := Prod.mk.inj (Option.some.inj h)
    have ha : a = c := by
      have hne := List.head_dropWhile_not (fun x => x != c)
        (by rw [hdrop]; exact List.cons_ne_nil _ _)
      simp only [hdrop, List.head_cons, bne_eq_false_iff_eq] at hne
      exact hne
    have hall := List.takeWhile_append_dropWhile (p := fun x => x != c) (l := s.toList.reverse)
    rw [hdrop, ha] at hall
    have hreverse := congrArg List.reverse hall
    rw [List.reverse_reverse, List.reverse_append, List.reverse_cons, List.append_assoc] at hreverse
    rw [String.toList_ofList, String.toList_ofList]
    exact hreverse.symm

/-- Lowering keeps the place of a separator that is no letter. -/
theorem rsplit_lower {c : Char} (hc : ∀ x : Char, x.toLower = c ↔ x = c) (s : String) :
    rsplit c (lower s) = (rsplit c s).map (fun parts => (lower parts.1, lower parts.2)) := by
  have hp : ((fun x => x != c) ∘ Char.toLower) = fun x => x != c := by
    funext x
    rw [Function.comp_apply, Bool.eq_iff_iff, bne_iff_ne, bne_iff_ne, Ne, hc]
  unfold rsplit
  rw [lower_toList, ← List.map_reverse, List.span_eq_takeWhile_dropWhile,
    List.span_eq_takeWhile_dropWhile, List.takeWhile_map, List.dropWhile_map, hp]
  cases s.toList.reverse.dropWhile (fun x => x != c) with
  | nil => rfl
  | cons a init =>
    rw [List.map_cons, Option.map_some]
    dsimp only
    rw [← List.map_reverse, ← List.map_reverse, lower, lower, String.toList_ofList,
      String.toList_ofList]

/-! ## White space -/

/-- A list without white space at its ends. -/
theorem dropWhile_rdropWhile (l : List Char) :
    ((l.dropWhile isSpace).rdropWhile isSpace).dropWhile isSpace =
      (l.dropWhile isSpace).rdropWhile isSpace := by
  have hpre := List.rdropWhile_prefix isSpace (l.dropWhile isSpace)
  have hhead : (l.dropWhile isSpace).dropWhile isSpace = l.dropWhile isSpace :=
    List.dropWhile_idempotent isSpace l
  generalize (l.dropWhile isSpace).rdropWhile isSpace = a at hpre
  generalize l.dropWhile isSpace = b at hpre hhead
  obtain ⟨r, rfl⟩ := hpre
  cases a with
  | nil => rfl
  | cons x a =>
    rw [List.cons_append, List.dropWhile_cons] at hhead
    rw [List.dropWhile_cons]
    split_ifs at hhead ⊢ with hx
    · -- a dropped first character would make the list shorter
      have hlength := congrArg List.length hhead
      have hle := List.IsSuffix.length_le (List.dropWhile_suffix isSpace (l := a ++ r))
      rw [hlength, List.length_cons] at hle
      omega
    · rfl

theorem strip_strip (s : String) : strip (strip s) = strip s := by
  apply String.toList_inj.1
  rw [strip_toList, strip_toList, dropWhile_rdropWhile, List.rdropWhile_idempotent]

/-- A text without white space. -/
theorem strip_of_no_space (h : ∀ c ∈ s.toList, isSpace c = false) : strip s = s := by
  apply String.toList_inj.1
  rw [strip_toList]
  have hdrop : s.toList.dropWhile isSpace = s.toList := by
    rw [List.dropWhile_eq_self_iff]
    intro hl
    rw [h _ (List.getElem_mem hl)]
    exact Bool.false_ne_true
  rw [hdrop, List.rdropWhile_eq_self_iff]
  intro hl
  rw [h _ (List.getLast_mem hl)]
  exact Bool.false_ne_true

theorem lower_of_all (h : ∀ c ∈ s.toList, c.toLower = c) : lower s = s := by
  apply String.toList_inj.1
  rw [lower_toList]
  exact (List.map_congr_left h).trans (List.map_id _)

/-- Stripped and lowered once is enough. -/
theorem lower_strip_again (s : String) : lower (strip (lower (strip s))) = lower (strip s) := by
  apply String.toList_inj.1
  have hspace : (isSpace ∘ Char.toLower) = isSpace := funext isSpace_toLower
  have hlower : (Char.toLower ∘ Char.toLower) = Char.toLower := funext toLower_toLower
  rw [lower_toList, strip_toList, lower_toList, List.dropWhile_map, hspace, strip_toList,
    dropWhile_rdropWhile]
  unfold List.rdropWhile
  rw [← List.map_reverse, List.dropWhile_map, hspace, ← List.map_reverse, List.map_map, hlower]
  rw [List.reverse_reverse, List.dropWhile_idempotent]

theorem rstrip_rstrip (c : Char) (s : String) : rstrip c (rstrip c s) = rstrip c s := by
  apply String.toList_inj.1
  unfold rstrip dropEndWhile
  rw [String.toList_ofList, String.toList_ofList, List.reverse_reverse, List.dropWhile_idempotent]

/-- The characters of a text whose parts stand between separators. -/
theorem mem_intercalate_list {parts : List (List Char)} {sep : List Char}
    (h : c ∈ sep.intercalate parts) : c ∈ sep ∨ ∃ part ∈ parts, c ∈ part := by
  induction parts with
  | nil => cases h
  | cons part parts ih =>
    cases parts with
    | nil =>
      rw [List.intercalate_singleton] at h
      exact .inr ⟨part, List.mem_cons_self, h⟩
    | cons next parts =>
      rw [List.intercalate_cons_cons] at h
      rcases List.mem_append.1 h with h | h
      · rcases List.mem_append.1 h with hpart | hsep
        · exact .inr ⟨part, List.mem_cons_self, hpart⟩
        · exact .inl hsep
      · rcases ih h with hsep | ⟨found, hfound, hc⟩
        · exact .inl hsep
        · exact .inr ⟨found, List.mem_cons_of_mem part hfound, hc⟩

theorem mem_intercalate {parts : List (List Char)} {sep : Char} (h : c ∈ [sep].intercalate parts) :
    c = sep ∨ ∃ part ∈ parts, c ∈ part := by
  rcases mem_intercalate_list h with hsep | hpart
  · exact .inl (List.mem_singleton.1 hsep)
  · exact .inr hpart

/-- White space after a separator cannot reach the word before it. -/
theorem takeWhile_rdropWhile {word rest : List Char} (hword : ∀ x ∈ word, isSpace x = false)
    (hc : ∀ x ∈ word, (x != c) = true)
    (hrest : rest = [] ∨ ∃ tail, rest = c :: tail) :
    ((word ++ rest).rdropWhile isSpace).takeWhile (fun x => x != c) = word := by
  have hstop : ∀ kept : List Char, kept = [] ∨ (∃ tail, kept = c :: tail) →
      (word ++ kept).takeWhile (fun x => x != c) = word := by
    intro kept hkept
    rw [List.takeWhile_append_of_pos hc]
    rcases hkept with rfl | ⟨tail, rfl⟩
    · simp
    · simp
  induction rest using List.reverseRecOn with
  | nil =>
    have hnone := hstop [] (.inl rfl)
    rw [List.append_nil] at hnone ⊢
    rw [List.rdropWhile_eq_self_iff.2]
    · exact hnone
    · intro hl
      rw [hword _ (List.getLast_mem hl)]
      exact Bool.false_ne_true
  | append_singleton rest x ih =>
    rw [← List.append_assoc, List.rdropWhile_concat]
    split_ifs with hx
    · apply ih
      rcases hrest with hrest | ⟨tail, hrest⟩
      · simp at hrest
      · cases rest with
        | nil => exact .inl rfl
        | cons y rest =>
          rw [List.cons_append, List.cons.injEq] at hrest
          exact .inr ⟨rest, by rw [hrest.1]⟩
    · rw [List.append_assoc]
      exact hstop _ hrest

theorem intercalate_append {sep : Char} {front back : List (List Char)} (hfront : front ≠ [])
    (hback : back ≠ []) : [sep].intercalate (front ++ back) =
      [sep].intercalate front ++ sep :: [sep].intercalate back := by
  induction front with
  | nil => exact absurd rfl hfront
  | cons part front ih =>
    rw [List.cons_append, List.intercalate_cons_of_ne_nil (fun h => hback (List.append_eq_nil_iff.1 h).2)]
    cases front with
    | nil => rw [List.nil_append, List.intercalate_singleton, List.append_assoc]; rfl
    | cons part' front =>
      rw [ih (List.cons_ne_nil _ _), List.intercalate_cons_of_ne_nil (List.cons_ne_nil _ _)]
      simp only [List.append_assoc]

/-- The parts of one text are the last ones of another where it is this text, or stands at its end
after a separator. -/
theorem splitOn_suffix {sep : Char} {part whole : List Char} :
    part.splitOn sep <:+ whole.splitOn sep ↔ whole = part ∨ sep :: part <:+ whole := by
  constructor
  · rintro ⟨front, hfront⟩
    have hjoin := congrArg (List.intercalate [sep]) hfront
    rw [List.intercalate_splitOn] at hjoin
    by_cases hnil : front = []
    · rw [hnil, List.nil_append, List.intercalate_splitOn] at hjoin
      exact .inl hjoin.symm
    · rw [intercalate_append hnil (List.splitOn_ne_nil sep part), List.intercalate_splitOn] at hjoin
      exact .inr ⟨_, hjoin⟩
  · rintro (rfl | ⟨front, rfl⟩)
    · exact List.suffix_refl _
    · rw [List.splitOn_append_cons_self]
      exact List.suffix_append _ _

end Text
