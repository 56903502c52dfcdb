-- What the sanitizer makes of a `style`: the listed properties in their order, each with the
-- value of its last acceptable declaration, and a text that it leaves alone.
import Mathlib.Data.List.DropRight
import Mathlib.Data.List.TakeDrop
import MoaWorks.Lib.History
import MoaWorks.MailStyles

namespace moaworks.mail_html_sanitizer

open Text (isSpace)

/-- A colour as it leaves the sanitizer. -/
inductive Colour : List Char → Prop
  | hex (digits : List Char) (hlength : digits.length = 3 ∨ digits.length = 6)
      (h : ∀ c ∈ digits, '0' ≤ c ∧ c ≤ '9' ∨ 'a' ≤ c ∧ c ≤ 'f') : Colour ('#' :: digits)
  | rgb (r g b : Nat) (hr : r ≤ 255) (hg : g ≤ 255) (hb : b ≤ 255) : Colour (rgbText r g b)

/-- The whitelist of each property. -/
inductive Listed : Style → List Char → Prop
  | fontFamily (x : List Char) (h : x ∈ fontFamilies.map Prod.snd) : Listed .fontFamily x
  | fontSize (x : List Char) (h : x ∈ fontSizes) : Listed .fontSize x
  | lineHeight (x : List Char) (h : x ∈ lineHeights) : Listed .lineHeight x
  | color (x : List Char) (h : Colour x) : Listed .color x
  | backgroundColor (x : List Char) (h : Colour x) : Listed .backgroundColor x
  | textAlign (x : List Char) (h : x ∈ textAlignments) : Listed .textAlign x

/-- A declaration of `p` whose value is acceptable, and becomes `x`. -/
def Declares (s : Casing) (text : List Char) (p : Style) (x : List Char) : Prop :=
  ∃ name value, text = name ++ ':' :: value ∧ ':' ∉ name ∧
    s.lower (strip isSpace name) = p.name ∧ normalizeStyleValue s p value = some x

/-- The last acceptable declaration of `p` gives `x`. -/
def LastDeclared (s : Casing) (texts : List (List Char)) (p : Style) (x : List Char) : Prop :=
  ∃ later, History.Since (fun text => Declares s text p x) texts later ∧
    ∀ other ∈ later, ∀ y, ¬ Declares s other p y

/-! ## Texts -/

variable {s : Casing} {t : List Char}

theorem strip_of_none {p : Char → Bool} (h : ∀ c ∈ t, p c = false) : strip p t = t := by
  have hdrop : t.dropWhile p = t := by
    rw [List.dropWhile_eq_self_iff]
    intro hl
    rw [h _ (List.getElem_mem hl)]
    exact Bool.false_ne_true
  unfold strip
  rw [hdrop]
  change t.rdropWhile p = t
  rw [List.rdropWhile_eq_self_iff]
  intro hl
  rw [h _ (List.getLast_mem hl)]
  exact Bool.false_ne_true

theorem lower_of_fixed (hplain : t.all plain = true) (h : t.map Char.toLower = t) :
    s.lower t = t :=
  (s.lower_plain t hplain).trans h

theorem splitColon_eq_some {name value : List Char} :
    splitColon t = some (name, value) ↔ t = name ++ ':' :: value ∧ ':' ∉ name := by
  unfold splitColon
  rw [List.span_eq_takeWhile_dropWhile]
  constructor
  · intro h
    split at h
    · cases h
    · rename_i before c after heq
      obtain ⟨rfl, rfl⟩ := Prod.mk.inj (Option.some.inj h)
      obtain ⟨hbefore, hafter⟩ := Prod.mk.inj heq
      have hc : (c != ':') = false := by
        have hne : t.dropWhile (fun c => c != ':') ≠ [] := by
          rw [hafter]
          exact List.cons_ne_nil c after
        have hhead := List.head_dropWhile_not (fun c => c != ':') hne
        simpa only [hafter, List.head_cons] using hhead
      have hcolon : c = ':' := by simpa using hc
      rw [hcolon] at hafter
      refine ⟨?_, ?_⟩
      · rw [← hbefore, ← hafter, List.takeWhile_append_dropWhile]
      · rw [← hbefore]
        intro hmem
        have hpass := List.mem_takeWhile_imp hmem
        exact absurd hpass (by decide)
  · rintro ⟨rfl, hname⟩
    have hpass : ∀ c ∈ name, (c != ':') = true := by
      intro c hc
      rw [bne_iff_ne]
      rintro rfl
      exact hname hc
    rw [List.takeWhile_append_of_pos hpass, List.dropWhile_append_of_pos hpass]
    simp

/-! ## Declarations -/

theorem style_found {name : List Char} {p : Style} :
    styleOrder.find? (fun q => q.name == name) = some p ↔ name = p.name := by
  constructor
  · intro h
    have hname : (p.name == name) = true := by simpa using List.find?_some h
    exact (beq_iff_eq.mp hname).symm
  · rintro rfl
    cases p <;> decide

theorem declaration_eq_some {p : Style} {x : List Char} :
    declaration s t = some (p, x) ↔ Declares s t p x := by
  unfold declaration Declares
  simp only [Option.bind_eq_some_iff, Option.map_eq_some_iff, Prod.exists, style_found,
    splitColon_eq_some, Prod.mk.injEq]
  constructor
  · rintro ⟨name, value, ⟨rfl, hcolon⟩, q, hq, y, hy, rfl, rfl⟩
    exact ⟨name, value, rfl, hcolon, hq, hy⟩
  · rintro ⟨name, value, rfl, hcolon, hname, hx⟩
    exact ⟨name, value, ⟨rfl, hcolon⟩, p, hname, x, hx, rfl, rfl⟩

section

variable {texts : List (List Char)} {p : Style} {x : List Char}

theorem collect_snoc : collect s (texts ++ [t]) =
    match declaration s t with
    | none => collect s texts
    | some (q, safe) => fun p => if p = q then some safe else collect s texts p := by
  unfold collect
  rw [List.foldl_append]
  rfl

theorem collect_snoc_of_declares (h : Declares s t p x) :
    collect s (texts ++ [t]) p = some x := by
  rw [collect_snoc, declaration_eq_some.mpr h]
  exact if_pos rfl

theorem collect_snoc_of_silent (h : ∀ y, ¬ Declares s t p y) :
    collect s (texts ++ [t]) p = collect s texts p := by
  rw [collect_snoc]
  cases hd : declaration s t with
  | none => rfl
  | some d =>
    obtain ⟨q, safe⟩ := d
    have hne : p ≠ q := by
      rintro rfl
      exact h safe (declaration_eq_some.mp hd)
    exact if_neg hne

/-- The dictionary holds what the last acceptable declaration of each property gave. -/
theorem collect_eq_some : collect s texts p = some x ↔ LastDeclared s texts p x := by
  induction texts using List.reverseRecOn with
  | nil =>
    constructor
    · intro h
      cases h
    · rintro ⟨later, hsince, -⟩
      exact absurd hsince (History.not_since_nil _ _)
  | append_singleton texts t ih =>
    unfold LastDeclared at ih ⊢
    simp only [History.since_snoc]
    by_cases hlast : ∃ y, Declares s t p y
    · obtain ⟨y, hy⟩ := hlast
      rw [collect_snoc_of_declares hy]
      constructor
      · intro h
        obtain rfl := Option.some.inj h
        exact ⟨[], .inl ⟨hy, rfl⟩, fun other hother => absurd hother List.not_mem_nil⟩
      · rintro ⟨later, ⟨hx, -⟩ | ⟨later, rfl, -⟩, hlater⟩
        · have hboth := (declaration_eq_some.mpr hy).symm.trans (declaration_eq_some.mpr hx)
          rw [(Prod.mk.inj (Option.some.inj hboth)).2]
        · exact absurd hy (hlater t (List.mem_append_right _ List.mem_cons_self) y)
    · have hsilent : ∀ y, ¬ Declares s t p y := fun y hy => hlast ⟨y, hy⟩
      rw [collect_snoc_of_silent hsilent, ih]
      constructor
      · rintro ⟨later, hsince, hlater⟩
        refine ⟨later ++ [t], .inr ⟨later, rfl, hsince⟩, fun other hother => ?_⟩
        rcases List.mem_append.mp hother with hother | hother
        · exact hlater other hother
        · obtain rfl := List.mem_singleton.mp hother
          exact hsilent
      · rintro ⟨later, ⟨hx, -⟩ | ⟨later, rfl, hsince⟩, hlater⟩
        · exact absurd hx (hsilent x)
        · exact ⟨later, hsince, fun other hother => hlater other (List.mem_append_left _ hother)⟩

theorem collect_of_declares (hmem : t ∈ texts) (h : Declares s t p x) :
    ∃ y, collect s texts p = some y := by
  induction texts using List.reverseRecOn with
  | nil => cases hmem
  | append_singleton texts u ih =>
    by_cases hlast : ∃ y, Declares s u p y
    · obtain ⟨y, hy⟩ := hlast
      exact ⟨y, collect_snoc_of_declares hy⟩
    · rw [collect_snoc_of_silent (fun y hy => hlast ⟨y, hy⟩)]
      rcases List.mem_append.mp hmem with hmem | hmem
      · exact ih hmem
      · obtain rfl := List.mem_singleton.mp hmem
        exact absurd ⟨x, h⟩ hlast

theorem mem_inOrder {normalized : Style → Option (List Char)} :
    (p, x) ∈ inOrder normalized ↔ normalized p = some x := by
  unfold inOrder
  rw [List.mem_filterMap]
  constructor
  · rintro ⟨q, -, hq⟩
    obtain ⟨y, hy, heq⟩ := Option.map_eq_some_iff.mp hq
    obtain ⟨rfl, rfl⟩ := Prod.mk.inj heq
    exact hy
  · intro h
    refine ⟨p, ?_, by rw [h, Option.map_some]⟩
    cases p <;> decide

theorem inOrder_sublist (normalized : Style → Option (List Char)) :
    ((inOrder normalized).map Prod.fst).Sublist styleOrder := by
  unfold inOrder
  induction styleOrder with
  | nil => exact List.Sublist.slnil
  | cons q rest ih =>
    rw [List.filterMap_cons]
    cases normalized q with
    | none => exact ih.cons q
    | some x => exact ih.cons_cons q

end

/-! ## Values -/

/-- A character that stands for itself wherever it is in a value. -/
def settled (c : Char) : Bool := plain c && c.toLower == c && !isSpace c && c != ';'

section

variable {c : Char}

theorem settled_below : ∀ n < 103, 48 ≤ n ∧ n ≤ 57 ∨ 97 ≤ n → settled (Char.ofNat n) = true := by
  decide

theorem settled_digit (h : '0' ≤ c ∧ c ≤ '9' ∨ 'a' ≤ c ∧ c ≤ 'f') : settled c = true := by
  rw [← Char.ofNat_toNat c]
  apply settled_below
  · rcases h with ⟨-, h⟩ | ⟨-, h⟩
    · exact lt_of_le_of_lt (UInt32.le_iff_toNat_le.mp h) (by decide)
    · exact lt_of_le_of_lt (UInt32.le_iff_toNat_le.mp h) (by decide)
  · rcases h with ⟨hlow, hhigh⟩ | ⟨hlow, -⟩
    · exact .inl ⟨UInt32.le_iff_toNat_le.mp hlow, UInt32.le_iff_toNat_le.mp hhigh⟩
    · exact .inr (UInt32.le_iff_toNat_le.mp hlow)

theorem isHexDigit_cases (h : isHexDigit c = true) :
    ('0' ≤ c ∧ c ≤ '9' ∨ 'a' ≤ c ∧ c ≤ 'f') ∨ 65 ≤ c.toNat ∧ c.toNat ≤ 70 := by
  unfold isHexDigit at h
  simp only [Bool.or_eq_true, Bool.and_eq_true, decide_eq_true_eq] at h
  rcases h with h | ⟨hlow, hhigh⟩
  · exact .inl h
  · exact .inr ⟨UInt32.le_iff_toNat_le.mp hlow, UInt32.le_iff_toNat_le.mp hhigh⟩

theorem isHexDigit_plain (h : isHexDigit c = true) : plain c = true := by
  rcases isHexDigit_cases h with h | ⟨-, h⟩
  · have hsettled := settled_digit h
    unfold settled at hsettled
    simp only [Bool.and_eq_true] at hsettled
    exact hsettled.1.1.1
  · unfold plain
    rw [Bool.or_eq_true, decide_eq_true_eq]
    left
    omega

/-- A hexadecimal digit that is its own lower case. -/
theorem lower_hexDigit (h : isHexDigit c = true) (hlower : c.toLower = c) :
    '0' ≤ c ∧ c ≤ '9' ∨ 'a' ≤ c ∧ c ≤ 'f' := by
  rcases isHexDigit_cases h with h | ⟨hlow, hhigh⟩
  · exact h
  · have hnat := Text.toLower_upper hlow (by omega)
    rw [hlower] at hnat
    omega

end

theorem lower_of_settled (h : ∀ c ∈ t, settled c = true) : s.lower t = t := by
  unfold settled at h
  simp only [Bool.and_eq_true, beq_iff_eq] at h
  apply lower_of_fixed
  · rw [List.all_eq_true]
    exact fun c hc => (h c hc).1.1.1
  · exact (List.map_congr_left (fun c hc => (h c hc).1.1.2)).trans (List.map_id _)

theorem strip_of_settled (h : ∀ c ∈ t, settled c = true) : strip isSpace t = t := by
  apply strip_of_none
  intro c hc
  have hsettled := h c hc
  unfold settled at hsettled
  simp only [Bool.and_eq_true, Bool.not_eq_true'] at hsettled
  exact hsettled.1.2

theorem no_semicolon (h : ∀ c ∈ t, settled c = true) : ';' ∉ t := by
  intro hmem
  exact absurd (h ';' hmem) (by decide)

/-! ## Colours -/

theorem channel_digits : ∀ n < 256, isChannel (Nat.toDigits 10 n) = true ∧
    number (Nat.toDigits 10 n) = n ∧ (Nat.toDigits 10 n).all isDigit = true := by
  decide +kernel

theorem settled_channel {n : Nat} (hn : n ≤ 255) : ∀ c ∈ Nat.toDigits 10 n, settled c = true := by
  intro c hc
  have hdigit := List.all_eq_true.mp (channel_digits n (by omega)).2.2 c hc
  unfold isDigit at hdigit
  rw [Bool.and_eq_true, decide_eq_true_eq, decide_eq_true_eq] at hdigit
  exact settled_digit (.inl hdigit)

theorem no_comma {n : Nat} (hn : n ≤ 255) : ',' ∉ Nat.toDigits 10 n := by
  intro hmem
  have hdigit := List.all_eq_true.mp (channel_digits n (by omega)).2.2 _ hmem
  exact absurd hdigit (by decide)

theorem settled_colour {x : List Char} (h : Colour x) : ∀ c ∈ x, settled c = true := by
  cases h with
  | hex digits _ hdigits =>
    intro c hc
    rcases List.mem_cons.mp hc with rfl | hc
    · decide
    · exact settled_digit (hdigits c hc)
  | rgb r g b hr hg hb =>
    intro c hc
    unfold rgbText at hc
    rcases List.mem_append.mp hc with hc | hc
    · have hhead : "rgb(".toList.all settled = true := rfl
      exact List.all_eq_true.1 hhead c hc
    rcases List.mem_append.mp hc with hc | hc
    · rcases Text.mem_intercalate hc with rfl | ⟨part, hpart, hc⟩
      · decide
      · simp only [List.mem_cons, List.not_mem_nil, or_false] at hpart
        rcases hpart with rfl | rfl | rfl
        · exact settled_channel hr c hc
        · exact settled_channel hg c hc
        · exact settled_channel hb c hc
    · obtain rfl := List.mem_singleton.mp hc
      decide

theorem rgbColor_rgbText {r g b : Nat} (hr : r ≤ 255) (hg : g ≤ 255) (hb : b ≤ 255) :
    rgbColor (rgbText r g b) = some (r, g, b) := by
  have htake : ((rgbText r g b).take 4).map Char.toLower = "rgb(".toList := by
    unfold rgbText
    rw [List.take_left' (by decide)]
    decide
  have hdrop : (rgbText r g b).drop 4 =
      [','].intercalate [Nat.toDigits 10 r, Nat.toDigits 10 g, Nat.toDigits 10 b] ++ [')'] := by
    unfold rgbText
    rw [List.drop_left' (by decide)]
  have hparts : ([','].intercalate [Nat.toDigits 10 r, Nat.toDigits 10 g, Nat.toDigits 10 b]).splitOn
      ',' = [Nat.toDigits 10 r, Nat.toDigits 10 g, Nat.toDigits 10 b] := by
    refine List.splitOn_intercalate ',' (fun part hpart => ?_) (List.cons_ne_nil _ _)
    simp only [List.mem_cons, List.not_mem_nil, or_false] at hpart
    rcases hpart with rfl | rfl | rfl
    · exact no_comma hr
    · exact no_comma hg
    · exact no_comma hb
  obtain ⟨hr1, hr2, -⟩ := channel_digits r (by omega)
  obtain ⟨hg1, hg2, -⟩ := channel_digits g (by omega)
  obtain ⟨hb1, hb2, -⟩ := channel_digits b (by omega)
  unfold rgbColor
  rw [hdrop, if_pos ⟨htake, List.getLast?_concat⟩, List.dropLast_concat, hparts]
  simp only [List.map_cons, List.map_nil, strip_of_settled (settled_channel hr),
    strip_of_settled (settled_channel hg), strip_of_settled (settled_channel hb), hr1, hg1, hb1,
    hr2, hg2, hb2, Bool.and_self, if_true]

theorem normalizeColor_colour {v x : List Char} (h : normalizeColor s v = some x) : Colour x := by
  unfold normalizeColor at h
  dsimp only at h
  have hlower := s.lower_lower (strip isSpace v)
  generalize s.lower (strip isSpace v) = t at h hlower
  split at h
  · rename_i hhex
    obtain rfl := Option.some.inj h
    unfold hexColor at hhex
    split at hhex
    · rename_i digits
      rw [Bool.and_eq_true, Bool.or_eq_true, beq_iff_eq, beq_iff_eq, List.all_eq_true] at hhex
      obtain ⟨hlength, hdigits⟩ := hhex
      refine .hex digits hlength (fun c hc => lower_hexDigit (hdigits c hc) ?_)
      have hplain : ('#' :: digits).all plain = true := by
        rw [List.all_cons, Bool.and_eq_true, List.all_eq_true]
        exact ⟨by decide, fun c hc => isHexDigit_plain (hdigits c hc)⟩
      rw [s.lower_plain _ hplain] at hlower
      have hmap : ('#' :: digits).map Char.toLower = ('#' :: digits).map id := by
        rw [hlower, List.map_id]
      exact List.map_inj_left.mp hmap c (List.mem_cons_of_mem _ hc)
    · cases hhex
  · split at h
    · cases h
    · rename_i r g b _
      split at h
      · cases h
      · rename_i hbound
        obtain rfl := Option.some.inj h
        simp only [Bool.or_eq_true, decide_eq_true_eq, not_or, not_lt] at hbound
        exact .rgb r g b hbound.1.1 hbound.1.2 hbound.2

theorem hexColor_rgbText (r g b : Nat) : hexColor (rgbText r g b) = false := rfl

theorem normalizeColor_again {x : List Char} (h : Colour x) : normalizeColor s x = some x := by
  unfold normalizeColor
  rw [strip_of_settled (settled_colour h), lower_of_settled (settled_colour h)]
  cases h with
  | hex digits hlength hdigits =>
    refine if_pos ?_
    change ((digits.length == 3 || digits.length == 6) && digits.all isHexDigit) = true
    rw [Bool.and_eq_true, Bool.or_eq_true, beq_iff_eq, beq_iff_eq, List.all_eq_true]
    refine ⟨hlength, fun c hc => ?_⟩
    unfold isHexDigit
    simp only [Bool.or_eq_true, Bool.and_eq_true, decide_eq_true_eq]
    exact .inl (hdigits c hc)
  | rgb r g b hr hg hb =>
    simp only [rgbColor_rgbText hr hg hb, hexColor_rgbText, Bool.false_eq_true, if_false, not_lt.mpr hr, not_lt.mpr hg,
      not_lt.mpr hb, decide_false, Bool.or_self]

/-! ## Values of properties -/

theorem fontFamilies_again : ∀ x ∈ fontFamilies.map Prod.snd,
    (strip isSpace (strip "\"'".toList.contains (strip isSpace x))).all plain = true ∧
      fontFamilies.lookup
        ((strip isSpace (strip "\"'".toList.contains (strip isSpace x))).map Char.toLower) =
          some x := by
  decide

/-- The values that are compared in lower case are in lower case. -/
theorem words_again : ∀ x ∈ fontSizes ++ textAlignments, ∀ c ∈ x, settled c = true := by
  have hall : (fontSizes ++ textAlignments).all (fun x => x.all settled) = true := by decide
  exact fun x hx => List.all_eq_true.1 (List.all_eq_true.1 hall x hx)

theorem lineHeights_again : ∀ x ∈ lineHeights, strip isSpace x = x := by decide

theorem normalizeStyleValue_listed {p : Style} {v x : List Char}
    (h : normalizeStyleValue s p v = some x) : Listed p x := by
  unfold normalizeStyleValue at h
  dsimp only at h
  cases p with
  | fontFamily =>
    obtain ⟨before, after, hsplit, -⟩ := List.lookup_eq_some_iff.mp h
    refine .fontFamily x ?_
    rw [hsplit, List.map_append]
    exact List.mem_append_right _ List.mem_cons_self
  | fontSize =>
    obtain ⟨hmem, heq⟩ := Option.ite_none_right_eq_some.mp h
    obtain rfl := Option.some.inj heq
    exact .fontSize _ hmem
  | lineHeight =>
    obtain ⟨hmem, heq⟩ := Option.ite_none_right_eq_some.mp h
    obtain rfl := Option.some.inj heq
    exact .lineHeight _ hmem
  | color => exact .color x (normalizeColor_colour h)
  | backgroundColor => exact .backgroundColor x (normalizeColor_colour h)
  | textAlign =>
    obtain ⟨hmem, heq⟩ := Option.ite_none_right_eq_some.mp h
    obtain rfl := Option.some.inj heq
    exact .textAlign _ hmem

theorem normalizeStyleValue_again {p : Style} {x : List Char} (h : Listed p x) :
    normalizeStyleValue s p x = some x := by
  unfold normalizeStyleValue
  dsimp only
  cases h with
  | fontFamily x h =>
    obtain ⟨hplain, hlookup⟩ := fontFamilies_again x h
    dsimp only
    rw [s.lower_plain _ hplain, hlookup]
  | fontSize x h =>
    have hsettled := words_again x (List.mem_append_left _ h)
    dsimp only
    rw [strip_of_settled hsettled, lower_of_settled hsettled, if_pos h]
  | lineHeight x h =>
    dsimp only
    rw [lineHeights_again x h, if_pos h]
  | color x h =>
    dsimp only
    rw [strip_of_settled (settled_colour h), normalizeColor_again h]
  | backgroundColor x h =>
    dsimp only
    rw [strip_of_settled (settled_colour h), normalizeColor_again h]
  | textAlign x h =>
    have hsettled := words_again x (List.mem_append_right _ h)
    dsimp only
    rw [strip_of_settled hsettled, lower_of_settled hsettled, if_pos h]

theorem listed_no_semicolon {p : Style} {x : List Char} (h : Listed p x) : ';' ∉ x := by
  have htables : ∀ x ∈ fontFamilies.map Prod.snd ++ fontSizes ++ lineHeights ++ textAlignments,
      ';' ∉ x := by
    decide
  cases h with
  | fontFamily x h =>
    exact htables x (List.mem_append_left _ (List.mem_append_left _ (List.mem_append_left _ h)))
  | fontSize x h =>
    exact htables x (List.mem_append_left _ (List.mem_append_left _ (List.mem_append_right _ h)))
  | lineHeight x h => exact htables x (List.mem_append_left _ (List.mem_append_right _ h))
  | color x h => exact no_semicolon (settled_colour h)
  | backgroundColor x h => exact no_semicolon (settled_colour h)
  | textAlign x h => exact htables x (List.mem_append_right _ h)

/-! ## The attribute -/

theorem name_settled (p : Style) :
    (∀ c ∈ p.name, settled c = true) ∧ ':' ∉ p.name := by
  have hname : p.name.all settled = true ∧ ':' ∉ p.name := by cases p <;> decide
  exact ⟨List.all_eq_true.1 hname.1, hname.2⟩

/-- A declaration as the sanitizer writes it. -/
theorem declares_written {p : Style} {x : List Char} (h : Listed p x) :
    Declares s (entryText (p, x)) p x := by
  obtain ⟨hsettled, hcolon⟩ := name_settled p
  refine ⟨p.name, x, rfl, hcolon, ?_, normalizeStyleValue_again h⟩
  rw [strip_of_settled hsettled, lower_of_settled hsettled]

theorem splitOn_render {entries : List (Style × List Char)} (hne : entries ≠ [])
    (hlisted : ∀ entry ∈ entries, Listed entry.1 entry.2) :
    (render entries).splitOn ';' = entries.map entryText := by
  unfold render
  refine List.splitOn_intercalate ';' (fun text htext => ?_) (by rwa [ne_eq, List.map_eq_nil_iff])
  obtain ⟨entry, hentry, rfl⟩ := List.mem_map.mp htext
  intro hmem
  rcases List.mem_append.mp hmem with hmem | hmem
  · exact no_semicolon (name_settled entry.1).1 hmem
  · rcases List.mem_cons.mp hmem with heq | hmem
    · exact absurd heq (by decide)
    · exact listed_no_semicolon (hlisted entry hentry) hmem

/-- Reading back what was written gives the same dictionary. -/
theorem collect_written {normalized : Style → Option (List Char)}
    (hlisted : ∀ p x, normalized p = some x → Listed p x) :
    collect s ((inOrder normalized).map entryText) =
      normalized := by
  have hback : ∀ p x, collect s ((inOrder normalized).map entryText) p = some x → normalized p = some x := by
    intro p x h
    obtain ⟨later, ⟨earlier, text, hx, hsplit⟩, -⟩ := collect_eq_some.mp h
    have hmem : text ∈ (inOrder normalized).map entryText := by
      rw [hsplit]
      exact List.mem_append_right _ List.mem_cons_self
    obtain ⟨⟨q, y⟩, hq, rfl⟩ := List.mem_map.mp hmem
    have hy := mem_inOrder.mp hq
    have hwritten : Declares s (entryText (q, y)) q y := declares_written (hlisted q y hy)
    have hboth := (declaration_eq_some.mpr hwritten).symm.trans (declaration_eq_some.mpr hx)
    obtain ⟨rfl, rfl⟩ := Prod.mk.inj (Option.some.inj hboth)
    exact hy
  funext p
  apply Option.ext
  intro x
  constructor
  · exact hback p x
  · intro h
    have hmem : entryText (p, x) ∈ (inOrder normalized).map entryText :=
      List.mem_map_of_mem (mem_inOrder.mpr h)
    have hwritten : Declares s (entryText (p, x)) p x := declares_written (hlisted p x h)
    obtain ⟨y, hy⟩ := collect_of_declares hmem hwritten
    rw [hy, ← hback p y hy, h]

theorem normalizeStyle_eq (v : List Char) :
    normalizeStyle s v = if inOrder (collect s (v.splitOn ';')) = [] then none
      else some (render (inOrder (collect s (v.splitOn ';')))) := by
  unfold normalizeStyle
  split
  · rename_i h
    rw [h, if_pos rfl]
  · rename_i h
    rw [if_neg h]

/-- Style attributes are canonical and safe: either no declaration is acceptable, or what comes
out has the allowed properties in their order, each with the listed value of its last
acceptable declaration, and comes out of the sanitizer again as it is. -/
theorem styles_are_canonical (s : Casing) (v : List Char) :
    (normalizeStyle s v = none ∧ ∀ text ∈ v.splitOn ';', ∀ p x, ¬ Declares s text p x) ∨
      ∃ entries, normalizeStyle s v = some (render entries) ∧ entries ≠ [] ∧
        (entries.map Prod.fst).Sublist styleOrder ∧
        (∀ entry ∈ entries, Listed entry.1 entry.2) ∧
        (∀ p x, (p, x) ∈ entries ↔ LastDeclared s (v.splitOn ';') p x) ∧
        normalizeStyle s (render entries) = some (render entries) := by
  have hlisted : ∀ p x, collect s (v.splitOn ';') p = some x → Listed p x := by
    intro p x h
    obtain ⟨later, ⟨earlier, text, ⟨name, value, -, -, -, hvalue⟩, -⟩, -⟩ := collect_eq_some.mp h
    exact normalizeStyleValue_listed hvalue
  rw [normalizeStyle_eq v]
  by_cases hnone : inOrder (collect s (v.splitOn ';')) = []
  · refine .inl ⟨if_pos hnone, fun text htext p x hx => ?_⟩
    obtain ⟨y, hy⟩ := collect_of_declares htext hx
    have hmem := mem_inOrder.mpr hy
    rw [hnone] at hmem
    cases hmem
  · have hentries : ∀ entry ∈ inOrder (collect s (v.splitOn ';')), Listed entry.1 entry.2 :=
      fun entry hentry => hlisted entry.1 entry.2 (mem_inOrder.mp hentry)
    refine .inr ⟨inOrder (collect s (v.splitOn ';')), if_neg hnone, hnone, inOrder_sublist _,
      hentries, fun p x => mem_inOrder.trans collect_eq_some, ?_⟩
    rw [normalizeStyle_eq, splitOn_render hnone hentries, collect_written hlisted, if_neg hnone]

example : (normalizeStyle asciiCasing " COLOR : rgb( 1,02 ,3) ;x; color: red;text-align:LEFT".toList) =
    some "color:rgb(1,2,3);text-align:left".toList := by
  decide

end moaworks.mail_html_sanitizer
