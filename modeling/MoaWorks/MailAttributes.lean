-- The attributes of a mail (mail_html_sanitizer.py): what the filter makes of a value, and for which
-- values of a number it returns.
import MoaWorks.MailStyleLaws
import MoaWorks.Lib.Raise
import Mathlib.Algebra.Group.Nat.Defs

namespace moaworks.mail_html_sanitizer

open Text (isSpace)

/-! ## Digits -/

/-- The zeros of the decimal digits of Unicode, each with its nine successors. -/
def decimalZeros : List Nat :=
  [48, 1632, 1776, 1984, 2406, 2534, 2662, 2790, 2918, 3046, 3174, 3302, 3430, 3558, 3664, 3792,
    3872, 4160, 4240, 6112, 6160, 6470, 6608, 6784, 6800, 6992, 7088, 7232, 7248, 42528, 43216,
    43264, 43472, 43504, 43600, 44016, 65296, 66720, 68912, 69734, 69872, 69942, 70096, 70384,
    70736, 70864, 71248, 71360, 71472, 71904, 72016, 72784, 73040, 73120, 92768, 92864, 93008,
    120782, 120792, 120802, 120812, 120822, 123200, 123632, 125264, 130032]

/-- The digits that are not decimal: superscripts, subscripts, digits in circles and the like. -/
def otherDigits : List (Nat × Nat) :=
  [(178, 179), (185, 185), (4969, 4977), (6618, 6618), (8304, 8304), (8308, 8313), (8320, 8329),
    (9312, 9320), (9332, 9340), (9352, 9360), (9450, 9450), (9461, 9469), (9471, 9471),
    (10102, 10110), (10112, 10120), (10122, 10130), (68160, 68163), (69216, 69224), (69714, 69722),
    (127232, 127242)]

def decimal (c : Char) : Option Nat :=
  (decimalZeros.find? (fun zero => decide (zero ≤ c.toNat ∧ c.toNat ≤ zero + 9))).map
    (fun zero => c.toNat - zero)

def otherDigit (c : Char) : Bool :=
  otherDigits.any (fun range => decide (range.1 ≤ c.toNat ∧ c.toNat ≤ range.2))

/-- `str.isdigit` -/
def isdigit (t : List Char) : Bool :=
  decide (t ≠ []) && t.all (fun c => (decimal c).isSome || otherDigit c)

inductive Exc
  | value_error
  deriving DecidableEq, Repr

/-- The white space that `int` skips. -/
def intSpace (c : Char) : Bool := decide (9 ≤ c.toNat ∧ c.toNat ≤ 13) || decide (c.toNat = 32)

/-- `int` reads ASCII: a decimal digit becomes that of ASCII, and white space beyond ASCII a blank. -/
def toAscii (c : Char) : Char :=
  if c.toNat < 127 then c
  else if isSpace c then ' '
  else match decimal c with
    | some d => d.digitChar
    | none => '?'

/-- The digits, without the single underscores that may stand between two of them. `after` says
that the last character was a digit. -/
def digitChars (after : Bool) : List Char → Option (List Char)
  | [] => if after then some [] else none
  | c :: rest =>
    if c.isDigit then (digitChars true rest).map (fun digits => c :: digits)
    else if after && decide (c = '_') then digitChars false rest
    else none

def unsigned (text : List Char) : List Char :=
  match text with
  | [] => []
  | c :: rest => if c = '-' ∨ c = '+' then rest else c :: rest

/-- The most digits of `int(text)`. -/
def intMaxStrDigits : Nat := 4300

/-- `int(text)` -/
def int (value : List Char) : Except Exc ℤ := do
  let text := strip intSpace (value.map toAscii)
  let digits ← Raise.found (digitChars false (unsigned text)) .value_error
  Raise.require (digits.length ≤ intMaxStrDigits) .value_error
  let n := Nat.ofDigitChars 10 digits 0
  return if text.head? = some '-' then -n else n

/-! ## The filter -/

def normalizePositiveInteger (value : List Char) (maximum : ℕ) : Except Exc (Option (List Char)) :=
  if isdigit (strip isSpace value) = false then return none
  else do
    let normalized ← int value
    if 1 ≤ normalized ∧ normalized ≤ maximum then return some normalized.repr.toList
    else return none

/-- `[A-Za-z0-9]` without regard to case -/
def cidStart (c : Char) : Bool := c.isAlphanum || decide (c.toNat ∈ [0x130, 0x131, 0x17F, 0x212A])

def cidChar (c : Char) : Bool := cidStart c || decide (c ∈ "._%+@-".toList)

def contentIdFromSource (source : List Char) : Option (List Char) :=
  match strip isSpace source with
  | c :: i :: d :: ':' :: start :: rest =>
    if c.toLower = 'c' ∧ (i.toLower = 'i' ∨ i.toNat = 0x130 ∨ i.toNat = 0x131) ∧ d.toLower = 'd' ∧
      cidStart start ∧ rest.length ≤ 254 ∧ rest.all cidChar
    then some (start :: rest)
    else none
  | _ => none

/-- What `urlsplit` gives of a link. -/
structure Url where
  scheme : List Char
  netloc : List Char
  path : List Char

variable (s : Casing) (urlsplit : List Char → Except Exc Url)

def isSafeLink (value : List Char) : Except Exc Bool := do
  let normalized := strip isSpace value
  if normalized = [] ∨ normalized.any (fun c => decide (c.toNat ≤ 31) || decide (c.toNat = 127)) then
    return false
  else
    let parsed ← urlsplit normalized
    let scheme := s.lower parsed.scheme
    if scheme = "http".toList ∨ scheme = "https".toList then return decide (parsed.netloc ≠ [])
    else if scheme = "mailto".toList then return decide (parsed.path ≠ [])
    else return false

/-- The greatest number that an attribute of a tag may have, where it is one for a number. -/
def maximumOf (tag name : String) : Option ℕ :=
  if tag = "img" ∧ name ∈ ["width", "height"] then some 4096
  else if tag ∈ ["th", "td"] ∧ name ∈ ["colspan", "rowspan"] then some 100
  else none

def filterAttribute (tag name : String) (value : List Char) :
    Except Exc (Option (List Char)) :=
  if name = "style" then return normalizeStyle s value
  else if name = "href" then do
    let safe ← isSafeLink s urlsplit value
    return if safe then some (strip isSpace value) else none
  else if tag = "img" ∧ name = "src" then
    return (contentIdFromSource value).map (fun contentId => "cid:".toList ++ contentId)
  else match maximumOf tag name with
    | some maximum => normalizePositiveInteger value maximum
    | none => return some value

/-! ## Margins -/

theorem exists_margins (p : Char → Bool) (t : List Char) :
    ∃ before after, t = before ++ strip p t ++ after ∧ (∀ c ∈ before, p c = true) ∧
      ∀ c ∈ after, p c = true := by
  have hback : ∀ u : List Char, u = Text.dropEndWhile p u ++ (u.reverse.takeWhile p).reverse := by
    intro u
    unfold Text.dropEndWhile
    rw [← List.reverse_append, List.takeWhile_append_dropWhile, List.reverse_reverse]
  refine ⟨t.takeWhile p, ((t.dropWhile p).reverse.takeWhile p).reverse, ?_, ?_, ?_⟩
  · unfold strip
    rw [List.append_assoc, ← hback, List.takeWhile_append_dropWhile]
  · exact fun c hc => List.mem_takeWhile_imp hc
  · exact fun c hc => List.mem_takeWhile_imp (List.mem_reverse.1 hc)

theorem dropWhile_all {p : Char → Bool} {t : List Char} (h : ∀ c ∈ t, p c = true) (rest : List Char) :
    (t ++ rest).dropWhile p = rest.dropWhile p :=
  List.dropWhile_append_of_pos h

theorem strip_margins {p : Char → Bool} {before t after : List Char}
    (hbefore : ∀ c ∈ before, p c = true) (ht : ∀ c ∈ t, p c = false)
    (hafter : ∀ c ∈ after, p c = true) : strip p (before ++ t ++ after) = t := by
  unfold strip Text.dropEndWhile
  rw [List.append_assoc, dropWhile_all hbefore]
  cases t with
  | nil =>
    have hnil := dropWhile_all hafter []
    rw [List.append_nil, List.dropWhile_nil] at hnil
    rw [List.nil_append, hnil]
    rfl
  | cons c t =>
    have hlast := dropWhile_all (t := after.reverse) (fun c hc => hafter c (List.mem_reverse.1 hc))
    have hkeep : ((c :: t).reverse).dropWhile p = (c :: t).reverse := by
      rw [List.dropWhile_eq_self_iff]
      intro hl
      rw [ht _ (List.mem_reverse.1 (List.getElem_mem hl))]
      exact Bool.false_ne_true
    rw [List.cons_append, List.dropWhile_cons_of_neg (by rw [ht c List.mem_cons_self]; exact Bool.false_ne_true),
      ← List.cons_append, List.reverse_append, hlast, hkeep, List.reverse_reverse]

/-! ## Tables -/

/-- `isSpace`, of the code of a character. -/
theorem isSpace_code (c : Char) : isSpace c = isSpace (Char.ofNat c.toNat) := by
  rw [Char.ofNat_toNat]

theorem decimal_some {c : Char} {d : Nat} (h : decimal c = some d) :
    ∃ zero ∈ decimalZeros, d ≤ 9 ∧ c.toNat = zero + d := by
  obtain ⟨zero, hfind, rfl⟩ := Option.map_eq_some_iff.1 h
  have hmem := List.mem_of_find?_eq_some hfind
  have hrange := List.find?_some hfind
  have hbounds := of_decide_eq_true hrange
  exact ⟨zero, hmem, by omega, by omega⟩

theorem zeros_above : ∀ zero ∈ decimalZeros, zero = 48 ∨ 127 ≤ zero := by decide

theorem digits_no_space : ∀ zero ∈ decimalZeros, ∀ d < 10,
    isSpace (Char.ofNat (zero + d)) = false := by
  decide

theorem others_no_space : ∀ range ∈ otherDigits, 127 ≤ range.1 ∧ ∀ k < range.2 + 1 - range.1,
    isSpace (Char.ofNat (range.1 + k)) = false := by
  decide

theorem decimal_not_space {c : Char} {d : Nat} (h : decimal c = some d) : isSpace c = false := by
  obtain ⟨zero, hmem, hd, hcode⟩ := decimal_some h
  rw [isSpace_code, hcode]
  exact digits_no_space zero hmem d (Nat.lt_succ_of_le hd)

/-- A digit of ASCII stands for itself. -/
theorem decimal_digitChar {c : Char} (h : c.isDigit = true) : (decimal c).isSome = true := by
  have hcode : 48 ≤ c.toNat ∧ c.toNat ≤ 57 := Char.isDigit_iff_toNat.1 h
  unfold decimal
  rw [Option.isSome_map, List.find?_isSome]
  exact ⟨48, List.mem_cons_self, decide_eq_true hcode⟩

/-! ## What `int` reads -/

theorem digitChar_code : ∀ d < 10, d.digitChar.toNat = 48 + d ∧ d.digitChar.isDigit = true := by
  decide

theorem toAscii_decimal {c : Char} {d : Nat} (h : decimal c = some d) : toAscii c = d.digitChar := by
  obtain ⟨zero, hmem, hd, hcode⟩ := decimal_some h
  unfold toAscii
  split_ifs with hascii hspace
  · rcases zeros_above zero hmem with rfl | hhigh
    · have hdigit := (digitChar_code d (Nat.lt_succ_of_le hd)).1
      exact Char.toNat_inj.1 (hcode.trans hdigit.symm)
    · omega
  · rw [decimal_not_space h] at hspace
    cases hspace
  · rw [h]

/-- The separators that `strip` takes for white space, and `int` does not. -/
def separator (c : Char) : Bool := decide (28 ≤ c.toNat ∧ c.toNat ≤ 31)

theorem toAscii_space {c : Char} (h : isSpace c = true) (hsep : separator c = false) :
    intSpace (toAscii c) = true := by
  unfold toAscii
  split_ifs with hascii
  · have hno := of_decide_eq_false hsep
    simp only [isSpace, Bool.or_eq_true, Bool.and_eq_true, decide_eq_true_iff, beq_iff_eq] at h
    simp only [intSpace, Bool.or_eq_true, decide_eq_true_iff]
    omega
  · rfl

/-- The characters that can stand in a number, or beside it. -/
def legal (c : Char) : Bool := c.isDigit || c == '_' || c == '-' || c == '+' || intSpace c

theorem digitChars_mem {after : Bool} {t digits : List Char} (h : digitChars after t = some digits) :
    ∀ c ∈ t, c.isDigit = true ∨ c = '_' := by
  induction t generalizing after digits with
  | nil => exact fun _ hc => absurd hc List.not_mem_nil
  | cons x t ih =>
    intro c hc
    unfold digitChars at h
    split_ifs at h with hdigit hunder
    · obtain ⟨rest, hrest, _⟩ := Option.map_eq_some_iff.1 h
      rcases List.mem_cons.1 hc with rfl | hc
      · exact .inl hdigit
      · exact ih hrest c hc
    · rcases List.mem_cons.1 hc with rfl | hc
      · exact .inr (of_decide_eq_true (Bool.and_eq_true _ _ ▸ hunder).2)
      · exact ih h c hc

theorem digitChars_digits {t : List Char} (h : ∀ c ∈ t, c.isDigit = true) (after : Bool)
    (hne : t ≠ [] ∨ after = true) : digitChars after t = some t := by
  induction t generalizing after with
  | nil => rw [digitChars, if_pos (hne.resolve_left (fun h => h rfl))]
  | cons c t ih =>
    rw [digitChars, if_pos (h c List.mem_cons_self),
      ih (fun x hx => h x (List.mem_cons_of_mem c hx)) true (.inr rfl)]
    rfl

theorem unsigned_mem {text : List Char} {c : Char} (h : c ∈ text) :
    c ∈ unsigned text ∨ c = '-' ∨ c = '+' := by
  cases text with
  | nil => cases h
  | cons x rest =>
    rw [unsigned]
    split_ifs with hsign
    · rcases List.mem_cons.1 h with rfl | h
      · exact .inr hsign
      · exact .inl h
    · exact .inl h

/-- Where `int` returns, there is nothing in the value that it does not know. -/
theorem int_legal {value : List Char} {n : ℤ} (h : int value = .ok n) :
    ∀ c ∈ value, legal (toAscii c) = true := by
  obtain ⟨digits, hdigits, _⟩ := Raise.bind_ok.1 h
  have hread := digitChars_mem (Raise.found_ok.1 hdigits)
  obtain ⟨before, after, hvalue, hbefore, hafter⟩ := exists_margins intSpace (value.map toAscii)
  intro c hc
  have hmem : toAscii c ∈ value.map toAscii := List.mem_map_of_mem hc
  unfold legal
  simp only [Bool.or_eq_true, beq_iff_eq]
  rw [hvalue] at hmem
  rcases List.mem_append.1 hmem with hmem | hmem
  · rcases List.mem_append.1 hmem with hmem | hmem
    · exact .inr (hbefore _ hmem)
    · rcases unsigned_mem hmem with hmem | hsign | hsign
      · rcases hread _ hmem with hdigit | hunder
        · exact .inl (.inl (.inl (.inl hdigit)))
        · exact .inl (.inl (.inl (.inr hunder)))
      · exact .inl (.inl (.inr hsign))
      · exact .inl (.inr hsign)
  · exact .inr (hafter _ hmem)

theorem separator_illegal {c : Char} (h : separator c = true) : legal (toAscii c) = false := by
  have hrange := of_decide_eq_true h
  obtain ⟨k, hk, hcode⟩ : ∃ k, k < 4 ∧ c.toNat = 28 + k := ⟨c.toNat - 28, by omega, by omega⟩
  have hall : ∀ k < 4, legal (toAscii (Char.ofNat (28 + k))) = false := by decide
  have hc := hall k hk
  rwa [← hcode, Char.ofNat_toNat] at hc

theorem other_illegal {c : Char} (h : otherDigit c = true) (hdecimal : decimal c = none) :
    legal (toAscii c) = false := by
  obtain ⟨range, hrange, hbounds⟩ := List.any_eq_true.1 h
  have hcode := of_decide_eq_true hbounds
  obtain ⟨hhigh, hspace⟩ := others_no_space range hrange
  have hno : isSpace c = false := by
    have hk := hspace (c.toNat - range.1) (by omega)
    rwa [Nat.add_sub_cancel' hcode.1, Char.ofNat_toNat] at hk
  unfold toAscii
  rw [if_neg (by omega), hno, if_neg Bool.false_ne_true, hdecimal]
  rfl

/-- A number of decimal digits between blanks. -/
theorem int_decimals {before t after : List Char} (hne : t ≠ [])
    (ht : ∀ c ∈ t, (decimal c).isSome = true)
    (hbefore : ∀ c ∈ before, isSpace c = true ∧ separator c = false)
    (hafter : ∀ c ∈ after, isSpace c = true ∧ separator c = false) :
    int (before ++ t ++ after) = if t.length ≤ intMaxStrDigits
      then .ok (Nat.ofDigitChars 10 (t.map toAscii) 0 : Nat) else .error .value_error := by
  have hdigit : ∀ x ∈ t.map toAscii, x.isDigit = true := by
    intro x hx
    obtain ⟨c, hc, rfl⟩ := List.mem_map.1 hx
    obtain ⟨d, hd⟩ := Option.isSome_iff_exists.1 (ht c hc)
    obtain ⟨_, _, hle, _⟩ := decimal_some hd
    rw [toAscii_decimal hd]
    exact (digitChar_code d (Nat.lt_succ_of_le hle)).2
  have hblank : ∀ u : List Char, (∀ c ∈ u, isSpace c = true ∧ separator c = false) →
      ∀ x ∈ u.map toAscii, intSpace x = true := by
    intro u hu x hx
    obtain ⟨c, hc, rfl⟩ := List.mem_map.1 hx
    exact toAscii_space (hu c hc).1 (hu c hc).2
  have hstrip : strip intSpace ((before ++ t ++ after).map toAscii) = t.map toAscii := by
    rw [List.map_append, List.map_append]
    refine strip_margins (hblank before hbefore) (fun x hx => ?_) (hblank after hafter)
    have hcode : 48 ≤ x.toNat ∧ x.toNat ≤ 57 := Char.isDigit_iff_toNat.1 (hdigit x hx)
    unfold intSpace
    rw [decide_eq_false (by omega), decide_eq_false (by omega)]
    rfl
  have hhead : ∀ c : Char, c.isDigit = false → (t.map toAscii).head? ≠ some c := by
    intro c hc heq
    have hmem := hdigit c (List.mem_of_head? heq)
    rw [hc] at hmem
    cases hmem
  have hunsigned : unsigned (t.map toAscii) = t.map toAscii := by
    cases t with
    | nil => exact absurd rfl hne
    | cons c t =>
      refine if_neg (fun hsign => ?_)
      rcases hsign with hsign | hsign
      · exact hhead '-' rfl (congrArg some hsign)
      · exact hhead '+' rfl (congrArg some hsign)
  unfold int
  dsimp only
  rw [hstrip, hunsigned, digitChars_digits hdigit false (.inl (fun h => hne (List.map_eq_nil_iff.1 h)))]
  simp only [if_neg (hhead '-' rfl)]
  split_ifs with hlength
  · refine Raise.bind_ok.2 ⟨_, rfl, Raise.bind_ok.2 ⟨(), Raise.require_ok.2 ?_, rfl⟩⟩
    rwa [List.length_map]
  · rw [← List.length_map (f := toAscii)] at hlength
    have hrequire : Raise.require ((t.map toAscii).length ≤ intMaxStrDigits) Exc.value_error =
      .error .value_error := if_neg hlength
    change (Raise.require ((t.map toAscii).length ≤ intMaxStrDigits) Exc.value_error >>=
      fun _ => pure (Nat.ofDigitChars 10 (t.map toAscii) 0 : ℤ)) = _
    rw [hrequire]
    rfl

/-! ## The filter -/

/-- What `int` reads where the stripped value is a numeral: decimal digits only, not too many, and
none of the separators beside them. -/
def Readable (value : List Char) : Prop :=
  (∀ c ∈ strip isSpace value, (decimal c).isSome = true) ∧
    (strip isSpace value).length ≤ intMaxStrDigits ∧ ∀ c ∈ value, separator c = false

theorem isdigit_ne_nil {t : List Char} (h : isdigit t = true) : t ≠ [] :=
  of_decide_eq_true ((Bool.and_eq_true _ _).mp h).1

/-- A value that is a numeral once stripped: `int` returns where it is readable. -/
theorem int_ok_iff {value : List Char} (h : isdigit (strip isSpace value) = true) :
    (∃ n, int value = .ok n) ↔ Readable value := by
  obtain ⟨before, after, hvalue, hbefore, hafter⟩ := exists_margins isSpace value
  have hne := isdigit_ne_nil h
  have hread : (∀ c ∈ strip isSpace value, (decimal c).isSome = true) →
      (∀ c ∈ value, separator c = false) →
      int value = if (strip isSpace value).length ≤ intMaxStrDigits
        then .ok (Nat.ofDigitChars 10 ((strip isSpace value).map toAscii) 0 : Nat)
        else .error .value_error := by
    intro hdecimal hsep
    have hmem : ∀ c, c ∈ before ∨ c ∈ after → separator c = false := by
      intro c hc
      refine hsep c ?_
      rw [hvalue, List.mem_append, List.mem_append]
      exact hc.elim (fun hc => .inl (.inl hc)) .inr
    have hint := int_decimals hne hdecimal (fun c hc => ⟨hbefore c hc, hmem c (.inl hc)⟩)
      (fun c hc => ⟨hafter c hc, hmem c (.inr hc)⟩)
    rwa [← hvalue] at hint
  constructor
  · rintro ⟨n, hn⟩
    have hlegal := int_legal hn
    have hsep : ∀ c ∈ value, separator c = false := by
      intro c hc
      by_contra hcsep
      have hno := separator_illegal (eq_true_of_ne_false hcsep)
      rw [hlegal c hc] at hno
      cases hno
    have hdecimal : ∀ c ∈ strip isSpace value, (decimal c).isSome = true := by
      intro c hc
      have hdigit := List.all_eq_true.1 ((Bool.and_eq_true _ _).mp h).2 c hc
      rcases (Bool.or_eq_true _ _).mp hdigit with hdigit | hother
      · exact hdigit
      · cases hd : decimal c with
        | some d => rfl
        | none =>
          have hno := other_illegal hother hd
          rw [hlegal c (by rw [hvalue]; exact List.mem_append_left _ (List.mem_append_right _ hc))] at hno
          cases hno
    refine ⟨hdecimal, ?_, hsep⟩
    rw [hread hdecimal hsep] at hn
    split_ifs at hn with hlength
    exact hlength
  · rintro ⟨hdecimal, hlength, hsep⟩
    rw [hread hdecimal hsep, if_pos hlength]
    exact ⟨_, rfl⟩

/-- The numeral of a small number comes back as it is. -/
theorem numeral_again {n maximum : ℕ} (hpos : 1 ≤ n) (hmax : n ≤ maximum) (hsmall : n < 10 ^ 4) :
    normalizePositiveInteger n.repr.toList maximum = .ok (some n.repr.toList) := by
  have hdigit : ∀ c ∈ n.repr.toList, c.isDigit = true := by
    intro c hc
    rw [Nat.toList_repr] at hc
    exact Nat.isDigit_of_mem_toDigits (by decide) (by decide) hc
  have hdecimal : ∀ c ∈ n.repr.toList, (decimal c).isSome = true :=
    fun c hc => decimal_digitChar (hdigit c hc)
  have hne : n.repr.toList ≠ [] := by
    rw [Nat.toList_repr]
    exact Nat.toDigits_ne_nil
  have hstrip : strip isSpace n.repr.toList = n.repr.toList := by
    refine strip_of_none (fun c hc => ?_)
    obtain ⟨d, hd⟩ := Option.isSome_iff_exists.1 (hdecimal c hc)
    exact decimal_not_space hd
  have hisdigit : isdigit n.repr.toList = true := by
    unfold isdigit
    rw [decide_eq_true hne, Bool.true_and, List.all_eq_true]
    intro c hc
    rw [hdecimal c hc, Bool.true_or]
  have hascii : n.repr.toList.map toAscii = n.repr.toList := by
    rw [List.map_congr_left (g := id), List.map_id]
    intro c hc
    have hcode : 48 ≤ c.toNat ∧ c.toNat ≤ 57 := Char.isDigit_iff_toNat.1 (hdigit c hc)
    exact if_pos (by omega)
  have hint : int n.repr.toList = .ok (n : ℤ) := by
    have hnone : ∀ c ∈ ([] : List Char), isSpace c = true ∧ separator c = false :=
      fun _ hc => absurd hc List.not_mem_nil
    have hread := int_decimals hne hdecimal hnone hnone
    rw [List.nil_append, List.append_nil, hascii, if_pos] at hread
    · rw [hread, Nat.toList_repr, Nat.ofDigitChars_ten_toDigits]
    · rw [Nat.toList_repr]
      exact Nat.le_trans ((Nat.length_toDigits_le_iff (by decide) (by decide)).2 hsmall) (by decide)
  unfold normalizePositiveInteger
  rw [hstrip, hisdigit, if_neg (by decide), hint]
  exact if_pos ⟨by exact_mod_cast hpos, by exact_mod_cast hmax⟩

/-- The filter returns for an attribute that is a number: nothing, or the numeral of a number from 1
to the maximum, which it then leaves alone. -/
def Numeric (s : Casing) (urlsplit : List Char → Except Exc Url) (tag name : String)
    (value : List Char) (maximum : ℕ) : Prop :=
  ∃ result, filterAttribute s urlsplit tag name value = .ok result ∧
    ∀ t, result = some t → (∃ n : ℕ, 1 ≤ n ∧ n ≤ maximum ∧ t = n.repr.toList) ∧
      filterAttribute s urlsplit tag name t = .ok (some t)

theorem maximumOf_some {tag name : String} {maximum : ℕ} (h : maximumOf tag name = some maximum) :
    maximum < 10 ^ 4 ∧ ∀ (s : Casing) urlsplit value, filterAttribute s urlsplit tag name value =
      normalizePositiveInteger value maximum := by
  have hcases : (name ≠ "style" ∧ name ≠ "href" ∧ ¬(tag = "img" ∧ name = "src")) ∧
      maximum < 10 ^ 4 := by
    unfold maximumOf at h
    split_ifs at h with himg hcell
    · cases h
      simp only [List.mem_cons, List.not_mem_nil, or_false] at himg
      rcases himg.2 with rfl | rfl
      · exact ⟨⟨by decide, by decide, fun h => absurd h.2 (by decide)⟩, by decide⟩
      · exact ⟨⟨by decide, by decide, fun h => absurd h.2 (by decide)⟩, by decide⟩
    · cases h
      simp only [List.mem_cons, List.not_mem_nil, or_false] at hcell
      rcases hcell.2 with rfl | rfl
      · exact ⟨⟨by decide, by decide, fun h => absurd h.2 (by decide)⟩, by decide⟩
      · exact ⟨⟨by decide, by decide, fun h => absurd h.2 (by decide)⟩, by decide⟩
  refine ⟨hcases.2, fun s urlsplit value => ?_⟩
  unfold filterAttribute
  rw [if_neg hcases.1.1, if_neg hcases.1.2.1, if_neg hcases.1.2.2, h]

/-- The filter of a number does what it should for exactly the values that are no numeral once
stripped, or that `int` can read. -/
theorem numeric_iff (s : Casing) (urlsplit : List Char → Except Exc Url) (tag name : String)
    (maximum : ℕ) (h : maximumOf tag name = some maximum) (value : List Char) :
    Numeric s urlsplit tag name value maximum ↔
      (isdigit (strip isSpace value) = true → Readable value) := by
  obtain ⟨hsmall, hfilter⟩ := maximumOf_some h
  unfold Numeric
  simp only [hfilter]
  constructor
  · rintro ⟨result, hresult, _⟩ hdigit
    unfold normalizePositiveInteger at hresult
    rw [hdigit, if_neg (by decide)] at hresult
    obtain ⟨n, hn, _⟩ := Raise.bind_ok.1 hresult
    exact (int_ok_iff hdigit).1 ⟨n, hn⟩
  · intro hread
    by_cases hdigit : isdigit (strip isSpace value) = true
    · obtain ⟨k, hk⟩ := (int_ok_iff hdigit).2 (hread hdigit)
      have hrun : normalizePositiveInteger value maximum =
          if 1 ≤ k ∧ k ≤ maximum then .ok (some k.repr.toList) else .ok none := by
        unfold normalizePositiveInteger
        rw [hdigit, if_neg (by decide), hk]
        rfl
      rw [hrun]
      split_ifs with hrange
      · obtain ⟨n, rfl⟩ := Int.eq_ofNat_of_zero_le (Int.le_trans (by decide) hrange.1)
        have hpos : 1 ≤ n := by exact_mod_cast hrange.1
        have hmax : n ≤ maximum := by exact_mod_cast hrange.2
        refine ⟨_, rfl, fun t ht => ?_⟩
        obtain rfl := Option.some.inj ht
        exact ⟨⟨n, hpos, hmax, rfl⟩, numeral_again hpos hmax (Nat.lt_of_le_of_lt hmax hsmall)⟩
      · exact ⟨none, rfl, fun t ht => (by cases ht)⟩
    · refine ⟨none, ?_, fun t ht => (by cases ht)⟩
      exact if_pos (Bool.eq_false_iff.2 hdigit)

theorem arabic_digits_are_read :
    Numeric asciiCasing (fun _ => .error .value_error) "img" "width" " ١٢ ".toList 4096 := by
  have hdigits : (strip isSpace " ١٢ ".toList).all (fun c => (decimal c).isSome) = true := by
    decide +kernel
  have hseparators : " ١٢ ".toList.any separator = false := by decide +kernel
  refine (numeric_iff asciiCasing (fun _ => .error .value_error) "img" "width" 4096 rfl
    " ١٢ ".toList).2 (fun _ => ⟨List.all_eq_true.1 hdigits, by decide +kernel, fun c hc => ?_⟩)
  exact Bool.eq_false_iff.2 (List.any_eq_false.1 hseparators c hc)

/-- A superscript is a digit, and `int` raises. -/
theorem a_superscript_raises : ¬∀ tag name maximum value, maximumOf tag name = some maximum →
    Numeric asciiCasing (fun _ => .error .value_error) tag name value maximum := by
  intro hall
  obtain ⟨result, hresult, _⟩ := hall "img" "width" 4096 ['²'] rfl
  have hrun : filterAttribute asciiCasing (fun _ => .error .value_error) "img" "width" ['²'] =
      .error .value_error := by
    decide +kernel
  rw [hrun] at hresult
  cases hresult

end moaworks.mail_html_sanitizer
