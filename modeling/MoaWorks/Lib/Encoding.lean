-- Bytes as texts: UTF-8, hexadecimal and base64 as Python has them, times in
-- ISO format, and fields joined by a separator.
import Mathlib

namespace Encoding

abbrev Bytes := List UInt8

/-- `str.encode("utf-8")`. -/
def utf8 (s : String) : Bytes := s.toByteArray.data.toList

theorem utf8_injective {s t : String} (h : utf8 s = utf8 t) : s = t := by
  have hdata : s.toByteArray.data = t.toByteArray.data := Array.toList_inj.1 h
  exact String.toByteArray_inj.1 (ByteArray.ext hdata)

theorem utf8_eq (s : String) : utf8 s = s.toList.flatMap String.utf8EncodeChar := by
  have hs : s.toByteArray = (String.ofList s.toList).toByteArray := by rw [String.ofList_toList]
  unfold utf8
  rw [hs, String.toByteArray_ofList]
  simp [List.utf8Encode]

theorem utf8_append (s t : String) : utf8 (s ++ t) = utf8 s ++ utf8 t := by
  rw [utf8_eq, utf8_eq, utf8_eq, String.toList_append, List.flatMap_append]

theorem utf8EncodeChar_ascii {c : Char} (h : c.toNat < 128) :
    String.utf8EncodeChar c = [UInt8.ofNat c.toNat] := by
  unfold String.utf8EncodeChar
  rw [if_pos (by simpa using Nat.lt_succ_iff.1 h)]
  rfl

/-- The other characters have no byte of ASCII. -/
theorem le_of_mem_utf8EncodeChar {c : Char} (h : ¬ c.toNat < 128) {b : UInt8}
    (hb : b ∈ String.utf8EncodeChar c) : 128 ≤ b := by
  unfold String.utf8EncodeChar at hb
  have hval : c.val.toNat = c.toNat := rfl
  simp only [hval] at hb
  rw [UInt8.le_iff_toNat_le]
  split_ifs at hb
  · omega
  · simp at hb
    rcases hb with rfl | rfl <;> simp <;> omega
  · simp at hb
    rcases hb with rfl | rfl | rfl <;> simp <;> omega
  · simp at hb
    rcases hb with rfl | rfl | rfl | rfl <;> simp <;> omega

theorem mem_of_mem_utf8 {s : String} {b : UInt8} (hb : b ∈ utf8 s) (hlt : b < 128) :
    Char.ofNat b.toNat ∈ s.toList := by
  rw [utf8_eq] at hb
  obtain ⟨c, hc, hb⟩ := List.mem_flatMap.1 hb
  by_cases h : c.toNat < 128
  · rw [utf8EncodeChar_ascii h, List.mem_singleton] at hb
    have hnat : b.toNat = c.toNat := by
      rw [hb]
      simp
      omega
    rwa [hnat, Char.ofNat_toNat]
  · have hle := le_of_mem_utf8EncodeChar h hb
    rw [UInt8.le_iff_toNat_le] at hle
    rw [UInt8.lt_iff_toNat_lt] at hlt
    omega

/-! ## Hexadecimal -/

def hexChar (n : Nat) : Char := Nat.digitChar (n % 16)

/-- `bytes.hex`. -/
def hex (bytes : Bytes) : String :=
  String.ofList (bytes.flatMap (fun b => [hexChar (b.toNat / 16), hexChar b.toNat]))

def hexValue (c : Char) : Option Nat :=
  if '0' ≤ c ∧ c ≤ '9' then some (c.toNat - 48)
  else if 'a' ≤ c ∧ c ≤ 'f' then some (c.toNat - 87)
  else if 'A' ≤ c ∧ c ≤ 'F' then some (c.toNat - 55)
  else none

/-- ASCII white space, which `bytes.fromhex` skips between two bytes. -/
def isBlank (c : Char) : Bool := decide (c.toNat = 32) || (decide (9 ≤ c.toNat) && decide (c.toNat ≤ 13))

def hexBytes : List Char → Option Bytes
  | [] => some []
  | [c] => if isBlank c then some [] else none
  | c :: d :: rest =>
    if isBlank c then hexBytes (d :: rest)
    else do
      let high ← hexValue c
      let low ← hexValue d
      let bytes ← hexBytes rest
      pure (UInt8.ofNat (16 * high + low) :: bytes)

/-- `bytes.fromhex`, which raises where this is `none`. -/
def fromhex (s : String) : Option Bytes := hexBytes s.toList

theorem hexChar_spec (n : Nat) : hexValue (hexChar n) = some (n % 16) ∧ isBlank (hexChar n) = false := by
  have h : ∀ k < 16, hexValue (Nat.digitChar k) = some k ∧ isBlank (Nat.digitChar k) = false := by
    decide
  exact h (n % 16) (Nat.mod_lt _ (by omega))

theorem mem_hex {bytes : Bytes} {c : Char} (h : c ∈ (hex bytes).toList) :
    c ∈ "0123456789abcdef".toList := by
  have hchar : ∀ n, hexChar n ∈ "0123456789abcdef".toList := by
    intro n
    have hall : ∀ k < 16, Nat.digitChar k ∈ "0123456789abcdef".toList := by decide
    exact hall (n % 16) (Nat.mod_lt _ (by omega))
  unfold hex at h
  rw [String.toList_ofList, List.mem_flatMap] at h
  obtain ⟨b, _, hb⟩ := h
  simp only [List.mem_cons, List.not_mem_nil, or_false] at hb
  rcases hb with rfl | rfl
  · exact hchar _
  · exact hchar _

theorem fromhex_hex (bytes : Bytes) : fromhex (hex bytes) = some bytes := by
  unfold fromhex hex
  rw [String.toList_ofList]
  induction bytes with
  | nil => rfl
  | cons b rest ih =>
    obtain ⟨hhigh, hblank⟩ := hexChar_spec (b.toNat / 16)
    obtain ⟨hlow, _⟩ := hexChar_spec b.toNat
    have hlt : b.toNat < 256 := b.toNat_lt
    have hbyte : 16 * (b.toNat / 16 % 16) + b.toNat % 16 = b.toNat := by omega
    simp only [List.flatMap_cons, List.cons_append, List.nil_append]
    unfold hexBytes
    rw [if_neg (by simp [hblank]), hhigh, hlow, ih]
    simp only [Option.bind_eq_bind, Option.bind_some, Option.pure_def, hbyte, UInt8.ofNat_toNat]

/-! ## Base64 -/

def b64Alphabet : List Char :=
  "ABCDEFGHIJKLMNOPQRSTUVWXYZabcdefghijklmnopqrstuvwxyz0123456789+/".toList

def b64Char (n : Nat) : Char := b64Alphabet.getD (n % 64) 'A'

def b64Value (c : Char) : Option Nat := b64Alphabet.idxOf? c

def b64Chars : Bytes → List Char
  | [] => []
  | [a] => [b64Char (a.toNat / 4), b64Char (a.toNat * 16), '=', '=']
  | [a, b] =>
    [b64Char (a.toNat / 4), b64Char (a.toNat * 16 + b.toNat / 16), b64Char (b.toNat * 4), '=']
  | a :: b :: c :: rest =>
    b64Char (a.toNat / 4) :: b64Char (a.toNat * 16 + b.toNat / 16) ::
      b64Char (b.toNat * 4 + c.toNat / 64) :: b64Char c.toNat :: b64Chars rest

/-- `base64.b64encode`. -/
def b64encode (bytes : Bytes) : String := String.ofList (b64Chars bytes)

/-- Groups of four characters; the last one may end with `=` or `==`. -/
def b64Bytes : List Char → Option Bytes
  | [] => some []
  | w :: x :: y :: z :: rest => do
    let first ← b64Value w
    let second ← b64Value x
    if rest = [] ∧ z = '=' then
      if y = '=' then pure [UInt8.ofNat (4 * first + second / 16)]
      else do
        let third ← b64Value y
        pure [UInt8.ofNat (4 * first + second / 16), UInt8.ofNat (16 * (second % 16) + third / 4)]
    else do
      let third ← b64Value y
      let fourth ← b64Value z
      let bytes ← b64Bytes rest
      pure (UInt8.ofNat (4 * first + second / 16) :: UInt8.ofNat (16 * (second % 16) + third / 4) ::
        UInt8.ofNat (64 * (third % 4) + fourth) :: bytes)
  | _ => none

/-- `base64.b64decode(…, validate=True)`, which raises where this is `none`. -/
def b64decode (s : String) : Option Bytes := b64Bytes s.toList

theorem b64Value_char (n : Nat) : b64Value (b64Char n) = some (n % 64) ∧ b64Char n ≠ '=' := by
  have h : ∀ k < 64, b64Value (b64Alphabet.getD k 'A') = some k ∧ b64Alphabet.getD k 'A' ≠ '=' := by
    decide +kernel
  exact h (n % 64) (Nat.mod_lt _ (by omega))

theorem b64Bytes_chars (bytes : Bytes) : b64Bytes (b64Chars bytes) = some bytes := by
  fun_induction b64Chars bytes with
  | case1 => rfl
  | case2 a =>
    have hlt : a.toNat < 256 := a.toNat_lt
    have hbyte : 4 * (a.toNat / 4 % 64) + a.toNat * 16 % 64 / 16 = a.toNat := by omega
    simp only [b64Bytes, b64Value_char, and_self, ↓reduceIte, Option.bind_eq_bind, Option.bind_some,
      Option.pure_def, hbyte, UInt8.ofNat_toNat]
  | case3 a b =>
    have hlta : a.toNat < 256 := a.toNat_lt
    have hltb : b.toNat < 256 := b.toNat_lt
    have hfirst : 4 * (a.toNat / 4 % 64) + (a.toNat * 16 + b.toNat / 16) % 64 / 16 = a.toNat := by
      omega
    have hsecond : 16 * ((a.toNat * 16 + b.toNat / 16) % 64 % 16) + b.toNat * 4 % 64 / 4 =
        b.toNat := by
      omega
    simp only [b64Bytes, b64Value_char, and_self, ↓reduceIte, Option.bind_eq_bind,
      Option.bind_some, Option.pure_def, hfirst, hsecond, UInt8.ofNat_toNat]
  | case4 a b c rest ih =>
    have hlta : a.toNat < 256 := a.toNat_lt
    have hltb : b.toNat < 256 := b.toNat_lt
    have hltc : c.toNat < 256 := c.toNat_lt
    have hfirst : 4 * (a.toNat / 4 % 64) + (a.toNat * 16 + b.toNat / 16) % 64 / 16 = a.toNat := by
      omega
    have hsecond : 16 * ((a.toNat * 16 + b.toNat / 16) % 64 % 16) +
        (b.toNat * 4 + c.toNat / 64) % 64 / 4 = b.toNat := by
      omega
    have hthird : 64 * ((b.toNat * 4 + c.toNat / 64) % 64 % 4) + c.toNat % 64 = c.toNat := by omega
    unfold b64Bytes
    simp only [b64Value_char, and_false, ↓reduceIte, ih, Option.bind_eq_bind, Option.bind_some, Option.pure_def, hfirst,
      hsecond, hthird, UInt8.ofNat_toNat]

theorem b64Chars_append {a : Bytes} (h : 3 ∣ a.length) (b : Bytes) :
    b64Chars (a ++ b) = b64Chars a ++ b64Chars b := by
  fun_induction b64Chars a with
  | case1 => rfl
  | case2 x => simp at h
  | case3 x y => simp at h
  | case4 x y z rest ih =>
    have hrest : 3 ∣ rest.length := by
      simp only [List.length_cons] at h
      omega
    simp only [List.cons_append, b64Chars, ih hrest]

theorem length_b64Chars (a : Bytes) : (b64Chars a).length = (a.length + 2) / 3 * 4 := by
  fun_induction b64Chars a with
  | case1 => rfl
  | case2 x => simp
  | case3 x y => simp
  | case4 x y z rest ih =>
    simp only [List.length_cons, ih]
    omega

theorem mem_of_mem_b64Chars {a : Bytes} {c : Char} (h : c ∈ b64Chars a) : c ∈ '=' :: b64Alphabet := by
  have hchar : ∀ n, b64Char n ∈ '=' :: b64Alphabet := by
    intro n
    have hall : ∀ k < 64, b64Alphabet.getD k 'A' ∈ '=' :: b64Alphabet := by decide +kernel
    exact hall (n % 64) (Nat.mod_lt _ (by omega))
  fun_induction b64Chars a with
  | case1 => cases h
  | case2 x =>
    simp only [List.mem_cons, List.not_mem_nil, or_false] at h
    rcases h with rfl | rfl | rfl | rfl
    · exact hchar _
    · exact hchar _
    · exact List.mem_cons_self
    · exact List.mem_cons_self
  | case3 x y =>
    simp only [List.mem_cons, List.not_mem_nil, or_false] at h
    rcases h with rfl | rfl | rfl | rfl
    · exact hchar _
    · exact hchar _
    · exact hchar _
    · exact List.mem_cons_self
  | case4 x y z rest ih =>
    simp only [List.mem_cons] at h
    rcases h with rfl | rfl | rfl | rfl | h
    · exact hchar _
    · exact hchar _
    · exact hchar _
    · exact hchar _
    · exact ih h

theorem b64decode_encode (bytes : Bytes) : b64decode (b64encode bytes) = some bytes := by
  unfold b64decode b64encode
  rw [String.toList_ofList]
  exact b64Bytes_chars bytes

/-! ## Times -/

/-- The lowest `width` decimal digits of `n`. -/
def decimal (width n : Nat) : List Char :=
  (List.range width).reverse.map (fun i => Nat.digitChar (n / 10 ^ i % 10))

/-- Year, month and day, a number of days after 1 January 1970. -/
def civil (days : Nat) : Nat × Nat × Nat :=
  let z := days + 719468
  let era := z / 146097
  let doe := z % 146097
  let yoe := (doe - doe / 1460 + doe / 36524 - doe / 146096) / 365
  let doy := doe - (365 * yoe + yoe / 4 - yoe / 100)
  let mp := (5 * doy + 2) / 153
  let month := if mp < 10 then mp + 3 else mp - 9
  (yoe + 400 * era + (if month ≤ 2 then 1 else 0), month, doy - (153 * mp + 2) / 5 + 1)

/-- `datetime.isoformat` in UTC, of a number of microseconds after 1970. -/
def isoformat (micros : Nat) : String :=
  let seconds := micros / 1000000
  let (year, month, day) := civil (seconds / 86400)
  let fraction := if micros % 1000000 = 0 then [] else '.' :: decimal 6 (micros % 1000000)
  String.ofList (decimal 4 year ++ '-' :: decimal 2 month ++ '-' :: decimal 2 day ++ 'T' ::
    decimal 2 (seconds / 3600 % 24) ++ ':' :: decimal 2 (seconds / 60 % 60) ++ ':' ::
    decimal 2 (seconds % 60) ++ fraction ++ ['+', '0', '0', ':', '0', '0'])

example : isoformat 1788004800000000 = "2026-08-29T12:00:00+00:00" := by decide

/-! ## Joined fields -/

/-- The separator does not occur in the text. -/
def Free (separator : Char) (s : String) : Prop := separator ∉ s.toList

instance (separator : Char) (s : String) : Decidable (Free separator s) :=
  inferInstanceAs (Decidable (separator ∉ s.toList))

/-- Fields without the separator can be read back from the joined text. -/
theorem join_injective {separator : Char} {fields fields' : List String}
    (h : ∀ f ∈ fields, Free separator f) (h' : ∀ f ∈ fields', Free separator f)
    (hne : fields ≠ []) (hne' : fields' ≠ [])
    (hjoin : (String.ofList [separator]).intercalate fields =
      (String.ofList [separator]).intercalate fields') : fields = fields' := by
  have hread : ∀ fs : List String, (∀ f ∈ fs, Free separator f) → fs ≠ [] →
      List.splitOn separator ((String.ofList [separator]).intercalate fs).toList =
        fs.map String.toList := by
    intro fs hfree hfs
    rw [String.toList_intercalate, String.toList_ofList]
    apply List.splitOn_intercalate
    · intro l hl
      obtain ⟨f, hf, rfl⟩ := List.mem_map.1 hl
      exact hfree f hf
    · simpa using hfs
  have hlists : fields.map String.toList = fields'.map String.toList := by
    rw [← hread fields h hne, ← hread fields' h' hne', hjoin]
  exact List.map_injective_iff.2 (fun _ _ => String.toList_inj.1) hlists

theorem free_hex (bytes : Bytes) : Free '|' (hex bytes) := by
  have hchar : ∀ n, hexChar n ≠ '|' := by
    intro n
    have h : ∀ k < 16, Nat.digitChar k ≠ '|' := by decide
    exact h (n % 16) (Nat.mod_lt _ (by omega))
  unfold Free hex
  rw [String.toList_ofList, List.mem_flatMap]
  rintro ⟨b, _, hb⟩
  simp only [List.mem_cons, List.not_mem_nil, or_false] at hb
  rcases hb with hb | hb
  · exact hchar _ hb.symm
  · exact hchar _ hb.symm

theorem free_b64encode (bytes : Bytes) : Free '|' (b64encode bytes) := by
  have hchar : ∀ n, '|' ≠ b64Char n := by
    intro n
    have h : ∀ k < 64, '|' ≠ b64Alphabet.getD k 'A' := by decide +kernel
    exact h (n % 64) (Nat.mod_lt _ (by omega))
  unfold Free b64encode
  rw [String.toList_ofList]
  fun_induction b64Chars bytes with
  | case1 => simp
  | case2 a => simp [hchar]
  | case3 a b => simp [hchar]
  | case4 a b c rest ih => simp [hchar, ih]

theorem free_decimal (width n : Nat) : '|' ∉ decimal width n := by
  have h : ∀ k < 10, Nat.digitChar k ≠ '|' := by decide
  unfold decimal
  rw [List.mem_map]
  rintro ⟨i, _, hi⟩
  exact h (n / 10 ^ i % 10) (Nat.mod_lt _ (by omega)) hi

theorem free_isoformat (micros : Nat) : Free '|' (isoformat micros) := by
  unfold Free isoformat
  dsimp only
  rw [String.toList_ofList]
  split_ifs <;> simp [free_decimal]

end Encoding
