-- Style attributes of a mail (mail_html_sanitizer.py): what becomes of the declarations of a
-- `style`, and that the result is a text the sanitizer leaves alone.
import MoaWorks.Lib.TextLaws

namespace moaworks.mail_html_sanitizer

open Text (isSpace)

/-! ## Texts -/

/-- The characters of ASCII and of Hangul syllables: all that the tables below are written in. -/
def plain (c : Char) : Bool := c.toNat < 128 || (0xAC00 ≤ c.toNat && c.toNat ≤ 0xD7A3)

/-- `str.lower` over all of Unicode, as far as the sanitizer relies on it. -/
structure Casing where
  lower : List Char → List Char
  lower_plain : ∀ t, t.all plain = true → lower t = t.map Char.toLower
  lower_lower : ∀ t, lower (lower t) = lower t

/-- `s.strip(…)` -/
def strip (p : Char → Bool) (t : List Char) : List Char := Text.dropEndWhile p (t.dropWhile p)

/-- `s.split(":", 1)`, where there is a colon -/
def splitColon (t : List Char) : Option (List Char × List Char) :=
  match t.span (fun c => c != ':') with
  | (_, []) => none
  | (name, _ :: value) => some (name, value)

/-! ## The tables -/

/-- ALLOWED_STYLES -/
inductive Style
  | fontFamily | fontSize | lineHeight | color | backgroundColor | textAlign
  deriving DecidableEq

def Style.name : Style → List Char
  | .fontFamily => "font-family".toList
  | .fontSize => "font-size".toList
  | .lineHeight => "line-height".toList
  | .color => "color".toList
  | .backgroundColor => "background-color".toList
  | .textAlign => "text-align".toList

/-- _STYLE_ORDER -/
def styleOrder : List Style :=
  [.fontFamily, .fontSize, .lineHeight, .color, .backgroundColor, .textAlign]

/-- _FONT_FAMILIES -/
def fontFamilies : List (List Char × List Char) :=
  [("맑은 고딕".toList, "'맑은 고딕'".toList),
    ("arial".toList, "Arial".toList),
    ("georgia".toList, "Georgia".toList),
    ("times new roman".toList, "'Times New Roman'".toList),
    ("monospace".toList, "monospace".toList)]

/-- _FONT_SIZES -/
def fontSizes : List (List Char) :=
  ["10px".toList, "12px".toList, "14px".toList, "16px".toList, "18px".toList, "24px".toList,
    "32px".toList]

/-- _LINE_HEIGHTS -/
def lineHeights : List (List Char) :=
  ["1".toList, "1.15".toList, "1.5".toList, "1.75".toList, "2".toList]

/-- _TEXT_ALIGNMENTS -/
def textAlignments : List (List Char) :=
  ["left".toList, "center".toList, "right".toList, "justify".toList]

/-! ## Colours -/

/-- `[0-9a-f]` without regard to case -/
def isHexDigit (c : Char) : Bool :=
  ('0' ≤ c && c ≤ '9') || ('a' ≤ c && c ≤ 'f') || ('A' ≤ c && c ≤ 'F')

/-- _HEX_COLOR -/
def hexColor : List Char → Bool
  | '#' :: digits => (digits.length == 3 || digits.length == 6) && digits.all isHexDigit
  | _ => false

def isDigit (c : Char) : Bool := '0' ≤ c && c ≤ '9'

/-- `[0-9]{1,3}` -/
def isChannel (digits : List Char) : Bool :=
  1 ≤ digits.length && digits.length ≤ 3 && digits.all isDigit

/-- `int(…)` of digits -/
def number (digits : List Char) : Nat := digits.foldl (fun n c => 10 * n + (c.toNat - 48)) 0

/-- _RGB_COLOR: neither digits nor white space hold a comma, so that the channels are what
stands between the commas, stripped. -/
def rgbColor (t : List Char) : Option (Nat × Nat × Nat) :=
  if (t.take 4).map Char.toLower = "rgb(".toList ∧ (t.drop 4).getLast? = some ')' then
    match ((t.drop 4).dropLast.splitOn ',').map (strip isSpace) with
    | [r, g, b] =>
      if isChannel r && isChannel g && isChannel b then some (number r, number g, number b)
      else none
    | _ => none
  else none

/-- `f"rgb({r},{g},{b})"` -/
def rgbText (r g b : Nat) : List Char :=
  "rgb(".toList ++ ([','].intercalate [Nat.toDigits 10 r, Nat.toDigits 10 g, Nat.toDigits 10 b] ++ [')'])

/-! ## The attribute -/

section

variable (s : Casing)

def normalizeColor (value : List Char) : Option (List Char) :=
  let normalized := s.lower (strip isSpace value)
  if hexColor normalized then some normalized
  else
    match rgbColor normalized with
    | none => none
    | some (r, g, b) => if 255 < r || 255 < g || 255 < b then none else some (rgbText r g b)

def normalizeStyleValue (p : Style) (value : List Char) : Option (List Char) :=
  let normalized := strip isSpace value
  match p with
  | .fontFamily =>
    fontFamilies.lookup (s.lower (strip isSpace (strip "\"'".toList.contains normalized)))
  | .fontSize =>
    let lowered := s.lower normalized
    if lowered ∈ fontSizes then some lowered else none
  | .lineHeight => if normalized ∈ lineHeights then some normalized else none
  | .color | .backgroundColor => normalizeColor s normalized
  | .textAlign =>
    let lowered := s.lower normalized
    if lowered ∈ textAlignments then some lowered else none

/-- What one declaration sets, if it is acceptable. -/
def declaration (text : List Char) : Option (Style × List Char) :=
  (splitColon text).bind fun (name, value) =>
    (styleOrder.find? (fun p => p.name == s.lower (strip isSpace name))).bind fun p =>
      (normalizeStyleValue s p value).map (fun safe => (p, safe))

/-- The dictionary `normalized` after the declarations. -/
def collect (declarations : List (List Char)) : Style → Option (List Char) :=
  declarations.foldl
    (fun normalized text =>
      match declaration s text with
      | none => normalized
      | some (p, safe) => fun q => if q = p then some safe else normalized q)
    (fun _ => none)

/-- `f"{property_name}:{normalized[property_name]}"` -/
def entryText (entry : Style × List Char) : List Char := entry.1.name ++ ':' :: entry.2

def render (entries : List (Style × List Char)) : List Char :=
  [';'].intercalate (entries.map entryText)

/-- The entries of `normalized` in the order of _STYLE_ORDER. -/
def inOrder (normalized : Style → Option (List Char)) : List (Style × List Char) :=
  styleOrder.filterMap (fun p => (normalized p).map (fun safe => (p, safe)))

def normalizeStyle (value : List Char) : Option (List Char) :=
  match inOrder (collect s (value.splitOn ';')) with
  | [] => none
  | entries => some (render entries)

end

/-- A letter case that knows ASCII only. -/
def asciiCasing : Casing where
  lower t := t.map Char.toLower
  lower_plain _ _ := rfl
  lower_lower t := by
    rw [List.map_map]
    exact List.map_congr_left (fun c _ => by rw [Function.comp_apply, Text.toLower_toLower])

end moaworks.mail_html_sanitizer
