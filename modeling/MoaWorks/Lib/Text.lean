-- Operations on texts as Python's `str` has them.
import Mathlib.Init

namespace Text

/-- The characters that `str.strip` and `\s` take for white space. -/
def isSpace (c : Char) : Bool :=
  let n := c.toNat
  (9 ≤ n && n ≤ 13) || (28 ≤ n && n ≤ 32) || n == 0x85 || n == 0xA0 || n == 0x1680 ||
    (0x2000 ≤ n && n ≤ 0x200A) || n == 0x2028 || n == 0x2029 || n == 0x202F || n == 0x205F ||
    n == 0x3000

/-- `s.rstrip()` with the characters of `p`. -/
def dropEndWhile (p : Char → Bool) (s : List Char) : List Char := (s.reverse.dropWhile p).reverse

def strip (s : String) : String :=
  String.ofList (dropEndWhile isSpace (s.toList.dropWhile isSpace))

def rstrip (c : Char) (s : String) : String :=
  String.ofList (dropEndWhile (fun x => x == c) s.toList)

/-- `str.lower`, on ASCII letters. -/
def lower (s : String) : String := String.ofList (s.toList.map Char.toLower)

/-- `s.rsplit(c, 1)`: the parts before and after the last `c`, if there is one. -/
def rsplit (c : Char) (s : String) : Option (String × String) :=
  match s.toList.reverse.span (fun x => x != c) with
  | (_, []) => none
  | (tail, _ :: init) => some (String.ofList init.reverse, String.ofList tail.reverse)

/-- What `s.rsplit(c, 1)[-1]` gives. -/
def afterLast (c : Char) (s : String) : String := ((rsplit c s).map (·.2)).getD s

/-- `s.split(c, 1)[0]`. -/
def before (c : Char) (s : String) : String := String.ofList (s.toList.takeWhile (fun x => x != c))

end Text
