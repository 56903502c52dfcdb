-- A MIME reader: lines, header fields and their parameters, multiparts cut at their
-- delimiters, base64 bodies.
import MoaWorks.Lib.Encoding
import MoaWorks.Lib.Lines

namespace Mime

open Lines (Bytes LF CR crlf Plain)

/-- `s.encode("ascii")`, where it does not raise. -/
def ascii (s : String) : Bytes := s.toList.map (fun c => UInt8.ofNat c.toNat)

def COLON : UInt8 := 58

def SEMICOLON : UInt8 := 59

def EQUALS : UInt8 := 61

def QUOTE : UInt8 := 34

def TICK : UInt8 := 39

def PERCENT : UInt8 := 37

def SLASH : UInt8 := 47

def isBlank (b : UInt8) : Bool := b == 32 || b == 9

def rtrim (v : Bytes) : Bytes := (v.reverse.dropWhile isBlank).reverse

def trim (v : Bytes) : Bytes := rtrim (v.dropWhile isBlank)

def lower (v : Bytes) : Bytes := v.map (fun b => if 65 ≤ b ∧ b ≤ 90 then b + 32 else b)

/-- What stands before and after the first `sep`, if there is one. -/
def cut (sep : UInt8) : Bytes → Option (Bytes × Bytes)
  | [] => none
  | b :: rest => if b = sep then some ([], rest) else (cut sep rest).map (fun c => (b :: c.1, c.2))

/-! ## Lines -/

def withoutCr (line : Bytes) : Bytes := if line.getLast? = some CR then line.dropLast else line

/-- Lines end with LF, which a CR may stand before; the last one may have no end. -/
def rawLines : Bytes → List Bytes
  | [] => []
  | b :: rest =>
    if b = LF then [] :: rawLines rest
    else match rawLines rest with
      | [] => [[b]]
      | line :: lines => (b :: line) :: lines

def readLines (bytes : Bytes) : List Bytes := (rawLines bytes).map withoutCr

/-! ## Header fields -/

def folded (line : Bytes) : Bool := (line.head?.map isBlank).getD false

/-- A line that starts with a blank belongs to the line before it. -/
def unfoldLines : List Bytes → List Bytes
  | [] => []
  | line :: rest =>
    match unfoldLines rest with
    | [] => [line]
    | next :: more => if folded next then (line ++ next) :: more else line :: next :: more

def fields (head : List Bytes) : List (Bytes × Bytes) :=
  (unfoldLines head).filterMap (fun line => (cut COLON line).map (fun c => (lower c.1, trim c.2)))

def field (name : Bytes) (head : List Bytes) : Option Bytes :=
  ((fields head).find? (fun f => f.1 = name)).map (·.2)

/-- The value and its parameters: semicolons between quotes do not count. -/
def pieces : Bool → Bytes → List Bytes
  | _, [] => [[]]
  | quoted, b :: rest =>
    if b = SEMICOLON ∧ quoted = false then [] :: pieces false rest
    else match pieces (if b = QUOTE then !quoted else quoted) rest with
      | [] => [[b]]
      | piece :: more => (b :: piece) :: more

def bare (value : Bytes) : Bytes := lower (trim ((pieces false value).headD []))

def unquoted (v : Bytes) : Bytes :=
  if v.head? = some QUOTE ∧ v.getLast? = some QUOTE ∧ 2 ≤ v.length then v.tail.dropLast else v

def parameter (name value : Bytes) : Option Bytes :=
  (pieces false value).tail.findSome? (fun piece =>
    (cut EQUALS piece).bind (fun c => if lower (trim c.1) = name then some (unquoted (trim c.2)) else none))

def byteValue (b : UInt8) : Option Nat := Encoding.hexValue (Char.ofNat b.toNat)

def percentDecoded : Bytes → Bytes
  | b :: high :: low :: more =>
    if b = PERCENT then
      match byteValue high, byteValue low with
      | some x, some y => UInt8.ofNat (16 * x + y) :: percentDecoded more
      | _, _ => b :: percentDecoded (high :: low :: more)
    else b :: percentDecoded (high :: low :: more)
  | b :: rest => b :: percentDecoded rest
  | [] => []

/-- The value of a parameter as `charset'language'text`. -/
def extended (value : Bytes) : Option Bytes := do
  let (_, rest) ← cut TICK value
  let (_, text) ← cut TICK rest
  pure (percentDecoded text)

/-! ## Bodies -/

def isDelimiter (boundary line : Bytes) : Bool := rtrim line == ascii "--" ++ boundary

def isClose (boundary line : Bytes) : Bool := rtrim line == ascii "--" ++ boundary ++ ascii "--"

/-- The parts between the delimiters; what stands before the first and after the last is skipped. -/
def bodyParts (boundary : Bytes) : Option (List Bytes) → List Bytes → List (List Bytes)
  | part, [] => part.toList
  | part, line :: rest =>
    if isClose boundary line then part.toList
    else if isDelimiter boundary line then part.toList ++ bodyParts boundary (some []) rest
    else bodyParts boundary (part.map (· ++ [line])) rest

def joined (body : List Bytes) : Bytes := crlf.intercalate body

def fromBase64 (body : List Bytes) : Option Bytes :=
  Encoding.b64Bytes ((body.flatten.filter (fun b => !isBlank b)).map (fun b => Char.ofNat b.toNat))

/-- `none` for an encoding that is not read. -/
def decoded (encoding : Bytes) (body : List Bytes) : Option Bytes :=
  if encoding = ascii "base64" then fromBase64 body
  else if encoding ∈ [ascii "7bit", ascii "8bit", ascii "binary"] then some (joined body)
  else none

/-! ## Entities -/

/-- One part as a walk over the message meets it; a container has no content of its own. -/
structure Part where
  mediaType : Bytes
  disposition : Bytes
  filename : Option Bytes
  content : Option Bytes
  deriving DecidableEq, Repr

def mediaType (head : List Bytes) : Bytes :=
  ((field (ascii "content-type") head).map bare).getD (ascii "text/plain")

def boundary (head : List Bytes) : Option Bytes :=
  (field (ascii "content-type") head).bind (parameter (ascii "boundary"))

def encoding (head : List Bytes) : Bytes :=
  ((field (ascii "content-transfer-encoding") head).map bare).getD (ascii "7bit")

def disposition (head : List Bytes) : Bytes :=
  ((field (ascii "content-disposition") head).map bare).getD (ascii "inline")

def filename (head : List Bytes) : Option Bytes :=
  ((field (ascii "content-disposition") head).bind (parameter (ascii "filename*"))).bind extended

def mainType (mediaType : Bytes) : Bytes := mediaType.takeWhile (· != SLASH)

def part (head : List Bytes) (content : Option Bytes) : Part where
  mediaType := mediaType head
  disposition := disposition head
  filename := filename head
  content := content

def head (lines : List Bytes) : List Bytes := lines.takeWhile (fun line => !line.isEmpty)

def body (lines : List Bytes) : List Bytes := (lines.dropWhile (fun line => !line.isEmpty)).tail

/-- The parts of an entity, in order. Each one inside another has fewer lines, so that as many
turns as there are lines suffice. -/
def walk : Nat → List Bytes → List Part
  | 0, _ => []
  | turns + 1, lines =>
    if mainType (mediaType (head lines)) = ascii "message" then
      part (head lines) none :: walk turns (body lines)
    else if mainType (mediaType (head lines)) = ascii "multipart" then
      match boundary (head lines) with
      | some b => part (head lines) none :: (bodyParts b none (body lines)).flatMap (walk turns)
      -- A multipart that does not say its delimiter is read as one part.
      | none => [part (head lines) (decoded (encoding (head lines)) (body lines))]
    else [part (head lines) (decoded (encoding (head lines)) (body lines))]

def parts (bytes : Bytes) : List Part := walk (readLines bytes).length (readLines bytes)

end Mime
