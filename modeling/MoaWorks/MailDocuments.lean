-- The documents of the mail editor: their checks, what is projected from them, and the segments of
-- text that a translation takes out of them and puts back.
import MoaWorks.Lib.Floats
import MoaWorks.Lib.Paths

namespace moaworks.mail_rich_text

/-! ## Values -/

/-- The values of the language that a document can hold. -/
inductive Value
  | undefined
  | null
  | bool (b : Bool)
  | number (x : Number)
  | string (s : String)
  | array (items : List Value)
  | object (fields : List (String × Value))

/-- The entries of an object, each key once. -/
abbrev JsonRecord := List (String × Value)

def property (record : JsonRecord) (key : String) : Value :=
  ((record.find? (fun entry => decide (entry.1 = key))).map Prod.snd).getD .undefined

/-- `value === undefined || value === null` -/
def Value.missing : Value → Bool
  | undefined => true
  | null => true
  | _ => false

def Value.isUndefined : Value → Bool
  | undefined => true
  | _ => false

def Value.text? : Value → Option String
  | string s => some s
  | _ => none

def Value.truthy : Value → Bool
  | undefined => false
  | null => false
  | bool b => b
  | number x => !(decide (x = .nan) || decide (x = .real 0))
  | string s => decide (s ≠ "")
  | array _ => true
  | object _ => true

/-- `value === n` -/
def Value.isNumber (n : ℚ) : Value → Bool
  | number x => decide (x = .real n)
  | _ => false

/-- The known fields of a node, but for its content; and the others. -/
structure Fields where
  type : Value
  attrs : Value
  marks : Value
  text : Value
  others : JsonRecord

inductive Node
  /-- No object. -/
  | value (v : Value)
  /-- The content is no array. -/
  | leaf (fields : Fields) (content : Value)
  | branch (fields : Fields) (content : List Node)

/-- What the platform gives. -/
structure Platform where
  /-- `String(value)` -/
  string : Value → String
  /-- The protocol of `new URL(value)`, or `none` when it throws. -/
  protocol : String → Option String
  /-- The text of `Number(value ?? 1) + index`. -/
  ordinal : Value → Nat → String

/-! ## Patterns -/

def isAlnum (c : Char) : Bool := c.isAlpha || c.isDigit

def isHexDigit (c : Char) : Bool :=
  c.isDigit || decide (c.toLower ∈ ['a', 'b', 'c', 'd', 'e', 'f'])

/-- `\s` -/
def isSpace (c : Char) : Bool :=
  decide (c.toNat ∈ [9, 10, 11, 12, 13, 32, 160, 5760, 8232, 8233, 8239, 8287, 12288, 65279]) ||
  decide (8192 ≤ c.toNat ∧ c.toNat ≤ 8202)

def trimChars (s : List Char) : List Char :=
  ((s.dropWhile isSpace).reverse.dropWhile isSpace).reverse

def trim (s : String) : String := String.ofList (trimChars s.toList)

/-- `25[0-5]|2[0-4]\d|1?\d?\d` -/
def isByte (s : List Char) : Bool :=
  s.all Char.isDigit &&
  match s with
  | [_] => true
  | [_, _] => true
  | [a, b, c] => decide (a = '1') || decide (a = '2') && (decide (b < '5') ||
    decide (b = '5') && decide (c ≤ '5'))
  | _ => false

def colorPattern (s : String) : Bool :=
  match s.toList.map Char.toLower with
  | '#' :: digits => decide (digits.length = 6) && digits.all isHexDigit
  | 'r' :: 'g' :: 'b' :: '(' :: rest => match rest.reverse with
    | ')' :: inner =>
      let parts := inner.reverse.splitOn ','
      decide (parts.length = 3) && parts.all (fun part => isByte (trimChars part))
    | _ => false
  | _ => false

def isAtomChar (c : Char) : Bool :=
  isAlnum c || "!#$%&'*+-/=?^_`\x7b|\x7d~".toList.contains c

/-- `[A-Za-z0-9](?:[A-Za-z0-9-]{0,61}[A-Za-z0-9])?` -/
def isLabel (s : List Char) : Bool :=
  decide (1 ≤ s.length ∧ s.length ≤ 63) && s.all (fun c => isAlnum c || decide (c = '-')) &&
  s.head?.any isAlnum && s.getLast?.any isAlnum

def contentIdPattern (s : String) : Bool :=
  match s.toList.splitOn '@' with
  | [localPart, domain] =>
    (localPart.splitOn '.').all (fun atom => decide (atom ≠ []) && atom.all isAtomChar) &&
    decide (2 ≤ (domain.splitOn '.').length) && (domain.splitOn '.').all isLabel
  | _ => false

/-! ## Checks -/

def allowedNodeTypes : List String :=
  ["doc", "paragraph", "heading", "text", "hardBreak", "bulletList", "orderedList", "listItem",
    "blockquote", "horizontalRule", "table", "tableRow", "tableHeader", "tableCell", "image"]

def allowedMarkTypes : List String :=
  ["bold", "italic", "underline", "strike", "textStyle", "highlight", "link"]

def blockNodeTypes : List String :=
  ["paragraph", "heading", "bulletList", "orderedList", "blockquote", "horizontalRule", "table",
    "image"]

def allowedChildrenByParent (parent : String) : List String :=
  match parent with
  | "doc" => blockNodeTypes
  | "paragraph" => ["text", "hardBreak", "image"]
  | "heading" => ["text", "hardBreak"]
  | "bulletList" => ["listItem"]
  | "orderedList" => ["listItem"]
  | "listItem" => blockNodeTypes
  | "blockquote" => blockNodeTypes
  | "table" => ["tableRow"]
  | "tableRow" => ["tableHeader", "tableCell"]
  | "tableHeader" => blockNodeTypes
  | "tableCell" => blockNodeTypes
  | _ => []

def allowedFonts : List String := ["맑은 고딕", "Arial", "Georgia", "Times New Roman", "monospace"]

def allowedFontSizes : List String := ["10px", "12px", "14px", "16px", "18px", "24px", "32px"]

def allowedLineHeights : List String := ["1", "1.15", "1.5", "1.75", "2"]

def allowedTextAlignments : List String := ["left", "center", "right", "justify"]

def nonEmptyContainerTypes : List String :=
  ["doc", "bulletList", "orderedList", "listItem", "blockquote", "table", "tableRow",
    "tableHeader", "tableCell"]

def defaultHighlightColor : String := "#ffff00"

def check (ok : Bool) (message : String) : Except String Unit :=
  if ok then .ok () else .error message

def assertOnlyKeys (value : JsonRecord) (allowed : List String) (context : String) :
    Except String Unit :=
  check (value.all (fun entry => decide (entry.1 ∈ allowed) || entry.2.missing))
    (context ++ "에 허용되지 않은 속성이 있습니다.")

def readAttrs : Value → Except String JsonRecord
  | .undefined => .ok []
  | .null => .ok []
  | .object fields => .ok fields
  | _ => .error "노드 속성 형식이 올바르지 않습니다."

def isIntegerUpTo (maximum : Nat) : Value → Bool
  | .number (.real q) => decide (q.den = 1 ∧ 1 ≤ q ∧ q ≤ maximum)
  | _ => false

def readPositiveInteger (value : Value) (name : String) (maximum : Nat) : Except String Unit :=
  check (value.missing || isIntegerUpTo maximum value) (name ++ " 값이 허용 범위를 벗어났습니다.")

def readSafeColor (value : Value) (name : String) : Except String Unit :=
  check (value.missing || value.text?.any colorPattern) (name ++ " 값이 안전하지 않습니다.")

variable (platform : Platform)

def startsWithAny (prefixes : List String) (s : String) : Bool :=
  prefixes.any (fun start => decide (start.toList <+: s.toList.map Char.toLower))

def readSafeHref (value : Value) : Except String Unit :=
  match value.text? with
  | none => .error "링크 주소가 안전하지 않습니다."
  | some href => do
    check (href.toList.all (fun c => !(decide (c.toNat ≤ 31) || decide (c.toNat = 127) || isSpace c)))
      "링크 주소가 안전하지 않습니다."
    check (startsWithAny ["http://", "https://", "mailto:"] href) "허용되지 않은 링크 형식입니다."
    check ((platform.protocol href).any (fun protocol =>
      decide (protocol ∈ ["http:", "https:", "mailto:"]))) "링크 주소가 올바르지 않습니다."

/-- The text of an optional attribute is one of those allowed. -/
def oneOf (value : Value) (allowed : List String) (message : String) : Except String Unit :=
  check (value.missing || decide (platform.string value ∈ allowed)) message

def validateMarkAttrs (type : String) (attrs : JsonRecord) : Except String Unit :=
  if type ∈ ["bold", "italic", "underline", "strike"] then assertOnlyKeys attrs [] type
  else if type = "link" then do
    assertOnlyKeys attrs ["href", "target", "rel", "class"] "link"
    readSafeHref platform (property attrs "href")
    check (property attrs "target").missing "link target 속성은 허용되지 않습니다."
    check (property attrs "rel").missing "link rel 속성은 허용되지 않습니다."
    check (property attrs "class").missing "link class 속성은 허용되지 않습니다."
  else if type = "highlight" then do
    assertOnlyKeys attrs ["color"] "highlight"
    readSafeColor (property attrs "color") "배경색"
  else do
    assertOnlyKeys attrs ["fontFamily", "fontSize", "lineHeight", "color"] "textStyle"
    oneOf platform (property attrs "fontFamily") allowedFonts "허용되지 않은 글꼴입니다."
    oneOf platform (property attrs "fontSize") allowedFontSizes "허용되지 않은 글자 크기입니다."
    oneOf platform (property attrs "lineHeight") allowedLineHeights "허용되지 않은 줄 간격입니다."
    readSafeColor (property attrs "color") "글자색"

/-- Gives the type of the mark. -/
def validateMark (mark : Value) : Except String String :=
  match mark with
  | .object fields => match (property fields "type").text? with
    | none => .error "허용되지 않은 텍스트 서식입니다."
    | some type => do
      check (decide (type ∈ allowedMarkTypes)) "허용되지 않은 텍스트 서식입니다."
      assertOnlyKeys fields ["type", "attrs"] "텍스트 서식"
      match property fields "attrs" with
      | .undefined => validateMarkAttrs platform type []
      | .null => validateMarkAttrs platform type []
      | .object attrs => validateMarkAttrs platform type attrs
      | _ => .error "텍스트 서식 속성 형식이 올바르지 않습니다."
      return type
  | _ => .error "허용되지 않은 텍스트 서식입니다."

/-- The loop over the marks, with the types so far. -/
def validateMarks : List Value → List String → Except String Unit
  | [], _ => .ok ()
  | mark :: marks, markTypes => do
    let markType ← validateMark platform mark
    check (decide (markType ∉ markTypes)) "같은 종류의 텍스트 서식은 중복될 수 없습니다."
    validateMarks marks (markTypes ++ [markType])

/-- `JSON` nodes with the content of their children, for the checks that do not go down. -/
inductive Content
  | undefined
  | other
  | array (items : List Node)

def contentOf (v : Value) : Content := if v.isUndefined then .undefined else .other

def nodeType (fields : Fields) (path : List Nat) (parentType : Option String) :
    Except String String :=
  match fields.type.text? with
  | none => .error ("허용되지 않은 문서 노드입니다: " ++
    (if Paths.dotted path = "" then "root" else Paths.dotted path))
  | some type => do
    check (decide (type ∈ allowedNodeTypes)) ("허용되지 않은 문서 노드입니다: " ++
      (if Paths.dotted path = "" then "root" else Paths.dotted path))
    check (parentType.all (fun parent => decide (type ∈ allowedChildrenByParent parent)))
      ("문서 노드 배치가 허용된 editor schema와 일치하지 않습니다: " ++ Paths.dotted path)
    assertOnlyKeys fields.others ["type", "attrs", "content", "marks", "text"] "문서 노드"
    return type

def validateText (fields : Fields) (content : Content) : Except String Unit := do
  check (fields.text.text?.isSome && (match content with
    | .undefined => true
    | _ => false) && fields.attrs.isUndefined) "텍스트 노드 형식이 올바르지 않습니다."
  match fields.marks with
  | .undefined => return ()
  | .array marks => validateMarks platform marks []
  | _ => .error "텍스트 서식 목록 형식이 올바르지 않습니다."

def validateImage (attrs : JsonRecord) (contentIds : List String) :
    Except String (List String) := do
  assertOnlyKeys attrs ["contentId", "src", "alt", "width", "height", "title"] "image"
  match (property attrs "contentId").text? with
  | none => .error "본문 이미지 CID가 올바르지 않습니다."
  | some contentId =>
    check (contentIdPattern contentId) "본문 이미지 CID가 올바르지 않습니다."
    check (decide (contentId ∉ contentIds)) "중복 본문 이미지 CID는 허용되지 않습니다."
    check ((property attrs "src").missing || decide ((property attrs "src").text? = some ("cid:" ++ contentId)))
      "본문 이미지는 CID 경로만 사용할 수 있습니다."
    check ((property attrs "alt").missing || (property attrs "alt").text?.isSome)
      "이미지 대체 텍스트 형식이 올바르지 않습니다."
    check (property attrs "title").missing "이미지 title 속성은 허용되지 않습니다."
    readPositiveInteger (property attrs "width") "이미지 너비" 4096
    readPositiveInteger (property attrs "height") "이미지 높이" 4096
    return contentIds ++ [contentId]

def validateColwidth (colwidth : Value) : Except String Unit :=
  check (colwidth.missing || (match colwidth with
    | .array items => items.all (isIntegerUpTo 4096)
    | _ => false)) "표 열 너비가 안전하지 않습니다."

/-- The attributes of a node that is no text; an image adds its content id. -/
def validateAttrs (type : String) (attrs : JsonRecord) (contentIds : List String) :
    Except String (List String) :=
  if type = "doc" then do
    assertOnlyKeys attrs [] "doc"
    return contentIds
  else if type ∈ ["paragraph", "blockquote"] then do
    assertOnlyKeys attrs ["textAlign"] type
    oneOf platform (property attrs "textAlign") allowedTextAlignments "허용되지 않은 문단 정렬입니다."
    return contentIds
  else if type = "heading" then do
    assertOnlyKeys attrs ["level", "textAlign"] "heading"
    check ([1, 2, 3].any (fun n => (property attrs "level").isNumber n)) "허용되지 않은 제목 단계입니다."
    oneOf platform (property attrs "textAlign") allowedTextAlignments "허용되지 않은 제목 정렬입니다."
    return contentIds
  else if type = "orderedList" then do
    assertOnlyKeys attrs ["start"] "orderedList"
    readPositiveInteger (property attrs "start") "목록 시작 번호" 1000000
    return contentIds
  else if type ∈ ["tableCell", "tableHeader"] then do
    assertOnlyKeys attrs ["colspan", "rowspan", "textAlign", "colwidth"] type
    readPositiveInteger (property attrs "colspan") "열 병합" 100
    readPositiveInteger (property attrs "rowspan") "행 병합" 100
    validateColwidth (property attrs "colwidth")
    oneOf platform (property attrs "textAlign") allowedTextAlignments "허용되지 않은 표 정렬입니다."
    return contentIds
  else if type = "image" then validateImage attrs contentIds
  else do
    assertOnlyKeys attrs [] type
    return contentIds

def isParagraph : Node → Bool
  | .value _ => false
  | .leaf fields _ => decide (fields.type.text? = some "paragraph")
  | .branch fields _ => decide (fields.type.text? = some "paragraph")

def validateContent (type : String) (content : Content) : Except String Unit :=
  if type ∈ ["image", "hardBreak", "horizontalRule"] then
    check (match content with
      | .undefined => true
      | _ => false) (type ++ " 노드는 하위 내용을 가질 수 없습니다.")
  else match content with
    | .other => .error "문서 하위 내용 형식이 올바르지 않습니다."
    | .undefined =>
      check (decide (type ∉ nonEmptyContainerTypes))
        (type ++ " 노드는 최소 한 개의 하위 내용을 가져야 합니다.")
    | .array items => do
      check (decide (type ∉ nonEmptyContainerTypes) || !items.isEmpty)
        (type ++ " 노드는 최소 한 개의 하위 내용을 가져야 합니다.")
      check (decide (type ≠ "listItem") || items.head?.any isParagraph)
        "listItem의 첫 하위 노드는 paragraph여야 합니다."

/-- The checks of one node that is no text, before its children. -/
def validateElement (type : String) (fields : Fields) (content : Content)
    (contentIds : List String) : Except String (List String) := do
  check (fields.text.isUndefined && fields.marks.isUndefined)
    "텍스트가 아닌 노드에 텍스트 속성이 있습니다."
  let attrs ← readAttrs fields.attrs
  let contentIds ← validateAttrs platform type attrs contentIds
  validateContent type content
  return contentIds

mutual

def validateNode : Node → List Nat → List String → Option String → Except String (List String)
  | .value _, path, _, _ => .error ("허용되지 않은 문서 노드입니다: " ++
    (if Paths.dotted path = "" then "root" else Paths.dotted path))
  | .leaf fields content, path, contentIds, parentType => do
    let type ← nodeType fields path parentType
    if type = "text" then
      validateText platform fields (contentOf content)
      return contentIds
    else validateElement platform type fields (contentOf content) contentIds
  | .branch fields content, path, contentIds, parentType => do
    let type ← nodeType fields path parentType
    if type = "text" then
      validateText platform fields (.array content)
      return contentIds
    else
      let contentIds ← validateElement platform type fields (.array content) contentIds
      -- What has no children has been refused with an array.
      validateNodes content path 0 contentIds type

/-- `content.forEach`, from an index on. -/
def validateNodes : List Node → List Nat → Nat → List String → String →
    Except String (List String)
  | [], _, _, contentIds, _ => .ok contentIds
  | child :: content, path, index, contentIds, parentType => do
    let contentIds ← validateNode child (path ++ [index]) contentIds (some parentType)
    validateNodes content path (index + 1) contentIds parentType

end

def isDoc : Node → Bool
  | .branch fields _ => decide (fields.type.text? = some "doc")
  | _ => false

def validateDocument (doc : Node) : Except String (List String) := do
  let contentIds ← validateNode platform doc [] [] none
  check (isDoc doc) "메일 문서는 content 배열이 있는 doc 노드여야 합니다."
  return contentIds

end moaworks.mail_rich_text
