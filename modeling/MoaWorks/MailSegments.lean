-- What the mail editor projects from a document, and the segments of its texts.
import MoaWorks.MailDocuments

namespace moaworks.mail_rich_text

variable (platform : Platform)

/-! ## HTML -/

def escapeChar (c : Char) : String :=
  if c = '&' then "&amp;"
  else if c = '<' then "&lt;"
  else if c = '>' then "&gt;"
  else if c = '"' then "&quot;"
  else if c.toNat = 39 then "&#39;"
  else c.toString

def escapeHtml (value : String) : String := String.join (value.toList.map escapeChar)

/-- The styles that have a value. -/
def styleAttribute (styles : List (String × Option String)) : String :=
  let value := String.intercalate ";" (styles.filterMap (fun style =>
    (style.2.filter (fun item => decide (item ≠ ""))).map (fun item => style.1 ++ ":" ++ item)))
  if value = "" then "" else " style=\"" ++ escapeHtml value ++ "\""

def nodeTextAlignStyle (attrs : JsonRecord) : String :=
  let textAlign := property attrs "textAlign"
  styleAttribute [("text-align", if textAlign.missing then none else some (platform.string textAlign))]

/-- `value ? String(value) : undefined` -/
def textIfTruthy (value : Value) : Option String :=
  if value.truthy then some (platform.string value) else none

def markAttrs (mark : JsonRecord) : JsonRecord :=
  match property mark "attrs" with
  | .object attrs => attrs
  | _ => []

def renderMark (html : String) (mark : Value) : String :=
  match mark with
  | .object fields =>
    let attrs := markAttrs fields
    match (property fields "type").text? with
    | some "bold" => "<strong>" ++ html ++ "</strong>"
    | some "italic" => "<em>" ++ html ++ "</em>"
    | some "underline" => "<u>" ++ html ++ "</u>"
    | some "strike" => "<s>" ++ html ++ "</s>"
    | some "link" => "<a href=\"" ++ escapeHtml (platform.string (property attrs "href")) ++
      "\" rel=\"noopener noreferrer\">" ++ html ++ "</a>"
    | some "highlight" => "<span" ++ styleAttribute [("background-color",
      some ((textIfTruthy platform (property attrs "color")).getD defaultHighlightColor))] ++ ">" ++
      html ++ "</span>"
    | some "textStyle" => "<span" ++ styleAttribute [
        ("font-family", textIfTruthy platform (property attrs "fontFamily")),
        ("font-size", textIfTruthy platform (property attrs "fontSize")),
        ("line-height", textIfTruthy platform (property attrs "lineHeight")),
        ("color", textIfTruthy platform (property attrs "color"))] ++ ">" ++ html ++ "</span>"
    | _ => html
  | _ => html

def marksOf (fields : Fields) : List Value :=
  match fields.marks with
  | .array marks => marks
  | _ => []

/-- `node.text ?? ""`; a text that is no string has been refused. -/
def textOf (fields : Fields) : String := fields.text.text?.getD ""

def renderMarkedText (text : String) (marks : List Value) : String :=
  marks.foldl (renderMark platform) (escapeHtml text)

/-- An attribute with a value other than one. -/
def spanAttribute (name : String) (value : Value) : String :=
  if value.truthy && !value.isNumber 1 then " " ++ name ++ "=\"" ++ platform.string value ++ "\""
  else ""

def sizeAttribute (name : String) (value : Value) : String :=
  if value.truthy then " " ++ name ++ "=\"" ++ platform.string value ++ "\"" else ""

def altOf (attrs : JsonRecord) : String :=
  match (property attrs "alt").text? with
  | some alt => if trim alt = "" then "본문 이미지" else trim alt
  | none => "본문 이미지"

def renderElement (type : String) (attrs : JsonRecord) (children : String) :
    Except String String :=
  let align := nodeTextAlignStyle platform attrs
  let cell := fun (tag : String) =>
    "<" ++ tag ++ spanAttribute platform "colspan" (property attrs "colspan") ++
      spanAttribute platform "rowspan" (property attrs "rowspan") ++ align ++ ">" ++ children ++ "</" ++
      tag ++ ">"
  match type with
  | "doc" => .ok children
  | "paragraph" => .ok ("<p" ++ align ++ ">" ++ children ++ "</p>")
  | "heading" =>
    let level := platform.string (property attrs "level")
    .ok ("<h" ++ level ++ align ++ ">" ++ children ++ "</h" ++ level ++ ">")
  | "hardBreak" => .ok "<br>"
  | "bulletList" => .ok ("<ul>" ++ children ++ "</ul>")
  | "orderedList" =>
    .ok ("<ol" ++ spanAttribute platform "start" (property attrs "start") ++ ">" ++ children ++ "</ol>")
  | "listItem" => .ok ("<li>" ++ children ++ "</li>")
  | "blockquote" => .ok ("<blockquote" ++ align ++ ">" ++ children ++ "</blockquote>")
  | "horizontalRule" => .ok "<hr>"
  | "table" => .ok ("<table>" ++ children ++ "</table>")
  | "tableRow" => .ok ("<tr>" ++ children ++ "</tr>")
  | "tableHeader" => .ok (cell "th")
  | "tableCell" => .ok (cell "td")
  | "image" =>
    .ok ("<img src=\"cid:" ++ escapeHtml (platform.string (property attrs "contentId")) ++ "\" alt=\"" ++
      escapeHtml (altOf attrs) ++ "\"" ++ sizeAttribute platform "width" (property attrs "width") ++
      sizeAttribute platform "height" (property attrs "height") ++ ">")
  | _ => .error "허용되지 않은 문서 노드입니다."

mutual

def renderHtml : Node → Except String String
  | .value _ => .error "허용되지 않은 문서 노드입니다."
  | .leaf fields _ =>
    if fields.type.text? = some "text" then
      .ok (renderMarkedText platform (textOf fields) (marksOf fields))
    else do
      let attrs ← readAttrs fields.attrs
      renderElement platform (fields.type.text?.getD "") attrs ""
  | .branch fields content =>
    if fields.type.text? = some "text" then
      .ok (renderMarkedText platform (textOf fields) (marksOf fields))
    else do
      let attrs ← readAttrs fields.attrs
      let children ← renderHtmls content
      renderElement platform (fields.type.text?.getD "") attrs (String.join children)

def renderHtmls : List Node → Except String (List String)
  | [] => .ok []
  | child :: content => do
    let html ← renderHtml child
    let htmls ← renderHtmls content
    return html :: htmls

end

/-! ## Plain text -/

/-- The lines after the first are indented. -/
def listItemText (marker text : String) : String :=
  match (text.toList.splitOn '\n').map String.ofList with
  | [] => marker ++ " "
  | line :: lines => marker ++ " " ++ line ++ String.join (lines.map (fun line => "\n  " ++ line))

def plainElement (type : String) (attrs : JsonRecord) (children : List String) : String :=
  if type = "image" then "[이미지: " ++ altOf attrs ++ "]"
  else if type = "hardBreak" then "\n"
  else if type = "horizontalRule" then "---"
  else if type = "bulletList" then
    String.intercalate "\n" (children.map (listItemText "-"))
  else if type = "orderedList" then
    String.intercalate "\n" (children.zipIdx.map (fun (text, index) =>
      listItemText (platform.ordinal (property attrs "start") index ++ ".") text))
  else if type = "tableRow" then String.intercalate "\t" children
  else if type ∈ ["table", "listItem", "tableHeader", "tableCell", "blockquote", "doc"] then
    String.intercalate "\n" children
  else String.join children

/-- The types whose attributes the plain text reads. -/
def readsAttrs (type : String) : Bool := decide (type ∈ ["image", "orderedList"])

mutual

def renderPlain : Node → Except String String
  | .value _ => .ok ""
  | .leaf fields _ =>
    if fields.type.text? = some "text" then .ok (textOf fields)
    else do
      let type := fields.type.text?.getD ""
      let attrs ← if readsAttrs type then readAttrs fields.attrs else .ok []
      return plainElement platform type attrs []
  | .branch fields content =>
    if fields.type.text? = some "text" then .ok (textOf fields)
    else do
      let type := fields.type.text?.getD ""
      let attrs ← if readsAttrs type then readAttrs fields.attrs else .ok []
      let children ← renderPlains content
      return plainElement platform type attrs children

def renderPlains : List Node → Except String (List String)
  | [] => .ok []
  | child :: content => do
    let text ← renderPlain child
    let texts ← renderPlains content
    return text :: texts

end

/-- `\r\n?` becomes a newline. -/
def unifyNewlines : List Char → List Char
  | [] => []
  | '\r' :: '\n' :: rest => '\n' :: unifyNewlines rest
  | c :: rest => (if c = '\r' then '\n' else c) :: unifyNewlines rest

/-- Spaces and tabs before a newline go. -/
def stripLineEnds : List Char → List Char
  | [] => []
  | c :: rest =>
    let stripped := stripLineEnds rest
    if (c = ' ' ∨ c = '\t') ∧ stripped.head? = some '\n' then stripped else c :: stripped

/-- At most two newlines in a row. -/
def collapseNewlines : List Char → List Char
  | [] => []
  | c :: rest =>
    let collapsed := collapseNewlines rest
    if c = '\n' ∧ collapsed.take 2 = ['\n', '\n'] then collapsed else c :: collapsed

def normalizePlainText (value : String) : String :=
  String.ofList (trimChars (collapseNewlines (stripLineEnds (unifyNewlines value.toList))))

structure MailDocumentProjection where
  bodyHtml : String
  bodyText : String
  contentIds : List String
  deriving DecidableEq

def projectMailDocument (doc : Node) : Except String MailDocumentProjection := do
  let contentIds ← validateDocument platform doc
  let bodyHtml ← renderHtml platform doc
  let plain ← renderPlain platform doc
  return ⟨bodyHtml, normalizePlainText plain, contentIds⟩

/-! ## Segments -/

structure TranslationSegment where
  id : String
  text : String
  deriving DecidableEq

mutual

def collectTextNodes : Node → List Nat → List TranslationSegment
  | .value _, _ => []
  | .leaf fields _, path =>
    if fields.type.text? = some "text" then [⟨Paths.dotted path, textOf fields⟩] else []
  | .branch fields content, path =>
    if fields.type.text? = some "text" then [⟨Paths.dotted path, textOf fields⟩]
    else collectAll content path 0

def collectAll : List Node → List Nat → Nat → List TranslationSegment
  | [], _, _ => []
  | child :: content, path, index =>
    collectTextNodes child (path ++ [index]) ++ collectAll content path (index + 1)

end

/-- `Map` of entries: the last entry of a key counts. -/
def getReplacement (replacements : List (String × String)) (id : String) : Value :=
  match replacements.reverse.find? (fun entry => decide (entry.1 = id)) with
  | some (_, text) => .string text
  | none => .undefined

mutual

def replaceTextNodes (replacements : List (String × String)) : Node → List Nat → Node
  | .value v, _ => .value v
  | .leaf fields content, path =>
    if fields.type.text? = some "text" then
      .leaf { fields with text := getReplacement replacements (Paths.dotted path) } content
    else .leaf fields content
  | .branch fields content, path =>
    if fields.type.text? = some "text" then
      .branch { fields with text := getReplacement replacements (Paths.dotted path) } content
    else .branch fields (replaceAll replacements content path 0)

def replaceAll (replacements : List (String × String)) : List Node → List Nat → Nat → List Node
  | [], _, _ => []
  | child :: content, path, index =>
    replaceTextNodes replacements child (path ++ [index]) ::
      replaceAll replacements content path (index + 1)

end

/-- The documents in memory, each under its address; no two share a node. -/
structure Memory where
  documents : List Node

def Memory.read (memory : Memory) (address : Nat) : Node :=
  memory.documents[address]?.getD (.value .undefined)

def Memory.write (memory : Memory) (address : Nat) (doc : Node) : Memory :=
  ⟨memory.documents.set address doc⟩

/-- A deep copy at a new address. -/
def cloneDocument (doc : Nat) (memory : Memory) : Nat × Memory :=
  (memory.documents.length, ⟨memory.documents ++ [memory.read doc]⟩)

def extractTranslationSegments (doc : Nat) (memory : Memory) :
    Except String ((Nat × List TranslationSegment) × Memory) := do
  let _ ← validateDocument platform (memory.read doc)
  let segments := collectTextNodes (memory.read doc) []
  let (document, memory) := cloneDocument doc memory
  return ((document, segments), memory)

/-- The loop over the items, each beside the segment that is expected; it gives their entries. -/
def checkItems : List Value → List TranslationSegment → List String →
    Except String (List (String × String))
  | item :: items, segment :: expected, seen =>
    match item with
    | .object fields => match (property fields "id").text?, (property fields "text").text? with
      | some id, some text => do
        check (decide (id ∉ seen ∧ id = segment.id))
          "번역 구간 식별자 또는 순서가 원문과 일치하지 않습니다."
        let entries ← checkItems items expected (seen ++ [id])
        return (id, text) :: entries
      | _, _ => .error "번역 구간 형식이 올바르지 않습니다."
    | _ => .error "번역 구간 형식이 올바르지 않습니다."
  | _, _, _ => .ok []

def itemsOf : Value → Option (List Value)
  | .array items => some items
  | _ => none

def applyTranslatedSegments (doc : Nat) (items : Value) (memory : Memory) :
    Except String (Nat × Memory) := do
  let _ ← validateDocument platform (memory.read doc)
  let expected := collectTextNodes (memory.read doc) []
  match itemsOf items with
  | none => .error "번역 구간 수가 원문과 일치하지 않습니다."
  | some items =>
    check (decide (items.length = expected.length)) "번역 구간 수가 원문과 일치하지 않습니다."
    let replacements ← checkItems items expected []
    let (result, memory) := cloneDocument doc memory
    return (result, memory.write result (replaceTextNodes replacements (memory.read result) []))

/-- A segment as an item of a translation. -/
def TranslationSegment.item (segment : TranslationSegment) : Value :=
  .object [("id", .string segment.id), ("text", .string segment.text)]

end moaworks.mail_rich_text
