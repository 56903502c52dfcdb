-- The messages of a mailbox archive (mailbox_backup_archive.py): each mail as a MIME entity, with
-- its attachments read in chunks.
import MoaWorks.Clock
import MoaWorks.Lib.Chunks
import MoaWorks.Lib.Mime
import MoaWorks.Lib.Raise
import MoaWorks.Lib.Text

namespace moaworks.mailbox_backup_archive

open Encoding (Bytes utf8 hex)
open Lines (LF crlf terminated)
open Mime (ascii)
open Raise (require found)

inductive Error
  | file_not_found (message : String)
  | os_error (message : String)
  | unicode_encode_error
  | lease_lost (message : String)
  deriving DecidableEq, Repr

def ATTACHMENT_CHUNK_BYTES : Nat := 57 * 1024

/-- What `read(ATTACHMENT_CHUNK_BYTES)` gives call after call, before the empty one: full chunks,
and a last one that may be shorter. -/
def FullChunks : List Bytes → Prop
  | [] => True
  | [last] => last ≠ [] ∧ last.length ≤ ATTACHMENT_CHUNK_BYTES
  | chunk :: rest => chunk.length = ATTACHMENT_CHUNK_BYTES ∧ FullChunks rest

/-- A file of the storage, as it is read. -/
structure StoredFile where
  reads : List Bytes
  full : FullChunks reads

def StoredFile.content (file : StoredFile) : Bytes := file.reads.flatten

structure Attachment where
  storage_key : Option String
  file_name : Option String
  content_type : Option String
  size_bytes : Nat
  deriving DecidableEq, Repr

structure Item where
  sender_email : String
  «to» : List String
  cc : List String
  bcc : List String
  subject : String
  sent_at : Option Time
  message_id : Option String
  view_type : String
  body_text : String
  body_html : String
  attachments : List Attachment
  deriving DecidableEq, Repr

/-- The storage, and what the standard library knows: the types of file names, the letters and
digits of `\w`, dates and encoded header values as texts. -/
structure Environment where
  attachment_resolver : String → Option StoredFile
  guess_type : String → Option String
  isWord : Char → Bool
  _format_date : Option Time → String
  encode_header : String → String

/-! ## Names and values -/

/-- `value or default` -/
def orElse (value : Option String) (default : String) : String :=
  match value with
  | none => default
  | some v => if v = "" then default else v

/-- `Path(name).name` -/
def pathName (path : List Char) : List Char :=
  ((path.splitOn '/').filter (fun p => decide (p ≠ [] ∧ p ≠ ['.']))).getLastD []

def _safe_attachment_name (value : Option String) : String :=
  let path := (orElse value "attachment.bin").toList.map (fun c => if c = '\\' then '/' else c)
  let name := Text.strip (String.ofList ((pathName path).filter (fun c => decide (31 < c.toNat))))
  String.ofList ((orElse (some name) "attachment.bin").toList.take 255)

def _safe_message_id (value : Option String) : String :=
  let normalized := (orElse value "message").toList.map
    (fun c => if c.isAlphanum || decide (c ∈ ['_', '.', '-']) then c else '-')
  orElse (some (String.ofList (normalized.take 180))) "message"

def _address_list (values : List String) : String :=
  let safe := values.map (fun value =>
    Text.strip (String.ofList (value.toList.filter (fun c => decide (c ≠ '\r' ∧ c ≠ '\n')))))
  ", ".intercalate (safe.filter (fun value => decide (value ≠ "")))

/-- `[\w.+-]` -/
def Environment.typeChar (env : Environment) (c : Char) : Bool :=
  env.isWord c || decide (c ∈ ['.', '+', '-'])

/-- The pattern `[\w.+-]+/[\w.+-]+`. -/
def Environment.isMediaType (env : Environment) (content_type : String) : Bool :=
  match content_type.toList.splitOn '/' with
  | [main, sub] => decide (main ≠ [] ∧ sub ≠ []) && (main ++ sub).all env.typeChar
  | _ => false

/-- The type that an attachment has, or that its name stands for. -/
def Environment.declaredType (env : Environment) (attachment : Attachment) : String :=
  orElse attachment.content_type
    (orElse (env.guess_type (_safe_attachment_name attachment.file_name)) "application/octet-stream")

def hexUpper (n : Nat) : Char := (Encoding.hexChar n).toUpper

/-- `urllib.parse.quote(text, safe="")` -/
def quote (text : String) : String :=
  String.ofList ((utf8 text).flatMap (fun b =>
    let c := Char.ofNat b.toNat
    if b < 128 && (c.isAlphanum || decide (c ∈ ['_', '.', '-', '~'])) then [c]
    else ['%', hexUpper (b.toNat / 16), hexUpper b.toNat]))

/-- `text.encode("ascii")` -/
def encodeAscii (text : String) : Except Error Bytes := do
  require (text.toList.all (fun c => decide (c.toNat < 128)) = true) Error.unicode_encode_error
  return ascii text

/-! ## Parts -/

/-- `base64.b64encode` -/
def b64encode (bytes : Bytes) : Bytes := ascii (Encoding.b64encode bytes)

/-- `base64.encodebytes` -/
def encodebytes (bytes : Bytes) : Bytes :=
  (Chunks.slices 57 bytes).flatMap (fun chunk => b64encode chunk ++ [LF])

def _write_base64_text (value : String) : Bytes :=
  (encodebytes (utf8 value)).flatMap (fun b => if b = LF then crlf else [b]) ++ crlf

def _write_text_part (content_type value : String) : Bytes :=
  ascii ("Content-Type: " ++ content_type ++ "; charset=\"utf-8\"\r\n" ++
    "Content-Transfer-Encoding: base64\r\n\r\n") ++ _write_base64_text value

def _write_alternative (item : Item) (boundary : String) : Bytes :=
  ascii ("--" ++ boundary ++ "\r\n") ++ _write_text_part "text/plain" item.body_text ++
    ascii ("--" ++ boundary ++ "\r\n") ++ _write_text_part "text/html" item.body_html ++
    ascii ("--" ++ boundary ++ "--\r\n")

/-- The lines of one chunk. -/
def chunkLines (chunk : Bytes) : List Bytes := Chunks.slices 76 (b64encode chunk)

/-- The loop over the chunks; `progress j` is what the callback says after the chunk `j`. -/
def writeChunks (progress : Nat → Bool) : Nat → List Bytes → Except Error Bytes
  | _, [] => .ok []
  | j, chunk :: rest => do
    require (progress j = true) (Error.lease_lost "백업 lease 소유권을 잃었습니다.")
    let written ← writeChunks progress (j + 1) rest
    return terminated (chunkLines chunk) ++ written

def _write_attachment (env : Environment) (progress : Nat → Bool) (attachment : Attachment) :
    Except Error Bytes := do
  let storage_key := orElse attachment.storage_key ""
  require (storage_key ≠ "") (Error.file_not_found "첨부 저장 식별자가 없습니다.")
  let source ← found (env.attachment_resolver storage_key)
    (Error.file_not_found "첨부 파일을 찾을 수 없습니다.")
  require (attachment.size_bytes = 0 ∨ source.content.length = attachment.size_bytes)
    (Error.os_error "첨부 파일 크기가 일치하지 않습니다.")
  let declared := env.declaredType attachment
  let content_type := if env.isMediaType declared then declared else "application/octet-stream"
  let encoded_name := quote (_safe_attachment_name attachment.file_name)
  let head ← encodeAscii ("Content-Type: " ++ content_type ++ "\r\n" ++
    "Content-Transfer-Encoding: base64\r\n" ++
    "Content-Disposition: attachment; filename*=UTF-8''" ++ encoded_name ++ "\r\n" ++ "\r\n")
  let written ← writeChunks progress 0 source.reads
  return head ++ written ++ crlf

/-! ## The message -/

def _write_headers (headers : List (String × String)) : Bytes :=
  (headers.filter (fun h => decide (h.2 ≠ ""))).flatMap
    (fun h => utf8 (h.1 ++ ": " ++ h.2 ++ "\r\n")) ++ crlf

/-- The headers before those of the content. -/
def addressHeaders (env : Environment) (item : Item) : List (String × String) :=
  let headers := [("From", _address_list [item.sender_email]), ("To", _address_list item.to),
    ("Subject", env.encode_header item.subject), ("Date", env._format_date item.sent_at),
    ("Message-ID", "<" ++ _safe_message_id item.message_id ++ "@moaworks.local>"),
    ("MIME-Version", "1.0")]
  let cc := _address_list item.cc
  let headers := if cc ≠ "" then headers.insertIdx 2 ("Cc", cc) else headers
  let bcc := _address_list item.bcc
  if item.view_type = "sender" ∧ bcc ≠ "" then headers.insertIdx 3 ("Bcc", bcc) else headers

def contentHeaders (item : Item) (mixed_boundary alternative_boundary : String) :
    List (String × String) :=
  if item.attachments ≠ [] then
    [("Content-Type", "multipart/mixed; boundary=\"" ++ mixed_boundary ++ "\"")]
  else if item.body_html ≠ "" then
    [("Content-Type", "multipart/alternative; boundary=\"" ++ alternative_boundary ++ "\"")]
  else
    [("Content-Type", "text/plain; charset=\"utf-8\""), ("Content-Transfer-Encoding", "base64")]

/-- The loop over the attachments; `progress i j` is what the callback says after the chunk `j` of
the attachment `i`. -/
def writeAttachments (env : Environment) (mixed_boundary : String) (progress : Nat → Nat → Bool) :
    Nat → List Attachment → Except Error Bytes
  | _, [] => .ok []
  | i, attachment :: rest => do
    let written ← _write_attachment env (progress i) attachment
    let more ← writeAttachments env mixed_boundary progress (i + 1) rest
    return ascii ("--" ++ mixed_boundary ++ "\r\n") ++ written ++ more

/-- `mixed` and `alternative` are the drawn identifiers of the two boundaries. -/
def _write_eml (env : Environment) (progress : Nat → Nat → Bool) (mixed alternative : Bytes)
    (item : Item) : Except Error Bytes := do
  let mixed_boundary := "moaworks-mixed-" ++ hex mixed
  let alternative_boundary := "moaworks-alt-" ++ hex alternative
  let head := _write_headers
    (addressHeaders env item ++ contentHeaders item mixed_boundary alternative_boundary)
  if item.attachments ≠ [] then
    let first := if item.body_html ≠ "" then
        ascii ("Content-Type: multipart/alternative; boundary=\"" ++ alternative_boundary ++
          "\"\r\n\r\n") ++ _write_alternative item alternative_boundary
      else _write_text_part "text/plain" item.body_text
    let attached ← writeAttachments env mixed_boundary progress 0 item.attachments
    return head ++ ascii ("--" ++ mixed_boundary ++ "\r\n") ++ first ++ attached ++
      ascii ("--" ++ mixed_boundary ++ "--\r\n")
  else if item.body_html ≠ "" then
    return head ++ _write_alternative item alternative_boundary
  else
    return head ++ _write_base64_text item.body_text

/-! ## What is read back -/

/-- A mail without its headers. -/
structure Letter where
  texts : List (Option Bytes)
  htmls : List (Option Bytes)
  /-- File names and contents. -/
  attachments : List (Option Bytes × Option Bytes)
  deriving DecidableEq, Repr

def isAttachment (part : Mime.Part) : Bool := part.disposition == ascii "attachment"

def bodies (mediaType : String) (parts : List Mime.Part) : List (Option Bytes) :=
  (parts.filter (fun part => !isAttachment part && part.mediaType == ascii mediaType)).map (·.content)

def letter (parts : List Mime.Part) : Letter where
  texts := bodies "text/plain" parts
  htmls := bodies "text/html" parts
  attachments := (parts.filter isAttachment).map (fun part => (part.filename, part.content))

def Environment.file (env : Environment) (attachment : Attachment) : Option StoredFile :=
  env.attachment_resolver (orElse attachment.storage_key "")

/-- The mail as the mailbox has it. -/
def Environment.letter (env : Environment) (item : Item) : Letter where
  texts := [some (utf8 item.body_text)]
  htmls := if item.body_html ≠ "" then [some (utf8 item.body_html)] else []
  attachments := item.attachments.map (fun attachment =>
    (some (utf8 (_safe_attachment_name attachment.file_name)),
      (env.file attachment).map StoredFile.content))

end moaworks.mailbox_backup_archive
