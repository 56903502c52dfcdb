-- What the SMTP gateway hands over: the checks of the envelope and of the raw
-- message, and the copy without Bcc that is stored.
import MoaWorks.Clock
import MoaWorks.Lib.Raise
import MoaWorks.Lib.Text
import Mathlib.Data.List.Infix

namespace moaworks.mail_submission_operations

open Raise (require found)

abbrev Bytes := List UInt8

inductive Error
  | value_error (message : String)
  /-- `SubmissionUnavailable`: the gateway keeps the mail and tries again. -/
  | unavailable (message : String)
  | unique_violation (constraint : String)
  /-- A lost connection, a full disk and the like. -/
  | failure
  deriving DecidableEq, Repr

/-- A header field with an address list. -/
structure Field where
  name : String
  defects : Bool
  addresses : List String
  deriving DecidableEq, Repr

/-- What the parser of the standard library finds in raw bytes. `defects` are
those of the message and of all its parts, and `content_ids` those of the
inline parts. -/
structure Message where
  defects : Bool
  fields : List Field
  attachments : Nat
  content_ids : List String
  spam_header : String
  spam_result : String
  virus_status : String
  deriving DecidableEq, Repr

/-- The parser and the hash of the standard library, and the settings. -/
structure Environment where
  parse : Bytes → Message
  sha256 : Bytes → String
  mail_inbound_max_message_bytes : Nat

/-! ## The envelope -/

def mailboxChar (c : Char) : Bool :=
  c.isAlphanum || decide (c ∈ ".!#$%&'*+/=?^_`\x7b|\x7d~-".toList)

def domainChar (c : Char) : Bool := c.isAlphanum || decide (c ∈ ['.', '-'])

/-- The pattern of `mailbox`. -/
def isMailbox (name domain : String) : Bool :=
  decide (name ≠ "") && name.toList.all mailboxChar && domain.toList.all domainChar &&
    domain.toList.head?.any Char.isAlphanum && domain.toList.getLast?.any Char.isAlphanum

def mailbox (value : String) : Except Error String := do
  let error := Error.value_error "SMTP envelope 주소가 올바르지 않습니다."
  let parts ← found (Text.rsplit '@' value) error
  require (isMailbox parts.1 parts.2 = true ∧ value.length ≤ 254) error
  return Text.lower value

/-! ## The raw message -/

/-- A line feed without its carriage return, or the other way round. -/
def bareNewline (raw : Bytes) : Bool :=
  decide (raw.head? = some 10) || decide (raw.getLast? = some 13) ||
    (raw.zip raw.tail).any (fun pair =>
      (decide (pair.2 = 10) && decide (pair.1 ≠ 13)) || (decide (pair.1 = 13) && decide (pair.2 ≠ 10)))

/-- Where the header ends: no bare line feed is left, so at two line ends. -/
def headerEnd (raw : Bytes) : Option Nat :=
  (List.range raw.length).find? (fun i => decide ((raw.drop i).take 4 = [13, 10, 13, 10]))

/-- `splitlines(keepends=True)`. -/
def splitlines : Bytes → List Bytes
  | [] => []
  | b :: rest =>
    if b = 10 then [b] :: splitlines rest
    else match splitlines rest with
      | [] => [[b]]
      | line :: lines => (b :: line) :: lines

def lowerBytes (bytes : Bytes) : Bytes := bytes.map (fun b => if 65 ≤ b ∧ b ≤ 90 then b + 32 else b)

/-- The name before the colon, for a line that begins a field. -/
def fieldName (field : Bytes) : Option Bytes :=
  let name := field.takeWhile (fun b => decide (33 ≤ b ∧ b ≤ 126 ∧ b ≠ 58))
  if name ≠ [] ∧ field[name.length]? = some 58 then some name else none

/-- One turn of the loop over the header: the lines kept, and `dropping`. -/
def keepLine (state : List Bytes × Bool) (line : Bytes) : Except Error (List Bytes × Bool) := do
  if line.head? = some 32 ∨ line.head? = some 9 then
    return (if state.2 then state.1 else state.1 ++ [line], state.2)
  let name ← found (fieldName line) (.value_error "SMTP 헤더가 올바르지 않습니다.")
  let dropping := decide (lowerBytes name = [98, 99, 99])
  return (if dropping then state.1 else state.1 ++ [line], dropping)

def getAll (message : Message) (name : String) : List Field :=
  message.fields.filter (fun field => decide (Text.lower field.name = Text.lower name))

/-- The check of one author field: `From`, exactly once, or `Sender`. -/
def checkAuthor (message : Message) (sender name : String) : Except Error Unit := do
  let headers := getAll message name
  require (¬ ((name = "From" ∧ headers.length ≠ 1) ∨ headers.length > 1))
    (.value_error "SMTP 발신 헤더가 올바르지 않습니다.")
  headers.forM (fun header => do
    let error := Error.value_error "SMTP 발신 헤더와 인증 발신자가 일치하지 않습니다."
    match header.addresses with
    | [address] =>
      require (header.defects = false) error
      let author ← mailbox address
      require (author = sender) error
    | _ => throw error)

variable (env : Environment)

def validate_submission (raw : Bytes) (sender recipient queue_id : String) : Except Error Bytes := do
  let sender ← mailbox sender
  let _ ← mailbox recipient
  require (5 ≤ queue_id.length ∧ queue_id.length ≤ 100 ∧ queue_id.toList.all Char.isAlphanum = true)
    (.value_error "SMTP queue 식별자가 올바르지 않습니다.")
  require (raw ≠ [] ∧ raw.length ≤ env.mail_inbound_max_message_bytes ∧ 0 ∉ raw)
    (.value_error "SMTP 원문 크기 또는 형식이 올바르지 않습니다.")
  require (bareNewline raw = false) (.value_error "SMTP 원문은 gateway CRLF 출력이어야 합니다.")
  let start ← found ((headerEnd raw).filter (fun start => decide (start ≤ 128 * 1024)))
    (.value_error "SMTP 헤더가 올바르지 않습니다.")
  let message := env.parse raw
  require (message.defects = false) (.value_error "SMTP MIME 형식이 올바르지 않습니다.")
  checkAuthor message sender "From"
  checkAuthor message sender "Sender"
  require (∀ field ∈ message.fields,
      ¬ "resent-".toList <+: (Text.lower field.name).toList ∧ field.defects = false)
    (.value_error "SMTP 헤더가 올바르지 않습니다.")
  let kept ← (splitlines (raw.take start)).foldlM keepLine ([], false)
  return (kept.1.flatten.reverse.dropWhile (fun b => decide (b = 13 ∨ b = 10))).reverse ++
    raw.drop start

/-! ## What is read in the message -/

inductive Disposition
  | inbox
  | spam
  | quarantine
  deriving DecidableEq, Repr

def classify_inbound_security (message : Message) : Disposition :=
  let virus_status := Text.lower (Text.strip message.virus_status)
  if virus_status ≠ "" ∧ ¬ "clean".toList <+: virus_status.toList then .quarantine
  else if Text.lower (Text.strip message.spam_header) ∈ ["yes", "true", "1"] ∨
      "default: true".toList <:+: (Text.lower message.spam_result).toList then .spam
  else .inbox

/-- `To` goes before `Cc`, and a recipient of neither is a hidden one. -/
def recipientKind (message : Message) (recipient : String) : String :=
  let named := fun name => (getAll message name).any (fun field =>
    field.addresses.any (fun address => decide (Text.lower address = recipient)))
  if named "To" then "to" else if named "Cc" then "cc" else "bcc"

/-- What `submission_attachments` asks of the inline parts. -/
def contentIdsValid (message : Message) : Prop :=
  message.content_ids.Nodup ∧
    ∀ cid ∈ message.content_ids, cid.toList.all (fun c => !Text.isSpace c && c != '<' && c != '>') = true

instance (message : Message) : Decidable (contentIdsValid message) :=
  inferInstanceAs (Decidable (_ ∧ _))

/-- A call of `submit`. -/
structure Call where
  envelope_from : String
  recipient_email : String
  queue_id : String
  raw_message : Bytes
  now : Time
  deriving DecidableEq, Repr

/-- What a call has before its transaction begins. -/
structure Submission where
  sender : String
  recipient : String
  queue_id : String
  raw_message : Bytes
  original_digest : String
  digest : String
  size : Nat
  recipient_kind : String
  attachments : Nat
  disposition : Disposition
  now : Time
  deriving DecidableEq, Repr

def submission (call : Call) : Except Error Submission := do
  let clean ← validate_submission env call.raw_message call.envelope_from call.recipient_email
    call.queue_id
  let sender ← mailbox call.envelope_from
  let recipient ← mailbox call.recipient_email
  let message := env.parse clean
  require (contentIdsValid message) (.value_error "SMTP inline Content-ID가 올바르지 않습니다.")
  return {
    sender := sender
    recipient := recipient
    queue_id := call.queue_id
    raw_message := call.raw_message
    original_digest := env.sha256 call.raw_message
    digest := env.sha256 clean
    size := clean.length
    recipient_kind := recipientKind message recipient
    attachments := message.attachments
    disposition := classify_inbound_security message
    now := call.now }

end moaworks.mail_submission_operations
