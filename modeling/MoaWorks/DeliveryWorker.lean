-- The worker that delivers a claimed mail: what each outcome of the adapter
-- makes of the row, and the masking of error texts.
import MoaWorks.MailQueue
import MoaWorks.SmtpTransport

namespace moaworks.mail_delivery_service

open mail_transports
open mail_queue (DeliveryResult ResultStatus Db Job Failure)

/-! ## Masked error texts -/

def isValueChar (c : Char) : Bool := !(Text.isSpace c || c == ',' || c == ';')

/-- Matches a keyword at the front, in any letter case. -/
def keyword? (key : String) (s : List Char) : Option (List Char) :=
  if (s.take key.length).map Char.toLower = key.toList then some (s.drop key.length) else none

/-- The part `(?:bearer\s+)?[^\s,;]+` of the secret pattern: what follows it. -/
def secretValue? (s : List Char) : Option (List Char) :=
  let plain := fun (t : List Char) =>
    match t with
    | c :: _ => if isValueChar c then some (t.dropWhile isValueChar) else none
    | [] => none
  match keyword? "bearer" s with
  | some (c :: t) =>
    if Text.isSpace c then
      match plain (t.dropWhile Text.isSpace) with
      | some rest => some rest
      | none => plain s
    else plain s
  | _ => plain s

/-- `_SECRET_RE` at the front: the keyword as it stands, and what follows the match. -/
def secret? (s : List Char) : Option (List Char × List Char) :=
  ["password", "token", "authorization", "secret"].findSome? (fun key =>
    match keyword? key s with
    | none => none
    | some rest =>
      match rest.dropWhile Text.isSpace with
      | c :: t =>
        if c == ':' || c == '=' then
          (secretValue? (t.dropWhile Text.isSpace)).map (fun r => (s.take key.length, r))
        else none
      | [] => none)

def isAsciiAlnum (c : Char) : Bool := c.toNat < 128 && c.isAlphanum

def isLocal (c : Char) : Bool := isAsciiAlnum c || "._%+-".toList.contains c

def isDomain (c : Char) : Bool := isAsciiAlnum c || c == '.' || c == '-'

def isAsciiAlpha (c : Char) : Bool := c.toNat < 128 && c.isAlpha

/-- `[A-Z0-9.-]+\.[A-Z]{2,}` at the front, greedy: the length of the match.
`n` characters of the domain are already taken. -/
def domainMatch : Nat → List Char → Option Nat
  | _, [] => none
  | n, c :: rest =>
    if isDomain c then
      match domainMatch (n + 1) rest with
      | some k => some k
      | none =>
        let top := rest.takeWhile isAsciiAlpha
        if c == '.' && decide (0 < n) && decide (2 ≤ top.length) then some (n + 1 + top.length)
        else none
    else none

/-- `_EMAIL_RE` at the front: what follows the match. -/
def email? (s : List Char) : Option (List Char) :=
  match s.dropWhile isLocal with
  | '@' :: rest =>
    if s.takeWhile isLocal = [] then none
    else (domainMatch 0 rest).map (fun k => rest.drop k)
  | _ => none

/-- `re.sub`: replaces each match from the left. `fuel` is at least the length. -/
def subAll (front? : List Char → Option (List Char × List Char)) :
    Nat → List Char → List Char
  | 0, s => s
  | _, [] => []
  | fuel + 1, c :: s =>
    match front? (c :: s) with
    | some (put, rest) => put ++ subAll front? fuel rest
    | none => c :: subAll front? fuel s

def mask_delivery_error (message : String) : String :=
  let s := message.toList
  let masked := subAll (fun t => (secret? t).map (fun (key, rest) =>
    (key ++ "=[REDACTED]".toList, rest))) s.length s
  let masked := subAll (fun t => (email? t).map (fun rest => ("[EMAIL]".toList, rest)))
    masked.length masked
  String.ofList (masked.take 500)

/-! ## Delivering a claimed mail -/

/-- The columns of the claimed row and its mail that the worker reads. -/
structure DeliveryJob where
  attempt_count : Nat
  recipient_suppressed : Bool
  mail : Envelope
  sender_email_override : Option String
  sender_display_name_override : Option String
  reply_to_email_override : Option String

def truthy (s : Option String) : Option String := s.filter (fun t => t ≠ "")

/-- The envelope of `deliver_claimed`: a forwarded or automatic mail carries its overrides. -/
def envelopeOf (job : DeliveryJob) : Envelope :=
  if automaticKind job.mail.delivery_kind then
    { job.mail with
      sender_email := (truthy job.sender_email_override).getD job.mail.sender_email,
      sender_display_name :=
        (truthy job.sender_display_name_override).or job.mail.sender_display_name,
      reply_to_email := (truthy job.reply_to_email_override).or job.mail.reply_to_email }
  else job.mail

inductive Phase
  | prepare | send
  deriving DecidableEq, Repr

/-- The last moment of a `datetime`: 9999-12-31 23:59:59.999999. -/
def datetimeMax : Time := 253402300799999999

/-- `datetime.now(UTC)`. -/
def datetime_now : Op Time := do
  let a ← answer
  pure a.clock

def prepareFailed : DeliveryResult where
  status := .failed
  error_message := some "PREPARE_FAILED: 발송 자료/설정 준비 실패"

/-- The handlers for a `RelayDeliveryError` and a `MailTransportFailure`. The
date of a retry that lies beyond the calendar raises. -/
def transportResult (phase : Phase) (failure : TransportFailure) (provider : Provider)
    (attempt : Nat) : Op DeliveryResult :=
  if phase = .prepare then
    pure { prepareFailed with
      error_message := prepareFailed.error_message.map mask_delivery_error }
  else
    let error := some (mask_delivery_error failure.message)
    if failure.result_unknown then pure { status := .result_unknown, error_message := error }
    else if failure.transient ∧ attempt < provider.max_retry_count then do
      let delay := seconds (provider.retry_interval_sec * 2 ^ (attempt - 1))
      let now ← datetime_now
      Program.onlyIf (datetimeMax < now + delay) (throw .other)
      pure { status := .retry_pending, error_message := error, next_attempt_at := some (now + delay) }
    else pure { status := .failed, error_message := error }

/-- The `except` clauses of `deliver_claimed`, in order. -/
def resultOf (phase : Phase) (provider : Provider) (attempt : Nat) : Exc → Op DeliveryResult
  | .quota_limit reset_at =>
    pure { status := .quota_deferred, error_message := some "MAIL_DAILY_SEND_LIMIT_EXCEEDED", next_attempt_at := some reset_at }
  | .quota_unavailable => do
    let now ← datetime_now
    pure { status := .quota_deferred, error_message := some "MAIL_DAILY_QUOTA_UNAVAILABLE", next_attempt_at := some (now + seconds 60) }
  | .relay message transient => transportResult phase ⟨message, transient, false⟩ provider attempt
  | .transport failure => transportResult phase failure provider attempt
  | .interrupt => throw .interrupt
  | _ =>
    pure (if phase = .prepare then prepareFailed else {
      status := .result_unknown
      error_message := some "SEND_RESULT_UNKNOWN: 중복 위험 확인 필요" })

/-- `deliver_claimed` with the routing adapter. `prepare` stands for the
adapter's `prepare`, which reads files and builds the message but opens no
connection; `limit` is that of the quota, if there is one. -/
def deliver_claimed (prepare : Envelope → Provider → Except Exc PreparedMailDelivery)
    (limit : Option Nat) (owned : Bool) (job : DeliveryJob) (provider : Provider) :
    Op DeliveryResult :=
  if !provider.delivery_enabled || provider.last_test_status ≠ some "success" then
    pure { status := .blocked, error_message := some "외부 발송 잠금 또는 연결 검증이 필요합니다." }
  else if provider.provider_type = "oci_email_delivery" ∧ job.recipient_suppressed then
    pure { status := .blocked, error_message := some "OCI suppression 목록에 등록된 수신자입니다." }
  else
    let attempt := job.attempt_count + 1
    match prepare (envelopeOf job) provider with
    | .error exc => resultOf .prepare provider attempt exc
    | .ok prepared => do
      match ← Program.attempt
          (MailProviderRoutingAdapter.send_prepared prepared provider limit owned) with
      | .ok response =>
        pure { status := .sent, relay_response := some (mask_delivery_error response) }
      | .error exc => resultOf .send provider attempt exc

/-- The end of `run_once`: a delivery that the quota refused is given back,
any other is finalized. -/
def record_result (digest8 : String → Nat) (db : Db) (worker_id : String) (job : Job)
    (result : DeliveryResult) (now clock finished_at : Time) : Except Failure (Bool × Db) :=
  if result.status = .quota_deferred then
    .ok (mail_queue.defer_claim_for_quota digest8 db worker_id job result.error_message
      (result.next_attempt_at.getD now) now clock)
  else mail_queue.finalize_claim db worker_id job result false now clock finished_at

end moaworks.mail_delivery_service
