-- The SMTP transports: one self-hosted with its MX candidates, one for OCI,
-- one legacy relay, and the adapter that routes between them. What the
-- network, the servers and the database answer is a script that the run
-- consumes, and what the run does outside is its trace.
import MoaWorks.DailyQuota
import MoaWorks.Lib.Program
import MoaWorks.Lib.Text

namespace moaworks.mail_transports

open Program mail_daily_send_quota

/-! ## Exceptions, answers and the trace -/

/-- A `MailTransportFailure`. -/
structure TransportFailure where
  message : String
  transient : Bool
  result_unknown : Bool := false
  deriving DecidableEq, Repr

/-- The exceptions that the handlers tell apart. `os` is an `OSError`, a
`TimeoutError` or an `SMTPServerDisconnected`; `smtp_response` is a subclass
of it that carries the code of a reply. `interrupt` is no `Exception`. -/
inductive Exc
  | transport (failure : TransportFailure)
  | relay (message : String) (transient : Bool)
  | smtp_response (code : Int)
  | os
  | quota_limit (reset_at : Time)
  | quota_unavailable
  | other
  | interrupt
  deriving DecidableEq, Repr

/-- What one call outside comes back with. A call that does not raise uses
the part that it needs. -/
structure Answer where
  raises : Option Exc := none
  code : Int := 0
  flag : Bool := false
  hosts : List String := []
  clock : Time := 0
  fault : Option Fault := none
  others : List Call := []
  deriving DecidableEq, Repr

abbrev Bytes := List UInt8

/-- What a delivery does outside, oldest first. -/
inductive Event
  | reserved (usage_date : Date)
  | refused (clock : Time) (exc : Exc)
  | lookup (domain : String)
  | connect (host : String) (port : Nat) (timeout : Int)
  | command (verb argument : String)
  | login (username password : String)
  | owner_check
  | payload (bytes : Bytes)
  | reply (code : Int)
  | quit
  | close
  deriving DecidableEq, Repr

/-- The state of a delivery: its trace, the answers to come, and the quota
that it shares with the other workers. -/
structure Net where
  trace : List Event
  answers : List Answer
  quota : Quota

abbrev Op (α : Type) := Program Net Exc α

def note (e : Event) : Op Unit := modify (fun net => { net with trace := net.trace ++ [e] })

/-- The next answer of the script. Past its end nobody answers. -/
def answer : Op Answer := do
  let net ← get
  match net.answers with
  | [] => pure { raises := some .os }
  | a :: rest =>
    modify (fun net => { net with answers := rest })
    pure a

/-- A call outside that may raise. -/
def call : Op Answer := do
  let a ← answer
  match a.raises with
  | some e => throw e
  | none => pure a

/-- `try: body except Exception as exc: handler`. -/
def catching {α : Type} (body : Op α) (handler : Exc → Op α) : Op α := do
  match ← Program.attempt body with
  | .ok a => pure a
  | .error .interrupt => throw .interrupt
  | .error e => handler e

/-! ## The pieces that the transports share -/

def transient_code (code : Int) : Bool := decide (400 ≤ code) && decide (code < 500)

def smtp_failure : Exc → TransportFailure
  | .transport failure => failure
  | .smtp_response code => ⟨"SMTP 명시 응답 거부", transient_code code, false⟩
  | .os => ⟨"SMTP DATA 전 연결/처리 실패", true, false⟩
  | _ => ⟨"SMTP DATA 전 연결/처리 실패", false, false⟩

def quietly (body : Op Unit) : Op Unit := catching body (fun _ => pure ())

def close : Op Unit := do
  note .close
  let _ ← call

def quit : Op Unit := do
  note .quit
  let _ ← call

/-- `with smtp_session(client)`: an accepted DATA is not undone by QUIT or close. -/
def smtp_session {α : Type} (body : Op α) : Op α := do
  match ← Program.attempt body with
  | .error e =>
    quietly close
    throw e
  | .ok a =>
    let left ← Program.attempt quit
    quietly close
    match left with
    | .error .interrupt => throw .interrupt
    | _ => pure a

/-- `re.sub(br'(?m)^\.', b'..', payload)`. `start` says that a line starts here. -/
def dot_stuff : Bool → Bytes → Bytes
  | _, [] => []
  | start, b :: rest =>
    (if start && b == 46 then [46, 46] else [b]) ++ dot_stuff (b == 10) rest

/-- The bytes that go to the server: stuffed, and ended by a line with one dot. -/
def stuffed_payload (payload : Bytes) : Bytes :=
  let payload := dot_stuff true payload
  (if [13, 10].isSuffixOf payload then payload else payload ++ [13, 10]) ++ [46, 13, 10]

/-- A command that answers with a reply code: `smtp.mail`, `smtp.rcpt`, `smtp.docmd`. -/
def command (verb argument : String) : Op Int := do
  note (.command verb argument)
  let a ← call
  pure a.code

/-- A command that raises unless the server agrees: EHLO, STARTTLS. -/
def agreed (verb argument : String) : Op Unit := do
  note (.command verb argument)
  let _ ← call

def login (username password : String) : Op Unit := do
  note (.login username password)
  let _ ← call

/-- `has_extn("starttls")` on the features of the last EHLO. -/
def has_starttls : Op Bool := do
  let a ← call
  pure a.flag

/-- `has_extn("starttls")`, where the code asks for it. -/
def starttls_offered (asked : Bool) : Op Bool := if asked then has_starttls else pure false

/-- The callback of the worker that proves that the claim is still its own. -/
def before_data : Op Unit := do
  note .owner_check
  let _ ← call

def envelope (verb value : String) : Op Unit := do
  let code ← command verb value
  if 200 ≤ code ∧ code < 300 then pure ()
  else throw (.transport ⟨"SMTP envelope 거부", transient_code code, false⟩)

/-- `smtp.send(payload)` and `smtp.getreply()`. -/
def send_payload (payload : Bytes) : Op Int := do
  note (.payload payload)
  let _ ← call
  let a ← call
  note (.reply a.code)
  pure a.code

def data_unknown : TransportFailure := ⟨"SMTP DATA 결과불명: 중복 위험 확인 필요", false, true⟩

/-- `send_smtp_data`. `prepared` is the message as bytes, or what its
serialisation raises; `owned` says that a `before_data` callback is given. -/
def send_smtp_data (prepared : Except Exc Bytes) (envelope_from recipient_email : String)
    (owned : Bool) : Op Unit := do
  let payload ← (match prepared with | .ok b => pure b | .error e => throw e : Op Bytes)
  envelope "MAIL" envelope_from
  envelope "RCPT" recipient_email
  onlyIf owned before_data
  let code ← command "DATA" ""
  onlyIf (code ≠ 354) (throw (.transport ⟨"SMTP DATA 진입 거부", transient_code code, false⟩))
  onlyIf owned before_data
  let code ← catching (send_payload (stuffed_payload payload))
    (fun _ => throw (.transport data_unknown))
  if code = 250 then pure ()
  else if 400 ≤ code ∧ code < 600 then
    throw (.transport ⟨"SMTP DATA 명시 거부", decide (code < 500), false⟩)
  else throw (.transport ⟨"SMTP DATA 결과불명: 응답 확인 필요", false, true⟩)

/-- The constructor of the SMTP client opens the connection. -/
def smtp_factory (host : String) (port : Nat) (timeout : Int) : Op Unit := do
  note (.connect host port timeout)
  let _ ← call

/-- `MailDailySendQuota.reserve_attempt` as the callback `before_network_attempt`.
Other workers may have reserved since the last call. -/
def reserve_attempt (limit : Nat) : Op Unit := do
  let a ← answer
  let net ← get
  let q := a.others.foldl (fun q c => (attempt limit q c).2) net.quota
  let (outcome, q') := attempt limit q ⟨a.clock, a.fault⟩
  modify (fun net => { net with quota := q' })
  match outcome with
  | .granted usage_date _ _ _ => note (.reserved usage_date)
  | .limit_exceeded _ reset_at =>
    note (.refused a.clock (.quota_limit reset_at))
    throw (.quota_limit reset_at)
  | .unavailable =>
    note (.refused a.clock .quota_unavailable)
    throw .quota_unavailable

/-- The callback, when the worker has a quota with this limit. -/
def before_network_attempt : Option Nat → Op Unit
  | none => pure ()
  | some limit => reserve_attempt limit

structure DeliveryReceipt where
  provider_key : String
  endpoint : String
  remote_smtp_accepted : Bool
  deriving DecidableEq, Repr

/-- The keyword arguments of the self-hosted transport. -/
structure TransportOptions where
  helo_name : String
  timeout_sec : Int
  relay_host : String
  relay_port : Nat
  tls_mode : String
  username : String
  password : String
  deriving DecidableEq, Repr

/-! ## The transports -/

/-- `host.strip().rstrip(".").lower()`. -/
def normalized_host (host : String) : String := Text.lower (Text.rstrip '.' (Text.strip host))

namespace SelfHostedSmtpTransport

/-- The MX lookup of the recipient's domain. -/
def mx_resolver (domain : String) : Op (List String) := do
  note (.lookup domain)
  let a ← call
  pure a.hosts

/-- The hosts to try, in order: the relay alone, or the MX hosts of the recipient. -/
def candidates (relay_host : String) (relay_port : Nat) (recipient_email : String) :
    Op (List (String × Nat)) :=
  if relay_host ≠ "" then pure [(relay_host, relay_port)]
  else
    match Text.rsplit '@' recipient_email with
    | none => throw .other
    | some (_, domain) => do
      let hosts ← mx_resolver (Text.lower domain)
      pure ((hosts.filter (fun host => Text.strip host ≠ "")).map
        (fun host => (normalized_host host, 25)))

/-- The body of the loop over the candidates, for one host. -/
def deliver (prepared : Except Exc Bytes) (envelope_from recipient_email : String)
    (options : TransportOptions) (owned : Bool) (host : String) (port : Nat) :
    Op DeliveryReceipt := do
  let relay_host := normalized_host options.relay_host
  let username := Text.strip options.username
  let starttls_required := decide (relay_host ≠ "") && decide (options.tls_mode = "starttls")
  smtp_factory host port (max 3 (min options.timeout_sec 60))
  smtp_session do
    agreed "EHLO" options.helo_name
    let offered ← starttls_offered (starttls_required || decide (relay_host = ""))
    onlyIf (starttls_required && !offered) (throw .other)
    onlyIf offered do
      agreed "STARTTLS" ""
      agreed "EHLO" options.helo_name
    onlyIf (relay_host ≠ "" ∧ username ≠ "") (login username options.password)
    send_smtp_data prepared envelope_from recipient_email owned
  pure ⟨"self_hosted", s!"smtp://{host}:{port}", true⟩

/-- The loop: the next host is tried only after a transient failure whose
result is known. `last_error` is raised after the last host. -/
def tryCandidates (prepared : Except Exc Bytes) (envelope_from recipient_email : String)
    (options : TransportOptions) (limit : Option Nat) (owned : Bool) :
    List (String × Nat) → Exc → Op DeliveryReceipt
  | [], last_error => throw last_error
  | (host, port) :: rest, _ => do
    before_network_attempt limit
    catching (deliver prepared envelope_from recipient_email options owned host port)
      (fun exc =>
        let last_error := smtp_failure exc
        if !last_error.transient || last_error.result_unknown then
          throw (.transport last_error)
        else
          tryCandidates prepared envelope_from recipient_email options limit owned rest
            (.transport last_error))

def send_prepared (prepared : Except Exc Bytes) (envelope_from recipient_email : String)
    (options : TransportOptions) (limit : Option Nat) (owned : Bool) : Op DeliveryReceipt := do
  onlyIf (options.tls_mode = "tls")
    (throw (.transport ⟨"자체 SMTP는 implicit TLS를 지원하지 않습니다.", false, false⟩))
  let relay_host := normalized_host options.relay_host
  let username := Text.strip options.username
  onlyIf (relay_host ≠ "" ∧ (username ≠ "") ≠ (options.password ≠ ""))
    (throw (.transport ⟨"자체 SMTP 릴레이 자격증명이 완전하지 않습니다.", false, false⟩))
  let hosts ← candidates relay_host options.relay_port recipient_email
  onlyIf (hosts = [])
    (throw (.transport ⟨"외부 SMTP 대상 MX를 찾지 못했습니다.", false, false⟩))
  tryCandidates prepared envelope_from recipient_email options limit owned hosts .other

end SelfHostedSmtpTransport

/-- A configuration of an SMTP relay. -/
structure RelaySmtpConfig where
  host : String
  port : Nat
  username : String
  password : String
  timeout_sec : Int
  deriving DecidableEq, Repr

namespace OciEmailDeliveryTransport

def send_prepared (prepared : Except Exc Bytes) (envelope_from recipient_email : String)
    (config : RelaySmtpConfig) (owned : Bool) : Op DeliveryReceipt := do
  onlyIf (config.port ≠ 465 ∧ config.port ≠ 587)
    (throw (.transport ⟨"OCI SMTP 포트는 465 또는 587이어야 합니다.", false, false⟩))
  catching
    (do
      smtp_factory config.host config.port (max 3 (min config.timeout_sec 60))
      smtp_session do
        agreed "EHLO" ""
        onlyIf (config.port = 587) do
          let offered ← has_starttls
          onlyIf (!offered) (throw .other)
          agreed "STARTTLS" ""
          agreed "EHLO" ""
        login config.username config.password
        send_smtp_data prepared envelope_from recipient_email owned)
    (fun exc => throw (.transport (smtp_failure exc)))
  pure ⟨"oci_email_delivery", s!"smtps://{config.host}:{config.port}", true⟩

end OciEmailDeliveryTransport

/-- The row of the provider as `prepare_claim` hands it out, with its
password in clear. `helo_name` and `timeout_sec` may be missing. -/
structure Provider where
  provider_type : String
  relay_host : String
  relay_port : Nat
  tls_mode : String
  from_address : String
  username : String
  password : String
  helo_name : Option String
  timeout_sec : Option Int
  delivery_enabled : Bool
  last_test_status : Option String
  max_retry_count : Nat
  retry_interval_sec : Nat
  deriving DecidableEq, Repr

/-- What a worker passes on about the mail. Its attachments and its raw
source are read only when the message is built. -/
structure Envelope where
  mail_id : String
  message_id : Option String
  queue_id : String
  delivery_kind : String
  sender_email : String
  sender_display_name : Option String
  reply_to_email : Option String
  message_encoding : Option String
  recipient_email : String
  subject : String
  body_text : String
  body_html : Option String
  deriving DecidableEq, Repr

/-- A prepared message: its bytes, or what serialising it raises. -/
structure PreparedMailDelivery where
  provider_type : String
  message : Except Exc Bytes
  envelope_from : String
  recipient_email : String
  legacy_envelope : Envelope

/-- A mail that was forwarded or answered by the system keeps its own sender. -/
def automaticKind (delivery_kind : String) : Bool :=
  decide (delivery_kind = "auto_forward") || decide (delivery_kind = "out_of_office")

namespace SmtpRelayAdapter

def send_prepared (message : Except Exc Bytes) (provider : Provider) (envelope : Envelope)
    (owned : Bool) : Op String := do
  catching
    (do
      smtp_factory provider.relay_host provider.relay_port 10
      smtp_session do
        agreed "EHLO" ""
        onlyIf (provider.tls_mode = "starttls") do
          agreed "STARTTLS" ""
          agreed "EHLO" ""
        onlyIf (provider.username ≠ "") (login provider.username provider.password)
        let sender :=
          if automaticKind envelope.delivery_kind then envelope.sender_email
          else if provider.from_address ≠ "" then provider.from_address
          else envelope.sender_email
        send_smtp_data message sender envelope.recipient_email owned
      pure "relay accepted")
    (fun exc => throw (.transport (smtp_failure exc)))

end SmtpRelayAdapter

namespace MailProviderRoutingAdapter

def receiptText (receipt : DeliveryReceipt) : String :=
  s!"provider={receipt.provider_key};endpoint={receipt.endpoint};" ++
    s!"remote_smtp_accepted={receipt.remote_smtp_accepted}"

/-- The options of the self-hosted transport, with their defaults. -/
def transportOptions (prepared : PreparedMailDelivery) (provider : Provider) :
    TransportOptions where
  helo_name :=
    match provider.helo_name with
    | some name => if name ≠ "" then name else defaultHelo
    | none => defaultHelo
  timeout_sec :=
    match provider.timeout_sec with
    | some n => if n ≠ 0 then n else defaultTimeout
    | none => defaultTimeout
  relay_host := provider.relay_host
  relay_port := if provider.relay_port ≠ 0 then provider.relay_port else 25
  tls_mode := if provider.tls_mode ≠ "" then provider.tls_mode else "opportunistic"
  username := provider.username
  password := provider.password
where
  defaultHelo : String :=
    "mail." ++ ((Text.rsplit '@' prepared.envelope_from).map (·.2)).getD "localhost"
  defaultTimeout : Int := if provider.relay_host ≠ "" then 60 else 20

/-- The configuration of the OCI relay, with its defaults. -/
def relayConfig (provider : Provider) : RelaySmtpConfig where
  host := provider.relay_host
  port := if provider.relay_port ≠ 0 then provider.relay_port else 587
  username := provider.username
  password := provider.password
  timeout_sec :=
    match provider.timeout_sec with
    | some n => if n ≠ 0 then n else 20
    | none => 20

/-- `send_prepared` of the adapter. `limit` is the quota's, when there is one. -/
def send_prepared (prepared : PreparedMailDelivery) (provider : Provider) (limit : Option Nat)
    (owned : Bool) : Op String := do
  if prepared.provider_type = "self_hosted" then
    let receipt ← SelfHostedSmtpTransport.send_prepared prepared.message prepared.envelope_from
      prepared.recipient_email (transportOptions prepared provider) limit owned
    pure (receiptText receipt)
  else if prepared.provider_type = "oci_email_delivery" then
    before_network_attempt limit
    let receipt ← OciEmailDeliveryTransport.send_prepared prepared.message
      prepared.envelope_from prepared.recipient_email (relayConfig provider) owned
    pure (receiptText receipt)
  else if prepared.provider_type = "smtp" ∨ prepared.provider_type = "aws_ses" then
    before_network_attempt limit
    SmtpRelayAdapter.send_prepared prepared.message provider prepared.legacy_envelope owned
  else
    throw (.transport ⟨s!"지원하지 않는 발신 Provider입니다: {prepared.provider_type}", false, false⟩)

end MailProviderRoutingAdapter

end moaworks.mail_transports
