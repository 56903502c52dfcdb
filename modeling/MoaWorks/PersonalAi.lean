-- The personal AI settings of one user: their saves, the connection tests and the chats. Each
-- transaction and each call of the provider is one step, and requests overlap in any order.
import Mathlib.Data.String.Basic
import MoaWorks.Clock
import MoaWorks.Lib.Machine
import MoaWorks.Lib.Text

namespace moaworks.personal_ai

/-! ## Providers and model names -/

structure Profile where
  label : String
  apiBaseUrl : String
  apiKeyRequired : Bool
  protocol : String
  deriving DecidableEq, Repr

def PROVIDER_PROFILES : List (String × Profile) :=
  [("cerebras", ⟨"CEREBRAS", "https://api.cerebras.ai/v1", true, "openai"⟩),
   ("groq", ⟨"GROQ", "https://api.groq.com/openai/v1", true, "openai"⟩),
   ("mistral", ⟨"MISTRAL", "https://api.mistral.ai/v1", true, "openai"⟩),
   ("openai", ⟨"OPENAI", "https://api.openai.com/v1", true, "openai"⟩),
   ("upstage", ⟨"UPSTAGE", "https://api.upstage.ai/v1", true, "openai"⟩),
   ("gemini",
    ⟨"GEMINI", "https://generativelanguage.googleapis.com/v1beta/openai", true, "openai"⟩),
   ("openrouter", ⟨"OPENROUTER", "https://openrouter.ai/api/v1", true, "openai"⟩),
   ("anthropic", ⟨"ANTHROPIC", "https://api.anthropic.com/v1", true, "anthropic"⟩),
   ("ollama", ⟨"OLLAMA", "http://ollama:11434/v1", false, "openai"⟩)]

/-- `PROVIDER_PROFILES.get(provider)`. -/
def profile (provider : String) : Option Profile := PROVIDER_PROFILES.lookup provider

/-- The prefixes of known credentials. -/
def credentialPrefixes : List String := ["csk-", "sk-", "gsk_", "aiza", "bearer "]

/-- The pieces between the characters of `p`. -/
def splitAt (p : Char → Bool) : List Char → List (List Char)
  | [] => [[]]
  | c :: s => if p c then [] :: splitAt p s else match splitAt p s with
    | [] => [[c]]
    | part :: parts => (c :: part) :: parts

/-- `[A-Za-z0-9_-]`. -/
def isNamed (c : Char) : Bool := c.isAlphanum || c == '_' || c == '-'

/-- `re.findall(r"[A-Za-z0-9_-]+", s)`. -/
def components (s : List Char) : List (List Char) :=
  (splitAt (fun c => !isNamed c) s).filter (fun part => !part.isEmpty)

def between (lo hi : Nat) (s : List Char) : Bool := decide (lo ≤ s.length) && decide (s.length ≤ hi)

/-- `[vVrR]?\d{1,8}(?:[bBkKmMeE]|[xX]\d{1,4}[bBkK]?)?`. -/
def isVersion (part : List Char) : Bool :=
  let part := match part with
    | [] => []
    | c :: rest => if c ∈ "vVrR".toList then rest else part
  let (digits, rest) := part.span Char.isDigit
  between 1 8 digits && match rest with
    | [] => true
    | [c] => decide (c ∈ "bBkKmMeE".toList)
    | x :: size =>
      let (digits, rest) := size.span Char.isDigit
      decide (x ∈ "xX".toList) && between 1 4 digits && match rest with
        | [] => true
        | [c] => decide (c ∈ "bBkK".toList)
        | _ => false

/-- `[aA]\d{1,4}[bB]`. -/
def isActive : List Char → Bool
  | [] => false
  | a :: size =>
    let (digits, rest) := size.span Char.isDigit
    decide (a ∈ "aA".toList) && between 1 4 digits && match rest with
      | [c] => decide (c ∈ "bB".toList)
      | _ => false

/-- `[A-Z]{2,8}\d{1,4}`. -/
def isQuantized (part : List Char) : Bool :=
  let (letters, rest) := part.span Char.isUpper
  let (digits, rest) := rest.span Char.isDigit
  between 2 8 letters && between 1 4 digits && rest.isEmpty

/-- `str.isalpha`, of a part that is ASCII. -/
def isalpha (part : List Char) : Bool := !part.isEmpty && part.all Char.isAlpha

/-- A component that is as long and as mixed as a token, and not put together of words,
versions and sizes. -/
def looksSecret (component : List Char) : Bool :=
  let compact := component.filter (fun c => c != '_' && c != '-')
  let parts := splitAt (fun c => c == '-' || c == '_') component
  decide (32 ≤ compact.length) && compact.any Char.isAlpha && compact.any Char.isDigit &&
  !(decide (1 < parts.length) && parts.all (fun part =>
    isalpha part || isVersion part || isActive part || isQuantized part))

def _is_model_name (value : String) : Bool :=
  let normalized := Text.strip value
  normalized != "" &&
  !credentialPrefixes.any (fun p => p.toList.isPrefixOf (Text.lower normalized).toList) &&
  !(components normalized.toList).any looksSecret

/-! ## Settings -/

/-- The payload of a save, as its validators leave it. -/
structure PersonalAiConfigUpdate where
  provider : String
  model : String
  apiKey : Option String
  clearApiKey : Bool
  provider_known : (profile provider).isSome
  model_set : model ≠ ""
  key_set : apiKey ≠ some ""
  one_key_action : ¬(apiKey.isSome ∧ clearApiKey = true)

inductive ConnectionStatus
  | unconfigured | untested | ready | error
  deriving DecidableEq, Repr

/-- The row of `personal_ai_configs` of the user. `api_key` is what `encrypted_api_key`
decrypts to. -/
structure ConfigRow where
  provider_type : String
  model : String
  api_key : Option String
  connection_status : ConnectionStatus
  last_test_code : Option String
  last_tested_at : Option Time
  deriving DecidableEq, Repr

/-- What a call of the provider depends on. -/
structure Settings where
  provider : String
  model : String
  apiKey : String
  deriving DecidableEq, Repr

def ConfigRow.settings (row : ConfigRow) : Settings :=
  ⟨row.provider_type, row.model, row.api_key.getD ""⟩

inductive ConfigSource
  | personal | admin_default | unconfigured
  deriving DecidableEq, Repr

/-- What `_effective_config` gives, with its secret. -/
structure Config where
  settings : Settings
  connectionStatus : ConnectionStatus
  configSource : ConfigSource
  apiBaseUrl : String
  timeoutSeconds : Option Nat
  deriving DecidableEq, Repr

/-- The columns of the company's policy that a default is made of. -/
structure Policy where
  enabled : Bool
  settings : Settings
  apiBaseUrl : String
  timeoutSeconds : Nat
  deriving DecidableEq, Repr

def _is_configured (config : Settings) : Bool :=
  match profile config.provider with
  | none => false
  | some profile => _is_model_name config.model &&
    (!profile.apiKeyRequired || Text.strip config.apiKey != "")

/-- The configuration of a user without a usable one. -/
def emptyConfig : Config := ⟨⟨"", "", ""⟩, .unconfigured, .unconfigured, "", none⟩

def personalConfig (row : ConfigRow) : Config :=
  ⟨row.settings, row.connection_status, .personal, "", none⟩

def companyConfig (policy : Policy) : Config :=
  if policy.enabled && _is_configured policy.settings then
    ⟨policy.settings, .ready, .admin_default, policy.apiBaseUrl,
      some (if policy.timeoutSeconds = 0 then 15 else policy.timeoutSeconds)⟩
  else emptyConfig

def _require_configured (config : Config) : Except String Unit :=
  match profile config.settings.provider with
  | none => .error (if config.settings.provider = "" then "PERSONAL_AI_NOT_CONFIGURED"
      else "PERSONAL_AI_PROVIDER_INVALID")
  | some profile =>
    if config.settings.model = "" ∨ (profile.apiKeyRequired = true ∧ config.settings.apiKey = "")
    then .error "PERSONAL_AI_NOT_CONFIGURED" else .ok ()

/-- The key that a save writes: a new one, none, or the one that it has read. -/
def savedKey (current : Option ConfigRow) (payload : PersonalAiConfigUpdate) : Option String :=
  match payload.apiKey with
  | some raw_key => some raw_key
  | none =>
    if payload.clearApiKey = true ∨
        payload.provider ≠ (current.map ConfigRow.provider_type).getD "" then none
    else (current.bind ConfigRow.api_key).filter (fun key => key != "")

/-- `changed` of `save_config`. -/
def changed (current : Option ConfigRow) (payload : PersonalAiConfigUpdate) : Bool :=
  match current with
  | none => true
  | some row => payload.provider != row.provider_type || payload.model != row.model ||
    payload.apiKey.isSome || payload.clearApiKey

/-- The row that `save_config` upserts. What it has not changed it writes back as it was read. -/
def savedRow (current : Option ConfigRow) (payload : PersonalAiConfigUpdate) : ConfigRow :=
  match current, changed current payload with
  | some row, false => ⟨payload.provider, payload.model, savedKey current payload,
      row.connection_status, row.last_test_code, row.last_tested_at⟩
  | _, _ => ⟨payload.provider, payload.model, savedKey current payload, .untested, none, none⟩

/-- What `record_test` writes. -/
def testedRow (success : Bool) (code : String) (now : Time) (row : ConfigRow) : ConfigRow :=
  { row with
    connection_status := if success then .ready else .error
    last_test_code := some code
    last_tested_at := some now }

/-! ## Requests -/

structure Message where
  role : String
  content : String
  deriving DecidableEq, Repr

/-- What the provider is called for. -/
inductive Use
  | test
  | chat (messages : List Message)
  deriving DecidableEq, Repr

def Use.limit : Use → Nat
  | .test => 5
  | .chat _ => 20

inductive Call
  | update_config (payload : PersonalAiConfigUpdate)
  | request (use : Use)

/-- What the call of the provider ends with: its output, a `PersonalAiProviderError`, or another
exception. -/
inductive Outcome
  | output (text : String)
  | provider_error (code : String)
  | failed
  deriving DecidableEq, Repr

def Outcome.succeeded : Outcome → Bool
  | .output _ => true
  | _ => false

/-- The code of a failed call: `other`, unless the response was invalid. -/
def Outcome.code (other : String) : Outcome → String
  | .provider_error "PERSONAL_AI_RESPONSE_INVALID" => "PERSONAL_AI_RESPONSE_INVALID"
  | _ => other

inductive Reply
  | saved
  | tested (success : Bool) (provider model code : String)
  | answered (provider model content : String)
  | refused (code : String)
  deriving DecidableEq, Repr

/-- Where a request stands. -/
inductive Phase
  | idle
  | begun (call : Call)
  /-- `save_config` has read the row; `seen` counts the tests that were recorded by then. -/
  | saving (payload : PersonalAiConfigUpdate) (current : Option ConfigRow) (seen : Nat)
  | limited (use : Use)
  /-- The personal settings are not usable; the company's policy is read next. -/
  | defaulting (use : Use)
  | calling (use : Use) (config : Config)
  | recording (config : Config) (success : Bool) (code : String)
  | done (reply : Reply)

/-- A call of the provider. -/
structure ProviderCall where
  use : Use
  config : Config
  outcome : Outcome
  deriving DecidableEq, Repr

/-- A test whose result was recorded. -/
structure Test where
  settings : Settings
  success : Bool
  deriving DecidableEq, Repr

structure World where
  row : Option ConfigRow
  policy : Policy
  /-- `personal_ai_rate_limits`, by action and minute. -/
  limits : Bool × Nat → Nat
  runs : Nat → Phase
  /-- The calls of the provider, the last one first. -/
  calls : List ProviderCall
  /-- The tests that were recorded, the last one first. -/
  recorded : List Test

inductive Act
  | fetch
  | save
  | acquire_rate_limit (now : Time)
  | read_config
  | read_policy
  | provider (outcome : Outcome)
  | record_test (now : Time)
  /-- Any exception, or the end of the process: what has committed stays. -/
  | abort

inductive Event
  | start (r : Nat) (call : Call)
  | act (r : Nat) (a : Act)
  /-- An administrator changes the company's policy. -/
  | update_policy (policy : Policy)

def World.advance (w : World) (r : Nat) (p : Phase) : World :=
  { w with runs := fun k => if k = r then p else w.runs k }

/-- What a test or a chat does with its configuration. -/
def proceed (use : Use) (config : Config) : Phase :=
  match _require_configured config with
  | .error code => .done (.refused code)
  | .ok () => match use with
    | .test => .calling use config
    | .chat _ => if config.connectionStatus = .ready then .calling use config
      else .done (.refused "PERSONAL_AI_NOT_READY")

/-- How a test goes on: only a test of the personal settings is recorded. -/
def afterTest (config : Config) (outcome : Outcome) : Phase :=
  let code := if outcome.succeeded then "PERSONAL_AI_CONNECTION_READY"
    else outcome.code "PERSONAL_AI_CONNECTION_FAILED"
  if config.configSource = .personal then .recording config outcome.succeeded code
  else .done (.tested outcome.succeeded config.settings.provider config.settings.model code)

def afterChat (config : Config) : Outcome → Phase
  | .output text => .done (.answered config.settings.provider config.settings.model text)
  | outcome => .done (.refused (outcome.code "PERSONAL_AI_CHAT_FAILED"))

/-- The action and the minute that a request is counted under. -/
def window (use : Use) (now : Time) : Bool × Nat := (decide (use = .test), now / minutes 1)

def turn (w : World) (r : Nat) (a : Act) : Option World :=
  match w.runs r, a with
  | .begun (.update_config payload), .fetch =>
    if _is_model_name payload.model then
      some (w.advance r (.saving payload w.row w.recorded.length))
    else some (w.advance r (.done (.refused "PERSONAL_AI_MODEL_INVALID")))
  | .saving payload current _, .save =>
    some { w.advance r (.done .saved) with row := some (savedRow current payload) }
  | .begun (.request use), .acquire_rate_limit now =>
    let count := w.limits (window use now) + 1
    let w' := { w with limits := fun k => if k = window use now then count else w.limits k }
    if use.limit < count then some (w'.advance r (.done (.refused "PERSONAL_AI_RATE_LIMITED")))
    else some (w'.advance r (.limited use))
  | .limited use, .read_config =>
    match w.row.filter (fun row => _is_configured row.settings) with
    | some row => some (w.advance r (proceed use (personalConfig row)))
    | none => some (w.advance r (.defaulting use))
  | .defaulting use, .read_policy =>
    some (w.advance r (proceed use (companyConfig w.policy)))
  | .calling use config, .provider outcome =>
    let w' := { w with calls := ⟨use, config, outcome⟩ :: w.calls }
    match use with
    | .test => some (w'.advance r (afterTest config outcome))
    | .chat _ => some (w'.advance r (afterChat config outcome))
  | .recording config success code, .record_test now =>
    let reply := .tested success config.settings.provider config.settings.model code
    some { w.advance r (.done reply) with
      row := w.row.map (testedRow success code now)
      recorded := ⟨config.settings, success⟩ :: w.recorded }
  | .idle, .abort => none
  | .done _, _ => none
  | _, .abort => some (w.advance r .idle)
  | _, _ => none

def step (w : World) : Event → Option World
  | .start r call => match w.runs r with
    | .idle => some (w.advance r (.begun call))
    | _ => none
  | .act r a => turn w r a
  | .update_policy policy => some { w with policy := policy }

/-- A user without a row, and no request. -/
def machine : Machine World Event where
  Start := fun w => w.row = none ∧ w.calls = [] ∧ w.recorded = [] ∧ ∀ r, w.runs r = .idle
  step := step

example : _is_model_name "custom_business_assistant_model_v12" = true := by decide

example : _is_model_name "Nemotron-120B-A12B-NVFP4" = true := by decide

end moaworks.personal_ai
