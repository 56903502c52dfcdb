-- What the mail services decide about one recipient, from the settings of a user: the spam
-- filter, the classification, the forwarding and the absence; and which addresses are ours.
import MoaWorks.Actors
import MoaWorks.DailyQuota
import MoaWorks.Lib.Raise
import MoaWorks.Lib.Text
import Mathlib.Data.List.Infix

namespace moaworks.mail_policies

open mail_daily_send_quota (Date usageDate)
open Raise (require found)

inductive Error
  | value_error (message : String)
  | permission_error (message : String)
  | not_found (message : String)
  | state_error (message : String)
  | key_error
  deriving DecidableEq, Repr

/-- `domain.encode("idna").decode("ascii")` of the standard library, where it does not raise. -/
structure Codec where
  idna : String → Option String

variable (codec : Codec)

/-! ## Addresses -/

def count (c : Char) (s : String) : Nat := s.toList.count c

def hasSpace (s : String) : Bool := s.toList.any Text.isSpace

def contains (part s : String) : Bool := decide (part.toList <:+: s.toList)

def startswith (s part : String) : Bool := decide (part.toList <+: s.toList)

def endswith (s part : String) : Bool := decide (part.toList <:+ s.toList)

/-- `_ASCII_DOMAIN_LABEL`. -/
def isLabel (label : List Char) : Bool :=
  label.head?.any Char.isAlphanum && label.getLast?.any Char.isAlphanum &&
    decide (label.length ≤ 63) && label.all (fun c => c.isAlphanum || decide (c = '-'))

def localChar (c : Char) : Bool :=
  c.isAlphanum || decide (c ∈ "!#$%&'*+/=?^_`\x7b|\x7d~-".toList)

/-- `_LOCAL_PART`. -/
def isLocalPart (s : String) : Bool :=
  (s.toList.splitOn '.').all (fun atom => decide (atom ≠ []) && atom.all localChar)

def normalize_spam_domain (value : String) : Except Error String := do
  let error := Error.value_error "도메인 형식이 올바르지 않습니다."
  let stripped := Text.strip value
  let candidate := if startswith stripped "@" then String.ofList (stripped.toList.drop 1) else stripped
  require (candidate ≠ "" ∧ hasSpace candidate = false) error
  require (∀ token ∈ ["*", "://", "/", "\\", ":"], contains token candidate = false) error
  require (startswith candidate "." = false ∧ endswith candidate "." = false ∧
    contains ".." candidate = false) error
  let ascii ← found (codec.idna candidate) error
  let normalized := Text.lower ascii
  let labels := normalized.toList.splitOn '.'
  require (2 ≤ labels.length ∧ normalized.length ≤ 253 ∧ labels.all isLabel = true) error
  return normalized

def normalize_spam_email (value : String) : Except Error String := do
  let error := Error.value_error "이메일 형식이 올바르지 않습니다."
  let candidate := Text.strip value
  require (count '@' candidate = 1 ∧ hasSpace candidate = false ∧
    contains "<" candidate = false ∧ contains ">" candidate = false) error
  let local_part := Text.lower (Text.before '@' candidate)
  require (local_part.length ≤ 64 ∧ isLocalPart local_part = true) error
  let domain ← normalize_spam_domain codec (Text.afterLast '@' candidate)
  let normalized := local_part ++ "@" ++ domain
  require (normalized.length ≤ 320) error
  return normalized

def domain_matches (sender_domain rule_domain : String) : Bool :=
  decide (sender_domain = rule_domain) || endswith sender_domain ("." ++ rule_domain)

/-- The body of `normalize_forward_email` and of `normalize_out_of_office_email`. -/
def normalizeAddress (value : String) : Except Error String := do
  let error := Error.value_error "이메일 주소를 확인해 주세요."
  let normalized := Text.lower (Text.strip value)
  require (normalized.length ≤ 254 ∧ count '@' normalized = 1) error
  let local_part := Text.before '@' normalized
  let domain := Text.afterLast '@' normalized
  require (local_part ≠ "" ∧ domain ≠ "" ∧ hasSpace normalized = false) error
  let ascii ← found (codec.idna domain) error
  let result := local_part ++ "@" ++ ascii
  require (result.length ≤ 254 ∧ contains "." ascii = true) error
  return result

def normalize_forward_email : String → Except Error String := normalizeAddress codec

def normalize_out_of_office_email : String → Except Error String := normalizeAddress codec

/-! ## Spam -/

inductive Match
  | email
  | domain
  deriving DecidableEq, Repr

/-- A row of `user_spam_rules`; without `allow` it is a rule that denies. -/
structure SpamRule where
  allow : Bool
  match_type : Match
  match_value : String
  enabled : Bool
  deriving DecidableEq, Repr

/-- The policy of a user, which filters unless it says otherwise, and the rules. -/
structure SpamSettings where
  filter_enabled : Bool
  rules : List SpamRule
  deriving DecidableEq, Repr

/-- `evaluate_sender`: the mail is spam. -/
def evaluate_sender (settings : SpamSettings) (sender_email : String) : Except Error Bool := do
  let normalized_email ← normalize_spam_email codec sender_email
  let sender_domain := Text.afterLast '@' normalized_email
  if settings.filter_enabled = false then
    return false
  let matched := fun allow match_type => settings.rules.any (fun rule => rule.enabled &&
    decide (rule.allow = allow) && decide (rule.match_type = match_type) &&
    match match_type with
    | .email => decide (normalized_email = rule.match_value)
    | .domain => domain_matches sender_domain rule.match_value)
  if matched true .email || matched true .domain then
    return false
  return matched false .email || matched false .domain

/-- `_evaluate_recipient_spam_for_company`: a filter that fails lets the mail through. -/
def is_spam (settings : SpamSettings) (sender_email : String) : Bool :=
  match evaluate_sender codec settings sender_email with
  | .ok spam => spam
  | .error _ => false

/-! ## Classification -/

inductive Operator
  | equals | contains | starts_with | ends_with | subdomain | exists_ | missing
  deriving DecidableEq, Repr

inductive ConditionField
  | sender_email | recipient_email | sender_domain | subject | body | attachment
  deriving DecidableEq, Repr

structure Condition where
  field : ConditionField
  operator : Operator
  value : Option String
  deriving DecidableEq, Repr

structure ClassificationRule where
  id : String
  enabled : Bool
  target_folder_id : Option String
  conditions : List Condition
  tag_ids : List String
  deriving DecidableEq, Repr

/-- The policy of a user, and the rules in the order of priority and id. -/
structure ClassificationSettings where
  enabled : Bool
  rules : List ClassificationRule
  deriving DecidableEq, Repr

structure Context where
  sender_email : String
  sender_domain : String
  recipient_email : String
  subject : String
  body : String
  has_attachment : Bool
  deriving DecidableEq, Repr

def Context.get (context : Context) : ConditionField → String
  | .sender_email => context.sender_email
  | .recipient_email => context.recipient_email
  | .sender_domain => context.sender_domain
  | .subject => context.subject
  | .body => context.body
  | .attachment => ""

def condition_matches (condition : Condition) (context : Context) : Bool :=
  let left := Text.lower (context.get condition.field)
  let right := Text.lower (condition.value.getD "")
  match condition.field, condition.operator with
  | .attachment, .exists_ => context.has_attachment
  | .attachment, _ => !context.has_attachment
  | .sender_domain, .subdomain => domain_matches left right
  | _, .equals => decide (left = right)
  | _, .contains => contains right left
  | _, .starts_with => startswith left right
  | _, .ends_with => endswith left right
  | _, _ => false

structure AutoClassificationDecision where
  matchedRuleIds : List String
  folderId : Option String
  tagIds : List String
  deriving DecidableEq, Repr

/-- `AutoClassificationDecision.from_rules`: the first folder, and all the tags. -/
def AutoClassificationDecision.from_rules (rules : List ClassificationRule) (context : Context) :
    AutoClassificationDecision :=
  let matched := rules.filter (fun rule => rule.enabled &&
    rule.conditions.all (fun condition => condition_matches condition context))
  { matchedRuleIds := matched.map ClassificationRule.id
    folderId := matched.findSome? ClassificationRule.target_folder_id
    tagIds := (matched.flatMap ClassificationRule.tag_ids).dedup }

/-- `evaluate_recipient`. -/
def evaluate_recipient (settings : ClassificationSettings) (context : Context) :
    AutoClassificationDecision :=
  if settings.enabled then AutoClassificationDecision.from_rules settings.rules context
  else ⟨[], none, []⟩

/-- The context of `_apply_auto_classification`. -/
def classificationContext (sender_email recipient_email subject body : String)
    (has_attachment : Bool) : Except Error Context := do
  let normalized_sender ← normalize_spam_email codec sender_email
  let recipient_email ← normalize_spam_email codec recipient_email
  return ⟨normalized_sender, Text.afterLast '@' normalized_sender, recipient_email, subject, body,
    has_attachment⟩

/-! ## Forwarding -/

/-- Whether an address belongs to a user or to someone outside. -/
inductive Place
  | internal (user_id : String)
  | external
  deriving DecidableEq, Repr

def Place.user : Place → Option String
  | internal user_id => some user_id
  | external => none

/-- An address, and the user behind it when `target_kind` is `internal`. -/
structure ForwardTarget where
  normalized_email : String
  place : Place
  deriving DecidableEq, Repr

structure ForwardException where
  id : String
  matcher_type : Match
  matcher_value : String
  /-- `action` is `skip`. -/
  skip : Bool
  enabled : Bool
  targets : List ForwardTarget
  deriving DecidableEq, Repr

/-- The policy of a user, with the targets in their order and the exceptions by id. -/
structure ForwardSettings where
  enabled : Bool
  keep_original : Bool
  targets : List ForwardTarget
  exceptions : List ForwardException
  deriving DecidableEq, Repr

/-- The first of the longest matching domains. -/
def longest : List ForwardException → Option ForwardException
  | [] => none
  | rule :: rest =>
    match longest rest with
    | none => some rule
    | some best =>
      if best.matcher_value.length ≤ rule.matcher_value.length then some rule else some best

/-- The exception that a sender falls under. -/
def exceptionFor (settings : ForwardSettings) (sender : String) : Option ForwardException :=
  let enabled := settings.exceptions.filter ForwardException.enabled
  match enabled.find? (fun rule =>
      decide (rule.matcher_type = .email) && decide (rule.matcher_value = sender)) with
  | some rule => some rule
  | none => longest (enabled.filter (fun rule =>
      decide (rule.matcher_type = .domain) &&
      domain_matches (Text.afterLast '@' sender) rule.matcher_value))

/-- `AutoForwardDecision.from_rules`: the addresses, and the exception. -/
def AutoForwardDecision.from_rules (settings : ForwardSettings) (sender_email : String) :
    Except Error (List String × Option String) := do
  let sender ← normalize_forward_email codec sender_email
  let matched := exceptionFor settings sender
  let values := match matched with
    | none => settings.targets
    | some rule => if rule.skip then [] else rule.targets
  let result ← values.mapM (fun target => normalize_forward_email codec target.normalized_email)
  -- The first of equal addresses stays.
  return (result.reverse.dedup.reverse, matched.map ForwardException.id)

/-- `by_email`: the target behind an address, of the defaults and then of the exceptions. -/
def ForwardSettings.by_email (settings : ForwardSettings) (email : String) : Option ForwardTarget :=
  (settings.targets ++ settings.exceptions.flatMap ForwardException.targets).reverse.find?
    (fun target => decide (target.normalized_email = email))

/-! ## Absence -/

inductive Scope
  | all
  | internal
  | external
  deriving DecidableEq, Repr

/-- A row of `mail_out_of_office_policies`. -/
structure AbsencePolicy where
  enabled : Bool
  start_date : Option Date
  end_date : Option Date
  subject : String
  message_text : String
  target_scope : Scope
  deriving DecidableEq, Repr

/-- `compute_out_of_office_state` is `active`. -/
def AbsencePolicy.active (policy : AbsencePolicy) (today : Date) : Bool :=
  policy.enabled && match policy.start_date, policy.end_date with
    | some start, some stop => decide (start ≤ today) && decide (today ≤ stop)
    | _, _ => false

def should_suppress_out_of_office (sender_email owner_email : String) (is_auto_generated : Bool) :
    Except Error Bool := do
  let sender ← normalize_out_of_office_email codec sender_email
  let owner ← normalize_out_of_office_email codec owner_email
  let local_part := String.ofList ((Text.before '@' sender).toList.map
    (fun c => if c = '_' ∨ c = '.' then '-' else c))
  return is_auto_generated || decide (sender = owner) || decide (local_part ∈
    ["mailer-daemon", "postmaster", "no-reply", "noreply", "do-not-reply", "donotreply"])

/-- What the sender is to the company: a user, someone else, or an address of the company
that nobody has. -/
inductive SenderKind
  | internal (user_id : String)
  | external
  | suppressed
  deriving DecidableEq, Repr

def classify_out_of_office_sender (sender_email : String) (active_users : List (String × String))
    (company_domain : String) : Except Error SenderKind := do
  let sender ← normalize_out_of_office_email codec sender_email
  let active ← active_users.mapM (fun user => do
    return (← normalize_out_of_office_email codec user.1, user.2))
  match active.reverse.find? (fun user => decide (user.1 = sender)) with
  | some user => return .internal user.2
  | none =>
    let stripped := (Text.lower (Text.strip company_domain)).toList.dropWhile (fun c => c == '@')
    let domain ← found (codec.idna (String.ofList stripped)) (.value_error "idna")
    return if Text.afterLast '@' sender = domain then .suppressed else .external

/-! ## Recipients -/

inductive Kind
  | to
  | cc
  | bcc
  deriving DecidableEq, Repr

/-- One turn of the loop of `MailDeliveryPolicy.classify`. -/
def classifyOne (company_domain : String) (active_users : String → Option String)
    (email : String) : Except Error Place :=
  match active_users (Text.lower (Text.strip email)) with
  | some user_id => .ok (.internal user_id)
  | none =>
    if Text.afterLast '@' (Text.lower (Text.strip email)) = Text.lower (Text.strip company_domain) then
      .error (.value_error "등록되지 않은 사내 주소로는 메일을 보낼 수 없습니다.")
    else .ok .external

/-- `MailDeliveryPolicy.classify`. -/
def classify (company_domain : String) (active_users : String → Option String)
    (recipients : List (Kind × String)) : Except Error (List ((Kind × String) × Place)) :=
  recipients.mapM (fun recipient => do
    return (recipient, ← classifyOne company_domain active_users recipient.2))

end moaworks.mail_policies
