-- The alerts of the operational monitoring: the rules, the events that meet them, and the state
-- file that the instances of the service share.
import MoaWorks.Lib.Floats
import MoaWorks.Lib.Machine
import MoaWorks.Notifications

namespace moaworks.observability

open notification_center (EventEnvelope Json Payload SeverityLevel MonitoringCategory)

/-! ## Numbers -/

def _operator_matches (current threshold : Number) (operator : String) : Bool :=
  match operator with
  | "gt" => threshold.lt current
  | "gte" => threshold.le current
  | "lt" => current.lt threshold
  | "lte" => current.le threshold
  | "eq" => current.eq threshold
  | "neq" => !current.eq threshold
  | _ => false

/-- What `float(x)` gives. -/
inductive Conversion
  | value (x : Number)
  /-- `TypeError` or `ValueError`. -/
  | invalid
  | overflow
  deriving DecidableEq

/-- From here on an integer is too large for a float. -/
def float_limit : Int := 2 ^ 1024 - 2 ^ 970

def floatOfInt (n : Int) : Conversion :=
  if n < float_limit ∧ -float_limit < n then .value (.real (Number.round n)) else .overflow

/-- `parse` is `float` on texts. -/
def float (parse : String → Option Number) : Json → Conversion
  | .number n => floatOfInt n
  | .float x => .value x
  | .bool b => .value (.real (if b then 1 else 0))
  | .text t => ((parse t).map Conversion.value).getD .invalid
  | _ => .invalid

/-- The type of a threshold, `int | float`. -/
inductive Threshold
  | int (n : Int)
  | float (x : Number)
  deriving DecidableEq

def Threshold.toFloat : Threshold → Conversion
  | int n => floatOfInt n
  | float x => .value x

/-! ## The state file -/

inductive AlertStatus
  | OPEN
  | ACKNOWLEDGED
  | RESOLVED
  deriving DecidableEq, Repr

structure MonitoringRule where
  ruleId : String
  metric : String
  operator : String
  threshold : Threshold
  windowSec : Int
  level : String
  targetAudience : String
  notifyChannels : List String
  enabled : Bool
  updatedAt : Time

structure MonitoringAlert where
  alertId : String
  ruleId : String
  metric : String
  category : MonitoringCategory
  severity : String
  status : AlertStatus
  currentValue : Number
  threshold : Number
  windowSec : Int
  detectedAt : Time
  resolvedAt : Option Time
  acknowledgedAt : Option Time
  resourceType : String
  resourceId : String
  message : Json
  requestId : String

structure State where
  rules : List MonitoringRule
  alerts : List MonitoringAlert

def defaultRule (ruleId metric operator : String) (threshold : Int) (windowSec : Int)
    (level : SeverityLevel) (now : Time) : MonitoringRule where
  ruleId := ruleId
  metric := metric
  operator := operator
  threshold := .int threshold
  windowSec := windowSec
  level := level.value
  targetAudience := "admin"
  notifyChannels := ["admin-dashboard"]
  enabled := true
  updatedAt := now

def _default_rules (now : Time) : List MonitoringRule :=
  [defaultRule "rule_approval_stale_count_72h" "approval_stale_count_72h" "gt" 20 (72 * 60 * 60)
      .WARN now,
    defaultRule "rule_mail_relay_fail_count_1h" "mail_relay_fail_count_1h" "gt" 10 (60 * 60)
      .ERROR now,
    defaultRule "rule_disk_usage_percent" "disk_usage_percent" "gt" 85 300 .WARN now,
    defaultRule "rule_mail_inbound_queue_depth" "mail_inbound_queue_depth" "gte" 100 300
      .ERROR now,
    defaultRule "rule_disk_usage_warning_80" "disk_usage_percent" "gte" 80 300 .WARN now,
    defaultRule "rule_disk_usage_critical_90" "disk_usage_percent" "gte" 90 300 .CRITICAL now,
    defaultRule "rule_mail_outbound_queue_depth" "mail_outbound_queue_depth" "gte" 100 300
      .ERROR now,
    defaultRule "rule_oci_delivery_failure_count" "oci_delivery_failure_count" "gte" 1 3600
      .ERROR now,
    defaultRule "rule_database_unavailable" "database_unavailable" "gte" 1 60 .CRITICAL now,
    defaultRule "rule_api_error_rate_percent" "api_error_rate_percent" "gte" 5 300 .ERROR now,
    defaultRule "rule_security_anomaly_count" "security_anomaly_count" "gte" 1 300 .CRITICAL now,
    defaultRule "rule_backup_age_hours" "backup_age_hours" "gte" 26 3600 .ERROR now]

/-- The first rule of each id. -/
def _ensure_unique_rule_ids (rules : List MonitoringRule) : List MonitoringRule :=
  rules.foldl (fun kept rule =>
    if rule.ruleId = "" ∨ rule.ruleId ∈ kept.map MonitoringRule.ruleId then kept
    else kept ++ [rule]) []

/-- A state as `_load_state` reads it from the file. -/
def State.normalized (state : State) (now : Time) : State :=
  let missing := (_default_rules now).filter (fun rule =>
    decide (rule.ruleId ∉ state.rules.map MonitoringRule.ruleId))
  { state with rules := _ensure_unique_rule_ids (state.rules ++ missing) }

/-! ## Alerts -/

/-- What the rules that count look at. -/
structure RecentEvent where
  category : MonitoringCategory
  eventType : String
  occurredAt : Time

/-- What a met rule gives to `_append_or_update_alert`. -/
structure Finding where
  metric : String
  current_value : Number
  threshold : Number
  event : Option EventEnvelope

inductive Verdict
  | unmet
  | met (finding : Finding)
  /-- `float` raises `OverflowError`. -/
  | raises

variable (parse : String → Option Number)

def Payload.get (payload : Payload) (key : String) : Option Json :=
  (payload.find? (fun field => decide (field.1 = key))).map Prod.snd

def metrics (event : EventEnvelope) : List (String × Json) :=
  match Payload.get event.payload "metrics" with
  | some (.object fields) => fields
  | _ => []

def payload_metric (rule : MonitoringRule) (event : EventEnvelope) : Verdict :=
  match Payload.get (metrics event) rule.metric with
  | none => .unmet
  | some raw => match float parse raw, rule.threshold.toFloat with
    | .overflow, _ => .raises
    | .invalid, _ => .unmet
    | .value _, .overflow => .raises
    | .value _, .invalid => .unmet
    | .value current, .value threshold =>
      if _operator_matches current threshold rule.operator then
        .met ⟨rule.metric, current, threshold, some event⟩
      else .unmet

/-- The first and the last moment of the calendar of `datetime`, which begins with the year 1. -/
def datetime_min : Int := -62135596800000000

def datetime_max : Int := 253402300799999999

/-- What `now - timedelta(seconds=windowSec)` gives, or `none` when it raises. -/
def windowStart (rule : MonitoringRule) (now : Time) : Option Int :=
  let start := (now : Int) - rule.windowSec * 1000000
  if datetime_min ≤ start ∧ start ≤ datetime_max then some start else none

def metric_exceeded (rule : MonitoringRule) (metric : String) (recent : List RecentEvent)
    (event_predicate : RecentEvent → Bool) (now : Time) : Verdict :=
  -- The start of the window is computed for each event anew, and so not when there is none.
  if recent ≠ [] ∧ windowStart rule now = none then .raises
  else match rule.threshold.toFloat with
    | .value threshold =>
      let window := recent.filter (fun item =>
        (windowStart rule now).any (fun start => decide (start ≤ item.occurredAt)))
      let current := Number.real (window.countP event_predicate)
      if current.le threshold then .unmet else .met ⟨metric, current, threshold, none⟩
    | _ => .raises

def disk (rule : MonitoringRule) (event : EventEnvelope) : Verdict :=
  match Payload.get event.payload "diskUsagePercent" with
  | none => .unmet
  | some .null => .unmet
  | some raw => match float parse raw, rule.threshold.toFloat with
    | .overflow, _ => .raises
    | .invalid, _ => .unmet
    | .value _, .overflow => .raises
    | .value _, .invalid => .raises
    | .value current, .value threshold =>
      if current.lt threshold then .unmet
      else .met ⟨"disk_usage_percent", current, threshold, some event⟩

def relayFailure (item : RecentEvent) : Bool :=
  decide (item.category = .mail) &&
  (decide ("fail".toList <:+ item.eventType.toList) || decide (item.eventType = "mail.relay.fail"))

/-- What the branch of a rule finds in an event. -/
def verdict (rule : MonitoringRule) (event : EventEnvelope) (recent : List RecentEvent)
    (now : Time) : Verdict :=
  if rule.ruleId = "rule_approval_stale_count_72h" then
    metric_exceeded rule "approval_stale_count_72h" recent
      (fun item => decide (item.category = .approval)) now
  else if rule.ruleId = "rule_mail_relay_fail_count_1h" then
    metric_exceeded rule "mail_relay_fail_count_1h" recent relayFailure now
  else if rule.ruleId = "rule_disk_usage_percent" then disk parse rule event
  else payload_metric parse rule event

def rule_metric_to_category (rule_id : String) : MonitoringCategory :=
  if "mail".toList <:+: rule_id.toList then .mail
  else if "approval".toList <:+: rule_id.toList then .approval
  else .system

def unresolved (rule_id : String) (alert : MonitoringAlert) : Bool :=
  decide (alert.ruleId = rule_id) && decide (alert.status ≠ .RESOLVED)

/-- The first alert for which `p` holds is rewritten. -/
def rewriteFirst (p : MonitoringAlert → Bool) (f : MonitoringAlert → MonitoringAlert) :
    List MonitoringAlert → List MonitoringAlert
  | [] => []
  | alert :: alerts =>
    if p alert then f alert :: alerts else alert :: rewriteFirst p f alerts

/-- The message of an event, where its payload has one. -/
def payloadMessage (finding : Finding) : Option Json :=
  finding.event.bind (fun event => Payload.get event.payload "message")

def knownLevel (level : String) : String :=
  if level ∈ ["INFO", "WARN", "ERROR", "CRITICAL"] then level else SeverityLevel.ERROR.value

def newAlert (rule : MonitoringRule) (finding : Finding) (alertId : String) (message : String)
    (now : Time) : MonitoringAlert where
  alertId := alertId
  ruleId := rule.ruleId
  metric := finding.metric
  category := rule_metric_to_category rule.ruleId
  severity := knownLevel rule.level
  status := .OPEN
  currentValue := finding.current_value
  threshold := finding.threshold
  windowSec := rule.windowSec
  detectedAt := now
  resolvedAt := none
  acknowledgedAt := none
  resourceType := (finding.event.map EventEnvelope.resourceType).getD "system"
  resourceId := (finding.event.map EventEnvelope.resourceId).getD "system_health"
  message := .text message
  requestId := (finding.event.map (fun event => event.details.requestId)).getD "system"

def updatedAlert (rule : MonitoringRule) (finding : Finding) (now : Time)
    (alert : MonitoringAlert) : MonitoringAlert :=
  { alert with
    currentValue := finding.current_value
    threshold := finding.threshold
    windowSec := rule.windowSec
    severity := rule.level
    message := (payloadMessage finding).getD alert.message
    detectedAt := now }

/-- `none` when the model of the alert refuses its message. -/
def _append_or_update_alert (rule : MonitoringRule) (finding : Finding) (alertId : String)
    (now : Time) (alerts : List MonitoringAlert) : Option (List MonitoringAlert) :=
  if alerts.any (unresolved rule.ruleId) then
    some (rewriteFirst (unresolved rule.ruleId) (updatedAlert rule finding now) alerts)
  else match payloadMessage finding with
    | none => some (alerts ++
      [newAlert rule finding alertId ("감시 규칙 " ++ rule.ruleId ++ " 임계치 초과") now])
    | some (.text message) => some (alerts ++ [newAlert rule finding alertId message now])
    | some _ => none

/-- The loop of `_upsert_rules_and_alerts`, with whether it raises on the way. -/
def upsertAll (event : EventEnvelope) (recent : List RecentEvent) (ids : String → String)
    (now : Time) : List MonitoringRule → List MonitoringAlert → List MonitoringAlert × Bool
  | [], alerts => (alerts, false)
  | rule :: rules, alerts =>
    if rule.enabled then
      match verdict parse rule event recent now with
      | .unmet => upsertAll event recent ids now rules alerts
      | .raises => (alerts, true)
      | .met finding =>
        match _append_or_update_alert rule finding (ids rule.ruleId) now alerts with
        | some alerts => upsertAll event recent ids now rules alerts
        | none => (alerts, true)
    else upsertAll event recent ids now rules alerts

/-! ## Operations -/

structure MonitoringRuleUpdate where
  metric : Option String
  operator : Option String
  threshold : Option Threshold
  windowSec : Option Int
  level : Option String
  targetAudience : Option String
  notifyChannels : Option (List String)
  enabled : Option Bool

def MonitoringRuleUpdate.empty (u : MonitoringRuleUpdate) : Bool :=
  u.metric.isNone && u.operator.isNone && u.threshold.isNone && u.windowSec.isNone &&
  u.level.isNone && u.targetAudience.isNone && u.notifyChannels.isNone && u.enabled.isNone

def updatedRule (u : MonitoringRuleUpdate) (now : Time) (rule : MonitoringRule) :
    MonitoringRule where
  ruleId := rule.ruleId
  metric := u.metric.getD rule.metric
  operator := u.operator.getD rule.operator
  threshold := u.threshold.getD rule.threshold
  windowSec := u.windowSec.getD rule.windowSec
  level := u.level.getD rule.level
  targetAudience := u.targetAudience.getD rule.targetAudience
  notifyChannels := u.notifyChannels.getD rule.notifyChannels
  enabled := u.enabled.getD rule.enabled
  updatedAt := now

/-- The first rule of the id is rewritten. -/
def updateRule (rule_id : String) (u : MonitoringRuleUpdate) (now : Time) :
    List MonitoringRule → List MonitoringRule
  | [] => []
  | rule :: rules => if rule.ruleId = rule_id then updatedRule u now rule :: rules
    else rule :: updateRule rule_id u now rules

/-- A state in memory after an operation, and whether it was stored. -/
structure Outcome where
  state : State
  stored : Bool

def update_rule (rule_id : String) (payload : MonitoringRuleUpdate) (now : Time)
    (state : State) : Outcome :=
  if payload.empty = true ∨ rule_id ∉ state.rules.map MonitoringRule.ruleId then ⟨state, false⟩
  else ⟨{ state with rules := updateRule rule_id payload now state.rules }, true⟩

def withStatus (status : AlertStatus) (now : Time) (alert : MonitoringAlert) : MonitoringAlert :=
  if status = .RESOLVED then { alert with status := status, resolvedAt := some now }
  else { alert with status := status, acknowledgedAt := some now }

def _set_alert_status (alert_id : String) (status : AlertStatus) (now : Time) (state : State) :
    Outcome :=
  let named := fun (alert : MonitoringAlert) => decide (alert.alertId = alert_id)
  match state.alerts.find? named with
  | none => ⟨state, false⟩
  | some alert =>
    if alert.status = status then ⟨state, false⟩
    else
      let alerts := rewriteFirst named (withStatus status now) state.alerts
      ⟨{ state with alerts := alerts }, true⟩

inductive Call
  | emit_event (event : EventEnvelope) (recent : List RecentEvent) (ids : String → String)
  | update_rule (rule_id : String) (payload : MonitoringRuleUpdate)
  | ack_alert (alert_id : String)
  | resolve_alert (alert_id : String)

def Call.run (now : Time) : Call → State → Outcome
  | emit_event event recent ids, state =>
    let (alerts, raised) := upsertAll parse event recent ids now state.rules state.alerts
    ⟨{ state with alerts := alerts }, !raised⟩
  | update_rule rule_id payload, state => observability.update_rule rule_id payload now state
  | ack_alert alert_id, state => _set_alert_status alert_id .ACKNOWLEDGED now state
  | resolve_alert alert_id, state => _set_alert_status alert_id .RESOLVED now state

/-! ## The instances -/

/-- The file with its modification time, and what each instance of the service has in memory. -/
structure World where
  file : State
  mtime : Nat
  caches : String → Option (State × Nat)

/-- One call under the lock of the file, with the modification time that a store gets. -/
structure Event where
  instance_ : String
  call : Call
  now : Time
  mtime : Nat

/-- The state that `_load_state` gives an instance. -/
def World.load (w : World) (i : String) (now : Time) : State :=
  match w.caches i with
  | some (state, mtime) => if mtime = w.mtime then state else w.file.normalized now
  | none => w.file.normalized now

/-- The ids that an event draws are new, each for one rule. -/
def Drawn (state : State) : Call → Prop
  | .emit_event _ _ ids => (state.rules.map (fun rule => ids rule.ruleId)).Nodup ∧
    ∀ rule ∈ state.rules, ids rule.ruleId ∉ state.alerts.map MonitoringAlert.alertId
  | _ => True

instance (state : State) : ∀ call : Call, Decidable (Drawn state call)
  | .emit_event _ _ _ => inferInstanceAs (Decidable (_ ∧ _))
  | .update_rule _ _ => .isTrue trivial
  | .ack_alert _ => .isTrue trivial
  | .resolve_alert _ => .isTrue trivial

def step (w : World) (e : Event) : Option World :=
  let state := w.load e.instance_ e.now
  let outcome := e.call.run parse e.now state
  if Drawn state e.call ∧ w.mtime ≤ e.mtime then
    if outcome.stored then some {
      file := outcome.state
      mtime := e.mtime
      caches := fun i => if i = e.instance_ then some (outcome.state, e.mtime) else w.caches i }
    else some { w with
      caches := fun i => if i = e.instance_ then some (outcome.state, w.mtime) else w.caches i }
  else none

/-- A state file without alerts, with any rules, and no instance yet. -/
def Start (w : World) : Prop := w.file.alerts = [] ∧ ∀ i, w.caches i = none

def machine : Machine World Event where
  Start := Start
  step := step parse

end moaworks.observability
