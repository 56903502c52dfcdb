-- What the monitoring rules say of an event and of the events before it, and what the branches of
-- the evaluation read and compare instead.
import Mathlib.Data.List.Sort
import MoaWorks.AlertLaws

namespace moaworks.observability

open notification_center (EventEnvelope Json Payload)

/-! ## What a rule says -/

def inWindow (rule : MonitoringRule) (now : Time) (item : RecentEvent) : Bool :=
  decide ((now : Int) - rule.windowSec * 1000000 ≤ item.occurredAt)

/-- The events that a counting metric counts. -/
def counting (metric : String) : Option (RecentEvent → Bool) :=
  if metric = "approval_stale_count_72h" then some (fun item => decide (item.category = .approval))
  else if metric = "mail_relay_fail_count_1h" then some relayFailure
  else none

/-- A metric as an event reports it; the usage of the disk has a field of its own as well. -/
def reported (metric : String) (event : EventEnvelope) : Option Json :=
  match Payload.get (metrics event) metric with
  | some raw => some raw
  | none =>
    if metric = "disk_usage_percent" then Payload.get event.payload "diskUsagePercent" else none

variable (parse : String → Option Number)

def value (rule : MonitoringRule) (event : EventEnvelope) (stored : List RecentEvent)
    (now : Time) : Option Number :=
  match counting rule.metric with
  | some matching =>
    some (.real (stored.countP (fun item => inWindow rule now item && matching item)))
  | none => match (reported rule.metric event).map (float parse) with
    | some (.value x) => some x
    | _ => none

/-- The rule is met: `stored` are the events of the table. -/
def due (rule : MonitoringRule) (event : EventEnvelope) (stored : List RecentEvent)
    (now : Time) : Bool :=
  match value parse rule event stored now, rule.threshold.toFloat with
  | some current, .value threshold => _operator_matches current threshold rule.operator
  | _, _ => false

/-! ## What the evaluation does -/

def _fetch_events_for_window (window_seconds : Nat) (now : Time) (stored : List RecentEvent) :
    List RecentEvent :=
  ((stored.filter (fun item => decide (now ≤ item.occurredAt + seconds window_seconds))).insertionSort
    (fun a b => b.occurredAt ≤ a.occurredAt)).take 1000

/-- The rules whose alerts the loop opens or refreshes. -/
def opened (event : EventEnvelope) (recent : List RecentEvent) (ids : String → String)
    (now : Time) : List MonitoringRule → List MonitoringAlert → List String
  | [], _ => []
  | rule :: rules, alerts =>
    if rule.enabled then
      match verdict parse rule event recent now with
      | .unmet => opened event recent ids now rules alerts
      | .raises => []
      | .met finding =>
        match _append_or_update_alert rule finding (ids rule.ruleId) now alerts with
        | some alerts => rule.ruleId :: opened event recent ids now rules alerts
        | none => []
    else opened event recent ids now rules alerts

/-- `emit_event` stores an alert of the rule, opened or refreshed. -/
def Opens (event : EventEnvelope) (recent : List RecentEvent) (ids : String → String) (now : Time)
    (state : State) (rule : MonitoringRule) : Prop :=
  ((Call.emit_event event recent ids).run parse now state).stored = true ∧
  rule.ruleId ∈ opened parse event recent ids now state.rules state.alerts

/-- The number that the branch of a rule reads, and the comparison that is written in it. -/
structure Branch where
  current : Option Conversion
  test : Number → Number → Bool
  /-- The alert takes the message of the event. -/
  carries : Bool

def countedBranch (rule : MonitoringRule) (recent : List RecentEvent)
    (event_predicate : RecentEvent → Bool) (now : Time) : Branch where
  current := some (if recent ≠ [] ∧ windowStart rule now = none then .overflow
    else .value (.real (recent.countP (fun item => inWindow rule now item && event_predicate item))))
  test := fun current threshold => !current.le threshold
  carries := false

def diskBranch (event : EventEnvelope) : Branch where
  current := (Payload.get event.payload "diskUsagePercent").map (float parse)
  test := fun current threshold => !current.lt threshold
  carries := true

def payloadBranch (rule : MonitoringRule) (event : EventEnvelope) : Branch where
  current := (Payload.get (metrics event) rule.metric).map (float parse)
  test := fun current threshold => _operator_matches current threshold rule.operator
  carries := true

def branch (rule : MonitoringRule) (event : EventEnvelope) (recent : List RecentEvent)
    (now : Time) : Branch :=
  if rule.ruleId = "rule_approval_stale_count_72h" then
    countedBranch rule recent (fun item => decide (item.category = .approval)) now
  else if rule.ruleId = "rule_mail_relay_fail_count_1h" then
    countedBranch rule recent relayFailure now
  else if rule.ruleId = "rule_disk_usage_percent" then diskBranch parse event
  else payloadBranch parse rule event

def Branch.fires (b : Branch) (threshold : Conversion) : Bool :=
  match b.current, threshold with
  | some (.value x), .value t => b.test x t
  | _, _ => false

/-- A number on the way is too large, or a window begins before the calendar. -/
def Branch.overflows (b : Branch) (threshold : Conversion) : Bool :=
  match b.current, threshold with
  | some .overflow, _ => true
  | some (.value _), .overflow => true
  | _, _ => false

/-- The message of the event is no text, and the rule would take it for a new alert. -/
def refused (rule : MonitoringRule) (event : EventEnvelope) (alerts : List MonitoringAlert) : Bool :=
  !alerts.any (unresolved rule.ruleId) && match Payload.get event.payload "message" with
    | some (.text _) => false
    | some _ => true
    | none => false

/-- The evaluation ends at the rule with an exception. -/
def stops (rule : MonitoringRule) (event : EventEnvelope) (recent : List RecentEvent) (now : Time)
    (alerts : List MonitoringAlert) : Bool :=
  let b := branch parse rule event recent now
  b.overflows rule.threshold.toFloat ||
    b.fires rule.threshold.toFloat && b.carries && refused rule event alerts

/-- A verdict that comes from the comparison of a branch. -/
structure Verdict.Follows (v : Verdict) (b : Branch) (threshold : Conversion)
    (event : EventEnvelope) : Prop where
  raises : v = .raises ↔ b.overflows threshold = true
  met : (∃ finding, v = .met finding) ↔ b.fires threshold = true
  carries : ∀ finding, v = .met finding → finding.event = if b.carries then some event else none

theorem follows_raises {b : Branch} {threshold : Conversion} {event : EventEnvelope}
    (h : b.overflows threshold = true) (hnot : b.fires threshold = false) :
    Verdict.raises.Follows b threshold event where
  raises := ⟨fun _ => h, fun _ => rfl⟩
  met := by
    rw [hnot]
    exact ⟨fun ⟨_, heq⟩ => Verdict.noConfusion heq, fun heq => Bool.noConfusion heq⟩
  carries := fun _ heq => Verdict.noConfusion heq

theorem follows_unmet {b : Branch} {threshold : Conversion} {event : EventEnvelope}
    (h : b.overflows threshold = false) (hnot : b.fires threshold = false) :
    Verdict.unmet.Follows b threshold event where
  raises := by
    rw [h]
    exact ⟨fun heq => Verdict.noConfusion heq, fun heq => Bool.noConfusion heq⟩
  met := by
    rw [hnot]
    exact ⟨fun ⟨_, heq⟩ => Verdict.noConfusion heq, fun heq => Bool.noConfusion heq⟩
  carries := fun _ heq => Verdict.noConfusion heq

theorem follows_met {b : Branch} {threshold : Conversion} {event : EventEnvelope}
    (h : b.overflows threshold = false) (hfires : b.fires threshold = true) {finding : Finding}
    (hevent : finding.event = if b.carries then some event else none) :
    (Verdict.met finding).Follows b threshold event where
  raises := by
    rw [h]
    exact ⟨fun heq => Verdict.noConfusion heq, fun heq => Bool.noConfusion heq⟩
  met := ⟨fun _ => hfires, fun _ => ⟨finding, rfl⟩⟩
  carries := by
    intro finding' heq
    cases heq
    exact hevent

/-- The comparison of a number that was read with the threshold. -/
theorem follows_compare {test : Number → Number → Bool} {carries : Bool} {c : Conversion}
    {threshold : Conversion} (hthreshold : threshold ≠ .invalid) {event : EventEnvelope}
    {v : Verdict} (hoverflow : c = .overflow ∨ (∃ x, c = .value x) ∧ threshold = .overflow →
      v = .raises)
    (hinvalid : c = .invalid → v = .unmet)
    (hmet : ∀ x t, c = .value x → threshold = .value t → test x t = true →
      ∃ finding, v = .met finding ∧ finding.event = if carries then some event else none)
    (hunmet : ∀ x t, c = .value x → threshold = .value t → test x t = false → v = .unmet) :
    v.Follows ⟨some c, test, carries⟩ threshold event := by
  cases c with
  | overflow =>
    rw [hoverflow (.inl rfl)]
    exact follows_raises rfl rfl
  | invalid =>
    rw [hinvalid rfl]
    exact follows_unmet rfl rfl
  | value x => cases threshold with
    | invalid => exact absurd rfl hthreshold
    | overflow =>
      rw [hoverflow (.inr ⟨⟨x, rfl⟩, rfl⟩)]
      exact follows_raises rfl rfl
    | value t => cases htest : test x t with
      | true =>
        obtain ⟨finding, rfl, hevent⟩ := hmet x t rfl rfl htest
        have hfires : Branch.fires ⟨some (.value x), test, carries⟩ (.value t) = true := htest
        exact follows_met rfl hfires hevent
      | false =>
        rw [hunmet x t rfl rfl htest]
        exact follows_unmet rfl htest

theorem windowStart_any {rule : MonitoringRule} {now : Time} (h : windowStart rule now ≠ none)
    (item : RecentEvent) : (windowStart rule now).any (fun (start : Int) =>
      decide (start ≤ item.occurredAt)) = inWindow rule now item := by
  unfold windowStart at h ⊢
  dsimp only at h ⊢
  split_ifs at h ⊢
  · rfl
  · exact absurd rfl h

theorem follows_counted (rule : MonitoringRule) (metric : String) (recent : List RecentEvent)
    (event_predicate : RecentEvent → Bool) (now : Time) (event : EventEnvelope) :
    (metric_exceeded rule metric recent event_predicate now).Follows
      (countedBranch rule recent event_predicate now) rule.threshold.toFloat event := by
  have hthreshold := toFloat_ne_invalid rule.threshold
  unfold metric_exceeded countedBranch
  by_cases hout : recent ≠ [] ∧ windowStart rule now = none
  · rw [if_pos hout, if_pos hout]
    exact follows_compare hthreshold (fun _ => rfl) (fun heq => Conversion.noConfusion heq)
      (fun _ _ heq => Conversion.noConfusion heq) (fun _ _ heq => Conversion.noConfusion heq)
  · rw [if_neg hout, if_neg hout]
    have hcount : (recent.filter (fun item => (windowStart rule now).any
        (fun (start : Int) => decide (start ≤ item.occurredAt)))).countP event_predicate =
          recent.countP (fun item => inWindow rule now item && event_predicate item) := by
      rw [List.countP_filter]
      refine List.countP_congr (fun item hitem => ?_)
      rw [windowStart_any (fun hnone => hout ⟨List.ne_nil_of_mem hitem, hnone⟩), Bool.and_comm]
    refine follows_compare hthreshold (fun h => ?_) (fun heq => Conversion.noConfusion heq)
      (fun x t hx ht htest => ?_) (fun x t hx ht htest => ?_)
    · rcases h with heq | ⟨_, heq⟩
      · cases heq
      · rw [heq]
    · cases hx
      rw [ht]
      dsimp only
      rw [hcount, if_neg (by simpa using htest)]
      exact ⟨_, rfl, rfl⟩
    · cases hx
      rw [ht]
      dsimp only
      rw [hcount, if_pos (by simpa using htest)]

theorem follows_disk (rule : MonitoringRule) (event : EventEnvelope) :
    (disk parse rule event).Follows (diskBranch parse event) rule.threshold.toFloat event := by
  have hthreshold := toFloat_ne_invalid rule.threshold
  unfold disk diskBranch
  cases hraw : Payload.get event.payload "diskUsagePercent" with
  | none => exact follows_unmet rfl rfl
  | some raw =>
    dsimp only [Option.map_some]
    cases raw with
    | null => exact follows_unmet rfl rfl
    | _ =>
      refine follows_compare hthreshold (fun h => ?_) (fun heq => ?_) (fun x t hx ht htest => ?_)
        (fun x t hx ht htest => ?_)
      · dsimp only
        rcases h with heq | ⟨⟨x, hx⟩, heq⟩
        · rw [heq]
        · rw [hx, heq]
      · dsimp only
        rw [heq]
      · dsimp only
        rw [hx, ht]
        dsimp only
        rw [if_neg (by simpa using htest)]
        exact ⟨_, rfl, rfl⟩
      · dsimp only
        rw [hx, ht]
        dsimp only
        rw [if_pos (by simpa using htest)]

theorem follows_payload (rule : MonitoringRule) (event : EventEnvelope) :
    (payload_metric parse rule event).Follows (payloadBranch parse rule event)
      rule.threshold.toFloat event := by
  have hthreshold := toFloat_ne_invalid rule.threshold
  unfold payload_metric payloadBranch
  cases Payload.get (metrics event) rule.metric with
  | none => exact follows_unmet rfl rfl
  | some raw =>
    dsimp only [Option.map_some]
    refine follows_compare hthreshold (fun h => ?_) (fun heq => ?_) (fun x t hx ht htest => ?_)
      (fun x t hx ht htest => ?_)
    · rcases h with heq | ⟨⟨x, hx⟩, heq⟩
      · rw [heq]
      · rw [hx, heq]
    · rw [heq]
    · rw [hx, ht]
      dsimp only
      rw [if_pos htest]
      exact ⟨_, rfl, rfl⟩
    · rw [hx, ht]
      dsimp only
      rw [if_neg (by rw [htest]; decide)]

theorem follows_branch (rule : MonitoringRule) (event : EventEnvelope) (recent : List RecentEvent)
    (now : Time) : (verdict parse rule event recent now).Follows
      (branch parse rule event recent now) rule.threshold.toFloat event := by
  unfold verdict branch
  split_ifs
  · exact follows_counted rule _ recent _ now event
  · exact follows_counted rule _ recent _ now event
  · exact follows_disk parse rule event
  · exact follows_payload parse rule event

end moaworks.observability
