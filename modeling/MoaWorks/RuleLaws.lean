-- The laws of the monitoring rules: an alert is opened or refreshed for what the branch of a rule
-- compares, which for the rules with a branch of their own is not always what the rule says.
import MoaWorks.MonitoringRules

namespace moaworks.observability

open notification_center (EventEnvelope Json Payload)

/-! ## The alerts of one rule -/

def alertsOf (rule_id : String) (alerts : List MonitoringAlert) : List MonitoringAlert :=
  alerts.filter (fun alert => decide (alert.ruleId = rule_id))

theorem alertsOf_cons (rule_id : String) (a : MonitoringAlert) (alerts : List MonitoringAlert) :
    alertsOf rule_id (a :: alerts) =
      if a.ruleId = rule_id then a :: alertsOf rule_id alerts else alertsOf rule_id alerts := by
  unfold alertsOf
  rw [List.filter_cons]
  exact if_congr decide_eq_true_iff rfl rfl

theorem any_unresolved (rule_id : String) (alerts : List MonitoringAlert) :
    alerts.any (unresolved rule_id) =
      (alertsOf rule_id alerts).any (fun alert => decide (alert.status ≠ .RESOLVED)) := by
  unfold alertsOf
  rw [List.any_filter]
  rfl

theorem alertsOf_rewriteFirst {rule_id other : String} (hne : other ≠ rule_id)
    {f : MonitoringAlert → MonitoringAlert} (hf : ∀ a, (f a).ruleId = a.ruleId)
    (alerts : List MonitoringAlert) :
    alertsOf other (rewriteFirst (unresolved rule_id) f alerts) = alertsOf other alerts := by
  induction alerts with
  | nil => rfl
  | cons a alerts ih =>
    unfold rewriteFirst
    split_ifs with hunresolved
    · have hid : a.ruleId = rule_id :=
        of_decide_eq_true (Bool.and_eq_true_iff.1 hunresolved).1
      have hskip : a.ruleId ≠ other := fun heq => hne (heq.symm.trans hid)
      rw [alertsOf_cons, alertsOf_cons, if_neg hskip, if_neg (by rw [hf]; exact hskip)]
    · rw [alertsOf_cons, alertsOf_cons, ih]

/-- An alert that is opened or refreshed is one of its rule. -/
theorem append_or_update_others {rule : MonitoringRule} {finding : Finding} {alertId : String}
    {now : Time} {alerts alerts' : List MonitoringAlert}
    (h : _append_or_update_alert rule finding alertId now alerts = some alerts') {other : String}
    (hne : other ≠ rule.ruleId) : alertsOf other alerts' = alertsOf other alerts := by
  rcases append_or_update h with ⟨_, rfl⟩ | ⟨_, message, rfl⟩
  · exact alertsOf_rewriteFirst (f := updatedAlert rule finding now) hne (fun _ => rfl) alerts
  · have hskip : (newAlert rule finding alertId message now).ruleId ≠ other := hne.symm
    have hnone : alertsOf other [newAlert rule finding alertId message now] = [] := by
      rw [alertsOf_cons, if_neg hskip]
      rfl
    unfold alertsOf at hnone ⊢
    rw [List.filter_append, hnone, List.append_nil]

theorem rewriteFirst_of_any {p : MonitoringAlert → Bool} {f : MonitoringAlert → MonitoringAlert}
    {alerts : List MonitoringAlert} (h : alerts.any p = true) :
    ∃ a, p a = true ∧ f a ∈ rewriteFirst p f alerts := by
  induction alerts with
  | nil => cases h
  | cons a alerts ih =>
    unfold rewriteFirst
    split_ifs with hp
    · exact ⟨a, hp, List.mem_cons_self⟩
    · rw [List.any_cons, Bool.eq_false_of_not_eq_true hp, Bool.false_or] at h
      obtain ⟨b, hb, hmem⟩ := ih h
      exact ⟨b, hb, List.mem_cons_of_mem _ hmem⟩

/-- The alert of the rule is not resolved, and as new as the evaluation. -/
def Fresh (rule_id : String) (now : Time) (alerts : List MonitoringAlert) : Prop :=
  ∃ a ∈ alertsOf rule_id alerts, a.status ≠ .RESOLVED ∧ a.detectedAt = now

theorem append_or_update_fresh {rule : MonitoringRule} {finding : Finding} {alertId : String}
    {now : Time} {alerts alerts' : List MonitoringAlert}
    (h : _append_or_update_alert rule finding alertId now alerts = some alerts') :
    Fresh rule.ruleId now alerts' := by
  rcases append_or_update h with ⟨hany, rfl⟩ | ⟨_, message, rfl⟩
  · obtain ⟨a, ha, hmem⟩ := rewriteFirst_of_any (f := updatedAlert rule finding now) hany
    obtain ⟨hid, hstatus⟩ := Bool.and_eq_true_iff.1 ha
    exact ⟨_, List.mem_filter.2 ⟨hmem, hid⟩, of_decide_eq_true hstatus, rfl⟩
  · refine ⟨newAlert rule finding alertId message now, ?_, ?_, rfl⟩
    · exact List.mem_filter.2 ⟨List.mem_append_right _ List.mem_cons_self, decide_eq_true rfl⟩
    · exact AlertStatus.noConfusion

/-- An alert cannot be opened just when its message is refused. -/
theorem append_or_update_none (rule : MonitoringRule) {event : EventEnvelope} {finding : Finding}
    {b : Branch} (hevent : finding.event = if b.carries then some event else none)
    (alertId : String) (now : Time) (alerts : List MonitoringAlert) :
    _append_or_update_alert rule finding alertId now alerts = none ↔
      (b.carries && refused rule event alerts) = true := by
  unfold _append_or_update_alert refused payloadMessage
  rw [hevent]
  cases alerts.any (unresolved rule.ruleId) with
  | true => simp
  | false => cases b.carries with
    | false => simp
    | true =>
      rw [if_pos rfl, Option.bind_some]
      cases Payload.get event.payload "message" with
      | none => simp
      | some message => cases message <;> simp

/-! ## The loop -/

section Loop

variable {parse : String → Option Number} {event : EventEnvelope} {recent : List RecentEvent}
  {ids : String → String} {now : Time}

theorem upsertAll_cons (rule : MonitoringRule) (rules : List MonitoringRule)
    (alerts : List MonitoringAlert) :
    upsertAll parse event recent ids now (rule :: rules) alerts =
      if rule.enabled then
        match verdict parse rule event recent now with
        | .unmet => upsertAll parse event recent ids now rules alerts
        | .raises => (alerts, true)
        | .met finding =>
          match _append_or_update_alert rule finding (ids rule.ruleId) now alerts with
          | some alerts => upsertAll parse event recent ids now rules alerts
          | none => (alerts, true)
      else upsertAll parse event recent ids now rules alerts := rfl

theorem opened_cons (rule : MonitoringRule) (rules : List MonitoringRule)
    (alerts : List MonitoringAlert) :
    opened parse event recent ids now (rule :: rules) alerts =
      if rule.enabled then
        match verdict parse rule event recent now with
        | .unmet => opened parse event recent ids now rules alerts
        | .raises => []
        | .met finding =>
          match _append_or_update_alert rule finding (ids rule.ruleId) now alerts with
          | some alerts => rule.ruleId :: opened parse event recent ids now rules alerts
          | none => []
      else opened parse event recent ids now rules alerts := rfl

/-- What the loop does at one rule. -/
theorem turn_cases (ids : String → String) (rule : MonitoringRule) (rules : List MonitoringRule)
    (alerts : List MonitoringAlert) :
    ((rule.enabled && stops parse rule event recent now alerts) = false ∧
      (rule.enabled && (branch parse rule event recent now).fires rule.threshold.toFloat) = false ∧
      upsertAll parse event recent ids now (rule :: rules) alerts =
        upsertAll parse event recent ids now rules alerts ∧
      opened parse event recent ids now (rule :: rules) alerts =
        opened parse event recent ids now rules alerts) ∨
    ((rule.enabled && stops parse rule event recent now alerts) = true ∧
      upsertAll parse event recent ids now (rule :: rules) alerts = (alerts, true) ∧
      opened parse event recent ids now (rule :: rules) alerts = []) ∨
    ((rule.enabled && stops parse rule event recent now alerts) = false ∧
      (rule.enabled && (branch parse rule event recent now).fires rule.threshold.toFloat) = true ∧
      ∃ finding alerts',
        _append_or_update_alert rule finding (ids rule.ruleId) now alerts = some alerts' ∧
        upsertAll parse event recent ids now (rule :: rules) alerts =
          upsertAll parse event recent ids now rules alerts' ∧
        opened parse event recent ids now (rule :: rules) alerts =
          rule.ruleId :: opened parse event recent ids now rules alerts') := by
  have hfollows := follows_branch parse rule event recent now
  rw [upsertAll_cons, opened_cons]
  unfold stops
  dsimp only
  cases henabled : rule.enabled with
  | false => exact .inl ⟨rfl, rfl, rfl, rfl⟩
  | true =>
    rw [if_pos rfl, if_pos rfl, Bool.true_and, Bool.true_and]
    cases hverdict : verdict parse rule event recent now with
    | raises =>
      rw [hverdict] at hfollows
      refine .inr (.inl ⟨?_, rfl, rfl⟩)
      rw [hfollows.raises.1 rfl, Bool.true_or]
    | unmet =>
      rw [hverdict] at hfollows
      have hfires : (branch parse rule event recent now).fires rule.threshold.toFloat = false :=
        Bool.eq_false_of_not_eq_true (fun heq => by
          obtain ⟨_, hmet⟩ := hfollows.met.2 heq
          cases hmet)
      have hoverflows :
          (branch parse rule event recent now).overflows rule.threshold.toFloat = false :=
        Bool.eq_false_of_not_eq_true (fun heq => Verdict.noConfusion (hfollows.raises.2 heq))
      refine .inl ⟨?_, hfires, rfl, rfl⟩
      rw [hoverflows, hfires, Bool.false_and, Bool.false_and, Bool.false_or]
    | met finding =>
      rw [hverdict] at hfollows
      have hfires := hfollows.met.1 ⟨finding, rfl⟩
      have hoverflows :
          (branch parse rule event recent now).overflows rule.threshold.toFloat = false :=
        Bool.eq_false_of_not_eq_true (fun heq => Verdict.noConfusion (hfollows.raises.2 heq))
      have hnone := append_or_update_none rule (hfollows.carries finding rfl)
        (ids rule.ruleId) now alerts
      rw [hoverflows, hfires, Bool.false_or, Bool.true_and]
      dsimp only
      cases happend : _append_or_update_alert rule finding (ids rule.ruleId) now alerts with
      | none => exact .inr (.inl ⟨hnone.1 happend, rfl, rfl⟩)
      | some alerts' =>
        refine .inr (.inr ⟨Bool.eq_false_of_not_eq_true (fun heq => ?_), rfl, finding, alerts', happend,
          rfl, rfl⟩)
        rw [hnone.2 heq] at happend
        cases happend

theorem stops_congr {rule : MonitoringRule} {alerts alerts' : List MonitoringAlert}
    (h : alertsOf rule.ruleId alerts' = alertsOf rule.ruleId alerts) :
    stops parse rule event recent now alerts' = stops parse rule event recent now alerts := by
  unfold stops refused
  rw [any_unresolved, h, ← any_unresolved]

theorem mem_of_opened {rules : List MonitoringRule} {alerts : List MonitoringAlert} {id : String}
    (h : id ∈ opened parse event recent ids now rules alerts) :
    id ∈ rules.map MonitoringRule.ruleId := by
  induction rules generalizing alerts with
  | nil => cases h
  | cons rule rules ih =>
    rw [List.map_cons, List.mem_cons]
    rcases turn_cases ids rule rules alerts with ⟨_, _, _, hopened⟩ | ⟨_, _, hopened⟩ |
      ⟨_, _, _, _, _, _, hopened⟩
    · rw [hopened] at h
      exact .inr (ih h)
    · rw [hopened] at h
      cases h
    · rw [hopened] at h
      exact (List.mem_cons.1 h).imp_right ih

/-- What the loop makes of the rules and of their alerts. -/
structure Evaluated (parse : String → Option Number) (event : EventEnvelope)
    (recent : List RecentEvent) (ids : String → String) (now : Time) (rules : List MonitoringRule)
    (alerts : List MonitoringAlert) : Prop where
  raised : (upsertAll parse event recent ids now rules alerts).2 =
    rules.any (fun rule => rule.enabled && stops parse rule event recent now alerts)
  opened : (upsertAll parse event recent ids now rules alerts).2 = false → ∀ rule ∈ rules,
    (rule.ruleId ∈ opened parse event recent ids now rules alerts ↔
      (rule.enabled && (branch parse rule event recent now).fires rule.threshold.toFloat) = true)
  others : ∀ id, id ∉ observability.opened parse event recent ids now rules alerts →
    alertsOf id (upsertAll parse event recent ids now rules alerts).1 = alertsOf id alerts
  fresh : ∀ id ∈ observability.opened parse event recent ids now rules alerts,
    Fresh id now (upsertAll parse event recent ids now rules alerts).1

theorem evaluated {rules : List MonitoringRule}
    (hids : (rules.map MonitoringRule.ruleId).Nodup) (alerts : List MonitoringAlert) :
    Evaluated parse event recent ids now rules alerts := by
  induction rules generalizing alerts with
  | nil =>
    refine ⟨rfl, fun _ rule hrule => ?_, fun _ _ => rfl, fun id hid => ?_⟩
    · cases hrule
    · cases hid
  | cons rule rules ih =>
    rw [List.map_cons, List.nodup_cons] at hids
    have hnew : ∀ alerts, rule.ruleId ∉ opened parse event recent ids now rules alerts :=
      fun alerts hmem => hids.1 (mem_of_opened hmem)
    have hother : ∀ r ∈ rules, r.ruleId ≠ rule.ruleId :=
      fun r hr heq => hids.1 (heq ▸ List.mem_map_of_mem hr)
    rcases turn_cases ids rule rules alerts with ⟨hstops, hfires, hupsert, hopened⟩ |
      ⟨hstops, hupsert, hopened⟩ | ⟨hstops, hfires, finding, alerts', happend, hupsert, hopened⟩
    · have h := ih hids.2 alerts
      refine ⟨?_, fun hok r hr => ?_, ?_, ?_⟩
      · rw [hupsert, h.raised, List.any_cons, hstops, Bool.false_or]
      · rw [hupsert] at hok
        rw [hopened]
        rcases List.mem_cons.1 hr with rfl | hr
        · rw [hfires]
          exact ⟨fun hmem => absurd hmem (hnew alerts), fun heq => Bool.noConfusion heq⟩
        · exact h.opened hok r hr
      · rw [hopened, hupsert]
        exact h.others
      · rw [hopened, hupsert]
        exact h.fresh
    · refine ⟨?_, fun hok => ?_, fun _ _ => ?_, fun id hid => ?_⟩
      · rw [hupsert, List.any_cons, hstops, Bool.true_or]
      · rw [hupsert] at hok
        cases hok
      · rw [hupsert]
      · rw [hopened] at hid
        cases hid
    · have h := ih hids.2 alerts'
      have hsame : ∀ id ≠ rule.ruleId, alertsOf id alerts' = alertsOf id alerts :=
        fun id hne => append_or_update_others happend hne
      refine ⟨?_, fun hok r hr => ?_, fun id hid => ?_, fun id hid => ?_⟩
      · rw [hupsert, h.raised, List.any_cons, hstops, Bool.false_or, Bool.eq_iff_iff,
          List.any_eq_true, List.any_eq_true]
        refine exists_congr (fun r => and_congr_right (fun hr => ?_))
        rw [stops_congr (hsame r.ruleId (hother r hr))]
      · rw [hupsert] at hok
        rw [hopened, List.mem_cons]
        rcases List.mem_cons.1 hr with rfl | hr
        · exact ⟨fun _ => hfires, fun _ => .inl rfl⟩
        · rw [← h.opened hok r hr]
          exact or_iff_right (hother r hr)
      · rw [hopened, List.mem_cons, not_or] at hid
        rw [hupsert, h.others id hid.2, hsame id hid.1]
      · rw [hopened] at hid
        rw [hupsert]
        rcases List.mem_cons.1 hid with rfl | hid
        · unfold Fresh
          rw [h.others _ (hnew alerts')]
          exact append_or_update_fresh happend
        · exact h.fresh id hid

end Loop

/-! ## Where the branches agree with the rules -/

/-- What `not current <= threshold` says of the number that was counted, the operator says of the
number that there is. -/
def exceedingAgrees (operator : String) (counted there threshold : Number) : Bool :=
  match operator with
  | "gt" => threshold.lt counted || there.le threshold
  | "gte" => threshold.lt counted || there.lt threshold
  | "lt" => counted.le threshold && threshold.le there
  | "lte" => counted.le threshold && threshold.lt there
  | "eq" => counted.le threshold && !there.eq threshold
  | "neq" => there.eq threshold || !counted.le threshold
  | _ => counted.le threshold

theorem exceeding_agrees (operator : String) {p q : ℚ} (h : p ≤ q) (threshold : Number) :
    (!(Number.real p).le threshold) = _operator_matches (.real q) threshold operator ↔
      exceedingAgrees operator (.real p) (.real q) threshold = true := by
  unfold _operator_matches exceedingAgrees
  split <;> cases threshold <;>
    simp [Number.le, Number.lt, Number.eq] <;> grind

/-- What `not current < threshold` says of a number, the operator says of it. -/
def reachingAgrees (operator : String) (current threshold : Number) : Bool :=
  match operator with
  | "gt" => current.lt threshold || threshold.lt current
  | "gte" => current.lt threshold || threshold.le current
  | "lt" => false
  | "lte" => current.eq threshold
  | "eq" => current.le threshold
  | "neq" => !current.le threshold
  | _ => current.lt threshold

theorem reaching_agrees (operator : String) (current threshold : Number) :
    (!current.lt threshold) = _operator_matches current threshold operator ↔
      reachingAgrees operator current threshold = true := by
  unfold _operator_matches reachingAgrees
  split <;> cases current <;> cases threshold <;>
    simp [Number.le, Number.lt, Number.eq] <;> grind

section Rules

variable (parse : String → Option Number)

/-- The metric that a branch of its own reads. -/
def ownMetric (rule_id : String) : Option String :=
  if rule_id = "rule_approval_stale_count_72h" then some "approval_stale_count_72h"
  else if rule_id = "rule_mail_relay_fail_count_1h" then some "mail_relay_fail_count_1h"
  else if rule_id = "rule_disk_usage_percent" then some "disk_usage_percent"
  else none

/-- The comparison of the branch of a rule says what the rule says: `x` is the number that the
branch reads. -/
def agrees (rule : MonitoringRule) (event : EventEnvelope) (stored : List RecentEvent)
    (now : Time) (test : Number → Number → Bool) (x threshold : Number) : Bool :=
  match ownMetric rule.ruleId, counting rule.metric with
  | none, none => true
  | some metric, some matching =>
    if rule.metric = metric then
      exceedingAgrees rule.operator x
        (.real (stored.countP (fun item => inWindow rule now item && matching item))) threshold
    else test x threshold == due parse rule event stored now
  | some metric, none =>
    if rule.metric = metric ∧ Payload.get (metrics event) metric = none then
      reachingAgrees rule.operator x threshold
    else test x threshold == due parse rule event stored now
  | none, some _ => test x threshold == due parse rule event stored now

/-- When a rule that is enabled means what it says, among the rules of the state. -/
def honest (rule : MonitoringRule) (event : EventEnvelope) (stored recent : List RecentEvent)
    (now : Time) (state : State) : Bool :=
  if state.rules.any (fun r => r.enabled && stops parse r event recent now state.alerts) then
    !due parse rule event stored now
  else
    let b := branch parse rule event recent now
    match b.current, rule.threshold.toFloat with
    | some (.value x), .value threshold => agrees parse rule event stored now b.test x threshold
    | _, _ => !due parse rule event stored now

variable {parse} {rule : MonitoringRule} {event : EventEnvelope} {stored recent : List RecentEvent}
  {now read : Time}

theorem due_of_value {current threshold : Number}
    (hcurrent : value parse rule event stored now = some current)
    (hthreshold : rule.threshold.toFloat = .value threshold) :
    due parse rule event stored now = _operator_matches current threshold rule.operator := by
  unfold due
  rw [hcurrent, hthreshold]

theorem countP_fetch_le (window_seconds : Nat) (read : Time) (stored : List RecentEvent)
    (p : RecentEvent → Bool) :
    (_fetch_events_for_window window_seconds read stored).countP p ≤ stored.countP p := by
  unfold _fetch_events_for_window
  refine ((List.take_sublist _ _).countP_le).trans ?_
  rw [(List.perm_insertionSort _ _).countP_eq]
  exact List.filter_sublist.countP_le

/-- A rule that counts, with its own metric or another one. -/
theorem counted_agrees {metric : String} {matching : RecentEvent → Bool}
    (hown : ownMetric rule.ruleId = some metric) (hcounting : counting metric = some matching)
    {x threshold : Number}
    (hx : (countedBranch rule (_fetch_events_for_window (72 * 60 * 60) read stored) matching
      now).current = some (.value x))
    (hthreshold : rule.threshold.toFloat = .value threshold) :
    agrees parse rule event stored now (fun current threshold => !current.le threshold) x
        threshold = true ↔
      (!x.le threshold) = due parse rule event stored now := by
  unfold countedBranch at hx
  dsimp only at hx
  obtain rfl : Number.real ((_fetch_events_for_window (72 * 60 * 60) read stored).countP
      (fun item => inWindow rule now item && matching item)) = x := by
    split_ifs at hx
    · cases hx
    · cases hx
      rfl
  unfold agrees
  rw [hown]
  by_cases hmetric : rule.metric = metric
  · have hdue : due parse rule event stored now = _operator_matches
        (.real (stored.countP (fun item => inWindow rule now item && matching item))) threshold
        rule.operator := by
      refine due_of_value ?_ hthreshold
      unfold value
      rw [hmetric, hcounting]
    have hle := countP_fetch_le (72 * 60 * 60) read stored
      (fun item => inWindow rule now item && matching item)
    rw [hmetric, hcounting]
    dsimp only
    rw [if_pos rfl, hdue]
    refine (exceeding_agrees rule.operator ?_ threshold).symm
    exact_mod_cast hle
  · cases counting rule.metric with
    | none =>
      dsimp only
      rw [if_neg (fun h => hmetric h.1), beq_iff_eq]
    | some other =>
      dsimp only
      rw [if_neg hmetric, beq_iff_eq]

theorem agrees_iff {x threshold : Number}
    (hx : (branch parse rule event (_fetch_events_for_window (72 * 60 * 60) read stored)
      now).current = some (.value x))
    (hthreshold : rule.threshold.toFloat = .value threshold) :
    agrees parse rule event stored now
        (branch parse rule event (_fetch_events_for_window (72 * 60 * 60) read stored) now).test x
        threshold = true ↔
      (branch parse rule event (_fetch_events_for_window (72 * 60 * 60) read stored) now).test x
        threshold = due parse rule event stored now := by
  unfold branch at hx ⊢
  split_ifs at hx ⊢ with happroval hmail hdisk
  · exact counted_agrees (by unfold ownMetric; rw [if_pos happroval]) rfl hx hthreshold
  · exact counted_agrees (by unfold ownMetric; rw [if_neg happroval, if_pos hmail]) rfl hx
      hthreshold
  · have hown : ownMetric rule.ruleId = some "disk_usage_percent" := by
      unfold ownMetric
      rw [if_neg happroval, if_neg hmail, if_pos hdisk]
    unfold agrees
    rw [hown]
    cases hcounting : counting rule.metric with
    | some matching =>
      have hother : rule.metric ≠ "disk_usage_percent" := by
        intro heq
        rw [heq] at hcounting
        cases hcounting
      dsimp only
      rw [if_neg hother, beq_iff_eq]
    | none =>
      dsimp only
      by_cases hread : rule.metric = "disk_usage_percent" ∧
          Payload.get (metrics event) "disk_usage_percent" = none
      · have hdue : due parse rule event stored now =
            _operator_matches x threshold rule.operator := by
          refine due_of_value ?_ hthreshold
          unfold diskBranch at hx
          dsimp only at hx
          unfold value reported
          rw [hcounting, hread.1, hread.2]
          dsimp only
          rw [if_pos rfl, hx]
        rw [if_pos hread, hdue]
        exact (reaching_agrees rule.operator x threshold).symm
      · rw [if_neg hread, beq_iff_eq]
  · have hown : ownMetric rule.ruleId = none := by
      unfold ownMetric
      rw [if_neg happroval, if_neg hmail, if_neg hdisk]
    unfold agrees
    rw [hown]
    cases hcounting : counting rule.metric with
    | some matching =>
      dsimp only
      rw [beq_iff_eq]
    | none =>
      have hdue : due parse rule event stored now =
          _operator_matches x threshold rule.operator := by
        refine due_of_value ?_ hthreshold
        unfold payloadBranch at hx
        dsimp only at hx
        obtain ⟨raw, hraw, hfloat⟩ := Option.map_eq_some_iff.1 hx
        unfold value reported
        rw [hcounting, hraw]
        dsimp only [Option.map_some]
        rw [hfloat]
      exact ⟨fun _ => hdue.symm, fun _ => rfl⟩

/-- What a rule says of an event, of the events before it and of the moment, and what happens to
its alerts: the two are the same just when the comparison of its branch agrees with the rule, and
the evaluation of the rules comes to its end. -/
theorem rules_mean_what_they_say_iff (parse : String → Option Number) (event : EventEnvelope)
    (stored : List RecentEvent) (ids : String → String) (read now : Time) (state : State)
    (hids : (state.rules.map MonitoringRule.ruleId).Nodup) (rule : MonitoringRule)
    (hrule : rule ∈ state.rules) :
    let recent := _fetch_events_for_window (72 * 60 * 60) read stored
    let outcome := (Call.emit_event event recent ids).run parse now state
    ((Opens parse event recent ids now state rule ↔
        rule.enabled = true ∧ due parse rule event stored now = true) ↔
      (rule.enabled = true → honest parse rule event stored recent now state = true)) ∧
    (Opens parse event recent ids now state rule → Fresh rule.ruleId now outcome.state.alerts) ∧
    (¬Opens parse event recent ids now state rule → outcome.stored = true →
      alertsOf rule.ruleId outcome.state.alerts = alertsOf rule.ruleId state.alerts) := by
  intro recent outcome
  have h : Evaluated parse event recent ids now state.rules state.alerts :=
    evaluated hids state.alerts
  have hstored : outcome.stored =
      !(upsertAll parse event recent ids now state.rules state.alerts).2 := rfl
  refine ⟨?_, fun hopens => h.fresh _ hopens.2, fun hopens hok => h.others _ (fun hmem =>
    hopens ⟨hok, hmem⟩)⟩
  have hopens : Opens parse event recent ids now state rule ↔
      outcome.stored = true ∧ (rule.enabled &&
        (branch parse rule event recent now).fires rule.threshold.toFloat) = true := by
    refine and_congr_right (fun hok => h.opened ?_ rule hrule)
    rwa [hstored, Bool.not_eq_true'] at hok
  rw [hopens, hstored, h.raised]
  unfold honest
  cases rule.enabled with
  | false => simp
  | true =>
    rw [Bool.true_and]
    cases hstops : state.rules.any (fun r =>
        r.enabled && stops parse r event recent now state.alerts) with
    | true => simp
    | false =>
      unfold Branch.fires
      cases hcurrent : (branch parse rule event recent now).current with
      | none => simp [hcurrent]
      | some c => cases c with
        | invalid => simp [hcurrent]
        | overflow => simp [hcurrent]
        | value x => cases hthreshold : rule.threshold.toFloat with
          | invalid => simp [hcurrent]
          | overflow => simp [hcurrent]
          | value threshold =>
            have hagrees := (agrees_iff hcurrent hthreshold).symm
            rw [Bool.eq_iff_iff] at hagrees
            simpa [hcurrent] using hagrees

end Rules

/-! ## Two events -/

def defaultState : State := ⟨_default_rules 0, []⟩

def diskAt85 : EventEnvelope := { queueDepth with payload := [("diskUsagePercent", .number 85)] }

/-- The rule says that the usage is above 85 percent. -/
theorem a_disk_at_its_threshold_is_reported :
    ∃ rule ∈ defaultState.rules,
      Opens noTexts diskAt85 (_fetch_events_for_window (72 * 60 * 60) 0 []) id 0 defaultState
        rule ∧
      ¬(rule.enabled = true ∧ due noTexts rule diskAt85 [] 0 = true) := by
  refine ⟨defaultRule "rule_disk_usage_percent" "disk_usage_percent" "gt" 85 300 .WARN 0, ?_, ?_, ?_⟩
  · exact List.mem_cons_of_mem _ (List.mem_cons_of_mem _ List.mem_cons_self)
  · exact ⟨by decide +kernel, by decide +kernel⟩
  · decide +kernel

theorem the_queue_is_reported :
    Fresh "rule_mail_inbound_queue_depth" 0 ((Call.emit_event queueDepth
      (_fetch_events_for_window (72 * 60 * 60) 0 []) id).run noTexts 0 defaultState).state.alerts := by
  obtain ⟨hiff, hfresh, _⟩ := rules_mean_what_they_say_iff noTexts queueDepth [] id 0 0 defaultState
    (by decide +kernel)
    (defaultRule "rule_mail_inbound_queue_depth" "mail_inbound_queue_depth" "gte" 100 300 .ERROR 0)
    (List.mem_cons_of_mem _ (List.mem_cons_of_mem _ (List.mem_cons_of_mem _ List.mem_cons_self)))
  exact hfresh ((hiff.2 (fun _ => by decide +kernel)).2 ⟨rfl, by decide +kernel⟩)

end moaworks.observability
