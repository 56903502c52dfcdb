-- The lifecycle of the alerts: at most one alert of a rule is not resolved, what is resolved stays
-- as it is, and a rule that is met again gets a new alert.
import MoaWorks.MonitoringAlerts

namespace moaworks.observability

open notification_center (EventEnvelope Json Payload)

variable {parse : String → Option Number}
variable {p : MonitoringAlert → Bool} {f : MonitoringAlert → MonitoringAlert}
  {alerts : List MonitoringAlert} {a : MonitoringAlert} {rule : MonitoringRule} {finding : Finding}
  {now : Time} {rules : List MonitoringRule} {event : EventEnvelope} {w : World}

/-! ## Lists in which one alert is rewritten -/

theorem map_rewriteFirst {β : Type} {g : MonitoringAlert → β} (h : ∀ a, g (f a) = g a)
    (alerts : List MonitoringAlert) : (rewriteFirst p f alerts).map g = alerts.map g := by
  induction alerts with
  | nil => rfl
  | cons alert alerts ih =>
    unfold rewriteFirst
    split_ifs with hp
    · rw [List.map_cons, List.map_cons, h]
    · rw [List.map_cons, List.map_cons, ih]

theorem mem_rewriteFirst_of_not (ha : a ∈ alerts) (hp : p a = false) :
    a ∈ rewriteFirst p f alerts := by
  induction alerts with
  | nil => exact ha
  | cons alert alerts ih =>
    unfold rewriteFirst
    split_ifs with halert
    · rcases List.mem_cons.1 ha with rfl | ha
      · rw [hp] at halert
        cases halert
      · exact List.mem_cons_of_mem _ ha
    · rcases List.mem_cons.1 ha with rfl | ha
      · exact List.mem_cons_self
      · exact List.mem_cons_of_mem _ (ih ha)

theorem mem_rewriteFirst (ha : a ∈ alerts) :
    a ∈ rewriteFirst p f alerts ∨ f a ∈ rewriteFirst p f alerts := by
  induction alerts with
  | nil => exact .inl ha
  | cons alert alerts ih =>
    unfold rewriteFirst
    split_ifs with halert
    · rcases List.mem_cons.1 ha with rfl | ha
      · exact .inr List.mem_cons_self
      · exact .inl (List.mem_cons_of_mem _ ha)
    · rcases List.mem_cons.1 ha with rfl | ha
      · exact .inl List.mem_cons_self
      · exact (ih ha).imp (List.mem_cons_of_mem _) (List.mem_cons_of_mem _)

theorem of_mem_rewriteFirst (ha : a ∈ rewriteFirst p f alerts) : ∃ b ∈ alerts, a = b ∨ a = f b := by
  induction alerts with
  | nil => exact absurd ha List.not_mem_nil
  | cons alert alerts ih =>
    unfold rewriteFirst at ha
    split_ifs at ha with hp
    · rcases List.mem_cons.1 ha with rfl | ha
      · exact ⟨alert, List.mem_cons_self, .inr rfl⟩
      · exact ⟨a, List.mem_cons_of_mem _ ha, .inl rfl⟩
    · rcases List.mem_cons.1 ha with rfl | ha
      · exact ⟨a, List.mem_cons_self, .inl rfl⟩
      · obtain ⟨b, hb, hab⟩ := ih ha
        exact ⟨b, List.mem_cons_of_mem _ hb, hab⟩

theorem countP_rewriteFirst_le {q : MonitoringAlert → Bool}
    (h : ∀ a ∈ alerts, p a = true → q (f a) = true → q a = true) :
    (rewriteFirst p f alerts).countP q ≤ alerts.countP q := by
  induction alerts with
  | nil => exact Nat.le_refl _
  | cons alert alerts ih =>
    unfold rewriteFirst
    rw [List.countP_cons]
    split_ifs with hp hq hq
    · rw [List.countP_cons]
      split_ifs
      · exact Nat.le_refl _
      · exact Nat.le_succ _
    · rw [List.countP_cons]
      split_ifs with hfq
      · exact absurd (h alert List.mem_cons_self hp hfq) hq
      · exact Nat.le_refl _
    · rw [List.countP_cons, if_pos hq]
      exact Nat.succ_le_succ (ih (fun a ha => h a (List.mem_cons_of_mem _ ha)))
    · rw [List.countP_cons, if_neg hq]
      exact ih (fun a ha => h a (List.mem_cons_of_mem _ ha))

/-! ## The laws of one list of alerts -/

structure Lifecycle (alerts : List MonitoringAlert) : Prop where
  ids : (alerts.map MonitoringAlert.alertId).Nodup
  single : ∀ rule_id, alerts.countP (unresolved rule_id) ≤ 1

/-- What is resolved stays as it is. -/
def KeepsResolved (alerts alerts' : List MonitoringAlert) : Prop :=
  ∀ a ∈ alerts, a.status = .RESOLVED → a ∈ alerts'

/-- Each alert stays, with its id, its rule and its status. -/
def KeepsStatus (alerts alerts' : List MonitoringAlert) : Prop :=
  ∀ a ∈ alerts, ∃ a' ∈ alerts', a'.alertId = a.alertId ∧ a'.ruleId = a.ruleId ∧
    a'.status = a.status

theorem KeepsStatus.trans {l l' l'' : List MonitoringAlert} (h : KeepsStatus l l')
    (h' : KeepsStatus l' l'') : KeepsStatus l l'' := by
  intro a ha
  obtain ⟨a', ha', hid, hrule, hstatus⟩ := h a ha
  obtain ⟨a'', ha'', hid', hrule', hstatus'⟩ := h' a' ha'
  exact ⟨a'', ha'', hid'.trans hid, hrule'.trans hrule, hstatus'.trans hstatus⟩

theorem not_unresolved {rule_id : String} (h : a.status = .RESOLVED) :
    unresolved rule_id a = false := by
  unfold unresolved
  rw [h]
  exact Bool.and_false _

/-- What a met rule does: it opens an alert, or the one that is there goes on. -/
theorem append_or_update {alertId : String} {alerts' : List MonitoringAlert}
    (h : _append_or_update_alert rule finding alertId now alerts = some alerts') :
    (alerts.any (unresolved rule.ruleId) = true ∧
      alerts' = rewriteFirst (unresolved rule.ruleId) (updatedAlert rule finding now) alerts) ∨
    (alerts.any (unresolved rule.ruleId) = false ∧
      ∃ message, alerts' = alerts ++ [newAlert rule finding alertId message now]) := by
  unfold _append_or_update_alert at h
  split_ifs at h with hany
  · exact .inl ⟨hany, (Option.some.inj h).symm⟩
  · refine .inr ⟨Bool.eq_false_of_not_eq_true hany, ?_⟩
    split at h
    · exact ⟨_, (Option.some.inj h).symm⟩
    · exact ⟨_, (Option.some.inj h).symm⟩
    · cases h

theorem Lifecycle.append_or_update {alertId : String} {alerts' : List MonitoringAlert}
    (hl : Lifecycle alerts) (hnew : alertId ∉ alerts.map MonitoringAlert.alertId)
    (h : _append_or_update_alert rule finding alertId now alerts = some alerts') :
    Lifecycle alerts' ∧ KeepsResolved alerts alerts' ∧ KeepsStatus alerts alerts' ∧
      ∀ id ∈ alerts'.map MonitoringAlert.alertId,
        id ∈ alerts.map MonitoringAlert.alertId ∨ id = alertId := by
  rcases observability.append_or_update h with ⟨_, rfl⟩ | ⟨hnone, message, rfl⟩
  · have hids : (rewriteFirst (unresolved rule.ruleId) (updatedAlert rule finding now)
        alerts).map MonitoringAlert.alertId = alerts.map MonitoringAlert.alertId :=
      map_rewriteFirst (f := updatedAlert rule finding now) (fun _ => rfl) alerts
    refine ⟨⟨hids ▸ hl.ids, fun rule_id => ?_⟩, fun a ha hresolved => ?_, fun a ha => ?_,
      fun id hid => .inl (hids ▸ hid)⟩
    · refine (countP_rewriteFirst_le (fun a _ _ hq => ?_)).trans (hl.single rule_id)
      exact hq
    · exact mem_rewriteFirst_of_not ha (not_unresolved hresolved)
    · rcases mem_rewriteFirst (p := unresolved rule.ruleId) (f := updatedAlert rule finding now) ha
        with hsame | hupdated
      · exact ⟨a, hsame, rfl, rfl, rfl⟩
      · exact ⟨_, hupdated, rfl, rfl, rfl⟩
  · refine ⟨⟨?_, fun rule_id => ?_⟩, fun a ha _ => List.mem_append_left _ ha,
      fun a ha => ⟨a, List.mem_append_left _ ha, rfl, rfl, rfl⟩, fun id hid => ?_⟩
    · rw [List.map_append, List.nodup_append]
      refine ⟨hl.ids, List.nodup_singleton _, fun id hid id' hid' heq => ?_⟩
      obtain rfl : id' = alertId := List.mem_singleton.1 hid'
      exact hnew (heq ▸ hid)
    · rw [List.countP_append]
      by_cases hrule : rule.ruleId = rule_id
      · subst hrule
        have hzero : alerts.countP (unresolved rule.ruleId) = 0 := by
          rw [List.countP_eq_zero]
          intro a ha hunresolved
          rw [List.any_eq_false] at hnone
          exact hnone a ha hunresolved
        rw [hzero, Nat.zero_add]
        exact List.countP_le_length
      · have hother : [newAlert rule finding alertId message now].countP (unresolved rule_id) =
            0 := by
          rw [List.countP_eq_zero]
          intro a ha hunresolved
          rw [List.mem_singleton.1 ha] at hunresolved
          unfold unresolved at hunresolved
          exact hrule (of_decide_eq_true (Bool.and_eq_true_iff.1 hunresolved).1)
        rw [hother]
        exact hl.single rule_id
    · rw [List.map_append] at hid
      rcases List.mem_append.1 hid with hbefore | hlast
      · exact .inl hbefore
      · exact .inr (List.mem_singleton.1 hlast)

/-- The loop over the rules keeps the laws. -/
theorem Lifecycle.upsertAll {ids : String → String} (hl : Lifecycle alerts)
    (parse : String → Option Number) (event : EventEnvelope) (recent : List RecentEvent)
    (now : Time) (hnodup : (rules.map (fun rule => ids rule.ruleId)).Nodup)
    (hnew : ∀ rule ∈ rules, ids rule.ruleId ∉ alerts.map MonitoringAlert.alertId) :
    Lifecycle (upsertAll parse event recent ids now rules alerts).1 ∧
    KeepsResolved alerts (upsertAll parse event recent ids now rules alerts).1 ∧
    KeepsStatus alerts (upsertAll parse event recent ids now rules alerts).1 := by
  induction rules generalizing alerts with
  | nil => exact ⟨hl, fun a ha _ => ha, fun a ha => ⟨a, ha, rfl, rfl, rfl⟩⟩
  | cons rule rules ih =>
    rw [List.map_cons, List.nodup_cons] at hnodup
    have hskip := ih hl hnodup.2 (fun r hr => hnew r (List.mem_cons_of_mem _ hr))
    unfold observability.upsertAll
    split_ifs with henabled
    · cases hverdict : verdict parse rule event recent now with
      | unmet => exact hskip
      | raises => exact ⟨hl, fun a ha _ => ha, fun a ha => ⟨a, ha, rfl, rfl, rfl⟩⟩
      | met finding =>
        dsimp only
        cases happend : _append_or_update_alert rule finding (ids rule.ruleId) now alerts with
        | none => exact ⟨hl, fun a ha _ => ha, fun a ha => ⟨a, ha, rfl, rfl, rfl⟩⟩
        | some alerts' =>
          obtain ⟨hl', hresolved, hstatus, hids⟩ :=
            hl.append_or_update (hnew rule List.mem_cons_self) happend
          have hnew' : ∀ r ∈ rules, ids r.ruleId ∉ alerts'.map MonitoringAlert.alertId := by
            intro r hr hmem
            rcases hids _ hmem with hbefore | heq
            · exact hnew r (List.mem_cons_of_mem _ hr) hbefore
            · exact hnodup.1 (heq ▸ List.mem_map_of_mem hr)
          obtain ⟨hl'', hresolved', hstatus'⟩ := ih hl' hnodup.2 hnew'
          dsimp only
          exact ⟨hl'', fun a ha h => hresolved' a (hresolved a ha h) h, hstatus.trans hstatus'⟩
    · exact hskip

/-- No number on the way is too large for a float, no window begins before the calendar, and a
message in the payload is a text. -/
structure Regular (parse : String → Option Number) (now : Time) (rules : List MonitoringRule)
    (event : EventEnvelope) : Prop where
  message : ∀ m, Payload.get event.payload "message" = some m → ∃ t, m = .text t
  windows : ∀ rule ∈ rules, windowStart rule now ≠ none
  thresholds : ∀ rule ∈ rules, rule.threshold.toFloat ≠ .overflow
  metrics : ∀ field ∈ metrics event, float parse field.2 ≠ .overflow
  disk : ∀ raw, Payload.get event.payload "diskUsagePercent" = some raw →
    float parse raw ≠ .overflow

theorem toFloat_ne_invalid (t : Threshold) : t.toFloat ≠ .invalid := by
  cases t with
  | int n =>
    unfold Threshold.toFloat floatOfInt
    dsimp only
    split_ifs
    · exact fun heq => Conversion.noConfusion heq
    · exact fun heq => Conversion.noConfusion heq
  | float x => exact fun heq => Conversion.noConfusion heq

theorem get_mem {payload : Payload} {key : String} {value : Json}
    (h : Payload.get payload key = some value) : (key, value) ∈ payload := by
  unfold Payload.get at h
  obtain ⟨⟨k, v⟩, hfind, rfl⟩ := Option.map_eq_some_iff.1 h
  obtain rfl : k = key := by simpa using List.find?_some hfind
  exact List.mem_of_find?_eq_some hfind

theorem verdict_ne_raises (h : Regular parse now rules event) (hrule : rule ∈ rules)
    (recent : List RecentEvent) : verdict parse rule event recent now ≠ .raises := by
  have hthreshold := h.thresholds rule hrule
  have hcount : ∀ (metric : String) (p : RecentEvent → Bool),
      metric_exceeded rule metric recent p now ≠ .raises := by
    intro metric p
    unfold metric_exceeded
    rw [if_neg (fun hout => h.windows rule hrule hout.2)]
    cases htf : rule.threshold.toFloat with
    | value threshold =>
      dsimp only
      split_ifs
      · exact fun heq => Verdict.noConfusion heq
      · exact fun heq => Verdict.noConfusion heq
    | invalid => exact absurd htf (toFloat_ne_invalid _)
    | overflow => exact absurd htf hthreshold
  unfold verdict
  split_ifs
  · exact hcount _ _
  · exact hcount _ _
  · unfold disk
    split
    · exact fun heq => Verdict.noConfusion heq
    · exact fun heq => Verdict.noConfusion heq
    · rename_i raw _ hraw
      have hraw' := h.disk raw hraw
      split
      · exact absurd (by assumption) hraw'
      · exact fun heq => Verdict.noConfusion heq
      · exact absurd (by assumption) hthreshold
      · exact absurd (by assumption) (toFloat_ne_invalid _)
      · split_ifs
        · exact fun heq => Verdict.noConfusion heq
        · exact fun heq => Verdict.noConfusion heq
  · unfold payload_metric
    split
    · exact fun heq => Verdict.noConfusion heq
    · rename_i raw hraw
      have hraw' := h.metrics _ (get_mem hraw)
      split
      · exact absurd (by assumption) hraw'
      · exact fun heq => Verdict.noConfusion heq
      · exact absurd (by assumption) hthreshold
      · exact fun heq => Verdict.noConfusion heq
      · split_ifs
        · exact fun heq => Verdict.noConfusion heq
        · exact fun heq => Verdict.noConfusion heq

/-- The event of a finding is the one that was looked at. -/
theorem verdict_event {recent : List RecentEvent}
    (h : verdict parse rule event recent now = .met finding) :
    finding.event = none ∨ finding.event = some event := by
  have hcount : ∀ (metric : String) (p : RecentEvent → Bool),
      metric_exceeded rule metric recent p now = .met finding → finding.event = none := by
    intro metric p hmet
    unfold metric_exceeded at hmet
    split_ifs at hmet
    split at hmet
    · dsimp only at hmet
      split_ifs at hmet
      cases hmet
      rfl
    · cases hmet
  unfold verdict at h
  split_ifs at h
  · exact .inl (hcount _ _ h)
  · exact .inl (hcount _ _ h)
  · refine .inr ?_
    unfold disk at h
    split at h
    · cases h
    · cases h
    · split at h
      · cases h
      · cases h
      · cases h
      · cases h
      · split_ifs at h
        cases h
        rfl
  · refine .inr ?_
    unfold payload_metric at h
    split at h
    · cases h
    · split at h
      · cases h
      · cases h
      · cases h
      · cases h
      · split_ifs at h
        cases h
        rfl

theorem append_or_update_isSome (h : Regular parse now rules event) {recent : List RecentEvent}
    (hmet : verdict parse rule event recent now = .met finding) (alertId : String)
    (alerts : List MonitoringAlert) :
    ∃ alerts', _append_or_update_alert rule finding alertId now alerts = some alerts' := by
  have hmessage : ∀ m, payloadMessage finding = some m → ∃ t, m = .text t := by
    intro m hm
    unfold payloadMessage at hm
    rcases verdict_event hmet with hnone | hevent
    · rw [hnone] at hm
      cases hm
    · rw [hevent, Option.bind_some] at hm
      exact h.message m hm
  unfold _append_or_update_alert
  split_ifs
  · exact ⟨_, rfl⟩
  · cases hp : payloadMessage finding with
    | none => exact ⟨_, rfl⟩
    | some m =>
      obtain ⟨t, rfl⟩ := hmessage m hp
      exact ⟨_, rfl⟩

theorem upsertAll_not_raised (h : Regular parse now rules event) (recent : List RecentEvent)
    (ids : String → String) (alerts : List MonitoringAlert) :
    (upsertAll parse event recent ids now rules alerts).2 = false := by
  have hall : ∀ (l : List MonitoringRule), (∀ rule ∈ l, rule ∈ rules) →
      ∀ alerts, (upsertAll parse event recent ids now l alerts).2 = false := by
    intro l hl
    induction l with
    | nil => exact fun _ => rfl
    | cons rule l ih =>
      intro alerts
      have hrest := ih (fun r hr => hl r (List.mem_cons_of_mem _ hr))
      unfold upsertAll
      split_ifs
      · cases hverdict : verdict parse rule event recent now with
        | unmet => exact hrest alerts
        | raises =>
          exact absurd hverdict (verdict_ne_raises h (hl rule List.mem_cons_self) recent)
        | met finding =>
          obtain ⟨alerts', happend⟩ := append_or_update_isSome h hverdict (ids rule.ruleId) alerts
          dsimp only
          rw [happend]
          exact hrest alerts'
      · exact hrest alerts
  exact hall rules (fun _ hr => hr) alerts

/-- A rule that is met while all its alerts are resolved gets a new one. -/
theorem upsertAll_opens {recent : List RecentEvent} {ids : String → String} (hl : Lifecycle alerts)
    (hnodup : (rules.map (fun rule => ids rule.ruleId)).Nodup)
    (hnew : ∀ rule ∈ rules, ids rule.ruleId ∉ alerts.map MonitoringAlert.alertId)
    (hok : (upsertAll parse event recent ids now rules alerts).2 = false) (hrule : rule ∈ rules)
    (henabled : rule.enabled = true) (hmet : verdict parse rule event recent now = .met finding)
    (hresolved : alerts.any (unresolved rule.ruleId) = false) :
    ∃ a ∈ (upsertAll parse event recent ids now rules alerts).1, a.ruleId = rule.ruleId ∧
      a.status = .OPEN ∧ a.alertId = ids rule.ruleId := by
  induction rules generalizing alerts with
  | nil => exact absurd hrule List.not_mem_nil
  | cons r rules ih =>
    rw [List.map_cons, List.nodup_cons] at hnodup
    have hrest := fun r' (hr' : r' ∈ rules) => hnew r' (List.mem_cons_of_mem _ hr')
    -- Ids are drawn for each rule of the list, so a rule comes in it once.
    have htail : rule ≠ r → rule ∈ rules ∧ r.ruleId ≠ rule.ruleId := by
      intro hne
      have hmem := (List.mem_cons.1 hrule).resolve_left hne
      exact ⟨hmem, fun heq => hnodup.1 (heq ▸ List.mem_map_of_mem hmem)⟩
    unfold upsertAll at hok ⊢
    by_cases hhead : rule = r
    · subst hhead
      rw [if_pos henabled, hmet] at hok ⊢
      dsimp only at hok ⊢
      cases happend : _append_or_update_alert rule finding (ids rule.ruleId) now alerts with
      | none =>
        rw [happend] at hok
        cases hok
      | some alerts' =>
        obtain ⟨hl', _, _, hids⟩ := hl.append_or_update (hnew rule List.mem_cons_self) happend
        have hnew' : ∀ r ∈ rules, ids r.ruleId ∉ alerts'.map MonitoringAlert.alertId := by
          intro r hr hmem
          rcases hids _ hmem with hbefore | heq
          · exact hrest r hr hbefore
          · exact hnodup.1 (heq ▸ List.mem_map_of_mem hr)
        rcases append_or_update happend with ⟨hany, _⟩ | ⟨_, message, rfl⟩
        · rw [hresolved] at hany
          cases hany
        · obtain ⟨_, _, hstatus⟩ := hl'.upsertAll parse event recent now
            hnodup.2 hnew'
          obtain ⟨a, ha, hid, hruleId, hopen⟩ := hstatus _
            (List.mem_append_right _ List.mem_cons_self)
          exact ⟨a, ha, hruleId, hopen, hid⟩
    · obtain ⟨hmem, hne⟩ := htail hhead
      split_ifs at hok ⊢ with hr
      · cases hverdict : verdict parse r event recent now with
        | unmet =>
          rw [hverdict] at hok
          exact ih hl hnodup.2 hrest hok hmem hresolved
        | raises =>
          rw [hverdict] at hok
          cases hok
        | met other =>
          rw [hverdict] at hok
          dsimp only at hok ⊢
          cases happend : _append_or_update_alert r other (ids r.ruleId) now alerts with
          | none =>
            rw [happend] at hok
            cases hok
          | some alerts' =>
            rw [happend] at hok
            obtain ⟨hl', _, _, hids⟩ := hl.append_or_update (hnew r List.mem_cons_self) happend
            have hnew' : ∀ r ∈ rules, ids r.ruleId ∉ alerts'.map MonitoringAlert.alertId := by
              intro r' hr' hmem'
              rcases hids _ hmem' with hbefore | heq
              · exact hrest r' hr' hbefore
              · exact hnodup.1 (heq ▸ List.mem_map_of_mem hr')
            refine ih hl' hnodup.2 hnew' hok hmem ?_
            rw [List.any_eq_false] at hresolved ⊢
            intro a ha hunresolved
            rcases append_or_update happend with ⟨_, rfl⟩ | ⟨_, message, rfl⟩
            · obtain ⟨b, hb, hsame⟩ := of_mem_rewriteFirst ha
              rcases hsame with rfl | rfl
              · exact hresolved a hb hunresolved
              · exact hresolved b hb hunresolved
            · rcases List.mem_append.1 ha with hbefore | hlast
              · exact hresolved a hbefore hunresolved
              · rw [List.mem_singleton.1 hlast] at hunresolved
                exact hne (of_decide_eq_true (Bool.and_eq_true_iff.1 hunresolved).1)
      · exact ih hl hnodup.2 hrest hok hmem hresolved

/-! ## The laws of the calls -/

theorem Lifecycle.set_alert_status {state : State} (hl : Lifecycle state.alerts)
    (alert_id : String) (status : AlertStatus) (now : Time)
    (hstatus : ∀ a ∈ state.alerts, a.alertId = alert_id → a.status = .RESOLVED →
      status = .RESOLVED) :
    Lifecycle (_set_alert_status alert_id status now state).state.alerts ∧
    KeepsResolved state.alerts (_set_alert_status alert_id status now state).state.alerts := by
  unfold _set_alert_status
  dsimp only
  split
  · exact ⟨hl, fun a ha _ => ha⟩
  · rename_i alert hfind
    split_ifs with hsame
    · exact ⟨hl, fun a ha _ => ha⟩
    · have hid : ∀ a, (withStatus status now a).alertId = a.alertId := by
        intro a
        unfold withStatus
        split_ifs
        · rfl
        · rfl
      have halert : alert ∈ state.alerts ∧ alert.alertId = alert_id :=
        ⟨List.mem_of_find?_eq_some hfind, by simpa using List.find?_some hfind⟩
      -- The one alert of the id is not resolved.
      have hopen : ∀ a ∈ state.alerts, a.alertId = alert_id → a.status ≠ .RESOLVED := by
        intro a ha haid hresolved
        have heq : a = alert :=
          List.inj_on_of_nodup_map hl.ids ha halert.1 (haid.trans halert.2.symm)
        subst heq
        exact hsame (hresolved.trans (hstatus a ha haid hresolved).symm)
      refine ⟨⟨?_, fun rule_id => ?_⟩, fun a ha hresolved => ?_⟩
      · dsimp only
        rw [map_rewriteFirst hid]
        exact hl.ids
      · refine (countP_rewriteFirst_le (fun a ha hp hq => ?_)).trans (hl.single rule_id)
        have hrule : (withStatus status now a).ruleId = a.ruleId := by
          unfold withStatus
          split_ifs
          · rfl
          · rfl
        unfold unresolved at hq ⊢
        rw [hrule] at hq
        rw [(Bool.and_eq_true_iff.1 hq).1, Bool.true_and]
        exact decide_eq_true (hopen a ha (of_decide_eq_true hp))
      · refine mem_rewriteFirst_of_not ha (decide_eq_false fun haid => ?_)
        exact hopen a ha haid hresolved

theorem update_rule_alerts (rule_id : String) (payload : MonitoringRuleUpdate) (now : Time)
    (state : State) : (update_rule rule_id payload now state).state.alerts = state.alerts := by
  unfold update_rule
  split_ifs
  · rfl
  · rfl

/-- An instance sees the alerts of the file when the time of a store is always a new one; an alert
that is resolved is not acknowledged; and no event raises. -/
def Meets (parse : String → Option Number) (w : World) (e : Event) : Prop :=
  w.mtime < e.mtime ∧ match e.call with
    | .emit_event event _ _ => Regular parse e.now (w.load e.instance_ e.now).rules event
    | .ack_alert alert_id => ∀ a ∈ w.file.alerts, a.alertId = alert_id → a.status ≠ .RESOLVED
    | _ => True

structure World.Inv (w : World) : Prop where
  lifecycle : Lifecycle w.file.alerts
  caches : ∀ i state mtime, w.caches i = some (state, mtime) →
    mtime ≤ w.mtime ∧ (mtime = w.mtime → state.alerts = w.file.alerts)

theorem World.Inv.load (h : w.Inv) (i : String) (now : Time) :
    (w.load i now).alerts = w.file.alerts := by
  unfold World.load
  split
  · rename_i state mtime hcache
    split_ifs with hfresh
    · exact (h.caches i state mtime hcache).2 hfresh
    · rfl
  · rfl

/-- What a call does to the alerts that its instance sees. -/
theorem run_keeps (h : w.Inv) {e : Event} (hmeets : Meets parse w e)
    (hdrawn : Drawn (w.load e.instance_ e.now) e.call) :
    Lifecycle (e.call.run parse e.now (w.load e.instance_ e.now)).state.alerts ∧
    KeepsResolved w.file.alerts
      (e.call.run parse e.now (w.load e.instance_ e.now)).state.alerts ∧
    ((e.call.run parse e.now (w.load e.instance_ e.now)).stored = false →
      (e.call.run parse e.now (w.load e.instance_ e.now)).state.alerts = w.file.alerts) := by
  have hload := h.load e.instance_ e.now
  have hl : Lifecycle (w.load e.instance_ e.now).alerts := hload ▸ h.lifecycle
  have hsame : ∀ alert_id status, (_set_alert_status alert_id status e.now
      (w.load e.instance_ e.now)).stored = false →
        (_set_alert_status alert_id status e.now (w.load e.instance_ e.now)).state.alerts =
          w.file.alerts := by
    intro alert_id status hstored
    unfold _set_alert_status at hstored ⊢
    dsimp only at hstored ⊢
    split at hstored
    · exact hload
    · split_ifs at hstored ⊢
      exact hload
  obtain ⟨_, hmeets⟩ := hmeets
  cases hcall : e.call with
  | emit_event event recent ids =>
    rw [hcall] at hmeets hdrawn
    obtain ⟨hl', hresolved, _⟩ := hl.upsertAll parse event recent e.now
      hdrawn.1 hdrawn.2
    refine ⟨hl', hload ▸ hresolved, fun hstored => ?_⟩
    have hok := upsertAll_not_raised hmeets recent ids (w.load e.instance_ e.now).alerts
    change (!(upsertAll parse event recent ids e.now (w.load e.instance_ e.now).rules
      (w.load e.instance_ e.now).alerts).2) = false at hstored
    rw [hok] at hstored
    cases hstored
  | update_rule rule_id payload =>
    have halerts := update_rule_alerts rule_id payload e.now (w.load e.instance_ e.now)
    change Lifecycle (update_rule rule_id payload e.now (w.load e.instance_ e.now)).state.alerts ∧
      KeepsResolved w.file.alerts
        (update_rule rule_id payload e.now (w.load e.instance_ e.now)).state.alerts ∧ _
    rw [halerts, hload]
    exact ⟨h.lifecycle, fun a ha _ => ha, fun _ => halerts.trans hload⟩
  | ack_alert alert_id =>
    rw [hcall] at hmeets
    obtain ⟨hl', hresolved⟩ := hl.set_alert_status alert_id .ACKNOWLEDGED e.now
      (fun a ha haid hstatus => absurd hstatus (hmeets a (hload ▸ ha) haid))
    exact ⟨hl', hload ▸ hresolved, hsame alert_id .ACKNOWLEDGED⟩
  | resolve_alert alert_id =>
    obtain ⟨hl', hresolved⟩ := hl.set_alert_status alert_id .RESOLVED e.now
      (fun _ _ _ _ => rfl)
    exact ⟨hl', hload ▸ hresolved, hsame alert_id .RESOLVED⟩

/-! ## Runs -/

theorem step_eq_some {w' : World} {e : Event} (h : step parse w e = some w') :
    Drawn (w.load e.instance_ e.now) e.call ∧
    (((e.call.run parse e.now (w.load e.instance_ e.now)).stored = true ∧ w' = {
        file := (e.call.run parse e.now (w.load e.instance_ e.now)).state
        mtime := e.mtime
        caches := fun i => if i = e.instance_ then
          some ((e.call.run parse e.now (w.load e.instance_ e.now)).state, e.mtime)
          else w.caches i }) ∨
      ((e.call.run parse e.now (w.load e.instance_ e.now)).stored = false ∧ w' = { w with
        caches := fun i => if i = e.instance_ then
          some ((e.call.run parse e.now (w.load e.instance_ e.now)).state, w.mtime)
          else w.caches i })) := by
  unfold step at h
  dsimp only at h
  split_ifs at h with hdrawn hstored
  · exact ⟨hdrawn.1, .inl ⟨hstored, (Option.some.inj h).symm⟩⟩
  · exact ⟨hdrawn.1, .inr ⟨Bool.eq_false_of_not_eq_true hstored, (Option.some.inj h).symm⟩⟩

theorem inv_step {w' : World} (h : w.Inv) {e : Event} (hmeets : Meets parse w e)
    (hstep : (machine parse).step w e = some w') :
    w'.Inv ∧ KeepsResolved w.file.alerts w'.file.alerts := by
  obtain ⟨hdrawn, ⟨_, rfl⟩ | ⟨hstored, rfl⟩⟩ := step_eq_some hstep
  · obtain ⟨hl, hresolved, _⟩ := run_keeps h hmeets hdrawn
    refine ⟨⟨hl, fun i state mtime hcache => ?_⟩, hresolved⟩
    dsimp only at hcache
    split_ifs at hcache with hi
    · cases hcache
      exact ⟨Nat.le_refl _, fun _ => rfl⟩
    · have hold := (h.caches i state mtime hcache).1
      refine ⟨hold.trans (Nat.le_of_lt hmeets.1), fun heq => ?_⟩
      rw [heq] at hold
      exact absurd hmeets.1 (Nat.not_lt.2 hold)
  · obtain ⟨_, _, hsame⟩ := run_keeps h hmeets hdrawn
    refine ⟨⟨h.lifecycle, fun i state mtime hcache => ?_⟩, fun a ha _ => ha⟩
    dsimp only at hcache
    split_ifs at hcache with hi
    · cases hcache
      exact ⟨Nat.le_refl _, fun _ => hsame hstored⟩
    · exact h.caches i state mtime hcache

theorem inv_of_reach (h : (machine parse).Reach (Meets parse) w) : w.Inv := by
  refine h.invariant (fun w hw => ?_)
    (fun w e w' _ hinv hmeets hstep => (inv_step hinv hmeets hstep).1)
  obtain ⟨halerts, hcaches⟩ := hw
  refine ⟨⟨?_, fun rule_id => ?_⟩, fun i state mtime hcache => ?_⟩
  · rw [halerts]
    exact List.nodup_nil
  · rw [halerts]
    exact Nat.zero_le 1
  · rw [hcaches] at hcache
    cases hcache

/-- In each run that meets the condition: at most one alert of a rule is not resolved; what is
resolved stays as it is, for ever; and an event that meets an enabled rule whose alerts are all
resolved opens a new alert of it. -/
theorem alerts_keep_their_lifecycle {w : World}
    (h : (machine parse).Reach (Meets parse) w) :
    (∀ rule_id, w.file.alerts.countP (unresolved rule_id) ≤ 1) ∧
    (∀ w', (machine parse).LaterIn (Meets parse) w w' → ∀ a ∈ w.file.alerts,
      a.status = .RESOLVED → a ∈ w'.file.alerts ∧
        ∀ b ∈ w'.file.alerts, b.alertId = a.alertId → b = a) ∧
    ∀ e w' event recent ids, Meets parse w e → (machine parse).step w e = some w' →
      e.call = .emit_event event recent ids → ∀ rule ∈ (w.load e.instance_ e.now).rules,
      rule.enabled = true → (∃ finding, verdict parse rule event recent e.now = .met finding) →
      (∀ a ∈ w.file.alerts, a.ruleId = rule.ruleId → a.status = .RESOLVED) →
      ∃ a ∈ w'.file.alerts, a.ruleId = rule.ruleId ∧ a.status = .OPEN ∧
        a.alertId ∉ w.file.alerts.map MonitoringAlert.alertId := by
  have hinv := inv_of_reach h
  refine ⟨hinv.lifecycle.single, fun w' hl a ha hresolved => ?_,
    fun e w' event recent ids hmeets hstep hcall rule hrule henabled hmet hall => ?_⟩
  · have hmem : a ∈ w'.file.alerts := by
      refine hl.keeps (P := fun w => a ∈ w.file.alerts) h (fun t e t' ht hmem hmeets hstep => ?_) ha
      exact (inv_step (inv_of_reach ht) hmeets hstep).2 a hmem hresolved
    refine ⟨hmem, fun b hb hid => ?_⟩
    exact List.inj_on_of_nodup_map (inv_of_reach (h.laterIn hl)).lifecycle.ids hb hmem hid
  · obtain ⟨finding, hmet⟩ := hmet
    have hload := hinv.load e.instance_ e.now
    have hl : Lifecycle (w.load e.instance_ e.now).alerts := hload ▸ hinv.lifecycle
    have hnone : (w.load e.instance_ e.now).alerts.any (unresolved rule.ruleId) = false := by
      rw [List.any_eq_false]
      intro a ha hunresolved
      obtain ⟨hid, hopen⟩ := Bool.and_eq_true_iff.1 hunresolved
      exact of_decide_eq_true hopen (hall a (hload ▸ ha) (of_decide_eq_true hid))
    have hregular := hmeets.2
    rw [hcall] at hregular
    have hok := upsertAll_not_raised hregular recent ids (w.load e.instance_ e.now).alerts
    obtain ⟨hdrawn, hcases⟩ := step_eq_some hstep
    rw [hcall] at hdrawn hcases
    obtain ⟨a, ha, hid, hopen, halert⟩ := upsertAll_opens hl hdrawn.1 hdrawn.2 hok hrule henabled
      hmet hnone
    have hnew : a.alertId ∉ w.file.alerts.map MonitoringAlert.alertId := by
      rw [halert, ← hload]
      exact hdrawn.2 rule hrule
    rcases hcases with ⟨_, rfl⟩ | ⟨hstored, _⟩
    · exact ⟨a, ha, hid, hopen, hnew⟩
    · change (!(upsertAll parse event recent ids e.now (w.load e.instance_ e.now).rules
        (w.load e.instance_ e.now).alerts).2) = false at hstored
      rw [hok] at hstored
      cases hstored

/-! ## Two operators -/

def noTexts : String → Option Number := fun _ => none

def emptyFile : World := ⟨⟨[], []⟩, 0, fun _ => none⟩

/-- The depth of the inbound queue is above the threshold of its rule. -/
def queueDepth : EventEnvelope where
  eventId := "evt"
  companyId := "acme"
  category := .mail
  severity := .WARN
  resourceType := "mail_queue"
  resourceId := "inbound"
  dedupKey := "mail.queue.metrics:inbound"
  occurredAt := 0
  createdAt := 0
  payload := [("metrics", .object [("mail_inbound_queue_depth", .number 101)])]
  targets := ["admin"]
  visibility := .admin
  details := ⟨"1.0", "mail.queue.metrics", "req", "title", "message", "backend", none, 4320, [], [],
    [], "both"⟩

def emitted (suffix : String) (mtime : Nat) : Event :=
  ⟨"emitter", .emit_event queueDepth [] (fun rule => rule ++ suffix), mtime, mtime⟩

def resolved (mtime : Nat) : Event :=
  ⟨"ana", .resolve_alert "rule_mail_inbound_queue_depth1", mtime, mtime⟩

/-- The second operator acknowledges the alert that he saw before it was resolved. -/
def acknowledged (mtime : Nat) : Event :=
  ⟨"bea", .ack_alert "rule_mail_inbound_queue_depth1", mtime, mtime⟩

def worldAfter (events : List Event) : World :=
  ((machine noTexts).run emptyFile events).getD emptyFile

theorem start_emptyFile : (machine noTexts).Start emptyFile := ⟨rfl, fun _ => rfl⟩

theorem run_worldAfter {events : List Event}
    (h : ((machine noTexts).run emptyFile events).isSome = true) :
    (machine noTexts).run emptyFile events = some (worldAfter events) := by
  obtain ⟨w, hw⟩ := Option.isSome_iff_exists.1 h
  unfold worldAfter
  rw [hw]
  rfl

theorem step_worldAfter (events : List Event) (e : Event)
    (h : ((machine noTexts).run emptyFile events).isSome = true)
    (h' : ((machine noTexts).run emptyFile (events ++ [e])).isSome = true) :
    (machine noTexts).step (worldAfter events) e = some (worldAfter (events ++ [e])) := by
  have hrun := run_worldAfter h
  have hrun' := run_worldAfter h'
  unfold Machine.run at hrun hrun'
  rw [List.foldlM_append, hrun] at hrun'
  simpa using hrun'

/-- An alert is resolved, and then acknowledged. Or an event comes between the two: then two alerts
of one rule are not resolved. -/
theorem a_late_acknowledgement_reopens :
    (∃ w w', (machine noTexts).Reachable w ∧ (machine noTexts).Later w w' ∧
      ∃ a ∈ w.file.alerts, a.status = .RESOLVED ∧
        ∃ b ∈ w'.file.alerts, b.alertId = a.alertId ∧ b.status = .ACKNOWLEDGED) ∧
    ∃ w, (machine noTexts).Reachable w ∧
      w.file.alerts.countP (unresolved "rule_mail_inbound_queue_depth") = 2 := by
  have hsome : ((machine noTexts).run emptyFile [emitted "1" 1, resolved 2]).isSome = true := by
    decide +kernel
  have hstep := step_worldAfter _ (acknowledged 3) hsome (by decide +kernel)
  refine ⟨⟨_, _, Machine.reachable_of_run start_emptyFile (run_worldAfter hsome),
    .next (.refl _) hstep, ?_⟩, worldAfter [emitted "1" 1, resolved 2, emitted "2" 3,
      acknowledged 4], ?_, by decide +kernel⟩
  · have hfirst : (worldAfter [emitted "1" 1, resolved 2]).file.alerts.map
        (fun a => (a.alertId, a.status)) = [("rule_mail_inbound_queue_depth1", .RESOLVED)] := by
      decide +kernel
    have hlate : (worldAfter ([emitted "1" 1, resolved 2] ++ [acknowledged 3])).file.alerts.map
        (fun a => (a.alertId, a.status)) =
          [("rule_mail_inbound_queue_depth1", .ACKNOWLEDGED)] := by
      decide +kernel
    obtain ⟨a, ha, haid⟩ := List.mem_map.1 (hfirst ▸ List.mem_cons_self)
    obtain ⟨b, hb, hbid⟩ := List.mem_map.1 (hlate ▸ List.mem_cons_self)
    obtain ⟨haid, hresolved⟩ := Prod.mk.inj haid
    obtain ⟨hbid, hacknowledged⟩ := Prod.mk.inj hbid
    exact ⟨a, ha, hresolved, b, hb, hbid.trans haid.symm, hacknowledged⟩
  · exact Machine.reachable_of_run start_emptyFile (run_worldAfter (by decide +kernel))

theorem regular_queueDepth (h : ∀ rule ∈ rules, rule.threshold.toFloat ≠ .overflow)
    (hwindows : ∀ rule ∈ rules, windowStart rule now ≠ none) :
    Regular noTexts now rules queueDepth where
  message := fun m hm => by cases hm
  windows := hwindows
  thresholds := h
  metrics := by decide +kernel
  disk := fun raw hraw => by cases hraw

/-- After the alert was resolved, the next event opens a new one. -/
theorem the_queue_is_reported_again :
    ∃ a ∈ (worldAfter [emitted "1" 1, resolved 2, emitted "2" 3]).file.alerts,
      a.ruleId = "rule_mail_inbound_queue_depth" ∧ a.status = .OPEN := by
  have hfirst : (machine noTexts).Reach (Meets noTexts) (worldAfter [emitted "1" 1]) :=
    .next (.start start_emptyFile) ⟨by decide, regular_queueDepth (by decide +kernel) (by decide +kernel)⟩
      (step_worldAfter [] (emitted "1" 1) rfl (by decide +kernel))
  have hsecond : (machine noTexts).Reach (Meets noTexts)
      (worldAfter [emitted "1" 1, resolved 2]) :=
    .next hfirst ⟨by decide +kernel, trivial⟩
      (step_worldAfter [emitted "1" 1] (resolved 2) (by decide +kernel) (by decide +kernel))
  have hrule : ((worldAfter [emitted "1" 1, resolved 2]).load "emitter" 3).rules.any (fun rule =>
      decide (rule.ruleId = "rule_mail_inbound_queue_depth") && rule.enabled &&
      match verdict noTexts rule queueDepth [] 3 with
      | .met _ => true
      | _ => false) = true := by decide +kernel
  obtain ⟨rule, hrule, hready⟩ := List.any_eq_true.1 hrule
  simp only [Bool.and_eq_true, decide_eq_true_eq] at hready
  obtain ⟨⟨hid, henabled⟩, hverdict⟩ := hready
  obtain ⟨_, _, hopens⟩ := alerts_keep_their_lifecycle hsecond
  have hstep : (machine noTexts).step (worldAfter [emitted "1" 1, resolved 2]) (emitted "2" 3) =
      some (worldAfter [emitted "1" 1, resolved 2, emitted "2" 3]) :=
    step_worldAfter [emitted "1" 1, resolved 2] (emitted "2" 3) (by decide +kernel)
      (by decide +kernel)
  obtain ⟨a, ha, haid, hopen, _⟩ := hopens (emitted "2" 3) _ queueDepth [] _
    ⟨by decide +kernel, regular_queueDepth (by decide +kernel) (by decide +kernel)⟩ hstep rfl rule hrule henabled (by
        split at hverdict
        · exact ⟨_, by assumption⟩
        · cases hverdict)
    (fun a ha _ => by
      have hall : ∀ a ∈ (worldAfter [emitted "1" 1, resolved 2]).file.alerts,
          a.status = .RESOLVED := by decide +kernel
      exact hall a ha)
  exact ⟨a, ha, haid.trans hid, hopen⟩

end moaworks.observability
