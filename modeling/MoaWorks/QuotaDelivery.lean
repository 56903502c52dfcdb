-- The law of the daily quota over deliveries: each connection is paid for by
-- a reservation of its own, a refusal ends the delivery, and the deferred
-- row keeps its attempts and waits for the end of the date.
import MoaWorks.Lib.History
import MoaWorks.SmtpRules

namespace moaworks.mail_transports

open Program mail_daily_send_quota mail_delivery_service
open mail_queue (DeliveryResult Db Job QueueRow)

/-! ## What a trace says about its connections -/

/-- Each connection comes right after a reservation. -/
def paid (t : List Event) : Prop :=
  ∀ pre host port timeout post, t = pre ++ .connect host port timeout :: post →
    ∃ pre' date, pre = pre' ++ [.reserved date]

def unrefused (t : List Event) : Prop := ∀ clock e, Event.refused clock e ∉ t

/-- An event that neither opens a connection nor asks the quota. -/
def Event.neutral : Event → Prop
  | .connect _ _ _ => False
  | .reserved _ => False
  | .refused _ _ => False
  | _ => True

theorem paid_snoc {t : List Event} {e : Event} (h : paid t)
    (he : ∀ host port timeout, e ≠ .connect host port timeout) : paid (t ++ [e]) := by
  intro pre host port timeout post hs
  rcases History.append_singleton_eq_append_cons hs with ⟨_, rfl, _⟩ | ⟨b, _, ht⟩
  · exact absurd rfl (he host port timeout)
  · exact h pre host port timeout b ht

/-- A connection right after a reservation is paid. -/
theorem paid_connect {t : List Event} {date : Date} {host : String} {port : Nat}
    {timeout : Int} (h : paid (t ++ [.reserved date])) :
    paid (t ++ [.reserved date] ++ [.connect host port timeout]) := by
  intro pre host' port' timeout' post hs
  rcases History.append_singleton_eq_append_cons hs with ⟨_, _, rfl⟩ | ⟨b, _, ht⟩
  · exact ⟨t, date, rfl⟩
  · exact h pre host' port' timeout' b ht

theorem unrefused_snoc {t : List Event} {e : Event} (h : unrefused t)
    (he : ∀ clock exc, e ≠ .refused clock exc) : unrefused (t ++ [e]) := by
  intro clock exc hm
  rcases List.mem_append.mp hm with hm | hm
  · exact h clock exc hm
  · exact he clock exc (List.mem_singleton.mp hm).symm

section Quota

variable (limit : Nat) (q₀ : Quota)

/-- The delivery goes on: its connections are paid, nothing was refused, and
its reservations are grants of the quota, counted from `q₀`. -/
structure Open (t : List Event) (q : Quota) : Prop where
  paid : paid t
  unrefused : unrefused t
  later : (machine limit).Later q₀ q
  counted : ∀ d, q₀.granted.count d + t.count (.reserved d) ≤ q.granted.count d

/-- A reservation was just granted. -/
def Ready (t : List Event) (q : Quota) : Prop :=
  Open limit q₀ t q ∧ ∃ t' date, t = t' ++ [.reserved date]

/-- The quota just refused, with this exception. -/
def Refused (e : Exc) (t : List Event) (q : Quota) : Prop :=
  ∃ t' clock, t = t' ++ [.refused clock e] ∧ Open limit q₀ t' q ∧
    (e = .quota_limit (resetAt (usageDate clock)) ∨ e = .quota_unavailable)

/-- The delivery was not refused, or just now by `e`. -/
def Ended (e : Exc) (t : List Event) (q : Quota) : Prop :=
  Open limit q₀ t q ∨ Refused limit q₀ e t q

variable {limit q₀}

theorem keeps_open {e : Event} (he : e.neutral) : Keeps e (Open limit q₀) := by
  intro t q h
  have hcount : ∀ d, (t ++ [e]).count (.reserved d) = t.count (.reserved d) := by
    intro d
    rw [List.count_append, List.count_singleton]
    have hne : e ≠ .reserved d := by
      rintro rfl
      exact he
    simp [hne]
  refine ⟨paid_snoc h.paid ?_, unrefused_snoc h.unrefused ?_, h.later, ?_⟩
  · rintro _ _ _ rfl
    exact he
  · rintro _ _ rfl
    exact he
  · intro d
    rw [hcount]
    exact h.counted d

theorem connect_open {t : List Event} {q : Quota} {host : String} {port : Nat} {timeout : Int}
    (h : Ready limit q₀ t q) : Open limit q₀ (t ++ [.connect host port timeout]) q := by
  obtain ⟨ho, t', date, rfl⟩ := h
  refine ⟨paid_connect ho.paid, unrefused_snoc ho.unrefused (by simp), ho.later, ?_⟩
  intro d
  have hc := ho.counted d
  rw [List.count_append]
  simpa using hc

/-- The callback of the quota: a grant, or the end of the delivery. -/
theorem reserve_attempt_quota (hl : 0 < limit) :
    Meets (On (Open limit q₀)) (reserve_attempt limit) (fun _ => On (Ready limit q₀))
      (fun e => On (Refused limit q₀ e)) := by
  unfold reserve_attempt
  refine Meets.bind meets_answer (fun a => ?_)
  refine Meets.bind Meets.get (fun net => ?_)
  dsimp only
  generalize hq : a.others.foldl (fun q c => (attempt limit q c).2) net.quota = q
  obtain ⟨hlater, hcount⟩ := later_others limit net.quota a.others
  rw [hq] at hlater hcount
  have hcases := attempt_cases q ⟨a.clock, a.fault⟩ hl
  have hgranted := attempt_granted limit q ⟨a.clock, a.fault⟩
  have hstep : (machine limit).Later net.quota (attempt limit q ⟨a.clock, a.fault⟩).2 :=
    hlater.next (a := ⟨a.clock, a.fault⟩) rfl
  generalize hat : attempt limit q ⟨a.clock, a.fault⟩ = at' at hcases hgranted hstep ⊢
  obtain ⟨outcome, q'⟩ := at'
  simp only at hcases hgranted hstep ⊢
  -- The quota moved on from the state that was read, by the other workers and by this call.
  have hmoved : ∀ t, Open limit q₀ t net.quota → Open limit q₀ t q' ∧
      ∀ d, outcome.dates = [d] → ∀ d', q₀.granted.count d' +
        (t ++ [Event.reserved d]).count (Event.reserved d') ≤ q'.granted.count d' := by
    intro t ho
    refine ⟨⟨ho.paid, ho.unrefused, ho.later.trans hstep, fun d => ?_⟩, fun d hd d' => ?_⟩
    · have h1 := ho.counted d
      have h2 := hcount d
      rw [hgranted, List.count_append]
      omega
    · have h1 := ho.counted d'
      have h2 := hcount d'
      rw [hgranted, hd, List.count_append, List.count_append, List.count_singleton,
        List.count_singleton]
      by_cases hdd : d = d'
      · subst hdd
        simp only [beq_self_eq_true, if_true]
        omega
      · have hne : ¬ Event.reserved d = Event.reserved d' := by simpa using hdd
        simp only [beq_iff_eq, hdd, hne, if_false]
        omega
  refine Meets.bind (Q := fun _ => On (fun t q => q = q' ∧ Open limit q₀ t net.quota))
    (Meets.modify ?_) (fun _ => ?_)
  · rintro net' ⟨rfl, ho⟩
    exact ⟨rfl, ho⟩
  · rcases hcases with ⟨used, reset_at, rfl⟩ | rfl | rfl
    · refine meets_note_last ?_
      rintro t _ ⟨rfl, ho⟩
      obtain ⟨hopen, hres⟩ := hmoved t ho
      exact ⟨⟨paid_snoc hopen.paid (by simp), unrefused_snoc hopen.unrefused (by simp),
        hopen.later, hres _ rfl⟩, t, _, rfl⟩
    · refine Meets.bind (Q := fun _ => On (Refused limit q₀ _)) (meets_note_last ?_)
        (fun _ => Meets.throw (fun _ h => h))
      rintro t _ ⟨rfl, ho⟩
      exact ⟨t, a.clock, rfl, (hmoved t ho).1, Or.inl rfl⟩
    · refine Meets.bind (Q := fun _ => On (Refused limit q₀ _)) (meets_note_last ?_)
        (fun _ => Meets.throw (fun _ h => h))
      rintro t _ ⟨rfl, ho⟩
      exact ⟨t, a.clock, rfl, (hmoved t ho).1, Or.inr rfl⟩

end Quota

/-! ## The pieces that ask no quota -/

section Neutral

variable {T : List Event → Quota → Prop} (hn : ∀ e : Event, e.neutral → Keeps e T)
include hn

theorem session_keeps {α : Type} {body : Op α}
    (hb : Meets (On T) body (fun _ => On T) (fun _ => On T)) :
    Meets (On T) (smtp_session body) (fun _ => On T) (fun _ => On T) :=
  meets_session (Q := fun _ => T) (E := fun _ => T) hb
    (fun _ => ⟨hn _ trivial, hn _ trivial⟩) (fun _ => hn _ trivial) (fun _ _ _ h => h)
    (fun _ _ _ h => h)

theorem send_smtp_data_keeps (prepared : Except Exc Bytes)
    (envelope_from recipient_email : String) (owned : Bool) :
    Meets (On T) (send_smtp_data prepared envelope_from recipient_email owned) (fun _ => On T)
      (fun _ => On T) := by
  have howner : Meets (On T) (onlyIf owned before_data) (fun _ => On T) (fun _ => On T) :=
    meets_onlyIf (meets_before_data (hn _ trivial))
  unfold send_smtp_data
  refine Meets.bind (Q := fun _ => On T) ?_ (fun payload => ?_)
  · cases prepared with
    | ok b => exact Meets.pure (fun _ h => h)
    | error e => exact Meets.throw (fun _ h => h)
  refine Meets.bind (meets_envelope (hn _ trivial)) (fun _ => ?_)
  refine Meets.bind (meets_envelope (hn _ trivial)) (fun _ => ?_)
  refine Meets.bind howner (fun _ => ?_)
  refine Meets.bind (meets_command (hn _ trivial)) (fun code => ?_)
  refine Meets.bind (meets_onlyIf (Meets.throw (fun _ h => h))) (fun _ => ?_)
  refine Meets.bind howner (fun _ => ?_)
  refine Meets.bind (Q := fun _ => On T) ?_ (fun code => ?_)
  · refine meets_catching (H := fun _ => On T) ?_ (fun _ h => h)
      (fun _ _ => Meets.throw (fun _ h => h))
    unfold send_payload
    refine Meets.bind (meets_note (hn _ trivial)) (fun _ => ?_)
    refine Meets.bind meets_call (fun _ => Meets.bind meets_call (fun a => ?_))
    exact Meets.bind (meets_note (hn _ trivial)) (fun _ => Meets.pure (fun _ h => h))
  · split
    · exact Meets.pure (fun _ h => h)
    · split
      · exact Meets.throw (fun _ h => h)
      · exact Meets.throw (fun _ h => h)

/-- One host: what holds before its connection, and what holds once it is open. -/
theorem deliver_keeps {S : List Event → Quota → Prop}
    (hc : ∀ host port timeout t q, S t q → T (t ++ [.connect host port timeout]) q)
    (prepared : Except Exc Bytes) (envelope_from recipient_email : String)
    (options : TransportOptions) (owned : Bool) (host : String) (port : Nat) :
    Meets (On S) (SelfHostedSmtpTransport.deliver prepared envelope_from recipient_email
      options owned host port) (fun _ => On T) (fun _ => On T) := by
  unfold SelfHostedSmtpTransport.deliver
  simp only
  generalize normalized_host options.relay_host = relay_host
  generalize Text.strip options.username = username
  refine Meets.bind (Q := fun _ => On T) ?_ (fun _ => ?_)
  · exact Meets.bind (meets_note_last (hc _ _ _)) (fun _ =>
      Meets.bind meets_call (fun _ => Meets.pure (fun _ h => h)))
  refine Meets.bind (session_keeps hn ?_) (fun _ => Meets.pure (fun _ h => h))
  refine Meets.bind (meets_agreed (hn _ trivial)) (fun _ => ?_)
  refine Meets.bind meets_starttls_offered (fun offered => ?_)
  refine Meets.bind (meets_onlyIf (Meets.throw (fun _ h => h))) (fun _ => ?_)
  refine Meets.bind (meets_onlyIf (Meets.bind (meets_agreed (hn _ trivial))
    (fun _ => meets_agreed (hn _ trivial)))) (fun _ => ?_)
  refine Meets.bind (meets_onlyIf (meets_login (hn _ trivial))) (fun _ => ?_)
  exact send_smtp_data_keeps hn _ _ _ _

theorem oci_keeps {S : List Event → Quota → Prop} (hST : ∀ t q, S t q → T t q)
    (hc : ∀ host port timeout t q, S t q → T (t ++ [.connect host port timeout]) q)
    (prepared : Except Exc Bytes) (envelope_from recipient_email : String)
    (config : RelaySmtpConfig) (owned : Bool) :
    Meets (On S) (OciEmailDeliveryTransport.send_prepared prepared envelope_from
      recipient_email config owned) (fun _ => On T) (fun _ => On T) := by
  unfold OciEmailDeliveryTransport.send_prepared
  refine Meets.bind (Q := fun _ => On S) (Meets.onlyIf
    (fun _ => Meets.throw (fun _ h => hST _ _ h)) (fun _ _ h => h)) (fun _ => ?_)
  refine Meets.bind (Q := fun _ => On T) ?_ (fun _ => Meets.pure (fun _ h => h))
  refine meets_catching (H := fun _ => On T) ?_ (fun _ h => h)
    (fun _ _ => Meets.throw (fun _ h => h))
  refine Meets.bind (Q := fun _ => On T) ?_ (fun _ => session_keeps hn ?_)
  · exact Meets.bind (meets_note_last (hc _ _ _)) (fun _ =>
      Meets.bind meets_call (fun _ => Meets.pure (fun _ h => h)))
  refine Meets.bind (meets_agreed (hn _ trivial)) (fun _ => ?_)
  refine Meets.bind (meets_onlyIf ?_) (fun _ => ?_)
  · refine Meets.bind meets_has_starttls (fun offered => ?_)
    refine Meets.bind (meets_onlyIf (Meets.throw (fun _ h => h))) (fun _ => ?_)
    exact Meets.bind (meets_agreed (hn _ trivial)) (fun _ => meets_agreed (hn _ trivial))
  refine Meets.bind (meets_login (hn _ trivial)) (fun _ => ?_)
  exact send_smtp_data_keeps hn _ _ _ _

theorem relay_keeps {S : List Event → Quota → Prop}
    (hc : ∀ host port timeout t q, S t q → T (t ++ [.connect host port timeout]) q)
    (message : Except Exc Bytes) (provider : Provider) (env : Envelope) (owned : Bool) :
    Meets (On S) (SmtpRelayAdapter.send_prepared message provider env owned) (fun _ => On T)
      (fun _ => On T) := by
  unfold SmtpRelayAdapter.send_prepared
  refine meets_catching (H := fun _ => On T) ?_ (fun _ h => h)
    (fun _ _ => Meets.throw (fun _ h => h))
  refine Meets.bind (Q := fun _ => On T) ?_ (fun _ => ?_)
  · exact Meets.bind (meets_note_last (hc _ _ _)) (fun _ =>
      Meets.bind meets_call (fun _ => Meets.pure (fun _ h => h)))
  refine Meets.bind (session_keeps hn ?_) (fun _ => Meets.pure (fun _ h => h))
  refine Meets.bind (meets_agreed (hn _ trivial)) (fun _ => ?_)
  refine Meets.bind (meets_onlyIf (Meets.bind (meets_agreed (hn _ trivial))
    (fun _ => meets_agreed (hn _ trivial)))) (fun _ => ?_)
  refine Meets.bind (meets_onlyIf (meets_login (hn _ trivial))) (fun _ => ?_)
  exact send_smtp_data_keeps hn _ _ _ _

end Neutral

/-! ## The transports under a quota -/

section Quota

variable {limit : Nat} {q₀ : Quota} (hl : 0 < limit)
include hl

theorem before_network_attempt_quota :
    Meets (On (Open limit q₀)) (before_network_attempt (some limit))
      (fun _ => On (Ready limit q₀)) (fun e => On (Ended limit q₀ e)) :=
  (reserve_attempt_quota hl).mono (fun _ h => h) (fun _ _ h => h) (fun _ _ h => Or.inr h)

/-- The loop over the candidates, by induction on the hosts that are left:
each host has its own reservation. -/
theorem tryCandidates_quota (prepared : Except Exc Bytes)
    (envelope_from recipient_email : String) (options : TransportOptions) (owned : Bool)
    (hosts : List (String × Nat)) (last_error : Exc) :
    Meets (On (Open limit q₀)) (SelfHostedSmtpTransport.tryCandidates prepared envelope_from
      recipient_email options (some limit) owned hosts last_error)
      (fun _ => On (Open limit q₀)) (fun e => On (Ended limit q₀ e)) := by
  induction hosts generalizing last_error with
  | nil => exact Meets.throw (fun _ h => Or.inl h)
  | cons candidate rest ih =>
    obtain ⟨host, port⟩ := candidate
    unfold SelfHostedSmtpTransport.tryCandidates
    refine Meets.bind (before_network_attempt_quota hl) (fun _ => ?_)
    refine meets_catching (H := fun _ => On (Open limit q₀))
      (deliver_keeps (fun _ => keeps_open) (fun _ _ _ _ _ => connect_open) _ _ _ _ _ _ _)
      (fun _ h => Or.inl h) (fun e he => ?_)
    simp only
    split
    · exact Meets.throw (fun _ h => Or.inl h)
    · exact ih _

theorem adapter_quota (prepared : PreparedMailDelivery) (provider : Provider) (owned : Bool) :
    Meets (On (Open limit q₀))
      (MailProviderRoutingAdapter.send_prepared prepared provider (some limit) owned)
      (fun _ => On (Open limit q₀)) (fun e => On (Ended limit q₀ e)) := by
  have hcheck : ∀ {c : Prop} {_ : Decidable c} {e : Exc}, Meets (On (Open limit q₀))
      (onlyIf c (throw e)) (fun _ => On (Open limit q₀)) (fun e => On (Ended limit q₀ e)) :=
    Meets.onlyIf (fun _ => Meets.throw (fun _ h => Or.inl h)) (fun _ _ h => h)
  unfold MailProviderRoutingAdapter.send_prepared
  split
  · refine Meets.bind (Q := fun _ => On (Open limit q₀)) ?_ (fun _ => Meets.pure (fun _ h => h))
    unfold SelfHostedSmtpTransport.send_prepared
    simp only
    generalize normalized_host (MailProviderRoutingAdapter.transportOptions prepared
      provider).relay_host = relay_host
    generalize Text.strip (MailProviderRoutingAdapter.transportOptions prepared
      provider).username = username
    refine Meets.bind hcheck (fun _ => ?_)
    refine Meets.bind hcheck (fun _ => ?_)
    refine Meets.bind (Q := fun _ => On (Open limit q₀)) ?_ (fun hosts => ?_)
    · unfold SelfHostedSmtpTransport.candidates
      split
      · exact Meets.pure (fun _ h => h)
      · split
        · exact Meets.throw (fun _ h => Or.inl h)
        · refine Meets.bind (meets_mx_resolver (keeps_open trivial)) ?_ |>.mono (fun _ h => h)
            (fun _ _ h => h) (fun _ _ h => Or.inl h)
          exact fun _ => Meets.pure (fun _ h => h)
    refine Meets.bind hcheck (fun _ => ?_)
    exact tryCandidates_quota hl _ _ _ _ _ _ _
  · split
    · refine Meets.bind (before_network_attempt_quota hl) (fun _ => ?_)
      refine Meets.bind (Q := fun _ => On (Open limit q₀)) ?_
        (fun _ => Meets.pure (fun _ h => h))
      exact (oci_keeps (fun _ => keeps_open) (fun _ _ h => h.1) (fun _ _ _ _ _ => connect_open)
        _ _ _ _ _).mono (fun _ h => h) (fun _ _ h => h) (fun _ _ h => Or.inl h)
    · split
      · refine Meets.bind (before_network_attempt_quota hl) (fun _ => ?_)
        exact (relay_keeps (fun _ => keeps_open) (fun _ _ _ _ _ => connect_open) _ _ _ _).mono
          (fun _ h => h) (fun _ _ h => h) (fun _ _ h => Or.inl h)
      · exact Meets.throw (fun _ h => Or.inl h)

/-- The result of a refused delivery: it is deferred, to the end of the date
when the limit is reached. -/
def deferredBy (e : Exc) (r : DeliveryResult) : Prop :=
  r.status = .quota_deferred ∧
    ((∃ reset_at, e = .quota_limit reset_at ∧ r.next_attempt_at = some reset_at ∧
      r.error_message = some "MAIL_DAILY_SEND_LIMIT_EXCEEDED") ∨
    (e = .quota_unavailable ∧ r.next_attempt_at.isSome ∧
      r.error_message = some "MAIL_DAILY_QUOTA_UNAVAILABLE"))

omit hl in
theorem resultOf_refused (provider : Provider) (attempt : Nat) (e : Exc) :
    Meets (On (Refused limit q₀ e)) (resultOf .send provider attempt e)
      (fun r => On (fun t q => Refused limit q₀ e t q ∧ deferredBy e r))
      (fun _ => On (Open limit q₀)) := by
  rintro net hr
  have hr' := hr
  obtain ⟨t', clock, ht, ho, rfl | rfl⟩ := hr'
  · exact ⟨hr, rfl, Or.inl ⟨_, rfl, rfl, rfl⟩⟩
  · have hnow : Meets (On (Refused limit q₀ .quota_unavailable))
        (resultOf .send provider attempt .quota_unavailable)
        (fun r => On (fun t q => Refused limit q₀ .quota_unavailable t q ∧
          deferredBy .quota_unavailable r)) (fun _ => On (Open limit q₀)) :=
      Meets.bind datetime_now_keeps
        (fun _ => Meets.pure (fun _ h => ⟨h, rfl, Or.inr ⟨rfl, rfl, rfl⟩⟩))
    exact hnow net hr

/-- A delivery with a quota ends unrefused, or refused and deferred. -/
theorem deliver_claimed_quota
    (prepare : Envelope → Provider → Except Exc PreparedMailDelivery) (owned : Bool)
    (job : DeliveryJob) (provider : Provider) :
    Meets (On (Open limit q₀)) (deliver_claimed prepare (some limit) owned job provider)
      (fun r => On (fun t q => Open limit q₀ t q ∨ ∃ e, Refused limit q₀ e t q ∧ deferredBy e r))
      (fun _ => On (Open limit q₀)) := by
  have hopen : ∀ phase e, Meets (On (Open limit q₀))
      (resultOf phase provider (job.attempt_count + 1) e)
      (fun r => On (fun t q => Open limit q₀ t q ∨ ∃ e, Refused limit q₀ e t q ∧ deferredBy e r))
      (fun _ => On (Open limit q₀)) := fun phase e =>
    (resultOf_not_sent phase provider _ e).mono (fun _ h => h) (fun _ _ h => Or.inl h.1)
      (fun _ _ h => h)
  unfold deliver_claimed
  split
  · exact Meets.pure (fun _ h => Or.inl h)
  split
  · exact Meets.pure (fun _ h => Or.inl h)
  simp only
  split
  · exact hopen _ _
  refine Meets.bind (Q := fun r net =>
    After (fun _ => On (Open limit q₀)) (fun e => On (Ended limit q₀ e)) (r, net))
    (Meets.attempt (adapter_quota hl _ _ _)) (fun r => ?_)
  rcases r with e | response
  · rintro net (h | h)
    · exact hopen .send e net h
    · exact (resultOf_refused provider _ e).mono (fun _ h => h)
        (fun _ _ h => Or.inr ⟨e, h⟩) (fun _ _ h => h) net h
  · exact Meets.pure (fun _ h => Or.inl h)

end Quota

/-! ## The deferred row -/

/-- Giving the claim back counts no attempt and moves the row past `reset_at`;
a claim that is lost changes nothing. -/
theorem deferral_keeps_the_attempts (digest8 : String → Nat) (db : Db) (worker : String)
    (job : Job) {r : DeliveryResult} {reset_at : Time} (now clock finished : Time)
    (hs : r.status = .quota_deferred) (hn : r.next_attempt_at = some reset_at) :
    ∃ took db', record_result digest8 db worker job r now clock finished = .ok (took, db') ∧
      db'.attempts = db.attempts ∧
      (∀ q, (db'.queue.rows q).map QueueRow.attempt_count =
        (db.queue.rows q).map QueueRow.attempt_count) ∧
      (took = false → db' = db) ∧
      (took = true → ∃ row next, db'.queue.rows job.queue_id = some row ∧
        row.status = .retry_pending ∧ row.next_attempt_at = some next ∧ reset_at ≤ next) := by
  unfold record_result
  rw [if_pos hs, hn, Option.getD_some]
  unfold mail_queue.defer_claim_for_quota
  rcases hrow : db.queue.rows job.queue_id with _ | row
  · exact ⟨false, db, rfl, rfl, fun _ => rfl, fun _ => rfl, by simp⟩
  · by_cases ho : mail_queue.owns row worker job clock = true
    · simp only [ho, if_true]
      refine ⟨true, _, rfl, rfl, fun q => ?_, by simp, fun _ => ?_⟩
      · by_cases hq : q = job.queue_id
        · subst hq
          rw [Table.rows_set_self, hrow]
          rfl
        · rw [Table.rows_set_ne _ _ hq]
      · exact ⟨_, _, Table.rows_set_self _ _ _, rfl, rfl, Nat.le_add_right _ _⟩
    · simp only [ho]
      exact ⟨false, db, rfl, rfl, fun _ => rfl, fun _ => rfl, by simp⟩

def greylistedMail : Envelope where
  mail_id := "m"
  message_id := none
  queue_id := "q"
  delivery_kind := "direct"
  sender_email := "a@x"
  sender_display_name := none
  reply_to_email := none
  message_encoding := none
  recipient_email := "b@y"
  subject := ""
  body_text := ""
  body_html := none

def greylistedProvider : Provider where
  provider_type := "self_hosted"
  relay_host := ""
  relay_port := 25
  tls_mode := "opportunistic"
  from_address := ""
  username := ""
  password := ""
  helo_name := none
  timeout_sec := none
  delivery_enabled := true
  last_test_status := some "success"
  max_retry_count := 3
  retry_interval_sec := 60

/-- With a limit of one, the first of two hosts answers the payload with 451. -/
def greylistedRun : Except Exc DeliveryResult × Net :=
  (deliver_claimed (fun env _ => .ok ⟨"self_hosted", .ok [104, 105], env.sender_email,
      env.recipient_email, env⟩) (some 1) false ⟨0, false, greylistedMail, none, none, none⟩
    greylistedProvider).exec
    ⟨[], [{ hosts := ["mx1.y", "mx2.y"] }, {}, {}, {}, {}, { code := 250 }, { code := 250 },
      { code := 354 }, {}, { code := 451 }], ⟨Table.empty, []⟩⟩

end moaworks.mail_transports
