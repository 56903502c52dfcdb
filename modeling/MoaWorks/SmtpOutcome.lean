-- The law of SMTP outcomes: once a payload may have been accepted, the result
-- is `sent` or `result_unknown`, and no other host is contacted.
import MoaWorks.Lib.History
import MoaWorks.SmtpRules

namespace moaworks.mail_transports

open Program mail_daily_send_quota mail_delivery_service
open mail_queue (DeliveryResult)

/-! ## What a trace says about its payloads -/

/-- The server answered the payload before with an explicit 4xx or 5xx. -/
def rejectedNext (post : List Event) : Prop :=
  ∃ code rest, post = .reply code :: rest ∧ 400 ≤ code ∧ code < 600

/-- Every server that got the payload rejected it. -/
def allRejected (t : List Event) : Prop :=
  ∀ pre bytes post, t = pre ++ .payload bytes :: post → rejectedNext post

/-- Neither a new host nor another payload. -/
def Event.quiet : Event → Prop
  | .connect _ _ _ => False
  | .payload _ => False
  | _ => True

/-- One server may have accepted the payload, and the delivery stopped there. -/
def maybeAccepted (t : List Event) : Prop :=
  ∃ pre bytes post, t = pre ++ .payload bytes :: post ∧ allRejected pre ∧ ∀ e ∈ post, e.quiet

/-- One server accepted the payload, and the delivery stopped there. -/
def accepted (t : List Event) : Prop :=
  ∃ pre bytes post, t = pre ++ .payload bytes :: .reply 250 :: post ∧ allRejected pre ∧
    ∀ e ∈ post, e.quiet

theorem accepted.maybe {t : List Event} (h : accepted t) : maybeAccepted t := by
  obtain ⟨pre, bytes, post, rfl, hr, hq⟩ := h
  refine ⟨pre, bytes, .reply 250 :: post, rfl, hr, ?_⟩
  intro e he
  rcases List.mem_cons.mp he with rfl | he
  · trivial
  · exact hq e he

theorem allRejected_snoc {t : List Event} {e : Event} (h : allRejected t)
    (he : ∀ bytes, e ≠ .payload bytes) : allRejected (t ++ [e]) := by
  intro pre bytes post hs
  rcases History.append_singleton_eq_append_cons hs with ⟨_, rfl, _⟩ | ⟨b, rfl, ht⟩
  · exact absurd rfl (he bytes)
  · obtain ⟨code, rest, rfl, hc⟩ := h pre bytes b ht
    exact ⟨code, rest ++ [e], by simp, hc⟩

theorem allRejected_of_reply {pre : List Event} {bytes : Bytes} {code : Int}
    (h : allRejected pre) (hc : 400 ≤ code ∧ code < 600) :
    allRejected (pre ++ [.payload bytes, .reply code]) := by
  intro pre' bytes' post hs
  have hs' : (pre ++ [.payload bytes]) ++ [.reply code] = pre' ++ .payload bytes' :: post := by
    simpa using hs
  rcases History.append_singleton_eq_append_cons hs' with ⟨_, hx, _⟩ | ⟨b, rfl, ht⟩
  · cases hx
  · rcases History.append_singleton_eq_append_cons ht with ⟨rfl, _, _⟩ | ⟨b', rfl, ht'⟩
    · exact ⟨code, [], rfl, hc⟩
    · obtain ⟨c, rest, rfl, hc'⟩ := h pre' bytes' b' ht'
      exact ⟨c, rest ++ [.payload bytes] ++ [.reply code], by simp, hc'⟩

theorem maybeAccepted_snoc {t : List Event} {e : Event} (h : maybeAccepted t) (he : e.quiet) :
    maybeAccepted (t ++ [e]) := by
  obtain ⟨pre, bytes, post, rfl, hr, hq⟩ := h
  refine ⟨pre, bytes, post ++ [e], by simp, hr, ?_⟩
  intro x hx
  rcases List.mem_append.mp hx with hx | hx
  · exact hq x hx
  · rw [List.mem_singleton.mp hx]
    exact he

theorem accepted_snoc {t : List Event} {e : Event} (h : accepted t) (he : e.quiet) :
    accepted (t ++ [e]) := by
  obtain ⟨pre, bytes, post, rfl, hr, hq⟩ := h
  refine ⟨pre, bytes, post ++ [e], by simp, hr, ?_⟩
  intro x hx
  rcases List.mem_append.mp hx with hx | hx
  · exact hq x hx
  · rw [List.mem_singleton.mp hx]
    exact he

/-- In such a trace the payload without a rejection is the last one, with no
host after it. -/
theorem quiet_after_the_doubtful_payload {t pre post : List Event} {bytes : Bytes}
    (h : maybeAccepted t) (ht : t = pre ++ .payload bytes :: post) (hn : ¬ rejectedNext post) :
    ∀ e ∈ post, e.quiet := by
  obtain ⟨pre0, bytes0, post0, h0, hr, hq⟩ := h
  rw [ht] at h0
  rcases List.append_eq_append_iff.mp h0 with ⟨as, rfl, has⟩ | ⟨as, rfl, has⟩
  · rcases as with _ | ⟨a, as⟩
    · simp only [List.nil_append, List.cons.injEq] at has
      rw [has.2]
      exact hq
    · -- A payload among the events that a server had rejected.
      simp only [List.cons_append, List.cons.injEq] at has
      obtain ⟨rfl, rfl⟩ := has
      obtain ⟨code, rest, rfl, hc⟩ := hr pre bytes as rfl
      exact absurd ⟨code, _, rfl, hc⟩ hn
  · rcases as with _ | ⟨a, as⟩
    · simp only [List.nil_append, List.cons.injEq] at has
      rw [← has.2]
      exact hq
    · simp only [List.cons_append, List.cons.injEq] at has
      obtain ⟨rfl, rfl⟩ := has
      exact absurd (hq (.payload bytes) (by simp)) id

/-! ## The specifications of the transports -/

/-- The exception says that the result is not known. -/
def Exc.unknown : Exc → Prop
  | .transport failure => failure.result_unknown = true
  | .interrupt => True
  | _ => False

/-- What holds of the trace when `e` is raised. -/
def raised (e : Exc) (t : List Event) : Prop := allRejected t ∨ (maybeAccepted t ∧ e.unknown)

def Rejecting : Net → Prop := On (fun t _ => allRejected t)

def Accepting : Net → Prop := On (fun t _ => accepted t)

def Raising (e : Exc) : Net → Prop := On (fun t _ => raised e t)

variable {α : Type}

theorem keeps_allRejected {e : Event} (he : ∀ bytes, e ≠ .payload bytes) :
    Keeps e (fun t _ => allRejected t) := fun _ _ h => allRejected_snoc h he

theorem keeps_raised {e : Event} {exc : Exc} (he : e.quiet) :
    Keeps e (fun t _ => raised exc t) := by
  rintro t q (h | ⟨h, hu⟩)
  · exact Or.inl (allRejected_snoc h (by rintro bytes rfl; exact he))
  · exact Or.inr ⟨maybeAccepted_snoc h he, hu⟩

/-- A piece that raises before any payload is in doubt. -/
theorem raising_of_rejecting {P : Net → Prop} {c : Op α} {Q : α → Net → Prop}
    (h : Meets P c Q (fun _ => Rejecting)) : Meets P c Q Raising :=
  h.mono (fun _ h => h) (fun _ _ h => h) (fun _ _ h => Or.inl h)

theorem raised_interrupt {e : Exc} {t : List Event} (h : raised e t) : raised .interrupt t := by
  rcases h with h | ⟨h, _⟩
  · exact Or.inl h
  · exact Or.inr ⟨h, trivial⟩

/-- A check that raises before any payload. -/
theorem throwIf_outcome {c : Prop} {_ : Decidable c} {e : Exc} :
    Meets Rejecting (onlyIf c (throw e)) (fun _ => Rejecting) Raising :=
  Meets.onlyIf (fun _ => Meets.throw (fun _ h => Or.inl h)) (fun _ _ h => h)

/-- The session keeps the classification of its body. -/
theorem session_outcome {body : Op α}
    (hb : Meets Rejecting body (fun _ => Accepting) Raising) :
    Meets Rejecting (smtp_session body) (fun _ => Accepting) Raising := by
  refine meets_session hb (fun _ => ?_) (fun e => keeps_raised trivial) ?_ ?_
  · exact ⟨fun _ _ h => accepted_snoc h trivial, fun _ _ h => accepted_snoc h trivial⟩
  · intro _ t _ h
    exact Or.inr ⟨h.maybe, trivial⟩
  · intro e t _ h
    exact raised_interrupt h

/-- The payload goes out and is answered, or it may have been accepted. -/
theorem send_payload_outcome (bytes : Bytes) :
    Meets Rejecting (send_payload bytes)
      (fun code => On (fun t _ => ∃ pre, t = pre ++ [.payload bytes, .reply code] ∧
        allRejected pre))
      (fun _ => On (fun t _ => maybeAccepted t)) := by
  unfold send_payload
  have hsent : ∀ t, (∃ pre, t = pre ++ [.payload bytes] ∧ allRejected pre) → maybeAccepted t := by
    rintro t ⟨pre, rfl, hr⟩
    exact ⟨pre, bytes, [], rfl, hr, by simp⟩
  refine Meets.bind (Q := fun _ => On (fun t _ => ∃ pre, t = pre ++ [.payload bytes] ∧
    allRejected pre)) (meets_note_last (fun t _ h => ⟨t, rfl, h⟩)) (fun _ => ?_)
  have hcall : Meets (On (fun t _ => ∃ pre, t = pre ++ [.payload bytes] ∧ allRejected pre))
      call (fun _ => On (fun t _ => ∃ pre, t = pre ++ [.payload bytes] ∧ allRejected pre))
      (fun _ => On (fun t _ => maybeAccepted t)) :=
    meets_call.mono (fun _ h => h) (fun _ _ h => h) (fun _ net h => hsent net.trace h)
  refine Meets.bind hcall (fun _ => Meets.bind hcall (fun a => ?_))
  refine Meets.bind (Q := fun _ => On (fun t _ => ∃ pre,
      t = pre ++ [.payload bytes, .reply a.code] ∧ allRejected pre))
    (meets_note_last ?_) (fun _ => Meets.pure (fun _ h => h))
  rintro t _ ⟨pre, rfl, hr⟩
  exact ⟨pre, by simp, hr⟩

/-- `send_smtp_data` returns only once a server answered 250. -/
theorem send_smtp_data_outcome (prepared : Except Exc Bytes)
    (envelope_from recipient_email : String) (owned : Bool) :
    Meets Rejecting (send_smtp_data prepared envelope_from recipient_email owned)
      (fun _ => Accepting) Raising := by
  have hcmd : ∀ verb argument, Keeps (.command verb argument) (fun t _ => allRejected t) :=
    fun _ _ => keeps_allRejected (by simp)
  have howner : Meets Rejecting (onlyIf owned before_data) (fun _ => Rejecting)
      (fun _ => Rejecting) := meets_onlyIf (meets_before_data (keeps_allRejected (by simp)))
  unfold send_smtp_data
  refine Meets.bind (Q := fun _ => Rejecting) ?_ (fun payload => ?_)
  · cases prepared with
    | ok b => exact Meets.pure (fun _ h => h)
    | error e => exact Meets.throw (fun _ h => Or.inl h)
  refine Meets.bind (raising_of_rejecting (meets_envelope (hcmd _ _))) (fun _ => ?_)
  refine Meets.bind (raising_of_rejecting (meets_envelope (hcmd _ _))) (fun _ => ?_)
  refine Meets.bind (raising_of_rejecting howner) (fun _ => ?_)
  refine Meets.bind (raising_of_rejecting (meets_command (hcmd _ _))) (fun code => ?_)
  refine Meets.bind throwIf_outcome (fun _ => ?_)
  refine Meets.bind (raising_of_rejecting howner) (fun _ => ?_)
  refine Meets.bind (meets_catching (send_payload_outcome _) ?_ ?_) (fun code => ?_)
  · exact fun _ h => Or.inr ⟨h, trivial⟩
  · exact fun _ _ => Meets.throw (fun _ h => Or.inr ⟨h, rfl⟩)
  · split
    · rename_i hcode
      refine Meets.pure ?_
      rintro net ⟨pre, ht, hr⟩
      exact ⟨pre, _, [], by rw [ht, hcode], hr, by simp⟩
    · split
      · rename_i hcode
        refine Meets.throw ?_
        rintro net ⟨pre, ht, hr⟩
        left
        rw [ht]
        exact allRejected_of_reply hr hcode
      · refine Meets.throw ?_
        rintro net ⟨pre, ht, hr⟩
        right
        refine ⟨⟨pre, _, [.reply code], ht, hr, ?_⟩, rfl⟩
        intro e he
        rw [List.mem_singleton.mp he]
        trivial

theorem smtp_factory_outcome (host : String) (port : Nat) (timeout : Int) :
    Meets Rejecting (smtp_factory host port timeout) (fun _ => Rejecting) Raising :=
  raising_of_rejecting (meets_noted_call (keeps_allRejected (by simp)))

theorem agreed_outcome (verb argument : String) :
    Meets Rejecting (agreed verb argument) (fun _ => Rejecting) Raising :=
  raising_of_rejecting (meets_agreed (keeps_allRejected (by simp)))

theorem login_outcome (username password : String) :
    Meets Rejecting (login username password) (fun _ => Rejecting) Raising :=
  raising_of_rejecting (meets_login (keeps_allRejected (by simp)))

/-- A failure in doubt stays in doubt when it is classified. -/
theorem raised_smtp_failure {e : Exc} {t : List Event} (he : e ≠ .interrupt) (h : raised e t) :
    raised (.transport (smtp_failure e)) t := by
  rcases h with h | ⟨h, hu⟩
  · exact Or.inl h
  · cases e with
    | transport failure => exact Or.inr ⟨h, hu⟩
    | interrupt => exact absurd rfl he
    | _ => exact absurd hu id

/-- A failure whose result is known left no payload in doubt. -/
theorem allRejected_of_known {e : Exc} {t : List Event} (he : e ≠ .interrupt) (h : raised e t)
    (hk : (smtp_failure e).result_unknown = false) : allRejected t := by
  rcases raised_smtp_failure he h with h | ⟨_, hu⟩
  · exact h
  · rw [Exc.unknown, hk] at hu
    exact absurd hu (by simp)

/-- One host of the self-hosted transport. -/
theorem deliver_outcome (prepared : Except Exc Bytes) (envelope_from recipient_email : String)
    (options : TransportOptions) (owned : Bool) (host : String) (port : Nat) :
    Meets Rejecting (SelfHostedSmtpTransport.deliver prepared envelope_from recipient_email
      options owned host port) (fun _ => Accepting) Raising := by
  unfold SelfHostedSmtpTransport.deliver
  simp only
  generalize normalized_host options.relay_host = relay_host
  generalize Text.strip options.username = username
  refine Meets.bind (smtp_factory_outcome _ _ _) (fun _ => ?_)
  refine Meets.bind (session_outcome ?_) (fun _ => Meets.pure (fun _ h => h))
  refine Meets.bind (agreed_outcome _ _) (fun _ => ?_)
  refine Meets.bind (raising_of_rejecting meets_starttls_offered) (fun offered => ?_)
  refine Meets.bind throwIf_outcome (fun _ => ?_)
  refine Meets.bind (Q := fun _ => Rejecting) ?_ (fun _ => ?_)
  · exact Meets.onlyIf (fun _ => Meets.bind (agreed_outcome _ _) (fun _ => agreed_outcome _ _))
      (fun _ _ h => h)
  refine Meets.bind (Q := fun _ => Rejecting) ?_ (fun _ => ?_)
  · exact Meets.onlyIf (fun _ => login_outcome _ _) (fun _ _ h => h)
  exact send_smtp_data_outcome _ _ _ _

theorem before_network_attempt_outcome (limit : Option Nat) :
    Meets Rejecting (before_network_attempt limit) (fun _ => Rejecting) Raising :=
  raising_of_rejecting (meets_before_network_attempt
    (fun _ => keeps_allRejected (by simp)) (fun _ _ => keeps_allRejected (by simp)))

/-- The loop over the candidates, by induction on the hosts that are left. -/
theorem tryCandidates_outcome (prepared : Except Exc Bytes)
    (envelope_from recipient_email : String) (options : TransportOptions) (limit : Option Nat)
    (owned : Bool) (hosts : List (String × Nat)) (last_error : Exc) :
    Meets Rejecting (SelfHostedSmtpTransport.tryCandidates prepared envelope_from
      recipient_email options limit owned hosts last_error) (fun _ => Accepting) Raising := by
  induction hosts generalizing last_error with
  | nil => exact Meets.throw (fun _ h => Or.inl h)
  | cons candidate rest ih =>
    obtain ⟨host, port⟩ := candidate
    unfold SelfHostedSmtpTransport.tryCandidates
    refine Meets.bind (before_network_attempt_outcome limit) (fun _ => ?_)
    refine meets_catching (deliver_outcome _ _ _ _ _ _ _) (fun _ h => h) (fun e he => ?_)
    simp only
    split
    · exact Meets.throw (fun _ h => raised_smtp_failure he h)
    · rename_i hk
      simp only [Bool.or_eq_true, not_or, Bool.not_eq_true] at hk
      exact (ih _).pre (fun _ h => allRejected_of_known he h hk.2)

theorem candidates_outcome (relay_host : String) (relay_port : Nat) (recipient_email : String) :
    Meets Rejecting (SelfHostedSmtpTransport.candidates relay_host relay_port recipient_email)
      (fun _ => Rejecting) Raising := by
  unfold SelfHostedSmtpTransport.candidates
  split
  · exact Meets.pure (fun _ h => h)
  · split
    · exact Meets.throw (fun _ h => Or.inl h)
    · refine Meets.bind (raising_of_rejecting (meets_mx_resolver ?_))
        (fun _ => Meets.pure (fun _ h => h))
      exact keeps_allRejected (by simp)

theorem self_hosted_outcome (prepared : Except Exc Bytes)
    (envelope_from recipient_email : String) (options : TransportOptions) (limit : Option Nat)
    (owned : Bool) :
    Meets Rejecting (SelfHostedSmtpTransport.send_prepared prepared envelope_from
      recipient_email options limit owned) (fun _ => Accepting) Raising := by
  unfold SelfHostedSmtpTransport.send_prepared
  simp only
  generalize normalized_host options.relay_host = relay_host
  generalize Text.strip options.username = username
  refine Meets.bind throwIf_outcome (fun _ => ?_)
  refine Meets.bind throwIf_outcome (fun _ => ?_)
  refine Meets.bind (candidates_outcome _ _ _) (fun hosts => ?_)
  refine Meets.bind throwIf_outcome (fun _ => ?_)
  exact tryCandidates_outcome _ _ _ _ _ _ _ _

theorem oci_outcome (prepared : Except Exc Bytes) (envelope_from recipient_email : String)
    (config : RelaySmtpConfig) (owned : Bool) :
    Meets Rejecting (OciEmailDeliveryTransport.send_prepared prepared envelope_from
      recipient_email config owned) (fun _ => Accepting) Raising := by
  unfold OciEmailDeliveryTransport.send_prepared
  refine Meets.bind throwIf_outcome (fun _ => ?_)
  refine Meets.bind (meets_catching (H := Raising) ?_ (fun _ h => h) ?_)
    (fun _ => Meets.pure (fun _ h => h))
  · refine Meets.bind (smtp_factory_outcome _ _ _) (fun _ => session_outcome ?_)
    refine Meets.bind (agreed_outcome _ _) (fun _ => ?_)
    refine Meets.bind (Q := fun _ => Rejecting) ?_ (fun _ => ?_)
    · refine Meets.onlyIf (fun _ => ?_) (fun _ _ h => h)
      refine Meets.bind (raising_of_rejecting meets_has_starttls) (fun offered => ?_)
      refine Meets.bind throwIf_outcome (fun _ => ?_)
      exact Meets.bind (agreed_outcome _ _) (fun _ => agreed_outcome _ _)
    refine Meets.bind (login_outcome _ _) (fun _ => ?_)
    exact send_smtp_data_outcome _ _ _ _
  · exact fun e he => Meets.throw (fun _ h => raised_smtp_failure he h)

theorem relay_outcome (message : Except Exc Bytes) (provider : Provider) (env : Envelope)
    (owned : Bool) :
    Meets Rejecting (SmtpRelayAdapter.send_prepared message provider env owned)
      (fun _ => Accepting) Raising := by
  unfold SmtpRelayAdapter.send_prepared
  refine meets_catching (H := Raising) ?_ (fun _ h => h) ?_
  · refine Meets.bind (smtp_factory_outcome _ _ _) (fun _ => ?_)
    refine Meets.bind (session_outcome ?_) (fun _ => Meets.pure (fun _ h => h))
    refine Meets.bind (agreed_outcome _ _) (fun _ => ?_)
    refine Meets.bind (Q := fun _ => Rejecting) ?_ (fun _ => ?_)
    · exact Meets.onlyIf (fun _ => Meets.bind (agreed_outcome _ _) (fun _ => agreed_outcome _ _))
        (fun _ _ h => h)
    refine Meets.bind (Q := fun _ => Rejecting) ?_ (fun _ => ?_)
    · exact Meets.onlyIf (fun _ => login_outcome _ _) (fun _ _ h => h)
    exact send_smtp_data_outcome _ _ _ _
  · exact fun e he => Meets.throw (fun _ h => raised_smtp_failure he h)

/-- The adapter returns only after a 250, over any of its transports. -/
theorem adapter_outcome (prepared : PreparedMailDelivery) (provider : Provider)
    (limit : Option Nat) (owned : Bool) :
    Meets Rejecting (MailProviderRoutingAdapter.send_prepared prepared provider limit owned)
      (fun _ => Accepting) Raising := by
  unfold MailProviderRoutingAdapter.send_prepared
  split
  · exact Meets.bind (self_hosted_outcome _ _ _ _ _ _) (fun _ => Meets.pure (fun _ h => h))
  · split
    · refine Meets.bind (before_network_attempt_outcome limit) (fun _ => ?_)
      exact Meets.bind (oci_outcome _ _ _ _ _) (fun _ => Meets.pure (fun _ h => h))
    · split
      · exact Meets.bind (before_network_attempt_outcome limit) (fun _ => relay_outcome _ _ _ _)
      · exact Meets.throw (fun _ h => Or.inl h)

/-! ## The results of the worker -/

/-- An exception in doubt makes the result `result_unknown`. -/
theorem resultOf_unknown {T : List Event → Quota → Prop} (provider : Provider) (attempt : Nat)
    {e : Exc} (he : e.unknown) :
    Meets (On T) (resultOf .send provider attempt e)
      (fun r net => On T net ∧ r.status = .result_unknown) (fun _ => On T) := by
  cases e with
  | transport failure =>
    have hu : failure.result_unknown = true := he
    unfold resultOf transportResult
    simp only [reduceCtorEq, if_false, hu, if_true]
    exact Meets.pure (fun _ h => ⟨h, rfl⟩)
  | interrupt => exact Meets.throw (fun _ h => h)
  | _ => exact absurd he id

/-- What a delivery ends with: accepted and `sent`, in doubt and
`result_unknown`, or rejected by every server and not `sent`. -/
def settled (r : DeliveryResult) (t : List Event) : Prop :=
  (accepted t ∧ r.status = .sent) ∨ (maybeAccepted t ∧ r.status = .result_unknown) ∨
    (allRejected t ∧ r.status ≠ .sent)

theorem deliver_claimed_outcome
    (prepare : Envelope → Provider → Except Exc PreparedMailDelivery) (limit : Option Nat)
    (owned : Bool) (job : DeliveryJob) (provider : Provider) :
    Meets Rejecting (deliver_claimed prepare limit owned job provider)
      (fun r => On (fun t _ => settled r t))
      (fun _ => On (fun t _ => allRejected t ∨ maybeAccepted t)) := by
  have hclean : ∀ phase e, Meets Rejecting
      (resultOf phase provider (job.attempt_count + 1) e)
      (fun r => On (fun t _ => settled r t))
      (fun _ => On (fun t _ => allRejected t ∨ maybeAccepted t)) := fun phase e =>
    (resultOf_not_sent phase provider _ e).mono (fun _ h => h)
      (fun _ _ h => Or.inr (Or.inr h)) (fun _ _ h => Or.inl h)
  unfold deliver_claimed
  split
  · exact Meets.pure (fun _ h => Or.inr (Or.inr ⟨h, by simp⟩))
  split
  · exact Meets.pure (fun _ h => Or.inr (Or.inr ⟨h, by simp⟩))
  simp only
  split
  · exact hclean _ _
  refine Meets.bind (Q := fun r net => After (fun _ => Accepting) Raising (r, net))
    (Meets.attempt (adapter_outcome _ _ _ _)) (fun r => ?_)
  rcases r with e | response
  · rintro net (h | ⟨h, hu⟩)
    · exact hclean .send e net h
    · have hdoubt := resultOf_unknown (T := fun t _ => maybeAccepted t) provider
        (job.attempt_count + 1) hu
      exact hdoubt.mono (fun _ h => h) (fun _ _ h => Or.inr (Or.inl h)) (fun _ _ h => Or.inr h)
        net h
  · exact Meets.pure (fun _ h => Or.inl ⟨h, rfl⟩)

theorem no_host_of_quiet {post : List Event} (h : ∀ e ∈ post, e.quiet) (host : String)
    (port : Nat) (timeout : Int) : Event.connect host port timeout ∉ post :=
  fun hm => h _ hm

/-- For every way in which the network, the servers, the callbacks and the
quota can answer: after a payload that was not explicitly rejected the result
is `sent` or `result_unknown`, and no host is contacted; `sent` means that a
server answered 250; and any other result means that every server that got
the payload rejected it. -/
theorem no_retry_after_a_possible_acceptance
    (prepare : Envelope → Provider → Except Exc PreparedMailDelivery) (limit : Option Nat)
    (owned : Bool) (job : DeliveryJob) (provider : Provider) (answers : List Answer)
    (quota : Quota) :
    ∃ outcome net, (deliver_claimed prepare limit owned job provider).exec ⟨[], answers, quota⟩
        = (outcome, net) ∧
      (∀ pre bytes post, net.trace = pre ++ .payload bytes :: post → ¬ rejectedNext post →
        (∀ r, outcome = .ok r → r.status = .sent ∨ r.status = .result_unknown) ∧
        ∀ host port timeout, Event.connect host port timeout ∉ post) ∧
      (∀ r, outcome = .ok r → r.status = .sent →
        ∃ pre bytes post, net.trace = pre ++ .payload bytes :: .reply 250 :: post) ∧
      (∀ r, outcome = .ok r → r.status ≠ .sent → r.status ≠ .result_unknown →
        ∀ pre bytes post, net.trace = pre ++ .payload bytes :: post → rejectedNext post) := by
  have hstart : Rejecting ⟨[], answers, quota⟩ := by
    intro pre bytes post h
    simp at h
  have hrun := deliver_claimed_outcome prepare limit owned job provider _ hstart
  revert hrun
  rcases (deliver_claimed prepare limit owned job provider).exec ⟨[], answers, quota⟩ with
    ⟨e | r, net⟩
  · intro h
    refine ⟨.error e, net, rfl, ?_, by simp, by simp⟩
    intro pre bytes post ht hn
    refine ⟨by simp, ?_⟩
    rcases h with h | h
    · exact absurd (h pre bytes post ht) hn
    · exact no_host_of_quiet (quiet_after_the_doubtful_payload h ht hn)
  · intro h
    refine ⟨.ok r, net, rfl, ?_, ?_, ?_⟩
    · intro pre bytes post ht hn
      rcases h with ⟨h, hs⟩ | ⟨h, hs⟩ | ⟨h, _⟩
      · refine ⟨?_, no_host_of_quiet (quiet_after_the_doubtful_payload h.maybe ht hn)⟩
        rintro _ ⟨rfl⟩
        exact Or.inl hs
      · refine ⟨?_, no_host_of_quiet (quiet_after_the_doubtful_payload h ht hn)⟩
        rintro _ ⟨rfl⟩
        exact Or.inr hs
      · exact absurd (h pre bytes post ht) hn
    · rintro _ ⟨rfl⟩ hsent
      rcases h with ⟨h, _⟩ | ⟨_, hs⟩ | ⟨_, hs⟩
      · obtain ⟨pre, bytes, post, ht, _⟩ := h
        exact ⟨pre, bytes, post, ht⟩
      · rw [hsent] at hs
        cases hs
      · exact absurd hsent hs
    · rintro _ ⟨rfl⟩ hsent hunknown pre bytes post ht
      rcases h with ⟨_, hs⟩ | ⟨_, hs⟩ | ⟨h, _⟩
      · exact absurd hs hsent
      · exact absurd hs hunknown
      · exact h pre bytes post ht

end moaworks.mail_transports
