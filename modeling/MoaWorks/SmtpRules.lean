-- Rules for the pieces of the transports: what one call outside keeps, and
-- how the handlers and the session pass on what their body ends with.
import MoaWorks.DeliveryWorker

namespace moaworks.mail_transports

open Program mail_daily_send_quota mail_delivery_service

/-- A statement about the trace and the quota. The answers to come are no
part of it, so that a call that only takes an answer keeps it. -/
def On (T : List Event → Quota → Prop) (net : Net) : Prop := T net.trace net.quota

/-- An event keeps a statement when it holds with the event added. -/
def Keeps (e : Event) (T : List Event → Quota → Prop) : Prop :=
  ∀ t q, T t q → T (t ++ [e]) q

variable {T : List Event → Quota → Prop} {α : Type}

theorem meets_note {e : Event} {E : Exc → Net → Prop} (h : Keeps e T) :
    Meets (On T) (note e) (fun _ => On T) E := by
  unfold note
  apply Meets.modify
  intro net hnet
  exact h net.trace net.quota hnet

/-- After `note e` the trace ends with `e`. -/
theorem meets_note_last {e : Event} {U : List Event → Quota → Prop} {E : Exc → Net → Prop}
    (h : ∀ t q, T t q → U (t ++ [e]) q) : Meets (On T) (note e) (fun _ => On U) E := by
  unfold note
  apply Meets.modify
  intro net hnet
  exact h net.trace net.quota hnet

theorem meets_answer {E : Exc → Net → Prop} : Meets (On T) answer (fun _ => On T) E := by
  unfold answer
  intro net hnet
  rw [exec_bind, exec_get]
  rcases h : net.answers with _ | ⟨a, rest⟩
  · simp only [h]
    exact hnet
  · simp only [h]
    exact hnet

theorem meets_call : Meets (On T) call (fun _ => On T) (fun _ => On T) := by
  unfold call
  refine Meets.bind meets_answer (fun a => ?_)
  split
  · exact Meets.throw (fun _ h => h)
  · exact Meets.pure (fun _ h => h)

/-- One event, and a call that may raise. -/
theorem meets_noted_call {e : Event} (h : Keeps e T) :
    Meets (On T) (do note e; let _ ← call) (fun _ => On T) (fun _ => On T) := by
  refine Meets.bind (meets_note h) (fun _ => ?_)
  exact Meets.bind meets_call (fun _ => Meets.pure (fun _ h => h))

theorem meets_command {verb argument : String} (h : Keeps (.command verb argument) T) :
    Meets (On T) (command verb argument) (fun _ => On T) (fun _ => On T) := by
  unfold command
  refine Meets.bind (meets_note h) (fun _ => ?_)
  exact Meets.bind meets_call (fun _ => Meets.pure (fun _ h => h))

theorem meets_agreed {verb argument : String} (h : Keeps (.command verb argument) T) :
    Meets (On T) (agreed verb argument) (fun _ => On T) (fun _ => On T) :=
  meets_noted_call h

theorem meets_login {username password : String} (h : Keeps (.login username password) T) :
    Meets (On T) (login username password) (fun _ => On T) (fun _ => On T) :=
  meets_noted_call h

theorem meets_before_data (h : Keeps .owner_check T) :
    Meets (On T) before_data (fun _ => On T) (fun _ => On T) :=
  meets_noted_call h

theorem meets_has_starttls : Meets (On T) has_starttls (fun _ => On T) (fun _ => On T) := by
  unfold has_starttls
  exact Meets.bind meets_call (fun _ => Meets.pure (fun _ h => h))

theorem meets_starttls_offered {asked : Bool} :
    Meets (On T) (starttls_offered asked) (fun _ => On T) (fun _ => On T) := by
  unfold starttls_offered
  split
  · exact meets_has_starttls
  · exact Meets.pure (fun _ h => h)

theorem meets_mx_resolver {domain : String} (h : Keeps (.lookup domain) T) :
    Meets (On T) (SelfHostedSmtpTransport.mx_resolver domain) (fun _ => On T)
      (fun _ => On T) := by
  unfold SelfHostedSmtpTransport.mx_resolver
  refine Meets.bind (meets_note h) (fun _ => ?_)
  exact Meets.bind meets_call (fun _ => Meets.pure (fun _ h => h))

theorem meets_envelope {verb value : String} (h : Keeps (.command verb value) T) :
    Meets (On T) (envelope verb value) (fun _ => On T) (fun _ => On T) := by
  unfold envelope
  refine Meets.bind (meets_command h) (fun code => ?_)
  split
  · exact Meets.pure (fun _ h => h)
  · exact Meets.throw (fun _ h => h)

theorem meets_onlyIf {c : Prop} {_ : Decidable c} {op : Op Unit}
    (h : Meets (On T) op (fun _ => On T) (fun _ => On T)) :
    Meets (On T) (onlyIf c op) (fun _ => On T) (fun _ => On T) :=
  Meets.onlyIf (fun _ => h) (fun _ _ h => h)

/-- The callback of the quota, for a statement that does not speak of the quota. -/
theorem meets_before_network_attempt {S : List Event → Prop} {limit : Option Nat}
    (hr : ∀ d, Keeps (.reserved d) (fun t _ => S t))
    (hf : ∀ clock e, Keeps (.refused clock e) (fun t _ => S t)) :
    Meets (On (fun t _ => S t)) (before_network_attempt limit) (fun _ => On (fun t _ => S t))
      (fun _ => On (fun t _ => S t)) := by
  unfold before_network_attempt
  rcases limit with _ | limit
  · exact Meets.pure (fun _ h => h)
  · unfold reserve_attempt
    refine Meets.bind meets_answer (fun a => ?_)
    refine Meets.bind Meets.get (fun net => ?_)
    refine Meets.bind (Q := fun _ => On (fun t _ => S t)) (Meets.modify (fun _ h => h.2))
      (fun _ => ?_)
    split
    · exact meets_note (hr _)
    · exact Meets.bind (meets_note (hf _ _)) (fun _ => Meets.throw (fun _ h => h))
    · exact Meets.bind (meets_note (hf _ _)) (fun _ => Meets.throw (fun _ h => h))

/-- The rule of `try .. except Exception`. -/
theorem meets_catching {P : Net → Prop} {body : Op α} {handler : Exc → Op α}
    {Q : α → Net → Prop} {H E : Exc → Net → Prop} (hb : Meets P body Q H)
    (hi : ∀ net, H .interrupt net → E .interrupt net)
    (hh : ∀ e, e ≠ .interrupt → Meets (H e) (handler e) Q E) :
    Meets P (catching body handler) Q E := by
  unfold catching
  refine Meets.bind (Q := fun r net => match r with | .ok a => Q a net | .error e => H e net)
    (Meets.attempt hb) (fun r => ?_)
  rcases r with e | a
  · cases e with
    | interrupt => exact Meets.throw hi
    | _ => exact hh _ (by simp)
  · exact Meets.pure (fun _ h => h)

theorem meets_quietly {P : Net → Prop} {E : Exc → Net → Prop} {body : Op Unit}
    (hb : Meets P body (fun _ => P) (fun _ => P)) (hi : ∀ net, P net → E .interrupt net) :
    Meets P (quietly body) (fun _ => P) E :=
  meets_catching hb hi (fun _ _ => Meets.pure (fun _ h => h))

/-- The rule of the session: QUIT and close keep what the body ended with. -/
theorem meets_session {P : Net → Prop} {body : Op α} {Q : α → List Event → Quota → Prop}
    {E : Exc → List Event → Quota → Prop}
    (hb : Meets P body (fun a => On (Q a)) (fun e => On (E e)))
    (hQ : ∀ a, Keeps .quit (Q a) ∧ Keeps .close (Q a)) (hE : ∀ e, Keeps .close (E e))
    (hQi : ∀ a t q, Q a t q → E .interrupt t q) (hEi : ∀ e t q, E e t q → E .interrupt t q) :
    Meets P (smtp_session body) (fun a => On (Q a)) (fun e => On (E e)) := by
  unfold smtp_session
  refine Meets.bind (Q := fun r => match r with | .ok a => On (Q a) | .error e => On (E e))
    (Meets.attempt hb) (fun r => ?_)
  rcases r with e | a
  · refine Meets.bind (meets_quietly (meets_noted_call (hE e)) (fun net h => hEi e _ _ h))
      (fun _ => ?_)
    exact Meets.throw (fun _ h => h)
  · have hquit : Meets (On (Q a)) quit (fun _ => On (Q a)) (fun _ => On (Q a)) :=
      meets_noted_call (hQ a).1
    refine Meets.bind (Q := fun _ => On (Q a)) (Meets.attempt hquit) (fun left => ?_)
    refine Meets.bind (meets_quietly (meets_noted_call (hQ a).2) (fun net h => hQi a _ _ h))
      (fun _ => ?_)
    split
    · exact Meets.throw (fun net h => hQi a _ _ h)
    · exact Meets.pure (fun _ h => h)

/-! ## The handlers of the worker -/

theorem datetime_now_keeps {T : List Event → Quota → Prop} {E : Exc → Net → Prop} :
    Meets (On T) datetime_now (fun _ => On T) E := by
  unfold datetime_now
  exact Meets.bind meets_answer (fun _ => Meets.pure (fun _ h => h))

/-- An exception never makes the result `sent`. -/
theorem resultOf_not_sent {T : List Event → Quota → Prop} (phase : Phase) (provider : Provider)
    (attempt : Nat) (e : Exc) :
    Meets (On T) (resultOf phase provider attempt e)
      (fun r net => On T net ∧ r.status ≠ .sent) (fun _ => On T) := by
  have htransport : ∀ failure, Meets (On T) (transportResult phase failure provider attempt)
      (fun r net => On T net ∧ r.status ≠ .sent) (fun _ => On T) := by
    intro failure
    unfold transportResult
    split
    · exact Meets.pure (fun _ h => ⟨h, by simp [prepareFailed]⟩)
    · simp only
      split
      · exact Meets.pure (fun _ h => ⟨h, by simp⟩)
      · split
        · refine Meets.bind datetime_now_keeps (fun now => ?_)
          refine Meets.bind (Q := fun _ => On T)
            (Meets.onlyIf (fun _ => Meets.throw (fun _ h => h)) (fun _ _ h => h)) (fun _ => ?_)
          exact Meets.pure (fun _ h => ⟨h, by simp⟩)
        · exact Meets.pure (fun _ h => ⟨h, by simp⟩)
  cases e with
  | transport failure => exact htransport failure
  | relay message transient => exact htransport ⟨message, transient, false⟩
  | quota_limit reset_at => exact Meets.pure (fun _ h => ⟨h, by simp⟩)
  | quota_unavailable =>
    exact Meets.bind datetime_now_keeps (fun _ => Meets.pure (fun _ h => ⟨h, by simp⟩))
  | interrupt => exact Meets.throw (fun _ h => h)
  | _ =>
    refine Meets.pure (fun _ h => ⟨h, ?_⟩)
    split <;> simp [prepareFailed]

end moaworks.mail_transports
