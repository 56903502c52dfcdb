-- The laws of the mobile session: what one step of the app may do to it, and from that what holds
-- whichever way the calls and their responses overlap.
import MoaWorks.MobileSession

namespace moaworks.auth_session

variable {c : Controller} {context : Context} {attempt : Attempt} {token : Token} {w : World}
  {l : Nat}

/-! ## Small facts of the definitions -/

theorem isCurrent_iff :
    isCurrent c context = true ↔
      context.generation = c.generation ∧ context.token = c.activeToken := by
  simp [isCurrent]

theorem isCurrent_of_lt (h : context.generation < c.generation) : isCurrent c context = false := by
  simp [isCurrent, Nat.ne_of_lt h]

theorem isAttemptCurrent_iff :
    isAttemptCurrent c attempt = true ↔ attempt.generation = c.generation := by
  simp [isAttemptCurrent]

theorem commitLogin_of {c' : Controller} (h : commitLogin c attempt token = some (c', context)) :
    attempt.generation = c.generation ∧ c' = ⟨c.generation, token⟩ ∧
      context = ⟨c.generation, token⟩ := by
  unfold commitLogin at h
  split_ifs at h with hc
  · simp only [Option.some.injEq, Prod.mk.injEq] at h
    exact ⟨isAttemptCurrent_iff.mp hc, h.1.symm, h.2.symm⟩

theorem requestForAttempt_cleared {α : Type} {c' : Controller} {response : Response α}
    (h : requestForAttempt c attempt response = (c', true)) :
    attempt.generation = c.generation ∧ c' = logout c := by
  unfold requestForAttempt clearAttemptIfCurrent at h
  split_ifs at h with _ hc
  · exact ⟨isAttemptCurrent_iff.mp hc, (congrArg Prod.fst h).symm⟩
  · simp at h
  · simp at h

theorem requestForSession_cleared {α : Type} {c' : Controller} {response : Response α}
    (h : requestForSession c context response = (c', true)) :
    isCurrent c context = true ∧ c' = logout c := by
  unfold requestForSession clearSessionIfCurrent at h
  split_ifs at h with _ hc
  · exact ⟨hc, (congrArg Prod.fst h).symm⟩
  · simp at h
  · simp at h

theorem put_self {α : Type} (f : Nat → Option α) (k : Nat) (a : α) : put f k a k = some a :=
  if_pos rfl

theorem put_ne {α : Type} (f : Nat → Option α) {k j : Nat} (a : α) (h : j ≠ k) :
    put f k a j = f j := if_neg h

/-- What holds of all values, and of the new one, holds of all values afterwards. -/
theorem put_all {α : Type} {f : Nat → Option α} {k : Nat} {a : α} {P : Nat → α → Prop}
    (h : ∀ j b, f j = some b → P j b) (ha : P k a) : ∀ j b, put f k a j = some b → P j b := by
  intro j b hb
  rcases eq_or_ne j k with rfl | hne
  · rw [put_self] at hb
    cases hb
    exact ha
  · rw [put_ne f a hne] at hb
    exact h j b hb

@[simp] theorem controller_setLogin (w : World) (l : Nat) (x : Login) :
    (w.setLogin l x).controller = w.controller := rfl

@[simp] theorem controller_setRequest (w : World) (r : Nat) (x : Request) :
    (w.setRequest r x).controller = w.controller := rfl

@[simp] theorem controller_setSequence (w : World) (s : Nat) (x : Sequence) :
    (w.setSequence s x).controller = w.controller := rfl

/-! ## The step, call by call -/

/-- What one event does, said by the four ways in which the session may change and by the call that
goes on. -/
inductive Effect (w : World) : Event → World → Prop
  | begun {l : Nat} : w.logins l = none →
    Effect w (.login l) { w.setLogin l (.requesting (beginLogin w.controller).2) with
      controller := (beginLogin w.controller).1
      owner := some l
      session := none }
  | login {e : Event} {l : Nat} {old new : Login} {attempt : Attempt} :
    w.logins l = some old → old.attempt = some attempt →
    (∀ a, new.attempt = some a → a = attempt) → Effect w e (w.setLogin l new)
  | committed {l : Nat} {attempt : Attempt} {token : Token} {user : String} :
    w.logins l = some (.answered attempt token user) →
    attempt.generation = w.controller.generation →
    Effect w (.resume_login l) { w.setLogin l .done with
      controller := ⟨w.controller.generation, token⟩
      session := some ⟨l, ⟨w.controller.generation, token⟩⟩
      log := .committed l ⟨w.controller.generation, token⟩ user w.owner :: w.log }
  | refused {l : Nat} {attempt : Attempt} {token : Token} {response : Response String} :
    w.logins l = some (.identifying attempt token) →
    attempt.generation = w.controller.generation →
    Effect w (.me_response l response)
      ((w.setLogin l .done).clear (logout w.controller) (.attempt l))
  | logout : Effect w .logout (w.clear (logout w.controller) .logout)
  | capture {k : Nat} {token : Token} : w.contexts k = none →
    Effect w (.capture k token)
      { w with contexts := put w.contexts k (auth_session.capture w.controller token) }
  | send {r k : Nat} {applies : Bool} {context : Context} :
    w.requests r = none → w.contexts k = some context →
    Effect w (.send r k applies) (w.setRequest r (.waiting context applies))
  | request {e : Event} {r : Nat} {old new : Request} {context : Context} :
    w.requests r = some old → old.context = some context →
    (∀ c, new.context = some c → c = context) → Effect w e (w.setRequest r new)
  | expired {r : Nat} {context : Context} {applies : Bool} {response : Response String} :
    w.requests r = some (.waiting context applies) → isCurrent w.controller context = true →
    Effect w (.respond r response)
      ((w.setRequest r .done).clear (logout w.controller) (.request context))
  | applied {r : Nat} {context : Context} {value : String} :
    w.requests r = some (.resolved context value) → isCurrent w.controller context = true →
    Effect w (.resume_request r)
      { w.setRequest r .done with log := .applied context value w.session :: w.log }
  | initial {s k tasks : Nat} {new : Sequence} {context : Context} :
    w.sequences s = none → w.contexts k = some context →
    (∀ c left, new = .running c left → c = context ∧ tasks = left + 1) →
    Effect w (.initial s k tasks) (w.setSequence s new)
  | sequence {e : Event} {s left : Nat} {context : Context} :
    w.sequences s = some (.running context left) → Effect w e (w.setSequence s .done)
  | started {s left : Nat} {context : Context} {ok : Bool} :
    w.sequences s = some (.running context (left + 1)) → isCurrent w.controller context = true →
    Effect w (.task_done s ok)
      { w.setSequence s (.running context left) with
        log := .started context w.session :: w.log }

theorem effect_afterLogin (e : Event) (h : w.logins l = some (.requesting attempt))
    (response : Response Token) : Effect w e (afterLogin w l attempt response) := by
  cases response with
  | ok token =>
    refine Effect.login h rfl ?_
    intro a ha
    split_ifs at ha
    · cases ha
      rfl
    · cases ha
  | failed status => exact Effect.login h rfl nofun
  | rejected => exact Effect.login h rfl nofun

theorem effect_requestForAttempt (h : w.logins l = some (.identifying attempt token))
    (response error : Response String) : Effect w (.me_response l response)
      (match requestForAttempt w.controller attempt error with
      | (controller, true) => (w.setLogin l .done).clear controller (.attempt l)
      | (_, false) => w.setLogin l .done) := by
  rcases hr : requestForAttempt w.controller attempt error with ⟨controller, cleared⟩
  cases cleared with
  | false => exact Effect.login h rfl (fun _ ha => (by cases ha))
  | true =>
    obtain ⟨hgen, rfl⟩ := requestForAttempt_cleared hr
    exact Effect.refused h hgen

theorem effect_afterMe (h : w.logins l = some (.identifying attempt token))
    (response : Response String) :
    Effect w (.me_response l response) (afterMe w l attempt token response) := by
  cases response with
  | ok user =>
    refine Effect.login h rfl ?_
    intro a ha
    cases ha
    rfl
  | failed status => exact effect_requestForAttempt h _ (.failed status)
  | rejected => exact effect_requestForAttempt h _ .rejected

theorem effect_afterAnswer {user : String} (h : w.logins l = some (.answered attempt token user)) :
    Effect w (.resume_login l) (afterAnswer w l attempt token user) := by
  unfold afterAnswer
  rcases hc : commitLogin w.controller attempt token with _ | ⟨controller, context⟩
  · exact Effect.login h rfl nofun
  · obtain ⟨hgen, rfl, rfl⟩ := commitLogin_of hc
    exact Effect.committed h hgen

theorem effect_requestForSession {r : Nat} {applies : Bool}
    (h : w.requests r = some (.waiting context applies)) (response error : Response String) :
    Effect w (.respond r response) (match requestForSession w.controller context error with
      | (controller, true) => (w.setRequest r .done).clear controller (.request context)
      | (_, false) => w.setRequest r .done) := by
  rcases hr : requestForSession w.controller context error with ⟨controller, cleared⟩
  cases cleared with
  | false => exact Effect.request h rfl (fun _ hc => (by cases hc))
  | true =>
    obtain ⟨hcurrent, rfl⟩ := requestForSession_cleared hr
    exact Effect.expired h hcurrent

theorem effect_afterRequest {r : Nat} {applies : Bool}
    (h : w.requests r = some (.waiting context applies)) (response : Response String) :
    Effect w (.respond r response) (afterRequest w r context applies response) := by
  cases response with
  | ok value =>
    refine Effect.request h rfl ?_
    intro c hc
    split_ifs at hc
    · cases hc
      rfl
    · cases hc
  | failed status => exact effect_requestForSession h _ (.failed status)
  | rejected => exact effect_requestForSession h _ .rejected

theorem effect_applyProtectedResponse {r : Nat} {value : String}
    (h : w.requests r = some (.resolved context value)) :
    Effect w (.resume_request r) (applyProtectedResponse w r context value) := by
  unfold applyProtectedResponse
  split_ifs with hc
  · exact Effect.applied h hc
  · exact Effect.request h rfl nofun

theorem effect_runInitialRequests {s left : Nat} {ok : Bool}
    (h : w.sequences s = some (.running context left)) :
    Effect w (.task_done s ok) (runInitialRequests w s context left ok) := by
  unfold runInitialRequests
  split_ifs with hc
  · cases left with
    | zero => exact Effect.sequence h
    | succ left => exact Effect.started h (Bool.and_eq_true_iff.mp hc).2
  · exact Effect.sequence h

theorem effect_of_step {w' : World} {e : Event} (h : step w e = some w') : Effect w e w' := by
  cases e with
  | login l =>
    simp only [step] at h
    rcases hl : w.logins l with _ | x <;> rw [hl] at h
    · cases h
      exact Effect.begun hl
    · cases h
  | login_response l response =>
    simp only [step] at h
    rcases hl : w.logins l with _ | _ | _ | _ | _ <;> rw [hl] at h <;> cases h
    exact effect_afterLogin _ hl response
  | me_response l response =>
    simp only [step] at h
    rcases hl : w.logins l with _ | _ | _ | _ | _ <;> rw [hl] at h <;> cases h
    exact effect_afterMe hl response
  | resume_login l =>
    simp only [step] at h
    rcases hl : w.logins l with _ | _ | _ | _ | _ <;> rw [hl] at h <;> cases h
    exact effect_afterAnswer hl
  | logout =>
    cases h
    exact Effect.logout
  | capture k token =>
    simp only [step] at h
    rcases hk : w.contexts k with _ | x <;> rw [hk] at h <;> cases h
    exact Effect.capture hk
  | send r k applies =>
    simp only [step] at h
    rcases hr : w.requests r with _ | x <;> rcases hk : w.contexts k with _ | context <;>
      rw [hr, hk] at h <;> cases h
    exact Effect.send hr hk
  | respond r response =>
    simp only [step] at h
    rcases hr : w.requests r with _ | _ | _ | _ <;> rw [hr] at h <;> cases h
    exact effect_afterRequest hr response
  | resume_request r =>
    simp only [step] at h
    rcases hr : w.requests r with _ | _ | _ | _ <;> rw [hr] at h <;> cases h
    exact effect_applyProtectedResponse hr
  | initial s k tasks =>
    simp only [step] at h
    rcases hs : w.sequences s with _ | x <;> rcases hk : w.contexts k with _ | context <;>
      rw [hs, hk] at h <;> cases h
    refine Effect.initial hs hk ?_
    intro c left hc
    cases tasks with
    | zero => cases hc
    | succ tasks =>
      cases hc
      exact ⟨rfl, rfl⟩
  | task_done s ok =>
    simp only [step] at h
    rcases hs : w.sequences s with _ | _ | _ <;> rw [hs] at h <;> cases h
    exact effect_runInitialRequests hs

/-! ## What holds in every run -/

structure Ordered (w : World) : Prop where
  session : ∀ s, w.session = some s → w.owner = some s.login ∧
    s.context = ⟨w.controller.generation, w.controller.activeToken⟩ ∧
    w.logins s.login = some .done
  no_session : w.session = none → w.controller.activeToken = some ""
  attempts : ∀ l x, w.logins l = some x → ∀ a, x.attempt = some a →
    a.generation ≤ w.controller.generation ∧
    (a.generation = w.controller.generation → w.owner = some l ∧ w.session = none)
  contexts : ∀ k c, w.contexts k = some c → c.generation ≤ w.controller.generation
  requests : ∀ r x, w.requests r = some x → ∀ c, x.context = some c →
    c.generation ≤ w.controller.generation
  sequences : ∀ s x, w.sequences s = some x → ∀ c, x.context = some c →
    c.generation ≤ w.controller.generation

theorem Ordered.setRequest {r : Nat} {x : Request} (h : Ordered w)
    (hx : ∀ c, x.context = some c → c.generation ≤ w.controller.generation) :
    Ordered (w.setRequest r x) :=
  { h with requests := put_all h.requests hx }

theorem Ordered.setSequence {s : Nat} {x : Sequence} (h : Ordered w)
    (hx : ∀ c, x.context = some c → c.generation ≤ w.controller.generation) :
    Ordered (w.setSequence s x) :=
  { h with sequences := put_all h.sequences hx }

/-- A login that has not ended is not the one of the session. -/
theorem Ordered.session_ne {x : Login} (h : Ordered w) (hl : w.logins l = some x)
    (ha : x.attempt = some attempt) (s : Session) (hs : w.session = some s) : s.login ≠ l := by
  rintro rfl
  have hdone := (h.session s hs).2.2
  rw [hl] at hdone
  cases hdone
  cases ha

theorem Ordered.setLogin {old new : Login} (h : Ordered w) (hl : w.logins l = some old)
    (ha : old.attempt = some attempt) (hnew : ∀ a, new.attempt = some a → a = attempt) :
    Ordered (w.setLogin l new) := by
  refine { h with session := ?_, attempts := put_all h.attempts ?_ }
  · intro s hs
    obtain ⟨howner, hcontext, hdone⟩ := h.session s hs
    exact ⟨howner, hcontext, (put_ne w.logins new (h.session_ne hl ha s hs)).trans hdone⟩
  · intro a hsome
    rw [hnew a hsome]
    exact h.attempts l old hl attempt ha

/-- A new generation leaves all that is on its way behind. -/
theorem Ordered.clear (h : Ordered w) (cause : Cause) :
    Ordered (w.clear (logout w.controller) cause) where
  session := nofun
  no_session _ := rfl
  attempts l x hl a ha := by
    have hle := (h.attempts l x hl a ha).1
    exact ⟨Nat.le_succ_of_le hle, fun heq => absurd heq (Nat.ne_of_lt (Nat.lt_succ_of_le hle))⟩
  contexts k c hk := Nat.le_succ_of_le (h.contexts k c hk)
  requests r x hr c hc := Nat.le_succ_of_le (h.requests r x hr c hc)
  sequences s x hs c hc := Nat.le_succ_of_le (h.sequences s x hs c hc)

theorem Ordered.begin (h : Ordered w) :
    Ordered { w.setLogin l (.requesting (beginLogin w.controller).2) with
      controller := (beginLogin w.controller).1
      owner := some l
      session := none } where
  session := nofun
  no_session _ := rfl
  attempts := by
    refine put_all (P := fun j (x : Login) => ∀ a : Attempt, x.attempt = some a →
      a.generation ≤ w.controller.generation + 1 ∧
      (a.generation = w.controller.generation + 1 → some l = some j ∧ (none : Option Session) = none))
      ?_ ?_
    · intro j x hj a ha
      have hle := (h.attempts j x hj a ha).1
      exact ⟨Nat.le_succ_of_le hle, fun heq => absurd heq (Nat.ne_of_lt (Nat.lt_succ_of_le hle))⟩
    · intro a ha
      cases ha
      exact ⟨Nat.le_refl _, fun _ => ⟨rfl, rfl⟩⟩
  contexts k c hk := Nat.le_succ_of_le (h.contexts k c hk)
  requests r x hr c hc := Nat.le_succ_of_le (h.requests r x hr c hc)
  sequences s x hs c hc := Nat.le_succ_of_le (h.sequences s x hs c hc)

theorem Ordered.commit {user : String} (h : Ordered w)
    (hl : w.logins l = some (.answered attempt token user))
    (hgen : attempt.generation = w.controller.generation) (log : List Entry) :
    Ordered { w.setLogin l .done with
      controller := ⟨w.controller.generation, token⟩
      session := some ⟨l, ⟨w.controller.generation, token⟩⟩
      log := log } := by
  have howner := ((h.attempts l _ hl attempt rfl).2 hgen).1
  refine { h with session := ?_, no_session := nofun, attempts := ?_ }
  · intro s hs
    cases hs
    exact ⟨howner, rfl, put_self _ _ _⟩
  · intro j x hj a ha
    rcases eq_or_ne j l with rfl | hne
    · have hdone : put w.logins j .done j = some x := hj
      rw [put_self] at hdone
      cases hdone
      cases ha
    · have hold : w.logins j = some x := (put_ne w.logins .done hne).symm.trans hj
      obtain ⟨hle, hlast⟩ := h.attempts j x hold a ha
      refine ⟨hle, fun heq => ?_⟩
      have hj := (hlast heq).1
      rw [howner] at hj
      cases hj
      exact absurd rfl hne

theorem Ordered.step {w' : World} {e : Event} (h : Ordered w)
    (hstep : auth_session.step w e = some w') : Ordered w' := by
  cases effect_of_step hstep with
  | begun => exact h.begin
  | login hl ha hnew => exact h.setLogin hl ha hnew
  | committed hl hgen => exact h.commit hl hgen _
  | @refused l _ _ _ hl hgen =>
    have hset : Ordered (w.setLogin l .done) := h.setLogin hl rfl nofun
    exact hset.clear _
  | logout => exact h.clear _
  | capture hk =>
    refine { h with contexts := put_all h.contexts ?_ }
    exact Nat.le_refl _
  | send hr hk =>
    refine h.setRequest ?_
    intro c hc
    cases hc
    exact h.contexts _ _ hk
  | request hr hc hnew =>
    refine h.setRequest ?_
    intro c hsome
    rw [hnew c hsome]
    exact h.requests _ _ hr _ hc
  | @expired r =>
    have hset : Ordered (w.setRequest r .done) := h.setRequest nofun
    exact hset.clear _
  | @applied r =>
    have hset : Ordered (w.setRequest r .done) := h.setRequest nofun
    exact { hset with }
  | @initial _ _ _ x _ hs hk hnew =>
    refine h.setSequence ?_
    intro c hsome
    cases x with
    | running c' left =>
      cases hsome
      rw [(hnew c left rfl).1]
      exact h.contexts _ _ hk
    | done => cases hsome
  | sequence hs => exact h.setSequence nofun
  | started hs hcurrent =>
    refine { h with sequences := put_all h.sequences ?_ }
    intro c hc
    cases hc
    exact h.sequences _ _ hs _ rfl

theorem ordered_of_reachable (h : machine.Reachable w) : Ordered w := by
  refine Machine.Reachable.invariant ?_ (fun w e w' hw hstep => hw.step hstep) h
  rintro w rfl
  exact ⟨nofun, fun _ => rfl, nofun, nofun, nofun, nofun⟩

end moaworks.auth_session
