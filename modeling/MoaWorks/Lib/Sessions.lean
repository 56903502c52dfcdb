-- Requests that run as one transaction after another, with the transactions of other requests
-- between them, and the rules that prove what each of them relies on.
import Mathlib.Data.List.Basic
import MoaWorks.Lib.Machine

/-- A request over the states `σ`: it has its result, or it runs a transaction of `τ` and goes
on with what the transaction met. -/
inductive Session (σ τ ε α : Type)
  | done (result : Except ε α)
  | next (transaction : τ) (rest : σ → Session σ τ ε α)

namespace Session

variable {σ τ ε α β : Type}

def bind : Session σ τ ε α → (α → Session σ τ ε β) → Session σ τ ε β
  | done (.ok a), f => f a
  | done (.error e), _ => done (.error e)
  | next t rest, f => next t (fun s => (rest s).bind f)

instance : Monad (Session σ τ ε) where
  pure a := done (.ok a)
  bind := Session.bind

theorem bind_pure (c : Session σ τ ε α) : c.bind (fun a => done (.ok a)) = c := by
  induction c with
  | done result => cases result <;> rfl
  | next t rest ih => exact congrArg (next t) (funext ih)

theorem bind_assoc {γ : Type} (c : Session σ τ ε α) (f : α → Session σ τ ε β)
    (g : β → Session σ τ ε γ) : (c.bind f).bind g = c.bind (fun a => (f a).bind g) := by
  induction c with
  | done result => cases result <;> rfl
  | next t rest ih => exact congrArg (next t) (funext ih)

instance : LawfulMonad (Session σ τ ε) :=
  LawfulMonad.mk' _ bind_pure (fun _ _ => rfl) bind_assoc

/-- Raises an exception, or returns. -/
def lift (x : Except ε α) : Session σ τ ε α := done x

/-- One transaction, with what `f` takes from the state that it met. -/
def transact (t : τ) (f : σ → Except ε α) : Session σ τ ε α := next t (fun s => done (f s))

def result : Session σ τ ε α → Option (Except ε α)
  | done result => some result
  | next _ _ => none

/-! ## A request alone -/

/-- The result of a request that no other one meets, and the state that it leaves. -/
def run (commit : τ → σ → σ) : Session σ τ ε α → σ → Except ε α × σ
  | done result, s => (result, s)
  | next t rest, s => (rest s).run commit (commit t s)

theorem run_pure (commit : τ → σ → σ) (a : α) (s : σ) :
    (pure a : Session σ τ ε α).run commit s = (.ok a, s) := rfl

theorem run_lift (commit : τ → σ → σ) (x : Except ε α) (s : σ) :
    (lift x : Session σ τ ε α).run commit s = (x, s) := rfl

theorem run_transact (commit : τ → σ → σ) (t : τ) (f : σ → Except ε α) (s : σ) :
    (transact t f).run commit s = (f s, commit t s) := rfl

theorem run_bind (commit : τ → σ → σ) (c : Session σ τ ε α) (f : α → Session σ τ ε β) (s : σ) :
    (c >>= f).run commit s = match c.run commit s with
      | (.ok a, s') => (f a).run commit s'
      | (.error e, s') => (.error e, s') := by
  change (c.bind f).run commit s = _
  induction c generalizing s with
  | done result => cases result <;> rfl
  | next t rest ih => exact ih s (commit t s)

theorem run_map (commit : τ → σ → σ) (c : Session σ τ ε α) (f : α → β) (s : σ) :
    (f <$> c).run commit s = (((c.run commit s).1).map f, (c.run commit s).2) := by
  rw [map_eq_pure_bind, run_bind]
  rcases c.run commit s with ⟨e | a, s'⟩
  · rfl
  · rfl

/-- A loop of requests that leave the state as it is. -/
theorem run_mapM (commit : τ → σ → σ) {f : β → Session σ τ ε α} {g : β → Except ε α} {s : σ}
    (h : ∀ b, (f b).run commit s = (g b, s)) (l : List β) :
    (l.mapM f).run commit s = (l.mapM g, s) := by
  induction l with
  | nil => rfl
  | cons b l ih =>
    rw [List.mapM_cons, List.mapM_cons, run_bind, h b]
    cases g b with
    | error e => rfl
    | ok a =>
      change ((l.mapM f) >>= _).run commit s = _
      rw [run_bind, ih]
      cases l.mapM g with
      | error e => rfl
      | ok as => rfl

/-! ## A request among others -/

section Rely

variable (commit : τ → σ → σ) (R : σ → σ → Prop) (G : σ → τ → Prop)

/-- While all transactions, its own and those of the others, move the state within `R`, each
transaction of the request meets `G`, and its result meets `Q` in the state in which it ends. -/
def Meets (Q : Except ε α → σ → Prop) : Session σ τ ε α → σ → Prop
  | done result, s => Q result s
  | next t rest, s => ∀ s', R s s' → G s' t ∧
      (R s' (commit t s') → (rest s').Meets Q (commit t s'))

variable {commit R G} {Q Q' : Except ε α → σ → Prop}

theorem Meets.mono {c : Session σ τ ε α} {s : σ} (h : c.Meets commit R G Q s)
    (hQ : ∀ r s, Q r s → Q' r s) : c.Meets commit R G Q' s := by
  induction c generalizing s with
  | done result => exact hQ _ _ h
  | next t rest ih => exact fun s' hs => ⟨(h s' hs).1, fun hown => ih s' ((h s' hs).2 hown)⟩

/-- What the rest of a request meets after a part of it. -/
def Then (commit : τ → σ → σ) (R : σ → σ → Prop) (G : σ → τ → Prop) (f : α → Session σ τ ε β)
    (Q : Except ε β → σ → Prop) : Except ε α → σ → Prop
  | .ok a, s => (f a).Meets commit R G Q s
  | .error e, s => Q (.error e) s

theorem meets_bind {c : Session σ τ ε α} {f : α → Session σ τ ε β} {Q : Except ε β → σ → Prop}
    {s : σ} : (c >>= f).Meets commit R G Q s ↔ c.Meets commit R G (Then commit R G f Q) s := by
  change (c.bind f).Meets commit R G Q s ↔ _
  induction c generalizing s with
  | done result => cases result <;> rfl
  | next t rest ih =>
    constructor
    · exact fun h s' hs => ⟨(h s' hs).1, fun hown => (ih s').1 ((h s' hs).2 hown)⟩
    · exact fun h s' hs => ⟨(h s' hs).1, fun hown => (ih s').2 ((h s' hs).2 hown)⟩

variable (commit R G) in
/-- The request meets `G`, and what it returns, if it does not raise, meets `P`. -/
def Returns (P : α → σ → Prop) (c : Session σ τ ε α) (s : σ) : Prop :=
  c.Meets commit R G (fun r s => ∀ a, r = .ok a → P a s) s

section Returns

variable {P P' : α → σ → Prop} {c : Session σ τ ε α} {s : σ}

theorem Returns.mono (h : c.Returns commit R G P s) (hP : ∀ a s, P a s → P' a s) :
    c.Returns commit R G P' s :=
  Meets.mono h (fun _ s hr a ha => hP a s (hr a ha))

theorem returns_pure {a : α} (h : P a s) : (pure a : Session σ τ ε α).Returns commit R G P s := by
  intro b hb
  cases hb
  exact h

theorem returns_raise {e : ε} : (lift (.error e) : Session σ τ ε α).Returns commit R G P s := by
  intro b hb
  cases hb

theorem returns_transact {t : τ} {f : σ → Except ε α} (hG : ∀ s', R s s' → G s' t)
    (h : ∀ s' a, R s s' → f s' = .ok a → P a (commit t s')) :
    (transact t f).Returns commit R G P s :=
  fun s' hs' => ⟨hG s' hs', fun _ a ha => h s' a hs' ha⟩

theorem Returns.bind {f : α → Session σ τ ε β} {P' : β → σ → Prop}
    (hc : c.Returns commit R G P s) (hf : ∀ a s, P a s → (f a).Returns commit R G P' s) :
    (c >>= f).Returns commit R G P' s := by
  unfold Returns
  rw [meets_bind]
  refine Meets.mono hc ?_
  intro r s' hr
  cases r with
  | error e =>
    intro b hb
    cases hb
  | ok a => exact hf a s' (hr a rfl)

theorem Returns.map {f : α → β} {P' : β → σ → Prop} (hc : c.Returns commit R G P s)
    (hf : ∀ a s, P a s → P' (f a) s) : (f <$> c).Returns commit R G P' s := by
  rw [map_eq_pure_bind]
  exact hc.bind (fun a s ha => returns_pure (hf a s ha))

/-- A loop that collects results: each comes from its own element. -/
theorem returns_mapM {f : β → Session σ τ ε α} {P : β → α → Prop} (l : List β)
    (hf : ∀ b s, (f b).Returns commit R G (fun a _ => P b a) s) (s : σ) :
    (l.mapM f).Returns commit R G (fun as _ => List.Forall₂ P l as) s := by
  induction l generalizing s with
  | nil => exact returns_pure .nil
  | cons b l ih =>
    rw [List.mapM_cons]
    refine (hf b s).bind (fun a s ha => ?_)
    exact (ih s).bind (fun as s has => returns_pure (.cons ha has))

end Returns

end Rely

end Session

/-! ## Requests side by side -/

/-- A service: its first states, the program of each call, and what a transaction commits. -/
structure Service (σ τ ε κ α : Type) where
  Start : σ → Prop
  program : κ → Session σ τ ε α
  commit : τ → σ → σ

namespace Service

variable {σ τ ε κ α : Type}

/-- A transaction that has committed: its call, the state that it met, and the result of the
call if this was the last one. -/
structure Entry (σ τ ε κ α : Type) where
  call : κ
  transaction : τ
  state : σ
  result : Option (Except ε α)

structure World (σ τ ε κ α : Type) where
  state : σ
  requests : List (κ × Session σ τ ε α)
  log : List (Entry σ τ ε κ α)

/-- A call comes in, or a request runs its next transaction. A request that stops never does. -/
inductive Event (κ : Type)
  | call (k : κ)
  | proceed (i : Nat)

variable (service : Service σ τ ε κ α)

def machine : Machine (World σ τ ε κ α) (Event κ) where
  Start := fun w => ∃ s, service.Start s ∧ w = ⟨s, [], []⟩
  step := fun w event => match event with
    | .call k => some { w with requests := w.requests ++ [(k, service.program k)] }
    | .proceed i => match w.requests[i]? with
      | some (k, .next t rest) => some {
          state := service.commit t w.state
          requests := w.requests.set i (k, rest w.state)
          log := w.log ++ [⟨k, t, w.state, (rest w.state).result⟩] }
      | _ => none

/-- Each transaction of the run meets `ok` in the state that it finds. -/
def Within (ok : σ → τ → Prop) (w : World σ τ ε κ α) : Event κ → Prop
  | .call _ => True
  | .proceed i => ∀ k t rest, w.requests[i]? = some (k, .next t rest) → ok w.state t

instance {ok : σ → τ → Prop} [∀ s t, Decidable (ok s t)] (w : World σ τ ε κ α)
    (event : Event κ) : Decidable (Within ok w event) :=
  match event with
  | .call _ => .isTrue trivial
  | .proceed i =>
    match hi : w.requests[i]? with
    | some (_, .next t _) => decidable_of_iff (ok w.state t)
        ⟨fun h _ _ _ heq => by cases heq.symm.trans hi; exact h, fun h => h _ _ _ hi⟩
    | some (_, .done _) => .isTrue (fun _ _ _ heq => by cases heq.symm.trans hi)
    | none => .isTrue (fun _ _ _ heq => by cases heq.symm.trans hi)

variable {service}

theorem step_proceed {w w' : World σ τ ε κ α} {i : Nat}
    (h : service.machine.step w (.proceed i) = some w') :
    ∃ k t rest, w.requests[i]? = some (k, .next t rest) ∧ w' = {
      state := service.commit t w.state
      requests := w.requests.set i (k, rest w.state)
      log := w.log ++ [⟨k, t, w.state, (rest w.state).result⟩] } := by
  cases hi : w.requests[i]? with
  | none => simp [machine, hi] at h
  | some request =>
    obtain ⟨k, c⟩ := request
    cases c with
    | done result => simp [machine, hi] at h
    | next t rest =>
      simp only [machine, hi, Option.some.injEq] at h
      exact ⟨k, t, rest, rfl, h.symm⟩

/-- What the requests of a run keep to. -/
structure Kept (service : Service σ τ ε κ α) (ok : σ → τ → Prop) (R : σ → σ → Prop)
    (G : κ → σ → τ → Prop) (Q : κ → Except ε α → σ → Prop) (w : World σ τ ε κ α) : Prop where
  running : ∀ k t rest, (k, Session.next t rest) ∈ w.requests →
    (Session.next t rest).Meets service.commit R (G k) (Q k) w.state
  entry : ∀ e ∈ w.log, ok e.state e.transaction ∧ G e.call e.state e.transaction ∧
    ∀ r, e.result = some r → Q e.call r (service.commit e.transaction e.state)
  since : ∀ e ∈ w.log, R (service.commit e.transaction e.state) w.state
  ordered : w.log.Pairwise (fun e e' => R (service.commit e.transaction e.state) e'.state)

/-- The rule for requests side by side. Each program meets its guarantee while the state moves
within `R`, and within the condition of the run the guarantees move it within `R`. -/
theorem Reach.kept {ok : σ → τ → Prop} {R : σ → σ → Prop} {G : κ → σ → τ → Prop}
    {Q : κ → Except ε α → σ → Prop} (hrefl : ∀ s, R s s)
    (htrans : ∀ s s' s'', R s s' → R s' s'' → R s s'')
    (hprogram : ∀ k s, (service.program k).Meets service.commit R (G k) (Q k) s)
    (hcommit : ∀ k s t, ok s t → G k s t → R s (service.commit t s)) {w : World σ τ ε κ α}
    (h : service.machine.Reach (Within ok) w) : Kept service ok R G Q w := by
  refine Machine.Reach.invariant ?_ ?_ h
  · rintro _ ⟨s, _, rfl⟩
    exact ⟨nofun, nofun, nofun, .nil⟩
  · rintro w event w' _ ⟨hrunning, hentry, hsince, hordered⟩ hok hstep
    cases event with
    | call k =>
      cases hstep
      refine ⟨?_, hentry, hsince, hordered⟩
      intro k' t rest hmem
      rcases List.mem_append.1 hmem with hmem | hmem
      · exact hrunning k' t rest hmem
      · obtain ⟨rfl, hnext⟩ := Prod.mk.inj (List.mem_singleton.1 hmem)
        rw [hnext]
        exact hprogram k' w.state
    | proceed i =>
      obtain ⟨k, t, rest, hi, rfl⟩ := step_proceed hstep
      have hmeets := hrunning k t rest (List.mem_of_getElem? hi) w.state (hrefl _)
      have hown := hcommit k w.state t (hok k t rest hi) hmeets.1
      refine ⟨?_, ?_, ?_, ?_⟩
      · intro k' t' rest' hmem
        rcases List.mem_or_eq_of_mem_set hmem with hmem | heq
        -- The other requests allow for this transaction.
        · exact fun s' hs' => hrunning k' t' rest' hmem s' (htrans _ _ _ hown hs')
        · obtain ⟨rfl, hrest⟩ := Prod.mk.inj heq
          rw [hrest]
          exact hmeets.2 hown
      · intro e he
        rcases List.mem_append.1 he with he | he
        · exact hentry e he
        · obtain rfl := List.mem_singleton.1 he
          refine ⟨hok k t rest hi, hmeets.1, fun r hr => ?_⟩
          have hlast := hmeets.2 hown
          cases hdone : rest w.state with
          | done result =>
            rw [hdone] at hlast hr
            cases hr
            exact hlast
          | next t' rest' =>
            rw [hdone] at hr
            cases hr
      · intro e he
        rcases List.mem_append.1 he with he | he
        · exact htrans _ _ _ (hsince e he) hown
        · obtain rfl := List.mem_singleton.1 he
          exact hrefl _
      · rw [List.pairwise_append]
        refine ⟨hordered, List.pairwise_singleton _ _, fun e he e' he' => ?_⟩
        obtain rfl := List.mem_singleton.1 he'
        exact hsince e he

end Service
