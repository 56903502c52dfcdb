-- Programs that change a state and can raise, with rules for what they meet.
-- A raised exception keeps the state that was reached, as in the languages
-- that these programs come from.
import Mathlib.Init

/-- A program over the states `σ` that returns an `α` or raises an `ε`. -/
abbrev Program (σ ε α : Type) := ExceptT ε (StateM σ) α

namespace Program

variable {σ ε α β : Type}

/-- Runs a program from a state. -/
def exec (c : Program σ ε α) (s : σ) : Except ε α × σ := (ExceptT.run c).run s

/-- Runs `c` and hands over what it raised, instead of raising it. -/
def attempt (c : Program σ ε α) : Program σ ε (Except ε α) :=
  ExceptT.mk (fun s => ((.ok (c.exec s).1 : Except ε (Except ε α)), (c.exec s).2))

/-- A transaction: what it raises undoes what it changed. -/
def transaction (c : Program σ ε α) : Program σ ε α :=
  ExceptT.mk (fun s => match c.exec s with
    | (.ok a, s') => (.ok a, s')
    | (.error e, _) => (.error e, s))

/-- `if c: body`. -/
def onlyIf (c : Prop) [Decidable c] (body : Program σ ε Unit) : Program σ ε Unit :=
  if c then body else pure ()

theorem exec_bind (c : Program σ ε α) (f : α → Program σ ε β) (s : σ) :
    exec (c >>= f) s = match exec c s with
      | (.ok a, s') => exec (f a) s'
      | (.error e, s') => (.error e, s') := by
  unfold exec
  simp only [ExceptT.run, bind, ExceptT.bind, ExceptT.mk, StateT.bind, StateT.run]
  rcases c s with ⟨_ | a, s'⟩ <;> rfl

theorem exec_get (s : σ) : exec (get : Program σ ε σ) s = (.ok s, s) := rfl

theorem exec_modify (f : σ → σ) (s : σ) :
    exec (modify f : Program σ ε PUnit) s = (.ok ⟨⟩, f s) := rfl

theorem exec_attempt (c : Program σ ε α) (s : σ) :
    exec (attempt c) s = (.ok (exec c s).1, (exec c s).2) := rfl

theorem exec_transaction (c : Program σ ε α) (s : σ) :
    exec (transaction c) s = match exec c s with
      | (.ok a, s') => (.ok a, s')
      | (.error e, _) => (.error e, s) := rfl

/-- What holds after a run: `Q` of the value returned, or `E` of the exception. -/
def After (Q : α → σ → Prop) (E : ε → σ → Prop) : Except ε α × σ → Prop
  | (.ok a, s) => Q a s
  | (.error e, s) => E e s

/-- From a state with `P`, the program ends with `Q` or raises with `E`. -/
def Meets (P : σ → Prop) (c : Program σ ε α) (Q : α → σ → Prop) (E : ε → σ → Prop) : Prop :=
  ∀ s, P s → After Q E (exec c s)

variable {P P' : σ → Prop} {Q Q' : α → σ → Prop} {R : β → σ → Prop} {E E' : ε → σ → Prop}
  {c : Program σ ε α}

theorem Meets.mono (h : Meets P c Q E) (hP : ∀ s, P' s → P s) (hQ : ∀ a s, Q a s → Q' a s)
    (hE : ∀ e s, E e s → E' e s) : Meets P' c Q' E' := by
  intro s hs
  have hrun := h s (hP s hs)
  revert hrun
  rcases exec c s with ⟨e | a, s'⟩
  · exact hE e s'
  · exact hQ a s'

theorem Meets.pre (h : Meets P c Q E) (hP : ∀ s, P' s → P s) : Meets P' c Q E :=
  h.mono hP (fun _ _ hq => hq) (fun _ _ he => he)

theorem Meets.pure {a : α} (h : ∀ s, P s → Q a s) : Meets P (pure a : Program σ ε α) Q E :=
  fun s hs => h s hs

theorem Meets.throw {e : ε} (h : ∀ s, P s → E e s) : Meets P (throw e : Program σ ε α) Q E :=
  fun s hs => h s hs

theorem Meets.bind {f : α → Program σ ε β} (h : Meets P c Q E)
    (hf : ∀ a, Meets (Q a) (f a) R E) : Meets P (c >>= f) R E := by
  intro s hs
  rw [exec_bind]
  have hrun := h s hs
  revert hrun
  rcases exec c s with ⟨e | a, s'⟩
  · exact id
  · exact hf a s'

theorem Meets.modify {f : σ → σ} {Q : PUnit → σ → Prop} (h : ∀ s, P s → Q ⟨⟩ (f s)) :
    Meets P (modify f : Program σ ε PUnit) Q E :=
  fun s hs => h s hs

/-- What `get` returns is the state itself. -/
theorem Meets.get : Meets P (get : Program σ ε σ) (fun a s => a = s ∧ P s) E :=
  fun _ hs => ⟨rfl, hs⟩

/-- What `c` raises is handed on as a value. -/
theorem Meets.attempt {Q : Except ε α → σ → Prop}
    (h : Meets P c (fun a => Q (.ok a)) (fun e => Q (.error e))) :
    Meets P (attempt c) Q E := by
  intro s hs
  have hrun := h s hs
  rw [exec_attempt]
  revert hrun
  rcases exec c s with ⟨e | a, s'⟩
  · exact id
  · exact id

theorem Meets.onlyIf {p : Prop} {_ : Decidable p} {body : Program σ ε Unit} {Q : Unit → σ → Prop}
    (h : p → Meets P body Q E) (hn : ¬ p → ∀ s, P s → Q () s) :
    Meets P (onlyIf p body) Q E := by
  unfold Program.onlyIf
  split
  · rename_i hp
    exact h hp
  · rename_i hp
    exact Meets.pure (hn hp)

end Program
