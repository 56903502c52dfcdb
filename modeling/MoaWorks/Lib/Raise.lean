-- Operations that return a value or raise, and rules to take them apart.
import Mathlib.Data.List.Forall2

namespace Raise

variable {ε α β : Type*}

/-- `if not c: raise e`. -/
def require (c : Prop) [Decidable c] (e : ε) : Except ε Unit := if c then .ok () else .error e

/-- `if x is None: raise e`. -/
def found (x : Option α) (e : ε) : Except ε α :=
  match x with
  | none => .error e
  | some a => .ok a

theorem require_ok {c : Prop} [Decidable c] {e : ε} {u : Unit} :
    require c e = .ok u ↔ c := by
  unfold require
  by_cases hc : c
  · simp [hc]
  · simp [hc]

theorem found_ok {x : Option α} {e : ε} {a : α} : found x e = .ok a ↔ x = some a := by
  cases x <;> simp [found]

theorem bind_ok {ε α β : Type u} {x : Except ε α} {f : α → Except ε β} {b : β} :
    (x >>= f) = .ok b ↔ ∃ a, x = .ok a ∧ f a = .ok b := by
  cases x with
  | error _ =>
    constructor
    · intro h
      cases h
    · rintro ⟨_, h, _⟩
      cases h
  | ok a =>
    constructor
    · intro h
      exact ⟨a, rfl, h⟩
    · rintro ⟨_, h, hf⟩
      cases h
      exact hf

theorem bind_error {ε α β : Type u} {x : Except ε α} {f : α → Except ε β} {e : ε} :
    (x >>= f) = .error e ↔ x = .error e ∨ ∃ a, x = .ok a ∧ f a = .error e := by
  cases x with
  | error e' =>
    constructor
    · intro h
      cases h
      exact .inl rfl
    · rintro (h | ⟨_, h, _⟩)
      · cases h
        rfl
      · cases h
  | ok a =>
    constructor
    · exact fun h => .inr ⟨a, rfl, h⟩
    · rintro (h | ⟨_, h, hf⟩)
      · cases h
      · cases h
        exact hf

theorem bind_congr {ε α β : Type u} {x : Except ε α} {f g : α → Except ε β}
    (h : ∀ a, x = .ok a → f a = g a) : (x >>= f) = (x >>= g) := by
  cases x with
  | error _ => rfl
  | ok a => exact h a rfl

/-- A loop that collects results: each comes from its own element. -/
theorem mapM_ok {ε α β : Type u} {f : α → Except ε β} {l : List α} {l' : List β}
    (h : l.mapM f = .ok l') : List.Forall₂ (fun a b => f a = .ok b) l l' := by
  induction l generalizing l' with
  | nil =>
    cases h
    exact .nil
  | cons a l ih =>
    rw [List.mapM_cons, bind_ok] at h
    obtain ⟨b, hb, h⟩ := h
    rw [bind_ok] at h
    obtain ⟨rest, hrest, h⟩ := h
    cases h
    exact .cons hb (ih hrest)

theorem exists_of_mapM_ok {ε α β : Type u} {f : α → Except ε β} {l : List α} {l' : List β} {b : β}
    (h : l.mapM f = .ok l') (hb : b ∈ l') : ∃ a ∈ l, f a = .ok b := by
  have hall := mapM_ok h
  clear h
  induction hall with
  | nil => cases hb
  | @cons a b' l l' hab _ ih =>
    rcases List.mem_cons.1 hb with rfl | hb
    · exact ⟨a, List.mem_cons_self, hab⟩
    · obtain ⟨a', ha', hfa⟩ := ih hb
      exact ⟨a', List.mem_cons_of_mem _ ha', hfa⟩

theorem all_of_mapM_ok {ε α β : Type u} {f : α → Except ε β} {l : List α} {l' : List β} {a : α}
    (h : l.mapM f = .ok l') (ha : a ∈ l) : ∃ b, f a = .ok b := by
  have hall := mapM_ok h
  clear h
  induction hall with
  | nil => cases ha
  | @cons a' b l l' hab _ ih =>
    rcases List.mem_cons.1 ha with rfl | ha
    · exact ⟨b, hab⟩
    · exact ih ha

/-- Each element of the loop has its result among those collected. -/
theorem mem_of_mapM_ok {ε α β : Type u} {f : α → Except ε β} {l : List α} {l' : List β} {a : α}
    (h : l.mapM f = .ok l') (ha : a ∈ l) : ∃ b ∈ l', f a = .ok b := by
  have hall := mapM_ok h
  clear h
  induction hall with
  | nil => cases ha
  | @cons a' b l l' hab _ ih =>
    rcases List.mem_cons.1 ha with rfl | ha
    · exact ⟨b, List.mem_cons_self, hab⟩
    · obtain ⟨c, hc, hac⟩ := ih ha
      exact ⟨c, List.mem_cons_of_mem _ hc, hac⟩

/-- What each turn keeps of its element, the collected list keeps of the whole. -/
theorem map_of_mapM_ok {ε α β : Type u} {γ : Type*} {f : α → Except ε β} {g : α → γ} {g' : β → γ}
    {l : List α} {l' : List β} (h : l.mapM f = .ok l')
    (hg : ∀ a ∈ l, ∀ b, f a = .ok b → g a = g' b) : l.map g = l'.map g' := by
  have hall := mapM_ok h
  clear h
  induction hall with
  | nil => rfl
  | @cons a b l l' hab _ ih =>
    rw [List.map_cons, List.map_cons, hg a List.mem_cons_self b hab,
      ih (fun a' ha' => hg a' (List.mem_cons_of_mem _ ha'))]

/-- A loop that collects results ends when each turn does. -/
theorem mapM_ok_of_all {ε α β : Type u} {f : α → Except ε β} {l : List α}
    (h : ∀ a ∈ l, ∃ b, f a = .ok b) : ∃ l', l.mapM f = .ok l' := by
  induction l with
  | nil => exact ⟨[], rfl⟩
  | cons a l ih =>
    obtain ⟨b, hb⟩ := h a List.mem_cons_self
    obtain ⟨l', hl'⟩ := ih (fun a ha => h a (List.mem_cons_of_mem _ ha))
    rw [List.mapM_cons]
    exact ⟨b :: l', bind_ok.2 ⟨b, hb, bind_ok.2 ⟨l', hl', rfl⟩⟩⟩

/-- A loop each of whose turns returns the same. -/
theorem mapM_same {ε α β : Type u} {f : α → Except ε β} {b : β} {l : List α}
    (h : ∀ a ∈ l, f a = .ok b) : l.mapM f = .ok (l.map (fun _ => b)) := by
  induction l with
  | nil => rfl
  | cons a l ih =>
    rw [List.mapM_cons, h a List.mem_cons_self, ih (fun a' ha' => h a' (List.mem_cons_of_mem _ ha'))]
    rfl

/-- An operation that can raise, as a step. -/
theorem ok_of_toOption {x : Except ε α} {a : α} (h : x.toOption = some a) : x = .ok a := by
  cases x with
  | error _ => cases h
  | ok _ =>
    cases h
    rfl

theorem ok_getD {x : Except ε α} {d : α} (h : x.toOption.isSome = true) :
    x = .ok (x.toOption.getD d) := by
  cases x with
  | error _ => cases h
  | ok _ => rfl

/-- Two loops whose turns return the same return the same. -/
theorem toOption_mapM_congr {ε α β : Type u} {f g : α → Except ε β}
    (h : ∀ a, (f a).toOption = (g a).toOption) (l : List α) :
    (l.mapM f).toOption = (l.mapM g).toOption := by
  induction l with
  | nil => rfl
  | cons a l ih =>
    rw [List.mapM_cons, List.mapM_cons]
    have ha := h a
    cases hf : f a with
    | error e =>
      cases hg : g a with
      | error e' => rfl
      | ok b =>
        rw [hf, hg] at ha
        cases ha
    | ok b =>
      cases hg : g a with
      | error e' =>
        rw [hf, hg] at ha
        cases ha
      | ok b' =>
        rw [hf, hg] at ha
        cases ha
        revert ih
        cases hfl : l.mapM f <;> cases hgl : l.mapM g <;> intro ih <;> cases ih <;> rfl

end Raise
