-- Logs of events, newest last, and what such a log says about the time
-- after one of its events.
import Mathlib.Data.List.Basic
import Mathlib.Data.List.Induction

namespace History

variable {ε : Type*}

/-- `b` holds the events after one of the `P` events of the log `l`. -/
def Since (P : ε → Prop) (l b : List ε) : Prop := ∃ a e, P e ∧ l = a ++ e :: b

theorem not_since_nil (P : ε → Prop) (b : List ε) : ¬ Since P [] b := by
  rintro ⟨a, e, _, h⟩
  simp at h

theorem append_singleton_eq_append_cons {l a b : List ε} {x e : ε}
    (h : l ++ [x] = a ++ e :: b) :
    (b = [] ∧ x = e ∧ l = a) ∨ ∃ b', b = b' ++ [x] ∧ l = a ++ e :: b' := by
  rcases List.eq_nil_or_concat b with rfl | ⟨b', y, rfl⟩
  · obtain ⟨h1, h2⟩ := List.append_inj' h rfl
    exact Or.inl ⟨rfl, by simpa using h2, h1⟩
  · have hsplit : l ++ [x] = (a ++ e :: b') ++ [y] := by simpa using h
    obtain ⟨h1, h2⟩ := List.append_inj' hsplit rfl
    simp only [List.cons.injEq, and_true] at h2
    exact Or.inr ⟨b', by simp [h2], h1⟩

/-- One more event: either it is itself a `P` event with nothing after it,
or it comes after a `P` event of the log. -/
theorem since_snoc {P : ε → Prop} {l b : List ε} {x : ε} :
    Since P (l ++ [x]) b ↔ (P x ∧ b = []) ∨ ∃ b', b = b' ++ [x] ∧ Since P l b' := by
  constructor
  · rintro ⟨a, e, he, h⟩
    rcases append_singleton_eq_append_cons h with ⟨rfl, rfl, _⟩ | ⟨b', rfl, rfl⟩
    · exact Or.inl ⟨he, rfl⟩
    · exact Or.inr ⟨b', rfl, a, e, he, rfl⟩
  · rintro (⟨hx, rfl⟩ | ⟨b', rfl, a, e, he, rfl⟩)
    · exact ⟨l, x, hx, rfl⟩
    · exact ⟨a, e, he, by simp⟩

/-- A fact about every moment at which a `P` event came, with the log up to it. -/
def Whenever (P : ε → Prop) (Q : List ε → ε → Prop) (l : List ε) : Prop :=
  ∀ a e b, l = a ++ e :: b → P e → Q a e

theorem whenever_nil (P : ε → Prop) (Q : List ε → ε → Prop) : Whenever P Q [] := by
  intro a e b h
  simp at h

theorem whenever_snoc {P : ε → Prop} {Q : List ε → ε → Prop} {l : List ε} {x : ε} :
    Whenever P Q (l ++ [x]) ↔ Whenever P Q l ∧ (P x → Q l x) := by
  constructor
  · intro h
    refine ⟨fun a e b hl he => h a e (b ++ [x]) (by simp [hl]) he, fun hx => h l x [] rfl hx⟩
  · rintro ⟨h, hx⟩ a e b hl he
    rcases append_singleton_eq_append_cons hl with ⟨_, rfl, rfl⟩ | ⟨b', _, rfl⟩
    · exact hx he
    · exact h a e b' rfl he

/-- Events that are no `P` events change nothing. -/
theorem whenever_append {P : ε → Prop} {Q : List ε → ε → Prop} {l b : List ε}
    (hb : ∀ x ∈ b, ¬ P x) : Whenever P Q (l ++ b) ↔ Whenever P Q l := by
  induction b using List.reverseRecOn with
  | nil => rw [List.append_nil]
  | append_singleton b x ih =>
    rw [← List.append_assoc, whenever_snoc, ih (fun y hy => hb y (by simp [hy]))]
    constructor
    · exact fun h => h.1
    · exact fun h => ⟨h, fun hx => absurd hx (hb x (by simp))⟩

/-- Of two events of a log, one comes before the other, unless they are equal. -/
theorem eq_or_before {l : List ε} {x y : ε} (hx : x ∈ l) (hy : y ∈ l) :
    x = y ∨ (∃ a b, l = a ++ y :: b ∧ x ∈ a) ∨ ∃ a b, l = a ++ x :: b ∧ y ∈ a := by
  obtain ⟨a, b, rfl⟩ := List.append_of_mem hx
  rw [List.mem_append, List.mem_cons] at hy
  rcases hy with hy | rfl | hy
  · exact Or.inr (Or.inr ⟨a, b, rfl, hy⟩)
  · exact Or.inl rfl
  · obtain ⟨c, d, rfl⟩ := List.append_of_mem hy
    exact Or.inr (Or.inl ⟨a ++ x :: c, d, by simp, by simp⟩)

end History
