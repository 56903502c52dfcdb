-- Locks of two kinds, held by transactions until they end: one for a writer
-- alone, and one that readers share.
import Mathlib.Data.Finset.Insert
import Mathlib.Data.Finset.Erase

/-- Who holds the lock of each key. A writer shares it with no one else. -/
structure SharedLocks (κ τ : Type*) where
  writer : κ → Option τ
  readers : κ → Finset τ
  alone : ∀ k t u, writer k = some t → u ∈ readers k → u = t

namespace SharedLocks

variable {κ τ : Type*}

def free : SharedLocks κ τ := ⟨fun _ => none, fun _ => ∅, by simp⟩

variable [DecidableEq τ]

/-- No other transaction writes: `t` may read. -/
def open_to_read (l : SharedLocks κ τ) (t : τ) (k : κ) : Bool :=
  (l.writer k).all (fun u => decide (u = t))

/-- No other transaction reads or writes: `t` may write. -/
def open_to_write (l : SharedLocks κ τ) (t : τ) (k : κ) : Bool :=
  l.open_to_read t k && decide (l.readers k ⊆ {t})

theorem open_to_read_iff {l : SharedLocks κ τ} {t : τ} {k : κ} :
    l.open_to_read t k = true ↔ ∀ u, l.writer k = some u → u = t := by
  simp [open_to_read, Option.all_eq_true]

theorem open_to_write_iff {l : SharedLocks κ τ} {t : τ} {k : κ} :
    l.open_to_write t k = true ↔
      (∀ u, l.writer k = some u → u = t) ∧ ∀ u ∈ l.readers k, u = t := by
  unfold open_to_write
  rw [Bool.and_eq_true, open_to_read_iff, decide_eq_true_eq, Finset.subset_iff]
  simp only [Finset.mem_singleton]

/-- The end of a transaction: its locks of both kinds are gone. -/
def release (l : SharedLocks κ τ) (t : τ) : SharedLocks κ τ where
  writer := fun k => if l.writer k = some t then none else l.writer k
  readers := fun k => (l.readers k).erase t
  alone := by
    intro k u v hwriter hreader
    split_ifs at hwriter with h
    exact l.alone k u v hwriter (Finset.mem_of_mem_erase hreader)

theorem writer_release {l : SharedLocks κ τ} {t u : τ} {k : κ} (hne : u ≠ t)
    (h : l.writer k = some u) : (l.release t).writer k = some u := by
  unfold release
  dsimp only
  rw [if_neg, h]
  rw [h]
  intro heq
  exact hne (Option.some.inj heq)

theorem readers_release {l : SharedLocks κ τ} {t u : τ} {k : κ} (hne : u ≠ t)
    (h : u ∈ l.readers k) : u ∈ (l.release t).readers k :=
  Finset.mem_erase.2 ⟨hne, h⟩

variable [DecidableEq κ]

def write (l : SharedLocks κ τ) (t : τ) (k : κ) (h : l.open_to_write t k = true) :
    SharedLocks κ τ where
  writer := fun j => if j = k then some t else l.writer j
  readers := l.readers
  alone := by
    intro j u v hwriter hreader
    split_ifs at hwriter with hj
    · cases hwriter
      subst hj
      exact (open_to_write_iff.1 h).2 v hreader
    · exact l.alone j u v hwriter hreader

def read (l : SharedLocks κ τ) (t : τ) (k : κ) (h : l.open_to_read t k = true) :
    SharedLocks κ τ where
  writer := l.writer
  readers := fun j => if j = k then insert t (l.readers j) else l.readers j
  alone := by
    intro j u v hwriter hreader
    split_ifs at hreader with hj
    · subst hj
      rcases Finset.mem_insert.1 hreader with rfl | hold
      · exact (open_to_read_iff.1 h u hwriter).symm
      · exact l.alone j u v hwriter hold
    · exact l.alone j u v hwriter hreader

variable {l : SharedLocks κ τ} {t u : τ} {k j : κ}

theorem writer_write_self (h : l.open_to_write t k = true) :
    (l.write t k h).writer k = some t := if_pos rfl

/-- A new writer does not take the lock of another one. -/
theorem writer_write (h : l.open_to_write t k = true) (hne : u ≠ t) (hu : l.writer j = some u) :
    (l.write t k h).writer j = some u := by
  unfold write
  dsimp only
  rw [if_neg, hu]
  rintro rfl
  exact hne ((open_to_write_iff.1 h).1 u hu)

theorem readers_read_self (h : l.open_to_read t k = true) : t ∈ (l.read t k h).readers k := by
  unfold read
  dsimp only
  rw [if_pos rfl]
  exact Finset.mem_insert_self _ _

theorem readers_read (h : l.open_to_read t k = true) (hu : u ∈ l.readers j) :
    u ∈ (l.read t k h).readers j := by
  unfold read
  dsimp only
  split_ifs
  · exact Finset.mem_insert_of_mem hu
  · exact hu

end SharedLocks
