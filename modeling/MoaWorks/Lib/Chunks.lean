-- Files that are read in chunks, while they may change: each read gives at most so many elements
-- from where the last one ended.
import Mathlib.Data.List.TakeDrop
import Mathlib.Tactic.Basic

namespace Chunks

variable {α : Type*}

/-- The chunks of `iter(lambda: stream.read(size), b"")`. The read `j` sees what the file holds
then; the last one gives nothing. `none` when the turns do not suffice. -/
def readAll (contents : Nat → List α) (size : Nat) : Nat → Nat → Nat → Option (List (List α))
  | 0, _, _ => none
  | turns + 1, j, offset =>
    match ((contents j).drop offset).take size with
    | [] => some []
    | a :: chunk => (readAll contents size turns (j + 1) (offset + (a :: chunk).length)).map
        ((a :: chunk) :: ·)

/-- The chunks of a loop that reads `remaining` elements; `none` when the stream ends before. -/
def readExactly (size : Nat) : Nat → Nat → List α → Option (List (List α))
  | _, 0, _ => some []
  | 0, _ + 1, _ => none
  | turns + 1, remaining + 1, stream =>
    match stream.take (min size (remaining + 1)) with
    | [] => none
    | a :: chunk => (readExactly size turns (remaining + 1 - (a :: chunk).length)
        (stream.drop (a :: chunk).length)).map ((a :: chunk) :: ·)

theorem take_append_drop_length (l : List α) (n : Nat) : l.take n ++ l.drop (l.take n).length = l := by
  have hdrop : l.drop (l.take n).length = l.drop n := by
    rw [List.length_take]
    rcases Nat.le_total n l.length with hle | hle
    · rw [Nat.min_eq_left hle]
    · rw [Nat.min_eq_right hle, List.drop_length, List.drop_of_length_le hle]
  rw [hdrop, List.take_append_drop]

/-- A file that does not change is read as it is. -/
theorem readAll_still {contents : Nat → List α} {content : List α} {size : Nat} (hsize : 0 < size)
    (h : ∀ j, contents j = content) : ∀ turns j offset, content.length - offset < turns →
      ∃ chunks, readAll contents size turns j offset = some chunks ∧
        chunks.flatten = content.drop offset := by
  intro turns
  induction turns with
  | zero =>
    intro j offset hlong
    exact absurd hlong (Nat.not_lt_zero _)
  | succ turns ih =>
    intro j offset hlong
    have hsplit := take_append_drop_length (content.drop offset) size
    unfold readAll
    rw [h j]
    cases hread : (content.drop offset).take size with
    | nil =>
      have hend : content.drop offset = [] := by
        rcases List.take_eq_nil_iff.1 hread with hzero | hnil
        · exact absurd hzero (Nat.pos_iff_ne_zero.1 hsize)
        · exact hnil
      exact ⟨[], rfl, hend.symm⟩
    | cons a chunk =>
      rw [hread, List.drop_drop] at hsplit
      have hlen := congrArg List.length hsplit
      simp only [List.length_append, List.length_drop, List.length_cons] at hlen
      obtain ⟨chunks, hchunks, hflat⟩ := ih (j + 1) (offset + (a :: chunk).length) (by
        simp only [List.length_cons]
        omega)
      refine ⟨(a :: chunk) :: chunks, by simp only [hchunks, Option.map_some], ?_⟩
      rw [List.flatten_cons, hflat]
      exact hsplit

/-- A loop that reads no more than there is gets what it asks for. -/
theorem readExactly_enough {size : Nat} (hsize : 0 < size) : ∀ turns remaining (stream : List α),
    remaining ≤ turns → remaining ≤ stream.length →
      ∃ chunks, readExactly size turns remaining stream = some chunks ∧
        chunks.flatten = stream.take remaining := by
  intro turns
  induction turns with
  | zero =>
    intro remaining stream hturns _
    obtain rfl := Nat.le_zero.1 hturns
    exact ⟨[], by simp [readExactly], by simp⟩
  | succ turns ih =>
    intro remaining stream hturns hlong
    cases remaining with
    | zero => exact ⟨[], by simp [readExactly], by simp⟩
    | succ remaining =>
      have hsplit := take_append_drop_length stream (min size (remaining + 1))
      unfold readExactly
      cases hread : stream.take (min size (remaining + 1)) with
      | nil =>
        have hlen := congrArg List.length hread
        simp only [List.length_take, List.length_nil] at hlen
        omega
      | cons a chunk =>
        rw [hread] at hsplit
        have hshort := congrArg List.length hread
        have hlen := congrArg List.length hsplit
        simp only [List.length_take, List.length_append, List.length_drop,
          List.length_cons] at hshort hlen
        have hle : (a :: chunk).length ≤ remaining + 1 := by
          simp only [List.length_cons]
          omega
        obtain ⟨chunks, hchunks, hflat⟩ := ih (remaining + 1 - (a :: chunk).length)
          (stream.drop (a :: chunk).length) (by
            simp only [List.length_cons]
            omega) (by
            simp only [List.length_cons, List.length_drop]
            omega)
        refine ⟨(a :: chunk) :: chunks, by simp only [hchunks, Option.map_some], ?_⟩
        rw [List.flatten_cons, hflat]
        conv_rhs => rw [← hsplit]
        rw [List.take_append, List.take_of_length_le hle]

/-! ## Slices -/

/-- The slices `l[k * width:(k + 1) * width]`, as many as there are. -/
def slices (width : Nat) (l : List α) : List (List α) :=
  (List.range ((l.length + (width - 1)) / width)).map (fun k => (l.drop (k * width)).take width)

theorem slices_nil {width : Nat} (hwidth : 0 < width) : slices width ([] : List α) = [] := by
  unfold slices
  have hcount : (([] : List α).length + (width - 1)) / width = 0 :=
    Nat.div_eq_of_lt (by simp; omega)
  rw [hcount]
  rfl

theorem slices_cons {width : Nat} (hwidth : 0 < width) {l : List α} (h : l ≠ []) :
    slices width l = l.take width :: slices width (l.drop width) := by
  unfold slices
  have hlen : 0 < l.length := List.length_pos_iff.2 h
  have hcount : (l.length + (width - 1)) / width =
      ((l.drop width).length + (width - 1)) / width + 1 := by
    rw [List.length_drop]
    rcases Nat.le_total width l.length with hle | hle
    · rw [← Nat.add_div_right _ hwidth]
      congr 1
      omega
    · have hone : l.length + (width - 1) = l.length - 1 + width := by omega
      rw [hone, Nat.add_div_right _ hwidth, Nat.sub_eq_zero_of_le hle, Nat.zero_add,
        Nat.div_eq_of_lt (by omega), Nat.div_eq_of_lt (by omega)]
  rw [hcount, List.range_succ_eq_map, List.map_cons, Nat.zero_mul, List.drop_zero, List.map_map]
  congr 1
  refine List.map_congr_left (fun k _ => ?_)
  rw [Function.comp_apply, List.drop_drop, Nat.succ_mul, Nat.add_comm]

/-- Slices are read off front to back. -/
theorem slices_induction {width : Nat} (hwidth : 0 < width) {motive : List α → Prop}
    (nil : motive []) (cons : ∀ l, l ≠ [] → motive (l.drop width) → motive l) (l : List α) :
    motive l := by
  induction hn : l.length using Nat.strongRecOn generalizing l with
  | ind n ih =>
    by_cases h : l = []
    · exact h ▸ nil
    · have hlen := List.length_pos_iff.2 h
      exact cons l h (ih (l.drop width).length (by rw [List.length_drop]; omega) _ rfl)

theorem slices_flatten {width : Nat} (hwidth : 0 < width) (l : List α) :
    (slices width l).flatten = l := by
  induction l using slices_induction hwidth with
  | nil => rw [slices_nil hwidth, List.flatten_nil]
  | cons l h ih => rw [slices_cons hwidth h, List.flatten_cons, ih, List.take_append_drop]

theorem length_of_mem_slices {width : Nat} {l slice : List α} (h : slice ∈ slices width l) :
    slice.length ≤ width := by
  obtain ⟨k, _, rfl⟩ := List.mem_map.1 h
  exact List.length_take_le _ _

theorem subset_of_mem_slices {width : Nat} {l slice : List α} (h : slice ∈ slices width l) :
    slice ⊆ l := by
  obtain ⟨k, _, rfl⟩ := List.mem_map.1 h
  exact fun a ha => List.mem_of_mem_drop (List.mem_of_mem_take ha)

/-- After a whole number of slices they start anew. -/
theorem slices_append {width count : Nat} (hwidth : 0 < width) {l : List α}
    (h : l.length = count * width) (l' : List α) :
    slices width (l ++ l') = slices width l ++ slices width l' := by
  induction count generalizing l with
  | zero =>
    rw [Nat.zero_mul, List.length_eq_zero_iff] at h
    rw [h, slices_nil hwidth, List.nil_append, List.nil_append]
  | succ count ih =>
    rw [Nat.succ_mul] at h
    have hne : l ≠ [] := List.length_pos_iff.1 (by omega)
    have hle : width ≤ l.length := by omega
    rw [slices_cons hwidth hne, slices_cons hwidth (List.append_ne_nil_of_left_ne_nil hne l'),
      List.take_append_of_le_length hle, List.drop_append_of_le_length hle, List.cons_append]
    congr 1
    exact ih (by rw [List.length_drop]; omega)

end Chunks
