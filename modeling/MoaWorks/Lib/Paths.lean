-- Paths in a tree: the places of the children on the way to a node, and their dotted names.
import Mathlib.Data.List.Basic

namespace Paths

def dotted (path : List Nat) : String := String.intercalate "." (path.map Nat.repr)

theorem repr_injective {m n : Nat} (h : m.repr = n.repr) : m = n := by
  have hvalue : ∀ k : Nat, Nat.ofDigitChars 10 k.repr.toList 0 = k := by
    intro k
    rw [Nat.toList_repr, Nat.ofDigitChars_ten_toDigits]
  rw [← hvalue m, h, hvalue n]

theorem dot_not_mem_repr (n : Nat) : '.' ∉ n.repr.toList := by
  intro h
  rw [Nat.toList_repr] at h
  have hdigit := Nat.isDigit_of_mem_toDigits (by decide) (by decide) h
  revert hdigit
  decide

theorem splitOn_dotted {path : List Nat} (h : path ≠ []) :
    (dotted path).toList.splitOn '.' = path.map (fun n => n.repr.toList) := by
  unfold dotted
  rw [String.toList_intercalate, List.map_map]
  refine List.splitOn_intercalate '.' (fun l hl => ?_) (fun hnil => h (List.map_eq_nil_iff.1 hnil))
  obtain ⟨n, _, rfl⟩ := List.mem_map.1 hl
  exact dot_not_mem_repr n

/-- The dotted name of a path below the root tells the path. -/
theorem dotted_injective {path path' : List Nat} (h : path ≠ []) (h' : path' ≠ [])
    (heq : dotted path = dotted path') : path = path' := by
  have hparts : path.map (fun n => n.repr.toList) = path'.map (fun n => n.repr.toList) := by
    rw [← splitOn_dotted h, ← splitOn_dotted h', heq]
  exact List.map_injective_iff.2 (fun _ _ hn => repr_injective (String.toList_injective hn)) hparts

/-- Paths that part at one node are different. -/
theorem ne_of_part {path : List Nat} {i j : Nat} (h : i ≠ j) (rest rest' : List Nat) :
    path ++ i :: rest ≠ path ++ j :: rest' :=
  fun heq => h (List.cons.inj (List.append_cancel_left heq)).1

end Paths
