-- Times of the database and of the workers, in microseconds since the epoch.
import Mathlib.Init

namespace moaworks

/-- A moment, in microseconds since the epoch. -/
abbrev Time := Nat

def seconds (n : Nat) : Time := n * 1000000

def minutes (n : Nat) : Time := seconds (60 * n)

end moaworks
