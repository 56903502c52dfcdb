-- Binary floating-point numbers, as the rational numbers that they stand for: how they compare, and
-- which of them an integer becomes.
import Mathlib.Algebra.Order.Ring.Rat

inductive Number
  | nan
  | minus_infinity
  | real (q : ℚ)
  | infinity
  deriving DecidableEq

namespace Number

def le : Number → Number → Bool
  | nan, _ => false
  | _, nan => false
  | minus_infinity, _ => true
  | _, infinity => true
  | real p, real q => decide (p ≤ q)
  | _, _ => false

def eq (x y : Number) : Bool := decide (x = y) && decide (x ≠ nan)

def lt (x y : Number) : Bool := x.le y && !x.eq y

/-- The nearest number with a mantissa of 53 bits, and the even one of two. -/
def roundNat (n : Nat) : Nat :=
  let unit := 2 ^ (n.log2 - 52)
  let rest := n % unit
  if 2 * rest < unit ∨ 2 * rest = unit ∧ n / unit % 2 = 0 then n - rest else n - rest + unit

def round : Int → Int
  | .ofNat n => roundNat n
  | .negSucc n => -(roundNat (n + 1) : Int)

/-! ## Comparisons with a real number -/

end Number
