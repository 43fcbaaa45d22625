import Mathlib.Algebra.Order.Ring.Rat
import Mathlib.Data.Int.Log
import Mathlib.Data.Rat.Floor
/-!
# Rounding to binary64

A finite number of the format is the rational it stands for. `nearest` is
what an operation rounds its exact result to: the nearest number of the
format, and of two that are as near the one with the even mantissa. An
infinity is `2 ^ 1024` or its opposite, which are beyond every finite
number of the format.
-/

namespace Keel

namespace Binary64

/-- The nearest integer, the even one of two as near. -/
def halfEven (q : ℚ) : ℤ :=
  if q - ⌊q⌋ < 1 / 2 ∨ q - ⌊q⌋ = 1 / 2 ∧ ⌊q⌋ % 2 = 0 then ⌊q⌋ else ⌊q⌋ + 1

/-- What the last place of a number as large as `q` counts: the mantissa
has 53 binary digits, and none finer than `2 ^ -1074`. -/
def ulp (q : ℚ) : ℚ := 2 ^ max (Int.log 2 |q| - 52) (-1074)

def nearest (q : ℚ) : ℚ :=
  let rounded := halfEven (q / ulp q) * ulp q
  if 2 ^ 1024 ≤ rounded then 2 ^ 1024
  else if rounded ≤ -2 ^ 1024 then -2 ^ 1024 else rounded

example : nearest (9 / 4) = 9 / 4 ∧ nearest (1 / 10) ≠ 1 / 10 := by decide +kernel

example : nearest (10 ^ 309) = 2 ^ 1024 ∧ nearest (1 / 10 ^ 330) = 0 := by decide +kernel

end Binary64

end Keel
