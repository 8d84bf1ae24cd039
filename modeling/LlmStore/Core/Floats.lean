import Mathlib.Algebra.Order.Field.Rat
import Mathlib.Data.Int.Log
import Mathlib.Data.Rat.Floor

/-!
# Arithmetic on floats

A finite float as the number that it stands for: what `float` makes of a decimal, the sums and differences of floats,
`round` and `sum`. The numbers are taken to be below `2 ^ 1024`.
-/

namespace LlmStore.Floats

/-! ## Rounding -/

/-- The integer next to `x`, the even one of two. -/
def roundEven (x : ℚ) : ℤ :=
  if x - ⌊x⌋ < 1 / 2 then ⌊x⌋
  else if 1 / 2 < x - ⌊x⌋ then ⌊x⌋ + 1
  else if Even ⌊x⌋ then ⌊x⌋
  else ⌊x⌋ + 1

/-- `round(x, 6)` on decimals. -/
def roundDecimal (x : ℚ) : ℚ := roundEven (x * 1000000) / 1000000

/-- The last place of the 53 binary ones that a float of the size of `x` has. -/
def lastPlace (x : ℚ) : ℚ := 2 ^ max (Int.log 2 |x| - 52) (-1074)

/-- `float(x)`. -/
def toFloat (x : ℚ) : ℚ := roundEven (x / lastPlace x) * lastPlace x

def addFloat (x y : ℚ) : ℚ := toFloat (x + y)

def subFloat (x y : ℚ) : ℚ := toFloat (x - y)

/-- `round(x, 6)`. -/
def roundFloat (x : ℚ) : ℚ := toFloat (roundDecimal x)

/-- `total += x` for each of the numbers, from `0.0` on. -/
def addUp (xs : List ℚ) : ℚ := xs.foldl addFloat 0

/-! ## `sum` -/

/-- The sum so far and its compensation. -/
def sumStep (s : ℚ × ℚ) (x : ℚ) : ℚ × ℚ :=
  let t := addFloat s.1 x
  let lost := if |x| ≤ |s.1| then addFloat (subFloat s.1 t) x else addFloat (subFloat x t) s.1
  (t, addFloat s.2 lost)

/-- `sum(xs)`, which compensates what the additions lose since Python 3.12. -/
def sumFloats (xs : List ℚ) : ℚ :=
  let s := xs.foldl sumStep (0, 0)
  addFloat s.1 s.2

/-! ## `str` -/

/-- `x` with `k` significant decimal digits. -/
def toDigits (k : ℕ) (x : ℚ) : ℚ :=
  let place : ℚ := 10 ^ (Int.log 10 |x| + 1 - k)
  roundEven (x / place) * place

/-- The number in `str(x)`: the decimal with the fewest digits that reads back as `x`. -/
def shortest (x : ℚ) : ℚ := (((List.range 17).map fun k => toDigits (k + 1) x).find? fun d => toFloat d = x).getD x

example : addFloat (toFloat 0.1) (toFloat 0.2) ≠ toFloat 0.3 := by decide +kernel

example : sumFloats [toFloat 0.1, toFloat 0.2, toFloat 0.7] = 1 := by decide +kernel

example : shortest (toFloat 0.1) = 0.1 := by decide +kernel

end LlmStore.Floats
