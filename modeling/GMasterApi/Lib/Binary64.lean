import Mathlib.Data.Int.Log
import Mathlib.Data.Rat.Floor

/-!
# Decimals read as a `float64` and printed again

A number is the rational it stands for.  It is read as the nearest number of 53 binary
digits, and printed as the nearest of the shortest decimals that are read as that number.
-/

namespace Binary64

/-- To the nearest integer, half to even. -/
def roundEven (x : ℚ) : ℤ :=
  if x - ⌊x⌋ < 1 / 2 ∨ x - ⌊x⌋ = 1 / 2 ∧ ⌊x⌋ % 2 = 0 then ⌊x⌋ else ⌊x⌋ + 1

/-- To a number of 53 binary digits, without a bound from above. -/
def nearest (x : ℚ) : ℚ :=
  let ulp : ℚ := 2 ^ max (Int.log 2 |x| - 52) (-1074)
  roundEven (x / ulp) * ulp

/-- `strconv.ParseFloat`; `none` where the number is out of range. -/
def parseFloat (x : ℚ) : Option ℚ := if |nearest x| < 2 ^ 1024 then some (nearest x) else none

/-- The decimal of `digits` digits that is nearest to `x`, of those that are read as `x`. -/
def decimal (x : ℚ) (digits : ℕ) : Option ℚ :=
  let unit : ℚ := 10 ^ (Int.log 10 |x| + 1 - digits)
  let y := x / unit
  [roundEven y, ⌊y⌋, ⌈y⌉].findSome? fun n =>
    if nearest (n * unit) = x then some (n * unit) else none

/-- `strconv.FormatFloat` with the fewest digits, of which 17 are always enough. -/
def formatFloat (x : ℚ) : ℚ :=
  ((List.range' 1 17).findSome? fun digits => decimal x digits).getD x

/-- What becomes of a number that is read and printed. -/
def reprint (x : ℚ) : Option ℚ := (parseFloat x).map formatFloat

example : reprint (1 / 10) = some (1 / 10) := by decide +kernel

example : reprint 9007199254740993 = some 9007199254740992 := by decide +kernel

end Binary64
