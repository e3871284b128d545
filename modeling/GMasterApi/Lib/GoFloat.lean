import Mathlib.Data.Rat.Floor

/-!
# Go's `float64` and decimals

A `float64` and a `decimal.Decimal` are taken as the number they stand for, and
arithmetic as exact but for the division of decimals.
-/

namespace GoFloat

/-- `int(x)`, which rounds towards zero. -/
def toInt (x : ℚ) : ℤ := x.num.tdiv x.den

@[simp] theorem toInt_zero : toInt 0 = 0 := rfl

theorem toInt_of_nonneg {x : ℚ} (h : 0 ≤ x) : toInt x = ⌊x⌋ := by
  rw [toInt, Rat.floor_def', Int.tdiv_eq_ediv_of_nonneg (Rat.num_nonneg.mpr h)]

/-! ## Rounding -/

/-- `math.Round` and `Round(0)` of a decimal: half away from zero. -/
def roundAway (x : ℚ) : ℤ := if 0 ≤ x then ⌊x + 1 / 2⌋ else -⌊-x + 1 / 2⌋

/-- `Div` of decimals, to 16 places. -/
def decimalDiv (x y : ℚ) : ℚ := roundAway (x / y * 10 ^ 16) / 10 ^ 16

/-- `IntPart` of a decimal, which keeps the low 64 bits. -/
def intPart (x : ℚ) : ℤ := (toInt x).bmod (2 ^ 64)

theorem roundAway_of_nonneg {x : ℚ} (h : 0 ≤ x) : roundAway x = ⌊x + 1 / 2⌋ := if_pos h

theorem roundAway_nonneg {x : ℚ} (h : 0 ≤ x) : 0 ≤ roundAway x := by
  rw [roundAway_of_nonneg h]
  apply Int.floor_nonneg.mpr
  linarith

@[simp] theorem roundAway_intCast (n : ℤ) : roundAway n = n := by
  have hhalf : ⌊(1 : ℚ) / 2⌋ = 0 := by norm_num
  unfold roundAway
  split
  · rw [Int.floor_intCast_add, hhalf, add_zero]
  · have hneg : -(n : ℚ) + 1 / 2 = ((-n : ℤ) : ℚ) + 1 / 2 := by push_cast; ring
    rw [hneg, Int.floor_intCast_add, hhalf]
    omega

@[simp] theorem roundAway_zero : roundAway 0 = 0 := by
  have h := roundAway_intCast 0
  rwa [Int.cast_zero] at h

/-- The integer part of a quotient that is rounded to 16 places. -/
theorem toInt_decimalDiv {x y : ℚ} (h : 0 ≤ x / y) :
    toInt (decimalDiv x y) = ⌊x / y + 1 / (2 * 10 ^ 16)⌋ := by
  have hscaled : 0 ≤ x / y * 10 ^ 16 := by positivity
  have hround : (0 : ℚ) ≤ roundAway (x / y * 10 ^ 16) := Int.cast_nonneg (roundAway_nonneg hscaled)
  unfold decimalDiv
  rw [toInt_of_nonneg (div_nonneg hround (by norm_num)), roundAway_of_nonneg hscaled]
  have hpow : (10 ^ 16 : ℚ) = ((10 ^ 16 : ℕ) : ℚ) := by norm_num
  rw [hpow, Int.floor_div_natCast, Int.floor_intCast, ← Int.floor_div_natCast]
  congr 1
  push_cast
  ring

/-! ## Integer parts -/

theorem toInt_nonpos {x : ℚ} (h : x ≤ 0) : toInt x ≤ 0 := by
  have hnum : 0 ≤ -x.num := by
    have := Rat.num_nonpos.mpr h
    omega
  have hdiv := Int.tdiv_nonneg hnum (Int.natCast_nonneg x.den)
  rw [Int.neg_tdiv] at hdiv
  unfold toInt
  omega

theorem intPart_of_floor_lt {x : ℚ} (h : 0 ≤ x) (hlt : ⌊x⌋ < 2 ^ 63) : intPart x = ⌊x⌋ := by
  unfold intPart
  rw [toInt_of_nonneg h]
  exact Int.bmod_eq_of_le (by have := Int.floor_nonneg.mpr h; omega) (by omega)

/-- What is less than 64 bits and does not turn negative is kept. -/
theorem floor_eq_intPart {x : ℚ} (h : 0 ≤ x) (hlt : ⌊x⌋ < 2 ^ 64) (hnonneg : 0 ≤ intPart x) :
    ⌊x⌋ = intPart x := by
  have hfloor := Int.floor_nonneg.mpr h
  unfold intPart at hnonneg ⊢
  rw [toInt_of_nonneg h, Int.bmod_def] at *
  split at hnonneg <;> omega

theorem intPart_lt (x : ℚ) : intPart x < 2 ^ 63 := by
  unfold intPart
  have := Int.bmod_lt (x := toInt x) (m := 2 ^ 64) (by norm_num)
  omega

end GoFloat
