import Mathlib.Algebra.Field.Rat
import Mathlib.Algebra.Order.Field.Rat
import Mathlib.Data.Rat.Floor

/-!
# Go's `float64`

The numeric code of the program is written once, over any carrier with the operations of a
`float64`.  No law is assumed, so what is proved about state, control flow and bookkeeping
holds whatever the rounding is; exact arithmetic is the instance `ℚ`.
-/

namespace ProcessBus.Go

/-- The `float64` operations that the program uses.  Comparisons are those of IEEE 754, where
`lt` and `le` may both fail. -/
class Float64 (F : Type) extends Add F, Sub F, Mul F, Div F, Neg F, BEq F, OfScientific F where
  /-- `float64(x)` of an integer. -/
  ofInt : ℤ → F
  /-- `int64(x)`: truncation towards zero. -/
  trunc : F → ℤ
  /-- `x < y`. -/
  lt : F → F → Bool
  /-- `x <= y`. -/
  le : F → F → Bool

/-- What the program uses of Go's `math`. -/
class FloatMath (F : Type) extends Float64 F where
  pi : F
  sqrt2 : F
  sin : F → F
  round : F → F
  remainder : F → F → F
  /-- Neither a NaN nor an infinity. -/
  isFinite : F → Bool

/-- `math.Mod` beside them, which takes the sign of its first argument. -/
class FloatMod (F : Type) extends FloatMath F where
  mod : F → F → F

/-- Exact rational arithmetic. -/
instance : Float64 ℚ where
  ofInt x := x
  trunc x := x.num.tdiv x.den
  lt x y := decide (x < y)
  le x y := decide (x ≤ y)

/-- Rational approximations, to run the program with. -/
instance : FloatMath ℚ where
  pi := 355 / 113
  sqrt2 := 99 / 70
  sin x := x - x ^ 3 / 6 + x ^ 5 / 120
  round x := ⌊x + 1 / 2⌋
  remainder x y := x - y * ⌊x / y + 1 / 2⌋
  isFinite _ := true

instance : FloatMod ℚ where
  mod x y := x - y * ((x / y).num.tdiv (x / y).den : ℤ)

/-- `math.Round` of an exact number: to the nearest integer, halves away from zero. -/
def mathRound (q : ℚ) : ℤ := if 0 ≤ q then ⌊q + 1 / 2⌋ else ⌈q - 1 / 2⌉

theorem mathRound_intCast (n : ℤ) : mathRound n = n := by
  rw [mathRound]
  split
  · rw [Int.floor_intCast_add, Int.floor_eq_zero_iff.mpr ⟨by norm_num, by norm_num⟩, add_zero]
  · refine Int.ceil_eq_iff.mpr ⟨?_, ?_⟩
    · exact sub_lt_sub_left (by norm_num) _
    · exact sub_le_self _ (by norm_num)

theorem abs_mathRound_sub_le (q : ℚ) : |(mathRound q : ℚ) - q| ≤ 1 / 2 := by
  rw [mathRound, abs_sub_le_iff]
  split
  · have hle := Int.floor_le (q + 1 / 2)
    have hlt := Int.lt_floor_add_one (q + 1 / 2)
    constructor <;> linarith
  · have hle := Int.le_ceil (q - 1 / 2)
    have hlt := Int.ceil_lt_add_one (q - 1 / 2)
    constructor <;> linarith

end ProcessBus.Go
