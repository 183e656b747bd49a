import Mathlib.Algebra.Order.Ring.Abs
import Mathlib.Tactic.Linarith
import Mathlib.Tactic.Ring

/-!
# `int64` without overflow

Go's `int64` wraps around.  Where the exact result has a place in 64 bits, the operation computes
it.
-/

namespace ProcessBus.Go

/-- A number that an `int64` can hold. -/
def Fits64 (x : ℤ) : Prop := -2 ^ 63 ≤ x ∧ x < 2 ^ 63

instance (x : ℤ) : Decidable (Fits64 x) := inferInstanceAs (Decidable (_ ∧ _))

theorem fits64_toInt (a : Int64) : Fits64 a.toInt := ⟨a.le_toInt, a.toInt_lt⟩

theorem toInt_ofInt {x : ℤ} (h : Fits64 x) : (Int64.ofInt x).toInt = x :=
  Int64.toInt_ofInt_of_le h.1 h.2

theorem bmod_of_fits64 {x : ℤ} (h : Fits64 x) : x.bmod (2 ^ 64) = x :=
  Int.bmod_eq_of_le h.1 h.2

variable {a b : Int64}

theorem toInt_add (h : Fits64 (a.toInt + b.toInt)) : (a + b).toInt = a.toInt + b.toInt := by
  rw [Int64.toInt_add, bmod_of_fits64 h]

theorem toInt_sub (h : Fits64 (a.toInt - b.toInt)) : (a - b).toInt = a.toInt - b.toInt := by
  rw [Int64.toInt_sub, bmod_of_fits64 h]

theorem toInt_mul (h : Fits64 (a.toInt * b.toInt)) : (a * b).toInt = a.toInt * b.toInt := by
  rw [Int64.toInt_mul, bmod_of_fits64 h]

/-- Division by a positive number rounds towards zero. -/
theorem toInt_div (hb : 0 < b.toInt) : (a / b).toInt = a.toInt.tdiv b.toInt := by
  refine Int64.toInt_div_of_ne_right a b ?_
  rintro rfl
  exact absurd hb (by decide)

/-- How far a quotient that is rounded towards zero is from another number. -/
theorem abs_sub_tdiv_mul_lt {b : ℤ} (hb : 0 < b) (x c : ℤ) :
    |x - c.tdiv b| * b < |x * b - c| + b := by
  have hmod : |c.tmod b| < b := by
    rw [← Int.natCast_natAbs, Int.natAbs_tmod]
    have := Nat.mod_lt c.natAbs (Int.natAbs_pos.mpr hb.ne')
    omega
  have hdiv : (x - c.tdiv b) * b = (x * b - c) + c.tmod b := by
    rw [Int.tmod_def]
    ring
  calc |x - c.tdiv b| * b = |(x - c.tdiv b) * b| := by rw [abs_mul, abs_of_pos hb]
    _ = |(x * b - c) + c.tmod b| := by rw [hdiv]
    _ ≤ |x * b - c| + |c.tmod b| := abs_add_le _ _
    _ < |x * b - c| + b := by linarith

theorem toUInt64_of_nonneg (ha : 0 ≤ a.toInt) : a.toUInt64 = UInt64.ofNat a.toInt.toNat := by
  have hlt := a.toInt_lt
  have ha' : 0 ≤ a := Int64.le_iff_toInt_le.mpr ha
  rw [← UInt64.toNat_inj, Int64.toNat_toUInt64_of_le ha', UInt64.toNat_ofNat']
  show a.toInt.toNat = _
  omega

end ProcessBus.Go
