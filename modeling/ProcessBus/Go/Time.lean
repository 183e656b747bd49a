import Mathlib.Order.Basic
import Mathlib.Order.Lattice
import Mathlib.Tactic.Linarith

/-!
# Go's `time` package

A `time.Time` is its wall-clock instant, counted in nanoseconds from Go's own zero,
1 January of year 1, so that `IsZero` is a comparison with `0`.  Locations and monotonic
readings do not matter to any function modelled here and are left out.  A `time.Duration` is
a 64-bit count of nanoseconds, with wrapping arithmetic; only `Sub` saturates.
-/

namespace ProcessBus.Go

/-- `time.Duration`: signed 64-bit nanoseconds. -/
abbrev Duration := Int64

/-- `time.Time`, in nanoseconds since the zero time of Go. -/
@[ext]
structure Time where
  ns : ℤ
deriving DecidableEq, Repr

/-- Nanoseconds between Go's zero time and 1 January 1970. -/
def unixEpoch : ℤ := 62135596800 * 1000000000

/-- The saturating conversion at the end of `Time.Sub`. -/
def saturate (x : ℤ) : Duration := Int64.ofInt (max (-2 ^ 63) (min (2 ^ 63 - 1) x))

namespace Time

instance : Inhabited Time := ⟨⟨0⟩⟩

instance : LinearOrder Time :=
  LinearOrder.lift' Time.ns fun _ _ h ↦ Time.ext h

theorem le_def {t u : Time} : t ≤ u ↔ t.ns ≤ u.ns := Iff.rfl

/-- The zero value `time.Time{}`. -/
def zero : Time := ⟨0⟩

def isZero (t : Time) : Bool := t.ns == 0

def before (t u : Time) : Bool := decide (t < u)

def after (t u : Time) : Bool := decide (u < t)

def add (t : Time) (d : Duration) : Time := ⟨t.ns + d.toInt⟩

/-- `t.Sub(u)`: the difference, clamped to the range of a `Duration`. -/
def sub (t u : Time) : Duration := saturate (t.ns - u.ns)

/-- `time.Unix(sec, nsec)`; out-of-range nanoseconds carry into the seconds. -/
def ofUnix (sec nsec : ℤ) : Time := ⟨unixEpoch + sec * 1000000000 + nsec⟩

/-- `t.Unix()`: whole seconds since 1970, rounded down. -/
def unix (t : Time) : ℤ := (t.ns - unixEpoch) / 1000000000

/-- `t.Nanosecond()`: the offset within the second. -/
def nanosecond (t : Time) : ℤ := (t.ns - unixEpoch) % 1000000000

@[simp] theorem isZero_zero : zero.isZero = true := rfl

theorem isZero_eq_false {t : Time} : t.isZero = false ↔ t.ns ≠ 0 := by
  simp [isZero]

@[simp] theorem after_iff {t u : Time} : t.after u = true ↔ u < t := decide_eq_true_iff

theorem before_eq_false {t u : Time} : t.before u = false ↔ u ≤ t := by
  rw [before, decide_eq_false_iff_not, not_lt]

theorem after_eq_false {t u : Time} : t.after u = false ↔ t ≤ u := by
  rw [after, decide_eq_false_iff_not, not_lt]

theorem nanosecond_nonneg (t : Time) : 0 ≤ t.nanosecond :=
  Int.emod_nonneg _ (by decide)

theorem nanosecond_lt (t : Time) : t.nanosecond < 1000000000 :=
  Int.emod_lt_of_pos _ (by decide)

end Time

/-- A count `n` of `2^k`-second intervals, as the program's float expression
`time.Duration(n * 2^k * float64(time.Second))` computes it.  The product is exact in
binary64 for the intervals in use, so the conversion only drops the fraction. -/
def logSeconds (n : ℕ) (k : ℤ) : Duration :=
  if 0 ≤ k then Int64.ofInt (n * 2 ^ k.toNat * 1000000000)
  else Int64.ofInt ((n * 1000000000 : ℤ) / 2 ^ (-k).toNat)

end ProcessBus.Go
