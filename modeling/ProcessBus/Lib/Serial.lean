import Mathlib.Data.Nat.Basic
import Mathlib.Tactic.NormNum

/-!
# Serial numbers that skip zero

A protocol counter of width `M` is incremented modulo `M`, but a rollover lands on `1`:
zero is reserved for the first value.  The `k`-th value of such a counter is
`skipZero M k`, and the receiver compares two values by their circular distance
`dist M a b`, taking everything below `M / 2` to be ahead.

The one fact behind the comparison is `skipZero_add`: after `d` increments the counter
has moved by `d`, or by `d + 1` when it jumped over zero on the way.  Nothing here fixes
the width, so the results serve any counter of this shape.
-/

namespace ProcessBus.Lib

/-- The `k`-th value of a counter that starts at zero and rolls over to one. -/
def skipZero (M k : ℕ) : ℕ := if k = 0 then 0 else (k - 1) % (M - 1) + 1

/-- How far `b` is ahead of `a` on a circle of `M` values. -/
def dist (M a b : ℕ) : ℕ := (M - a + b) % M

variable {M : ℕ}

@[simp] theorem skipZero_zero : skipZero M 0 = 0 := rfl

theorem skipZero_succ (k : ℕ) : skipZero M (k + 1) = k % (M - 1) + 1 := rfl

theorem skipZero_lt (hM : 1 < M) (k : ℕ) : skipZero M k < M := by
  cases k with
  | zero => exact Nat.lt_trans Nat.zero_lt_one hM
  | succ k =>
      have h : k % (M - 1) < M - 1 := Nat.mod_lt _ (by omega)
      rw [skipZero_succ]
      omega

/-- The counter's increment: one step on the circle, except that it never stops at zero. -/
theorem skipZero_step (hM : 1 < M) (k : ℕ) :
    skipZero M (k + 1) = if skipZero M k + 1 = M then 1 else skipZero M k + 1 := by
  cases k with
  | zero =>
      rw [skipZero_succ, Nat.zero_mod, skipZero_zero]
      split <;> omega
  | succ k =>
      have h : k % (M - 1) < M - 1 := Nat.mod_lt _ (by omega)
      have hs : (k + 1) % (M - 1) = (k % (M - 1) + 1) % (M - 1) := by
        rw [Nat.mod_add_mod]
      rw [skipZero_succ, skipZero_succ, hs]
      split
      · rw [show k % (M - 1) + 1 = M - 1 by omega, Nat.mod_self]
      · rw [Nat.mod_eq_of_lt (by omega)]

/-- After fewer than `M - 1` increments the counter has moved by their number, plus one
if it jumped over zero. -/
theorem skipZero_add (i : ℕ) {d : ℕ} (hd : d < M - 1) :
    skipZero M (i + d) = skipZero M i + d ∨
      skipZero M (i + d) + M = skipZero M i + d + 1 := by
  cases i with
  | zero =>
      cases d with
      | zero => exact .inl rfl
      | succ d =>
          left
          rw [Nat.zero_add, skipZero_succ, Nat.mod_eq_of_lt (by omega), skipZero_zero]
          omega
  | succ i =>
      have hi : i % (M - 1) < M - 1 := Nat.mod_lt _ (by omega)
      rw [show i + 1 + d = i + d + 1 by omega, skipZero_succ, skipZero_succ,
        ← Nat.mod_add_mod]
      by_cases hlt : i % (M - 1) + d < M - 1
      · rw [Nat.mod_eq_of_lt hlt]
        omega
      · rw [Nat.mod_eq_sub_mod (by omega), Nat.mod_eq_of_lt (by omega)]
        omega

/-! ## Distances -/

/-- The distance between two values, by which of them is larger. -/
theorem dist_eq {a b : ℕ} (ha : a < M) (hb : b < M) :
    dist M a b = if a ≤ b then b - a else M - a + b := by
  rw [dist]
  split
  · rw [Nat.mod_eq_sub_mod (by omega), Nat.mod_eq_of_lt (by omega)]
    omega
  · exact Nat.mod_eq_of_lt (by omega)

/-- A value published later, by less than half the circle, is seen ahead. -/
theorem dist_skipZero_later {i j : ℕ} (hij : i < j) (hw : j - i < M / 2 - 1) :
    0 < dist M (skipZero M i) (skipZero M j) ∧
      dist M (skipZero M i) (skipZero M j) < M / 2 := by
  have hi := skipZero_lt (M := M) (by omega) i
  have hj := skipZero_lt (M := M) (by omega) j
  have h := skipZero_add (M := M) i (d := j - i) (by omega)
  rw [Nat.add_sub_cancel' hij.le] at h
  rw [dist_eq hi hj]
  split <;> omega

/-- A value published earlier, by less than half the circle, is seen behind. -/
theorem dist_skipZero_earlier {i j : ℕ} (hij : j < i) (hw : i - j < M / 2 - 1) :
    M / 2 ≤ dist M (skipZero M i) (skipZero M j) := by
  have hi := skipZero_lt (M := M) (by omega) i
  have hj := skipZero_lt (M := M) (by omega) j
  have h := skipZero_add (M := M) j (d := i - j) (by omega)
  rw [Nat.add_sub_cancel' hij.le] at h
  rw [dist_eq hi hj]
  split <;> omega

/-! ## Laps -/

/-- How often the counter has rolled over when it reaches its `k`-th value. -/
def lap (M k : ℕ) : ℕ := (k - 1) / (M - 1)

theorem lap_mul_add_skipZero (k : ℕ) : (M - 1) * lap M k + skipZero M k = k := by
  cases k with
  | zero => simp [lap]
  | succ k =>
      have h := Nat.div_add_mod k (M - 1)
      rw [skipZero_succ, lap, Nat.add_sub_cancel]
      omega

/-- The circular distance tells how many values the counter has taken if and only if it has not
rolled over in between. -/
theorem dist_skipZero_eq_iff {i j : ℕ} (hij : i ≤ j) (hM : 1 < M)
    (hd : dist M (skipZero M i) (skipZero M j) < M - 1) :
    dist M (skipZero M i) (skipZero M j) = j - i ↔ lap M i = lap M j := by
  have hi := skipZero_lt (M := M) hM i
  have hj := skipZero_lt (M := M) hM j
  have hli := lap_mul_add_skipZero (M := M) i
  have hlj := lap_mul_add_skipZero (M := M) j
  rw [dist_eq hi hj] at hd ⊢
  constructor
  · intro h
    rw [h] at hd
    -- A counter that had jumped over zero would show one more than its `j - i` steps.
    have hadd := skipZero_add (M := M) i hd
    rw [Nat.add_sub_cancel' hij] at hadd
    have hsame : skipZero M j = skipZero M i + (j - i) := by
      rcases hadd with h' | h'
      · exact h'
      · split at h <;> omega
    refine Nat.eq_of_mul_eq_mul_left (Nat.sub_pos_of_lt hM) ?_
    omega
  · intro h
    rw [h] at hli
    split <;> omega

end ProcessBus.Lib
