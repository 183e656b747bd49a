import ProcessBus.Go.Int64
import ProcessBus.Go.Time

/-!
# Expressions over durations

A Go expression over `time.Duration` has two meanings: what the machine computes, where sums wrap
and `Time.Sub` saturates (`Expr.eval`), and what it says over the integers (`Expr.exact`).  An
expression is clean if none of its operations wraps or saturates (`Expr.Clean`).

A clean expression evaluates to its exact value (`Expr.Clean.toInt_eval`), and an expression is
clean exactly if the exact value of each of its operations has a place in 64 bits
(`Expr.clean_iff_fits`).
-/

namespace ProcessBus.Go

/-- `Time.Sub` clamps the difference. -/
theorem toInt_saturate (x : ℤ) : (saturate x).toInt = max (-2 ^ 63) (min (2 ^ 63 - 1) x) := by
  refine toInt_ofInt ⟨le_max_left _ _, ?_⟩
  omega

/-- An expression over `int64` nanoseconds; divisors are positive constants. -/
inductive Expr
  | lit (x : Int64)
  | diff (t u : Time)
  | add (a b : Expr)
  | sub (a b : Expr)
  | quo (a : Expr) (k : Int64) (hk : 0 < k.toInt)

namespace Expr

/-- What the machine computes. -/
def eval : Expr → Int64
  | lit x => x
  | diff t u => t.sub u
  | add a b => a.eval + b.eval
  | sub a b => a.eval - b.eval
  | quo a k _ => a.eval / k

/-- The same over the integers; quotients are truncated towards zero. -/
def exact : Expr → ℤ
  | lit x => x.toInt
  | diff t u => t.ns - u.ns
  | add a b => a.exact + b.exact
  | sub a b => a.exact - b.exact
  | quo a k _ => a.exact.tdiv k.toInt

/-- No operation wraps or saturates: each gives the integer that its operands have as their result.
-/
def Clean : Expr → Prop
  | lit _ => True
  | diff t u => (t.sub u).toInt = t.ns - u.ns
  | add a b => a.Clean ∧ b.Clean ∧ (a.eval + b.eval).toInt = a.eval.toInt + b.eval.toInt
  | sub a b => a.Clean ∧ b.Clean ∧ (a.eval - b.eval).toInt = a.eval.toInt - b.eval.toInt
  | quo a k _ => a.Clean ∧ (a.eval / k).toInt = a.eval.toInt.tdiv k.toInt

/-- The exact values of all differences and sums have a place in 64 bits. -/
def Fits : Expr → Prop
  | lit _ => True
  | diff t u => Fits64 (t.ns - u.ns)
  | add a b => a.Fits ∧ b.Fits ∧ Fits64 (a.exact + b.exact)
  | sub a b => a.Fits ∧ b.Fits ∧ Fits64 (a.exact - b.exact)
  | quo a _ _ => a.Fits

variable {e : Expr}

/-- **A clean expression evaluates to its exact value.** -/
theorem Clean.toInt_eval (h : e.Clean) : e.eval.toInt = e.exact := by
  induction e with
  | lit x => rfl
  | diff t u => exact h
  | add a b iha ihb =>
      obtain ⟨ha, hb, hsum⟩ := h
      rw [eval, hsum, iha ha, ihb hb, exact]
  | sub a b iha ihb =>
      obtain ⟨ha, hb, hsum⟩ := h
      rw [eval, hsum, iha ha, ihb hb, exact]
  | quo a k hk iha =>
      obtain ⟨ha, hquo⟩ := h
      rw [eval, hquo, iha ha, exact]

theorem toInt_saturate_iff (x : ℤ) : (saturate x).toInt = x ↔ Fits64 x := by
  constructor
  · intro h
    rw [← h]
    exact fits64_toInt _
  · intro h
    rw [toInt_saturate, min_eq_right (Int.le_sub_one_of_lt h.2), max_eq_right h.1]

theorem toInt_add_iff (a b : Int64) :
    (a + b).toInt = a.toInt + b.toInt ↔ Fits64 (a.toInt + b.toInt) :=
  ⟨fun h ↦ h ▸ fits64_toInt (a + b), toInt_add⟩

theorem toInt_sub_iff (a b : Int64) :
    (a - b).toInt = a.toInt - b.toInt ↔ Fits64 (a.toInt - b.toInt) :=
  ⟨fun h ↦ h ▸ fits64_toInt (a - b), toInt_sub⟩

/-- **An expression is clean exactly if all of its differences and sums fit.** -/
theorem clean_iff_fits (e : Expr) : e.Clean ↔ e.Fits := by
  induction e with
  | lit x => exact Iff.rfl
  | diff t u => exact toInt_saturate_iff _
  | add a b iha ihb =>
      rw [Clean, Fits, ← iha, ← ihb, toInt_add_iff]
      refine and_congr_right fun ha ↦ and_congr_right fun hb ↦ ?_
      rw [ha.toInt_eval, hb.toInt_eval]
  | sub a b iha ihb =>
      rw [Clean, Fits, ← iha, ← ihb, toInt_sub_iff]
      refine and_congr_right fun ha ↦ and_congr_right fun hb ↦ ?_
      rw [ha.toInt_eval, hb.toInt_eval]
  | quo a k hk iha =>
      rw [Clean, Fits, ← iha]
      exact and_iff_left (toInt_div hk)

end Expr

end ProcessBus.Go
