import Mathlib.Data.Nat.Log
import Mathlib.Tactic.NormNum
import Mathlib.Tactic.Ring

/-!
# Go's `float32` and `float64` conversions

A floating-point number is its bit pattern.  `widen` is `float64(x)` of a `float32`, which is exact;
`narrow` is `float32(x)` of a `float64`: round to nearest, ties to even, with overflow to infinity
and gradual underflow.  Both make a NaN quiet, as the processors do.

A `float64` that came from a `float32` survives the way there and back (`widen_narrow_widen`).
-/

namespace ProcessBus.Go.Binary

/-- Sign, biased exponent and fraction of a pattern. -/
structure Parts where
  sign : ℕ
  exp : ℕ
  frac : ℕ
deriving DecidableEq, Repr

def parts32 (b : UInt32) : Parts := ⟨b.toNat / 2 ^ 31, b.toNat / 2 ^ 23 % 2 ^ 8, b.toNat % 2 ^ 23⟩

def parts64 (x : UInt64) : Parts := ⟨x.toNat / 2 ^ 63, x.toNat / 2 ^ 52 % 2 ^ 11, x.toNat % 2 ^ 52⟩

def pack64 (p : Parts) : UInt64 := UInt64.ofNat (p.sign * 2 ^ 63 + p.exp * 2 ^ 52 + p.frac)

/-- The fraction of a quiet NaN with this payload. -/
def quiet (frac : ℕ) : ℕ := if frac < 2 ^ 22 then frac + 2 ^ 22 else frac

/-- Exponent and fraction of the binary64 number with the value of a binary32 one. -/
def widenParts (exp frac : ℕ) : ℕ × ℕ :=
  if exp = 255 then (2047, if frac = 0 then 0 else quiet frac * 2 ^ 29)
  else if exp = 0 then
    -- A subnormal number: the leading bit of the fraction becomes the hidden one.
    if frac = 0 then (0, 0)
    else (Nat.log2 frac + 874, frac * 2 ^ (52 - Nat.log2 frac) - 2 ^ 52)
  else (exp + 896, frac * 2 ^ 29)

/-- `float64(x)`. -/
def widen (b : UInt32) : UInt64 :=
  let p := parts32 b
  let q := widenParts p.exp p.frac
  pack64 ⟨p.sign, q.1, q.2⟩

/-- `n / 2 ^ k`, to the nearest integer and to the even one of two. -/
def roundHalfEven (n k : ℕ) : ℕ :=
  let q := n / 2 ^ k
  let r := n % 2 ^ k
  if 2 ^ k < 2 * r ∨ 2 ^ k = 2 * r ∧ q % 2 = 1 then q + 1 else q

/-- The binary32 pattern, without its sign, nearest to a binary64 number.  A carry out of the
rounded fraction moves on into the exponent. -/
def narrowMagnitude (exp frac : ℕ) : ℕ :=
  if exp = 2047 then 255 * 2 ^ 23 + if frac = 0 then 0 else quiet (frac / 2 ^ 29)
  else
    let significand := if exp = 0 then frac else 2 ^ 52 + frac
    let exp := max exp 1
    let target := max exp 897
    min (255 * 2 ^ 23) ((target - 897) * 2 ^ 23 + roundHalfEven significand (29 + (target - exp)))

/-- `float32(x)`. -/
def narrow (x : UInt64) : UInt32 :=
  let p := parts64 x
  UInt32.ofNat (p.sign * 2 ^ 31 + narrowMagnitude p.exp p.frac)

/-! ## There and back -/

theorem parts64_pack64 {p : Parts} (hs : p.sign < 2) (he : p.exp < 2 ^ 11) (hf : p.frac < 2 ^ 52) :
    parts64 (pack64 p) = p := by
  obtain ⟨s, e, f⟩ := p
  dsimp only at hs he hf
  have hlt : s * 2 ^ 63 + e * 2 ^ 52 + f < 2 ^ 64 := by omega
  simp only [parts64, pack64, UInt64.toNat_ofNat', Nat.mod_eq_of_lt hlt, Parts.mk.injEq]
  omega

theorem parts32_lt (b : UInt32) :
    (parts32 b).sign < 2 ∧ (parts32 b).exp < 2 ^ 8 ∧ (parts32 b).frac < 2 ^ 23 := by
  have hb := b.toNat_lt
  simp only [parts32]
  omega

theorem roundHalfEven_mul (q k : ℕ) : roundHalfEven (q * 2 ^ k) k = q := by
  have hpos : 0 < 2 ^ k := Nat.two_pow_pos k
  unfold roundHalfEven
  rw [Nat.mul_div_cancel _ hpos, Nat.mul_mod_left]
  exact if_neg (by omega)

/-- A subnormal fraction, shifted until its leading bit is the hidden one. -/
theorem normalize_bounds {frac : ℕ} (h : frac ≠ 0) (hlt : frac < 2 ^ 23) :
    Nat.log2 frac ≤ 22 ∧ 2 ^ 52 ≤ frac * 2 ^ (52 - Nat.log2 frac) ∧
      frac * 2 ^ (52 - Nat.log2 frac) < 2 ^ 53 := by
  have hlo := Nat.log2_self_le h
  have hhi := Nat.lt_log2_self (n := frac)
  have hk : Nat.log2 frac ≤ 22 := by
    by_contra hk
    have : 2 ^ 23 ≤ 2 ^ Nat.log2 frac := Nat.pow_le_pow_right (by decide) (by omega)
    omega
  have hpos : 0 < 2 ^ (52 - Nat.log2 frac) := Nat.two_pow_pos _
  refine ⟨hk, ?_, ?_⟩
  · calc 2 ^ 52 = 2 ^ Nat.log2 frac * 2 ^ (52 - Nat.log2 frac) := by
          rw [← pow_add]
          congr 1
          omega
      _ ≤ frac * 2 ^ (52 - Nat.log2 frac) := Nat.mul_le_mul_right _ hlo
  · calc frac * 2 ^ (52 - Nat.log2 frac) < 2 ^ (Nat.log2 frac + 1) * 2 ^ (52 - Nat.log2 frac) :=
          Nat.mul_lt_mul_of_pos_right hhi hpos
      _ = 2 ^ 53 := by
          rw [← pow_add]
          congr 1
          omega

theorem widenParts_lt {exp frac : ℕ} (he : exp < 2 ^ 8) (hf : frac < 2 ^ 23) :
    (widenParts exp frac).1 < 2 ^ 11 ∧ (widenParts exp frac).2 < 2 ^ 52 := by
  unfold widenParts quiet
  split
  · dsimp only
    split_ifs <;> omega
  · split
    · split
      · decide
      · rename_i h
        obtain ⟨hk, hlo, hhi⟩ := normalize_bounds h hf
        dsimp only
        omega
    · dsimp only
      omega

theorem quiet_ne_zero {frac : ℕ} (h : frac ≠ 0) : quiet frac ≠ 0 := by
  unfold quiet
  split_ifs <;> omega

theorem quiet_quiet (frac : ℕ) : quiet (quiet frac) = quiet frac := by
  unfold quiet
  split_ifs <;> omega

/-- A number with the exponent and the whole fraction of a binary32 one is not rounded. -/
theorem narrowMagnitude_exact {exp frac k target : ℕ} (hexp : exp ≠ 0) (hlt : exp < 2047)
    (htarget : max exp 897 = target) (hfrac : 2 ^ 52 + frac = k * 2 ^ (29 + (target - exp))) :
    narrowMagnitude exp frac = min (255 * 2 ^ 23) ((target - 897) * 2 ^ 23 + k) := by
  have hmax : max exp 1 = exp := by omega
  simp only [narrowMagnitude, if_neg (Nat.ne_of_lt hlt), if_neg hexp, hmax, htarget, hfrac,
    roundHalfEven_mul]

/-- What comes back: the number itself, or the same NaN made quiet. -/
theorem narrowMagnitude_widenParts {exp frac : ℕ} (he : exp < 2 ^ 8) (hf : frac < 2 ^ 23) :
    narrowMagnitude (widenParts exp frac).1 (widenParts exp frac).2 =
      exp * 2 ^ 23 + if exp = 255 ∧ frac ≠ 0 then quiet frac else frac := by
  unfold widenParts
  split
  · rename_i h
    by_cases hz : frac = 0
    · simp [narrowMagnitude, h, hz]
    · simp [narrowMagnitude, h, hz, quiet_ne_zero hz, quiet_quiet]
  · rename_i h
    have hnan : ¬ (exp = 255 ∧ frac ≠ 0) := fun hnan ↦ h hnan.1
    simp only [if_neg hnan]
    split
    · rename_i h0
      split
      · rename_i hz
        have hround : ∀ k, roundHalfEven 0 k = 0 := fun k ↦ by simpa using roundHalfEven_mul 0 k
        simp [narrowMagnitude, hround, h0, hz]
      · rename_i hz
        obtain ⟨hk, hlo, hhi⟩ := normalize_bounds hz hf
        have hshift : 29 + (897 - (Nat.log2 frac + 874)) = 52 - Nat.log2 frac := by omega
        dsimp only
        rw [narrowMagnitude_exact (k := frac) (by omega) (by omega)
          (show max (Nat.log2 frac + 874) 897 = 897 by omega) (by rw [hshift]; omega)]
        omega
    · dsimp only
      rw [narrowMagnitude_exact (k := 2 ^ 23 + frac) (by omega) (by omega)
        (show max (exp + 896) 897 = exp + 896 by omega) (by rw [Nat.sub_self]; omega)]
      omega

theorem parts32_ofNat {s e f : ℕ} (hs : s < 2) (he : e < 2 ^ 8) (hf : f < 2 ^ 23) :
    parts32 (UInt32.ofNat (s * 2 ^ 31 + (e * 2 ^ 23 + f))) = ⟨s, e, f⟩ := by
  have hlt : s * 2 ^ 31 + (e * 2 ^ 23 + f) < 2 ^ 32 := by omega
  simp only [parts32, UInt32.toNat_ofNat', Nat.mod_eq_of_lt hlt, Parts.mk.injEq]
  omega

/-- A NaN that is quiet already widens to the pattern the signalling one does. -/
theorem widenParts_quiet (exp frac : ℕ) :
    widenParts exp (if exp = 255 ∧ frac ≠ 0 then quiet frac else frac) = widenParts exp frac := by
  split
  · rename_i h
    simp [widenParts, h.1, h.2, quiet_ne_zero h.2, quiet_quiet]
  · rfl

/-- **A binary32 number survives the way to binary64 and back.** -/
theorem widen_narrow_widen (b : UInt32) : widen (narrow (widen b)) = widen b := by
  obtain ⟨hs, he, hf⟩ := parts32_lt b
  obtain ⟨hwe, hwf⟩ := widenParts_lt he hf
  have hquiet : (if (parts32 b).exp = 255 ∧ (parts32 b).frac ≠ 0 then quiet (parts32 b).frac
      else (parts32 b).frac) < 2 ^ 23 := by
    unfold quiet
    split_ifs <;> omega
  have hnarrow : parts32 (narrow (widen b)) = ⟨(parts32 b).sign, (parts32 b).exp,
      if (parts32 b).exp = 255 ∧ (parts32 b).frac ≠ 0 then quiet (parts32 b).frac
      else (parts32 b).frac⟩ := by
    have hparts : parts64 (widen b) = ⟨(parts32 b).sign, (widenParts (parts32 b).exp
        (parts32 b).frac).1, (widenParts (parts32 b).exp (parts32 b).frac).2⟩ :=
      parts64_pack64 hs hwe hwf
    rw [narrow, hparts]
    dsimp only
    rw [narrowMagnitude_widenParts he hf, parts32_ofNat hs he hquiet]
  conv_lhs => rw [widen, hnarrow]
  dsimp only
  rw [widenParts_quiet]
  rfl

end ProcessBus.Go.Binary
