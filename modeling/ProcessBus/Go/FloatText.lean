import Mathlib.Data.Rat.Cast.Order
import Mathlib.Tactic.FieldSimp
import Mathlib.Tactic.Ring
import ProcessBus.Go.Binary32
import ProcessBus.Go.Float

/-!
# Numbers as text

`encoding/json` writes a number as a literal of JSON and reads it back into the type it is told.  A
literal is its parts (`Number`); the integers are read as `strconv.ParseInt` and `strconv.ParseUint`
do, a `float64` as `strconv.ParseFloat` does: the nearest one, the even one of two.  A `float64` is
written with the fewest digits that read back as the same number, and so it is read back
(`parseFloat_format`).
-/

namespace ProcessBus.Go

/-! ## Literals -/

/-- A number of JSON: all its digits, how many of them stand after the point, and the exponent. -/
structure Number where
  negative : Bool
  mantissa : ℕ
  scale : ℕ := 0
  exponent : Option ℤ := none
deriving DecidableEq, Repr

/-- The magnitude of a literal. -/
def Number.magnitude (n : Number) : ℚ := n.mantissa * 10 ^ (n.exponent.getD 0 - n.scale)

/-- Without a point and an exponent. -/
def Number.isInteger (n : Number) : Bool := n.scale == 0 && n.exponent.isNone

/-- `strconv.FormatInt`. -/
def formatInt (x : ℤ) : Number := ⟨x < 0, x.natAbs, 0, none⟩

/-- `strconv.ParseInt` with `bits` bits. -/
def parseInt (bits : ℕ) (n : Number) : Option ℤ :=
  let x : ℤ := if n.negative then -n.mantissa else n.mantissa
  if n.isInteger ∧ -2 ^ (bits - 1) ≤ x ∧ x < 2 ^ (bits - 1) then some x else none

/-- `strconv.ParseUint` with `bits` bits, which takes no sign. -/
def parseUint (bits : ℕ) (n : Number) : Option ℕ :=
  if n.isInteger ∧ !n.negative ∧ n.mantissa < 2 ^ bits then some n.mantissa else none

theorem parseInt_format (bits : ℕ) {x : ℤ} (h0 : -2 ^ (bits - 1) ≤ x) (h : x < 2 ^ (bits - 1)) :
    parseInt bits (formatInt x) = some x := by
  have hx : (if (formatInt x).negative then -((formatInt x).mantissa : ℤ)
      else (formatInt x).mantissa) = x := by
    simp only [formatInt, decide_eq_true_eq]
    split_ifs <;> omega
  rw [parseInt, hx]
  exact if_pos ⟨rfl, h0, h⟩

theorem parseUint_format (bits : ℕ) {x : ℕ} (h : x < 2 ^ bits) :
    parseUint bits (formatInt x) = some x := by
  have hneg : (formatInt x).negative = false :=
    decide_eq_false (Int.not_lt.mpr (Int.natCast_nonneg x))
  have hx : (formatInt x).mantissa = x := Int.natAbs_natCast x
  rw [parseUint, hneg, hx]
  exact if_pos ⟨rfl, rfl, h⟩

/-! ## Magnitudes of a `float64` -/

/-- The pattern of the infinity. -/
def infinity64 : ℕ := 0x7FF0000000000000

/-- The number whose pattern this is, without its sign. -/
def magnitude64 (p : ℕ) : ℚ :=
  if p < 2 ^ 52 then p * 2 ^ (-1074 : ℤ)
  else (2 ^ 52 + (p % 2 ^ 52 : ℕ)) * 2 ^ ((p / 2 ^ 52 : ℕ) - 1075 : ℤ)

/-- The patterns follow the numbers. -/
theorem magnitude64_lt_succ (p : ℕ) : magnitude64 p < magnitude64 (p + 1) := by
  have hpos : ∀ k : ℤ, (0 : ℚ) < 2 ^ k := fun k ↦ zpow_pos (by norm_num) k
  unfold magnitude64
  by_cases hlast : (p + 1) % 2 ^ 52 = 0
  · -- The significand overflows into the exponent.
    have hdiv : (p + 1) / 2 ^ 52 = p / 2 ^ 52 + 1 := by omega
    have hmod : p % 2 ^ 52 = 2 ^ 52 - 1 := by omega
    rw [if_neg (by omega : ¬ p + 1 < 2 ^ 52), hlast, hdiv]
    split
    · rename_i hsub
      have hp : p = 2 ^ 52 - 1 := by omega
      subst hp
      norm_num
    · have hexp : ((p / 2 ^ 52 + 1 : ℕ) : ℤ) - 1075 = ((p / 2 ^ 52 : ℕ) - 1075 : ℤ) + 1 := by
        push_cast
        ring
      rw [hexp, hmod, zpow_add_one₀ (by norm_num)]
      have := hpos ((p / 2 ^ 52 : ℕ) - 1075 : ℤ)
      generalize (2 : ℚ) ^ ((p / 2 ^ 52 : ℕ) - 1075 : ℤ) = unit at this
      norm_num
      linarith
  · have hdiv : (p + 1) / 2 ^ 52 = p / 2 ^ 52 := by omega
    have hmod : (p + 1) % 2 ^ 52 = p % 2 ^ 52 + 1 := by omega
    rw [hdiv, hmod]
    split
    · rw [if_pos (by omega), Nat.cast_add, Nat.cast_one]
      exact mul_lt_mul_of_pos_right (by linarith) (hpos _)
    · rw [if_neg (by omega)]
      push_cast
      exact mul_lt_mul_of_pos_right (by linarith) (hpos _)

theorem magnitude64_strictMono : StrictMono magnitude64 :=
  strictMono_nat_of_lt_succ magnitude64_lt_succ

/-- The greatest pattern from `p` on, of `2 ^ k`, whose number is at most `x`. -/
def search (x : ℚ) : ℕ → ℕ → ℕ
  | 0, p => p
  | k + 1, p => search x k (if magnitude64 (p + 2 ^ k) ≤ x then p + 2 ^ k else p)

/-- The pattern nearest to a number, the even one of two. -/
def nearest (x : ℚ) : ℕ :=
  let p := search x 63 0
  let middle := (magnitude64 p + magnitude64 (p + 1)) / 2
  if x < middle ∨ x = middle ∧ p % 2 = 0 then p else p + 1

/-- `strconv.ParseFloat` with 64 bits; a number that rounds to infinity is out of range. -/
def parseFloat (n : Number) : Option UInt64 :=
  let p := nearest n.magnitude
  if p < infinity64 then some (UInt64.ofNat ((if n.negative then 2 ^ 63 else 0) + p)) else none

theorem search_spec {x : ℚ} {k p : ℕ} (h0 : magnitude64 p ≤ x) (h : x < magnitude64 (p + 2 ^ k)) :
    magnitude64 (search x k p) ≤ x ∧ x < magnitude64 (search x k p + 1) := by
  induction k generalizing p with
  | zero => exact ⟨h0, h⟩
  | succ k ih =>
      rw [search]
      split
      · rename_i hle
        refine ih hle ?_
        rwa [Nat.add_assoc, ← Nat.two_mul, ← Nat.pow_succ']
      · rename_i hlt
        exact ih h0 (not_le.mp hlt)

/-- The number of a pattern is read as that pattern. -/
theorem nearest_magnitude64 {p : ℕ} (h : p < 2 ^ 63) : nearest (magnitude64 p) = p := by
  have hzero : magnitude64 0 = 0 := by simp [magnitude64]
  obtain ⟨hle, hlt⟩ := search_spec (x := magnitude64 p) (k := 63) (p := 0)
    (magnitude64_strictMono.monotone (Nat.zero_le p)) (magnitude64_strictMono (by omega))
  rw [magnitude64_strictMono.le_iff_le] at hle
  rw [magnitude64_strictMono.lt_iff_lt] at hlt
  have hp : search (magnitude64 p) 63 0 = p := by omega
  have hmid := magnitude64_lt_succ p
  rw [nearest, hp]
  exact if_pos (.inl (by linarith))

/-! ## The fewest digits -/

/-- A decimal fraction `mantissa * 10 ^ exp`. -/
structure Decimal where
  mantissa : ℕ
  exp : ℤ
deriving DecidableEq, Repr

def Decimal.value (d : Decimal) : ℚ := d.mantissa * 10 ^ d.exp

/-- All digits of the number of a pattern. -/
def exactDecimal (p : ℕ) : Decimal :=
  let significand := if p < 2 ^ 52 then p else 2 ^ 52 + p % 2 ^ 52
  let shift : ℤ := if p < 2 ^ 52 then -1074 else (p / 2 ^ 52 : ℕ) - 1075
  if 0 ≤ shift then ⟨significand * 2 ^ shift.toNat, 0⟩
  else ⟨significand * 5 ^ (-shift).toNat, shift⟩

theorem exactDecimal_value (p : ℕ) : (exactDecimal p).value = magnitude64 p := by
  have hmag : magnitude64 p = (if p < 2 ^ 52 then p else 2 ^ 52 + p % 2 ^ 52 : ℕ) *
      2 ^ (if p < 2 ^ 52 then -1074 else (p / 2 ^ 52 : ℕ) - 1075 : ℤ) := by
    unfold magnitude64
    split_ifs <;> simp only [Nat.cast_add, Nat.cast_pow, Nat.cast_ofNat]
  rw [hmag, exactDecimal]
  generalize (if p < 2 ^ 52 then p else 2 ^ 52 + p % 2 ^ 52) = significand
  generalize (if p < 2 ^ 52 then -1074 else (p / 2 ^ 52 : ℕ) - 1075 : ℤ) = shift
  split
  · rename_i hshift
    obtain ⟨k, rfl⟩ := Int.eq_ofNat_of_zero_le hshift
    simp [Decimal.value]
  · rename_i hshift
    obtain ⟨k, hk⟩ := Int.eq_ofNat_of_zero_le (by omega : 0 ≤ -shift)
    obtain rfl : shift = -k := by omega
    have hten : (10 : ℚ) ^ k = 5 ^ k * 2 ^ k := by rw [← mul_pow]; norm_num
    simp only [Decimal.value, neg_neg, Int.toNat_natCast, Nat.cast_mul, Nat.cast_pow, zpow_neg,
      zpow_natCast, hten]
    field_simp
    norm_num

/-- The two decimal fractions with `n` digits around a number, the nearer one first. -/
def around (d : Decimal) (n : ℕ) : List Decimal :=
  let drop := (Nat.toDigits 10 d.mantissa).length - n
  let low := d.mantissa / 10 ^ drop
  -- Nines all through make one digit of the next power.
  let high : Decimal := if low + 1 = 10 ^ n then ⟨1, d.exp + drop + n⟩ else ⟨low + 1, d.exp + drop⟩
  if 2 * (d.mantissa % 10 ^ drop) ≤ 10 ^ drop then [⟨low, d.exp + drop⟩, high]
  else [high, ⟨low, d.exp + drop⟩]

/-- `strconv.FormatFloat` with precision `-1`: the fewest digits that read back as the number. -/
def shortest (p : ℕ) : Decimal :=
  if p = 0 then ⟨0, 0⟩
  else
    let exact := exactDecimal p
    ((List.range 17).flatMap fun n ↦ around exact (n + 1)).find? (fun d ↦ nearest d.value = p)
      |>.getD exact

theorem nearest_shortest {p : ℕ} (h : p < 2 ^ 63) : nearest (shortest p).value = p := by
  have hexact : nearest (exactDecimal p).value = p := by
    rw [exactDecimal_value, nearest_magnitude64 h]
  unfold shortest
  split
  · rename_i hzero
    subst hzero
    have hvalue : Decimal.value ⟨0, 0⟩ = magnitude64 0 := by simp [Decimal.value, magnitude64]
    rw [hvalue, nearest_magnitude64 h]
  · dsimp only
    cases hfind : ((List.range 17).flatMap fun n ↦ around (exactDecimal p) (n + 1)).find?
        (fun d ↦ nearest d.value = p) with
    | none => exact hexact
    | some d => simpa using List.find?_some hfind

/-- The layout of `encoding/json`: an exponent for the very small and the very large. -/
def Decimal.layout (negative : Bool) (d : Decimal) : Number :=
  let digits := (Nat.toDigits 10 d.mantissa).length
  if d.mantissa ≠ 0 ∧ (d.value < 1 / 1000000 ∨ 1000000000000000000000 ≤ d.value) then
    ⟨negative, d.mantissa, digits - 1, some (d.exp + (digits - 1 : ℕ))⟩
  else if 0 ≤ d.exp then ⟨negative, d.mantissa * 10 ^ d.exp.toNat, 0, none⟩
  else ⟨negative, d.mantissa, (-d.exp).toNat, none⟩

/-- A finite `float64` as a number of JSON. -/
def formatFloat (x : UInt64) : Number :=
  (shortest (x.toNat % 2 ^ 63)).layout (2 ^ 63 ≤ x.toNat)

theorem Decimal.layout_negative (negative : Bool) (d : Decimal) :
    (d.layout negative).negative = negative := by
  unfold layout
  dsimp only
  split_ifs <;> rfl

theorem Decimal.layout_magnitude (negative : Bool) (d : Decimal) :
    (d.layout negative).magnitude = d.value := by
  unfold layout
  dsimp only
  split_ifs with hexp hpos
  · simp [Number.magnitude, Decimal.value]
  · obtain ⟨k, hk⟩ := Int.eq_ofNat_of_zero_le hpos
    simp [Number.magnitude, Decimal.value, hk]
  · have hscale : 0 - ((-d.exp).toNat : ℤ) = d.exp := by omega
    rw [Number.magnitude, Decimal.value, Option.getD_none, hscale]

/-- Neither a NaN nor an infinity. -/
def finite64 (x : UInt64) : Bool := x.toNat % 2 ^ 63 < infinity64

/-- **A finite `float64` is read back from its literal.** -/
theorem parseFloat_format {x : UInt64} (h : finite64 x) : parseFloat (formatFloat x) = some x := by
  have hx := x.toNat_lt
  have hfinite : x.toNat % 2 ^ 63 < infinity64 := of_decide_eq_true h
  have hnearest := nearest_shortest (p := x.toNat % 2 ^ 63) (by omega)
  rw [parseFloat, formatFloat, Decimal.layout_magnitude, Decimal.layout_negative, hnearest,
    if_pos hfinite]
  refine congrArg some (UInt64.toNat_inj.mp ?_)
  rw [UInt64.toNat_ofNat']
  simp only [decide_eq_true_eq]
  split_ifs <;> omega

end ProcessBus.Go
