import Mathlib.Data.Int.Interval
import Mathlib.Data.Set.Card
import Mathlib.Tactic.LinearCombination
import ProcessBus.Sv.Slots

/-!
# The instants of the slots

A slot begins at the first nanosecond that is not before its rational instant, which is a ceiling,
and an instant lies in the last slot that has begun, which is a floor.  The two are adjoint
(`sampleSlotStart_le_iff`), for every rate up to one slot for each nanosecond, before 1970 and
after; that the slots divide time without a gap and without an overlap follows from it.
-/

namespace ProcessBus.Sv.Publisher

open Go

/-! ## Floor and ceiling -/

/-- The slot of an instant, counted from 1970 in one go. -/
theorem slotOf_eq (rate : ℤ) (t : Time) :
    slotOf rate t = (t.ns - unixEpoch) * rate / 1000000000 := by
  have hsplit := Int.mul_ediv_add_emod (t.ns - unixEpoch) 1000000000
  have hproduct : (t.ns - unixEpoch) * rate =
      t.nanosecond * rate + 1000000000 * (t.unix * rate) := by
    rw [Time.nanosecond, Time.unix]
    linear_combination (-rate) * hsplit
  rw [hproduct, Int.add_mul_ediv_left _ _ (by decide), slotOf, add_comm]

/-- The first nanosecond of a slot, counted from 1970 in one go. -/
def startOf (rate k : ℤ) : ℤ := (k * 1000000000 + rate - 1) / rate

theorem startOf_eq {rate : ℤ} (hrate : 0 < rate) (k : ℤ) :
    startOf rate k = k / rate * 1000000000 + (k % rate * 1000000000 + rate - 1) / rate := by
  have hsplit := Int.mul_ediv_add_emod k rate
  have hsum : k * 1000000000 + rate - 1 =
      k % rate * 1000000000 + rate - 1 + rate * (k / rate * 1000000000) := by
    linear_combination (-1000000000) * hsplit
  rw [startOf, hsum, Int.add_mul_ediv_left _ _ hrate.ne', add_comm]

/-- A slot has begun exactly if it is not after the slot of the instant. -/
theorem startOf_le_iff {rate : ℤ} (hrate : 0 < rate) {k n : ℤ} :
    startOf rate k ≤ n ↔ k ≤ n * rate / 1000000000 := by
  rw [startOf, ← Int.lt_add_one_iff, Int.ediv_lt_iff_lt_mul hrate,
    Int.le_ediv_iff_mul_le (by decide)]
  constructor
  · intro h
    linarith
  · intro h
    linarith

/-- With at most one slot for each nanosecond, the first nanosecond of a slot lies in the slot. -/
theorem startOf_mul_ediv {rate : ℤ} (hrate : 0 < rate) (hle : rate ≤ 1000000000) (k : ℤ) :
    startOf rate k * rate / 1000000000 = k := by
  refine le_antisymm ?_ ((startOf_le_iff hrate).mp le_rfl)
  have hbelow : startOf rate k * rate ≤ k * 1000000000 + rate - 1 := Int.ediv_mul_le _ hrate.ne'
  rw [← Int.lt_add_one_iff, Int.ediv_lt_iff_lt_mul (by decide)]
  linarith

/-- The second of an instant is the second of its slot. -/
theorem unix_eq {rate : ℤ} (hrate : 0 < rate) (t : Time) : t.unix = slotOf rate t / rate := by
  rw [slotOf, Int.mul_add_ediv_right _ _ hrate.ne',
    Int.ediv_eq_zero_of_lt (slotInSecond_nonneg hrate) (slotInSecond_lt hrate), add_zero]

/-! ## Words -/

/-- Go's division with the correction for a negative remainder is the floor. -/
theorem floor_of_tdiv {a b : ℤ} (hb : 0 < b) :
    (if a.tmod b < 0 then (a.tdiv b - 1, a.tmod b + b) else (a.tdiv b, a.tmod b)) =
      (a / b, a % b) := by
  have hsplit := Int.mul_tdiv_add_tmod a b
  have hlt := Int.tmod_lt_of_pos a hb
  have hgt := Int.lt_tmod_of_pos a hb
  split
  · obtain ⟨hdiv, hmod⟩ := (Int.ediv_emod_unique hb).mpr
      ⟨show a.tmod b + b + b * (a.tdiv b - 1) = a by linarith, by omega, by omega⟩
    rw [hdiv, hmod]
  · obtain ⟨hdiv, hmod⟩ := (Int.ediv_emod_unique hb).mpr
      ⟨show a.tmod b + b * a.tdiv b = a by linarith, by omega, by omega⟩
    rw [hdiv, hmod]

/-- A quotient by a positive number has a place where the dividend has one. -/
theorem fits64_ediv {a b : ℤ} (ha : Fits64 a) (hb : 0 < b) : Fits64 (a / b) := by
  rcases lt_or_ge a 0 with hneg | hnonneg
  · have hlow : a ≤ a / b := by
      rw [Int.le_ediv_iff_mul_le hb]
      nlinarith
    exact ⟨ha.1.trans hlow, (Int.ediv_neg_of_neg_of_pos hneg hb).trans (by decide)⟩
  · have hlow := Int.ediv_nonneg hnonneg hb.le
    exact ⟨by omega, (Int.ediv_le_self b hnonneg).trans_lt ha.2⟩

section Words

variable {sps : Int64} (hpos : 0 < sps.toInt) (hle : sps.toInt ≤ 1000000000)

include hpos

/-- The second of a slot and its place there. -/
theorem toInt_slotSecond (k : Int64) :
    let p := if k % sps < 0 then (k / sps - 1, k % sps + sps) else (k / sps, k % sps)
    p.1.toInt = k.toInt / sps.toInt ∧ p.2.toInt = k.toInt % sps.toInt := by
  have hdiv : (k / sps).toInt = k.toInt.tdiv sps.toInt := toInt_div hpos
  have hmod : (k % sps).toInt = k.toInt.tmod sps.toInt := Int64.toInt_mod k sps
  have hfloor := floor_of_tdiv (a := k.toInt) hpos
  have hfits := fits64_ediv (fits64_toInt k) hpos
  have hnonneg := Int.emod_nonneg k.toInt hpos.ne'
  have hlt := Int.emod_lt_of_pos k.toInt hpos
  have hmax := (fits64_toInt sps).2
  have hsign : k % sps < 0 ↔ k.toInt.tmod sps.toInt < 0 := by
    rw [Int64.lt_iff_toInt_lt, hmod, Int64.toInt_zero]
  dsimp only
  by_cases hneg : k.toInt.tmod sps.toInt < 0
  · rw [if_pos hneg, Prod.mk.injEq] at hfloor
    obtain ⟨hquot, hrem⟩ := hfloor
    have hone : (1 : Int64).toInt = 1 := rfl
    rw [if_pos (hsign.mpr hneg)]
    constructor
    · rw [toInt_sub (by rw [hdiv, hone, hquot]; exact hfits), hdiv, hone, hquot]
    · rw [toInt_add (by rw [hmod, hrem]; exact ⟨by omega, by omega⟩), hmod, hrem]
  · rw [if_neg hneg, Prod.mk.injEq] at hfloor
    rw [if_neg fun h ↦ hneg (hsign.mp h), hdiv, hmod]
    exact hfloor

include hle

/-- `sampleSlotStart` is the first nanosecond of the slot. -/
theorem sampleSlotStart_ns (k : Int64) :
    (sampleSlotStart k sps).ns = unixEpoch + startOf sps.toInt k.toInt := by
  have hpair := toInt_slotSecond hpos k
  dsimp only at hpair
  unfold sampleSlotStart
  rw [rateOr4000_of_pos hpos]
  dsimp only
  generalize (if k % sps < 0 then (k / sps - 1, k % sps + sps) else (k / sps, k % sps)) = p at hpair
  obtain ⟨seconds, remainder⟩ := p
  obtain ⟨hseconds, hremainder⟩ := hpair
  dsimp only at hseconds hremainder ⊢
  have hnonneg := Int.emod_nonneg k.toInt hpos.ne'
  have hlt := Int.emod_lt_of_pos k.toInt hpos
  have hn : nanosecondsPerSecond.toInt = 1000000000 := rfl
  have hone : (1 : Int64).toInt = 1 := rfl
  have hproduct : (remainder * nanosecondsPerSecond).toInt =
      k.toInt % sps.toInt * 1000000000 := by
    rw [toInt_mul, hremainder, hn]
    rw [hremainder, hn]
    exact ⟨by omega, by omega⟩
  have hsum : (remainder * nanosecondsPerSecond + sps).toInt =
      k.toInt % sps.toInt * 1000000000 + sps.toInt := by
    rw [toInt_add, hproduct]
    rw [hproduct]
    exact ⟨by omega, by omega⟩
  have hdifference : (remainder * nanosecondsPerSecond + sps - 1).toInt =
      k.toInt % sps.toInt * 1000000000 + sps.toInt - 1 := by
    rw [toInt_sub, hsum, hone]
    rw [hsum, hone]
    exact ⟨by omega, by omega⟩
  have hquotient : ((remainder * nanosecondsPerSecond + sps - 1) / sps).toInt =
      (k.toInt % sps.toInt * 1000000000 + sps.toInt - 1) / sps.toInt := by
    rw [toInt_div hpos, hdifference]
    exact Int.tdiv_eq_ediv_of_nonneg (by omega)
  rw [Time.ofUnix, hseconds, hquotient, startOf_eq hpos]
  ring

/-- **The start of a slot and the slot of an instant are adjoint.** -/
theorem sampleSlotStart_le_iff (k : Int64) (t : Time) :
    sampleSlotStart k sps ≤ t ↔ k.toInt ≤ slotOf sps.toInt t := by
  rw [Time.le_def, sampleSlotStart_ns hpos hle, slotOf_eq, ← startOf_le_iff hpos]
  omega

/-- `sampleSlotAt` is the slot of the instant in 64 bits. -/
theorem sampleSlotAt_eq (t : Time) : sampleSlotAt t sps = Int64.ofInt (slotOf sps.toInt t) := by
  have hn₀ := t.nanosecond_nonneg
  have hn₁ := t.nanosecond_lt
  have hnano : (Int64.ofInt t.nanosecond).toInt = t.nanosecond :=
    toInt_ofInt ⟨by omega, by omega⟩
  have hscaled : (Int64.ofInt t.nanosecond * sps).toInt = t.nanosecond * sps.toInt := by
    rw [toInt_mul, hnano]
    rw [hnano]
    exact ⟨by nlinarith, by nlinarith⟩
  have hfraction : (Int64.ofInt t.nanosecond * sps / nanosecondsPerSecond).toInt =
      t.nanosecond * sps.toInt / 1000000000 := by
    rw [toInt_div (by decide), hscaled]
    exact Int.tdiv_eq_ediv_of_nonneg (mul_nonneg hn₀ hpos.le)
  rw [sampleSlotAt, rateOr4000_of_pos hpos, slotOf, Int64.ofInt_add, Int64.ofInt_mul,
    Int64.ofInt_toInt, ← hfraction, Int64.ofInt_toInt]

omit hle in
theorem nextSecondSampleSlot_eq (t : Time) :
    nextSecondSampleSlot t sps = Int64.ofInt ((t.unix + 1) * sps.toInt) := by
  rw [nextSecondSampleSlot, rateOr4000_of_pos hpos, Int64.ofInt_mul, Int64.ofInt_add,
    Int64.ofInt_toInt]
  rfl

/-- A slot contains its start. -/
theorem slotOf_sampleSlotStart (k : Int64) :
    slotOf sps.toInt (sampleSlotStart k sps) = k.toInt := by
  rw [slotOf_eq, sampleSlotStart_ns hpos hle, add_sub_cancel_left, startOf_mul_ediv hpos hle]

/-- The second of a slot. -/
theorem unix_sampleSlotStart_iff (k : Int64) (s : ℤ) :
    (sampleSlotStart k sps).unix = s ↔
      s * sps.toInt ≤ k.toInt ∧ k.toInt < (s + 1) * sps.toInt := by
  rw [unix_eq hpos, slotOf_sampleSlotStart hpos hle, ← Int.le_ediv_iff_mul_le hpos,
    ← Int.ediv_lt_iff_lt_mul hpos]
  omega

/-- A second holds as many slots as the rate says. -/
theorem ncard_slots {s : ℤ} (hfirst : Fits64 (s * sps.toInt))
    (hlast : Fits64 ((s + 1) * sps.toInt - 1)) :
    ({k | (sampleSlotStart k sps).unix = s}.ncard : ℤ) = sps.toInt := by
  have himage : Int64.toInt '' {k | (sampleSlotStart k sps).unix = s} =
      (Finset.Ico (s * sps.toInt) ((s + 1) * sps.toInt) : Set ℤ) := by
    ext x
    rw [Finset.coe_Ico]
    constructor
    · rintro ⟨k, hk, rfl⟩
      exact (unix_sampleSlotStart_iff hpos hle k s).mp hk
    · intro hx
      have hword : (Int64.ofInt x).toInt = x :=
        toInt_ofInt ⟨hfirst.1.trans hx.1, (Int.le_sub_one_of_lt hx.2).trans_lt hlast.2⟩
      refine ⟨Int64.ofInt x, (unix_sampleSlotStart_iff hpos hle _ s).mpr ?_, hword⟩
      rw [hword]
      exact hx
  have hinj : Function.Injective Int64.toInt := fun _ _ h ↦ Int64.toInt_inj.mp h
  rw [← Set.ncard_image_of_injective _ hinj, himage, Set.ncard_coe_finset, Int.card_Ico,
    Int.toNat_of_nonneg (by linarith)]
  ring

/-- The multiples of the rate begin whole seconds. -/
theorem lt_sampleSlotStart_iff {k : Int64} {m : ℤ} (hk : k.toInt = m * sps.toInt) (t : Time) :
    t < sampleSlotStart k sps ↔ t.unix < m := by
  rw [← not_le, sampleSlotStart_le_iff hpos hle, not_le, hk, unix_eq hpos t,
    Int.ediv_lt_iff_lt_mul hpos]

end Words

/-! ## Results -/

/-- **The slots divide time**, at every rate up to one slot for each nanosecond.

* A slot has begun exactly if it is not after the slot of the instant, if that has a number.
* A slot contains its start.
* Each slot is an interval that is not empty, and ends where the next one begins.
* A second holds as many slots as the rate says.
* The next whole second begins with the first multiple of the rate that is still to come. -/
theorem slots_partition_time {sps : Int64} (hpos : 0 < sps.toInt)
    (hle : sps.toInt ≤ 1000000000) :
    (∀ k t, Fits64 (slotOf sps.toInt t) →
      (sampleSlotStart k sps ≤ t ↔ k ≤ sampleSlotAt t sps)) ∧
    (∀ k, sampleSlotAt (sampleSlotStart k sps) sps = k) ∧
    (∀ k, Fits64 (k.toInt + 1) →
      sampleSlotStart k sps < sampleSlotStart (k + 1) sps ∧
      ∀ t, Fits64 (slotOf sps.toInt t) →
        (sampleSlotAt t sps = k ↔ sampleSlotStart k sps ≤ t ∧ t < sampleSlotStart (k + 1) sps)) ∧
    (∀ s : ℤ, Fits64 (s * sps.toInt) → Fits64 ((s + 1) * sps.toInt - 1) →
      ({k | (sampleSlotStart k sps).unix = s}.ncard : ℤ) = sps.toInt) ∧
    ∀ t, Fits64 ((t.unix + 1) * sps.toInt) →
      IsLeast {k | sps.toInt ∣ k.toInt ∧ t < sampleSlotStart k sps}
        (nextSecondSampleSlot t sps) := by
  have hslot {t : Time} (ht : Fits64 (slotOf sps.toInt t)) :
      (sampleSlotAt t sps).toInt = slotOf sps.toInt t := by
    rw [sampleSlotAt_eq hpos hle, toInt_ofInt ht]
  refine ⟨?_, ?_, ?_, fun s ↦ ncard_slots hpos hle, ?_⟩
  · intro k t ht
    rw [sampleSlotStart_le_iff hpos hle, Int64.le_iff_toInt_le, hslot ht]
  · intro k
    rw [sampleSlotAt_eq hpos hle, slotOf_sampleSlotStart hpos hle, Int64.ofInt_toInt]
  · intro k hk
    have hsucc : (k + 1).toInt = k.toInt + 1 := toInt_add hk
    constructor
    · rw [← not_le, sampleSlotStart_le_iff hpos hle, slotOf_sampleSlotStart hpos hle, hsucc]
      omega
    · intro t ht
      rw [← Int64.toInt_inj, hslot ht, ← not_le, sampleSlotStart_le_iff hpos hle,
        sampleSlotStart_le_iff hpos hle, hsucc]
      omega
  · intro t ht
    have hnext : (nextSecondSampleSlot t sps).toInt = (t.unix + 1) * sps.toInt := by
      rw [nextSecondSampleSlot_eq hpos, toInt_ofInt ht]
    refine ⟨⟨⟨t.unix + 1, by rw [hnext, mul_comm]⟩, ?_⟩, ?_⟩
    · rw [lt_sampleSlotStart_iff hpos hle hnext]
      omega
    · rintro k ⟨⟨m, hm⟩, hk⟩
      rw [mul_comm] at hm
      rw [lt_sampleSlotStart_iff hpos hle hm] at hk
      rw [Int64.le_iff_toInt_le, hnext, hm]
      exact mul_le_mul_of_nonneg_right hk hpos.le

theorem slots_partition_time_4800 :
    0 < (4800 : Int64).toInt ∧ (4800 : Int64).toInt ≤ 1000000000 ∧
      ∀ k, sampleSlotAt (sampleSlotStart k 4800) 4800 = k := by
  have hpos : 0 < (4800 : Int64).toInt := by decide
  have hle : (4800 : Int64).toInt ≤ 1000000000 := by decide
  exact ⟨hpos, hle, (slots_partition_time hpos hle).2.1⟩

end ProcessBus.Sv.Publisher
