import Mathlib.Data.Nat.GCD.Basic
import Mathlib.Logic.Function.Iterate
import ProcessBus.Goose.RoundTrip
import ProcessBus.Goose.Subscriber

/-!
# `UtcTime`, there and back

A `UtcTime` counts 2⁻²⁴ s where Go counts nanoseconds, and both directions of the codec round down.

From Go to the wire and back nothing goes wrong: the time is earlier by less than 61 ns, and the
order is kept (`decodeUtcTime_encodeUtcTime_order`).  From the wire to Go and back it does: a
decoded time lies strictly before the instant that its fraction means, unless that instant is a
whole number of nanoseconds, and so it is encoded with the fraction before
(`recodeUtcTime_iterate`).
-/

namespace ProcessBus.Goose

open Go Subscriber

/-! ## Two grids -/

/-- From a coarse grid to a fine one and back, rounding down twice, costs one step of the coarse
grid unless the point is on both. -/
theorem mul_div_mul_div {a b : ℕ} (hb : 0 < b) (hba : b ≤ a) (n : ℕ) :
    n * a / b * b / a = if b ∣ n * a then n else n - 1 := by
  have ha : 0 < a := hb.trans_le hba
  split_ifs with h
  · rw [Nat.div_mul_cancel h, Nat.mul_div_cancel _ ha]
  · have hpos : 0 < n * a % b := Nat.pos_of_ne_zero (mt Nat.dvd_of_mod_eq_zero h)
    have hlt : n * a % b < b := Nat.mod_lt _ hb
    have hdiv := Nat.div_add_mod' (n * a) b
    obtain _ | n := n
    · simp at h
    · rw [Nat.add_sub_cancel]
      refine Nat.div_eq_of_lt_le ?_ ?_ <;> nlinarith

/-- The instants that are a whole number of nanoseconds: multiples of 2⁻⁹ s. -/
theorem dvd_fraction_iff (n : ℕ) : 2 ^ 24 ∣ n * 1000000000 ↔ 2 ^ 15 ∣ n := by
  have hcoprime : Nat.Coprime (2 ^ 15) (5 ^ 9) := by decide
  rw [show n * 1000000000 = n * 5 ^ 9 * 2 ^ 9 by ring, show 2 ^ 24 = 2 ^ 15 * 2 ^ 9 by rfl,
    Nat.mul_dvd_mul_iff_right (by decide), Nat.Coprime.dvd_mul_right hcoprime]

/-! ## From the wire and back -/

/-- A time that is decoded and encoded again. -/
def recodeUtcTime (b : Bytes) : Bytes := encodeUtcTime (decodeUtcTime b).1 (decodeUtcTime b).2

/-- The seconds, the fraction and the quality of a `UtcTime`. -/
def utcBytes (secs frac : ℕ) (quality : UInt8) : Bytes :=
  beBytes 4 secs ++ (beBytes 3 frac ++ [quality])

/-- The fraction that comes back. -/
def recodeFraction (frac : ℕ) : ℕ := if 2 ^ 15 ∣ frac then frac else frac - 1

theorem mul_div_mul_div_fraction (n : ℕ) :
    n * 1000000000 / 2 ^ 24 * 2 ^ 24 / 1000000000 = recodeFraction n := by
  rw [mul_div_mul_div (by decide) (by decide), recodeFraction]
  simp only [dvd_fraction_iff]

theorem length_utcBytes (secs frac : ℕ) (quality : UInt8) :
    (utcBytes secs frac quality).length = 8 := by
  simp [utcBytes]

theorem seconds_utcBytes {secs : ℕ} (hs : secs < 2 ^ 32) (frac : ℕ) (quality : UInt8) :
    beNat (slice (utcBytes secs frac quality) 0 4) = secs := by
  have hslice : slice (utcBytes secs frac quality) 0 4 = beBytes 4 secs :=
    slice_append (a := []) (b := beBytes 4 secs) rfl (by rw [length_beBytes])
  rw [hslice, beNat_beBytes]
  exact Nat.mod_eq_of_lt hs

theorem fraction_utcBytes {frac : ℕ} (hf : frac < 2 ^ 24) (secs : ℕ) (quality : UInt8) :
    beNat (slice (utcBytes secs frac quality) 4 7) = frac := by
  rw [utcBytes, slice_append (length_beBytes 4 _) (by simp), beNat_beBytes]
  exact Nat.mod_eq_of_lt hf

/-- Any eight bytes are the three fields. -/
theorem exists_utcBytes {b : Bytes} (h : b.length = 8) :
    ∃ secs frac quality, secs < 2 ^ 32 ∧ frac < 2 ^ 24 ∧ b = utcBytes secs frac quality := by
  match b, h with
  | [b₀, b₁, b₂, b₃, b₄, b₅, b₆, b₇], _ =>
    have hsecs := beBytes_beNat [b₀, b₁, b₂, b₃]
    have hfrac := beBytes_beNat [b₄, b₅, b₆]
    have hs : beNat [b₀, b₁, b₂, b₃] < 2 ^ 32 := (beNat_lt _).trans_eq (by norm_num)
    have hf : beNat [b₄, b₅, b₆] < 2 ^ 24 := (beNat_lt _).trans_eq (by norm_num)
    refine ⟨_, _, b₇, hs, hf, ?_⟩
    show _ = beBytes [b₀, b₁, b₂, b₃].length _ ++ (beBytes [b₄, b₅, b₆].length _ ++ [b₇])
    rw [hsecs, hfrac]
    rfl

/-- The quality bits are a byte. -/
theorem encodeTimeQuality_bits (q : UInt8) :
    encodeTimeQuality
      { leapSecondsKnown := q &&& 0x80 != 0
        clockFailure := q &&& 0x40 != 0
        clockNotSynchronized := q &&& 0x20 != 0
        accuracy := q &&& 0x1F } = q := by
  have h : ∀ n : Fin 256, encodeTimeQuality
      { leapSecondsKnown := UInt8.ofNat n &&& 0x80 != 0
        clockFailure := UInt8.ofNat n &&& 0x40 != 0
        clockNotSynchronized := UInt8.ofNat n &&& 0x20 != 0
        accuracy := UInt8.ofNat n &&& 0x1F } = UInt8.ofNat n := by
    decide +kernel
  have hq := h ⟨q.toNat, q.toNat_lt⟩
  rwa [UInt8.ofNat_toNat] at hq

/-- **One trip keeps the seconds and the quality, and takes one unit off the fraction unless it is a
multiple of 2¹⁵.** -/
theorem recodeUtcTime_utcBytes {secs frac : ℕ} (hs : secs < 2 ^ 32) (hf : frac < 2 ^ 24)
    (quality : UInt8) :
    recodeUtcTime (utcBytes secs frac quality) = utcBytes secs (recodeFraction frac) quality := by
  have hlen : ¬ (utcBytes secs frac quality).length < 8 := by
    rw [length_utcBytes]
    decide
  have hquality : byteAt (utcBytes secs frac quality) 7 = quality := rfl
  have hnano : frac * 1000000000 / 2 ^ 24 < 1000000000 := by omega
  have hunix : (Time.ofUnix secs ((frac * 1000000000 / 2 ^ 24 : ℕ) : ℤ)).unix = secs := by
    unfold Time.ofUnix Time.unix
    dsimp only
    omega
  have hns : (Time.ofUnix secs ((frac * 1000000000 / 2 ^ 24 : ℕ) : ℤ)).nanosecond =
      (frac * 1000000000 / 2 ^ 24 : ℕ) := by
    unfold Time.ofUnix Time.nanosecond
    dsimp only
    omega
  have hback : utcFraction (.ofUnix secs ((frac * 1000000000 / 2 ^ 24 : ℕ) : ℤ)) =
      recodeFraction frac := by
    rw [utcFraction, hns, ← mul_div_mul_div_fraction]
    omega
  rw [recodeUtcTime, decodeUtcTime, if_neg hlen, seconds_utcBytes hs, fraction_utcBytes hf,
    hquality]
  dsimp only
  rw [encodeUtcTime, hunix, hback, encodeTimeQuality_bits, utcBytes]
  congr 2
  omega

/-- A fraction on both grids. -/
theorem recodeFraction_eq_iff (n : ℕ) : recodeFraction n = n ↔ n % 2 ^ 15 = 0 := by
  rw [recodeFraction, ← Nat.dvd_iff_mod_eq_zero]
  split_ifs with h
  · exact iff_of_true rfl h
  · refine iff_of_false ?_ h
    rintro heq
    have hzero : n = 0 := by omega
    exact h (hzero ▸ dvd_zero _)

theorem recodeFraction_le (n : ℕ) : recodeFraction n ≤ n := by
  rw [recodeFraction]
  split_ifs <;> omega

/-- The drift: one unit a trip, down to the next multiple of 2¹⁵ and no further. -/
theorem recodeFraction_iterate (k n : ℕ) :
    recodeFraction^[k] n = max (n - k) (n / 2 ^ 15 * 2 ^ 15) := by
  induction k with
  | zero =>
      rw [Function.iterate_zero_apply]
      omega
  | succ k ih =>
      rw [Function.iterate_succ_apply', ih, recodeFraction]
      simp only [Nat.dvd_iff_mod_eq_zero]
      split_ifs <;> omega

theorem recodeUtcTime_iterate {secs frac : ℕ} (hs : secs < 2 ^ 32) (hf : frac < 2 ^ 24)
    (quality : UInt8) (k : ℕ) :
    recodeUtcTime^[k] (utcBytes secs frac quality) =
      utcBytes secs (max (frac - k) (frac / 2 ^ 15 * 2 ^ 15)) quality := by
  rw [← recodeFraction_iterate]
  induction k with
  | zero => rfl
  | succ k ih =>
      have hlt : recodeFraction^[k] frac < 2 ^ 24 := by
        rw [recodeFraction_iterate]
        omega
      rw [Function.iterate_succ_apply', ih, recodeUtcTime_utcBytes hs hlt,
        Function.iterate_succ_apply']

/-- **The bytes come back, after one trip and after any number of them, exactly if the fraction is a
multiple of 2¹⁵.** -/
theorem recodeUtcTime_eq_iff {b : Bytes} (h : b.length = 8) :
    (recodeUtcTime b = b ↔ beNat (slice b 4 7) % 2 ^ 15 = 0) ∧
      ((∀ k, recodeUtcTime^[k] b = b) ↔ beNat (slice b 4 7) % 2 ^ 15 = 0) := by
  obtain ⟨secs, frac, quality, hs, hf, rfl⟩ := exists_utcBytes h
  rw [fraction_utcBytes hf]
  have hone : recodeUtcTime (utcBytes secs frac quality) = utcBytes secs frac quality ↔
      frac % 2 ^ 15 = 0 := by
    have hle : recodeFraction frac < 2 ^ 24 := (recodeFraction_le frac).trans_lt hf
    rw [recodeUtcTime_utcBytes hs hf, ← recodeFraction_eq_iff]
    refine ⟨fun heq ↦ ?_, fun heq ↦ by rw [heq]⟩
    rw [← fraction_utcBytes hle secs quality, heq, fraction_utcBytes hf]
  refine ⟨hone, fun hall ↦ hone.mp (hall 1), fun hfrac k ↦ ?_⟩
  exact Function.iterate_fixed (hone.mpr hfrac) k

/-! ## To the wire and back -/

/-- **A time comes back with its quality, less than 61 ns earlier, and times come back in their
order**: the subscriber does not see a later state as a stale one. -/
theorem decodeUtcTime_encodeUtcTime_order {s t : Time} {q : TimeQuality} (hs : InUtcRange s)
    (ht : InUtcRange t) (hst : s ≤ t) (hq : q.Fits) (r : TimeQuality) :
    let s' := (decodeUtcTime (encodeUtcTime s r)).1
    let t' := (decodeUtcTime (encodeUtcTime t q)).1
    (decodeUtcTime (encodeUtcTime t q)).2 = q ∧ t.ns - 61 < t'.ns ∧ t' ≤ t ∧ s' ≤ t' ∧
      (∀ (st : StreamState) (pdu : PDU), st.lastTimestamp = s' → pdu.timestamp = t' →
        st.staleTimestamp pdu = false) ∧
      ∀ states : List (Time × TimeQuality), (∀ p ∈ states, InUtcRange p.1) →
        states.Pairwise (fun p p' ↦ p.1 ≤ p'.1) →
        (states.map fun p ↦ (decodeUtcTime (encodeUtcTime p.1 p.2)).1).Pairwise (· ≤ ·) := by
  have hmono {u v : Time} (hu : InUtcRange u) (hv : InUtcRange v) (huv : u ≤ v)
      (q r : TimeQuality) : (decodeUtcTime (encodeUtcTime u r)).1 ≤
        (decodeUtcTime (encodeUtcTime v q)).1 := by
    rw [decodeUtcTime_encodeUtcTime, decodeUtcTime_encodeUtcTime]
    exact wireTime_mono hu hv huv
  have hwire : (decodeUtcTime (encodeUtcTime t q)).1 = truncTime t := by
    rw [decodeUtcTime_encodeUtcTime, wireTime_eq_truncTime ht]
  obtain ⟨hle, hlt⟩ := truncTime_spec t
  refine ⟨decodeUtcTime_quality hq t, ?_, ?_, hmono hs ht hst q r, ?_, ?_⟩
  · rw [hwire]
    omega
  · rw [hwire]
    exact hle
  · intro st pdu hlast htime
    have hbefore : pdu.timestamp.before st.lastTimestamp = false := by
      rw [hlast, htime]
      exact decide_eq_false (not_lt.mpr (hmono hs ht hst q r))
    rw [StreamState.staleTimestamp, hbefore, Bool.and_false]
  · intro states hrange hsorted
    rw [List.pairwise_map]
    refine hsorted.imp_of_mem ?_
    intro p p' hp hp' hle
    exact hmono (hrange p hp) (hrange p' hp') hle p'.2 p.2

theorem decodeUtcTime_encodeUtcTime_order_boundary :
    InUtcRange (.ofUnix 6 999999999) ∧ InUtcRange (.ofUnix 7 0) ∧
      (decodeUtcTime (encodeUtcTime (.ofUnix 6 999999999) {})).1 ≤
        (decodeUtcTime (encodeUtcTime (.ofUnix 7 0) { accuracy := 31 })).1 ∧
      (decodeUtcTime (encodeUtcTime (.ofUnix 7 0) { accuracy := 31 })).2 = { accuracy := 31 } := by
  have hs : InUtcRange (.ofUnix 6 999999999) := by decide
  have ht : InUtcRange (.ofUnix 7 0) := by decide
  obtain ⟨hquality, -, -, hle, -, -⟩ := decodeUtcTime_encodeUtcTime_order hs ht
    (by rw [Time.le_def]; decide) (show TimeQuality.Fits { accuracy := 31 } by decide) {}
  exact ⟨hs, ht, hle, hquality⟩

end ProcessBus.Goose
