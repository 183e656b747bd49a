import ProcessBus.Go.Int64
import ProcessBus.Ptp.Client.Service

/-!
# The arithmetic of a measurement

The client's clock is `theta` nanoseconds ahead of the master's, and the path takes `D` nanoseconds
in each direction.  A message that spends `c / 2^16` nanoseconds in transparent clocks is seen to
take `D + rho`, where `rho` is that time in whole nanoseconds, rounded up or down (`Rounds`), since
both ends count whole nanoseconds.

What the client computes is `theta` and `D`, up to one nanosecond, and exactly if the corrections
are whole nanoseconds.  It computes twice these values before it divides by two, so they have to
stay below `2^62`.
-/

namespace ProcessBus.Ptp.Client

open Go

/-- `rho` nanoseconds are seen of the time `c / 2^16`. -/
def Rounds (rho c : ℤ) : Prop := |rho * 65536 - c| < 65536

instance (rho c : ℤ) : Decidable (Rounds rho c) := inferInstanceAs (Decidable (_ < _))

/-- A message that is sent at `sent` and received at `received`, as the clocks of the two ends see
it: `x` is the path delay and the difference of the clocks, and `c` the correction. -/
def Leg (x c : ℤ) (sent received : Time) : Prop := Rounds (received.ns - sent.ns - x) c

instance (x c : ℤ) (sent received : Time) : Decidable (Leg x c sent received) :=
  inferInstanceAs (Decidable (Rounds _ _))

/-- A whole number of nanoseconds. -/
def IsWhole (c : ℤ) : Prop := 65536 ∣ c

instance (c : ℤ) : Decidable (IsWhole c) := inferInstanceAs (Decidable (_ ∣ _))

/-- Twice the number, and what is rounded away from it, fits an `int64`. -/
def Halves (x : ℤ) : Prop := |x| < 2 ^ 62 - 1

instance (x : ℤ) : Decidable (Halves x) := inferInstanceAs (Decidable (_ < _))

/-- `r` is the number `x`, up to `n` nanoseconds, and exactly if `whole` holds. -/
structure Approximates (n : ℤ) (whole : Prop) (r : Duration) (x : ℤ) : Prop where
  near : |r.toInt - x| ≤ n
  exact : whole → r.toInt = x

/-! ## Corrections -/

theorem correctionDuration_ofInt {c : ℤ} (h : Fits64 c) :
    correctionDuration (.ofInt c) = .ofInt (c.tdiv 65536) := by
  have habs : (c.tdiv 65536).natAbs = c.natAbs / 65536 := Int.natAbs_tdiv c 65536
  have hfits : Fits64 (c.tdiv 65536) := by
    unfold Fits64 at h ⊢
    omega
  rw [← Int64.toInt_inj, correctionDuration, toInt_div (by decide), toInt_ofInt h,
    toInt_ofInt hfits]
  rfl

/-- Truncation and rounding together lose one nanosecond. -/
theorem Rounds.near {rho c : ℤ} (h : Rounds rho c) : |rho - c.tdiv 65536| ≤ 1 := by
  have hlt := abs_sub_tdiv_mul_lt (b := 65536) (by decide) rho c
  unfold Rounds at h
  omega

theorem Rounds.exact {rho c : ℤ} (h : Rounds rho c) (hc : IsWhole c) : rho = c.tdiv 65536 := by
  obtain ⟨k, rfl⟩ := hc
  rw [Int.mul_tdiv_cancel_left k (by decide)]
  obtain ⟨hlow, hhigh⟩ := abs_lt.mp h
  omega

/-- The sum of two, which is truncated once. -/
theorem Rounds.add_near {rho rho' c c' : ℤ} (h : Rounds rho c) (h' : Rounds rho' c') :
    |rho + rho' - (c + c').tdiv 65536| ≤ 2 := by
  have hlt := abs_sub_tdiv_mul_lt (b := 65536) (by decide) (rho + rho') (c + c')
  obtain ⟨hlow, hhigh⟩ := abs_lt.mp h
  obtain ⟨hlow', hhigh'⟩ := abs_lt.mp h'
  have hsum : |(rho + rho') * 65536 - (c + c')| < 2 * 65536 := by
    rw [abs_lt]
    omega
  omega

theorem Rounds.add_exact {rho rho' c c' : ℤ} (h : Rounds rho c) (h' : Rounds rho' c')
    (hc : IsWhole c) (hc' : IsWhole c') : rho + rho' = (c + c').tdiv 65536 := by
  rw [h.exact hc, h'.exact hc']
  obtain ⟨k, rfl⟩ := hc
  obtain ⟨k', rfl⟩ := hc'
  rw [← mul_add, Int.mul_tdiv_cancel_left _ (by decide), Int.mul_tdiv_cancel_left _ (by decide),
    Int.mul_tdiv_cancel_left _ (by decide)]

/-! ## Differences -/

theorem sub_eq_ofInt {t u : Time} (h : Fits64 (t.ns - u.ns)) : t.sub u = .ofInt (t.ns - u.ns) := by
  obtain ⟨hlow, hhigh⟩ := h
  rw [Time.sub, saturate, min_eq_right (by omega), max_eq_right (by omega)]

/-- Half of a number that is at most 2 ns away from `2 * x`. -/
theorem half_near {x y : ℤ} (h : |y - 2 * x| ≤ 2) : |y.tdiv 2 - x| ≤ 1 := by
  have hlt := abs_sub_tdiv_mul_lt (b := 2) (by decide) x y
  rw [abs_sub_comm, mul_comm] at h
  rw [abs_sub_comm]
  omega

/-- The end of every computation: a number next to `2 * x` is divided by two. -/
theorem approximates_half {x y : ℤ} {whole : Prop} (hx : Halves x) (hnear : |y - 2 * x| ≤ 2)
    (hexact : whole → y = 2 * x) : Approximates 1 whole (Int64.ofInt y / 2) x := by
  have hfits : Fits64 y := by
    rw [Halves, abs_lt] at hx
    rw [abs_le] at hnear
    unfold Fits64
    omega
  have hdiv : (Int64.ofInt y / 2).toInt = y.tdiv 2 := by
    rw [toInt_div (by decide), toInt_ofInt hfits]
    rfl
  refine ⟨?_, ?_⟩
  · rw [hdiv]
    exact half_near hnear
  · intro hw
    rw [hdiv, hexact hw, Int.mul_tdiv_cancel_left x (by decide)]

/-- What is left of a leg after its correction. -/
theorem Leg.sub_correction {x c : ℤ} {sent received : Time} (h : Leg x c sent received)
    (hfits : Fits64 (received.ns - sent.ns)) (hc : Fits64 c) :
    ∃ e : ℤ, |e| ≤ 1 ∧ (IsWhole c → e = 0) ∧
      received.sub sent - correctionDuration (.ofInt c) = .ofInt (x + e) := by
  refine ⟨received.ns - sent.ns - x - c.tdiv 65536, h.near, ?_, ?_⟩
  · intro hw
    rw [← h.exact hw, sub_self]
  · rw [sub_eq_ofInt hfits, correctionDuration_ofInt hc, ← Int64.ofInt_sub]
    congr 1
    ring

/-! ## Results -/

/-- **End to end**: the offset and the mean path delay. -/
theorem TsProc.offsetE2E_accurate {p : TsProc} {theta D cSync cDelay : ℤ}
    (hset : p.t1.val.isZero = false ∧ p.t2.val.isZero = false ∧ p.t3.val.isZero = false ∧
      p.t4.val.isZero = false)
    (hsync : Leg (D + theta) cSync p.t1.val p.t2.val)
    (hdelay : Leg (D - theta) cDelay p.t3.val p.t4.val)
    (h21 : Fits64 (p.t2.val.ns - p.t1.val.ns)) (h43 : Fits64 (p.t4.val.ns - p.t3.val.ns))
    (hcSync : p.correctionSync.val + p.correctionFollowUp.val = .ofInt cSync)
    (hcDelay : p.correctionDelayResp.val = .ofInt cDelay)
    (hfSync : Fits64 cSync) (hfDelay : Fits64 cDelay) (htheta : Halves theta) (hD : Halves D) :
    ∃ offset delay, p.offsetE2E = some (offset, delay) ∧
      Approximates 1 (IsWhole cSync ∧ IsWhole cDelay) offset theta ∧
      Approximates 1 (IsWhole cSync ∧ IsWhole cDelay) delay D := by
  obtain ⟨e, he, heW, hs⟩ := hsync.sub_correction h21 hfSync
  obtain ⟨e', he', heW', hd⟩ := hdelay.sub_correction h43 hfDelay
  have hnum : p.offsetE2E = some
      (Int64.ofInt (D + theta + e - (D - theta + e')) / 2,
        Int64.ofInt (D + theta + e + (D - theta + e')) / 2) := by
    unfold offsetE2E
    rw [if_neg (by simp [hset])]
    dsimp only
    rw [hcSync, hcDelay, Int64.ofInt_sub, Int64.ofInt_add (D + theta + e), ← hs, ← hd]
    generalize p.t2.val.sub p.t1.val = d21
    generalize p.t4.val.sub p.t3.val = d43
    generalize correctionDuration (.ofInt cSync) = sc
    generalize correctionDuration (.ofInt cDelay) = dc
    have hoffset : d21 - d43 - sc + dc = d21 - sc - (d43 - dc) := by grind
    have hdelay : d21 + d43 - sc - dc = d21 - sc + (d43 - dc) := by grind
    rw [hoffset, hdelay]
  rw [abs_le] at he he'
  refine ⟨_, _, hnum, approximates_half htheta ?_ ?_, approximates_half hD ?_ ?_⟩
  · rw [abs_le]
    omega
  · rintro ⟨hw, hw'⟩
    rw [heW hw, heW' hw']
    ring
  · rw [abs_le]
    omega
  · rintro ⟨hw, hw'⟩
    rw [heW hw, heW' hw']
    ring

/-- **The peer delay**: `t1` to `t4` are the timestamps of the exchange with the peer. -/
theorem peerDelay_accurate {t1 t2 t3 t4 : Time} {theta D cReq cResp : ℤ}
    (hreq : Leg (D - theta) cReq t1 t2) (hresp : Leg (D + theta) cResp t3 t4)
    (h41 : Fits64 (t4.ns - t1.ns)) (h32 : Fits64 (t3.ns - t2.ns)) (hc : Fits64 (cReq + cResp))
    (hD : Halves D) (hD' : 0 ≤ D) :
    Approximates 1 (IsWhole cReq ∧ IsWhole cResp)
      (let delay := (t4.sub t1 - t3.sub t2 - correctionDuration (.ofInt (cReq + cResp))) / 2
       if delay < 0 then 0 else delay) D := by
  have hnum : t4.sub t1 - t3.sub t2 - correctionDuration (.ofInt (cReq + cResp)) =
      .ofInt (2 * D + ((t2.ns - t1.ns - (D - theta)) + (t4.ns - t3.ns - (D + theta)) -
        (cReq + cResp).tdiv 65536)) := by
    rw [sub_eq_ofInt h41, sub_eq_ofInt h32, correctionDuration_ofInt hc, ← Int64.ofInt_sub,
      ← Int64.ofInt_sub]
    congr 1
    ring
  have hnear := hreq.add_near hresp
  have hdelay : Approximates 1 (IsWhole cReq ∧ IsWhole cResp)
      ((t4.sub t1 - t3.sub t2 - correctionDuration (.ofInt (cReq + cResp))) / 2) D := by
    rw [hnum]
    refine approximates_half hD ?_ ?_
    · rwa [add_sub_cancel_left]
    · rintro ⟨hw, hw'⟩
      rw [hreq.add_exact hresp hw hw', sub_self, add_zero]
  generalize (t4.sub t1 - t3.sub t2 - correctionDuration (.ofInt (cReq + cResp))) / 2 = delay
    at hdelay
  dsimp only
  split
  · rename_i hneg
    -- a negative result is next to a delay of zero
    have hneg' : delay.toInt < 0 := Int64.lt_iff_toInt_lt.mp hneg
    have hnear := abs_le.mp hdelay.near
    refine ⟨?_, ?_⟩
    · show |0 - D| ≤ 1
      rw [abs_le]
      omega
    · intro hw
      have := hdelay.exact hw
      omega
  · exact hdelay

/-- **Peer to peer**: the offset, with a peer delay that was measured before. -/
theorem TsProc.offsetP2P_accurate {p : TsProc} {theta D c : ℤ} {whole : Prop}
    (hset : p.t1.val.isZero = false ∧ p.t2.val.isZero = false)
    (hsync : Leg (D + theta) c p.t1.val p.t2.val) (h21 : Fits64 (p.t2.val.ns - p.t1.val.ns))
    (hc : p.correctionSync.val + p.correctionFollowUp.val = .ofInt c) (hfits : Fits64 c)
    (hpeer : Approximates 1 whole p.peerDelay D) (htheta : Halves theta) :
    ∃ offset, p.offsetP2P = some offset ∧ Approximates 2 (whole ∧ IsWhole c) offset theta := by
  obtain ⟨e, he, heW, hs⟩ := hsync.sub_correction h21 hfits
  have hnear := abs_le.mp hpeer.near
  rw [abs_le] at he
  have hfits' : Fits64 (D + theta + e - p.peerDelay.toInt) := by
    rw [Halves, abs_lt] at htheta
    unfold Fits64
    omega
  have hnum : p.offsetP2P = some (Int64.ofInt (D + theta + e - p.peerDelay.toInt)) := by
    unfold offsetP2P
    rw [if_neg (by simp [hset])]
    dsimp only
    rw [hc, Int64.ofInt_sub, ← hs, Int64.ofInt_toInt]
    generalize p.t2.val.sub p.t1.val = d21
    generalize correctionDuration (.ofInt c) = sc
    have hoffset : d21 - p.peerDelay - sc = d21 - sc - p.peerDelay := by grind
    rw [hoffset]
  refine ⟨_, hnum, ?_, ?_⟩
  · rw [toInt_ofInt hfits', abs_le]
    omega
  · rintro ⟨hw, hw'⟩
    rw [toInt_ofInt hfits', hpeer.exact hw, heW hw']
    ring

end ProcessBus.Ptp.Client
