import ProcessBus.Go.Expr
import ProcessBus.Ptp.Client.Service

/-!
# Measurements beyond 64 bits

The formulas of the timestamp processor and of the peer delay are sums of differences of times,
which saturate, and of correction fields, which come from the network and are added in `int64`
before they are scaled.  Written as expressions they have an exact value, and the client computes it
with no operation going astray exactly if every difference and every partial sum fits an `int64`
(`measurements_exact_iff`).

Nothing keeps a correction field small: two of them can wrap around although the offset they belong
to is zero (`correction_sum_wraps`).
-/

namespace ProcessBus.Ptp.Client

open Go

/-- What is asked of a computed value: it is the exact one if that fits, and nothing on the way to
it wraps or saturates. -/
def Computes (e : Expr) (r : Duration) (exact : ℤ) : Prop :=
  (Fits64 exact → r.toInt = exact) ∧ e.Clean

theorem computes_iff {e : Expr} {r : Duration} {exact : ℤ}
    (h : e.eval.toInt = e.exact → r.toInt = exact) : Computes e r exact ↔ e.Fits := by
  rw [Computes, ← e.clean_iff_fits]
  exact and_iff_right_of_imp fun hclean _ ↦ h hclean.toInt_eval

/-! ## Offset and delay -/

namespace TsProc

variable (p : TsProc)

/-- `t2 - t1`. -/
def d21 : ℤ := p.t2.val.ns - p.t1.val.ns

/-- `t4 - t3`. -/
def d43 : ℤ := p.t4.val.ns - p.t3.val.ns

/-- The correction fields of Sync and Follow_Up together. -/
def correctionSum : ℤ := p.correctionSync.val.toInt + p.correctionFollowUp.val.toInt

def syncCorrection : ℤ := p.correctionSum.tdiv 65536

def delayCorrection : ℤ := p.correctionDelayResp.val.toInt.tdiv 65536

/-- The formulas of `OffsetE2E` and `OffsetP2P`, over the integers. -/
def exactOffset : ℤ := (p.d21 - p.d43 - p.syncCorrection + p.delayCorrection).tdiv 2

def exactDelay : ℤ := (p.d21 + p.d43 - p.syncCorrection - p.delayCorrection).tdiv 2

def exactOffsetP2P : ℤ := p.d21 - p.peerDelay.toInt - p.syncCorrection

/-- The same formulas as the code has them. -/
def syncExpr : Expr :=
  .quo (.add (.lit p.correctionSync.val) (.lit p.correctionFollowUp.val)) 65536 (by decide)

def delayRespExpr : Expr := .quo (.lit p.correctionDelayResp.val) 65536 (by decide)

def offsetExpr : Expr :=
  .quo (.add (.sub (.sub (.diff p.t2.val p.t1.val) (.diff p.t4.val p.t3.val)) p.syncExpr)
    p.delayRespExpr) 2 (by decide)

def delayExpr : Expr :=
  .quo (.sub (.sub (.add (.diff p.t2.val p.t1.val) (.diff p.t4.val p.t3.val)) p.syncExpr)
    p.delayRespExpr) 2 (by decide)

def offsetP2PExpr : Expr :=
  .sub (.sub (.diff p.t2.val p.t1.val) (.lit p.peerDelay)) p.syncExpr

/-- All four timestamps are set. -/
def IsSet : Prop :=
  p.t1.val.isZero = false ∧ p.t2.val.isZero = false ∧ p.t3.val.isZero = false ∧
    p.t4.val.isZero = false

instance : Decidable p.IsSet := inferInstanceAs (Decidable (_ ∧ _))

/-- The time differences, the sum of the correction fields and the partial sums fit 64 bits. -/
structure FitsE2E : Prop where
  d21 : Fits64 p.d21
  d43 : Fits64 p.d43
  corrections : Fits64 p.correctionSum
  difference : Fits64 (p.d21 - p.d43)
  differenceSync : Fits64 (p.d21 - p.d43 - p.syncCorrection)
  offset : Fits64 (p.d21 - p.d43 - p.syncCorrection + p.delayCorrection)
  sum : Fits64 (p.d21 + p.d43)
  sumSync : Fits64 (p.d21 + p.d43 - p.syncCorrection)
  delay : Fits64 (p.d21 + p.d43 - p.syncCorrection - p.delayCorrection)

structure FitsP2P : Prop where
  d21 : Fits64 p.d21
  corrections : Fits64 p.correctionSum
  pathless : Fits64 (p.d21 - p.peerDelay.toInt)
  offset : Fits64 (p.d21 - p.peerDelay.toInt - p.syncCorrection)

/-- `OffsetE2E` does what is asked of it. -/
def ExactE2E : Prop :=
  ∃ offset delay, p.offsetE2E = some (offset, delay) ∧
    Computes p.offsetExpr offset p.exactOffset ∧ Computes p.delayExpr delay p.exactDelay

def ExactP2P : Prop :=
  ∃ offset, p.offsetP2P = some offset ∧ Computes p.offsetP2PExpr offset p.exactOffsetP2P

variable {p}

theorem exactE2E_iff (h : p.IsSet) : p.ExactE2E ↔ p.FitsE2E := by
  obtain ⟨h1, h2, h3, h4⟩ := h
  have heval : p.offsetE2E = some (p.offsetExpr.eval, p.delayExpr.eval) := by
    rw [offsetE2E, h1, h2, h3, h4]
    rfl
  have hfits : p.offsetExpr.Fits ∧ p.delayExpr.Fits ↔ p.FitsE2E := by
    constructor
    · rintro ⟨⟨⟨⟨h21, h43, hdiff⟩, ⟨-, -, hcorr⟩, hds⟩, -, hoffset⟩,
        ⟨⟨-, -, hsum⟩, -, hss⟩, -, hdelay⟩
      exact ⟨h21, h43, hcorr, hdiff, hds, hoffset, hsum, hss, hdelay⟩
    · rintro ⟨h21, h43, hcorr, hdiff, hds, hoffset, hsum, hss, hdelay⟩
      exact ⟨⟨⟨⟨h21, h43, hdiff⟩, ⟨trivial, trivial, hcorr⟩, hds⟩, trivial, hoffset⟩,
        ⟨⟨h21, h43, hsum⟩, ⟨trivial, trivial, hcorr⟩, hss⟩, trivial, hdelay⟩
  have hoffset : Computes p.offsetExpr p.offsetExpr.eval p.exactOffset ↔ p.offsetExpr.Fits :=
    computes_iff id
  have hdelay : Computes p.delayExpr p.delayExpr.eval p.exactDelay ↔ p.delayExpr.Fits :=
    computes_iff id
  rw [← hfits, ← hoffset, ← hdelay]
  constructor
  · rintro ⟨offset, delay, hsome, hboth⟩
    rw [heval] at hsome
    cases hsome
    exact hboth
  · intro hboth
    exact ⟨_, _, heval, hboth⟩

theorem exactP2P_iff (h1 : p.t1.val.isZero = false) (h2 : p.t2.val.isZero = false) :
    p.ExactP2P ↔ p.FitsP2P := by
  have heval : p.offsetP2P = some p.offsetP2PExpr.eval := by
    rw [offsetP2P, h1, h2]
    rfl
  have hfits : p.offsetP2PExpr.Fits ↔ p.FitsP2P := by
    constructor
    · rintro ⟨⟨h21, -, hpath⟩, ⟨-, -, hcorr⟩, hoffset⟩
      exact ⟨h21, hcorr, hpath, hoffset⟩
    · rintro ⟨h21, hcorr, hpath, hoffset⟩
      exact ⟨⟨h21, trivial, hpath⟩, ⟨trivial, trivial, hcorr⟩, hoffset⟩
  have hoffset : Computes p.offsetP2PExpr p.offsetP2PExpr.eval p.exactOffsetP2P ↔
      p.offsetP2PExpr.Fits := computes_iff id
  rw [← hfits, ← hoffset]
  constructor
  · rintro ⟨offset, hsome, hcomputes⟩
    rw [heval] at hsome
    cases hsome
    exact hcomputes
  · intro hcomputes
    exact ⟨_, heval, hcomputes⟩

/-- Clocks within 73 years of each other: all that can go wrong is the sum of the corrections. -/
theorem FitsE2E.of_corrections (h21 : |p.d21| ≤ 2 ^ 61) (h43 : |p.d43| ≤ 2 ^ 61)
    (hcorr : Fits64 p.correctionSum) : p.FitsE2E := by
  have hsync : p.syncCorrection.natAbs = p.correctionSum.natAbs / 65536 :=
    Int.natAbs_tdiv p.correctionSum 65536
  have hdelay : p.delayCorrection.natAbs = p.correctionDelayResp.val.toInt.natAbs / 65536 :=
    Int.natAbs_tdiv p.correctionDelayResp.val.toInt 65536
  have hresp := fits64_toInt p.correctionDelayResp.val
  rw [abs_le] at h21 h43
  unfold Fits64 at hcorr hresp
  constructor <;> unfold Fits64 <;> omega

end TsProc

/-! ## Peer delay -/

namespace Service

variable {F C T : Type} (s : Service F C T)

/-- The `t3` of `computePeerDelay`: a one-step responder sends none. -/
def peerT3 : Time := (if s.pdelayT3.val.isZero then s.pdelayT2 else s.pdelayT3).val

/-- `t4 - t1`. -/
def d41 : ℤ := s.pdelayT4.val.ns - s.pdelayT1.val.ns

/-- `t3 - t2`. -/
def d32 : ℤ := s.peerT3.ns - s.pdelayT2.val.ns

/-- The formula of `computePeerDelay` over the integers; a negative result is taken for zero. -/
def exactPeerDelay (corr : ℤ) : ℤ := max 0 ((s.d41 - s.d32 - corr.tdiv 65536).tdiv 2)

/-- The same as the code has it, before the clamp. -/
def peerDelayExpr (corr : Expr) : Expr :=
  .quo (.sub (.sub (.diff s.pdelayT4.val s.pdelayT1.val) (.diff s.peerT3 s.pdelayT2.val))
    (.quo corr 65536 (by decide))) 2 (by decide)

/-- The timestamps of a peer delay exchange are set. -/
def PeerIsSet : Prop :=
  s.pdelayT1.val.isZero = false ∧ s.pdelayT2.val.isZero = false ∧ s.pdelayT4.val.isZero = false

structure FitsPeerDelay (corr : ℤ) : Prop where
  d41 : Fits64 s.d41
  d32 : Fits64 s.d32
  turnaround : Fits64 (s.d41 - s.d32)
  delay : Fits64 (s.d41 - s.d32 - corr.tdiv 65536)

/-- `s'` has the peer delay that is asked for in `s`. -/
def ExactPeerDelay (s' : Service F C T) (corr : Expr) : Prop :=
  Computes (s.peerDelayExpr corr) s'.tsproc.peerDelay (s.exactPeerDelay corr.exact)

variable {s}

theorem peerDelay_computePeerDelay (h : s.PeerIsSet) (corr : Expr) :
    (s.computePeerDelay corr.eval).tsproc.peerDelay =
      if (s.peerDelayExpr corr).eval < 0 then 0 else (s.peerDelayExpr corr).eval := by
  obtain ⟨h1, h2, h4⟩ := h
  have hset :
      ¬ (s.pdelayT1.val.isZero || s.pdelayT2.val.isZero || s.pdelayT4.val.isZero) = true := by
    rw [h1, h2, h4]
    decide
  rw [computePeerDelay, if_neg hset]
  rfl

theorem exactPeerDelay_iff (h : s.PeerIsSet) (corr : Expr) :
    s.ExactPeerDelay (s.computePeerDelay corr.eval) corr ↔
      corr.Fits ∧ s.FitsPeerDelay corr.exact := by
  have hfits : (s.peerDelayExpr corr).Fits ↔ corr.Fits ∧ s.FitsPeerDelay corr.exact := by
    constructor
    · rintro ⟨⟨h41, h32, hdiff⟩, hcorr, hdelay⟩
      exact ⟨hcorr, h41, h32, hdiff, hdelay⟩
    · rintro ⟨hcorr, h41, h32, hdiff, hdelay⟩
      exact ⟨⟨h41, h32, hdiff⟩, hcorr, hdelay⟩
  rw [ExactPeerDelay, peerDelay_computePeerDelay h, ← hfits]
  refine computes_iff fun heval ↦ ?_
  have hexact : s.exactPeerDelay corr.exact = max 0 (s.peerDelayExpr corr).exact := rfl
  rw [hexact, ← heval]
  split
  · rename_i hneg
    exact (max_eq_left (Int64.lt_iff_toInt_lt.mp hneg).le).symm
  · rename_i hnonneg
    exact (max_eq_right (not_lt.mp (mt Int64.lt_iff_toInt_lt.mpr hnonneg))).symm

end Service

/-! ## All measurements -/

/-- **The client computes what the formulas say, without an operation that wraps or saturates,
exactly if the time differences, the sums of the correction fields and the partial sums of the
formulas fit 64 bits.**  The last two parts are the peer delay after a one-step and after a two-step
response. -/
theorem measurements_exact_iff {F C T : Type} :
    (∀ p : TsProc, p.IsSet → (p.ExactE2E ↔ p.FitsE2E)) ∧
    (∀ p : TsProc, p.t1.val.isZero = false → p.t2.val.isZero = false →
      (p.ExactP2P ↔ p.FitsP2P)) ∧
    (∀ (s : Service F C T) (corr : Int64), s.PeerIsSet →
      (s.ExactPeerDelay (s.computePeerDelay corr) (.lit corr) ↔ s.FitsPeerDelay corr.toInt)) ∧
    ∀ (s : Service F C T) (fu : Pending ResponseBody), (s.setPDelayFollowUp fu).PeerIsSet →
      ((s.setPDelayFollowUp fu).ExactPeerDelay (s.completePDelayFollowUp fu)
          (.add (.lit s.pdelayRespCorrection) (.lit fu.header.correctionField)) ↔
        Fits64 (s.pdelayRespCorrection.toInt + fu.header.correctionField.toInt) ∧
          (s.setPDelayFollowUp fu).FitsPeerDelay
            (s.pdelayRespCorrection.toInt + fu.header.correctionField.toInt)) := by
  refine ⟨fun p hset ↦ TsProc.exactE2E_iff hset, fun p h1 h2 ↦ TsProc.exactP2P_iff h1 h2, ?_, ?_⟩
  · intro s corr hset
    refine (Service.exactPeerDelay_iff hset (.lit corr)).trans ?_
    exact and_iff_right trivial
  · intro s fu hset
    refine (Service.exactPeerDelay_iff hset
      (.add (.lit s.pdelayRespCorrection) (.lit fu.header.correctionField))).trans ?_
    refine and_congr_left fun _ ↦ ?_
    exact ⟨fun hfits ↦ hfits.2.2, fun hfits ↦ ⟨trivial, trivial, hfits⟩⟩

/-- Two-step synchronisation with the given corrections; the receiver is `ahead` nanoseconds later.
-/
def exampleMeasurement (ahead : ℤ) (correctionSync correctionFollowUp : Int64) : TsProc :=
  { TsProc.zero with
    t1 := ⟨.ofUnix 1 0, none, 0⟩
    t2 := ⟨.ofUnix 1 ahead, none, 0⟩
    t3 := ⟨.ofUnix 1 ahead, none, 0⟩
    t4 := ⟨.ofUnix 1 ahead, none, 0⟩
    correctionSync := ⟨correctionSync, none, 0⟩
    correctionFollowUp := ⟨correctionFollowUp, none, 0⟩ }

theorem measurements_exact_small :
    (exampleMeasurement 1001 65536 (-1)).ExactE2E ∧
      (exampleMeasurement 1001 65536 (-1)).exactOffset = 500 := by
  have hset : (exampleMeasurement 1001 65536 (-1)).IsSet := by decide
  refine ⟨(measurements_exact_iff (F := ℚ) (C := Unit) (T := Unit).1 _ hset).mpr ?_, by decide⟩
  constructor <;> decide

/-- Two correction fields of 2⁶² add up to a negative number.  The offset is zero, and the client
says it is 2⁴⁸ ns, more than three days. -/
theorem correction_sum_wraps :
    let p := exampleMeasurement (2 ^ 47) (2 ^ 62) (2 ^ 62)
    p.IsSet ∧ p.exactOffsetP2P = 0 ∧ p.offsetP2P = some (2 ^ 48) ∧
      p.exactOffset = 0 ∧ p.offsetE2E = some (2 ^ 47, 2 ^ 47) ∧ ¬ p.ExactP2P ∧ ¬ p.ExactE2E := by
  intro p
  have hP2P : p.offsetP2P = some (2 ^ 48) := by decide +kernel
  have hE2E : p.offsetE2E = some (2 ^ 47, 2 ^ 47) := by decide +kernel
  refine ⟨by decide +kernel, by decide +kernel, hP2P, by decide +kernel, hE2E, ?_, ?_⟩
  · rintro ⟨offset, hsome, hcomputes, -⟩
    rw [hP2P] at hsome
    cases hsome
    exact absurd (hcomputes (by decide +kernel)) (by decide +kernel)
  · rintro ⟨offset, delay, hsome, ⟨hcomputes, -⟩, -⟩
    rw [hE2E] at hsome
    cases hsome
    exact absurd (hcomputes (by decide +kernel)) (by decide +kernel)

end ProcessBus.Ptp.Client
