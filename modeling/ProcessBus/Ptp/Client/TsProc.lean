import ProcessBus.Ptp.Types

/-!
# The timestamp processor

`internal/application/ptpclient/tsproc.go`.  A measurement combines timestamps that arrived in
different messages, and most of what can go wrong with it is a matter of where they came from.
So every timestamp and correction is kept together with its origin: which message it came from,
and under which conditions it was taken.  The origins are written by the handlers and read by
none of them.
-/

namespace ProcessBus.Ptp.Client

open Go

/-- Where a remote value came from: the sender and sequence number of its message, the
transmission it was issued for, and the UTC offset in use when it was taken. -/
structure Origin where
  source : PortIdentity
  sequenceID : UInt16
  tag : ℕ
  utcOffset : Int16
deriving DecidableEq, Repr

/-- A value with its origin (`none` if it was not received) and the number of clock steps made
before it was taken. -/
structure Traced (α : Type) where
  val : α
  origin : Option Origin
  epoch : ℕ
deriving DecidableEq

/-- A timestamp that is not set. -/
def Traced.unset : Traced Time := ⟨.zero, none, 0⟩

/-- A timestamp that is set comes from a message, and its origin is as `P` says. -/
def Traced.From (P : Origin → Prop) (t : Traced Time) : Prop :=
  t.val.isZero = false → ∃ o, t.origin = some o ∧ P o

theorem Traced.From.of_isZero {P : Origin → Prop} {t : Traced Time} (h : t.val.isZero = true) :
    t.From P := by
  intro hset
  cases h.symm.trans hset

theorem Traced.From.mono {P Q : Origin → Prop} {t : Traced Time} (h : t.From P)
    (hPQ : ∀ o, P o → Q o) : t.From Q := by
  intro hset
  obtain ⟨o, ho, hP⟩ := h hset
  exact ⟨o, ho, hPQ o hP⟩

/-- No correction. -/
def Traced.noCorrection : Traced Int64 := ⟨0, none, 0⟩

/-- `TsProc`. -/
structure TsProc where
  t1 : Traced Time
  t2 : Traced Time
  t3 : Traced Time
  t4 : Traced Time
  peerDelay : Duration
  correctionSync : Traced Int64
  correctionFollowUp : Traced Int64
  correctionDelayResp : Traced Int64
deriving DecidableEq

/-- `correctionDuration`: division truncates towards zero. -/
def correctionDuration (cf : Int64) : Duration := cf / 65536

namespace TsProc

/-- The zero value. -/
def zero : TsProc where
  t1 := .unset
  t2 := .unset
  t3 := .unset
  t4 := .unset
  peerDelay := 0
  correctionSync := .noCorrection
  correctionFollowUp := .noCorrection
  correctionDelayResp := .noCorrection

/-- `Reset`: the measured peer delay stays. -/
def reset (p : TsProc) : TsProc := { zero with peerDelay := p.peerDelay }

/-- `OffsetE2E`: offset and delay, if all four timestamps are set. -/
def offsetE2E (p : TsProc) : Option (Duration × Duration) :=
  if p.t1.val.isZero || p.t2.val.isZero || p.t3.val.isZero || p.t4.val.isZero then none
  else
    let d21 := p.t2.val.sub p.t1.val
    let d43 := p.t4.val.sub p.t3.val
    let syncCorrection := correctionDuration (p.correctionSync.val + p.correctionFollowUp.val)
    let delayCorrection := correctionDuration p.correctionDelayResp.val
    some ((d21 - d43 - syncCorrection + delayCorrection) / 2,
      (d21 + d43 - syncCorrection - delayCorrection) / 2)

/-- `OffsetP2P`. -/
def offsetP2P (p : TsProc) : Option Duration :=
  if p.t1.val.isZero || p.t2.val.isZero then none
  else
    let d21 := p.t2.val.sub p.t1.val
    let syncCorrection := correctionDuration (p.correctionSync.val + p.correctionFollowUp.val)
    some (d21 - p.peerDelay - syncCorrection)

/-- An offset needs all of its timestamps. -/
theorem isSet_of_offsetE2E {p : TsProc} {r : Duration × Duration} (h : p.offsetE2E = some r) :
    p.t1.val.isZero = false ∧ p.t2.val.isZero = false ∧ p.t3.val.isZero = false ∧
      p.t4.val.isZero = false := by
  unfold offsetE2E at h
  split at h
  · cases h
  · rename_i hset
    simpa only [Bool.or_eq_true, not_or, Bool.not_eq_true, and_assoc] using hset

theorem isSet_of_offsetP2P {p : TsProc} {r : Duration} (h : p.offsetP2P = some r) :
    p.t1.val.isZero = false ∧ p.t2.val.isZero = false := by
  unfold offsetP2P at h
  split at h
  · cases h
  · rename_i hset
    simpa only [Bool.or_eq_true, not_or, Bool.not_eq_true] using hset

end TsProc

end ProcessBus.Ptp.Client
