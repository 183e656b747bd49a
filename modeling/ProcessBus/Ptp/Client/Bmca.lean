import ProcessBus.Lib.Tournament
import ProcessBus.Ptp.Types

/-!
# Best master clock algorithm

`internal/application/ptpclient/bmca.go`: the foreign master record with its qualification
window, the data set comparison of IEEE 1588-2008, and the selection, which is a scan of a list
for its best element (`Lib.scan`).
-/

namespace ProcessBus.Ptp.Client

open Go Lib

/-! ## Foreign masters -/

/-- `foreignMasterThreshold`. -/
def foreignMasterThreshold : ℕ := 2

/-- `ForeignMaster`. -/
structure ForeignMaster where
  identity : PortIdentity
  announce : AnnounceBody
  header : Header
  profileTLVs : AnnounceProfileTLVs
  lastSeen : Time
  announceCount : ℕ
  utcOffset : Int16
  announceTimes : List Time
  lastSequenceID : UInt16
  sequenceValid : Bool
deriving DecidableEq

namespace ForeignMaster

/-- `&ForeignMaster{Identity: identity}`. -/
def new (identity : PortIdentity) : ForeignMaster :=
  let zeroPort : PortIdentity := ⟨.replicate _ 0, 0⟩
  { identity := identity
    announce :=
      { originTimestamp := ⟨0, 0⟩
        currentUtcOffset := 0
        reserved := 0
        grandmasterPriority1 := 0
        grandmasterClockQuality := ⟨0, 0, 0⟩
        grandmasterPriority2 := 0
        grandmasterIdentity := .replicate _ 0
        stepsRemoved := 0
        timeSource := 0 }
    header :=
      { messageType := 0
        versionPTP := 0
        sourcePortIdentity := zeroPort
        sequenceID := 0
        controlField := 0
        logMessageInterval := 0 }
    profileTLVs := {}
    lastSeen := .zero
    announceCount := 0
    utcOffset := 0
    announceTimes := []
    lastSequenceID := 0
    sequenceValid := false }

/-- The Announce times that are still in the qualification window. -/
def recent (m : ForeignMaster) (now : Time) (window : Duration) : List Time :=
  m.announceTimes.filter fun receivedAt ↦ !receivedAt.before (now.add (-window))

/-- The first half of `recordAnnounce`: whether the Announce repeats the last one. -/
def isRepeat (m : ForeignMaster) (now : Time) (window : Duration) (sequenceID : UInt16) : Bool :=
  m.sequenceValid && !(m.recent now window).isEmpty && sequenceID == m.lastSequenceID

/-- `recordAnnounce`: the record, and whether the Announce is a distinct one. -/
def recordAnnounce (m : ForeignMaster) (now : Time) (window : Duration) (sequenceID : UInt16) :
    ForeignMaster × Bool :=
  let kept := m.recent now window
  if m.isRepeat now window sequenceID then
    ({ m with announceTimes := kept, announceCount := kept.length }, false)
  else
    ({ m with
        announceTimes := kept ++ [now]
        lastSequenceID := sequenceID
        sequenceValid := true
        announceCount := (kept ++ [now]).length
        lastSeen := now }, true)

/-- `qualified`. -/
def qualified (m : ForeignMaster) : Bool := decide (foreignMasterThreshold ≤ m.announceCount)

@[simp] theorem recordAnnounce_snd (m : ForeignMaster) (now : Time) (window : Duration)
    (sequenceID : UInt16) :
    (m.recordAnnounce now window sequenceID).2 = !m.isRepeat now window sequenceID := by
  unfold recordAnnounce
  cases h : m.isRepeat now window sequenceID <;> simp

@[simp] theorem recordAnnounce_identity (m : ForeignMaster) (now : Time) (window : Duration)
    (sequenceID : UInt16) : (m.recordAnnounce now window sequenceID).1.identity = m.identity := by
  unfold recordAnnounce
  dsimp only
  split <;> rfl

/-- A distinct Announce qualifies its sender when it is not the only recent one. -/
theorem recordAnnounce_qualified {m : ForeignMaster} {now : Time} {window : Duration}
    {sequenceID : UInt16} (h : m.isRepeat now window sequenceID = false) :
    (m.recordAnnounce now window sequenceID).1.qualified = true ↔ m.recent now window ≠ [] := by
  unfold recordAnnounce qualified foreignMasterThreshold
  simp only [h, Bool.false_eq_true, if_false, List.length_append, List.length_cons,
    List.length_nil, decide_eq_true_iff]
  rw [← List.length_pos_iff]
  omega

end ForeignMaster

/-! ## Comparison -/

/-- `Dataset`. -/
structure Dataset where
  priority1 : UInt8
  identity : ClockIdentity
  quality : ClockQuality
  priority2 : UInt8
  stepsRemoved : UInt16
  sender : PortIdentity
  receiver : PortIdentity
deriving DecidableEq, Repr

/-- `DatasetFromAnnounce`. -/
def datasetFromAnnounce (h : Header) (a : AnnounceBody) (receiverPort : PortIdentity) :
    Dataset where
  priority1 := a.grandmasterPriority1
  identity := a.grandmasterIdentity
  quality := a.grandmasterClockQuality
  priority2 := a.grandmasterPriority2
  stepsRemoved := a.stepsRemoved
  sender := h.sourcePortIdentity
  receiver := receiverPort

/-- `bytes.Compare` of two clock identities. -/
def identityCompare (a b : ClockIdentity) : ℤ := bytesCompare a.toList b.toList

/-- The branch of `DSCmp` for different grandmasters. -/
def compareGrandmasters (a b : Dataset) : ℤ :=
  if a.priority1 ≠ b.priority1 then (a.priority1.toNat : ℤ) - b.priority1.toNat
  else if a.quality.clockClass ≠ b.quality.clockClass then
    (a.quality.clockClass.toNat : ℤ) - b.quality.clockClass.toNat
  else if a.quality.clockAccuracy ≠ b.quality.clockAccuracy then
    (a.quality.clockAccuracy.toNat : ℤ) - b.quality.clockAccuracy.toNat
  else if a.quality.offsetScaledLogVariance ≠ b.quality.offsetScaledLogVariance then
    (a.quality.offsetScaledLogVariance.toNat : ℤ) - b.quality.offsetScaledLogVariance.toNat
  else if a.priority2 ≠ b.priority2 then (a.priority2.toNat : ℤ) - b.priority2.toNat
  else identityCompare a.identity b.identity

/-- The branch of `DSCmp` for the same grandmaster. -/
def comparePaths (a b : Dataset) : ℤ :=
  if a.stepsRemoved.toNat + 1 < b.stepsRemoved.toNat then -1
  else if b.stepsRemoved.toNat + 1 < a.stepsRemoved.toNat then 1
  else if a.stepsRemoved.toNat < b.stepsRemoved.toNat then -1
  else if b.stepsRemoved.toNat < a.stepsRemoved.toNat then 1
  else if identityCompare a.sender.clockIdentity b.sender.clockIdentity ≠ 0 then
    identityCompare a.sender.clockIdentity b.sender.clockIdentity
  else if a.sender.portNumber ≠ b.sender.portNumber then
    (a.sender.portNumber.toNat : ℤ) - b.sender.portNumber.toNat
  else (a.receiver.portNumber.toNat : ℤ) - b.receiver.portNumber.toNat

/-- `DSCmp`: negative if the first is better. -/
def dsCmp : Option Dataset → Option Dataset → ℤ
  | none, none => 0
  | some _, none => -1
  | none, some _ => 1
  | some a, some b =>
      if identityCompare a.identity b.identity ≠ 0 then compareGrandmasters a b
      else comparePaths a b

/-! ## Selection -/

/-- The data set of a foreign master as seen from a port. -/
def ForeignMaster.dataset (m : ForeignMaster) (receiverPort : PortIdentity) : Dataset :=
  datasetFromAnnounce m.header m.announce receiverPort

/-- The comparison of `SelectBestMaster`. -/
def better (receiverPort : PortIdentity) (m best : ForeignMaster) : Bool :=
  decide (dsCmp (some (m.dataset receiverPort)) (some (best.dataset receiverPort)) < 0)

/-- `SelectBestMaster`: one pass over the list that keeps the best so far. -/
def selectBestMaster (masters : List ForeignMaster) (receiverPort : PortIdentity) :
    Option ForeignMaster :=
  scan (better receiverPort) masters

end ProcessBus.Ptp.Client
