import Mathlib.Logic.Relation
import ProcessBus.Ptp.Client.Service

/-!
# What a handler can do

Everything but the selection of the master happens in handlers that set a few timestamps and, at
most once, complete a measurement.  `Effect hdr tag` lists these effects with the conditions
under which a handler for the message with header `hdr` causes them; every such handler is a
sequence of effects (`Effects`).  An invariant of the client that survives each effect survives
each handler, whatever the order of its tests, and only the handling of Announce messages and
timeouts remains to be looked at.

The one large effect is the end of a measurement, `processSyncComplete`.  Of the fields that the
invariants are about, it changes none (`Service.rest`) or drops the exchanges that are under way
(`Exchange.cleared`).
-/

namespace ProcessBus.Ptp.Client

open Go Lib

set_option linter.unusedSectionVars false

variable {F C T : Type} [Float64 F] [Clock C F] [Transport T]

/-! ## Views -/

/-- What the selection of the master reads and writes. -/
structure Selection where
  profile : Profile
  selfID : PortIdentity
  foreignMasters : Table PortIdentity ForeignMaster
  bestMaster : Option PortIdentity
  utcOffset : Int16

/-- The exchanges that are under way. -/
structure Exchange where
  tsproc : TsProc
  delayReqPending : Bool
  pdelayReqPending : Bool
  pendingFollowUps : List (Pending TimestampBody)
  pendingPDelayFUs : List (Pending ResponseBody)
  steps : ℕ

/-- The exchanges after a clock step. -/
def Exchange.cleared (e : Exchange) : Exchange :=
  ⟨e.tsproc.reset, false, false, [], [], e.steps + 1⟩

/-- What the discipline of the clock leaves alone. -/
structure Rest where
  selection : Selection
  lastDelayReqSeq : UInt16
  lastPDelayReqSeq : UInt16
  pdelayRespSeq : UInt16
  syncReceived : Bool
  lastSyncSeq : UInt16
  twoStep : Bool
  pdelayT1 : Traced Time
  pdelayT2 : Traced Time
  pdelayT3 : Traced Time
  pdelayT4 : Traced Time
  pdelayRespReceived : Bool
  pdelayRespSource : PortIdentity
  log : List Measurement

namespace Service

def selection (s : Service F C T) : Selection :=
  ⟨s.profile, s.selfID, s.foreignMasters, s.bestMaster, s.utcOffset⟩

def exchange (s : Service F C T) : Exchange :=
  ⟨s.tsproc, s.delayReqPending, s.pdelayReqPending, s.pendingFollowUps, s.pendingPDelayFUs,
    s.steps⟩

def rest (s : Service F C T) : Rest :=
  ⟨s.selection, s.lastDelayReqSeq, s.lastPDelayReqSeq, s.pdelayRespSeq, s.syncReceived,
    s.lastSyncSeq, s.twoStep, s.pdelayT1, s.pdelayT2, s.pdelayT3, s.pdelayT4,
    s.pdelayRespReceived, s.pdelayRespSource, s.log⟩

@[simp] theorem selectMasterClock_rest (s : Service F C T) :
    s.selectMasterClock.rest = s.rest := by
  unfold selectMasterClock
  split <;> rfl

@[simp] theorem selectMasterClock_exchange (s : Service F C T) :
    s.selectMasterClock.exchange = s.exchange := by
  unfold selectMasterClock
  split <;> rfl

/-- A clock step drops what is under way, if it succeeds. -/
theorem stepClock_rest (s : Service F C T) (correction : Duration) :
    (s.stepClock correction).rest = s.rest ∧
      ((s.stepClock correction).exchange = s.exchange ∨
        (s.stepClock correction).exchange = s.exchange.cleared) := by
  unfold stepClock
  dsimp only
  split
  · exact ⟨rfl, .inl rfl⟩
  · exact ⟨rfl, .inr rfl⟩

/-- The discipline of the clock touches nothing but the port, the clock and the servo, or drops
what is under way. -/
theorem disciplineClock_rest (s : Service F C T) (offset : Duration) :
    (s.disciplineClock offset).rest = s.rest ∧
      ((s.disciplineClock offset).exchange = s.exchange ∨
        (s.disciplineClock offset).exchange = s.exchange.cleared) := by
  unfold disciplineClock
  dsimp only
  cases (s.sampleServo (-offset)).servoState with
  | unlocked => exact ⟨rfl, .inl rfl⟩
  | jump =>
      simp only [applyServo, selectMasterClock_rest, selectMasterClock_exchange]
      exact stepClock_rest _ _
  | locked | lockedStable =>
      simp only [applyServo]
      split
      · exact ⟨rfl, .inl rfl⟩
      · rw [selectMasterClock_rest, selectMasterClock_exchange]
        exact ⟨rfl, .inl rfl⟩

/-- The measurement that `processSyncComplete` records. -/
def measured (s : Service F C T) : Measurement :=
  if s.isP2P then .offsetP2P s.tsproc else .offsetE2E s.tsproc s.bestMaster

/-- The end of a measurement: nothing, or a record of it, an answered Sync, and the discipline
of the clock. -/
theorem processSyncComplete_rest (s : Service F C T) (now : Time) :
    s.processSyncComplete now = s ∧ s.syncResult = none ∨
      s.syncResult.isSome ∧
      (s.processSyncComplete now).rest =
        { s.rest with log := s.measured :: s.log, syncReceived := false } ∧
      ((s.processSyncComplete now).exchange = s.exchange ∨
        (s.processSyncComplete now).exchange = s.exchange.cleared) := by
  unfold processSyncComplete
  cases h : s.syncResult with
  | none => exact .inl ⟨rfl, rfl⟩
  | some r =>
      right
      obtain ⟨hrest, hex⟩ := disciplineClock_rest
        { s with
          lastOffset := r.1
          meanPathDelay := r.2
          lastSync := now
          syncCount := s.syncCount + 1
          log := s.measured :: s.log } r.1
      refine ⟨rfl, ?_, hex⟩
      exact congrArg (fun x : Rest ↦ { x with syncReceived := false }) hrest

/-- What `processSyncComplete` does when there is a result: of the fields that the invariants are
about, it answers the Sync, records the measurement and keeps or drops the exchanges. -/
structure Completes (s s' : Service F C T) : Prop where
  syncResult : s.syncResult.isSome
  selection : s'.selection = s.selection
  syncReceived : s'.syncReceived = false
  pdelayT2 : s'.pdelayT2 = s.pdelayT2
  pdelayRespReceived : s'.pdelayRespReceived = s.pdelayRespReceived
  log : s'.log = s.measured :: s.log
  exchange : s'.exchange = s.exchange ∨ s'.exchange = s.exchange.cleared

/-- The end of a measurement: nothing, if a timestamp is missing, or its completion. -/
theorem processSyncComplete_cases (s : Service F C T) (now : Time) :
    s.processSyncComplete now = s ∨ s.Completes (s.processSyncComplete now) := by
  rcases processSyncComplete_rest s now with ⟨he, -⟩ | ⟨hres, hrest, hex⟩
  · exact .inl he
  · exact .inr
      { syncResult := hres
        selection := congrArg Rest.selection hrest
        syncReceived := congrArg Rest.syncReceived hrest
        pdelayT2 := congrArg Rest.pdelayT2 hrest
        pdelayRespReceived := congrArg Rest.pdelayRespReceived hrest
        log := congrArg Rest.log hrest
        exchange := hex }

theorem Completes.bestMaster {s s' : Service F C T} (h : s.Completes s') :
    s'.bestMaster = s.bestMaster :=
  congrArg Selection.bestMaster h.selection

theorem Completes.utcOffset {s s' : Service F C T} (h : s.Completes s') :
    s'.utcOffset = s.utcOffset :=
  congrArg Selection.utcOffset h.selection

/-- The processor is kept or reset. -/
theorem Completes.tsproc {s s' : Service F C T} (h : s.Completes s') :
    s'.tsproc = s.tsproc ∨ s'.tsproc = s.tsproc.reset :=
  h.exchange.imp (congrArg Exchange.tsproc) (congrArg Exchange.tsproc)

/-- The buffer is kept or emptied. -/
theorem Completes.mem_pendingFollowUps {s s' : Service F C T} (h : s.Completes s')
    {fu : Pending TimestampBody} (hfu : fu ∈ s'.pendingFollowUps) : fu ∈ s.pendingFollowUps := by
  rcases h.exchange with hex | hex
  · have he : s'.pendingFollowUps = s.pendingFollowUps := congrArg Exchange.pendingFollowUps hex
    rwa [he] at hfu
  · have he : s'.pendingFollowUps = [] := congrArg Exchange.pendingFollowUps hex
    rw [he] at hfu
    cases hfu

/-- A recorded measurement has all its timestamps. -/
theorem measured_cases {s : Service F C T} (h : s.syncResult.isSome) :
    s.measured = .offsetP2P s.tsproc ∧ s.tsproc.t2.val.isZero = false ∨
      s.measured = .offsetE2E s.tsproc s.bestMaster ∧ s.tsproc.t2.val.isZero = false ∧
        s.tsproc.t3.val.isZero = false ∧ s.tsproc.t4.val.isZero = false := by
  unfold syncResult at h
  unfold measured
  obtain ⟨res, hres⟩ := Option.isSome_iff_exists.mp h
  split
  · rename_i hP2P
    rw [if_pos hP2P] at hres
    obtain ⟨offset, hoffset, -⟩ := Option.map_eq_some_iff.mp hres
    exact .inl ⟨rfl, (TsProc.isSet_of_offsetP2P hoffset).2⟩
  · rename_i hE2E
    rw [if_neg hE2E] at hres
    exact .inr ⟨rfl, (TsProc.isSet_of_offsetE2E hres).2⟩

/-- The end of a peer delay exchange: a record of the measurement, unless a timestamp is
missing. -/
theorem finishPDelay_cases (s : Service F C T) (corrField : Int64) :
    s.finishPDelay corrField =
        { s with pdelayReqPending := false, pdelayRespReceived := false } ∨
      (s.pdelayT1.val.isZero = false ∧ s.pdelayT2.val.isZero = false ∧
        s.pdelayT4.val.isZero = false) ∧ ∃ delay, s.finishPDelay corrField =
        { s with
          tsproc := { s.tsproc with peerDelay := delay }
          meanPathDelay := delay
          log := .peerDelay s.pdelayT1 s.pdelayT2
            (if s.pdelayT3.val.isZero then s.pdelayT2 else s.pdelayT3) s.pdelayT4 :: s.log
          pdelayReqPending := false
          pdelayRespReceived := false } := by
  unfold finishPDelay computePeerDelay
  split
  · exact .inl rfl
  · rename_i hset
    simp only [Bool.or_eq_true, not_or, Bool.not_eq_true] at hset
    exact .inr ⟨⟨hset.1.1, hset.1.2, hset.2⟩, _, rfl⟩

/-! ## Guards and buffers -/

theorem follows_iff {s : Service F C T} {hdr : Header} : s.follows hdr = true ↔
    s.state.Following ∧ s.bestMaster = some hdr.sourcePortIdentity := by
  simp [follows]

end Service

section Pending

variable {β : Type} {buffer rest : List (Pending β)} {p q : Pending β}

/-- A stored message was there before or is the new one. -/
theorem mem_storePending (h : q ∈ storePending buffer p) : q ∈ buffer ∨ q = p := by
  unfold storePending at h
  dsimp only at h
  split at h
  · exact List.mem_or_eq_of_mem_set h
  · split at h
    · rcases List.mem_append.mp h with h | h
      · exact .inl (List.mem_of_mem_tail h)
      · exact .inr (List.mem_singleton.mp h)
    · rcases List.mem_append.mp h with h | h
      · exact .inl h
      · exact .inr (List.mem_singleton.mp h)

/-- The message that is taken is one of the buffer, with the sender and the sequence number asked
for, and the others stay. -/
theorem takePending_eq_some {source : PortIdentity} {sequenceID : UInt16}
    (h : takePending buffer source sequenceID = some (p, rest)) :
    p ∈ buffer ∧ p.header.sourcePortIdentity = source ∧ p.header.sequenceID = sequenceID ∧
      ∀ q ∈ rest, q ∈ buffer := by
  obtain ⟨p', hfind, he⟩ := Option.map_eq_some_iff.mp h
  cases he
  have hp := List.find?_some hfind
  simp only [Pending.isFor, Bool.and_eq_true, decide_eq_true_eq, beq_iff_eq] at hp
  exact ⟨List.mem_of_find?_eq_some hfind, hp.1, hp.2, fun q hq ↦ List.mem_of_mem_eraseP hq⟩

end Pending

namespace Service

/-! ## Effects -/

/-- The effect of a sent Delay_Req. -/
def sentDelayReq (s : Service F C T) (t : Time) : Service F C T :=
  { s with
    tsproc := { s.tsproc with t3 := ⟨t, none, s.steps⟩, t4 := .unset }
    lastDelayReqSeq := s.delayReqSeq
    delayReqPending := true
    delayReqSeq := s.delayReqSeq + 1 }

/-- The effect of a sent PDelay_Req. -/
def sentPDelayReq (s : Service F C T) (t : Time) : Service F C T :=
  { s with
    tsproc := { s.tsproc with t3 := ⟨t, none, s.steps⟩ }
    pdelayT1 := .unset
    pdelayT2 := .unset
    pdelayT3 := .unset
    pdelayT4 := .unset
    pdelayRespCorrection := 0
    pdelayRespReceived := false
    pdelayRespSource := ⟨.replicate _ 0, 0⟩
    lastPDelayReqSeq := s.pdelayReqSeq
    pdelayReqPending := true
    pdelayReqSeq := s.pdelayReqSeq + 1
    pendingPDelayFUs := [] }

/-- The effect of the awaited Delay_Resp. -/
def receiveDelayResp (s : Service F C T) (hdr : Header) (resp : ResponseBody) (tag : ℕ) :
    Service F C T :=
  { s with
    tsproc :=
      { s.tsproc with
        t4 := s.traced hdr tag (s.ptpTimestampToTime resp.timestamp)
        correctionDelayResp := s.traced hdr tag hdr.correctionField }
    delayReqPending := false }

/-- A two-step Sync has been received and its Follow_Up has this sequence number. -/
structure Awaits (s : Service F C T) (sequenceID : UInt16) : Prop where
  syncReceived : s.syncReceived = true
  twoStep : s.twoStep = true
  seq : sequenceID = s.lastSyncSeq

/-- A two-step PDelay_Resp to the pending request has been received. -/
structure AwaitsPDelay (s : Service F C T) : Prop where
  pending : s.pdelayReqPending = true
  received : s.pdelayRespReceived = true

/-- One effect of a handler for the message with header `hdr` of transmission `tag`. -/
inductive Effect (hdr : Header) (tag : ℕ) : Service F C T → Service F C T → Prop
  | now (s : Service F C T) : Effect hdr tag s { s with clk := (Clock.now s.clk).2 }
  | fromSystem (s : Service F C T) (t : Time) :
      Effect hdr tag s { s with clk := (Clock.fromSystem s.clk t).2 }
  | transport (s : Service F C T) (tr : T) (n : UInt64) :
      Effect hdr tag s { s with tr := tr, pdelayRespTx := n }
  | oneStepSync (s : Service F C T) (rxTime : Time) (htype : hdr.messageType = msgSync)
      (h : s.follows hdr = true) (hflag : (hdr.flagField &&& flagTwoStep != 0) = false) :
      Effect hdr tag s (s.receiveSync hdr rxTime tag)
  | twoStepSync (s : Service F C T) (rxTime : Time) (htype : hdr.messageType = msgSync)
      (h : s.follows hdr = true) (hflag : (hdr.flagField &&& flagTwoStep != 0) = true) :
      Effect hdr tag s { s.receiveSync hdr rxTime tag with syncReceived := true }
  | completeOneStep (s : Service F C T) (rxTime : Time) (body : TimestampBody) (now : Time)
      (htype : hdr.messageType = msgSync) (h : s.follows hdr = true)
      (hflag : (hdr.flagField &&& flagTwoStep != 0) = false) :
      Effect hdr tag s
        (((s.receiveSync hdr rxTime tag).setOneStep hdr body tag).processSyncComplete now)
  | completePending (s : Service F C T) (rxTime : Time) (fu : Pending TimestampBody)
      (rest : List (Pending TimestampBody)) (now : Time) (htype : hdr.messageType = msgSync)
      (h : s.follows hdr = true) (hflag : (hdr.flagField &&& flagTwoStep != 0) = true)
      (htake : takePending s.pendingFollowUps hdr.sourcePortIdentity hdr.sequenceID =
        some (fu, rest)) :
      Effect hdr tag s
        ({ s.receiveSync hdr rxTime tag with
            syncReceived := true
            pendingFollowUps := rest }.completeFollowUp fu now)
  | storeFollowUp (s : Service F C T) (fu : TimestampBody)
      (htype : hdr.messageType = msgFollowUp) (h : s.follows hdr = true) :
      Effect hdr tag s (s.storePendingFollowUp ⟨hdr, fu, tag⟩)
  | completeFollowUp (s : Service F C T) (fu : TimestampBody) (now : Time)
      (htype : hdr.messageType = msgFollowUp) (h : s.follows hdr = true)
      (hawait : s.Awaits hdr.sequenceID) :
      Effect hdr tag s (s.completeFollowUp ⟨hdr, fu, tag⟩ now)
  | delayReq (s : Service F C T) (t : Time) : Effect hdr tag s (s.sentDelayReq t)
  | pdelayReq (s : Service F C T) (t : Time) (h : s.isP2P = true) :
      Effect hdr tag s (s.sentPDelayReq t)
  | delayResp (s : Service F C T) (resp : ResponseBody)
      (hbest : s.bestMaster = some hdr.sourcePortIdentity) :
      Effect hdr tag s (s.receiveDelayResp hdr resp tag)
  | pdelayResp (s : Service F C T) (resp : ResponseBody) (rxTime : Time)
      (htype : hdr.messageType = msgPDelayResp) :
      Effect hdr tag s (s.receivePDelayResp hdr resp rxTime tag)
  | completePDelay (s : Service F C T) (corrField : Int64) (hawait : s.AwaitsPDelay)
      (h : s.pdelayT3 = .unset) :
      Effect hdr tag s (s.finishPDelay corrField)
  | completePendingPDelay (s : Service F C T) (fu : Pending ResponseBody)
      (rest : List (Pending ResponseBody)) (h : s.AwaitsPDelay)
      (htake : takePending s.pendingPDelayFUs hdr.sourcePortIdentity hdr.sequenceID =
        some (fu, rest)) :
      Effect hdr tag s ({ s with pendingPDelayFUs := rest }.completePDelayFollowUp fu)
  | storePDelayFollowUp (s : Service F C T) (fu : ResponseBody)
      (htype : hdr.messageType = msgPDelayRespFollowUp) :
      Effect hdr tag s (s.storePendingPDelayFollowUp ⟨hdr, fu, tag⟩)
  | completePDelayFollowUp (s : Service F C T) (fu : ResponseBody) (h : s.AwaitsPDelay) :
      Effect hdr tag s (s.completePDelayFollowUp ⟨hdr, fu, tag⟩)

/-- A sequence of effects. -/
abbrev Effects (hdr : Header) (tag : ℕ) : Service F C T → Service F C T → Prop :=
  Relation.ReflTransGen (Effect hdr tag)

/-- What every effect preserves, a sequence of them preserves. -/
theorem Effects.preserves {I : Service F C T → Prop} {hdr : Header} {tag : ℕ}
    {s s' : Service F C T} (h : Effects hdr tag s s')
    (hI : ∀ u v, Effect hdr tag u v → I u → I v) (hs : I s) : I s' := by
  induction h with
  | refl => exact hs
  | tail _ he ih => exact hI _ _ he ih

/-- The end of a measurement does not touch the selection. -/
theorem processSyncComplete_selection (s : Service F C T) (now : Time) :
    (s.processSyncComplete now).selection = s.selection := by
  rcases processSyncComplete_cases s now with he | h
  · rw [he]
  · exact h.selection

theorem finishPDelay_selection (s : Service F C T) (corrField : Int64) :
    (s.finishPDelay corrField).selection = s.selection := by
  rcases finishPDelay_cases s corrField with he | ⟨-, delay, he⟩ <;> rw [he] <;> rfl

/-- No effect touches the selection. -/
theorem Effect.selection {hdr : Header} {tag : ℕ} {s s' : Service F C T}
    (h : Effect hdr tag s s') : s'.selection = s.selection := by
  cases h with
  | completeOneStep | completePending | completeFollowUp =>
      exact processSyncComplete_selection _ _
  | completePDelay | completePendingPDelay | completePDelayFollowUp =>
      exact finishPDelay_selection _ _
  | now | fromSystem | transport | oneStepSync | twoStepSync | storeFollowUp | delayReq
  | pdelayReq | delayResp | pdelayResp | storePDelayFollowUp => rfl

theorem Effects.selection {hdr : Header} {tag : ℕ} {s s' : Service F C T}
    (h : Effects hdr tag s s') : s'.selection = s.selection :=
  Effects.preserves h (fun _ _ he hs ↦ he.selection.trans hs) rfl

/-! ## The handlers -/

/-- A Sync has at most one effect. -/
theorem handleSync_effect (s : Service F C T) (hdr : Header) (body : Bytes) (rxTime : Time)
    (tag : ℕ) (now : Time) (htype : hdr.messageType = msgSync) :
    s.handleSync hdr body rxTime tag now = s ∨
      Effect hdr tag s (s.handleSync hdr body rxTime tag now) := by
  unfold handleSync
  cases hf : s.follows hdr with
  | false => exact .inl rfl
  | true =>
      right
      simp only [Bool.not_true, Bool.false_eq_true, if_false]
      cases hflag : (hdr.flagField &&& flagTwoStep != 0) with
      | false =>
          have htwo : (s.receiveSync hdr rxTime tag).twoStep = false := hflag
          rw [if_pos (by rw [htwo]; decide)]
          split
          · exact .oneStepSync s rxTime htype hf hflag
          · exact .completeOneStep s rxTime _ now htype hf hflag
      | true =>
          have htwo : (s.receiveSync hdr rxTime tag).twoStep = true := hflag
          rw [if_neg (by rw [htwo]; decide)]
          split
          · exact .twoStepSync s rxTime htype hf hflag
          · rename_i fu rest htake
            exact .completePending s rxTime fu rest now htype hf hflag htake

/-- So does a Follow_Up. -/
theorem handleFollowUp_effect (s : Service F C T) (hdr : Header) (body : Bytes) (tag : ℕ)
    (now : Time) (htype : hdr.messageType = msgFollowUp) :
    s.handleFollowUp hdr body tag now = s ∨
      Effect hdr tag s (s.handleFollowUp hdr body tag now) := by
  unfold handleFollowUp
  cases hf : s.follows hdr with
  | false => exact .inl rfl
  | true =>
      simp only [Bool.not_true, Bool.false_eq_true, if_false]
      split
      · exact .inl rfl
      · split
        · exact .inr (.storeFollowUp s _ htype hf)
        · rename_i hawait
          simp only [Bool.or_eq_true, Bool.not_eq_true', bne_iff_ne, ne_eq, not_or,
            Bool.not_eq_false, not_not] at hawait
          obtain ⟨⟨hsync, htwo⟩, hseq⟩ := hawait
          exact .inr (.completeFollowUp s _ now htype hf ⟨hsync, htwo, hseq⟩)

theorem effects_of_effect {hdr : Header} {tag : ℕ} {s s' : Service F C T}
    (h : s' = s ∨ Effect hdr tag s s') : Effects hdr tag s s' := by
  rcases h with rfl | h
  · exact .refl
  · exact .single h

theorem handleDelayResp_effects (s : Service F C T) (hdr : Header) (body : Bytes) (tag : ℕ) :
    Effects hdr tag s (s.handleDelayResp hdr body tag) := by
  unfold handleDelayResp
  split
  · exact .refl
  split
  · exact .refl
  split
  · exact .refl
  split
  · exact .refl
  rename_i hbest
  split
  · exact .refl
  · exact .single (.delayResp s _ (not_not.mp hbest))

theorem handlePDelayResp_effects (s : Service F C T) (hdr : Header) (body : Bytes)
    (rxTime : Time) (tag : ℕ) (htype : hdr.messageType = msgPDelayResp) :
    Effects hdr tag s (s.handlePDelayResp hdr body rxTime tag) := by
  unfold handlePDelayResp
  split
  · exact .refl
  split
  · exact .refl
  rename_i resp _
  split
  · exact .refl
  split
  · exact .refl
  rename_i hpending
  have hresp : Effects hdr tag s (s.receivePDelayResp hdr resp rxTime tag) :=
    .single (.pdelayResp s resp rxTime htype)
  have hreq : s.pdelayReqPending = true := by
    simp only [Bool.or_eq_true, Bool.not_eq_true', not_or, Bool.not_eq_false] at hpending
    exact hpending.1
  dsimp only
  split
  · exact hresp.tail (.completePDelay _ _ ⟨hreq, rfl⟩ rfl)
  split
  · exact hresp
  · rename_i fu rest htake
    exact hresp.tail (.completePendingPDelay _ fu rest ⟨hreq, rfl⟩ htake)

theorem handlePDelayRespFollowUp_effects (s : Service F C T) (hdr : Header) (body : Bytes)
    (tag : ℕ) (htype : hdr.messageType = msgPDelayRespFollowUp) :
    Effects hdr tag s (s.handlePDelayRespFollowUp hdr body tag) := by
  unfold handlePDelayRespFollowUp
  split
  · exact .refl
  split
  · exact .refl
  split
  · exact .refl
  split
  · exact .refl
  rename_i hpending
  split
  · exact .refl
  split
  · exact .single (.storePDelayFollowUp s _ htype)
  · rename_i hreceived
    simp only [Bool.or_eq_true, Bool.not_eq_true', not_or, Bool.not_eq_false] at hreceived hpending
    exact .single (.completePDelayFollowUp s _ ⟨hpending, hreceived.1.1⟩)

theorem handlePDelayReq_effects (s : Service F C T) (hdr : Header) (body : Bytes) (pkt : Packet)
    (tag : ℕ) : Effects hdr tag s (s.handlePDelayReq hdr body pkt) := by
  have hresp (unicast : Bool) : Effects hdr tag s (s.sendPDelayResp hdr pkt unicast).2 :=
    (Relation.ReflTransGen.single (.fromSystem s _)).tail (.transport _ _ s.pdelayRespTx)
  have hfu (u : Service F C T) (unicast : Bool) (t : Time) :
      Effects hdr tag u (u.sendPDelayRespFollowUp hdr pkt unicast t).2 :=
    (Relation.ReflTransGen.single (.fromSystem u t)).tail (.transport _ _ u.pdelayRespTx)
  unfold handlePDelayReq
  split
  · exact .refl
  split
  · exact .refl
  split
  · exact .refl
  dsimp only
  split
  · exact hresp _
  split
  · exact (hresp _).trans (hfu _ _ _)
  · exact ((hresp _).trans (hfu _ _ _)).tail (.transport _ _ _)

theorem sendDelayRequest_effects (s : Service F C T) (hdr : Header) (tag : ℕ) :
    Effects hdr tag s s.sendDelayRequest := by
  unfold sendDelayRequest
  split
  · exact .refl
  split
  · rename_i hP2P
    unfold sendPDelayReq
    dsimp only
    generalize Transport.sendEvent s.tr _ = sent
    have hsent : Effects hdr tag s { s with clk := (Clock.now s.clk).2, tr := sent.2 } :=
      (Relation.ReflTransGen.single (.now s)).tail (.transport _ sent.2 s.pdelayRespTx)
    split
    · exact hsent
    · exact (hsent.tail (.fromSystem _ _)).tail (.pdelayReq _ _ hP2P)
  · unfold sendDelayReq
    dsimp only
    generalize Transport.sendEvent s.tr _ = sent
    have hsent : Effects hdr tag s { s with clk := (Clock.now s.clk).2, tr := sent.2 } :=
      (Relation.ReflTransGen.single (.now s)).tail (.transport _ sent.2 s.pdelayRespTx)
    split
    · exact hsent
    · exact (hsent.tail (.fromSystem _ _)).tail (.delayReq _ _)

/-- A received event message has no effect, or those of its handler. -/
theorem handleEvent_effects (s : Service F C T) (pkt : Packet) (now : Time) :
    s.handleEvent pkt now = s ∨ ∃ hdr body, s.unpack pkt = some (hdr, body) ∧
      Effects hdr pkt.tag s (s.handleEvent pkt now) := by
  unfold handleEvent
  split
  · exact .inl rfl
  split
  · exact .inl rfl
  rename_i hdr body hpkt
  right
  refine ⟨hdr, body, hpkt, ?_⟩
  split
  · exact effects_of_effect (handleSync_effect _ _ _ _ _ _ ‹_›)
  split
  · exact handlePDelayReq_effects _ _ _ _ _
  split
  · exact handlePDelayResp_effects _ _ _ _ _ ‹_›
  · exact .refl

/-- A received general message has no effect, is an Announce, or has the effects of its
handler. -/
theorem handleGeneral_effects (s : Service F C T) (pkt : Packet) (now : Time)
    (ord : MapOrder ForeignMaster) :
    s.handleGeneral pkt now ord = s ∨ ∃ hdr body, s.unpack pkt = some (hdr, body) ∧
      (hdr.messageType = msgAnnounce ∧
          s.handleGeneral pkt now ord = s.handleAnnounce hdr body now ord ∨
        hdr.messageType ≠ msgAnnounce ∧
          Effects hdr pkt.tag s (s.handleGeneral pkt now ord)) := by
  unfold handleGeneral
  split
  · exact .inl rfl
  rename_i hdr body hpkt
  right
  refine ⟨hdr, body, hpkt, ?_⟩
  by_cases hann : hdr.messageType = msgAnnounce
  · exact .inl ⟨hann, if_pos hann⟩
  right
  refine ⟨hann, ?_⟩
  rw [if_neg hann]
  split
  · exact effects_of_effect (handleFollowUp_effect _ _ _ _ _ ‹_›)
  split
  · exact handleDelayResp_effects _ _ _ _
  split
  · exact handlePDelayRespFollowUp_effects _ _ _ _ ‹_›
  · exact .refl

end Service

end ProcessBus.Ptp.Client
