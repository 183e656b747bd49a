import ProcessBus.Clock.Application
import ProcessBus.Lib.Table
import ProcessBus.Ptp.Client.Bmca
import ProcessBus.Ptp.Client.Fsm
import ProcessBus.Ptp.Client.Servo
import ProcessBus.Ptp.Client.TsProc
import ProcessBus.Ptp.Codec

/-!
# The PTP client

`internal/application/ptpclient/service.go`: a slave-only ordinary clock.  Its goroutine takes
packets, timeouts and request ticks one at a time, so a run is a list of calls (`Call`,
`Service.step`).

The transport, the clock and the `float64`s are parameters.  `time.Now()` of a call is an
argument of it, and so is the order in which Go happens to iterate over the table of foreign
masters.  `bestMaster` points into that table; here it is the key of the entry.

Two fields are not in the source and are read by no handler: `steps` counts the clock steps, and
`log` records the measurements that the client completes, with the origins of their timestamps.
-/

namespace ProcessBus.Ptp.Client

open Go Lib

/-- `ptpport.Transport`, as far as the handlers use it. -/
class Transport (T : Type) where
  timestampMode : T → String
  sendEvent : T → Bytes → Except String Time × T
  sendEventTo : T → Bytes → String → Except String Time × T
  sendGeneral : T → Bytes → Option String × T
  sendGeneralTo : T → Bytes → String → Option String × T

/-- `Config`. -/
structure Config where
  profile : Profile
  transport : String
  domainNumber : Option UInt8
  delayMechanism : UInt8

/-- `pendingFollowUp` and `pendingPDelayFollowUp`: a message that waits for an earlier one. -/
structure Pending (β : Type) where
  header : Header
  body : β
  tag : ℕ

/-- A measurement that the client completed. -/
inductive Measurement
  /-- `completeFollowUp` combined a Follow_Up with a Sync. -/
  | pair (t1 t2 : Traced Time)
  /-- `OffsetE2E` returned an offset while `best` was the selected master. -/
  | offsetE2E (ts : TsProc) (best : Option PortIdentity)
  /-- `OffsetP2P` returned an offset. -/
  | offsetP2P (ts : TsProc)
  /-- `computePeerDelay` set the peer delay; `t3` is the timestamp it used. -/
  | peerDelay (t1 t2 t3 t4 : Traced Time)

/-- `Service`. -/
structure Service (F C T : Type) where
  cfg : Config
  profile : Profile
  tr : T
  clk : C
  servo : PIServo F
  selfID : PortIdentity
  state : PortState
  tsproc : TsProc
  foreignMasters : Table PortIdentity ForeignMaster
  bestMaster : Option PortIdentity
  delayReqSeq : UInt16
  pdelayReqSeq : UInt16
  lastDelayReqSeq : UInt16
  delayReqPending : Bool
  lastPDelayReqSeq : UInt16
  pdelayReqPending : Bool
  pdelayRespSeq : UInt16
  pdelayRespTx : UInt64
  syncReceived : Bool
  lastSyncSeq : UInt16
  twoStep : Bool
  utcOffset : Int16
  pendingFollowUps : List (Pending TimestampBody)
  pdelayT1 : Traced Time
  pdelayT2 : Traced Time
  pdelayT3 : Traced Time
  pdelayT4 : Traced Time
  pdelayRespCorrection : Int64
  pdelayRespReceived : Bool
  pdelayRespSource : PortIdentity
  pendingPDelayFUs : List (Pending ResponseBody)
  lastOffset : Duration
  meanPathDelay : Duration
  frequencyPPB : F
  servoState : ServoState
  lastSync : Time
  syncCount : UInt64
  steps : ℕ
  log : List Measurement

/-- An order in which Go iterates over a map. -/
structure MapOrder (α : Type) where
  order : List α → List α
  perm : ∀ l, (order l).Perm l

/-! ## Pending messages -/

/-- `pendingFollowUpLimit`. -/
def pendingFollowUpLimit : ℕ := 8

section Pending

variable {β : Type}

/-- The message of this sender with this sequence number. -/
def Pending.isFor (source : PortIdentity) (sequenceID : UInt16) (p : Pending β) : Bool :=
  decide (p.header.sourcePortIdentity = source) && p.header.sequenceID == sequenceID

/-- `storePendingFollowUp` and `storePendingPDelayFollowUp`: replace the message with the same
sender and sequence number, or append and drop the oldest of a full buffer. -/
def storePending (buffer : List (Pending β)) (p : Pending β) : List (Pending β) :=
  let same (q : Pending β) := q.isFor p.header.sourcePortIdentity p.header.sequenceID
  if buffer.any same then buffer.set (buffer.findIdx same) p
  else if buffer.length = pendingFollowUpLimit then buffer.tail ++ [p]
  else buffer ++ [p]

/-- `takePendingFollowUp` and `takePendingPDelayFollowUp`: the first matching message and the
buffer without it. -/
def takePending (buffer : List (Pending β)) (source : PortIdentity) (sequenceID : UInt16) :
    Option (Pending β × List (Pending β)) :=
  (buffer.find? (Pending.isFor source sequenceID)).map fun p ↦
    (p, buffer.eraseP (Pending.isFor source sequenceID))

end Pending

/-! ## Construction -/

namespace Service

variable {F C T : Type} [Float64 F] [Clock C F] [Transport T]

/-- The profile after the adjustments at the head of `New`. -/
def effectiveProfile (cfg : Config) : Profile :=
  let profile := { cfg.profile with domainNumber := cfg.domainNumber.getD cfg.profile.domainNumber }
  if profile.c37238Version ≠ .disabled then
    { profile with delayMechanism := delayMechanismP2P }
  else if cfg.delayMechanism ≠ 0 then { profile with delayMechanism := cfg.delayMechanism }
  else profile

/-- `New`; `pow` is `math.Pow`. -/
def new (pow : F → F → F) (tr : T) (clk : C) (selfID : PortIdentity) (cfg : Config) :
    Service F C T :=
  let profile := effectiveProfile cfg
  let servo : PIServo F := .new
    { initialDrift := Float64.ofInt 0
      maxFrequency := Clock.maxFreqAdj clk
      stepThreshold := (1.0 : F)
      firstStepThreshold := (0.00002 : F)
      softwareTS := Transport.timestampMode tr != "hardware" }
  let zeroPort : PortIdentity := ⟨.replicate _ 0, 0⟩
  { cfg := cfg
    profile := profile
    tr := tr
    clk := clk
    servo := servo.syncInterval pow
      (pow (Float64.ofInt 2) (Float64.ofInt profile.logSyncInterval.toInt))
    selfID := selfID
    state := .initializing
    tsproc := .zero
    foreignMasters := ∅
    bestMaster := none
    delayReqSeq := 0
    pdelayReqSeq := 0
    lastDelayReqSeq := 0
    delayReqPending := false
    lastPDelayReqSeq := 0
    pdelayReqPending := false
    pdelayRespSeq := 0
    pdelayRespTx := 0
    syncReceived := false
    lastSyncSeq := 0
    twoStep := false
    utcOffset := 0
    pendingFollowUps := []
    pdelayT1 := .unset
    pdelayT2 := .unset
    pdelayT3 := .unset
    pdelayT4 := .unset
    pdelayRespCorrection := 0
    pdelayRespReceived := false
    pdelayRespSource := zeroPort
    pendingPDelayFUs := []
    lastOffset := 0
    meanPathDelay := 0
    frequencyPPB := Float64.ofInt 0
    servoState := .unlocked
    lastSync := .zero
    syncCount := 0
    steps := 0
    log := [] }

/-! ## Parts shared by the handlers -/

/-- `transition`. -/
def transition (s : Service F C T) (event : FSMEvent) : Service F C T :=
  { s with state := slavePortFSM s.state event }

/-- `setClockSynchronized`. -/
def setClockSynchronized (s : Service F C T) (synchronized : Bool) : Service F C T :=
  { s with clk := Clock.setSynchronized s.clk synchronized }

/-- `clearPendingFollowUps`. -/
def clearPendingFollowUps (s : Service F C T) : Service F C T := { s with pendingFollowUps := [] }

/-- `clearPendingPDelayFollowUps`. -/
def clearPendingPDelayFollowUps (s : Service F C T) : Service F C T :=
  { s with pendingPDelayFUs := [] }

/-- What every loss or change of the master begins with: the servo and the measurement of the
old master are dropped, and the clock counts as unsynchronized. -/
def dropMeasurement (s : Service F C T) : Service F C T :=
  ({ s with
      servo := s.servo.reset
      tsproc := s.tsproc.reset
      syncReceived := false }.clearPendingFollowUps).setClockSynchronized false

/-- `ptpTimestampToTime`. -/
def ptpTimestampToTime (s : Service F C T) (ts : Timestamp) : Time :=
  ts.toTimeWithUTCOffset s.utcOffset

/-- The origin of a value in the message with this header. -/
def origin (s : Service F C T) (hdr : Header) (tag : ℕ) : Origin :=
  ⟨hdr.sourcePortIdentity, hdr.sequenceID, tag, s.utcOffset⟩

/-- A value of a message, with its origin. -/
def traced {α : Type} (s : Service F C T) (hdr : Header) (tag : ℕ) (x : α) : Traced α :=
  ⟨x, some (s.origin hdr tag), s.steps⟩

/-! ## Selection of the master -/

/-- `announceQualificationWindow`: four Announce intervals. -/
def announceQualificationWindow (profile : Profile) (logInterval : Int8) : Duration :=
  let interval :=
    if logInterval ≠ 0x7F ∧ -30 ≤ logInterval ∧ logInterval ≤ 30 then
      logSeconds 1 logInterval.toInt
    else profile.announceInterval
  let interval := if interval ≤ 0 then 1000000000 else interval
  4 * interval

/-- The list that `selectBestMasterLocked` collects. -/
def qualifiedMasters (s : Service F C T) (ord : MapOrder ForeignMaster) : List ForeignMaster :=
  (ord.order s.foreignMasters.vals).filter ForeignMaster.qualified

/-- `selectBestMasterLocked`. -/
def selectBestMasterLocked (s : Service F C T) (ord : MapOrder ForeignMaster) :
    Service F C T × Option ForeignMaster :=
  let best := selectBestMaster (s.qualifiedMasters ord) s.selfID
  ({ s with bestMaster := best.map ForeignMaster.identity }, best)

/-- A selection and the UTC offset that follows from it, as all three callers do it. -/
def selectMaster (s : Service F C T) (ord : MapOrder ForeignMaster) :
    Service F C T × Option ForeignMaster :=
  let r := s.selectBestMasterLocked ord
  ({ r.1 with utcOffset := (r.2.map ForeignMaster.utcOffset).getD 0 }, r.2)

/-- `masterChanged`. -/
def masterChanged (s : Service F C T) : Service F C T :=
  s.dropMeasurement.transition .masterChanged

/-- `announceProvidesAbsoluteUTC`. -/
def announceProvidesAbsoluteUTC (hdr : Header) : Bool :=
  let required := flagPTPTimescale ||| flagCurrentUtcOffsetValid
  hdr.flagField &&& required == required

/-- `rejectMaster`. -/
def rejectMaster (s : Service F C T) (hdr : Header) (ord : MapOrder ForeignMaster) :
    Service F C T :=
  let source := hdr.sourcePortIdentity
  let r := { s with foreignMasters := s.foreignMasters.erase source }.selectMaster ord
  if s.bestMaster ≠ some source then r.1
  else
    match r.2 with
    | some _ => r.1.masterChanged
    | none =>
        ({ r.1 with
            delayReqPending := false
            pdelayReqPending := false }.clearPendingPDelayFollowUps).dropMeasurement.transition
          .announceTimeout

/-- What `handleAnnounce` makes of an Announce before it looks at the table. -/
inductive Verdict
  | bad
  | reject
  | valid (announce : AnnounceBody) (profileTLVs : AnnounceProfileTLVs)

/-- The checks at the head of `handleAnnounce`. -/
def announceVerdict (profile : Profile) (hdr : Header) (body : Bytes) : Verdict :=
  match decodeAnnounceBody body with
  | .error _ => .bad
  | .ok ann =>
      if !announceProvidesAbsoluteUTC hdr then .reject
      else if profile.c37238Version = .disabled then .valid ann {}
      else
        match decodeAnnounceProfileTLVs body with
        | .error _ => .reject
        | .ok tlvs =>
            if tlvs.c37238Version ≠ profile.c37238Version then .reject else .valid ann tlvs

/-- The entry of the sender, created if there is none, after `recordAnnounce`. -/
def recordAnnounce (s : Service F C T) (hdr : Header) (now : Time) : ForeignMaster × Bool :=
  let fm := (s.foreignMasters.lookup hdr.sourcePortIdentity).getD (.new hdr.sourcePortIdentity)
  fm.recordAnnounce now (announceQualificationWindow s.profile hdr.logMessageInterval)
    hdr.sequenceID

/-- The entry after a distinct Announce. -/
def announcedMaster (s : Service F C T) (hdr : Header) (ann : AnnounceBody)
    (tlvs : AnnounceProfileTLVs) (now : Time) : ForeignMaster :=
  { (s.recordAnnounce hdr now).1 with
    announce := ann
    header := hdr
    profileTLVs := tlvs
    utcOffset := ann.currentUtcOffset }

/-- The rest of `handleAnnounce`, for a valid Announce. -/
def acceptAnnounce (s : Service F C T) (hdr : Header) (ann : AnnounceBody)
    (tlvs : AnnounceProfileTLVs) (now : Time) (ord : MapOrder ForeignMaster) : Service F C T :=
  let source := hdr.sourcePortIdentity
  if !(s.recordAnnounce hdr now).2 then
    { s with foreignMasters := s.foreignMasters.insert source (s.recordAnnounce hdr now).1 }
  else
    let fm := s.announcedMaster hdr ann tlvs now
    let r := { s with foreignMasters := s.foreignMasters.insert source fm }.selectMaster ord
    match r.2, s.bestMaster with
    | none, _ => r.1
    | some best, some prevBest => if best.identity ≠ prevBest then r.1.masterChanged else r.1
    | some _, none => if r.1.state = .listening then r.1.transition .rsSlave else r.1

/-- `handleAnnounce`. -/
def handleAnnounce (s : Service F C T) (hdr : Header) (body : Bytes) (now : Time)
    (ord : MapOrder ForeignMaster) : Service F C T :=
  match announceVerdict s.profile hdr body with
  | .bad => s
  | .reject => s.rejectMaster hdr ord
  | .valid ann tlvs => s.acceptAnnounce hdr ann tlvs now ord

/-! ## Offset measurement -/

/-- The clock step of `disciplineClock` and what follows a successful one: everything that was
measured on the old scale is dropped, except the peer delay. -/
def stepClock (s : Service F C T) (correction : Duration) : Service F C T :=
  let r := Clock.step s.clk correction
  match r.1 with
  | some _ => { s with clk := r.2 }.setClockSynchronized false
  | none =>
      (({ s with
          clk := r.2
          tsproc := s.tsproc.reset
          delayReqPending := false
          pdelayReqPending := false
          steps := s.steps + 1
        }.clearPendingFollowUps).clearPendingPDelayFollowUps).setClockSynchronized true

/-- The transition at the end of `disciplineClock`. -/
def selectMasterClock (s : Service F C T) : Service F C T :=
  if s.state = .uncalibrated then s.transition .masterClockSelected else s

/-- The switch of `disciplineClock`. -/
def applyServo (s : Service F C T) (correction : Duration) (ppb : F) :
    ServoState → Service F C T
  | .jump => (s.stepClock correction).selectMasterClock
  | .locked | .lockedStable =>
      let r := Clock.adjustFrequency s.clk ppb
      match r.1 with
      | some _ => { s with clk := r.2 }.setClockSynchronized false
      | none => ({ s with clk := r.2 }.setClockSynchronized true).selectMasterClock
  | .unlocked => s.setClockSynchronized false

/-- The head of `disciplineClock`: the servo is fed with the correction and the local time. -/
def sampleServo (s : Service F C T) (correction : Duration) : Service F C T :=
  let now := Clock.now s.clk
  let r := s.servo.sample correction (UInt64.ofInt (now.1.ns - unixEpoch))
  { s with
    clk := now.2
    servo := r.1
    frequencyPPB := r.2.1
    servoState := r.2.2 }

/-- `disciplineClock`: the offset is local minus master, the correction its opposite. -/
def disciplineClock (s : Service F C T) (offset : Duration) : Service F C T :=
  let s := s.sampleServo (-offset)
  s.applyServo (-offset) s.frequencyPPB s.servoState

/-- Whether the profile measures the peer delay. -/
def isP2P (s : Service F C T) : Bool := s.profile.delayMechanism == delayMechanismP2P

/-- The result of `processSyncComplete`: offset and mean path delay. -/
def syncResult (s : Service F C T) : Option (Duration × Duration) :=
  if s.isP2P then s.tsproc.offsetP2P.map fun offset ↦ (offset, s.tsproc.peerDelay)
  else s.tsproc.offsetE2E

/-- `processSyncComplete`. -/
def processSyncComplete (s : Service F C T) (now : Time) : Service F C T :=
  match s.syncResult with
  | none => s
  | some (offset, meanPathDelay) =>
      let measured : Measurement :=
        if s.isP2P then .offsetP2P s.tsproc else .offsetE2E s.tsproc s.bestMaster
      { { s with
          lastOffset := offset
          meanPathDelay := meanPathDelay
          lastSync := now
          syncCount := s.syncCount + 1
          log := measured :: s.log }.disciplineClock offset with
        syncReceived := false }

/-- The first half of `completeFollowUp`. -/
def setFollowUp (s : Service F C T) (fu : Pending TimestampBody) : Service F C T :=
  let t1 := s.traced fu.header fu.tag (s.ptpTimestampToTime fu.body.timestamp)
  { s with
    tsproc :=
      { s.tsproc with
        t1 := t1
        correctionFollowUp := s.traced fu.header fu.tag fu.header.correctionField }
    log := .pair t1 s.tsproc.t2 :: s.log }

/-- `completeFollowUp`. -/
def completeFollowUp (s : Service F C T) (fu : Pending TimestampBody) (now : Time) :
    Service F C T :=
  (s.setFollowUp fu).processSyncComplete now

/-- `storePendingFollowUp`. -/
def storePendingFollowUp (s : Service F C T) (fu : Pending TimestampBody) : Service F C T :=
  { s with pendingFollowUps := storePending s.pendingFollowUps fu }

/-- The guard of the handlers that only listen to the selected master. -/
def follows (s : Service F C T) (hdr : Header) : Bool :=
  decide s.state.Following && decide (s.bestMaster = some hdr.sourcePortIdentity)

/-- The receipt of a Sync, up to the distinction of one-step and two-step. -/
def receiveSync (s : Service F C T) (hdr : Header) (rxTime : Time) (tag : ℕ) : Service F C T :=
  let t2 := Clock.fromSystem s.clk rxTime
  { s with
    clk := t2.2
    tsproc :=
      { s.tsproc with
        t2 := s.traced hdr tag t2.1
        correctionSync := s.traced hdr tag hdr.correctionField }
    lastSyncSeq := hdr.sequenceID
    twoStep := hdr.flagField &&& flagTwoStep != 0 }

/-- The origin timestamp of a one-step Sync. -/
def setOneStep (s : Service F C T) (hdr : Header) (body : TimestampBody) (tag : ℕ) :
    Service F C T :=
  { s with
    tsproc :=
      { s.tsproc with
        t1 := s.traced hdr tag (s.ptpTimestampToTime body.timestamp)
        correctionFollowUp := s.traced hdr tag 0 } }

/-- `handleSync`. -/
def handleSync (s : Service F C T) (hdr : Header) (body : Bytes) (rxTime : Time) (tag : ℕ)
    (now : Time) : Service F C T :=
  if !s.follows hdr then s
  else
    let s := s.receiveSync hdr rxTime tag
    if !s.twoStep then
      match decodeSyncBody body with
      | .error _ => s
      | .ok syncBody => (s.setOneStep hdr syncBody tag).processSyncComplete now
    else
      let s := { s with syncReceived := true }
      match takePending s.pendingFollowUps hdr.sourcePortIdentity hdr.sequenceID with
      | none => s
      | some (fu, rest) => { s with pendingFollowUps := rest }.completeFollowUp fu now

/-- `handleFollowUp`. -/
def handleFollowUp (s : Service F C T) (hdr : Header) (body : Bytes) (tag : ℕ) (now : Time) :
    Service F C T :=
  if !s.follows hdr then s
  else
    match decodeFollowUpBody body with
    | .error _ => s
    | .ok fu =>
        if !s.syncReceived || !s.twoStep || hdr.sequenceID != s.lastSyncSeq then
          s.storePendingFollowUp ⟨hdr, fu, tag⟩
        else s.completeFollowUp ⟨hdr, fu, tag⟩ now

/-! ## Delay measurement -/

/-- The header of a request of this port. -/
def requestHeader (s : Service F C T) (messageType control : UInt8) (sequenceID : UInt16) :
    Header where
  messageType := messageType
  transportSpecific := s.profile.transportSpecific
  domainNumber := s.profile.domainNumber
  sourcePortIdentity := s.selfID
  sequenceID := sequenceID
  controlField := control
  logMessageInterval := 0x7F

/-- A nonempty transmit timestamp; an error and an empty one are only logged. -/
def txTime : Except String Time → Option Time
  | .error _ => none
  | .ok t => if t.isZero then none else some t

/-- `sendDelayReq`. -/
def sendDelayReq (s : Service F C T) : Service F C T :=
  let hdr := s.requestHeader msgDelayReq controlDelayReq s.delayReqSeq
  let now := Clock.now s.clk
  let sent := Transport.sendEvent s.tr (encodeTimestampMessage hdr ⟨.fromTime now.1⟩)
  let s := { s with clk := now.2, tr := sent.2 }
  match txTime sent.1 with
  | none => s
  | some t =>
      let t3 := Clock.fromSystem s.clk t
      { s with
        clk := t3.2
        tsproc := { s.tsproc with t3 := ⟨t3.1, none, s.steps⟩, t4 := .unset }
        lastDelayReqSeq := hdr.sequenceID
        delayReqPending := true
        delayReqSeq := s.delayReqSeq + 1 }

/-- `sendPDelayReq`. -/
def sendPDelayReq (s : Service F C T) : Service F C T :=
  let hdr := s.requestHeader msgPDelayReq controlOther s.pdelayReqSeq
  let now := Clock.now s.clk
  let sent := Transport.sendEvent s.tr (encodePDelayReq hdr ⟨.fromTime now.1⟩)
  let s := { s with clk := now.2, tr := sent.2 }
  match txTime sent.1 with
  | none => s
  | some t =>
      let t3 := Clock.fromSystem s.clk t
      { s with
        clk := t3.2
        tsproc := { s.tsproc with t3 := ⟨t3.1, none, s.steps⟩ }
        pdelayT1 := .unset
        pdelayT2 := .unset
        pdelayT3 := .unset
        pdelayT4 := .unset
        pdelayRespCorrection := 0
        pdelayRespReceived := false
        pdelayRespSource := ⟨.replicate _ 0, 0⟩
        lastPDelayReqSeq := hdr.sequenceID
        pdelayReqPending := true
        pdelayReqSeq := s.pdelayReqSeq + 1 }.clearPendingPDelayFollowUps

/-- `sendDelayRequest`. -/
def sendDelayRequest (s : Service F C T) : Service F C T :=
  if ¬ s.state.Following then s else if s.isP2P then s.sendPDelayReq else s.sendDelayReq

/-- `handleDelayResp`. -/
def handleDelayResp (s : Service F C T) (hdr : Header) (body : Bytes) (tag : ℕ) :
    Service F C T :=
  if ¬ s.state.Following then s
  else
    match decodeDelayRespBody body with
    | .error _ => s
    | .ok resp =>
        if resp.requestingPortIdentity ≠ s.selfID then s
        else if s.bestMaster ≠ some hdr.sourcePortIdentity then s
        else if !s.delayReqPending || hdr.sequenceID != s.lastDelayReqSeq then s
        else
          { s with
            tsproc :=
              { s.tsproc with
                t4 := s.traced hdr tag (s.ptpTimestampToTime resp.timestamp)
                correctionDelayResp := s.traced hdr tag hdr.correctionField }
            delayReqPending := false }

/-- `computePeerDelay`. -/
def computePeerDelay (s : Service F C T) (corrField : Int64) : Service F C T :=
  if s.pdelayT1.val.isZero || s.pdelayT2.val.isZero || s.pdelayT4.val.isZero then s
  else
    let t3 := if s.pdelayT3.val.isZero then s.pdelayT2 else s.pdelayT3
    let d41 := s.pdelayT4.val.sub s.pdelayT1.val
    let d32 := t3.val.sub s.pdelayT2.val
    let delay := (d41 - d32 - correctionDuration corrField) / 2
    let peerDelay := if delay < 0 then 0 else delay
    { s with
      tsproc := { s.tsproc with peerDelay := peerDelay }
      meanPathDelay := peerDelay
      log := .peerDelay s.pdelayT1 s.pdelayT2 t3 s.pdelayT4 :: s.log }

/-- The end of a peer delay exchange. -/
def finishPDelay (s : Service F C T) (corrField : Int64) : Service F C T :=
  { s.computePeerDelay corrField with pdelayReqPending := false, pdelayRespReceived := false }

/-- The first half of `completePDelayFollowUp`. -/
def setPDelayFollowUp (s : Service F C T) (fu : Pending ResponseBody) : Service F C T :=
  { s with
    pdelayT3 := s.traced fu.header fu.tag (s.ptpTimestampToTime fu.body.timestamp) }

/-- `completePDelayFollowUp`. -/
def completePDelayFollowUp (s : Service F C T) (fu : Pending ResponseBody) : Service F C T :=
  (s.setPDelayFollowUp fu).finishPDelay (s.pdelayRespCorrection + fu.header.correctionField)

/-- `storePendingPDelayFollowUp`. -/
def storePendingPDelayFollowUp (s : Service F C T) (fu : Pending ResponseBody) :
    Service F C T :=
  { s with pendingPDelayFUs := storePending s.pendingPDelayFUs fu }

/-- The receipt of a PDelay_Resp to the pending request. -/
def receivePDelayResp (s : Service F C T) (hdr : Header) (resp : ResponseBody) (rxTime : Time)
    (tag : ℕ) : Service F C T :=
  let t4 := Clock.fromSystem s.clk rxTime
  { s with
    clk := t4.2
    pdelayT4 := ⟨t4.1, none, s.steps⟩
    pdelayT2 := s.traced hdr tag (s.ptpTimestampToTime resp.timestamp)
    pdelayT1 := s.tsproc.t3
    pdelayT3 := .unset
    pdelayRespSeq := hdr.sequenceID
    pdelayRespCorrection := hdr.correctionField
    pdelayRespReceived := true
    pdelayRespSource := hdr.sourcePortIdentity }

/-- `handlePDelayResp`. -/
def handlePDelayResp (s : Service F C T) (hdr : Header) (body : Bytes) (rxTime : Time)
    (tag : ℕ) : Service F C T :=
  if !s.isP2P then s
  else
    match decodePDelayRespBody body with
    | .error _ => s
    | .ok resp =>
        if resp.requestingPortIdentity ≠ s.selfID then s
        else if !s.pdelayReqPending || hdr.sequenceID != s.lastPDelayReqSeq then s
        else
          let s := s.receivePDelayResp hdr resp rxTime tag
          if hdr.flagField &&& flagTwoStep == 0 then s.finishPDelay s.pdelayRespCorrection
          else
            match takePending s.pendingPDelayFUs hdr.sourcePortIdentity hdr.sequenceID with
            | none => s
            | some (fu, rest) => { s with pendingPDelayFUs := rest }.completePDelayFollowUp fu

/-- `handlePDelayRespFollowUp`. -/
def handlePDelayRespFollowUp (s : Service F C T) (hdr : Header) (body : Bytes) (tag : ℕ) :
    Service F C T :=
  if !s.isP2P then s
  else
    match decodePDelayRespFollowUpBody body with
    | .error _ => s
    | .ok fu =>
        if fu.requestingPortIdentity ≠ s.selfID then s
        else if !s.pdelayReqPending then s
        else if hdr.sequenceID != s.lastPDelayReqSeq then s
        else if !s.pdelayRespReceived || hdr.sequenceID != s.pdelayRespSeq ||
            decide (hdr.sourcePortIdentity ≠ s.pdelayRespSource) then
          s.storePendingPDelayFollowUp ⟨hdr, fu, tag⟩
        else s.completePDelayFollowUp ⟨hdr, fu, tag⟩

/-- `systemTimeToPTPTimestamp`. -/
def systemTimeToPTPTimestamp (s : Service F C T) (t : Time) : Timestamp × Service F C T :=
  let r := Clock.fromSystem s.clk t
  (.fromTimeWithUTCOffset r.1 s.utcOffset, { s with clk := r.2 })

/-- The PDelay_Resp of `handlePDelayReq`: its transmit time, unless sending failed. -/
def sendPDelayResp (s : Service F C T) (reqHdr : Header) (pkt : Packet) (unicast : Bool) :
    Option Time × Service F C T :=
  let header : Header :=
    { messageType := msgPDelayResp
      transportSpecific := reqHdr.transportSpecific
      domainNumber := reqHdr.domainNumber
      flagField := if unicast then flagTwoStep ||| flagUnicast else flagTwoStep
      sourcePortIdentity := s.selfID
      sequenceID := reqHdr.sequenceID
      controlField := controlOther
      logMessageInterval := 0x7F }
  let r := s.systemTimeToPTPTimestamp pkt.timestamp
  let data := encodeResponse header ⟨r.1, reqHdr.sourcePortIdentity⟩
  let sent :=
    if unicast then Transport.sendEventTo s.tr data pkt.source else Transport.sendEvent s.tr data
  (txTime sent.1, { r.2 with tr := sent.2 })

/-- The PDelay_Resp_Follow_Up of `handlePDelayReq`: its error, if any. -/
def sendPDelayRespFollowUp (s : Service F C T) (reqHdr : Header) (pkt : Packet) (unicast : Bool)
    (t : Time) : Option String × Service F C T :=
  let header : Header :=
    { messageType := msgPDelayRespFollowUp
      transportSpecific := s.profile.transportSpecific
      domainNumber := reqHdr.domainNumber
      flagField := if unicast then flagUnicast else 0
      correctionField := reqHdr.correctionField
      sourcePortIdentity := s.selfID
      sequenceID := reqHdr.sequenceID
      controlField := controlOther
      logMessageInterval := 0x7F }
  let r := s.systemTimeToPTPTimestamp t
  let data := encodeResponse header ⟨r.1, reqHdr.sourcePortIdentity⟩
  let sent :=
    if unicast then Transport.sendGeneralTo s.tr data pkt.source
    else Transport.sendGeneral s.tr data
  (sent.1, { r.2 with tr := sent.2 })

/-- `handlePDelayReq`: the client answers a peer as a server port does. -/
def handlePDelayReq (s : Service F C T) (reqHdr : Header) (body : Bytes) (pkt : Packet) :
    Service F C T :=
  if !s.isP2P then s
  else if ¬ (s.state = .listening ∨ s.state.Following) then s
  else
    match decodePDelayReqBody body with
    | .error _ => s
    | .ok _ =>
        let unicast := reqHdr.flagField &&& flagUnicast != 0
        let resp := s.sendPDelayResp reqHdr pkt unicast
        match resp.1 with
        | none => resp.2
        | some t =>
            let fu := resp.2.sendPDelayRespFollowUp reqHdr pkt unicast t
            match fu.1 with
            | some _ => fu.2
            | none => { fu.2 with pdelayRespTx := fu.2.pdelayRespTx + 1 }

/-! ## Timeouts -/

/-- The entries that `checkTimeouts` keeps. -/
def liveMasters (s : Service F C T) (now : Time) : Table PortIdentity ForeignMaster :=
  Table.filter (fun _ fm ↦ decide (now.sub fm.lastSeen ≤ s.profile.announceTimeout))
    s.foreignMasters

/-- The Sync timeout at the end of `checkTimeouts`. -/
def checkSync (s : Service F C T) (now : Time) : Service F C T :=
  if s.state = .slave ∧ s.lastSync.isZero = false ∧ s.profile.syncTimeout < now.sub s.lastSync then
    s.dropMeasurement.transition .syncFault
  else s

/-- `checkTimeouts`. -/
def checkTimeouts (s : Service F C T) (now : Time) (ord : MapOrder ForeignMaster) :
    Service F C T :=
  let r := { s with foreignMasters := s.liveMasters now }.selectMaster ord
  match s.bestMaster, r.2 with
  | some _, none => r.1.dropMeasurement.transition .announceTimeout
  | some previousBest, some best =>
      if previousBest ≠ best.identity then r.1.masterChanged else r.1.checkSync now
  | none, _ => r.1.checkSync now

/-! ## Calls -/

/-- The checks that `handleEvent` and `handleGeneral` share: the header and the body of a
packet for this port. -/
def unpack (s : Service F C T) (pkt : Packet) : Option (Header × Bytes) :=
  if pkt.data.length < headerSize then none
  else
    match decodeHeader pkt.data with
    | .error _ => none
    | .ok hdr =>
        if hdr.versionPTP ≠ ptpVersion2 then none
        else if hdr.domainNumber ≠ s.profile.domainNumber then none
        else if hdr.transportSpecific ≠ s.profile.transportSpecific then none
        else if hdr.sourcePortIdentity = s.selfID then none
        else some (hdr, slice pkt.data headerSize hdr.messageLength.toNat)

/-- `handleEvent`. -/
def handleEvent (s : Service F C T) (pkt : Packet) (now : Time) : Service F C T :=
  if pkt.timestamp.isZero then s
  else
    match s.unpack pkt with
    | none => s
    | some (hdr, body) =>
        if hdr.messageType = msgSync then s.handleSync hdr body pkt.timestamp pkt.tag now
        else if hdr.messageType = msgPDelayReq then s.handlePDelayReq hdr body pkt
        else if hdr.messageType = msgPDelayResp then
          s.handlePDelayResp hdr body pkt.timestamp pkt.tag
        else s

/-- `handleGeneral`. -/
def handleGeneral (s : Service F C T) (pkt : Packet) (now : Time)
    (ord : MapOrder ForeignMaster) : Service F C T :=
  match s.unpack pkt with
  | none => s
  | some (hdr, body) =>
      if hdr.messageType = msgAnnounce then s.handleAnnounce hdr body now ord
      else if hdr.messageType = msgFollowUp then s.handleFollowUp hdr body pkt.tag now
      else if hdr.messageType = msgDelayResp then s.handleDelayResp hdr body pkt.tag
      else if hdr.messageType = msgPDelayRespFollowUp then
        s.handlePDelayRespFollowUp hdr body pkt.tag
      else s

end Service

/-- One call that `Run` makes, with the readings of `time.Now()` and the orders of iteration
that it meets.  `start` and `stop` are what `Run` does before and after its loop; `failed` says
whether it ends with an error. -/
inductive Call
  | start
  | event (pkt : Packet) (now : Time)
  | general (pkt : Packet) (now : Time) (ord : MapOrder ForeignMaster)
  | timeouts (now : Time) (ord : MapOrder ForeignMaster)
  | delayRequest
  | stop (failed : Bool)

variable {F C T : Type} [Float64 F] [Clock C F] [Transport T]

/-- One call. -/
def Service.step (s : Service F C T) : Call → Service F C T
  | .start => s.transition .initComplete
  | .event pkt now => s.handleEvent pkt now
  | .general pkt now ord => s.handleGeneral pkt now ord
  | .timeouts now ord => s.checkTimeouts now ord
  | .delayRequest => s.sendDelayRequest
  | .stop failed =>
      { s.setClockSynchronized false with state := if failed then .faulty else .stopped }

/-- A run of the client. -/
def Service.run (s : Service F C T) (calls : List Call) : Service F C T :=
  calls.foldl Service.step s

end ProcessBus.Ptp.Client
