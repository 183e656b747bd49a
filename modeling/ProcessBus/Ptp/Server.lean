import ProcessBus.Lib.Run
import ProcessBus.Ptp.Client.Service

/-!
# The PTP server

`internal/application/ptpserver/service.go`: a two-step grandmaster.  Its three goroutines send
Announces, send Syncs and answer requests; they share nothing but the transport and the counters,
so a run is a list of calls (`Call`, `Service.step`).  The Announces are left out here.

One field is not in the source and is read by no handler: `outbox` lists the messages that the
server has handed to the transport.
-/

namespace ProcessBus.Ptp.Server

open Go Lib
open Client (Transport)

/-- `PortState`. -/
inductive PortState
  | initializing | master | faulty | stopped
deriving DecidableEq, Repr

/-- `Config`, without what only the Announces need. -/
structure Config where
  profile : Profile
  transport : String
  domainNumber : Option UInt8
  delayMechanism : UInt8
  utcOffset : Int16
  c37238Version : C37238Version
  /-- `Profile.LogDelayReqInterval`. -/
  logDelayReqInterval : Int8

/-- A message that is handed to the transport, as an event or a general message, to the multicast
address or to one receiver. -/
inductive Outgoing
  | event (data : Bytes)
  | eventTo (data : Bytes) (dst : String)
  | general (data : Bytes)
  | generalTo (data : Bytes) (dst : String)
deriving DecidableEq, Repr

/-- `Service`. -/
structure Service (T : Type) where
  cfg : Config
  profile : Profile
  tr : T
  selfID : PortIdentity
  state : PortState
  syncSeq : UInt32
  syncTx : UInt64
  delayRespTx : UInt64
  pdelayTx : UInt64
  outbox : List Outgoing

namespace Service

variable {T : Type} [Transport T]

/-! ## Construction -/

/-- The profile after the adjustments at the head of `New`. -/
def effectiveProfile (cfg : Config) : Profile :=
  let profile := { cfg.profile with domainNumber := cfg.domainNumber.getD cfg.profile.domainNumber }
  let profile :=
    if cfg.c37238Version ≠ .disabled then { profile with c37238Version := cfg.c37238Version }
    else profile
  if profile.c37238Version ≠ .disabled then
    { profile with delayMechanism := delayMechanismP2P }
  else if cfg.delayMechanism ≠ 0 then { profile with delayMechanism := cfg.delayMechanism }
  else profile

/-- `New`. -/
def new (tr : T) (selfID : PortIdentity) (cfg : Config) : Service T where
  cfg := cfg
  profile := effectiveProfile cfg
  tr := tr
  selfID := selfID
  state := .initializing
  syncSeq := 0
  syncTx := 0
  delayRespTx := 0
  pdelayTx := 0
  outbox := []

/-! ## The transport -/

/-- `SendEvent`. -/
def sendEvent (s : Service T) (data : Bytes) : Except String Time × Service T :=
  let sent := Transport.sendEvent s.tr data
  (sent.1, { s with tr := sent.2, outbox := s.outbox ++ [.event data] })

/-- `SendEventTo`. -/
def sendEventTo (s : Service T) (data : Bytes) (dst : String) : Except String Time × Service T :=
  let sent := Transport.sendEventTo s.tr data dst
  (sent.1, { s with tr := sent.2, outbox := s.outbox ++ [.eventTo data dst] })

/-- `SendGeneral`. -/
def sendGeneral (s : Service T) (data : Bytes) : Option String × Service T :=
  let sent := Transport.sendGeneral s.tr data
  (sent.1, { s with tr := sent.2, outbox := s.outbox ++ [.general data] })

/-- `SendGeneralTo`. -/
def sendGeneralTo (s : Service T) (data : Bytes) (dst : String) : Option String × Service T :=
  let sent := Transport.sendGeneralTo s.tr data dst
  (sent.1, { s with tr := sent.2, outbox := s.outbox ++ [.generalTo data dst] })

/-- `tai`: UTC to TAI. -/
def tai (s : Service T) (t : Time) : Timestamp := .fromTimeWithUTCOffset t s.cfg.utcOffset

/-! ## Syncs -/

/-- The Sync with this number: two-step, with an empty timestamp. -/
def syncHeader (s : Service T) (seq : UInt16) : Header where
  messageType := msgSync
  transportSpecific := s.profile.transportSpecific
  domainNumber := s.profile.domainNumber
  flagField := flagTwoStep
  sourcePortIdentity := s.selfID
  sequenceID := seq
  controlField := controlSync
  logMessageInterval := s.profile.logSyncInterval

/-- Its Follow_Up. -/
def followUpHeader (s : Service T) (seq : UInt16) : Header where
  messageType := msgFollowUp
  transportSpecific := s.profile.transportSpecific
  domainNumber := s.profile.domainNumber
  flagField := 0
  sourcePortIdentity := s.selfID
  sequenceID := seq
  controlField := controlFollowUp
  logMessageInterval := s.profile.logSyncInterval

/-- The number of the next Sync. -/
def nextSync (s : Service T) : UInt16 := s.syncSeq.toUInt16

/-- `sendSync`: the error, if any. -/
def sendSync (s : Service T) : Option String × Service T :=
  let seq := s.nextSync
  let s := { s with syncSeq := s.syncSeq + 1 }
  let sync := s.sendEvent (encodeTimestampMessage (s.syncHeader seq) ⟨⟨0, 0⟩⟩)
  match sync.1 with
  | .error err => (some err, sync.2)
  | .ok txTime =>
      if txTime.isZero then (some "PTP transport returned an empty Sync TX timestamp", sync.2)
      else
        let fu := sync.2.sendGeneral
          (encodeTimestampMessage (s.followUpHeader seq) ⟨s.tai txTime⟩)
        match fu.1 with
        | some err => (some err, fu.2)
        | none => (none, { fu.2 with syncTx := fu.2.syncTx + 1 })

/-! ## Requests -/

/-- The Delay_Resp to a request: it echoes the domain and the correction. -/
def delayRespHeader (s : Service T) (reqHdr : Header) (unicast : Bool) : Header where
  messageType := msgDelayResp
  transportSpecific := s.profile.transportSpecific
  domainNumber := reqHdr.domainNumber
  flagField := if unicast then flagUnicast else 0
  correctionField := reqHdr.correctionField
  sourcePortIdentity := s.selfID
  sequenceID := reqHdr.sequenceID
  controlField := controlDelayResp
  logMessageInterval := if unicast then 0x7F else s.cfg.logDelayReqInterval

/-- `handleDelayReq`. -/
def handleDelayReq (s : Service T) (reqHdr : Header) (pkt : Packet) : Service T :=
  if s.state ≠ .master then s
  else if s.profile.delayMechanism ≠ delayMechanismE2E then s
  else
    let unicast := reqHdr.flagField &&& flagUnicast != 0
    let data := encodeResponse (s.delayRespHeader reqHdr unicast)
      ⟨s.tai pkt.timestamp, reqHdr.sourcePortIdentity⟩
    let sent := if unicast then s.sendGeneralTo data pkt.source else s.sendGeneral data
    match sent.1 with
    | some _ => sent.2
    | none => { sent.2 with delayRespTx := sent.2.delayRespTx + 1 }

/-- The PDelay_Resp to a request, without its correction. -/
def pdelayRespHeader (s : Service T) (reqHdr : Header) (unicast : Bool) : Header where
  messageType := msgPDelayResp
  transportSpecific := reqHdr.transportSpecific
  domainNumber := reqHdr.domainNumber
  flagField := if unicast then flagTwoStep ||| flagUnicast else flagTwoStep
  sourcePortIdentity := s.selfID
  sequenceID := reqHdr.sequenceID
  controlField := controlOther
  logMessageInterval := 0x7F

/-- The PDelay_Resp_Follow_Up, which carries the correction of the request. -/
def pdelayRespFollowUpHeader (s : Service T) (reqHdr : Header) (unicast : Bool) : Header where
  messageType := msgPDelayRespFollowUp
  transportSpecific := s.profile.transportSpecific
  domainNumber := reqHdr.domainNumber
  flagField := (if unicast then flagTwoStep ||| flagUnicast else flagTwoStep) &&& flagUnicast
  correctionField := reqHdr.correctionField
  sourcePortIdentity := s.selfID
  sequenceID := reqHdr.sequenceID
  controlField := controlOther
  logMessageInterval := 0x7F

/-- `handlePDelayReq`. -/
def handlePDelayReq (s : Service T) (reqHdr : Header) (pkt : Packet) : Service T :=
  if s.state ≠ .master then s
  else if s.profile.delayMechanism ≠ delayMechanismP2P then s
  else
    let unicast := reqHdr.flagField &&& flagUnicast != 0
    let respData := encodeResponse (s.pdelayRespHeader reqHdr unicast)
      ⟨s.tai pkt.timestamp, reqHdr.sourcePortIdentity⟩
    let resp := if unicast then s.sendEventTo respData pkt.source else s.sendEvent respData
    match resp.1 with
    | .error _ => resp.2
    | .ok txTime =>
        if txTime.isZero then resp.2
        else
          let fuData := encodeResponse (s.pdelayRespFollowUpHeader reqHdr unicast)
            ⟨s.tai txTime, reqHdr.sourcePortIdentity⟩
          let fu :=
            if unicast then resp.2.sendGeneralTo fuData pkt.source else resp.2.sendGeneral fuData
          match fu.1 with
          | some _ => fu.2
          | none => { fu.2 with pdelayTx := fu.2.pdelayTx + 1 }

/-- `handleEventPacket`. -/
def handleEventPacket (s : Service T) (pkt : Packet) : Service T :=
  if pkt.timestamp.isZero then s
  else if pkt.data.length < headerSize then s
  else
    match decodeHeader pkt.data with
    | .error _ => s
    | .ok hdr =>
        if hdr.versionPTP ≠ ptpVersion2 then s
        else if hdr.domainNumber ≠ s.profile.domainNumber then s
        else if hdr.transportSpecific ≠ s.profile.transportSpecific then s
        else if hdr.sourcePortIdentity = s.selfID then s
        else if hdr.messageType = msgDelayReq then
          if hdr.messageLength.toNat < headerSize + 10 then s else s.handleDelayReq hdr pkt
        else if hdr.messageType = msgPDelayReq then
          if hdr.messageLength.toNat < headerSize + 20 then s else s.handlePDelayReq hdr pkt
        else s

end Service

/-- One call that `Run` or its goroutines make.  `start` is what `Run` does before it starts them
(`ownsClock`: the transport is a `TimeSource`), `stop` what it does when the first of them has
ended, with an error or without. -/
inductive Call
  | start (ownsClock : Bool)
  | sync
  | event (pkt : Packet)
  | stop (failed : Bool)

namespace Service

variable {T : Type} [Transport T]

/-- One call. -/
def step (s : Service T) : Call → Service T
  | .start ownsClock =>
      if Transport.timestampMode s.tr ≠ "hardware" ∨ ownsClock = false then
        { s with state := .faulty }
      else { s with state := .master }
  | .sync => s.sendSync.2
  | .event pkt => s.handleEventPacket pkt
  | .stop failed => { s with state := if failed then .faulty else .stopped }

/-- A run of the server. -/
def run (s : Service T) (calls : List Call) : Service T := calls.foldl step s

/-! ## What stays -/

/-- What the server is given once. -/
structure Port where
  cfg : Config
  profile : Profile
  selfID : PortIdentity

def port (s : Service T) : Port := ⟨s.cfg, s.profile, s.selfID⟩

theorem sendSync_port (s : Service T) : s.sendSync.2.port = s.port := by
  unfold sendSync
  dsimp only
  split
  · rfl
  split
  · rfl
  split <;> rfl

theorem handleDelayReq_port (s : Service T) (reqHdr : Header) (pkt : Packet) :
    (s.handleDelayReq reqHdr pkt).port = s.port := by
  have hsent (unicast : Bool) (data : Bytes) : (if unicast then s.sendGeneralTo data pkt.source
      else s.sendGeneral data).2.port = s.port := by
    cases unicast <;> rfl
  unfold handleDelayReq
  split
  · rfl
  split
  · rfl
  dsimp only
  split <;> exact hsent _ _

theorem handlePDelayReq_port (s : Service T) (reqHdr : Header) (pkt : Packet) :
    (s.handlePDelayReq reqHdr pkt).port = s.port := by
  have hresp (unicast : Bool) (data : Bytes) : (if unicast then s.sendEventTo data pkt.source
      else s.sendEvent data).2.port = s.port := by
    cases unicast <;> rfl
  have hfu (u : Service T) (unicast : Bool) (data : Bytes) :
      (if unicast then u.sendGeneralTo data pkt.source else u.sendGeneral data).2.port = u.port := by
    cases unicast <;> rfl
  unfold handlePDelayReq
  split
  · rfl
  split
  · rfl
  dsimp only
  split
  · exact hresp _ _
  split
  · exact hresp _ _
  split <;> exact (hfu _ _ _).trans (hresp _ _)

/-- A request is ignored or goes to its handler. -/
theorem handleEventPacket_cases (s : Service T) (pkt : Packet) :
    s.handleEventPacket pkt = s ∨ ∃ hdr, decodeHeader pkt.data = .ok hdr ∧
      (hdr.messageType = msgDelayReq ∧ s.handleEventPacket pkt = s.handleDelayReq hdr pkt ∨
        hdr.messageType = msgPDelayReq ∧ s.handleEventPacket pkt = s.handlePDelayReq hdr pkt) := by
  -- the result is named, so that the guards are taken apart once
  generalize hr : s.handleEventPacket pkt = r
  unfold handleEventPacket at hr
  split at hr
  · exact .inl hr.symm
  split at hr
  · exact .inl hr.symm
  split at hr
  · exact .inl hr.symm
  rename_i hdr hdec
  split at hr
  · exact .inl hr.symm
  split at hr
  · exact .inl hr.symm
  split at hr
  · exact .inl hr.symm
  split at hr
  · exact .inl hr.symm
  split at hr
  · rename_i htype
    split at hr
    · exact .inl hr.symm
    · exact .inr ⟨hdr, hdec, .inl ⟨htype, hr.symm⟩⟩
  split at hr
  · rename_i htype
    split at hr
    · exact .inl hr.symm
    · exact .inr ⟨hdr, hdec, .inr ⟨htype, hr.symm⟩⟩
  · exact .inl hr.symm

theorem step_port (s : Service T) (c : Call) : (s.step c).port = s.port := by
  cases c with
  | start ownsClock =>
      show (if _ then { s with state := PortState.faulty } else { s with state := .master }).port = _
      split <;> rfl
  | sync => exact sendSync_port s
  | event pkt =>
      rcases handleEventPacket_cases s pkt with h | ⟨hdr, -, ⟨-, h⟩ | ⟨-, h⟩⟩
      · exact congrArg port h
      · exact (congrArg port h).trans (handleDelayReq_port s hdr pkt)
      · exact (congrArg port h).trans (handlePDelayReq_port s hdr pkt)
  | stop failed => rfl

/-- At any two moments of a run the server is the same port. -/
theorem run_port (s : Service T) (calls : List Call) : (s.run calls).port = s.port := by
  have hstep (u : Service T) (c : Call) (hu : u.port = s.port) : (u.step c).port = s.port :=
    (step_port u c).trans hu
  exact inv_run_of_step hstep rfl calls

/-! ## What is sent -/

/-- The messages of `sendSync`, if there are two. -/
theorem sendSync_outbox {s : Service T} {sync followUp : Bytes}
    (h : s.sendSync.2.outbox = s.outbox ++ [.event sync, .general followUp]) :
    sync = encodeTimestampMessage (s.syncHeader s.nextSync) ⟨⟨0, 0⟩⟩ ∧
      ∃ t1, (Transport.sendEvent s.tr sync).1 = .ok t1 ∧
        followUp = encodeTimestampMessage (s.followUpHeader s.nextSync) ⟨s.tai t1⟩ := by
  -- the Sync alone is one message
  have hone {x : Outgoing} (h : s.outbox ++ [x] = s.outbox ++ [.event sync, .general followUp]) :
      False := by
    cases List.append_cancel_left h
  unfold sendSync at h
  dsimp only at h
  split at h
  · exact (hone h).elim
  rename_i t1 ht1
  split at h
  · exact (hone h).elim
  have htwo : s.outbox ++ [.event (encodeTimestampMessage (s.syncHeader s.nextSync) ⟨⟨0, 0⟩⟩)] ++
      [.general (encodeTimestampMessage (s.followUpHeader s.nextSync) ⟨s.tai t1⟩)] =
        s.outbox ++ [.event sync, .general followUp] := by
    split at h <;> exact h
  rw [List.append_assoc] at htwo
  cases List.append_cancel_left htwo
  exact ⟨rfl, t1, ht1, rfl⟩

/-- The answer to a multicast Delay_Req. -/
theorem handleEventPacket_delayReq {s : Service T} {pkt : Packet} {hdr : Header} {resp : Bytes}
    (hdec : decodeHeader pkt.data = .ok hdr) (htype : hdr.messageType = msgDelayReq)
    (hflag : hdr.flagField = 0)
    (h : (s.handleEventPacket pkt).outbox = s.outbox ++ [.general resp]) :
    resp = encodeResponse (s.delayRespHeader hdr false)
      ⟨s.tai pkt.timestamp, hdr.sourcePortIdentity⟩ := by
  have hsilent (h : s.outbox = s.outbox ++ [.general resp]) : False := by
    cases List.append_right_eq_self.mp h.symm
  rcases handleEventPacket_cases s pkt with he | ⟨hdr', hdec', hcase⟩
  · rw [he] at h
    exact (hsilent h).elim
  cases hdec.symm.trans hdec'
  rcases hcase with ⟨-, he⟩ | ⟨htype', -⟩
  · rw [he] at h
    unfold handleDelayReq at h
    split at h
    · exact (hsilent h).elim
    split at h
    · exact (hsilent h).elim
    rw [hflag] at h
    have hsent : s.outbox ++ [.general (encodeResponse (s.delayRespHeader hdr false)
        ⟨s.tai pkt.timestamp, hdr.sourcePortIdentity⟩)] = s.outbox ++ [.general resp] := by
      dsimp only at h
      split at h <;> exact h
    cases List.append_cancel_left hsent
    rfl
  · cases htype.symm.trans htype'

/-- The answer to a multicast PDelay_Req, if there are two messages. -/
theorem handleEventPacket_pdelayReq {s : Service T} {pkt : Packet} {hdr : Header}
    {resp followUp : Bytes} (hdec : decodeHeader pkt.data = .ok hdr)
    (htype : hdr.messageType = msgPDelayReq) (hflag : hdr.flagField = 0)
    (h : (s.handleEventPacket pkt).outbox = s.outbox ++ [.event resp, .general followUp]) :
    resp = encodeResponse (s.pdelayRespHeader hdr false)
        ⟨s.tai pkt.timestamp, hdr.sourcePortIdentity⟩ ∧
      ∃ t3, (Transport.sendEvent s.tr resp).1 = .ok t3 ∧
        followUp = encodeResponse (s.pdelayRespFollowUpHeader hdr false)
          ⟨s.tai t3, hdr.sourcePortIdentity⟩ := by
  have hsilent (h : s.outbox = s.outbox ++ [.event resp, .general followUp]) : False := by
    cases List.append_right_eq_self.mp h.symm
  have hone {x : Outgoing} (h : s.outbox ++ [x] = s.outbox ++ [.event resp, .general followUp]) :
      False := by
    cases List.append_cancel_left h
  rcases handleEventPacket_cases s pkt with he | ⟨hdr', hdec', hcase⟩
  · rw [he] at h
    exact (hsilent h).elim
  cases hdec.symm.trans hdec'
  rcases hcase with ⟨htype', -⟩ | ⟨-, he⟩
  · cases htype.symm.trans htype'
  rw [he] at h
  unfold handlePDelayReq at h
  split at h
  · exact (hsilent h).elim
  split at h
  · exact (hsilent h).elim
  rw [hflag] at h
  dsimp only at h
  split at h
  · exact (hone h).elim
  rename_i t3 ht3
  split at h
  · exact (hone h).elim
  have htwo : s.outbox ++ [.event (encodeResponse (s.pdelayRespHeader hdr false)
        ⟨s.tai pkt.timestamp, hdr.sourcePortIdentity⟩)] ++
      [.general (encodeResponse (s.pdelayRespFollowUpHeader hdr false)
        ⟨s.tai t3, hdr.sourcePortIdentity⟩)] =
        s.outbox ++ [.event resp, .general followUp] := by
    split at h <;> exact h
  rw [List.append_assoc] at htwo
  cases List.append_cancel_left htwo
  exact ⟨rfl, t3, ht3, rfl⟩

end Service

end ProcessBus.Ptp.Server
