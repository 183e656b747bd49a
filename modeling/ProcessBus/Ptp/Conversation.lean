import ProcessBus.Ptp.Client.Effects
import ProcessBus.Ptp.Server
import ProcessBus.Ptp.Wire

/-!
# A server and a client

What the server and the client say to each other in one measurement: a Sync with its Follow_Up, and
a request of the client with its answer, a Delay_Resp or a PDelay_Resp with its Follow_Up.  Every
message passes transparent clocks on its way.

`Conversation.Served` says that the messages are those of the server's own code; here we find out
what the client decodes from them.
-/

namespace ProcessBus.Ptp

open Go Client

set_option linter.unusedSectionVars false

/-- The messages of one measurement, the transparent clocks that they pass, and the instants at
which the two clocks see them leave and arrive. -/
structure Conversation (T : Type) where
  /-- Whether the peer delay is measured. -/
  p2p : Bool
  client : PortIdentity
  server : Server.Service T
  /-- What the server does before it sends the Sync, and before it receives the request. -/
  untilSync : List Server.Call
  untilRequest : List Server.Call
  sync : Bytes
  followUp : Bytes
  response : Bytes
  responseFollowUp : Bytes
  requestNumber : UInt16
  requestOrigin : Timestamp
  requestSource : String
  viaSync : List Int64
  viaFollowUp : List Int64
  viaRequest : List Int64
  viaResponse : List Int64
  viaResponseFollowUp : List Int64
  /-- The Sync: sent by the server, received by the client. -/
  t1 : Time
  t2 : Time
  /-- The request: sent by the client, received by the server. -/
  t3 : Time
  t4 : Time
  /-- The answer to a peer delay request: sent by the server, received by the client. -/
  t5 : Time
  t6 : Time

namespace Conversation

variable {T : Type} [Transport T]

/-- The server when it sends the Sync. -/
def sending (x : Conversation T) : Server.Service T := x.server.run x.untilSync

/-- The server when it receives the request. -/
def answering (x : Conversation T) : Server.Service T := x.server.run x.untilRequest

def master (x : Conversation T) : PortIdentity := x.server.selfID

/-- The number of the Sync. -/
def number (x : Conversation T) : UInt16 := x.sending.nextSync

def utcOffset (x : Conversation T) : Int16 := x.server.cfg.utcOffset

/-- The request of the client. -/
def requestHeader (x : Conversation T) : Header where
  messageType := if x.p2p then msgPDelayReq else msgDelayReq
  transportSpecific := x.server.profile.transportSpecific
  domainNumber := x.server.profile.domainNumber
  sourcePortIdentity := x.client
  sequenceID := x.requestNumber
  controlField := if x.p2p then controlOther else controlDelayReq
  logMessageInterval := 0x7F

def request (x : Conversation T) : Bytes :=
  if x.p2p then encodePDelayReq x.requestHeader ⟨x.requestOrigin⟩
  else encodeTimestampMessage x.requestHeader ⟨x.requestOrigin⟩

/-- The request as it reaches the server. -/
def requestPacket (x : Conversation T) : Packet :=
  ⟨transit x.viaRequest x.request, x.requestSource, x.t4, 0⟩

/-- The residence times of a Sync are in its own correction and in that of its Follow_Up. -/
def syncCorrection (x : Conversation T) : ℤ := residence x.viaSync + residence x.viaFollowUp

/-- Those of a Delay_Req are in its own correction and in that of the Delay_Resp. -/
def delayCorrection (x : Conversation T) : ℤ := residence x.viaRequest + residence x.viaResponse

/-- Those of a PDelay_Resp are in its own correction and in that of its Follow_Up. -/
def responseCorrection (x : Conversation T) : ℤ :=
  residence x.viaResponse + residence x.viaResponseFollowUp

/-- The messages are those of `sendSync`, and of `handleDelayReq` or `handlePDelayReq` for the
request of the client. -/
@[mk_iff]
structure Served (x : Conversation T) : Prop where
  transportSpecific : x.server.profile.transportSpecific < 16
  client : x.client ≠ x.master
  sync : x.sending.sendSync.2.outbox = x.sending.outbox ++ [.event x.sync, .general x.followUp]
  sent : (Transport.sendEvent x.sending.tr x.sync).1 = .ok x.t1
  response : (x.answering.handleEventPacket x.requestPacket).outbox = x.answering.outbox ++
    if x.p2p then [.event x.response, .general x.responseFollowUp] else [.general x.response]
  answered : x.p2p = true → (Transport.sendEvent x.answering.tr x.response).1 = .ok x.t5

/-- The client follows the server. -/
@[mk_iff]
structure Follows {F C T' : Type} [Float64 F] [Clock C F] [Transport T'] (x : Conversation T)
    (s : Client.Service F C T') : Prop where
  state : s.state.Following
  bestMaster : s.bestMaster = some x.master
  selfID : s.selfID = x.client
  utcOffset : s.utcOffset = x.utcOffset
  domainNumber : s.profile.domainNumber = x.server.profile.domainNumber
  transportSpecific : s.profile.transportSpecific = x.server.profile.transportSpecific
  isP2P : s.isP2P = x.p2p

/-! ## The server -/

theorem sending_port (x : Conversation T) : x.sending.port = x.server.port :=
  Server.Service.run_port x.server x.untilSync

theorem answering_port (x : Conversation T) : x.answering.port = x.server.port :=
  Server.Service.run_port x.server x.untilRequest

/-- The server stamps with its own UTC offset. -/
theorem tai_of_port (x : Conversation T) {m : Server.Service T} (h : m.port = x.server.port)
    (t : Time) : m.tai t = .fromTimeWithUTCOffset t x.utcOffset := by
  have hcfg : m.cfg = x.server.cfg := congrArg Server.Service.Port.cfg h
  rw [Server.Service.tai, hcfg, utcOffset]

variable {x : Conversation T}

/-- The header of the Sync. -/
theorem Served.sync_eq (hx : x.Served) :
    x.sync = encodeMessage (x.sending.syncHeader x.number) (encodeTimestamp ⟨0, 0⟩) :=
  (Server.Service.sendSync_outbox hx.sync).1

theorem Served.followUp_eq (hx : x.Served) :
    x.followUp = encodeMessage (x.sending.followUpHeader x.number)
      (encodeTimestamp (.fromTimeWithUTCOffset x.t1 x.utcOffset)) := by
  obtain ⟨-, t1, ht1, hfu⟩ := Server.Service.sendSync_outbox hx.sync
  cases hx.sent.symm.trans ht1
  rw [hfu, x.tai_of_port x.sending_port]
  rfl

/-- The body of the request. -/
def requestBody (x : Conversation T) : Bytes :=
  encodeTimestamp x.requestOrigin ++ if x.p2p then List.replicate 10 0 else []

theorem request_eq (x : Conversation T) :
    x.request = encodeMessage x.requestHeader x.requestBody := by
  unfold request requestBody
  cases x.p2p with
  | false =>
      rw [if_neg Bool.false_ne_true, if_neg Bool.false_ne_true, List.append_nil]
      rfl
  | true => rfl

/-- The request as the server decodes it. -/
def receivedRequest (x : Conversation T) : Header :=
  (x.requestHeader.corrected (residence x.viaRequest)).withLength x.requestBody

theorem Served.decode_request (hx : x.Served) :
    decodeHeader x.requestPacket.data = .ok x.receivedRequest := by
  have htype : (if x.p2p then msgPDelayReq else msgDelayReq) < 16 := by
    cases x.p2p <;> decide
  have hnibbles : (0 : UInt8) < 16 ∧ ptpVersion2 < 16 := by decide
  have hfits : x.requestHeader.Fits :=
    ⟨hx.transportSpecific, htype, hnibbles.1, hnibbles.2⟩
  have hlen : x.requestBody.length < 2 ^ 15 := by
    unfold requestBody
    rw [List.length_append, length_encodeTimestamp]
    cases x.p2p <;> decide
  show decodeHeader (transit x.viaRequest x.request) = _
  rw [request_eq]
  exact decodeHeader_transit hfits hlen x.viaRequest

/-- The answer to a Delay_Req. -/
theorem Served.response_eq (hx : x.Served) (hE2E : x.p2p = false) :
    x.response = encodeMessage (x.answering.delayRespHeader x.receivedRequest false)
      (encodeTimestamp (.fromTimeWithUTCOffset x.t4 x.utcOffset) ++ encodePortIdentity x.client) := by
  have hsent := hx.response
  rw [hE2E, if_neg Bool.false_ne_true] at hsent
  have htype : x.receivedRequest.messageType = msgDelayReq := by
    show (if x.p2p then msgPDelayReq else msgDelayReq) = msgDelayReq
    rw [hE2E, if_neg Bool.false_ne_true]
  have hresp := Server.Service.handleEventPacket_delayReq hx.decode_request htype rfl hsent
  rw [hresp, x.tai_of_port x.answering_port]
  rfl

/-- The answer to a PDelay_Req. -/
theorem Served.peerResponse_eq (hx : x.Served) (hP2P : x.p2p = true) :
    x.response = encodeMessage (x.answering.pdelayRespHeader x.receivedRequest false)
        (encodeTimestamp (.fromTimeWithUTCOffset x.t4 x.utcOffset) ++
          encodePortIdentity x.client) ∧
      x.responseFollowUp =
        encodeMessage (x.answering.pdelayRespFollowUpHeader x.receivedRequest false)
          (encodeTimestamp (.fromTimeWithUTCOffset x.t5 x.utcOffset) ++
            encodePortIdentity x.client) := by
  have hsent := hx.response
  rw [if_pos hP2P] at hsent
  have htype : x.receivedRequest.messageType = msgPDelayReq := if_pos hP2P
  obtain ⟨hresp, t5, ht5, hfu⟩ :=
    Server.Service.handleEventPacket_pdelayReq hx.decode_request htype rfl hsent
  cases (hx.answered hP2P).symm.trans ht5
  rw [hresp, hfu, x.tai_of_port x.answering_port, x.tai_of_port x.answering_port]
  exact ⟨rfl, rfl⟩

/-- A header of the server. -/
structure OfServer (x : Conversation T) (h : Header) : Prop where
  messageType : h.messageType < 16
  transportSpecific : h.transportSpecific = x.server.profile.transportSpecific
  minorSdoId : h.minorSdoId = 0
  versionPTP : h.versionPTP = ptpVersion2
  domainNumber : h.domainNumber = x.server.profile.domainNumber
  source : h.sourcePortIdentity = x.master

theorem OfServer.fits {h : Header} (hh : x.OfServer h) (hx : x.Served) : h.Fits where
  transportSpecific := by
    rw [hh.transportSpecific]
    exact hx.transportSpecific
  messageType := hh.messageType
  minorSdoId := by
    rw [hh.minorSdoId]
    decide
  versionPTP := by
    rw [hh.versionPTP]
    decide

section Headers

variable {m : Server.Service T}

theorem ofServer_sync (h : m.port = x.server.port) (seq : UInt16) :
    x.OfServer (m.syncHeader seq) where
  messageType := (by decide : msgSync < 16)
  transportSpecific := congrArg (·.profile.transportSpecific) h
  minorSdoId := rfl
  versionPTP := rfl
  domainNumber := congrArg (·.profile.domainNumber) h
  source := congrArg (·.selfID) h

theorem ofServer_followUp (h : m.port = x.server.port) (seq : UInt16) :
    x.OfServer (m.followUpHeader seq) where
  messageType := (by decide : msgFollowUp < 16)
  transportSpecific := congrArg (·.profile.transportSpecific) h
  minorSdoId := rfl
  versionPTP := rfl
  domainNumber := congrArg (·.profile.domainNumber) h
  source := congrArg (·.selfID) h

theorem ofServer_delayResp (h : m.port = x.server.port) (unicast : Bool) :
    x.OfServer (m.delayRespHeader x.receivedRequest unicast) where
  messageType := (by decide : msgDelayResp < 16)
  transportSpecific := congrArg (·.profile.transportSpecific) h
  minorSdoId := rfl
  versionPTP := rfl
  domainNumber := rfl
  source := congrArg (·.selfID) h

theorem ofServer_pdelayResp (h : m.port = x.server.port) (unicast : Bool) :
    x.OfServer (m.pdelayRespHeader x.receivedRequest unicast) where
  messageType := (by decide : msgPDelayResp < 16)
  transportSpecific := rfl
  minorSdoId := rfl
  versionPTP := rfl
  domainNumber := rfl
  source := congrArg (·.selfID) h

theorem ofServer_pdelayRespFollowUp (h : m.port = x.server.port) (unicast : Bool) :
    x.OfServer (m.pdelayRespFollowUpHeader x.receivedRequest unicast) where
  messageType := (by decide : msgPDelayRespFollowUp < 16)
  transportSpecific := congrArg (·.profile.transportSpecific) h
  minorSdoId := rfl
  versionPTP := rfl
  domainNumber := rfl
  source := congrArg (·.selfID) h

end Headers

/-! ## The client -/

section Client

variable {F C T' : Type} [Float64 F] [Clock C F] [Transport T'] {s : Client.Service F C T'}

/-- A message of the server is for a client that follows it. -/
theorem Follows.unpack (hs : x.Follows s) (hx : x.Served) {pkt : Packet} {via : List Int64}
    {h : Header} {body : Bytes} (hdata : pkt.data = transit via (encodeMessage h body))
    (hh : x.OfServer h) (hlen : body.length < 2 ^ 15) :
    s.unpack pkt = some ((h.corrected (residence via)).withLength body, body) := by
  have hdec : decodeHeader pkt.data = .ok ((h.corrected (residence via)).withLength body) := by
    rw [hdata]
    exact decodeHeader_transit (hh.fits hx) hlen via
  have hbody : slice pkt.data headerSize
      ((h.corrected (residence via)).withLength body).messageLength.toNat = body := by
    rw [hdata, transit_encodeMessage]
    exact slice_encodeMessage _ hlen
  have hlong : ¬ pkt.data.length < headerSize := by
    rw [hdata, transit_encodeMessage, length_encodeMessage]
    omega
  have hself : h.sourcePortIdentity ≠ s.selfID := by
    rw [hh.source, hs.selfID]
    exact hx.client.symm
  have hdomain := hh.domainNumber.trans hs.domainNumber.symm
  have hspecific := hh.transportSpecific.trans hs.transportSpecific.symm
  unfold Service.unpack
  rw [if_neg hlong, hdec]
  refine (if_neg (not_not.mpr hh.versionPTP)).trans ((if_neg (not_not.mpr hdomain)).trans
    ((if_neg (not_not.mpr hspecific)).trans ((if_neg hself).trans ?_)))
  rw [hbody]

/-- What the client decodes: a message of the master with this type, number and correction. -/
structure Decodes (x : Conversation T) (s : Client.Service F C T') (pkt : Packet)
    (messageType : UInt8) (number : UInt16) (correction : ℤ) (hdr : Header) (body : Bytes) :
    Prop where
  unpack : s.unpack pkt = some (hdr, body)
  messageType : hdr.messageType = messageType
  source : hdr.sourcePortIdentity = x.master
  sequenceID : hdr.sequenceID = number
  correction : hdr.correctionField = .ofInt correction

theorem length_timestamp_lt (ts : Timestamp) : (encodeTimestamp ts).length < 2 ^ 15 := by
  rw [length_encodeTimestamp]
  decide

theorem length_response_lt (ts : Timestamp) (pi : PortIdentity) :
    (encodeTimestamp ts ++ encodePortIdentity pi).length < 2 ^ 15 := by
  rw [List.length_append, length_encodeTimestamp, length_encodePortIdentity]
  decide

/-- The Sync. -/
theorem Follows.unpack_sync (hs : x.Follows s) (hx : x.Served) {pkt : Packet}
    (hdata : pkt.data = transit x.viaSync x.sync) :
    ∃ hdr body, x.Decodes s pkt msgSync x.number (residence x.viaSync) hdr body ∧
      (hdr.flagField &&& flagTwoStep != 0) = true := by
  have hflag : (flagTwoStep &&& flagTwoStep != 0) = true := by decide
  have hh : x.OfServer (x.sending.syncHeader x.number) := ofServer_sync x.sending_port _
  rw [hx.sync_eq] at hdata
  exact ⟨_, _, ⟨hs.unpack hx hdata hh (length_timestamp_lt _), rfl, hh.source, rfl,
    Int64.zero_add _⟩, hflag⟩

/-- Its Follow_Up. -/
theorem Follows.unpack_followUp (hs : x.Follows s) (hx : x.Served) (ht1 : InRange x.utcOffset x.t1)
    {pkt : Packet} (hdata : pkt.data = transit x.viaFollowUp x.followUp) :
    ∃ hdr body, x.Decodes s pkt msgFollowUp x.number (residence x.viaFollowUp) hdr body ∧
      decodeFollowUpBody body = .ok ⟨.fromTimeWithUTCOffset x.t1 x.utcOffset⟩ := by
  have hh : x.OfServer (x.sending.followUpHeader x.number) := ofServer_followUp x.sending_port _
  rw [hx.followUp_eq] at hdata
  exact ⟨_, _, ⟨hs.unpack hx hdata hh (length_timestamp_lt _), rfl, hh.source, rfl,
    Int64.zero_add _⟩, decodeTimestampBody_encode _ ht1.seconds_lt⟩

/-- The Delay_Resp, which echoes the correction of the request. -/
theorem Follows.unpack_response (hs : x.Follows s) (hx : x.Served) (hE2E : x.p2p = false)
    (ht4 : InRange x.utcOffset x.t4) {pkt : Packet}
    (hdata : pkt.data = transit x.viaResponse x.response) :
    ∃ hdr body, x.Decodes s pkt msgDelayResp x.requestNumber x.delayCorrection hdr body ∧
      decodeDelayRespBody body = .ok ⟨.fromTimeWithUTCOffset x.t4 x.utcOffset, x.client⟩ := by
  have hh : x.OfServer (x.answering.delayRespHeader x.receivedRequest false) :=
    ofServer_delayResp x.answering_port _
  have hcorrection : (0 : Int64) + .ofInt (residence x.viaRequest) +
      .ofInt (residence x.viaResponse) = .ofInt x.delayCorrection := by
    rw [Int64.zero_add, ← Int64.ofInt_add, delayCorrection]
  rw [hx.response_eq hE2E] at hdata
  exact ⟨_, _, ⟨hs.unpack hx hdata hh (length_response_lt _ _), rfl, hh.source, rfl, hcorrection⟩,
    decodeResponseBody_encode _ ht4.seconds_lt _⟩

/-- The PDelay_Resp, without the correction of the request. -/
theorem Follows.unpack_peerResponse (hs : x.Follows s) (hx : x.Served) (hP2P : x.p2p = true)
    (ht4 : InRange x.utcOffset x.t4) {pkt : Packet}
    (hdata : pkt.data = transit x.viaResponse x.response) :
    ∃ hdr body, x.Decodes s pkt msgPDelayResp x.requestNumber (residence x.viaResponse) hdr body ∧
      hdr.flagField = flagTwoStep ∧
      decodePDelayRespBody body = .ok ⟨.fromTimeWithUTCOffset x.t4 x.utcOffset, x.client⟩ := by
  have hh : x.OfServer (x.answering.pdelayRespHeader x.receivedRequest false) :=
    ofServer_pdelayResp x.answering_port _
  rw [(hx.peerResponse_eq hP2P).1] at hdata
  exact ⟨_, _, ⟨hs.unpack hx hdata hh (length_response_lt _ _), rfl, hh.source, rfl,
    Int64.zero_add _⟩, rfl, decodeResponseBody_encode _ ht4.seconds_lt _⟩

/-- Its Follow_Up, which carries the correction of the request. -/
theorem Follows.unpack_peerFollowUp (hs : x.Follows s) (hx : x.Served) (hP2P : x.p2p = true)
    (ht5 : InRange x.utcOffset x.t5) {pkt : Packet}
    (hdata : pkt.data = transit x.viaResponseFollowUp x.responseFollowUp) :
    ∃ hdr body, x.Decodes s pkt msgPDelayRespFollowUp x.requestNumber
        (residence x.viaRequest + residence x.viaResponseFollowUp) hdr body ∧
      decodePDelayRespFollowUpBody body =
        .ok ⟨.fromTimeWithUTCOffset x.t5 x.utcOffset, x.client⟩ := by
  have hh : x.OfServer (x.answering.pdelayRespFollowUpHeader x.receivedRequest false) :=
    ofServer_pdelayRespFollowUp x.answering_port _
  have hcorrection : (0 : Int64) + .ofInt (residence x.viaRequest) +
      .ofInt (residence x.viaResponseFollowUp) =
        .ofInt (residence x.viaRequest + residence x.viaResponseFollowUp) := by
    rw [Int64.zero_add, ← Int64.ofInt_add]
  rw [(hx.peerResponse_eq hP2P).2] at hdata
  exact ⟨_, _, ⟨hs.unpack hx hdata hh (length_response_lt _ _), rfl, hh.source, rfl, hcorrection⟩,
    decodeResponseBody_encode _ ht5.seconds_lt _⟩

/-- A timestamp of the server, back on the client's scale. -/
theorem Follows.toTime (hs : x.Follows s) {t : Time} (ht : InRange x.utcOffset t) :
    s.ptpTimestampToTime (.fromTimeWithUTCOffset t x.utcOffset) = t := by
  rw [Service.ptpTimestampToTime, hs.utcOffset]
  exact ht.toTime_fromTime

end Client

end Conversation

end ProcessBus.Ptp
