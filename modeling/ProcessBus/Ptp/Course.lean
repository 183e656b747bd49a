import ProcessBus.Ptp.Client.Handlers
import ProcessBus.Ptp.Conversation

/-!
# The course of a conversation

The messages of a conversation reach the client in any order in which an answer follows its request.
A Follow_Up may overtake the message that it belongs to, and the client does other things in
between. A conversation has two sides: the Sync with its Follow_Up, and the request with its answer.
`Run` says how far each side has come, and `Completed` that the Sync side has come to its end after
the other one, which is when the client computes an offset.

The invariant says what the client holds of each side (`SyncSide`, `DelaySide`).  A side is left
alone by the messages of the other (`syncView`, `delayView`).
-/

namespace ProcessBus.Ptp

open Go Client

set_option linter.unusedSectionVars false

/-! ## The two sides -/

/-- What the client holds of a Sync. -/
structure SyncView where
  syncReceived : Bool
  lastSyncSeq : UInt16
  twoStep : Bool
  pendingFollowUps : List (Pending TimestampBody)
  t2 : Time
  correctionSync : Int64

/-- What it holds of a request. -/
structure DelayView where
  t3 : Time
  t4 : Time
  correctionDelayResp : Int64
  peerDelay : Duration
  delayReqPending : Bool
  lastDelayReqSeq : UInt16
  pdelayReqPending : Bool
  lastPDelayReqSeq : UInt16
  pdelayRespSeq : UInt16
  pdelayT1 : Time
  pdelayT2 : Time
  pdelayT4 : Time
  pdelayRespCorrection : Int64
  pdelayRespReceived : Bool
  pdelayRespSource : PortIdentity
  pendingPDelayFUs : List (Pending ResponseBody)

section Views

variable {F C T : Type} [Float64 F] [Clock C F] [Transport T]

def syncView (s : Client.Service F C T) : SyncView :=
  ⟨s.syncReceived, s.lastSyncSeq, s.twoStep, s.pendingFollowUps, s.tsproc.t2.val,
    s.tsproc.correctionSync.val⟩

def delayView (s : Client.Service F C T) : DelayView :=
  ⟨s.tsproc.t3.val, s.tsproc.t4.val, s.tsproc.correctionDelayResp.val, s.tsproc.peerDelay,
    s.delayReqPending, s.lastDelayReqSeq, s.pdelayReqPending, s.lastPDelayReqSeq, s.pdelayRespSeq,
    s.pdelayT1.val, s.pdelayT2.val, s.pdelayT4.val, s.pdelayRespCorrection, s.pdelayRespReceived,
    s.pdelayRespSource, s.pendingPDelayFUs⟩

end Views

/-- How far a Sync has come: nothing of it is there, the Sync is, or its Follow_Up is. -/
inductive SyncPhase
  | idle | sync | followUp

/-- How far a request has come: it is not sent, it is, its answer is there, the Follow_Up of its
answer is, or all of it. -/
inductive DelayPhase
  | idle | requested | response | followUp | measured

namespace Conversation

variable {T F C T' : Type} [Transport T] [Float64 F] [Clock C F] [Transport T']

/-! ## Arrivals -/

/-- The Sync reaches the client, whose clock reads `t2`. -/
@[mk_iff]
structure SyncArrives (x : Conversation T) (s : Client.Service F C T') (pkt : Packet) : Prop where
  data : pkt.data = transit x.viaSync x.sync
  stamp : pkt.timestamp.isZero = false
  reading : (Clock.fromSystem s.clk pkt.timestamp).1 = x.t2

/-- The client sends the request, and its clock reads `t3`. -/
@[mk_iff]
structure Requests (x : Conversation T) (s : Client.Service F C T') (tx : Time) : Prop where
  number : (if x.p2p then s.pdelayReqSeq else s.delayReqSeq) = x.requestNumber
  origin : Timestamp.fromTime (Clock.now s.clk).1 = x.requestOrigin
  sent : (Transport.sendEvent s.tr x.request).1 = .ok tx
  stamp : tx.isZero = false
  reading : (Clock.fromSystem (Clock.now s.clk).2 tx).1 = x.t3

/-- The PDelay_Resp reaches the client, whose clock reads `t6`. -/
@[mk_iff]
structure ResponseArrives (x : Conversation T) (s : Client.Service F C T') (pkt : Packet) :
    Prop where
  data : pkt.data = transit x.viaResponse x.response
  stamp : pkt.timestamp.isZero = false
  reading : (Clock.fromSystem s.clk pkt.timestamp).1 = x.t6

/-! ## Runs -/

/-- The states that the client is in during the conversation. -/
inductive Run (x : Conversation T) : SyncPhase → DelayPhase → Client.Service F C T' → Prop
  | start {s : Client.Service F C T'} (h : x.Follows s) : Run x .idle .idle s
  /-- Any other call, unless it interferes with what is there already. -/
  | other {a : SyncPhase} {d : DelayPhase} {s : Client.Service F C T'} (c : Call)
      (h : Run x a d s) (hfollows : x.Follows (s.step c))
      (hsync : a ≠ .idle → syncView (s.step c) = syncView s)
      (hdelay : d ≠ .idle → delayView (s.step c) = delayView s) : Run x a d (s.step c)
  /-- The Sync comes first; no Follow_Up of an earlier Sync with its number is left. -/
  | sync {d : DelayPhase} {s : Client.Service F C T'} {pkt : Packet} (now : Time)
      (h : Run x .idle d s) (harrives : x.SyncArrives s pkt)
      (hfresh : takePending s.pendingFollowUps x.master x.number = none) :
      Run x .sync d (s.step (.event pkt now))
  /-- The Follow_Up comes first; no earlier Sync with its number still waits. -/
  | followUp {d : DelayPhase} {s : Client.Service F C T'} {pkt : Packet} (now : Time)
      (ord : MapOrder ForeignMaster) (h : Run x .idle d s)
      (hdata : pkt.data = transit x.viaFollowUp x.followUp) (hfresh : ¬ s.Awaits x.number) :
      Run x .followUp d (s.step (.general pkt now ord))
  | request {a : SyncPhase} {s : Client.Service F C T'} {tx : Time} (h : Run x a .idle s)
      (hrequests : x.Requests s tx) : Run x a .requested (s.step .delayRequest)
  | delayResp {a : SyncPhase} {s : Client.Service F C T'} {pkt : Packet} (now : Time)
      (ord : MapOrder ForeignMaster) (h : Run x a .requested s) (hE2E : x.p2p = false)
      (hdata : pkt.data = transit x.viaResponse x.response) :
      Run x a .measured (s.step (.general pkt now ord))
  | pdelayResp {a : SyncPhase} {s : Client.Service F C T'} {pkt : Packet} (now : Time)
      (h : Run x a .requested s) (hP2P : x.p2p = true) (harrives : x.ResponseArrives s pkt) :
      Run x a .response (s.step (.event pkt now))
  | pdelayFollowUp {a : SyncPhase} {s : Client.Service F C T'} {pkt : Packet} (now : Time)
      (ord : MapOrder ForeignMaster) (h : Run x a .requested s) (hP2P : x.p2p = true)
      (hdata : pkt.data = transit x.viaResponseFollowUp x.responseFollowUp) :
      Run x a .followUp (s.step (.general pkt now ord))
  | lastPDelayResp {a : SyncPhase} {s : Client.Service F C T'} {pkt : Packet} (now : Time)
      (h : Run x a .followUp s) (hP2P : x.p2p = true) (harrives : x.ResponseArrives s pkt) :
      Run x a .measured (s.step (.event pkt now))
  | lastPDelayFollowUp {a : SyncPhase} {s : Client.Service F C T'} {pkt : Packet} (now : Time)
      (ord : MapOrder ForeignMaster) (h : Run x a .response s) (hP2P : x.p2p = true)
      (hdata : pkt.data = transit x.viaResponseFollowUp x.responseFollowUp) :
      Run x a .measured (s.step (.general pkt now ord))

/-- The state after the message that completes the Sync, when the request has been answered. -/
inductive Completed (x : Conversation T) : Client.Service F C T' → Prop
  | sync {s : Client.Service F C T'} {pkt : Packet} (now : Time) (h : Run x .followUp .measured s)
      (harrives : x.SyncArrives s pkt) : Completed x (s.step (.event pkt now))
  | followUp {s : Client.Service F C T'} {pkt : Packet} (now : Time)
      (ord : MapOrder ForeignMaster) (h : Run x .sync .measured s)
      (hdata : pkt.data = transit x.viaFollowUp x.followUp) :
      Completed x (s.step (.general pkt now ord))

/-! ## The invariant -/

/-- The instants of the conversation have a place in a timestamp. -/
@[mk_iff]
structure InTime (x : Conversation T) : Prop where
  t1 : InRange x.utcOffset x.t1
  t2 : InRange x.utcOffset x.t2
  t3 : InRange x.utcOffset x.t3
  t4 : InRange x.utcOffset x.t4
  t5 : x.p2p = true → InRange x.utcOffset x.t5
  t6 : x.p2p = true → InRange x.utcOffset x.t6

/-- The peer delay that the client computes. -/
def peerDelay (x : Conversation T) : Duration :=
  let delay := (x.t6.sub x.t3 - x.t5.sub x.t4 -
    correctionDuration (.ofInt (residence x.viaRequest + x.responseCorrection))) / 2
  if delay < 0 then 0 else delay

/-- The Sync waits for its Follow_Up. -/
structure Synced (x : Conversation T) (v : SyncView) : Prop where
  syncReceived : v.syncReceived = true
  twoStep : v.twoStep = true
  lastSyncSeq : v.lastSyncSeq = x.number
  t2 : v.t2 = x.t2
  correction : v.correctionSync = .ofInt (residence x.viaSync)

/-- The Follow_Up of the Sync. -/
structure IsFollowUp (x : Conversation T) (fu : Pending TimestampBody) : Prop where
  timestamp : fu.body.timestamp = .fromTimeWithUTCOffset x.t1 x.utcOffset
  correction : fu.header.correctionField = .ofInt (residence x.viaFollowUp)

def SyncSide (x : Conversation T) : SyncPhase → SyncView → Prop
  | .idle, _ => True
  | .sync, v => x.Synced v
  | .followUp, v => ∃ fu rest,
      takePending v.pendingFollowUps x.master x.number = some (fu, rest) ∧ x.IsFollowUp fu

/-- The request waits for its answer. -/
structure Requested (x : Conversation T) (v : DelayView) : Prop where
  t3 : v.t3 = x.t3
  delayReq : x.p2p = false → v.delayReqPending = true ∧ v.lastDelayReqSeq = x.requestNumber
  pdelayReq : x.p2p = true → v.pdelayReqPending = true ∧ v.lastPDelayReqSeq = x.requestNumber

/-- Nothing of its answer is there. -/
structure Unanswered (x : Conversation T) (v : DelayView) : Prop extends x.Requested v where
  received : x.p2p = true → v.pdelayRespReceived = false
  pending : x.p2p = true → v.pendingPDelayFUs = []

/-- The answer waits for its Follow_Up. -/
structure Responded (x : Conversation T) (v : DelayView) : Prop extends x.Requested v where
  received : v.pdelayRespReceived = true
  number : v.pdelayRespSeq = x.requestNumber
  source : v.pdelayRespSource = x.master
  pdelayT1 : v.pdelayT1 = x.t3
  pdelayT2 : v.pdelayT2 = x.t4
  pdelayT4 : v.pdelayT4 = x.t6
  correction : v.pdelayRespCorrection = .ofInt (residence x.viaResponse)

/-- The Follow_Up of the answer. -/
structure IsPeerFollowUp (x : Conversation T) (fu : Pending ResponseBody) : Prop where
  timestamp : fu.body.timestamp = .fromTimeWithUTCOffset x.t5 x.utcOffset
  correction : fu.header.correctionField =
    .ofInt (residence x.viaRequest + residence x.viaResponseFollowUp)

/-- The request has been answered. -/
structure Measured (x : Conversation T) (v : DelayView) : Prop where
  delay : x.p2p = false →
    v.t3 = x.t3 ∧ v.t4 = x.t4 ∧ v.correctionDelayResp = .ofInt x.delayCorrection
  peer : x.p2p = true → v.peerDelay = x.peerDelay

def DelaySide (x : Conversation T) : DelayPhase → DelayView → Prop
  | .idle, _ => True
  | .requested, v => x.Unanswered v
  | .response, v => x.Responded v
  | .followUp, v => x.Requested v ∧ ∃ fu rest,
      takePending v.pendingPDelayFUs x.master x.requestNumber = some (fu, rest) ∧
        x.IsPeerFollowUp fu
  | .measured, v => x.Measured v

/-! ## Steps -/

section Steps

variable {x : Conversation T} {s : Client.Service F C T'} {pkt : Packet}

/-- A state that differs in nothing that `Follows` is about. -/
theorem Follows.of_eq {s' : Client.Service F C T'} (hs : x.Follows s) (hstate : s'.state = s.state)
    (hprofile : s'.profile = s.profile) (hself : s'.selfID = s.selfID)
    (hbest : s'.bestMaster = s.bestMaster) (hutc : s'.utcOffset = s.utcOffset) :
    x.Follows s' where
  state := by
    rw [hstate]
    exact hs.state
  bestMaster := hbest.trans hs.bestMaster
  selfID := hself.trans hs.selfID
  utcOffset := hutc.trans hs.utcOffset
  domainNumber := by
    rw [hprofile]
    exact hs.domainNumber
  transportSpecific := by
    rw [hprofile]
    exact hs.transportSpecific
  isP2P := by
    rw [Service.isP2P, hprofile]
    exact hs.isP2P

theorem Follows.follows (hs : x.Follows s) {hdr : Header} (h : hdr.sourcePortIdentity = x.master) :
    s.follows hdr = true := by
  rw [Service.follows_iff, h]
  exact ⟨hs.state, hs.bestMaster⟩

/-- The Sync comes first. -/
theorem Follows.step_sync (hs : x.Follows s) (hx : x.Served) (harrives : x.SyncArrives s pkt)
    (hfresh : takePending s.pendingFollowUps x.master x.number = none) (now : Time) :
    x.Follows (s.step (.event pkt now)) ∧ x.Synced (syncView (s.step (.event pkt now))) ∧
      delayView (s.step (.event pkt now)) = delayView s := by
  obtain ⟨hdr, body, hdec, hflag⟩ := hs.unpack_sync hx harrives.data
  rw [Service.step_sync harrives.stamp hdec.unpack hdec.messageType,
    Service.handleSync_twoStep (hs.follows hdec.source) hflag, hdec.source, hdec.sequenceID, hfresh]
  exact ⟨hs.of_eq rfl rfl rfl rfl rfl,
    ⟨rfl, hflag, hdec.sequenceID, harrives.reading, hdec.correction⟩, rfl⟩

/-- The Follow_Up comes first. -/
theorem Follows.step_followUp (hs : x.Follows s) (hx : x.Served) (ht1 : InRange x.utcOffset x.t1)
    (hdata : pkt.data = transit x.viaFollowUp x.followUp) (hfresh : ¬ s.Awaits x.number)
    (now : Time) (ord : MapOrder ForeignMaster) :
    x.Follows (s.step (.general pkt now ord)) ∧
      x.SyncSide .followUp (syncView (s.step (.general pkt now ord))) ∧
      delayView (s.step (.general pkt now ord)) = delayView s := by
  obtain ⟨hdr, body, hdec, hbody⟩ := hs.unpack_followUp hx ht1 hdata
  have hfor : Pending.isFor x.master x.number
      (⟨hdr, ⟨.fromTimeWithUTCOffset x.t1 x.utcOffset⟩, pkt.tag⟩ : Pending TimestampBody) = true := by
    simp [Pending.isFor, hdec.source, hdec.sequenceID]
  obtain ⟨rest, hrest⟩ := takePending_storePending hfor s.pendingFollowUps
  rw [Service.step_followUp hdec.unpack hdec.messageType, Service.handleFollowUp_store
    (hs.follows hdec.source) hbody (by rw [hdec.sequenceID]; exact hfresh)]
  exact ⟨hs.of_eq rfl rfl rfl rfl rfl, ⟨_, rest, hrest, rfl, hdec.correction⟩, rfl⟩

/-- The request is the one that the client sends. -/
theorem Follows.delayReq_eq (hs : x.Follows s) {tx : Time} (hreq : x.Requests s tx)
    (hE2E : x.p2p = false) :
    encodeTimestampMessage (s.requestHeader msgDelayReq controlDelayReq s.delayReqSeq)
      ⟨.fromTime (Clock.now s.clk).1⟩ = x.request := by
  have hnumber := hreq.number
  rw [hE2E, if_neg Bool.false_ne_true] at hnumber
  rw [request, requestHeader, hE2E, Service.requestHeader, hs.selfID, hs.domainNumber,
    hs.transportSpecific, hnumber, hreq.origin]
  rfl

theorem Follows.pdelayReq_eq (hs : x.Follows s) {tx : Time} (hreq : x.Requests s tx)
    (hP2P : x.p2p = true) :
    encodePDelayReq (s.requestHeader msgPDelayReq controlOther s.pdelayReqSeq)
      ⟨.fromTime (Clock.now s.clk).1⟩ = x.request := by
  have hnumber := hreq.number
  rw [if_pos hP2P] at hnumber
  rw [request, requestHeader, hP2P, Service.requestHeader, hs.selfID, hs.domainNumber,
    hs.transportSpecific, hnumber, hreq.origin]
  rfl

/-- The request is sent. -/
theorem Follows.step_request (hs : x.Follows s) {tx : Time} (hreq : x.Requests s tx) :
    x.Follows (s.step .delayRequest) ∧ x.Unanswered (delayView (s.step .delayRequest)) ∧
      syncView (s.step .delayRequest) = syncView s := by
  have hnumber := hreq.number
  cases hp : x.p2p with
  | false =>
      have hsent := hreq.sent
      rw [← hs.delayReq_eq hreq hp] at hsent
      rw [hp, if_neg Bool.false_ne_true] at hnumber
      obtain ⟨clk, tr, he⟩ := Service.step_delayReq hs.state (hs.isP2P.trans hp) hsent hreq.stamp
      have hne (h : x.p2p = true) {P : Prop} : P := absurd (hp.symm.trans h) Bool.false_ne_true
      rw [he]
      exact ⟨hs.of_eq rfl rfl rfl rfl rfl,
        ⟨⟨hreq.reading, fun _ ↦ ⟨rfl, hnumber⟩, fun h ↦ hne h⟩, fun h ↦ hne h, fun h ↦ hne h⟩, rfl⟩
  | true =>
      have hsent := hreq.sent
      rw [← hs.pdelayReq_eq hreq hp] at hsent
      rw [if_pos hp] at hnumber
      obtain ⟨clk, tr, he⟩ := Service.step_pdelayReq hs.state (hs.isP2P.trans hp) hsent hreq.stamp
      have hne (h : x.p2p = false) {P : Prop} : P := absurd (h.symm.trans hp) Bool.false_ne_true
      rw [he]
      exact ⟨hs.of_eq rfl rfl rfl rfl rfl,
        ⟨⟨hreq.reading, fun h ↦ hne h, fun _ ↦ ⟨rfl, hnumber⟩⟩, fun _ ↦ rfl, fun _ ↦ rfl⟩, rfl⟩

/-- The Delay_Resp comes. -/
theorem Follows.step_delayResp (hs : x.Follows s) (hx : x.Served) (ht4 : InRange x.utcOffset x.t4)
    (hE2E : x.p2p = false) (hreq : x.Requested (delayView s))
    (hdata : pkt.data = transit x.viaResponse x.response) (now : Time)
    (ord : MapOrder ForeignMaster) :
    x.Follows (s.step (.general pkt now ord)) ∧
      x.Measured (delayView (s.step (.general pkt now ord))) ∧
      syncView (s.step (.general pkt now ord)) = syncView s := by
  obtain ⟨hdr, body, hdec, hbody⟩ := hs.unpack_response hx hE2E ht4 hdata
  obtain ⟨hpending, hseq⟩ := hreq.delayReq hE2E
  rw [Service.step_delayResp hdec.unpack hdec.messageType, Service.handleDelayResp_accept hs.state
    hbody hs.selfID.symm (by rw [hdec.source]; exact hs.bestMaster) hpending
    (hdec.sequenceID.trans hseq.symm)]
  have hne (h : x.p2p = true) {P : Prop} : P := absurd (hE2E.symm.trans h) Bool.false_ne_true
  exact ⟨hs.of_eq rfl rfl rfl rfl rfl,
    ⟨fun _ ↦ ⟨hreq.t3, hs.toTime ht4, hdec.correction⟩, fun h ↦ hne h⟩, rfl⟩

/-- The receipt of a PDelay_Resp. -/
theorem Follows.receivePDelayResp (hs : x.Follows s) (ht4 : InRange x.utcOffset x.t4)
    (hreq : x.Requested (delayView s)) {hdr : Header} {body : Bytes}
    (hdec : x.Decodes s pkt msgPDelayResp x.requestNumber (residence x.viaResponse) hdr body)
    (harrives : x.ResponseArrives s pkt) :
    x.Responded (delayView (s.receivePDelayResp hdr
      ⟨.fromTimeWithUTCOffset x.t4 x.utcOffset, x.client⟩ pkt.timestamp pkt.tag)) where
  t3 := hreq.t3
  delayReq := hreq.delayReq
  pdelayReq := hreq.pdelayReq
  received := rfl
  number := hdec.sequenceID
  source := hdec.source
  pdelayT1 := hreq.t3
  pdelayT2 := hs.toTime ht4
  pdelayT4 := harrives.reading
  correction := hdec.correction

/-- A PDelay_Resp and its Follow_Up are put together. -/
theorem Follows.completePDelayFollowUp (hs : x.Follows s) (ht : x.InTime) (hP2P : x.p2p = true)
    (hresp : x.Responded (delayView s)) {fu : Pending ResponseBody} (hfu : x.IsPeerFollowUp fu) :
    x.Follows (s.completePDelayFollowUp fu) ∧
      x.Measured (delayView (s.completePDelayFollowUp fu)) ∧
      syncView (s.completePDelayFollowUp fu) = syncView s := by
  have hT1 : s.pdelayT1.val = x.t3 := hresp.pdelayT1
  have hT2 : s.pdelayT2.val = x.t4 := hresp.pdelayT2
  have hT4 : s.pdelayT4.val = x.t6 := hresp.pdelayT4
  have hT3 : (s.setPDelayFollowUp fu).pdelayT3.val = x.t5 := by
    show s.ptpTimestampToTime fu.body.timestamp = x.t5
    rw [hfu.timestamp]
    exact hs.toTime (ht.t5 hP2P)
  have hcorr : s.pdelayRespCorrection + fu.header.correctionField =
      .ofInt (residence x.viaRequest + x.responseCorrection) := by
    have hresp' : s.pdelayRespCorrection = .ofInt (residence x.viaResponse) := hresp.correction
    rw [hresp', hfu.correction, ← Int64.ofInt_add, responseCorrection]
    congr 1
    ring
  have hset : (s.setPDelayFollowUp fu).pdelayT1.val.isZero = false ∧
      (s.setPDelayFollowUp fu).pdelayT2.val.isZero = false ∧
      (s.setPDelayFollowUp fu).pdelayT3.val.isZero = false ∧
      (s.setPDelayFollowUp fu).pdelayT4.val.isZero = false := by
    refine ⟨?_, ?_, ?_, ?_⟩
    · exact (congrArg Time.isZero hT1).trans ht.t3.isZero
    · exact (congrArg Time.isZero hT2).trans ht.t4.isZero
    · exact (congrArg Time.isZero hT3).trans (ht.t5 hP2P).isZero
    · exact (congrArg Time.isZero hT4).trans (ht.t6 hP2P).isZero
  have hne (h : x.p2p = false) {P : Prop} : P := absurd (h.symm.trans hP2P) Bool.false_ne_true
  rw [Service.completePDelayFollowUp, Service.finishPDelay, hcorr,
    Service.computePeerDelay_eq hset.1 hset.2.1 hset.2.2.1 hset.2.2.2]
  refine ⟨hs.of_eq rfl rfl rfl rfl rfl, ⟨fun h ↦ hne h, fun _ ↦ ?_⟩, rfl⟩
  show (let delay := (s.pdelayT4.val.sub s.pdelayT1.val -
    (s.setPDelayFollowUp fu).pdelayT3.val.sub s.pdelayT2.val - _) / 2; if delay < 0 then 0 else delay) = _
  rw [hT1, hT2, hT3, hT4]
  rfl

/-- The PDelay_Resp comes first. -/
theorem Follows.step_pdelayResp (hs : x.Follows s) (hx : x.Served)
    (ht4 : InRange x.utcOffset x.t4) (hP2P : x.p2p = true) (hreq : x.Unanswered (delayView s))
    (harrives : x.ResponseArrives s pkt) (now : Time) :
    x.Follows (s.step (.event pkt now)) ∧ x.Responded (delayView (s.step (.event pkt now))) ∧
      syncView (s.step (.event pkt now)) = syncView s := by
  obtain ⟨hdr, body, hdec, hflag, hbody⟩ := hs.unpack_peerResponse hx hP2P ht4 harrives.data
  obtain ⟨hpending, hseq⟩ := hreq.pdelayReq hP2P
  have hnone : s.pendingPDelayFUs = [] := hreq.pending hP2P
  rw [Service.step_pdelayResp harrives.stamp hdec.unpack hdec.messageType,
    Service.handlePDelayResp_twoStep (hs.isP2P.trans hP2P) hbody hs.selfID.symm hpending
      (hdec.sequenceID.trans hseq.symm) (by rw [hflag]; decide), hnone]
  exact ⟨hs.of_eq rfl rfl rfl rfl rfl,
    hs.receivePDelayResp ht4 hreq.toRequested hdec harrives, rfl⟩

/-- Its Follow_Up comes first. -/
theorem Follows.step_pdelayFollowUp (hs : x.Follows s) (hx : x.Served)
    (ht5 : InRange x.utcOffset x.t5) (hP2P : x.p2p = true) (hreq : x.Unanswered (delayView s))
    (hdata : pkt.data = transit x.viaResponseFollowUp x.responseFollowUp) (now : Time)
    (ord : MapOrder ForeignMaster) :
    x.Follows (s.step (.general pkt now ord)) ∧
      x.DelaySide .followUp (delayView (s.step (.general pkt now ord))) ∧
      syncView (s.step (.general pkt now ord)) = syncView s := by
  obtain ⟨hdr, body, hdec, hbody⟩ := hs.unpack_peerFollowUp hx hP2P ht5 hdata
  obtain ⟨hpending, hseq⟩ := hreq.pdelayReq hP2P
  have hfor : Pending.isFor x.master x.requestNumber
      (⟨hdr, ⟨.fromTimeWithUTCOffset x.t5 x.utcOffset, x.client⟩, pkt.tag⟩ :
        Pending ResponseBody) = true := by
    simp [Pending.isFor, hdec.source, hdec.sequenceID]
  obtain ⟨rest, hrest⟩ := takePending_storePending hfor s.pendingPDelayFUs
  rw [Service.step_pdelayRespFollowUp hdec.unpack hdec.messageType,
    Service.handlePDelayRespFollowUp_store (hs.isP2P.trans hP2P) hbody hs.selfID.symm hpending
      (hdec.sequenceID.trans hseq.symm)
      fun h ↦ absurd ((hreq.received hP2P).symm.trans h) Bool.false_ne_true]
  exact ⟨hs.of_eq rfl rfl rfl rfl rfl,
    ⟨⟨hreq.t3, hreq.delayReq, hreq.pdelayReq⟩, _, rest, hrest, rfl, hdec.correction⟩, rfl⟩

/-- The PDelay_Resp comes after its Follow_Up. -/
theorem Follows.step_lastPDelayResp (hs : x.Follows s) (hx : x.Served) (ht : x.InTime)
    (hP2P : x.p2p = true) (hside : x.DelaySide .followUp (delayView s))
    (harrives : x.ResponseArrives s pkt) (now : Time) :
    x.Follows (s.step (.event pkt now)) ∧ x.Measured (delayView (s.step (.event pkt now))) ∧
      syncView (s.step (.event pkt now)) = syncView s := by
  obtain ⟨hreq, fu, rest, htake, hfu⟩ := hside
  obtain ⟨hdr, body, hdec, hflag, hbody⟩ := hs.unpack_peerResponse hx hP2P ht.t4 harrives.data
  obtain ⟨hpending, hseq⟩ := hreq.pdelayReq hP2P
  have htake' : takePending s.pendingPDelayFUs x.master x.requestNumber = some (fu, rest) := htake
  rw [Service.step_pdelayResp harrives.stamp hdec.unpack hdec.messageType,
    Service.handlePDelayResp_twoStep (hs.isP2P.trans hP2P) hbody hs.selfID.symm hpending
      (hdec.sequenceID.trans hseq.symm) (by rw [hflag]; decide), hdec.source, hdec.sequenceID, htake']
  have hresp := hs.receivePDelayResp ht.t4 hreq hdec harrives
  let u : Client.Service F C T' :=
    { s.receivePDelayResp hdr ⟨.fromTimeWithUTCOffset x.t4 x.utcOffset, x.client⟩ pkt.timestamp
        pkt.tag with pendingPDelayFUs := rest }
  have hu : x.Follows u := hs.of_eq rfl rfl rfl rfl rfl
  have hu' : x.Responded (delayView u) :=
    ⟨⟨hresp.t3, hresp.delayReq, hresp.pdelayReq⟩, hresp.received, hresp.number, hresp.source,
      hresp.pdelayT1, hresp.pdelayT2, hresp.pdelayT4, hresp.correction⟩
  exact hu.completePDelayFollowUp ht hP2P hu' hfu

/-- The Follow_Up comes after its PDelay_Resp. -/
theorem Follows.step_lastPDelayFollowUp (hs : x.Follows s) (hx : x.Served) (ht : x.InTime)
    (hP2P : x.p2p = true) (hresp : x.Responded (delayView s))
    (hdata : pkt.data = transit x.viaResponseFollowUp x.responseFollowUp) (now : Time)
    (ord : MapOrder ForeignMaster) :
    x.Follows (s.step (.general pkt now ord)) ∧
      x.Measured (delayView (s.step (.general pkt now ord))) ∧
      syncView (s.step (.general pkt now ord)) = syncView s := by
  obtain ⟨hdr, body, hdec, hbody⟩ := hs.unpack_peerFollowUp hx hP2P (ht.t5 hP2P) hdata
  obtain ⟨hpending, hseq⟩ := hresp.pdelayReq hP2P
  rw [Service.step_pdelayRespFollowUp hdec.unpack hdec.messageType,
    Service.handlePDelayRespFollowUp_complete (hs.isP2P.trans hP2P) hbody hs.selfID.symm hpending
      (hdec.sequenceID.trans hseq.symm) hresp.received (hdec.sequenceID.trans hresp.number.symm)
      (hdec.source.trans hresp.source.symm)]
  exact hs.completePDelayFollowUp ht hP2P hresp ⟨rfl, hdec.correction⟩

end Steps

/-- **What the client holds**, at every moment of the conversation. -/
theorem Run.holds {x : Conversation T} (hx : x.Served) (ht : x.InTime) {a : SyncPhase}
    {d : DelayPhase} {s : Client.Service F C T'} (h : Run x a d s) :
    x.Follows s ∧ x.SyncSide a (syncView s) ∧ x.DelaySide d (delayView s) := by
  induction h with
  | start hs => exact ⟨hs, trivial, trivial⟩
  | @other a d s c h hfollows hsync hdelay ih =>
      obtain ⟨-, hs, hd⟩ := ih
      refine ⟨hfollows, ?_, ?_⟩
      · cases a with
        | idle => trivial
        | sync | followUp =>
            rw [hsync nofun]
            exact hs
      · cases d with
        | idle => trivial
        | requested | response | followUp | measured =>
            rw [hdelay nofun]
            exact hd
  | sync now h harrives hfresh ih =>
      obtain ⟨hf, -, hd⟩ := ih
      obtain ⟨hf', hs', hview⟩ := hf.step_sync hx harrives hfresh now
      rw [hview]
      exact ⟨hf', hs', hd⟩
  | followUp now ord h hdata hfresh ih =>
      obtain ⟨hf, -, hd⟩ := ih
      obtain ⟨hf', hs', hview⟩ := hf.step_followUp hx ht.t1 hdata hfresh now ord
      rw [hview]
      exact ⟨hf', hs', hd⟩
  | request h hreq ih =>
      obtain ⟨hf, hs, -⟩ := ih
      obtain ⟨hf', hd', hview⟩ := hf.step_request hreq
      rw [hview]
      exact ⟨hf', hs, hd'⟩
  | delayResp now ord h hE2E hdata ih =>
      obtain ⟨hf, hs, hd⟩ := ih
      obtain ⟨hf', hd', hview⟩ :=
        hf.step_delayResp hx ht.t4 hE2E (Unanswered.toRequested hd) hdata now ord
      rw [hview]
      exact ⟨hf', hs, hd'⟩
  | pdelayResp now h hP2P harrives ih =>
      obtain ⟨hf, hs, hd⟩ := ih
      obtain ⟨hf', hd', hview⟩ := hf.step_pdelayResp hx ht.t4 hP2P hd harrives now
      rw [hview]
      exact ⟨hf', hs, hd'⟩
  | pdelayFollowUp now ord h hP2P hdata ih =>
      obtain ⟨hf, hs, hd⟩ := ih
      obtain ⟨hf', hd', hview⟩ := hf.step_pdelayFollowUp hx (ht.t5 hP2P) hP2P hd hdata now ord
      rw [hview]
      exact ⟨hf', hs, hd'⟩
  | lastPDelayResp now h hP2P harrives ih =>
      obtain ⟨hf, hs, hd⟩ := ih
      obtain ⟨hf', hd', hview⟩ := hf.step_lastPDelayResp hx ht hP2P hd harrives now
      rw [hview]
      exact ⟨hf', hs, hd'⟩
  | lastPDelayFollowUp now ord h hP2P hdata ih =>
      obtain ⟨hf, hs, hd⟩ := ih
      obtain ⟨hf', hd', hview⟩ := hf.step_lastPDelayFollowUp hx ht hP2P hd hdata now ord
      rw [hview]
      exact ⟨hf', hs, hd'⟩

/-! ## The end -/

/-- The timestamps and corrections of the conversation. -/
structure Ready (x : Conversation T) (p : TsProc) : Prop where
  t1 : p.t1.val = x.t1
  t2 : p.t2.val = x.t2
  correction : p.correctionSync.val + p.correctionFollowUp.val = .ofInt x.syncCorrection
  delay : x.p2p = false →
    p.t3.val = x.t3 ∧ p.t4.val = x.t4 ∧ p.correctionDelayResp.val = .ofInt x.delayCorrection
  peer : x.p2p = true → p.peerDelay = x.peerDelay

/-- A Sync and its Follow_Up are put together. -/
theorem Follows.setFollowUp {x : Conversation T} {s : Client.Service F C T'} (hs : x.Follows s)
    (ht1 : InRange x.utcOffset x.t1) {fu : Pending TimestampBody} (hfu : x.IsFollowUp fu)
    (ht2 : s.tsproc.t2.val = x.t2)
    (hcorrection : s.tsproc.correctionSync.val = .ofInt (residence x.viaSync))
    (hmeasured : x.Measured (delayView s)) : x.Ready (s.setFollowUp fu).tsproc where
  t1 := by
    show s.ptpTimestampToTime fu.body.timestamp = x.t1
    rw [hfu.timestamp]
    exact hs.toTime ht1
  t2 := ht2
  correction := by
    show s.tsproc.correctionSync.val + fu.header.correctionField = _
    rw [hcorrection, hfu.correction, ← Int64.ofInt_add, syncCorrection]
  delay := hmeasured.delay
  peer := hmeasured.peer

/-- **At the end, the client computes an offset from the timestamps of the conversation.** -/
theorem Completed.ready {x : Conversation T} (hx : x.Served) (ht : x.InTime)
    {s : Client.Service F C T'} (h : Completed x s) :
    ∃ (u : Client.Service F C T') (now : Time), s = u.processSyncComplete now ∧ u.isP2P = x.p2p ∧
      x.Ready u.tsproc := by
  cases h with
  | @sync s pkt now h harrives =>
      obtain ⟨hs, ⟨fu, rest, htake, hfu⟩, hmeasured⟩ := h.holds hx ht
      obtain ⟨hdr, body, hdec, hflag⟩ := hs.unpack_sync hx harrives.data
      have htake' : takePending s.pendingFollowUps x.master x.number = some (fu, rest) := htake
      let u : Client.Service F C T' :=
        { s.receiveSync hdr pkt.timestamp pkt.tag with
          syncReceived := true
          pendingFollowUps := rest }
      have hu : x.Follows u := hs.of_eq rfl rfl rfl rfl rfl
      refine ⟨u.setFollowUp fu, now, ?_, hs.isP2P,
        hu.setFollowUp ht.t1 hfu harrives.reading hdec.correction hmeasured⟩
      rw [Service.step_sync harrives.stamp hdec.unpack hdec.messageType,
        Service.handleSync_twoStep (hs.follows hdec.source) hflag, hdec.source, hdec.sequenceID,
        htake']
      rfl
  | @followUp s pkt now ord h hdata =>
      obtain ⟨hs, hsync, hmeasured⟩ := h.holds hx ht
      obtain ⟨hdr, body, hdec, hbody⟩ := hs.unpack_followUp hx ht.t1 hdata
      have hawait : s.Awaits hdr.sequenceID :=
        ⟨Synced.syncReceived hsync, Synced.twoStep hsync,
          hdec.sequenceID.trans (Synced.lastSyncSeq hsync).symm⟩
      refine ⟨s.setFollowUp ⟨hdr, ⟨.fromTimeWithUTCOffset x.t1 x.utcOffset⟩, pkt.tag⟩, now, ?_,
        hs.isP2P, hs.setFollowUp ht.t1 ⟨rfl, hdec.correction⟩ (Synced.t2 hsync)
          (Synced.correction hsync) hmeasured⟩
      rw [Service.step_followUp hdec.unpack hdec.messageType,
        Service.handleFollowUp_complete (hs.follows hdec.source) hbody hawait]
      rfl

end Conversation

end ProcessBus.Ptp
