import ProcessBus.Ptp.Client.Effects

/-!
# The handlers when all is well

What a handler does with the message that the client waits for: the packet reaches it
(`step_sync` and its like), and it passes the handler's tests.
-/

namespace ProcessBus.Ptp.Client

open Go

set_option linter.unusedSectionVars false

section Pending

variable {β : Type} {p : Pending β} {source : PortIdentity} {sequenceID : UInt16}

theorem find?_set_findIdx {α : Type} {f : α → Bool} {a : α} (ha : f a = true) {l : List α}
    (h : l.any f = true) : (l.set (l.findIdx f) a).find? f = some a := by
  induction l with
  | nil => cases h
  | cons b l ih =>
      cases hb : f b with
      | true => simp [List.findIdx_cons, hb, ha]
      | false =>
          have hl : l.any f = true := by simpa [hb] using h
          simpa [List.findIdx_cons, hb] using ih hl

/-- What is stored can be taken. -/
theorem takePending_storePending (hp : p.isFor source sequenceID = true)
    (buffer : List (Pending β)) :
    ∃ rest, takePending (storePending buffer p) source sequenceID = some (p, rest) := by
  have hid : p.header.sourcePortIdentity = source ∧ p.header.sequenceID = sequenceID := by
    simpa [Pending.isFor] using hp
  have hfind : (storePending buffer p).find? (Pending.isFor source sequenceID) = some p := by
    unfold storePending
    rw [hid.1, hid.2]
    dsimp only
    split
    · rename_i hany
      exact find?_set_findIdx hp hany
    · rename_i hany
      have hnone : ∀ q ∈ buffer, ¬ q.isFor source sequenceID = true := by
        simpa [List.any_eq_true] using hany
      split
      · rw [List.find?_append, List.find?_eq_none.mpr fun q hq ↦ hnone q (List.mem_of_mem_tail hq)]
        simp [hp]
      · rw [List.find?_append, List.find?_eq_none.mpr hnone]
        simp [hp]
  exact ⟨_, by rw [takePending, hfind]; rfl⟩

end Pending

namespace Service

variable {F C T : Type} [Float64 F] [Clock C F] [Transport T] {s : Service F C T} {hdr : Header}
  {body : Bytes} {pkt : Packet}

/-- A Sync goes to its handler. -/
theorem step_sync (hstamp : pkt.timestamp.isZero = false) (hpkt : s.unpack pkt = some (hdr, body))
    (htype : hdr.messageType = msgSync) (now : Time) :
    s.step (.event pkt now) = s.handleSync hdr body pkt.timestamp pkt.tag now := by
  show s.handleEvent pkt now = _
  rw [handleEvent, if_neg (by rw [hstamp]; exact Bool.false_ne_true), hpkt]
  exact if_pos htype

/-- So do a PDelay_Resp, … -/
theorem step_pdelayResp (hstamp : pkt.timestamp.isZero = false)
    (hpkt : s.unpack pkt = some (hdr, body)) (htype : hdr.messageType = msgPDelayResp)
    (now : Time) :
    s.step (.event pkt now) = s.handlePDelayResp hdr body pkt.timestamp pkt.tag := by
  have hne : msgPDelayResp ≠ msgSync ∧ msgPDelayResp ≠ msgPDelayReq := by decide
  rw [← htype] at hne
  show s.handleEvent pkt now = _
  rw [handleEvent, if_neg (by rw [hstamp]; exact Bool.false_ne_true), hpkt]
  exact (if_neg hne.1).trans ((if_neg hne.2).trans (if_pos htype))

/-- … a Follow_Up, … -/
theorem step_followUp (hpkt : s.unpack pkt = some (hdr, body))
    (htype : hdr.messageType = msgFollowUp) (now : Time) (ord : MapOrder ForeignMaster) :
    s.step (.general pkt now ord) = s.handleFollowUp hdr body pkt.tag now := by
  have hne : msgFollowUp ≠ msgAnnounce := by decide
  rw [← htype] at hne
  show s.handleGeneral pkt now ord = _
  rw [handleGeneral, hpkt]
  exact (if_neg hne).trans (if_pos htype)

/-- … a Delay_Resp … -/
theorem step_delayResp (hpkt : s.unpack pkt = some (hdr, body))
    (htype : hdr.messageType = msgDelayResp) (now : Time) (ord : MapOrder ForeignMaster) :
    s.step (.general pkt now ord) = s.handleDelayResp hdr body pkt.tag := by
  have hne : msgDelayResp ≠ msgAnnounce ∧ msgDelayResp ≠ msgFollowUp := by decide
  rw [← htype] at hne
  show s.handleGeneral pkt now ord = _
  rw [handleGeneral, hpkt]
  exact (if_neg hne.1).trans ((if_neg hne.2).trans (if_pos htype))

/-- … and a PDelay_Resp_Follow_Up. -/
theorem step_pdelayRespFollowUp (hpkt : s.unpack pkt = some (hdr, body))
    (htype : hdr.messageType = msgPDelayRespFollowUp) (now : Time)
    (ord : MapOrder ForeignMaster) :
    s.step (.general pkt now ord) = s.handlePDelayRespFollowUp hdr body pkt.tag := by
  have hne : msgPDelayRespFollowUp ≠ msgAnnounce ∧ msgPDelayRespFollowUp ≠ msgFollowUp ∧
      msgPDelayRespFollowUp ≠ msgDelayResp := by decide
  rw [← htype] at hne
  show s.handleGeneral pkt now ord = _
  rw [handleGeneral, hpkt]
  exact (if_neg hne.1).trans ((if_neg hne.2.1).trans ((if_neg hne.2.2).trans (if_pos htype)))

/-- A two-step Sync waits for its Follow_Up, unless that is there already. -/
theorem handleSync_twoStep (hf : s.follows hdr = true)
    (hflag : (hdr.flagField &&& flagTwoStep != 0) = true) (rxTime : Time) (tag : ℕ) (now : Time) :
    s.handleSync hdr body rxTime tag now =
      match takePending s.pendingFollowUps hdr.sourcePortIdentity hdr.sequenceID with
      | none => { s.receiveSync hdr rxTime tag with syncReceived := true }
      | some (fu, rest) =>
          { s.receiveSync hdr rxTime tag with
            syncReceived := true
            pendingFollowUps := rest }.completeFollowUp fu now := by
  have htwo : (s.receiveSync hdr rxTime tag).twoStep = true := hflag
  unfold handleSync
  rw [hf]
  dsimp only
  rw [htwo]
  rfl

/-- A Follow_Up that no Sync waits for. -/
theorem handleFollowUp_store (hf : s.follows hdr = true) {fu : TimestampBody}
    (hbody : decodeFollowUpBody body = .ok fu) (hawait : ¬ s.Awaits hdr.sequenceID) (tag : ℕ)
    (now : Time) :
    s.handleFollowUp hdr body tag now = s.storePendingFollowUp ⟨hdr, fu, tag⟩ := by
  have hguard : (!s.syncReceived || !s.twoStep || hdr.sequenceID != s.lastSyncSeq) = true := by
    by_contra hcon
    simp only [Bool.or_eq_true, Bool.not_eq_true', bne_iff_ne, ne_eq, not_or, Bool.not_eq_false,
      not_not] at hcon
    exact hawait ⟨hcon.1.1, hcon.1.2, hcon.2⟩
  unfold handleFollowUp
  rw [hf, hbody]
  dsimp only
  rw [hguard]
  rfl

/-- A Follow_Up that a Sync waits for. -/
theorem handleFollowUp_complete (hf : s.follows hdr = true) {fu : TimestampBody}
    (hbody : decodeFollowUpBody body = .ok fu) (hawait : s.Awaits hdr.sequenceID) (tag : ℕ)
    (now : Time) :
    s.handleFollowUp hdr body tag now = s.completeFollowUp ⟨hdr, fu, tag⟩ now := by
  have hguard : (!s.syncReceived || !s.twoStep || hdr.sequenceID != s.lastSyncSeq) = false := by
    simp [hawait.syncReceived, hawait.twoStep, hawait.seq]
  unfold handleFollowUp
  rw [hf, hbody]
  dsimp only
  rw [hguard]
  rfl

/-- The Delay_Resp to the pending request. -/
theorem handleDelayResp_accept (hstate : s.state.Following) {resp : ResponseBody}
    (hbody : decodeDelayRespBody body = .ok resp) (hself : resp.requestingPortIdentity = s.selfID)
    (hbest : s.bestMaster = some hdr.sourcePortIdentity) (hpending : s.delayReqPending = true)
    (hseq : hdr.sequenceID = s.lastDelayReqSeq) (tag : ℕ) :
    s.handleDelayResp hdr body tag = s.receiveDelayResp hdr resp tag := by
  have hguard : (!s.delayReqPending || hdr.sequenceID != s.lastDelayReqSeq) = false := by
    simp [hpending, hseq]
  unfold handleDelayResp
  rw [if_neg (not_not.mpr hstate), hbody]
  dsimp only
  rw [if_neg (not_not.mpr hself), if_neg (not_not.mpr hbest), hguard]
  rfl

/-- The two-step PDelay_Resp to the pending request. -/
theorem handlePDelayResp_twoStep (hP2P : s.isP2P = true) {resp : ResponseBody}
    (hbody : decodePDelayRespBody body = .ok resp) (hself : resp.requestingPortIdentity = s.selfID)
    (hpending : s.pdelayReqPending = true) (hseq : hdr.sequenceID = s.lastPDelayReqSeq)
    (hflag : (hdr.flagField &&& flagTwoStep != 0) = true) (rxTime : Time) (tag : ℕ) :
    s.handlePDelayResp hdr body rxTime tag =
      match takePending s.pendingPDelayFUs hdr.sourcePortIdentity hdr.sequenceID with
      | none => s.receivePDelayResp hdr resp rxTime tag
      | some (fu, rest) =>
          { s.receivePDelayResp hdr resp rxTime tag with
            pendingPDelayFUs := rest }.completePDelayFollowUp fu := by
  have hguard : (!s.pdelayReqPending || hdr.sequenceID != s.lastPDelayReqSeq) = false := by
    simp [hpending, hseq]
  have htwo : (hdr.flagField &&& flagTwoStep == 0) = false := by
    rwa [bne, Bool.not_eq_true'] at hflag
  unfold handlePDelayResp
  rw [hP2P, hbody]
  dsimp only
  rw [if_neg (not_not.mpr hself), hguard, htwo]
  rfl

/-- The Follow_Up of a PDelay_Resp that has not arrived: there is none, or another port's. -/
theorem handlePDelayRespFollowUp_store (hP2P : s.isP2P = true) {fu : ResponseBody}
    (hbody : decodePDelayRespFollowUpBody body = .ok fu)
    (hself : fu.requestingPortIdentity = s.selfID) (hpending : s.pdelayReqPending = true)
    (hseq : hdr.sequenceID = s.lastPDelayReqSeq)
    (hnone : s.pdelayRespReceived = true → s.pdelayRespSource ≠ hdr.sourcePortIdentity) (tag : ℕ) :
    s.handlePDelayRespFollowUp hdr body tag = s.storePendingPDelayFollowUp ⟨hdr, fu, tag⟩ := by
  have hseq' : (hdr.sequenceID != s.lastPDelayReqSeq) = false := by simp [hseq]
  have hguard : (!s.pdelayRespReceived || hdr.sequenceID != s.pdelayRespSeq ||
      decide (hdr.sourcePortIdentity ≠ s.pdelayRespSource)) = true := by
    cases hreceived : s.pdelayRespReceived with
    | false => rfl
    | true =>
        rw [decide_eq_true (hnone hreceived).symm]
        exact Bool.or_true _
  unfold handlePDelayRespFollowUp
  rw [hP2P, hbody]
  dsimp only
  rw [if_neg (not_not.mpr hself), hpending, hseq', hguard]
  rfl

/-- The Follow_Up of a PDelay_Resp that has arrived. -/
theorem handlePDelayRespFollowUp_complete (hP2P : s.isP2P = true) {fu : ResponseBody}
    (hbody : decodePDelayRespFollowUpBody body = .ok fu)
    (hself : fu.requestingPortIdentity = s.selfID) (hpending : s.pdelayReqPending = true)
    (hseq : hdr.sequenceID = s.lastPDelayReqSeq) (hreceived : s.pdelayRespReceived = true)
    (hresp : hdr.sequenceID = s.pdelayRespSeq)
    (hsource : hdr.sourcePortIdentity = s.pdelayRespSource) (tag : ℕ) :
    s.handlePDelayRespFollowUp hdr body tag = s.completePDelayFollowUp ⟨hdr, fu, tag⟩ := by
  have hseq' : (hdr.sequenceID != s.lastPDelayReqSeq) = false := by simp [hseq]
  have hguard : (!s.pdelayRespReceived || hdr.sequenceID != s.pdelayRespSeq ||
      decide (hdr.sourcePortIdentity ≠ s.pdelayRespSource)) = false := by
    simp [hreceived, hresp, hsource]
  unfold handlePDelayRespFollowUp
  rw [hP2P, hbody]
  dsimp only
  rw [if_neg (not_not.mpr hself), hpending, hseq', hguard]
  rfl

/-- A request that is sent. -/
theorem step_delayReq (hstate : s.state.Following) (hE2E : s.isP2P = false) {tx : Time}
    (hsent : (Transport.sendEvent s.tr (encodeTimestampMessage
      (s.requestHeader msgDelayReq controlDelayReq s.delayReqSeq)
        ⟨.fromTime (Clock.now s.clk).1⟩)).1 = .ok tx) (htx : tx.isZero = false) :
    ∃ (clk : C) (tr : T), s.step .delayRequest =
      { s with clk := clk, tr := tr }.sentDelayReq (Clock.fromSystem (Clock.now s.clk).2 tx).1 := by
  refine ⟨(Clock.fromSystem (Clock.now s.clk).2 tx).2, (Transport.sendEvent s.tr
    (encodeTimestampMessage (s.requestHeader msgDelayReq controlDelayReq s.delayReqSeq)
      ⟨.fromTime (Clock.now s.clk).1⟩)).2, ?_⟩
  have htxTime : txTime (.ok tx) = some tx := by
    rw [txTime, htx]
    rfl
  show s.sendDelayRequest = _
  rw [sendDelayRequest, if_neg (not_not.mpr hstate), hE2E, if_neg Bool.false_ne_true, sendDelayReq]
  dsimp only
  rw [hsent, htxTime]
  rfl

/-- So is one for the peer delay. -/
theorem step_pdelayReq (hstate : s.state.Following) (hP2P : s.isP2P = true) {tx : Time}
    (hsent : (Transport.sendEvent s.tr (encodePDelayReq
      (s.requestHeader msgPDelayReq controlOther s.pdelayReqSeq)
        ⟨.fromTime (Clock.now s.clk).1⟩)).1 = .ok tx) (htx : tx.isZero = false) :
    ∃ (clk : C) (tr : T), s.step .delayRequest =
      { s with clk := clk, tr := tr }.sentPDelayReq (Clock.fromSystem (Clock.now s.clk).2 tx).1 := by
  refine ⟨(Clock.fromSystem (Clock.now s.clk).2 tx).2, (Transport.sendEvent s.tr
    (encodePDelayReq (s.requestHeader msgPDelayReq controlOther s.pdelayReqSeq)
      ⟨.fromTime (Clock.now s.clk).1⟩)).2, ?_⟩
  have htxTime : txTime (.ok tx) = some tx := by
    rw [txTime, htx]
    rfl
  show s.sendDelayRequest = _
  rw [sendDelayRequest, if_neg (not_not.mpr hstate), hP2P, if_pos rfl, sendPDelayReq]
  dsimp only
  rw [hsent, htxTime]
  rfl

/-! ## Results -/

/-- The peer delay, if all timestamps are set. -/
theorem computePeerDelay_eq (h1 : s.pdelayT1.val.isZero = false)
    (h2 : s.pdelayT2.val.isZero = false) (h3 : s.pdelayT3.val.isZero = false)
    (h4 : s.pdelayT4.val.isZero = false) (corrField : Int64) :
    s.computePeerDelay corrField =
      let delay := (s.pdelayT4.val.sub s.pdelayT1.val - s.pdelayT3.val.sub s.pdelayT2.val -
        correctionDuration corrField) / 2
      let peerDelay := if delay < 0 then 0 else delay
      { s with
        tsproc := { s.tsproc with peerDelay := peerDelay }
        meanPathDelay := peerDelay
        log := .peerDelay s.pdelayT1 s.pdelayT2 s.pdelayT3 s.pdelayT4 :: s.log } := by
  unfold computePeerDelay
  rw [h1, h2, h4]
  dsimp only
  rw [h3]
  rfl

/-- The discipline of the clock does not touch the results. -/
theorem disciplineClock_results (s : Service F C T) (offset : Duration) :
    (s.disciplineClock offset).lastOffset = s.lastOffset ∧
      (s.disciplineClock offset).meanPathDelay = s.meanPathDelay := by
  have hselect (u : Service F C T) : u.selectMasterClock.lastOffset = u.lastOffset ∧
      u.selectMasterClock.meanPathDelay = u.meanPathDelay := by
    unfold selectMasterClock
    split <;> exact ⟨rfl, rfl⟩
  unfold disciplineClock
  dsimp only
  cases (s.sampleServo (-offset)).servoState with
  | unlocked => exact ⟨rfl, rfl⟩
  | jump =>
      simp only [applyServo, hselect, stepClock]
      split <;> exact ⟨rfl, rfl⟩
  | locked | lockedStable =>
      simp only [applyServo]
      split
      · exact ⟨rfl, rfl⟩
      · exact hselect _

/-- The results are published and recorded. -/
theorem processSyncComplete_results {offset delay : Duration}
    (h : s.syncResult = some (offset, delay)) (now : Time) :
    (s.processSyncComplete now).lastOffset = offset ∧
      (s.processSyncComplete now).meanPathDelay = delay ∧
      s.measured ∈ (s.processSyncComplete now).log := by
  rcases processSyncComplete_rest s now with ⟨-, hnone⟩ | ⟨-, hrest, -⟩
  · cases h.symm.trans hnone
  have hlog : (s.processSyncComplete now).log = s.measured :: s.log := congrArg Rest.log hrest
  rw [hlog, processSyncComplete, h]
  exact ⟨(disciplineClock_results _ _).1, (disciplineClock_results _ _).2, List.mem_cons_self⟩

end Service

end ProcessBus.Ptp.Client
