import ProcessBus.Lib.Backlog
import ProcessBus.Ptp.Client.Handlers
import ProcessBus.Ptp.Client.Reselection

/-!
# A message and its Follow_Up, in either order

A Follow_Up that comes before its Sync waits in a buffer, and so does the one of a PDelay_Resp; one
that comes after it completes the measurement at once.  Both ways lead to the same measurement and,
but for the buffer, to the same state (`sync_either_order`, `pdelay_either_order`): the Follow_Up
that waits may take the place of the oldest one.

The buffers are backlogs by sender and sequence number, in every reachable state
(`Service.Buffered`).
-/

namespace ProcessBus.Ptp.Client

open Go Lib

set_option linter.unusedSectionVars false

variable {F C T : Type} [Float64 F] [Clock C F] [Transport T]

/-! ## The buffers -/

section Pending

variable {β : Type}

/-- The sender and the sequence number of a message that waits. -/
def Pending.key (p : Pending β) : PortIdentity × UInt16 :=
  (p.header.sourcePortIdentity, p.header.sequenceID)

theorem Pending.isFor_eq (source : PortIdentity) (sequenceID : UInt16) :
    Pending.isFor source sequenceID =
      fun p : Pending β ↦ decide (p.key = (source, sequenceID)) := by
  funext p
  rw [Bool.eq_iff_iff, decide_eq_true_iff, Pending.key, Prod.mk.injEq, Pending.isFor,
    Bool.and_eq_true, decide_eq_true_iff, beq_iff_eq]

theorem storePending_eq (buffer : List (Pending β)) (p : Pending β) :
    storePending buffer p = Backlog.store Pending.key pendingFollowUpLimit buffer p := by
  unfold storePending Backlog.store
  rw [Pending.isFor_eq]
  rfl

theorem takePending_eq (buffer : List (Pending β)) (source : PortIdentity) (sequenceID : UInt16) :
    takePending buffer source sequenceID =
      Backlog.take Pending.key buffer (source, sequenceID) := by
  unfold takePending Backlog.take
  rw [Pending.isFor_eq]

/-- A buffer in order: at most eight messages, no two with the same sender and number. -/
abbrev BufferWf (buffer : List (Pending β)) : Prop :=
  Backlog.Wf Pending.key pendingFollowUpLimit buffer

theorem BufferWf.store {buffer : List (Pending β)} (h : BufferWf buffer) (p : Pending β) :
    BufferWf (storePending buffer p) := by
  rw [storePending_eq]
  exact Backlog.Wf.store h (by decide) p

theorem takePending_sublist {buffer rest : List (Pending β)} {source : PortIdentity}
    {sequenceID : UInt16} {p : Pending β}
    (h : takePending buffer source sequenceID = some (p, rest)) : rest.Sublist buffer := by
  rw [takePending_eq] at h
  exact Backlog.sublist_of_take h

/-- The buffer after room was made for one more message. -/
def evictOldest (buffer : List (Pending β)) : List (Pending β) :=
  Backlog.makeRoom pendingFollowUpLimit buffer

/-- A new message that is stored is taken again, and the oldest one may be gone. -/
theorem takePending_store_new {buffer : List (Pending β)} {p : Pending β}
    (h : p.key ∉ buffer.map Pending.key) :
    takePending (storePending buffer p) p.header.sourcePortIdentity p.header.sequenceID =
      some (p, evictOldest buffer) := by
  rw [storePending_eq, takePending_eq]
  exact Backlog.take_store h

/-- A ninth message makes the oldest one go. -/
theorem storePending_full {buffer : List (Pending β)} {p : Pending β} (hfull : buffer.length = 8)
    (h : p.key ∉ buffer.map Pending.key) : storePending buffer p = buffer.tail ++ [p] := by
  have hroom : Backlog.makeRoom pendingFollowUpLimit buffer = buffer.tail := if_pos hfull
  rw [storePending_eq, Backlog.store_of_notMem h, hroom]

theorem takePending_eq_none {buffer : List (Pending β)} {source : PortIdentity}
    {sequenceID : UInt16} (h : (source, sequenceID) ∉ buffer.map Pending.key) :
    takePending buffer source sequenceID = none := by
  rw [takePending_eq]
  exact Backlog.take_eq_none h

end Pending

namespace Service

variable {s s' : Service F C T}

/-- Both buffers are in order, and a peer is only asked if the port measures its delay. -/
structure Buffered (s : Service F C T) : Prop where
  followUps : BufferWf s.pendingFollowUps
  pdelayFollowUps : BufferWf s.pendingPDelayFUs
  p2p : s.pdelayReqPending = true → s.isP2P = true

/-- What a call leaves of the buffers is in order. -/
theorem Buffered.shrink (h : s.Buffered) (hsync : s'.pendingFollowUps.Sublist s.pendingFollowUps)
    (hpdelay : s'.pendingPDelayFUs.Sublist s.pendingPDelayFUs)
    (hpending : s'.pdelayReqPending = true → s.pdelayReqPending = true)
    (hprofile : s'.profile = s.profile) : s'.Buffered where
  followUps := h.followUps.sublist hsync
  pdelayFollowUps := h.pdelayFollowUps.sublist hpdelay
  p2p hp := by
    have hP2P := h.p2p (hpending hp)
    rwa [isP2P, ← hprofile] at hP2P

/-- The end of a measurement keeps both buffers, or empties them and drops the request. -/
theorem processSyncComplete_buffers (s : Service F C T) (now : Time) :
    ((s.processSyncComplete now).pendingFollowUps = s.pendingFollowUps ∧
        (s.processSyncComplete now).pendingPDelayFUs = s.pendingPDelayFUs ∧
        (s.processSyncComplete now).pdelayReqPending = s.pdelayReqPending) ∨
      (s.processSyncComplete now).pendingFollowUps = [] ∧
        (s.processSyncComplete now).pendingPDelayFUs = [] ∧
        (s.processSyncComplete now).pdelayReqPending = false := by
  rcases processSyncComplete_cases s now with he | hc
  · rw [he]
    exact .inl ⟨rfl, rfl, rfl⟩
  · refine hc.exchange.imp (fun hex ↦ ?_) fun hex ↦ ?_ <;>
      exact ⟨congrArg Exchange.pendingFollowUps hex, congrArg Exchange.pendingPDelayFUs hex,
        congrArg Exchange.pdelayReqPending hex⟩

theorem Buffered.complete (h : s.Buffered) (now : Time) : (s.processSyncComplete now).Buffered := by
  have hprofile : (s.processSyncComplete now).profile = s.profile :=
    congrArg Selection.profile (processSyncComplete_selection s now)
  rcases processSyncComplete_buffers s now with ⟨hfu, hpd, hreq⟩ | ⟨hfu, hpd, hreq⟩
  · refine h.shrink ?_ ?_ ?_ hprofile
    · rw [hfu]
    · rw [hpd]
    · rw [hreq]
      exact id
  · refine h.shrink ?_ ?_ ?_ hprofile
    · rw [hfu]
      exact List.nil_sublist _
    · rw [hpd]
      exact List.nil_sublist _
    · rw [hreq]
      nofun

theorem Buffered.finishPDelay (h : s.Buffered) (corrField : Int64) :
    (s.finishPDelay corrField).Buffered := by
  rcases finishPDelay_cases s corrField with he | ⟨-, delay, he⟩ <;> rw [he] <;>
    exact ⟨h.followUps, h.pdelayFollowUps, nofun⟩

theorem Buffered.completePDelayFollowUp (h : s.Buffered) (fu : Pending ResponseBody) :
    (s.completePDelayFollowUp fu).Buffered := by
  have hset : (s.setPDelayFollowUp fu).Buffered := ⟨h.followUps, h.pdelayFollowUps, h.p2p⟩
  exact hset.finishPDelay _

/-- Every effect of a handler keeps the buffers in order. -/
theorem Effect.buffered {hdr : Header} {tag : ℕ} (he : Effect hdr tag s s') (h : s.Buffered) :
    s'.Buffered := by
  cases he with
  | completeOneStep rxTime body now =>
      have hset : ((s.receiveSync hdr rxTime tag).setOneStep hdr body tag).Buffered :=
        ⟨h.followUps, h.pdelayFollowUps, h.p2p⟩
      exact hset.complete now
  | completePending rxTime fu rest now _ _ _ htake =>
      have hset : ({ s.receiveSync hdr rxTime tag with
          syncReceived := true
          pendingFollowUps := rest }.setFollowUp fu).Buffered :=
        ⟨h.followUps.sublist (takePending_sublist htake), h.pdelayFollowUps, h.p2p⟩
      exact hset.complete now
  | storeFollowUp fu => exact ⟨h.followUps.store _, h.pdelayFollowUps, h.p2p⟩
  | completeFollowUp fu now =>
      have hset : (s.setFollowUp ⟨hdr, fu, tag⟩).Buffered := ⟨h.followUps, h.pdelayFollowUps, h.p2p⟩
      exact hset.complete now
  | pdelayReq t hP2P => exact ⟨h.followUps, .nil, fun _ ↦ hP2P⟩
  | completePDelay corrField => exact h.finishPDelay corrField
  | completePendingPDelay fu rest _ htake =>
      have hrest : { s with pendingPDelayFUs := rest }.Buffered :=
        ⟨h.followUps, h.pdelayFollowUps.sublist (takePending_sublist htake), h.p2p⟩
      exact hrest.completePDelayFollowUp fu
  | storePDelayFollowUp fu => exact ⟨h.followUps, h.pdelayFollowUps.store _, h.p2p⟩
  | completePDelayFollowUp fu => exact h.completePDelayFollowUp _
  | now | fromSystem | transport | oneStepSync | twoStepSync | delayReq | delayResp | pdelayResp =>
      exact ⟨h.followUps, h.pdelayFollowUps, h.p2p⟩

/-- A selection keeps a buffer or empties it. -/
theorem Outcome.buffered {r : Reselection} (ho : Outcome s r s') (h : s.Buffered) :
    s'.Buffered := by
  cases ho with
  | unnoticed | begins => exact ⟨h.followUps, h.pdelayFollowUps, h.p2p⟩
  | changes | loses | faults => exact ⟨.nil, h.pdelayFollowUps, h.p2p⟩
  | forgets => exact ⟨.nil, .nil, nofun⟩

theorem step_buffered (s : Service F C T) (c : Call) (h : s.Buffered) : (s.step c).Buffered := by
  cases hr : s.reselection c with
  | some r => exact (step_outcome hr).buffered h
  | none =>
      rcases (step_of_no_reselection hr).cases with ⟨hdr, tag, he⟩ | ⟨fm, clk, state, he⟩
      · exact Effects.preserves he (fun _ _ ↦ Effect.buffered) h
      · rw [he]
        exact ⟨h.followUps, h.pdelayFollowUps, h.p2p⟩

theorem run_buffered (pow : F → F → F) (tr : T) (clk : C) (selfID : PortIdentity) (cfg : Config)
    (calls : List Call) : ((Service.new pow tr clk selfID cfg).run calls).Buffered :=
  inv_run_of_step step_buffered ⟨.nil, .nil, fun h ↦ absurd h Bool.false_ne_true⟩ calls

/-! ## What a port has answered -/

/-- Something of this port's answer to the last PDelay_Req is kept: its PDelay_Resp, or its
Follow_Up. -/
def Heard (s : Service F C T) (source : PortIdentity) : Prop :=
  s.pdelayRespReceived = true ∧ s.pdelayRespSource = source ∨
    (source, s.lastPDelayReqSeq) ∈ s.pendingPDelayFUs.map Pending.key

/-- A PDelay_Resp or its Follow_Up from this port. -/
def IsAnswer (source : PortIdentity) (hdr : Header) : Prop :=
  hdr.sourcePortIdentity = source ∧
    (hdr.messageType = msgPDelayResp ∨ hdr.messageType = msgPDelayRespFollowUp)

/-- The call brings such a message. -/
def Answers (s : Service F C T) (source : PortIdentity) (c : Call) : Prop :=
  ∃ pkt hdr body, s.unpack pkt = some (hdr, body) ∧
    ((∃ now, c = .event pkt now) ∨ ∃ now ord, c = .general pkt now ord) ∧ IsAnswer source hdr

/-- A new request has no answer. -/
theorem not_heard_sentPDelayReq (s : Service F C T) (t : Time) (source : PortIdentity) :
    ¬ (s.sentPDelayReq t).Heard source := by
  rintro (⟨hreceived, -⟩ | hmem)
  · exact Bool.false_ne_true hreceived
  · cases hmem

/-- What is kept of an answer was kept before. -/
theorem Heard.of_shrink {source : PortIdentity} (h : s'.Heard source)
    (hreceived : s'.pdelayRespReceived = true → s.pdelayRespReceived = true)
    (hsource : s'.pdelayRespSource = s.pdelayRespSource)
    (hseq : s'.lastPDelayReqSeq = s.lastPDelayReqSeq)
    (hpending : ∀ p ∈ s'.pendingPDelayFUs, p ∈ s.pendingPDelayFUs) : s.Heard source := by
  rcases h with ⟨hr, hs⟩ | hmem
  · exact .inl ⟨hreceived hr, hsource ▸ hs⟩
  · obtain ⟨p, hp, hkey⟩ := List.mem_map.mp hmem
    exact .inr (List.mem_map.mpr ⟨p, hpending p hp, hseq ▸ hkey⟩)

theorem Heard.of_complete {source : PortIdentity} {now : Time}
    (h : (s.processSyncComplete now).Heard source) : s.Heard source := by
  rcases processSyncComplete_rest s now with ⟨he, -⟩ | ⟨-, hrest, -⟩
  · rwa [he] at h
  have hbuffers := processSyncComplete_buffers s now
  generalize s.processSyncComplete now = s' at h hrest hbuffers
  have hreceived : s'.pdelayRespReceived = s.pdelayRespReceived :=
    congrArg Rest.pdelayRespReceived hrest
  refine h.of_shrink (fun hr ↦ hreceived ▸ hr) (congrArg Rest.pdelayRespSource hrest)
    (congrArg Rest.lastPDelayReqSeq hrest) fun p hp ↦ ?_
  rcases hbuffers with ⟨-, hpd, -⟩ | ⟨-, hpd, -⟩
  · rwa [hpd] at hp
  · rw [hpd] at hp
    cases hp

theorem Heard.of_finishPDelay {source : PortIdentity} {corrField : Int64}
    (h : (s.finishPDelay corrField).Heard source) : s.Heard source := by
  have hfinish : (s.finishPDelay corrField).pdelayRespReceived = false := rfl
  rcases finishPDelay_cases s corrField with he | ⟨-, delay, he⟩ <;> rw [he] at h hfinish <;>
    exact h.of_shrink (fun hr ↦ absurd (hfinish.symm.trans hr) Bool.false_ne_true) rfl rfl
      fun p hp ↦ hp

/-- Only an answer makes a port heard. -/
theorem Effect.heard {hdr : Header} {tag : ℕ} {source : PortIdentity}
    (he : Effect hdr tag s s') (h : s'.Heard source) : s.Heard source ∨ IsAnswer source hdr := by
  cases he with
  | pdelayReq t => exact absurd h (not_heard_sentPDelayReq s t source)
  | pdelayResp resp rxTime htype =>
      rcases h with ⟨-, hsource⟩ | hmem
      · exact .inr ⟨hsource, .inl htype⟩
      · exact .inl (.inr hmem)
  | storePDelayFollowUp fu htype =>
      rcases h with h | hmem
      · exact .inl (.inl h)
      obtain ⟨p, hp, hkey⟩ := List.mem_map.mp hmem
      rcases mem_storePending hp with hp | rfl
      · exact .inl (.inr (List.mem_map.mpr ⟨p, hp, hkey⟩))
      · exact .inr ⟨congrArg Prod.fst hkey, .inr htype⟩
  | completeOneStep | completePending | completeFollowUp =>
      have hs := h.of_complete
      exact .inl (hs.of_shrink id rfl rfl fun p hp ↦ hp)
  | completePDelay => exact .inl h.of_finishPDelay
  | completePDelayFollowUp =>
      have hs := h.of_finishPDelay
      exact .inl (hs.of_shrink id rfl rfl fun p hp ↦ hp)
  | completePendingPDelay fu rest _ htake =>
      have hs := h.of_finishPDelay
      exact .inl (hs.of_shrink id rfl rfl fun p hp ↦ (takePending_eq_some htake).2.2.2 p hp)
  | now | fromSystem | transport | oneStepSync | twoStepSync | storeFollowUp | delayReq
  | delayResp => exact .inl (h.of_shrink id rfl rfl fun p hp ↦ hp)

theorem Effects.heard {hdr : Header} {tag : ℕ} {source : PortIdentity}
    (he : Effects hdr tag s s') (h : s'.Heard source) : s.Heard source ∨ IsAnswer source hdr := by
  induction he with
  | refl => exact .inl h
  | tail _ he ih =>
      rcases he.heard h with h | h
      · exact ih h
      · exact .inr h

theorem Outcome.heard {r : Reselection} {source : PortIdentity} (ho : Outcome s r s')
    (h : s'.Heard source) : s.Heard source := by
  cases ho with
  | unnoticed | begins | changes | loses | faults => exact h.of_shrink id rfl rfl fun p hp ↦ hp
  | forgets => exact h.of_shrink id rfl rfl fun p hp ↦ absurd hp List.not_mem_nil

/-- **A port that has not been heard stays so until it answers.** -/
theorem heard_step {c : Call} {source : PortIdentity} (h : (s.step c).Heard source) :
    s.Heard source ∨ s.Answers source c := by
  cases hr : s.reselection c with
  | some r => exact .inl ((step_outcome hr).heard h)
  | none =>
      have hplain := step_of_no_reselection hr
      generalize s.step c = s' at h hplain
      cases hplain with
      | effects hpkt hcall he =>
          rcases he.heard h with h | h
          · exact .inl h
          · exact .inr ⟨_, _, _, hpkt, hcall, h⟩
      | request _ he =>
          rcases (he (s.requestHeader msgDelayReq controlDelayReq 0) 0).heard h with h | ⟨-, h⟩
          · exact .inl h
          · have hne : ¬ (msgDelayReq = msgPDelayResp ∨ msgDelayReq = msgPDelayRespFollowUp) := by
              decide
            exact absurd h hne
      | nothing | repeated | start | stop => exact .inl (h.of_shrink id rfl rfl fun p hp ↦ hp)

/-! ## The end of a measurement does not look at the buffer -/

/-- This part of a handler keeps the buffer of Follow_Ups or empties it, and does the rest without
it. -/
def IgnoresFollowUps (f : Service F C T → Service F C T) : Prop :=
  ∀ s, ∃ kept : Bool, ∀ buffer, f { s with pendingFollowUps := buffer } =
    { f s with pendingFollowUps := if kept then buffer else [] }

theorem selectMasterClock_eq (s : Service F C T) :
    s.selectMasterClock = { s with
      state := if s.state = .uncalibrated then slavePortFSM s.state .masterClockSelected
        else s.state } := by
  unfold selectMasterClock
  split <;> rfl

theorem stepClock_ignores (correction : Duration) :
    IgnoresFollowUps fun s : Service F C T ↦ s.stepClock correction := by
  intro s
  cases hstep : (Clock.step s.clk correction).1 with
  | some err =>
      refine ⟨true, fun buffer ↦ ?_⟩
      simp only [stepClock, hstep]
      rfl
  | none =>
      refine ⟨false, fun buffer ↦ ?_⟩
      simp only [stepClock, hstep]
      rfl

theorem applyServo_ignores (correction : Duration) (ppb : F) (servoState : ServoState) :
    IgnoresFollowUps fun s : Service F C T ↦ s.applyServo correction ppb servoState := by
  intro s
  cases servoState with
  | unlocked => exact ⟨true, fun buffer ↦ rfl⟩
  | jump =>
      obtain ⟨kept, hkept⟩ := stepClock_ignores correction s
      refine ⟨kept, fun buffer ↦ ?_⟩
      have hstep : { s with pendingFollowUps := buffer }.stepClock correction =
          { s.stepClock correction with pendingFollowUps := if kept then buffer else [] } :=
        hkept buffer
      simp only [applyServo, hstep, selectMasterClock_eq]
  | locked | lockedStable =>
      refine ⟨true, fun buffer ↦ ?_⟩
      cases hadjust : (Clock.adjustFrequency s.clk ppb).1 with
      | some err =>
          simp only [applyServo, hadjust]
          rfl
      | none =>
          simp only [applyServo, hadjust, selectMasterClock_eq]
          rfl

theorem processSyncComplete_ignores (now : Time) :
    IgnoresFollowUps fun s : Service F C T ↦ s.processSyncComplete now := by
  intro s
  cases hres : s.syncResult with
  | none =>
      refine ⟨true, fun buffer ↦ ?_⟩
      have hres' : { s with pendingFollowUps := buffer }.syncResult = none := hres
      simp only [processSyncComplete, hres, hres', if_true]
  | some r =>
      let u : Service F C T :=
        { s with
          lastOffset := r.1
          meanPathDelay := r.2
          lastSync := now
          syncCount := s.syncCount + 1
          log := s.measured :: s.log }.sampleServo (-r.1)
      obtain ⟨kept, hkept⟩ := applyServo_ignores (-r.1) u.frequencyPPB u.servoState u
      refine ⟨kept, fun buffer ↦ ?_⟩
      have hres' : { s with pendingFollowUps := buffer }.syncResult = some r := hres
      simp only [processSyncComplete, hres, hres']
      exact congrArg (fun v : Service F C T ↦ { v with syncReceived := false }) (hkept buffer)

/-- What is left of the buffer itself. -/
theorem IgnoresFollowUps.pendingFollowUps {f : Service F C T → Service F C T}
    (h : IgnoresFollowUps f) (s : Service F C T) (buffer : List (Pending TimestampBody)) :
    ∃ kept : Bool, (f s).pendingFollowUps = (if kept then s.pendingFollowUps else []) ∧
      f { s with pendingFollowUps := buffer } =
        { f s with pendingFollowUps := if kept then buffer else [] } := by
  obtain ⟨kept, hkept⟩ := h s
  refine ⟨kept, ?_, hkept buffer⟩
  exact congrArg Service.pendingFollowUps (hkept s.pendingFollowUps)

/-! ## A Sync and its Follow_Up -/

/-- The packet is a two-step Sync with this header. -/
structure IsSync (s : Service F C T) (pkt : Packet) (hdr : Header) : Prop where
  stamp : pkt.timestamp.isZero = false
  unpack : ∃ body, s.unpack pkt = some (hdr, body)
  messageType : hdr.messageType = msgSync
  twoStep : (hdr.flagField &&& flagTwoStep != 0) = true

/-- The packet is the Follow_Up of the message with header `hdr`. -/
structure IsFollowUp (s : Service F C T) (pkt : Packet) (hdr : Header)
    (fu : Pending TimestampBody) : Prop where
  unpack : ∃ body, s.unpack pkt = some (fu.header, body) ∧ decodeFollowUpBody body = .ok fu.body
  messageType : fu.header.messageType = msgFollowUp
  tag : fu.tag = pkt.tag
  source : fu.header.sourcePortIdentity = hdr.sourcePortIdentity
  seq : fu.header.sequenceID = hdr.sequenceID

/-- The state after a two-step Sync whose Follow_Up has not arrived. -/
def syncReceipt (s : Service F C T) (hdr : Header) (pkt : Packet) : Service F C T :=
  { s.receiveSync hdr pkt.timestamp pkt.tag with syncReceived := true }

variable {sync followUp : Packet} {hdr : Header} {fu : Pending TimestampBody}

theorem IsSync.step (h : s.IsSync sync hdr) (hf : s.follows hdr = true) (now : Time) :
    s.step (.event sync now) =
      match takePending s.pendingFollowUps hdr.sourcePortIdentity hdr.sequenceID with
      | none => s.syncReceipt hdr sync
      | some (fu, rest) =>
          { s.syncReceipt hdr sync with pendingFollowUps := rest }.completeFollowUp fu now := by
  obtain ⟨body, hbody⟩ := h.unpack
  rw [step_sync h.stamp hbody h.messageType]
  exact handleSync_twoStep hf h.twoStep _ _ _

theorem IsFollowUp.step (h : s.IsFollowUp followUp hdr fu) (hf : s.follows hdr = true) (now : Time)
    (ord : MapOrder ForeignMaster) :
    (s.Awaits hdr.sequenceID →
        s.step (.general followUp now ord) = s.completeFollowUp fu now) ∧
      (¬ s.Awaits hdr.sequenceID →
        s.step (.general followUp now ord) = s.storePendingFollowUp fu) := by
  obtain ⟨body, hbody, hdecode⟩ := h.unpack
  obtain ⟨header, b, tag⟩ := fu
  have hf' : s.follows header = true := by
    rw [follows_iff] at hf ⊢
    exact ⟨hf.1, hf.2.trans (congrArg some h.source.symm)⟩
  obtain rfl : tag = followUp.tag := h.tag
  rw [step_followUp hbody h.messageType, ← h.seq]
  exact ⟨fun ha ↦ handleFollowUp_complete hf' hdecode ha _ _,
    fun ha ↦ handleFollowUp_store hf' hdecode ha _ _⟩

/-- A two-step Sync of the selected master and its Follow_Up, one after the other: the first one is
kept, and the second one ends the measurement. -/
theorem sync_in_order (hf : s.follows hdr = true) (hsync : s.IsSync sync hdr)
    (hfu : s.IsFollowUp followUp hdr fu) (hnew : fu.key ∉ s.pendingFollowUps.map Pending.key)
    (now now' : Time) (ord : MapOrder ForeignMaster) :
    s.step (.event sync now) = s.syncReceipt hdr sync ∧
      s.run [.event sync now, .general followUp now' ord] =
        ((s.syncReceipt hdr sync).setFollowUp fu).processSyncComplete now' := by
  have hkey : (hdr.sourcePortIdentity, hdr.sequenceID) ∉ s.pendingFollowUps.map Pending.key := by
    rwa [← hfu.source, ← hfu.seq]
  have hfirst : s.step (.event sync now) = s.syncReceipt hdr sync := by
    rw [hsync.step hf, takePending_eq_none hkey]
  refine ⟨hfirst, ?_⟩
  have hfu' : (s.syncReceipt hdr sync).IsFollowUp followUp hdr fu :=
    ⟨hfu.unpack, hfu.messageType, hfu.tag, hfu.source, hfu.seq⟩
  have hawait : (s.syncReceipt hdr sync).Awaits hdr.sequenceID := ⟨rfl, hsync.twoStep, rfl⟩
  show (s.step (.event sync now)).step (.general followUp now' ord) = _
  rw [hfirst]
  exact (hfu'.step hf now' ord).1 hawait

/-- The Follow_Up first: it waits, and the Sync ends the measurement. -/
theorem sync_swapped (hf : s.follows hdr = true) (hsync : s.IsSync sync hdr)
    (hfu : s.IsFollowUp followUp hdr fu) (hseq : hdr.sequenceID ≠ s.lastSyncSeq)
    (hnew : fu.key ∉ s.pendingFollowUps.map Pending.key) (now now' : Time)
    (ord : MapOrder ForeignMaster) :
    s.step (.general followUp now ord) = s.storePendingFollowUp fu ∧
      s.run [.general followUp now ord, .event sync now'] =
        { (s.syncReceipt hdr sync).setFollowUp fu with
          pendingFollowUps := evictOldest s.pendingFollowUps }.processSyncComplete now' := by
  have hfirst : s.step (.general followUp now ord) = s.storePendingFollowUp fu :=
    (hfu.step hf now ord).2 fun ha ↦ hseq ha.seq
  refine ⟨hfirst, ?_⟩
  have hsync' : (s.storePendingFollowUp fu).IsSync sync hdr :=
    ⟨hsync.stamp, hsync.unpack, hsync.messageType, hsync.twoStep⟩
  have htake : takePending (s.storePendingFollowUp fu).pendingFollowUps hdr.sourcePortIdentity
      hdr.sequenceID = some (fu, evictOldest s.pendingFollowUps) := by
    rw [← hfu.source, ← hfu.seq]
    exact takePending_store_new hnew
  show (s.step (.general followUp now ord)).step (.event sync now') = _
  rw [hfirst, hsync'.step hf, htake]
  rfl

/-- A Sync and its Follow_Up reach `processSyncComplete` once in either order: the first of them is
only kept, and the second one gets there from states that differ in nothing but the Follow_Ups that
wait.  What comes out of it differs in nothing else either. -/
structure SyncEitherOrder (s : Service F C T) (sync followUp : Packet) (hdr : Header)
    (fu : Pending TimestampBody) (now now' : Time) (ord : MapOrder ForeignMaster) : Prop where
  sync_first : s.step (.event sync now) = s.syncReceipt hdr sync
  followUp_second : s.run [.event sync now, .general followUp now' ord] =
    ((s.syncReceipt hdr sync).setFollowUp fu).processSyncComplete now'
  followUp_first : s.step (.general followUp now ord) = s.storePendingFollowUp fu
  sync_second : s.run [.general followUp now ord, .event sync now'] =
    { (s.syncReceipt hdr sync).setFollowUp fu with
      pendingFollowUps := evictOldest s.pendingFollowUps }.processSyncComplete now'
  same : ∃ kept : Bool,
    (s.run [.event sync now, .general followUp now' ord]).pendingFollowUps =
        (if kept then s.pendingFollowUps else []) ∧
      s.run [.general followUp now ord, .event sync now'] =
        { s.run [.event sync now, .general followUp now' ord] with
          pendingFollowUps := if kept then evictOldest s.pendingFollowUps else [] }

theorem sync_either_order (hf : s.follows hdr = true) (hsync : s.IsSync sync hdr)
    (hfu : s.IsFollowUp followUp hdr fu) (hseq : hdr.sequenceID ≠ s.lastSyncSeq)
    (hnew : fu.key ∉ s.pendingFollowUps.map Pending.key) (now now' : Time)
    (ord : MapOrder ForeignMaster) : s.SyncEitherOrder sync followUp hdr fu now now' ord := by
  obtain ⟨hfirst, hin⟩ := sync_in_order hf hsync hfu hnew now now' ord
  obtain ⟨hfirst', hswap⟩ := sync_swapped hf hsync hfu hseq hnew now now' ord
  refine ⟨hfirst, hin, hfirst', hswap, ?_⟩
  rw [hin, hswap]
  exact (processSyncComplete_ignores now').pendingFollowUps _ _

/-! ## A PDelay_Resp and its Follow_Up -/

/-- The packet is a two-step PDelay_Resp to the last request of this port. -/
structure IsPDelayResp (s : Service F C T) (pkt : Packet) (hdr : Header) (resp : ResponseBody) :
    Prop where
  stamp : pkt.timestamp.isZero = false
  unpack : ∃ body, s.unpack pkt = some (hdr, body) ∧ decodePDelayRespBody body = .ok resp
  messageType : hdr.messageType = msgPDelayResp
  twoStep : (hdr.flagField &&& flagTwoStep != 0) = true
  self : resp.requestingPortIdentity = s.selfID
  seq : hdr.sequenceID = s.lastPDelayReqSeq

/-- The packet is the Follow_Up of the PDelay_Resp with header `hdr`. -/
structure IsPDelayFollowUp (s : Service F C T) (pkt : Packet) (hdr : Header)
    (fu : Pending ResponseBody) : Prop where
  unpack : ∃ body, s.unpack pkt = some (fu.header, body) ∧
    decodePDelayRespFollowUpBody body = .ok fu.body
  messageType : fu.header.messageType = msgPDelayRespFollowUp
  tag : fu.tag = pkt.tag
  self : fu.body.requestingPortIdentity = s.selfID
  source : fu.header.sourcePortIdentity = hdr.sourcePortIdentity
  seq : fu.header.sequenceID = hdr.sequenceID

variable {answer : Packet} {resp : ResponseBody} {pfu : Pending ResponseBody}

/-- The state after a two-step PDelay_Resp whose Follow_Up has not arrived. -/
def answerReceipt (s : Service F C T) (hdr : Header) (resp : ResponseBody) (pkt : Packet) :
    Service F C T :=
  s.receivePDelayResp hdr resp pkt.timestamp pkt.tag

/-- The end of a peer delay exchange does not look at the buffer. -/
theorem finishPDelay_buffer (s : Service F C T) (buffer : List (Pending ResponseBody))
    (corrField : Int64) :
    { s with pendingPDelayFUs := buffer }.finishPDelay corrField =
      { s.finishPDelay corrField with pendingPDelayFUs := buffer } := by
  simp only [finishPDelay, computePeerDelay]
  split_ifs <;> rfl

theorem finishPDelay_pendingPDelayFUs (s : Service F C T) (corrField : Int64) :
    (s.finishPDelay corrField).pendingPDelayFUs = s.pendingPDelayFUs := by
  rcases finishPDelay_cases s corrField with he | ⟨-, delay, he⟩ <;> rw [he]

theorem pdelay_in_order (hP2P : s.isP2P = true) (hreq : s.pdelayReqPending = true)
    (hresp : s.IsPDelayResp answer hdr resp) (hfu : s.IsPDelayFollowUp followUp hdr pfu)
    (hnew : ¬ s.Heard hdr.sourcePortIdentity) (now now' : Time) (ord : MapOrder ForeignMaster) :
    s.step (.event answer now) = s.answerReceipt hdr resp answer ∧
      s.run [.event answer now, .general followUp now' ord] =
        ((s.answerReceipt hdr resp answer).setPDelayFollowUp pfu).finishPDelay
          (hdr.correctionField + pfu.header.correctionField) := by
  obtain ⟨body, hbody, hdecode⟩ := hresp.unpack
  obtain ⟨body', hbody', hdecode'⟩ := hfu.unpack
  obtain ⟨header, b, tag⟩ := pfu
  obtain rfl : tag = followUp.tag := hfu.tag
  have hkey : (hdr.sourcePortIdentity, hdr.sequenceID) ∉ s.pendingPDelayFUs.map Pending.key := by
    rw [hresp.seq]
    exact fun hmem ↦ hnew (.inr hmem)
  have hfirst : s.step (.event answer now) = s.answerReceipt hdr resp answer := by
    rw [step_pdelayResp hresp.stamp hbody hresp.messageType,
      handlePDelayResp_twoStep hP2P hdecode hresp.self hreq hresp.seq hresp.twoStep,
      takePending_eq_none hkey]
    rfl
  have hunpack : (s.answerReceipt hdr resp answer).unpack followUp = some (header, body') := hbody'
  refine ⟨hfirst, ?_⟩
  show (s.step (.event answer now)).step (.general followUp now' ord) = _
  rw [hfirst, step_pdelayRespFollowUp hunpack hfu.messageType]
  exact handlePDelayRespFollowUp_complete (s := s.answerReceipt hdr resp answer) hP2P hdecode'
    hfu.self hreq (hfu.seq.trans hresp.seq) rfl hfu.seq hfu.source _

theorem pdelay_swapped (hP2P : s.isP2P = true) (hreq : s.pdelayReqPending = true)
    (hresp : s.IsPDelayResp answer hdr resp) (hfu : s.IsPDelayFollowUp followUp hdr pfu)
    (hnew : ¬ s.Heard hdr.sourcePortIdentity) (now now' : Time) (ord : MapOrder ForeignMaster) :
    s.step (.general followUp now ord) = s.storePendingPDelayFollowUp pfu ∧
      s.run [.general followUp now ord, .event answer now'] =
        { (s.answerReceipt hdr resp answer).setPDelayFollowUp pfu with
          pendingPDelayFUs := evictOldest s.pendingPDelayFUs }.finishPDelay
            (hdr.correctionField + pfu.header.correctionField) := by
  obtain ⟨body, hbody, hdecode⟩ := hresp.unpack
  obtain ⟨body', hbody', hdecode'⟩ := hfu.unpack
  obtain ⟨header, b, tag⟩ := pfu
  obtain rfl : tag = followUp.tag := hfu.tag
  have hkey : Pending.key ⟨header, b, followUp.tag⟩ ∉ s.pendingPDelayFUs.map Pending.key := by
    have he : Pending.key (β := ResponseBody) ⟨header, b, followUp.tag⟩ =
        (hdr.sourcePortIdentity, s.lastPDelayReqSeq) :=
      Prod.ext hfu.source (hfu.seq.trans hresp.seq)
    rw [he]
    exact fun hmem ↦ hnew (.inr hmem)
  have hfirst : s.step (.general followUp now ord) =
      s.storePendingPDelayFollowUp ⟨header, b, followUp.tag⟩ := by
    rw [step_pdelayRespFollowUp hbody' hfu.messageType]
    refine handlePDelayRespFollowUp_store hP2P hdecode' hfu.self hreq (hfu.seq.trans hresp.seq)
      (fun hreceived hsource ↦ hnew (.inl ⟨hreceived, hsource.trans hfu.source⟩)) _
  let u := s.storePendingPDelayFollowUp ⟨header, b, followUp.tag⟩
  have hunpack : u.unpack answer = some (hdr, body) := hbody
  have htake : takePending u.pendingPDelayFUs hdr.sourcePortIdentity hdr.sequenceID =
      some (⟨header, b, followUp.tag⟩, evictOldest s.pendingPDelayFUs) := by
    rw [← hfu.source, ← hfu.seq]
    exact takePending_store_new hkey
  refine ⟨hfirst, ?_⟩
  show (s.step (.general followUp now ord)).step (.event answer now') = _
  rw [hfirst]
  show u.step (.event answer now') = _
  rw [step_pdelayResp hresp.stamp hunpack hresp.messageType, handlePDelayResp_twoStep (s := u) hP2P
    hdecode hresp.self hreq hresp.seq hresp.twoStep, htake]
  rfl

/-- A PDelay_Resp and its Follow_Up reach `computePeerDelay` once in either order, with the same
timestamps and corrections. -/
structure PDelayEitherOrder (s : Service F C T) (answer followUp : Packet) (hdr : Header)
    (resp : ResponseBody) (fu : Pending ResponseBody) (now now' : Time)
    (ord : MapOrder ForeignMaster) : Prop where
  answer_first : s.step (.event answer now) = s.answerReceipt hdr resp answer
  followUp_second : s.run [.event answer now, .general followUp now' ord] =
    ((s.answerReceipt hdr resp answer).setPDelayFollowUp fu).finishPDelay
      (hdr.correctionField + fu.header.correctionField)
  followUp_first : s.step (.general followUp now ord) = s.storePendingPDelayFollowUp fu
  answer_second : s.run [.general followUp now ord, .event answer now'] =
    { (s.answerReceipt hdr resp answer).setPDelayFollowUp fu with
      pendingPDelayFUs := evictOldest s.pendingPDelayFUs }.finishPDelay
        (hdr.correctionField + fu.header.correctionField)
  kept : (s.run [.event answer now, .general followUp now' ord]).pendingPDelayFUs =
    s.pendingPDelayFUs
  same : s.run [.general followUp now ord, .event answer now'] =
    { s.run [.event answer now, .general followUp now' ord] with
      pendingPDelayFUs := evictOldest s.pendingPDelayFUs }

theorem pdelay_either_order (hP2P : s.isP2P = true) (hreq : s.pdelayReqPending = true)
    (hresp : s.IsPDelayResp answer hdr resp) (hfu : s.IsPDelayFollowUp followUp hdr pfu)
    (hnew : ¬ s.Heard hdr.sourcePortIdentity) (now now' : Time) (ord : MapOrder ForeignMaster) :
    s.PDelayEitherOrder answer followUp hdr resp pfu now now' ord := by
  obtain ⟨hfirst, hin⟩ := pdelay_in_order hP2P hreq hresp hfu hnew now now' ord
  obtain ⟨hfirst', hswap⟩ := pdelay_swapped hP2P hreq hresp hfu hnew now now' ord
  refine ⟨hfirst, hin, hfirst', hswap, ?_, ?_⟩
  · rw [hin]
    exact finishPDelay_pendingPDelayFUs _ _
  · rw [hin, hswap]
    exact finishPDelay_buffer _ _ _

end Service

/-! ## Runs -/

/-- **The order of a message and its Follow_Up does not matter**, in any reachable state.

* So it is for a two-step Sync of the selected master and its Follow_Up, with a number that is not
  that of the last Sync and does not wait already.
* So it is for a two-step PDelay_Resp to the pending request and its Follow_Up, if nothing of that
  port's answer is kept.
* At most eight messages wait in each buffer, no two of them with the same sender and number, and a
  new one makes the oldest of eight go. -/
theorem either_order (pow : F → F → F) (tr : T) (clk : C) (selfID : PortIdentity) (cfg : Config)
    (calls : List Call) :
    let s := (Service.new pow tr clk selfID cfg).run calls
    (∀ sync followUp hdr fu, s.state.Following → s.bestMaster = some hdr.sourcePortIdentity →
      s.IsSync sync hdr → s.IsFollowUp followUp hdr fu → hdr.sequenceID ≠ s.lastSyncSeq →
      fu.key ∉ s.pendingFollowUps.map Pending.key →
      ∀ now now' ord, s.SyncEitherOrder sync followUp hdr fu now now' ord) ∧
    (∀ answer followUp hdr resp fu, s.pdelayReqPending = true → s.IsPDelayResp answer hdr resp →
      s.IsPDelayFollowUp followUp hdr fu → ¬ s.Heard hdr.sourcePortIdentity →
      ∀ now now' ord, s.PDelayEitherOrder answer followUp hdr resp fu now now' ord) ∧
    (BufferWf s.pendingFollowUps ∧ ∀ fu, s.pendingFollowUps.length = 8 →
      fu.key ∉ s.pendingFollowUps.map Pending.key →
      storePending s.pendingFollowUps fu = s.pendingFollowUps.tail ++ [fu]) ∧
    BufferWf s.pendingPDelayFUs ∧ ∀ fu, s.pendingPDelayFUs.length = 8 →
      fu.key ∉ s.pendingPDelayFUs.map Pending.key →
      storePending s.pendingPDelayFUs fu = s.pendingPDelayFUs.tail ++ [fu] := by
  have hs := Service.run_buffered pow tr clk selfID cfg calls
  generalize (Service.new pow tr clk selfID cfg).run calls = s at hs
  refine ⟨?_, ?_, ⟨hs.followUps, fun fu ↦ storePending_full⟩, hs.pdelayFollowUps,
    fun fu ↦ storePending_full⟩
  · intro sync followUp hdr fu hstate hbest hsync hfu hseq hnew now now' ord
    have hf : s.follows hdr = true := Service.follows_iff.mpr ⟨hstate, hbest⟩
    exact Service.sync_either_order hf hsync hfu hseq hnew now now' ord
  · intro answer followUp hdr resp fu hreq hresp hfu hnew now now' ord
    exact Service.pdelay_either_order (hs.p2p hreq) hreq hresp hfu hnew now now' ord

namespace Bench

/-- The answer of a peer to the first PDelay_Req, and its Follow_Up. -/
def peerMessage (messageType : UInt8) (flags : UInt16) (source : PortIdentity) (stamp : Timestamp) :
    Packet where
  data := encodeResponse
    { messageType := messageType
      flagField := flags
      sourcePortIdentity := source
      sequenceID := 0
      controlField := controlOther
      logMessageInterval := 0 } ⟨stamp, port 0⟩
  source := "peer"
  timestamp := seconds 200
  tag := 0

/-- A client that measures the peer delay. -/
def peerClient : Service ℚ (ApplicationClock ℚ) Wire :=
  .new (fun _ _ ↦ 1) wire clock (port 0) { config with delayMechanism := delayMechanismP2P }

/-- A client that has selected a master and asked its peer. -/
def asking : List Call := .start :: selects (port 1) 37 ++ [.delayRequest]

end Bench

/-- A master and a peer, each with its messages in either order. -/
theorem either_order_bench :
    let s := Bench.peerClient.run Bench.asking
    (∃ kept : Bool, s.run (Bench.measuresOffset (Bench.port 1) 5).reverse =
      { s.run (Bench.measuresOffset (Bench.port 1) 5) with
        pendingFollowUps := if kept then evictOldest s.pendingFollowUps else [] }) ∧
    s.run [.general (Bench.peerMessage msgPDelayRespFollowUp 0 (Bench.port 1) ⟨239, 0⟩)
        (Bench.seconds 5) Bench.inOrder,
      .event (Bench.peerMessage msgPDelayResp flagTwoStep (Bench.port 1) ⟨238, 0⟩)
        (Bench.seconds 5)] =
      { s.run [.event (Bench.peerMessage msgPDelayResp flagTwoStep (Bench.port 1) ⟨238, 0⟩)
            (Bench.seconds 5),
          .general (Bench.peerMessage msgPDelayRespFollowUp 0 (Bench.port 1) ⟨239, 0⟩)
            (Bench.seconds 5) Bench.inOrder] with
        pendingPDelayFUs := evictOldest s.pendingPDelayFUs } := by
  obtain ⟨hsync, hpdelay, -⟩ := either_order (fun _ _ ↦ 1) Bench.wire Bench.clock (Bench.port 0)
    { Bench.config with delayMechanism := delayMechanismP2P } Bench.asking
  refine ⟨?_, ?_⟩
  · obtain ⟨kept, -, he⟩ := (hsync (Bench.sync (Bench.port 1) 5 (Bench.seconds 200))
      (Bench.followUp (Bench.port 1) 5 ⟨236, 0⟩) _ ⟨_, _, 5⟩ (by decide +kernel) (by decide +kernel)
      ⟨by decide +kernel, ⟨_, rfl⟩, by decide +kernel, by decide +kernel⟩
      ⟨⟨_, rfl, rfl⟩, rfl, rfl, rfl, rfl⟩ (by decide +kernel) (by decide +kernel) (Bench.seconds 5)
      (Bench.seconds 5) Bench.inOrder).same
    exact ⟨kept, he⟩
  · exact (hpdelay (Bench.peerMessage msgPDelayResp flagTwoStep (Bench.port 1) ⟨238, 0⟩)
      (Bench.peerMessage msgPDelayRespFollowUp 0 (Bench.port 1) ⟨239, 0⟩) _ _ ⟨_, _, 0⟩
      (by decide +kernel) ⟨by decide +kernel, ⟨_, rfl, rfl⟩, rfl, by decide +kernel, rfl, rfl⟩
      ⟨⟨_, rfl, rfl⟩, rfl, rfl, rfl, rfl, rfl⟩ (by unfold Service.Heard; decide +kernel)
      (Bench.seconds 5) (Bench.seconds 5) Bench.inOrder).same

end ProcessBus.Ptp.Client
