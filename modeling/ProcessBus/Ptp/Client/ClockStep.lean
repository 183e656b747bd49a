import ProcessBus.Ptp.Client.Reselection

/-!
# Clock steps

When the servo jumps, `disciplineClock` steps the application clock, and every local timestamp
taken before is one of another scale.  Such timestamps wait in the timestamp processor and in the
peer delay exchange, and any of them may be half of a measurement that is under way.  The
invariant `Service.OnScale` says that whatever could still be used was taken after the last step;
it follows that no offset and no peer delay combines timestamps of two scales
(`measured_since_step`).

The peer delay fields themselves survive a step.  What makes them unusable is that the request
they belong to is no longer pending, and that the next request clears them.
-/

namespace ProcessBus.Ptp.Client

open Go Lib

set_option linter.unusedSectionVars false

variable {F C T : Type} [Float64 F] [Clock C F] [Transport T]

/-- A timestamp that is set was converted after the first `n` clock steps and before the next. -/
def Traced.OfEpoch (n : ℕ) (t : Traced Time) : Prop := t.val.isZero = false → t.epoch = n

theorem Traced.OfEpoch.of_isZero {n : ℕ} {t : Traced Time} (h : t.val.isZero = true) :
    t.OfEpoch n := by
  intro hset
  cases h.symm.trans hset

/-- The local timestamps of a measurement were all converted after the first `n` clock steps and
before the next: the receipt of the Sync and the sending of the Delay_Req, respectively the sending
of the PDelay_Req and the receipt of its response. -/
def Measurement.OfEpoch (n : ℕ) : Measurement → Prop
  | .pair _ _ => True
  | .offsetE2E ts _ => ts.t2.epoch = n ∧ ts.t3.epoch = n
  | .offsetP2P ts => ts.t2.epoch = n
  | .peerDelay t1 _ _ t4 => t1.epoch = n ∧ t4.epoch = n

instance (n : ℕ) : DecidablePred (Measurement.OfEpoch n)
  | .pair _ _ => isTrue trivial
  | .offsetE2E _ _ | .peerDelay _ _ _ _ => inferInstanceAs (Decidable (_ ∧ _))
  | .offsetP2P _ => inferInstanceAs (Decidable (_ = _))

namespace Service

/-- Every local timestamp that a measurement may still use was taken after the last step. -/
structure OnScale (s : Service F C T) : Prop where
  t2 : s.tsproc.t2.OfEpoch s.steps
  t3 : s.tsproc.t3.OfEpoch s.steps
  pdelay : s.AwaitsPDelay → s.pdelayT1.OfEpoch s.steps ∧ s.pdelayT4.OfEpoch s.steps

/-- What was measured between `s` and `s'` is of epoch `n`. -/
def Measures (n : ℕ) (s s' : Service F C T) : Prop :=
  ∃ new, s'.log = new ++ s.log ∧ ∀ x ∈ new, x.OfEpoch n

theorem Measures.of_log {n : ℕ} {s s' : Service F C T} (h : s'.log = s.log) : Measures n s s' :=
  ⟨[], h, fun _ hx ↦ absurd hx List.not_mem_nil⟩

theorem Measures.one {n : ℕ} {s s' : Service F C T} {x : Measurement} (h : s'.log = x :: s.log)
    (hx : x.OfEpoch n) : Measures n s s' :=
  ⟨[x], h, List.forall_mem_singleton.mpr hx⟩

theorem Measures.trans {n : ℕ} {s s' s'' : Service F C T} (h : Measures n s s')
    (h' : Measures n s' s'') : Measures n s s'' := by
  obtain ⟨new, hlog, hnew⟩ := h
  obtain ⟨new', hlog', hnew'⟩ := h'
  refine ⟨new' ++ new, ?_, ?_⟩
  · rw [hlog', hlog, List.append_assoc]
  · exact List.forall_mem_append.mpr ⟨hnew', hnew⟩

/-! ## Effects -/

/-- An offset is of the current epoch. -/
theorem OnScale.measured {s : Service F C T} (h : s.OnScale) (hres : s.syncResult.isSome) :
    s.measured.OfEpoch s.steps := by
  rcases measured_cases hres with ⟨he, ht2⟩ | ⟨he, ht2, ht3, -⟩
  · rw [he]
    exact h.t2 ht2
  · rw [he]
    exact ⟨h.t2 ht2, h.t3 ht3⟩

/-- The end of a measurement: if it steps the clock, nothing of the old scale stays usable. -/
theorem OnScale.complete {s : Service F C T} (h : s.OnScale) (now : Time) :
    (s.processSyncComplete now).OnScale ∧ Measures s.steps s (s.processSyncComplete now) := by
  rcases processSyncComplete_rest s now with ⟨he, -⟩ | ⟨hres, hrest, hex⟩
  · rw [he]
    exact ⟨h, .of_log rfl⟩
  generalize s.processSyncComplete now = s' at hrest hex
  have hlog : s'.log = s.measured :: s.log := congrArg Rest.log hrest
  refine ⟨?_, .one hlog (h.measured hres)⟩
  have hT1 : s'.pdelayT1 = s.pdelayT1 := congrArg Rest.pdelayT1 hrest
  have hT4 : s'.pdelayT4 = s.pdelayT4 := congrArg Rest.pdelayT4 hrest
  have hreceived : s'.pdelayRespReceived = s.pdelayRespReceived :=
    congrArg Rest.pdelayRespReceived hrest
  rcases hex with hex | hex
  · have hts : s'.tsproc = s.tsproc := congrArg Exchange.tsproc hex
    have hsteps : s'.steps = s.steps := congrArg Exchange.steps hex
    have hpending : s'.pdelayReqPending = s.pdelayReqPending :=
      congrArg Exchange.pdelayReqPending hex
    refine ⟨?_, ?_, ?_⟩
    · rw [hts, hsteps]
      exact h.t2
    · rw [hts, hsteps]
      exact h.t3
    · intro hawait
      rw [hT1, hT4, hsteps]
      exact h.pdelay ⟨hpending ▸ hawait.pending, hreceived ▸ hawait.received⟩
  · have hts : s'.tsproc = s.tsproc.reset := congrArg Exchange.tsproc hex
    have hpending : s'.pdelayReqPending = false := congrArg Exchange.pdelayReqPending hex
    refine ⟨?_, ?_, ?_⟩
    · rw [hts]
      exact .of_isZero rfl
    · rw [hts]
      exact .of_isZero rfl
    · intro hawait
      cases hpending.symm.trans hawait.pending

/-- The end of a peer delay exchange. -/
theorem OnScale.finishPDelay {s : Service F C T} (h : s.OnScale) (hawait : s.AwaitsPDelay)
    (corrField : Int64) :
    (s.finishPDelay corrField).OnScale ∧ Measures s.steps s (s.finishPDelay corrField) := by
  obtain ⟨hT1, hT4⟩ := h.pdelay hawait
  rcases finishPDelay_cases s corrField with he | ⟨⟨hset1, -, hset4⟩, delay, he⟩
  · rw [he]
    exact ⟨⟨h.t2, h.t3, fun hw ↦ absurd hw.pending Bool.false_ne_true⟩, .of_log rfl⟩
  · rw [he]
    exact ⟨⟨h.t2, h.t3, fun hw ↦ absurd hw.pending Bool.false_ne_true⟩,
      .one rfl ⟨hT1 hset1, hT4 hset4⟩⟩

theorem OnScale.completePDelayFollowUp {s : Service F C T} (h : s.OnScale)
    (hawait : s.AwaitsPDelay) (fu : Pending ResponseBody) :
    (s.completePDelayFollowUp fu).OnScale ∧ Measures s.steps s (s.completePDelayFollowUp fu) := by
  have hset : (s.setPDelayFollowUp fu).OnScale :=
    ⟨h.t2, h.t3, fun hw ↦ h.pdelay ⟨hw.pending, hw.received⟩⟩
  exact hset.finishPDelay ⟨hawait.pending, hawait.received⟩ _

/-- A Follow_Up completes a Sync. -/
theorem OnScale.completeFollowUp {s : Service F C T} (h : s.OnScale) (fu : Pending TimestampBody)
    (now : Time) :
    (s.completeFollowUp fu now).OnScale ∧ Measures s.steps s (s.completeFollowUp fu now) := by
  have hset : (s.setFollowUp fu).OnScale :=
    ⟨h.t2, h.t3, fun hw ↦ h.pdelay ⟨hw.pending, hw.received⟩⟩
  have hpair : Measures s.steps s (s.setFollowUp fu) := .one rfl trivial
  obtain ⟨hscale, hmeasures⟩ := hset.complete now
  exact ⟨hscale, hpair.trans hmeasures⟩

/-- Every effect of a handler measures on the current scale, and leaves nothing of an old one. -/
theorem Effect.onScale {hdr : Header} {tag : ℕ} {s s' : Service F C T}
    (he : Effect hdr tag s s') (h : s.OnScale) : s'.OnScale ∧ Measures s.steps s s' := by
  have hpdelay {u : Service F C T} (hp : u.pdelayReqPending = s.pdelayReqPending)
      (hr : u.pdelayRespReceived = s.pdelayRespReceived) (hw : u.AwaitsPDelay) :
      s.pdelayT1.OfEpoch s.steps ∧ s.pdelayT4.OfEpoch s.steps :=
    h.pdelay ⟨hp ▸ hw.pending, hr ▸ hw.received⟩
  cases he with
  | oneStepSync rxTime | twoStepSync rxTime =>
      exact ⟨⟨fun _ ↦ rfl, h.t3, hpdelay rfl rfl⟩, .of_log rfl⟩
  | completeOneStep rxTime body now =>
      have hset : ((s.receiveSync hdr rxTime tag).setOneStep hdr body tag).OnScale :=
        ⟨fun _ ↦ rfl, h.t3, hpdelay rfl rfl⟩
      exact hset.complete now
  | completePending rxTime fu rest now =>
      let u : Service F C T :=
        { s.receiveSync hdr rxTime tag with syncReceived := true, pendingFollowUps := rest }
      have hset : u.OnScale := ⟨fun _ ↦ rfl, h.t3, hpdelay rfl rfl⟩
      exact hset.completeFollowUp fu now
  | completeFollowUp fu now => exact h.completeFollowUp _ now
  | delayReq t => exact ⟨⟨h.t2, fun _ ↦ rfl, hpdelay rfl rfl⟩, .of_log rfl⟩
  | pdelayReq t =>
      exact ⟨⟨h.t2, fun _ ↦ rfl, fun hw ↦ absurd hw.received Bool.false_ne_true⟩, .of_log rfl⟩
  | pdelayResp resp rxTime =>
      -- the time of the request was kept in the processor, where a step would have cleared it
      exact ⟨⟨h.t2, h.t3, fun _ ↦ ⟨h.t3, fun _ ↦ rfl⟩⟩, .of_log rfl⟩
  | completePDelay corrField hawait => exact h.finishPDelay hawait corrField
  | completePendingPDelay fu rest hawait =>
      have htaken : { s with pendingPDelayFUs := rest }.OnScale :=
        ⟨h.t2, h.t3, hpdelay rfl rfl⟩
      exact htaken.completePDelayFollowUp ⟨hawait.pending, hawait.received⟩ fu
  | completePDelayFollowUp fu hawait => exact h.completePDelayFollowUp hawait _
  | now | fromSystem | transport | storeFollowUp | delayResp | storePDelayFollowUp =>
      exact ⟨⟨h.t2, h.t3, hpdelay rfl rfl⟩, .of_log rfl⟩

theorem finishPDelay_steps (s : Service F C T) (corrField : Int64) :
    (s.finishPDelay corrField).steps = s.steps := by
  rcases finishPDelay_cases s corrField with he | ⟨-, delay, he⟩ <;> rw [he]

/-- Only the end of an offset measurement steps the clock. -/
theorem Effect.steps {hdr : Header} {tag : ℕ} {s s' : Service F C T} (he : Effect hdr tag s s')
    (hsync : hdr.messageType ≠ msgSync) (hfu : hdr.messageType ≠ msgFollowUp) :
    s'.steps = s.steps := by
  cases he with
  | oneStepSync _ htype | twoStepSync _ htype | completeOneStep _ _ _ htype
  | completePending _ _ _ _ htype => exact absurd htype hsync
  | storeFollowUp _ htype | completeFollowUp _ _ htype => exact absurd htype hfu
  | completePDelay | completePendingPDelay | completePDelayFollowUp =>
      exact finishPDelay_steps _ _
  | now | fromSystem | transport | delayReq | delayResp | pdelayReq | pdelayResp
  | storePDelayFollowUp => rfl

theorem Effects.onScale {hdr : Header} {tag : ℕ} {s s' : Service F C T}
    (he : Effects hdr tag s s') (hsync : hdr.messageType ≠ msgSync)
    (hfu : hdr.messageType ≠ msgFollowUp) (h : s.OnScale) :
    s'.OnScale ∧ Measures s.steps s s' := by
  have hall : s'.OnScale ∧ s'.steps = s.steps ∧ Measures s.steps s s' := by
    refine Effects.preserves
      (I := fun u ↦ u.OnScale ∧ u.steps = s.steps ∧ Measures s.steps s u) he ?_
      ⟨h, rfl, .of_log rfl⟩
    rintro u v huv ⟨hu, hsteps, hmeasures⟩
    obtain ⟨hv, hnew⟩ := huv.onScale hu
    rw [hsteps] at hnew
    exact ⟨hv, (huv.steps hsync hfu).trans hsteps, hmeasures.trans hnew⟩
  exact ⟨hall.1, hall.2.2⟩

theorem onScale_of_effect {hdr : Header} {tag : ℕ} {s s' : Service F C T}
    (he : s' = s ∨ Effect hdr tag s s') (h : s.OnScale) : s'.OnScale ∧ Measures s.steps s s' := by
  rcases he with rfl | he
  · exact ⟨h, .of_log rfl⟩
  · exact he.onScale h

/-! ## Calls -/

/-- The selection of a master measures nothing and brings nothing back. -/
theorem Outcome.onScale {s s' : Service F C T} {r : Reselection} (ho : Outcome s r s')
    (h : s.OnScale) : s'.OnScale ∧ Measures s.steps s s' := by
  have hpdelay := ho.awaitsPDelay
  cases ho with
  | unnoticed | begins => exact ⟨⟨h.t2, h.t3, fun hw ↦ h.pdelay (hpdelay hw)⟩, .of_log rfl⟩
  | changes | loses | forgets | faults =>
      exact ⟨⟨.of_isZero rfl, .of_isZero rfl, fun hw ↦ h.pdelay (hpdelay hw)⟩, .of_log rfl⟩

theorem handleAnnounce_onScale {s : Service F C T} (h : s.OnScale) (hdr : Header) (body : Bytes)
    (now : Time) (ord : MapOrder ForeignMaster) :
    (s.handleAnnounce hdr body now ord).OnScale ∧
      Measures s.steps s (s.handleAnnounce hdr body now ord) := by
  unfold handleAnnounce
  cases announceVerdict s.profile hdr body with
  | bad => exact ⟨h, .of_log rfl⟩
  | reject => exact (rejectMaster_outcome s hdr ord).onScale h
  | valid ann tlvs =>
      cases hrec : (s.recordAnnounce hdr now).2 with
      | true => exact (acceptAnnounce_outcome s hdr ann tlvs now ord hrec).onScale h
      | false =>
          simp only [acceptAnnounce, hrec, Bool.not_false, if_true]
          exact ⟨⟨h.t2, h.t3, fun hw ↦ h.pdelay ⟨hw.pending, hw.received⟩⟩, .of_log rfl⟩

theorem handleEvent_onScale {s : Service F C T} (h : s.OnScale) (pkt : Packet) (now : Time) :
    (s.handleEvent pkt now).OnScale ∧ Measures s.steps s (s.handleEvent pkt now) := by
  unfold handleEvent
  split
  · exact ⟨h, .of_log rfl⟩
  split
  · exact ⟨h, .of_log rfl⟩
  rename_i hdr body _
  split
  · rename_i htype
    exact onScale_of_effect (handleSync_effect s hdr body _ _ now htype) h
  split
  · rename_i htype
    refine (handlePDelayReq_effects s hdr body pkt pkt.tag).onScale ?_ ?_ h <;> rw [htype] <;> decide
  split
  · rename_i htype
    refine (handlePDelayResp_effects s hdr body _ _ htype).onScale ?_ ?_ h <;> rw [htype] <;> decide
  · exact ⟨h, .of_log rfl⟩

theorem handleGeneral_onScale {s : Service F C T} (h : s.OnScale) (pkt : Packet) (now : Time)
    (ord : MapOrder ForeignMaster) :
    (s.handleGeneral pkt now ord).OnScale ∧ Measures s.steps s (s.handleGeneral pkt now ord) := by
  unfold handleGeneral
  split
  · exact ⟨h, .of_log rfl⟩
  rename_i hdr body _
  split
  · exact handleAnnounce_onScale h hdr body now ord
  split
  · rename_i htype
    exact onScale_of_effect (handleFollowUp_effect s hdr body _ now htype) h
  split
  · rename_i htype
    refine (handleDelayResp_effects s hdr body _).onScale ?_ ?_ h <;> rw [htype] <;> decide
  split
  · rename_i htype
    refine (handlePDelayRespFollowUp_effects s hdr body _ htype).onScale ?_ ?_ h <;>
      rw [htype] <;> decide
  · exact ⟨h, .of_log rfl⟩

/-- Every call measures on the current scale, and leaves nothing of an old one. -/
theorem step_onScale (s : Service F C T) (c : Call) (h : s.OnScale) :
    (s.step c).OnScale ∧ Measures s.steps s (s.step c) := by
  cases c with
  | event pkt now => exact handleEvent_onScale h pkt now
  | general pkt now ord => exact handleGeneral_onScale h pkt now ord
  | timeouts now ord => exact (checkTimeouts_outcome s now ord).onScale h
  | delayRequest =>
      let hdr := s.requestHeader msgDelayReq controlDelayReq 0
      have htype : hdr.messageType = msgDelayReq := rfl
      refine (sendDelayRequest_effects s hdr 0).onScale ?_ ?_ h <;> rw [htype] <;> decide
  | start | stop =>
      exact ⟨⟨h.t2, h.t3, fun hw ↦ h.pdelay ⟨hw.pending, hw.received⟩⟩, .of_log rfl⟩

end Service

/-! ## Runs -/

/-- **No measurement spans a clock step.**  After any run of the client, whatever the next call
measures uses only local timestamps that were converted to the application scale since the last
successful step of the clock: those of `t2` and `t3` for an offset, those of the request and of its
response for a peer delay. -/
theorem measured_since_step (pow : F → F → F) (tr : T) (clk : C) (selfID : PortIdentity)
    (cfg : Config) (calls : List Call) (c : Call) :
    let s := (Service.new pow tr clk selfID cfg).run calls
    ∃ new, (s.step c).log = new ++ s.log ∧ ∀ x ∈ new, x.OfEpoch s.steps := by
  have hinit : (Service.new pow tr clk selfID cfg).OnScale :=
    { t2 := .of_isZero rfl
      t3 := .of_isZero rfl
      pdelay := fun hw ↦ absurd hw.pending Bool.false_ne_true }
  have hrun : ((Service.new pow tr clk selfID cfg).run calls).OnScale :=
    inv_run_of_step (fun s c h ↦ (s.step_onScale c h).1) hinit calls
  exact (Service.step_onScale _ c hrun).2

end ProcessBus.Ptp.Client
