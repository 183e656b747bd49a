import ProcessBus.Ptp.Client.Reselection

/-!
# The timescale of a measurement

A timestamp of a message counts TAI seconds, and is converted to UTC when the message arrives,
with the offset that the selected master has announced by then.  Two timestamps of one
measurement arrive at different times.  If the offset changes in between, as it does at a leap
second, the difference of the two is off by a second, and the servo follows it
(`offset_across_leap_second`).

Nothing in the handling of an Announce looks for this: only a change of the master clears what
was converted before, and for a peer delay not even that.  `measured_on_one_timescale` says that
nothing else can go wrong.
-/

namespace ProcessBus.Ptp.Client

open Go Lib

set_option linter.unusedSectionVars false

variable {F C T : Type} [Float64 F] [Clock C F] [Transport T]

/-- The two remote timestamps have been converted with one and the same UTC offset. -/
def SameOffset (t u : Traced Time) : Prop :=
  t.origin ≠ none ∧ t.origin.map Origin.utcOffset = u.origin.map Origin.utcOffset

instance (t u : Traced Time) : Decidable (SameOffset t u) := inferInstanceAs (Decidable (_ ∧ _))

/-- The remote timestamps of an end-to-end offset or of a peer delay are on one timescale. -/
def Measurement.OnOneTimescale : Measurement → Prop
  | .offsetE2E ts _ => SameOffset ts.t1 ts.t4
  | .peerDelay _ t2 t3 _ => SameOffset t2 t3
  | .pair _ _ | .offsetP2P _ => True

instance : DecidablePred Measurement.OnOneTimescale
  | .offsetE2E ts _ => inferInstanceAs (Decidable (SameOffset ts.t1 ts.t4))
  | .peerDelay _ t2 t3 _ => inferInstanceAs (Decidable (SameOffset t2 t3))
  | .pair _ _ | .offsetP2P _ => isTrue trivial

namespace Service

/-- The value was converted with the current UTC offset. -/
def IsCurrent (s : Service F C T) (o : Origin) : Prop := o.utcOffset = s.utcOffset

/-- Two timestamps that were converted with the current offset. -/
theorem sameOffset_of_current {s : Service F C T} {t u : Traced Time} {o p : Origin}
    (ht : t.origin = some o) (hu : u.origin = some p) (ho : s.IsCurrent o) (hp : s.IsCurrent p) :
    SameOffset t u := by
  refine ⟨ne_of_eq_of_ne ht (Option.some_ne_none _), ?_⟩
  rw [ht, hu]
  exact congrArg some (ho.trans hp.symm)

/-- What waits for the rest of its measurement was converted with the current offset: the last
Delay_Resp, and the PDelay_Resp whose Follow_Up is awaited. -/
structure Converted (s : Service F C T) : Prop where
  t4 : s.tsproc.t4.From s.IsCurrent
  pdelayT2 : s.AwaitsPDelay → s.pdelayT2.From s.IsCurrent
  log : ∀ x ∈ s.log, x.OnOneTimescale

/-! ## Effects -/

/-- The offset of a `t1` that has just been converted. -/
theorem Converted.measured {s : Service F C T} (h : s.Converted)
    (ht1 : ∃ o, s.tsproc.t1.origin = some o ∧ s.IsCurrent o) (hres : s.syncResult.isSome) :
    s.measured.OnOneTimescale := by
  rcases measured_cases hres with ⟨he, -⟩ | ⟨he, -, -, ht4⟩
  · rw [he]
    trivial
  · obtain ⟨o₁, ho₁, hc₁⟩ := ht1
    obtain ⟨o₄, ho₄, hc₄⟩ := h.t4 ht4
    rw [he]
    exact sameOffset_of_current ho₁ ho₄ hc₁ hc₄

/-- The end of a measurement. -/
theorem Converted.complete {s : Service F C T} (h : s.Converted)
    (ht1 : ∃ o, s.tsproc.t1.origin = some o ∧ s.IsCurrent o) (now : Time) :
    (s.processSyncComplete now).Converted := by
  rcases processSyncComplete_cases s now with he | hc
  · rw [he]
    exact h
  generalize s.processSyncComplete now = s' at hc
  have hcurrent (o : Origin) (ho : s.IsCurrent o) : s'.IsCurrent o := ho.trans hc.utcOffset.symm
  refine ⟨?_, ?_, ?_⟩
  · rcases hc.tsproc with hts | hts
    · rw [hts]
      exact h.t4.mono hcurrent
    · rw [hts]
      exact .of_isZero rfl
  · intro hawait
    rcases hc.exchange with hex | hex
    · have hpending : s'.pdelayReqPending = s.pdelayReqPending :=
        congrArg Exchange.pdelayReqPending hex
      rw [hc.pdelayT2]
      exact (h.pdelayT2 ⟨hpending ▸ hawait.pending, hc.pdelayRespReceived ▸ hawait.received⟩).mono
        hcurrent
    · have hpending : s'.pdelayReqPending = false := congrArg Exchange.pdelayReqPending hex
      cases hpending.symm.trans hawait.pending
  · rw [hc.log]
    exact List.forall_mem_cons.mpr ⟨h.measured ht1 hc.syncResult, h.log⟩

/-- The end of a peer delay exchange, if `t2` is current and `t3` is missing or current too. -/
theorem Converted.finishPDelay {s : Service F C T} (h : s.Converted)
    (hT2 : s.pdelayT2.From s.IsCurrent) (hT3 : s.pdelayT3.From s.IsCurrent) (corrField : Int64) :
    (s.finishPDelay corrField).Converted := by
  rcases finishPDelay_cases s corrField with he | ⟨⟨-, hset, -⟩, delay, he⟩
  · rw [he]
    exact ⟨h.t4, fun hawait ↦ absurd hawait.pending Bool.false_ne_true, h.log⟩
  rw [he]
  refine ⟨h.t4, fun hawait ↦ absurd hawait.pending Bool.false_ne_true, ?_⟩
  refine List.forall_mem_cons.mpr ⟨?_, h.log⟩
  obtain ⟨o₂, ho₂, hc₂⟩ := hT2 hset
  -- without a Follow_Up timestamp the program takes the one of the response in its place
  cases hzero : s.pdelayT3.val.isZero with
  | true => exact sameOffset_of_current ho₂ ho₂ hc₂ hc₂
  | false =>
      obtain ⟨o₃, ho₃, hc₃⟩ := hT3 hzero
      exact sameOffset_of_current ho₂ ho₃ hc₂ hc₃

theorem Converted.completePDelayFollowUp {s : Service F C T} (h : s.Converted)
    (hawait : s.AwaitsPDelay) (fu : Pending ResponseBody) :
    (s.completePDelayFollowUp fu).Converted := by
  have hset : (s.setPDelayFollowUp fu).Converted :=
    ⟨h.t4, fun hw ↦ h.pdelayT2 ⟨hw.pending, hw.received⟩, h.log⟩
  exact hset.finishPDelay (h.pdelayT2 hawait) (fun _ ↦ ⟨_, rfl, rfl⟩) _

/-- Every effect of a handler converts with the current offset. -/
theorem Effect.converted {hdr : Header} {tag : ℕ} {s s' : Service F C T}
    (he : Effect hdr tag s s') (h : s.Converted) : s'.Converted := by
  have hpdelay {u : Service F C T} (hp : u.pdelayReqPending = s.pdelayReqPending)
      (hr : u.pdelayRespReceived = s.pdelayRespReceived) (hawait : u.AwaitsPDelay) :
      s.pdelayT2.From s.IsCurrent :=
    h.pdelayT2 ⟨hp ▸ hawait.pending, hr ▸ hawait.received⟩
  cases he with
  | completeOneStep rxTime body now =>
      have hset : ((s.receiveSync hdr rxTime tag).setOneStep hdr body tag).Converted :=
        ⟨h.t4, hpdelay rfl rfl, h.log⟩
      exact hset.complete ⟨_, rfl, rfl⟩ now
  | completePending rxTime fu rest now =>
      have hset : ({ s.receiveSync hdr rxTime tag with
          syncReceived := true
          pendingFollowUps := rest }.setFollowUp fu).Converted :=
        ⟨h.t4, hpdelay rfl rfl, List.forall_mem_cons.mpr ⟨trivial, h.log⟩⟩
      exact hset.complete ⟨_, rfl, rfl⟩ now
  | completeFollowUp fu now =>
      have hset : (s.setFollowUp ⟨hdr, fu, tag⟩).Converted :=
        ⟨h.t4, hpdelay rfl rfl, List.forall_mem_cons.mpr ⟨trivial, h.log⟩⟩
      exact hset.complete ⟨_, rfl, rfl⟩ now
  | delayReq t => exact ⟨.of_isZero rfl, hpdelay rfl rfl, h.log⟩
  | delayResp resp => exact ⟨fun _ ↦ ⟨_, rfl, rfl⟩, hpdelay rfl rfl, h.log⟩
  | pdelayReq t =>
      exact ⟨h.t4, fun hawait ↦ absurd hawait.received Bool.false_ne_true, h.log⟩
  | pdelayResp resp rxTime => exact ⟨h.t4, fun _ _ ↦ ⟨_, rfl, rfl⟩, h.log⟩
  | completePDelay corrField hawait hT3 =>
      refine h.finishPDelay (h.pdelayT2 hawait) ?_ corrField
      rw [hT3]
      exact .of_isZero rfl
  | completePendingPDelay fu rest hawait =>
      have htaken : { s with pendingPDelayFUs := rest }.Converted :=
        ⟨h.t4, hpdelay rfl rfl, h.log⟩
      exact htaken.completePDelayFollowUp ⟨hawait.pending, hawait.received⟩ fu
  | completePDelayFollowUp fu hawait => exact h.completePDelayFollowUp hawait _
  | now | fromSystem | transport | oneStepSync | twoStepSync | storeFollowUp
  | storePDelayFollowUp => exact ⟨h.t4, hpdelay rfl rfl, h.log⟩

theorem Plain.converted {s s' : Service F C T} {c : Call} (hp : Plain s c s')
    (h : s.Converted) : s'.Converted := by
  rcases hp.cases with ⟨hdr, tag, he⟩ | ⟨fm, clk, state, rfl⟩
  · exact Effects.preserves he (fun _ _ ↦ Effect.converted) h
  · exact ⟨h.t4, fun hawait ↦ h.pdelayT2 ⟨hawait.pending, hawait.received⟩, h.log⟩

/-! ## Selections -/

/-- A PDelay_Resp waits for its Follow_Up. -/
def MidPDelay (s : Service F C T) : Prop :=
  s.pdelayReqPending = true ∧ s.pdelayRespReceived = true ∧ s.pdelayT2.val.isZero = false

instance (s : Service F C T) : Decidable s.MidPDelay := inferInstanceAs (Decidable (_ ∧ _))

/-- If the selection brings another UTC offset, no Delay_Resp is kept that was converted with the
old one, because there is none or because the master changes and that is noticed, and no
PDelay_Resp, because none waits or because the requests are dropped. -/
def KeepsTimescale (s : Service F C T) (c : Call) : Prop :=
  ∀ r ∈ s.reselection c, (s.selected r).utcOffset = s.utcOffset ∨
    (s.tsproc.t4.val.isZero = true ∨ s.Notices r) ∧ (¬ s.MidPDelay ∨ s.Forgets r)

instance (s : Service F C T) (c : Call) : Decidable (s.KeepsTimescale c) :=
  inferInstanceAs (Decidable (∀ _ ∈ _, _))

/-- A selection that keeps the offset keeps what is current, and one that does not finds nothing
to keep. -/
theorem Outcome.converted {s s' : Service F C T} {r : Reselection} (ho : Outcome s r s')
    (h : s.Converted)
    (hkeep : (s.selected r).utcOffset = s.utcOffset ∨
      (s.tsproc.t4.val.isZero = true ∨ s.Notices r) ∧ (¬ s.MidPDelay ∨ s.Forgets r)) :
    s'.Converted := by
  have hoffset : s'.utcOffset = (s.selected r).utcOffset :=
    congrArg Selection.utcOffset ho.selection
  have hT2 : s'.pdelayT2 = s.pdelayT2 := congrArg Rest.pdelayT2 ho.rest
  have hlog : ∀ x ∈ s'.log, x.OnOneTimescale := by
    have he : s'.log = s.log := congrArg Rest.log ho.rest
    rw [he]
    exact h.log
  rcases hkeep with hsame | ⟨ht4, hpd⟩
  · have hmono (o : Origin) (hc : s.IsCurrent o) : s'.IsCurrent o :=
      hc.trans (hoffset.trans hsame).symm
    refine ⟨?_, ?_, hlog⟩
    · rcases ho.tsproc with hts | hts
      · rw [hts]
        exact h.t4.mono hmono
      · rw [hts]
        exact .of_isZero rfl
    · intro hawait
      rw [hT2]
      exact (h.pdelayT2 (ho.awaitsPDelay hawait)).mono hmono
  · refine ⟨.of_isZero ?_, ?_, hlog⟩
    · rcases ht4 with hzero | hnotice
      · rcases ho.tsproc with hts | hts
        · rw [hts]
          exact hzero
        · rw [hts]
          rfl
      · rw [(ho.dropped hnotice).1]
        rfl
    · intro hawait
      have hbefore := ho.awaitsPDelay hawait
      rcases hpd with hmid | hforget
      · rw [hT2]
        refine .of_isZero ?_
        rw [← Bool.not_eq_false]
        exact fun hset ↦ hmid ⟨hbefore.pending, hbefore.received, hset⟩
      · cases (ho.forgotten hforget).symm.trans hawait.pending

theorem step_converted (s : Service F C T) (c : Call) (h : s.Converted)
    (hkeep : s.KeepsTimescale c) : (s.step c).Converted := by
  cases hr : s.reselection c with
  | none => exact (step_of_no_reselection hr).converted h
  | some r => exact (step_outcome hr).converted h (hkeep r hr)

end Service

/-! ## Runs -/

section Run

variable (pow : F → F → F) (tr : T) (clk : C) (selfID : PortIdentity) (cfg : Config)

/-- **Every measurement is on one timescale, as long as the UTC offset does not change in the
middle of one**: in such a run, the remote timestamps of every end-to-end offset and of every
peer delay have been converted with one and the same offset. -/
theorem measured_on_one_timescale (calls : List Call)
    (h : Meets Service.step Service.KeepsTimescale (Service.new pow tr clk selfID cfg) calls) :
    ∀ x ∈ ((Service.new pow tr clk selfID cfg).run calls).log, x.OnOneTimescale := by
  have hinit : (Service.new pow tr clk selfID cfg).Converted :=
    { t4 := .of_isZero rfl
      pdelayT2 := fun h ↦ absurd h.pending Bool.false_ne_true
      log := fun _ h ↦ absurd h List.not_mem_nil }
  exact (inv_run Service.step_converted hinit h).log

end Run

/-- A measurement, then a leap second, then the next measurement. -/
theorem measured_on_one_timescale_before_leap_second :
    let calls := .start :: Bench.selects (Bench.port 1) 37 ++
      .general (Bench.announce (Bench.port 1) 3 1 38) (Bench.seconds 2) Bench.inOrder ::
      Bench.measuresDelay (Bench.port 1) ++ Bench.measuresOffset (Bench.port 1) 5
    (Bench.client.run calls).log.length = 2 ∧
      ∀ x ∈ (Bench.client.run calls).log, x.OnOneTimescale :=
  ⟨by decide +kernel, measured_on_one_timescale _ _ _ _ _ _ (by decide +kernel)⟩

/-- The selected master announces a leap second between its Delay_Resp and its next Sync: the
offset is computed from a `t4` of the old and a `t1` of the new timescale. -/
theorem offset_across_leap_second :
    let calls := .start :: Bench.selects (Bench.port 1) 37 ++ Bench.measuresDelay (Bench.port 1) ++
      .general (Bench.announce (Bench.port 1) 3 1 38) (Bench.seconds 3) Bench.inOrder ::
      Bench.measuresOffset (Bench.port 1) 5
    ¬ ∀ x ∈ (Bench.client.run calls).log, x.OnOneTimescale := by
  decide +kernel

end ProcessBus.Ptp.Client
