import ProcessBus.Ptp.Client.Reselection

/-!
# The master behind a measurement

An end-to-end offset combines a Sync, its Follow_Up and a Delay_Resp.  Each of them is only taken
from the selected master, but they are taken at different times, and what was taken earlier waits
in the timestamp processor.  As long as every change of the master is noticed, so that it clears
the processor, whatever waits there is the selected master's (`Service.OneMaster`), and no offset
mixes two masters (`offset_from_one_master`).

Not every change is noticed.  A selected master that loses its qualification to its own Announce
is dropped without a trace, and the next one that qualifies is taken for the first one: its Sync
then meets the Delay_Resp of the old master (`offset_from_two_masters`).
-/

namespace ProcessBus.Ptp.Client

open Go Lib

set_option linter.unusedSectionVars false

variable {F C T : Type} [Float64 F] [Clock C F] [Transport T]

/-- An end-to-end offset is made of messages of the master that is selected at that moment. -/
def Measurement.FromOneMaster : Measurement → Prop
  | .offsetE2E ts best =>
      best ≠ none ∧
        ∀ o ∈ [ts.t1.origin, ts.t2.origin, ts.t4.origin, ts.correctionSync.origin,
          ts.correctionFollowUp.origin, ts.correctionDelayResp.origin],
          o.map Origin.source = best
  | .pair _ _ | .offsetP2P _ | .peerDelay _ _ _ _ => True

instance : DecidablePred Measurement.FromOneMaster
  | .offsetE2E _ _ => inferInstanceAs (Decidable (_ ∧ _))
  | .pair _ _ | .offsetP2P _ | .peerDelay _ _ _ _ => isTrue trivial

namespace Service

/-- The message came from the selected master. -/
def IsMaster (s : Service F C T) (o : Origin) : Prop := s.bestMaster = some o.source

/-- What waits for the rest of its measurement is the selected master's: the Sync whose Follow_Up
is awaited, and the last Delay_Resp. -/
structure OneMaster (s : Service F C T) : Prop where
  t2 : s.syncReceived = true → s.twoStep = true → s.tsproc.t2.From s.IsMaster
  t4 : s.tsproc.t4.From s.IsMaster
  correctionSync : s.tsproc.correctionSync.origin = s.tsproc.t2.origin
  correctionDelayResp : s.tsproc.t4.val.isZero = false →
    s.tsproc.correctionDelayResp.origin = s.tsproc.t4.origin
  log : ∀ x ∈ s.log, x.FromOneMaster

/-! ## Effects -/

/-- A Follow_Up, or the body of a one-step Sync, has been added to the Sync of the same master. -/
structure Paired (s : Service F C T) : Prop where
  t1 : ∃ o, s.tsproc.t1.origin = some o ∧ s.IsMaster o
  t2 : s.tsproc.t2.From s.IsMaster
  correctionFollowUp : s.tsproc.correctionFollowUp.origin = s.tsproc.t1.origin

/-- The offset of such a pair is of one master. -/
theorem OneMaster.measured {s : Service F C T} (h : s.OneMaster) (hpair : s.Paired)
    (hres : s.syncResult.isSome) : s.measured.FromOneMaster := by
  rcases measured_cases hres with ⟨he, -⟩ | ⟨he, ht2, -, ht4⟩
  · rw [he]
    trivial
  · obtain ⟨o₁, ho₁, hm₁⟩ := hpair.t1
    obtain ⟨o₂, ho₂, hm₂⟩ := hpair.t2 ht2
    obtain ⟨o₄, ho₄, hm₄⟩ := h.t4 ht4
    rw [he]
    refine ⟨ne_of_eq_of_ne hm₁ (Option.some_ne_none _), ?_⟩
    rw [h.correctionSync, hpair.correctionFollowUp, h.correctionDelayResp ht4, ho₁, ho₂, ho₄]
    simp only [List.forall_mem_cons, List.not_mem_nil, false_implies, implies_true, and_true]
    exact ⟨hm₁.symm, hm₂.symm, hm₄.symm, hm₂.symm, hm₁.symm, hm₄.symm⟩

/-- The end of a measurement. -/
theorem OneMaster.complete {s : Service F C T} (h : s.OneMaster) (hpair : s.Paired)
    (now : Time) : (s.processSyncComplete now).OneMaster := by
  rcases processSyncComplete_cases s now with he | hc
  · rw [he]
    exact h
  generalize s.processSyncComplete now = s' at hc
  have hawait : s'.syncReceived = true → s'.twoStep = true → s'.tsproc.t2.From s'.IsMaster := by
    rw [hc.syncReceived]
    nofun
  have hlog : ∀ x ∈ s'.log, x.FromOneMaster := by
    rw [hc.log]
    exact List.forall_mem_cons.mpr ⟨h.measured hpair hc.syncResult, h.log⟩
  rcases hc.tsproc with hts | hts
  · refine ⟨hawait, ?_, ?_, ?_, hlog⟩
    · rw [hts]
      exact h.t4.mono fun o ho ↦ hc.bestMaster.trans ho
    · rw [hts]
      exact h.correctionSync
    · rw [hts]
      exact h.correctionDelayResp
  · refine ⟨hawait, ?_, ?_, ?_, hlog⟩
    · rw [hts]
      exact .of_isZero rfl
    · rw [hts]
      rfl
    · rw [hts]
      nofun

/-- The end of a peer delay exchange. -/
theorem OneMaster.finishPDelay {s : Service F C T} (h : s.OneMaster) (corrField : Int64) :
    (s.finishPDelay corrField).OneMaster := by
  rcases finishPDelay_cases s corrField with he | ⟨-, delay, he⟩
  · rw [he]
    exact ⟨h.t2, h.t4, h.correctionSync, h.correctionDelayResp, h.log⟩
  · rw [he]
    exact ⟨h.t2, h.t4, h.correctionSync, h.correctionDelayResp,
      List.forall_mem_cons.mpr ⟨trivial, h.log⟩⟩

theorem OneMaster.completePDelayFollowUp {s : Service F C T} (h : s.OneMaster)
    (fu : Pending ResponseBody) : (s.completePDelayFollowUp fu).OneMaster := by
  have hset : (s.setPDelayFollowUp fu).OneMaster :=
    ⟨h.t2, h.t4, h.correctionSync, h.correctionDelayResp, h.log⟩
  exact hset.finishPDelay _

/-- A Follow_Up of the selected master completes the Sync that waits for it. -/
theorem OneMaster.completeFollowUp {s : Service F C T} (h : s.OneMaster)
    {fu : Pending TimestampBody} (hsync : s.syncReceived = true) (htwo : s.twoStep = true)
    (hbest : s.bestMaster = some fu.header.sourcePortIdentity) (now : Time) :
    (s.completeFollowUp fu now).OneMaster := by
  have hset : (s.setFollowUp fu).OneMaster :=
    ⟨h.t2, h.t4, h.correctionSync, h.correctionDelayResp,
      List.forall_mem_cons.mpr ⟨trivial, h.log⟩⟩
  have hpair : (s.setFollowUp fu).Paired := ⟨⟨_, rfl, hbest⟩, h.t2 hsync htwo, rfl⟩
  exact hset.complete hpair now

/-- Every effect of a handler keeps what waits to the selected master. -/
theorem Effect.oneMaster {hdr : Header} {tag : ℕ} {s s' : Service F C T}
    (he : Effect hdr tag s s') (h : s.OneMaster) : s'.OneMaster := by
  cases he with
  | oneStepSync rxTime htype hf hflag =>
      refine ⟨?_, h.t4, rfl, h.correctionDelayResp, h.log⟩
      intro _ htwo
      cases hflag.symm.trans htwo
  | twoStepSync rxTime htype hf =>
      exact ⟨fun _ _ _ ↦ ⟨_, rfl, (follows_iff.mp hf).2⟩, h.t4, rfl, h.correctionDelayResp, h.log⟩
  | completeOneStep rxTime body now htype hf =>
      have hmaster : s.bestMaster = some hdr.sourcePortIdentity := (follows_iff.mp hf).2
      have hset : ((s.receiveSync hdr rxTime tag).setOneStep hdr body tag).OneMaster :=
        ⟨fun _ _ _ ↦ ⟨_, rfl, hmaster⟩, h.t4, rfl, h.correctionDelayResp, h.log⟩
      exact hset.complete ⟨⟨_, rfl, hmaster⟩, fun _ ↦ ⟨_, rfl, hmaster⟩, rfl⟩ now
  | completePending rxTime fu rest now htype hf hflag htake =>
      have hmaster : s.bestMaster = some hdr.sourcePortIdentity := (follows_iff.mp hf).2
      obtain ⟨-, hsource, -⟩ := takePending_eq_some htake
      let u : Service F C T :=
        { s.receiveSync hdr rxTime tag with syncReceived := true, pendingFollowUps := rest }
      have hsync : u.OneMaster :=
        ⟨fun _ _ _ ↦ ⟨_, rfl, hmaster⟩, h.t4, rfl, h.correctionDelayResp, h.log⟩
      refine hsync.completeFollowUp rfl hflag ?_ now
      rw [hsource]
      exact hmaster
  | completeFollowUp fu now htype hf hawait =>
      exact h.completeFollowUp hawait.syncReceived hawait.twoStep (follows_iff.mp hf).2 now
  | delayReq t =>
      exact ⟨h.t2, .of_isZero rfl, h.correctionSync, nofun, h.log⟩
  | delayResp resp hbest =>
      exact ⟨h.t2, fun _ ↦ ⟨_, rfl, hbest⟩, h.correctionSync, fun _ ↦ rfl, h.log⟩
  | completePDelay corrField => exact h.finishPDelay corrField
  | completePendingPDelay fu rest =>
      have htaken : { s with pendingPDelayFUs := rest }.OneMaster :=
        ⟨h.t2, h.t4, h.correctionSync, h.correctionDelayResp, h.log⟩
      exact htaken.completePDelayFollowUp fu
  | completePDelayFollowUp fu => exact h.completePDelayFollowUp _
  | now | fromSystem | transport | storeFollowUp | pdelayReq | pdelayResp
  | storePDelayFollowUp =>
      exact ⟨h.t2, h.t4, h.correctionSync, h.correctionDelayResp, h.log⟩

theorem Plain.oneMaster {s s' : Service F C T} {c : Call} (hp : Plain s c s')
    (h : s.OneMaster) : s'.OneMaster := by
  rcases hp.cases with ⟨hdr, tag, he⟩ | ⟨fm, clk, state, rfl⟩
  · exact Effects.preserves he (fun _ _ ↦ Effect.oneMaster) h
  · exact ⟨h.t2, h.t4, h.correctionSync, h.correctionDelayResp, h.log⟩

/-! ## Selections -/

/-- Nothing waits for the rest of its measurement. -/
def Idle (s : Service F C T) : Prop :=
  (s.syncReceived = true → s.twoStep = true → s.tsproc.t2.val.isZero = true) ∧
    s.tsproc.t4.val.isZero = true

instance (s : Service F C T) : Decidable s.Idle := inferInstanceAs (Decidable (_ ∧ _))

/-- The master stays, or its change is noticed, or nothing waits. -/
def KeepsMeasurement (s : Service F C T) (c : Call) : Prop :=
  ∀ r ∈ s.reselection c, s.SameMaster r ∨ s.Notices r ∨ s.Idle

instance (s : Service F C T) (c : Call) : Decidable (s.KeepsMeasurement c) :=
  inferInstanceAs (Decidable (∀ _ ∈ _, _))

/-- Without a master nothing waits. -/
theorem OneMaster.idle {s : Service F C T} (h : s.OneMaster) (hnone : s.bestMaster = none) :
    s.Idle := by
  have hzero {t : Traced Time} (ht : t.From s.IsMaster) : t.val.isZero = true := by
    rw [← Bool.not_eq_false]
    intro hset
    obtain ⟨o, -, ho⟩ := ht hset
    cases hnone.symm.trans ho
  exact ⟨fun hsync htwo ↦ hzero (h.t2 hsync htwo), hzero h.t4⟩

/-- What waits may be kept if the master stays or nothing waits. -/
theorem OneMaster.keep {s u : Service F C T} (h : s.OneMaster) (hts : u.tsproc = s.tsproc)
    (hsync : u.syncReceived = s.syncReceived) (htwo : u.twoStep = s.twoStep) (hlog : u.log = s.log)
    (hkeep : u.bestMaster = s.bestMaster ∨ s.Idle) : u.OneMaster := by
  have hfrom {t : Traced Time} (ht : t.From s.IsMaster) (hidle : s.Idle → t.val.isZero = true) :
      t.From u.IsMaster := by
    rcases hkeep with hbest | hi
    · refine ht.mono ?_
      intro o ho
      exact hbest.trans ho
    · exact .of_isZero (hidle hi)
  refine ⟨?_, ?_, ?_, ?_, ?_⟩
  · intro hs ht
    rw [hsync] at hs
    rw [htwo] at ht
    rw [hts]
    exact hfrom (h.t2 hs ht) fun hi ↦ hi.1 hs ht
  · rw [hts]
    exact hfrom h.t4 And.right
  · rw [hts]
    exact h.correctionSync
  · rw [hts]
    exact h.correctionDelayResp
  · rw [hlog]
    exact h.log

/-- What was waiting is gone. -/
theorem OneMaster.reset {s u : Service F C T} (h : s.OneMaster) (hts : u.tsproc = s.tsproc.reset)
    (hsync : u.syncReceived = false) (hlog : u.log = s.log) : u.OneMaster := by
  refine ⟨?_, ?_, ?_, ?_, ?_⟩
  · rw [hsync]
    nofun
  · rw [hts]
    exact .of_isZero rfl
  · rw [hts]
    rfl
  · rw [hts]
    nofun
  · rw [hlog]
    exact h.log

/-- The outcomes other than `unnoticed` and `begins` clear the processor, and those two are
harmless unless the master changes while something waits. -/
theorem Outcome.oneMaster {s s' : Service F C T} {r : Reselection} (ho : Outcome s r s')
    (h : s.OneMaster) (hkeep : s.SameMaster r ∨ s.Notices r ∨ s.Idle) : s'.OneMaster := by
  rcases hkeep with hsame | hnotice | hidle
  · cases ho with
    | unnoticed => exact h.keep rfl rfl rfl rfl (.inl hsame.symm)
    | begins hnone => exact h.keep rfl rfl rfl rfl (.inr (h.idle hnone))
    | changes | loses | forgets | faults => exact h.reset rfl rfl rfl
  · obtain ⟨hts, hsync⟩ := ho.dropped hnotice
    exact h.reset hts hsync (congrArg Rest.log ho.rest)
  · cases ho with
    | unnoticed | begins => exact h.keep rfl rfl rfl rfl (.inr hidle)
    | changes | loses | forgets | faults => exact h.reset rfl rfl rfl

theorem step_oneMaster (s : Service F C T) (c : Call) (h : s.OneMaster)
    (hkeep : s.KeepsMeasurement c) : (s.step c).OneMaster := by
  cases hr : s.reselection c with
  | none => exact (step_of_no_reselection hr).oneMaster h
  | some r => exact (step_outcome hr).oneMaster h (hkeep r hr)

end Service

/-! ## Runs -/

section Run

variable (pow : F → F → F) (tr : T) (clk : C) (selfID : PortIdentity) (cfg : Config)

/-- **No offset mixes two masters, as long as every change of the master is noticed or finds
nothing waiting**: in such a run, every end-to-end offset is made of messages of one master, with
their corrections, and that master is the selected one. -/
theorem offset_from_one_master (calls : List Call)
    (h : Meets Service.step Service.KeepsMeasurement (Service.new pow tr clk selfID cfg) calls) :
    ∀ x ∈ ((Service.new pow tr clk selfID cfg).run calls).log, x.FromOneMaster := by
  have hinit : (Service.new pow tr clk selfID cfg).OneMaster :=
    { t2 := fun h ↦ absurd h Bool.false_ne_true
      t4 := .of_isZero rfl
      correctionSync := rfl
      correctionDelayResp := fun h ↦ absurd h.symm Bool.false_ne_true
      log := fun _ h ↦ absurd h List.not_mem_nil }
  exact (inv_run Service.step_oneMaster hinit h).log

end Run

/-- A complete measurement with one master. -/
theorem offset_from_one_master_measured :
    let calls := .start :: Bench.selects (Bench.port 1) 37 ++ Bench.measuresDelay (Bench.port 1) ++
      Bench.measuresOffset (Bench.port 1) 5
    (Bench.client.run calls).log.length = 2 ∧
      ∀ x ∈ (Bench.client.run calls).log, x.FromOneMaster :=
  ⟨by decide +kernel, offset_from_one_master _ _ _ _ _ _ (by decide +kernel)⟩

/-- The first master answers a Delay_Req and then loses its qualification to an Announce with a
shorter interval; the second one qualifies, and its Sync is combined with the Delay_Resp of the
first. -/
theorem offset_from_two_masters :
    let calls := .start :: Bench.selects (Bench.port 1) 37 ++ Bench.measuresDelay (Bench.port 1) ++
      .general (Bench.announce (Bench.port 1) 3 (-4) 37) (Bench.seconds 3) Bench.inOrder ::
      Bench.selects (Bench.port 2) 37 ++ Bench.measuresOffset (Bench.port 2) 5
    ¬ ∀ x ∈ (Bench.client.run calls).log, x.FromOneMaster := by
  decide +kernel

end ProcessBus.Ptp.Client
