import ProcessBus.Automation.Api
import ProcessBus.Automation.Reset
import ProcessBus.Lib.Run

/-!
# What a step of the API does

However many calls and places there are, a step of the API does one of a few things (`Moved`,
`step_moved`): it writes directly to an idle stream, starts a runner on an idle stream, lets a runner
make a step, finishes sequences, or goes on with a release.  Every invariant of the API is proved by
these kinds.
-/

namespace ProcessBus.Automation

open Go Goose Goose.Subscriber Sv.Publisher Lib

variable {Raw F : Type}

/-! ## Plans -/

theorem Project.stream_id {a : Project Raw} {id protocol : String} {outputOnly : Bool} {s : Stream}
    (h : a.stream id protocol outputOnly = .ok s) : s.id = id := by
  rw [Project.stream] at h
  split at h
  · next s' hs =>
      split at h
      · cases h
      · cases h
        exact a.streams_id hs
  · cases h

section

variable [FloatMod F]

theorem Project.stimulus_output {a : Project Raw} {req : TestRequest F} {out : Stream}
    {svOutput : Answer (SVOutput F)} {p : Stimulus F} (h : a.stimulus req out svOutput = .ok p) :
    p.output = out ∧ p.touched = req.touched out := by
  unfold Project.stimulus at h
  dsimp only at h
  repeat' split at h
  all_goals cases h
  all_goals exact ⟨rfl, rfl⟩

omit [FloatMod F] in
theorem Stimulus.arm_toStimulus {p : Stimulus F} {inp : Stream} {desc : GooseStream} {path : List ℕ}
    {initial : List Snapshot} {plan : TestPlan F} (h : p.arm inp desc path initial = .ok plan) :
    plan.toStimulus = p := by
  unfold Stimulus.arm at h
  split at h
  · dsimp only at h
    split at h
    · cases h
    · split at h
      · cases h
      · split at h
        · cases h
        · cases h
          rfl
  · cases h

/-- A plan writes to the stream that was asked for, and touches the channels of its steps. -/
theorem Project.plan_output {a : Project Raw} {req : TestRequest F} {svOutput : Answer (SVOutput F)}
    {observe : String → Except String (List Snapshot)} {p : TestPlan F}
    (h : a.plan req svOutput observe = .ok p) :
    p.output.id = req.streamID ∧ p.touched = req.touched p.output := by
  unfold Project.plan at h
  cases hout : a.stream req.streamID "sv" true with
  | error err =>
      rw [hout] at h
      cases h
  | ok out =>
      cases hin : a.expectedInput req.expect with
      | error err =>
          rw [hout, hin] at h
          cases h
      | ok x =>
          obtain ⟨inp, desc, path⟩ := x
          cases hstimulus : a.stimulus req out svOutput with
          | error err =>
              simp only [hout, hin, hstimulus, bind, Except.bind] at h
              cases h
          | ok stimulus =>
              cases hinitial : observe inp.name with
              | error err =>
                  simp only [hout, hin, hstimulus, hinitial, bind, Except.bind] at h
                  cases h
              | ok initial =>
                  simp only [hout, hin, hstimulus, hinitial, bind, Except.bind] at h
                  obtain ⟨houtput, htouched⟩ := Project.stimulus_output hstimulus
                  rw [Stimulus.arm_toStimulus h, houtput, htouched]
                  exact ⟨Project.stream_id hout, rfl⟩

end

namespace Api

/-! ## Runners -/

/-- A runner is running on the stream `id`. -/
def Runs (a : Api F) : Runner → String → Prop
  | .sequence n, id =>
      ∃ run, a.sequences.runs[n]? = some run ∧ run.running = true ∧ run.status.streamID = id
  | .test n, id => ∃ run, a.tests.runs[n]? = some run ∧ run.running = true ∧ run.streamID = id

/-- Nothing is running on the stream `id`. -/
def Idle (a : Api F) (id : String) : Prop := ∀ r, ¬ a.Runs r id

/-- The two histories are within their limits and drop nothing that is running. -/
structure Bounded (a : Api F) : Prop where
  sequences : a.sequences.Bounded SequenceRun.running maxSequences
  tests : a.tests.Bounded TestRun.running maxTests

variable {a b : Api F} {id : String} {sources : Option String}

theorem revoked_of_ready (h : a.ready sources = none) : a.revoked = false := by
  rw [ready] at h
  split at h
  · cases h
  · next hnot =>
      rw [Bool.or_eq_true, not_or, Bool.not_eq_true, Bool.not_eq_true] at hnot
      exact hnot.2

theorem idle_of_streamIdle (hb : a.Bounded) (h : a.streamIdle id = none) : a.Idle id := by
  rw [streamIdle] at h
  split at h
  · cases h
  · next htests =>
      split at h
      · cases h
      · next hsequences =>
          rintro (n | n) ⟨run, hrun, hrunning, hid⟩
          · have hsome := hb.sequences.find?_isSome
              (p := fun _ run ↦ run.status.streamID == id && run.running) hrun hrunning
              (by rw [hid, hrunning, beq_self_eq_true]; rfl)
            rw [hsequences] at hsome
            cases hsome
          · have hsome := hb.tests.find?_isSome
              (p := fun _ run ↦ run.streamID == id && run.running) hrun hrunning
              (by rw [hid, hrunning, beq_self_eq_true]; rfl)
            rw [htests] at hsome
            cases hsome

/-- What has passed the two checks. -/
theorem admitted_eq_ok {α : Type} {next : Except String α} {x : α}
    (h : a.admitted sources id next = .ok x) :
    a.revoked = false ∧ a.streamIdle id = none ∧ next = .ok x := by
  rw [admitted] at h
  split at h
  · cases h
  · next hready =>
      split at h
      · cases h
      · next hidle => exact ⟨revoked_of_ready hready, hidle, h⟩

/-! ## Steps -/

/-- A sequence that has not run yet. -/
structure Fresh (run : SequenceRun F) : Prop where
  running_eq : run.running = true
  stepsApplied_eq : run.status.stepsApplied = 0
  next_eq : run.next = 0

variable [FloatMod F]

/-- A test just started: its plan is made of its request, and its worker has not moved. -/
def Armed (run : TestRun F) : Prop :=
  run.plan.touched = run.request.touched run.plan.output ∧
    ∃ received now, Time.zero < now ∧ run.test = Test.after run.plan received now []

/-- The kinds of steps. -/
inductive Moved (a : Api F) : Api F → Prop
  | stayed : Moved a a
  /-- A client writes directly. -/
  | wrote (id : String) (value : Prepared F) (err : Option String) (hlive : a.revoked = false)
      (hidle : a.Idle id) : Moved a (a.apply none id value err)
  | started (run : SequenceRun F) (sequences : History (SequenceRun F))
      (hstart : a.sequences.start SequenceRun.running maxSequences run = some sequences)
      (hfresh : Fresh run) (hlive : a.revoked = false) (hidle : a.Idle run.status.streamID) :
      Moved a { a with sequences }
  /-- The worker of a sequence ends its section without a write. -/
  | refused (n : ℕ) (run : SequenceRun F) (step : SequenceStep F) (e : StepEnv)
      (ready : Option String) (hrun : a.sequences.runs[n]? = some run) (hrunning : run.running = true)
      (hstep : run.steps[run.next]? = some step) {err : String}
      (hrefuse : run.refuse step ready e = some err) :
      Moved a { a with sequences := a.sequences.modify n (·.execute step ready e) }
  /-- The worker of a sequence writes. -/
  | executed (n : ℕ) (run : SequenceRun F) (step : SequenceStep F) (e : StepEnv)
      (ready : Option String) (hrun : a.sequences.runs[n]? = some run) (hrunning : run.running = true)
      (hstep : run.steps[run.next]? = some step) (hrefuse : run.refuse step ready e = none) :
      Moved a ({ a with sequences := a.sequences.modify n (·.execute step ready e) }.apply
        (some (.sequence n)) run.status.streamID step.value e.applied)
  | cancelled (n : ℕ) (now : Time) :
      Moved a { a with sequences := a.sequences.modify n (·.finish .cancelled "" now) }
  | armed (run : TestRun F) (tests : History (TestRun F))
      (hstart : a.tests.start TestRun.running maxTests run = some tests) (harmed : Armed run)
      (hlive : a.revoked = false) (hidle : a.Idle run.streamID) : Moved a { a with tests }
  /-- The worker of a test makes a step, or something happens around it. -/
  | tested (n : ℕ) (run : TestRun F) (act : TestAction) (hrun : a.tests.runs[n]? = some run) :
      Moved a
        { a.abort run.test act with
          tests := a.tests.modify n (·.step (a.supply act))
          calls := a.calls ++ (run.writes (a.supply act)).map fun w ↦
            ⟨some (.test n), run.streamID, .sv w.1, w.2⟩ }
  | revoked : Moved a { a with revoked := true }
  | called (stopPublishers : Bool) :
      Moved a { a with releases := a.releases ++ [{ stopPublishers }] }
  | proceeded (n : ℕ) (now : Time) : Moved a (a.proceed n now)

variable {project : Project Raw}

theorem moved_gooseSet (hb : a.Bounded) (req : GooseSetRequest Raw)
    (e : SetEnv GooseOutput) : Moved a (a.gooseSet project req e) := by
  rw [gooseSet]
  split
  · exact .stayed
  · next next hok =>
      obtain ⟨hlive, hidle, -⟩ := admitted_eq_ok hok
      exact .wrote _ _ _ hlive (idle_of_streamIdle hb hidle)

theorem moved_svSet (hb : a.Bounded) (req : SVSetRequest F) (e : SetEnv (SVOutput F)) :
    Moved a (a.svSet project req e) := by
  rw [svSet]
  split
  · exact .stayed
  · next next hok =>
      obtain ⟨hlive, hidle, -⟩ := admitted_eq_ok hok
      exact .wrote _ _ _ hlive (idle_of_streamIdle hb hidle)

theorem moved_startSequence {again : Option String} {run : SequenceRun F} (hfresh : Fresh run)
    (hlive : a.revoked = false) (hidle : a.Idle run.status.streamID)
    (h : a.startSequence again run = .ok b) : Moved a b := by
  rw [startSequence] at h
  split at h
  · cases h
  · split at h
    · cases h
    · next sequences hstart =>
        cases h
        exact .started run sequences hstart hfresh hlive hidle

theorem moved_timedGooseSet (hb : a.Bounded) (req : TimedGooseRequest Raw)
    (e : StartEnv GooseOutput) : Moved a (a.accept (a.timedGooseSet project req e)) := by
  cases hok : a.timedGooseSet project req e with
  | error err => exact .stayed
  | ok b =>
      obtain ⟨hlive, hidle, hnext⟩ := admitted_eq_ok hok
      split at hnext
      · cases hnext
      · exact moved_startSequence ⟨rfl, rfl, rfl⟩ hlive (idle_of_streamIdle hb hidle) hnext

theorem moved_timedSVSet (hb : a.Bounded) (req : TimedSVRequest F)
    (e : StartEnv (SVOutput F)) : Moved a (a.accept (a.timedSVSet project req e)) := by
  cases hok : a.timedSVSet project req e with
  | error err => exact .stayed
  | ok b =>
      obtain ⟨hlive, hidle, hnext⟩ := admitted_eq_ok hok
      split at hnext
      · cases hnext
      · exact moved_startSequence ⟨rfl, rfl, rfl⟩ hlive (idle_of_streamIdle hb hidle) hnext

theorem moved_sequence (n : ℕ) (e : StepEnv) : Moved a (a.sequence n e) := by
  rw [sequence]
  split
  · exact .stayed
  · next run hrun =>
      split
      · exact .stayed
      · next hrunning =>
          rw [Bool.not_eq_true', Bool.not_eq_false] at hrunning
          split
          · exact .stayed
          · next step hstep =>
              split
              · exact .stayed
              · dsimp only
                split
                · next err hrefuse => exact .refused n run step e _ hrun hrunning hstep hrefuse
                · next hrefuse => exact .executed n run step e _ hrun hrunning hstep hrefuse

theorem moved_cancelSequence (id : String) (now : Time) : Moved a (a.cancelSequence id now) := by
  rw [cancelSequence]
  split
  · exact .stayed
  · split
    · exact .stayed
    · exact .cancelled _ now

theorem moved_runTest (hb : a.Bounded) (req : TestRequest F) (e : TestEnv F) :
    Moved a (a.accept (a.runTest project req e)) := by
  cases hok : a.runTest project req e with
  | error err => exact .stayed
  | ok b =>
      obtain ⟨hlive, hidle, hnext⟩ := admitted_eq_ok hok
      obtain ⟨-, hnext⟩ := guard_eq_ok.mp hnext
      obtain ⟨-, hnext⟩ := guard_eq_ok.mp hnext
      dsimp only at hnext
      split at hnext
      · cases hnext
      · next plan hplan =>
          split at hnext
          · cases hnext
          · next tests hstart =>
              cases hnext
              obtain ⟨hid, htouched⟩ := Project.plan_output hplan
              refine .armed _ tests hstart ⟨htouched, e.received, e.now, e.now_pos, rfl⟩ hlive ?_
              rw [TestRun.streamID, hid]
              exact idle_of_streamIdle hb hidle

theorem moved_cancelTest (id : String) : Moved a (a.cancelTest id) := by
  rw [cancelTest]
  split
  · exact .stayed
  · next n hfind =>
      obtain ⟨-, run, hrun, -⟩ := History.find?_eq_some hfind
      have hmoved := Moved.tested n run .cancel hrun
      have hnone : run.writes (a.supply .cancel) = [] := rfl
      rw [hnone, List.map_nil, List.append_nil] at hmoved
      exact hmoved

/-- **The steps of the API.** -/
theorem step_moved (hb : a.Bounded) (act : ApiAction Raw F) : Moved a (a.step project act) := by
  cases act with
  | gooseSet req e => exact moved_gooseSet hb req e
  | svSet req e => exact moved_svSet hb req e
  | timedGooseSet req e => exact moved_timedGooseSet hb req e
  | timedSVSet req e => exact moved_timedSVSet hb req e
  | sequence n e => exact moved_sequence n e
  | cancelSequence id now => exact moved_cancelSequence id now
  | runTest req e => exact moved_runTest hb req e
  | test n act =>
      rw [step, test]
      split
      · exact .stayed
      · next run hrun => exact .tested n run act hrun
  | cancelTest id => exact moved_cancelTest id
  | revoke => exact .revoked
  | release stopPublishers => exact .called stopPublishers
  | proceed n now => exact .proceeded n now

end Api

end ProcessBus.Automation
