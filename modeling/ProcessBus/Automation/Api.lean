import ProcessBus.Automation.Sequence
import ProcessBus.Lib.History

/-!
# The automation API

`API` of `internal/application/automation` with the goroutines around it: the clients' calls, the
workers of its sequences and tests, and the calls of `Release` and `Close`.

A section under `API.mu` is one action.  The worker of a test also runs outside the lock, and its
actions are the steps of `Test`; a call of `release` is a process of its own, because it gives up the
lock while it waits for the tests.  `revoked` is atomic: where a section reads it a second time, the
error of that second check is part of the action.

`calls` has every call of `ApplyGoose`, `ApplySV` and `ApplySVTracked`, in order, and `closed` says
that the agent was closed; no function of the source reads these.
-/

namespace ProcessBus.Automation

open Go Goose Goose.Subscriber Sv.Publisher Float64 FloatMath Lib

/-! ## Data -/

/-- A sequence or a test, by the order of its start. -/
inductive Runner
  | sequence (n : ℕ)
  | test (n : ℕ)
deriving DecidableEq, Repr

/-- A call that writes to a publisher: by a runner or, directly, by a client. -/
structure ApplyCall (F : Type) where
  writer : Option Runner
  streamID : String
  value : Prepared F
  err : Option String

/-- A `testRun` with its plan, its worker and the request that it was made of. -/
structure TestRun (F : Type) where
  request : TestRequest F
  plan : TestPlan F
  test : Test F

/-- Where a call of `release` is. -/
inductive ReleasePc
  | revoke
  | collect
  /-- The tests that it still has to wait for. -/
  | wait (tests : List ℕ)
  | detach
  | returned
deriving DecidableEq, Repr

/-- A call of `Release`, or of `Close`, which stops the publishers. -/
structure Release where
  stopPublishers : Bool
  pc : ReleasePc := .revoke

structure Api (F : Type) where
  revoked : Bool := false
  /-- `a.agent != nil`. -/
  attached : Bool := true
  sequences : History (SequenceRun F) := {}
  tests : History (TestRun F) := {}
  releases : List Release := []
  closed : Bool := false
  calls : List (ApplyCall F) := []

/-- What a direct write reads from elsewhere: the error of `CheckSources`, the answer of
`GooseOutput` or `SVOutput`, and the error of `ApplyGoose` or `ApplySV`. -/
structure SetEnv (α : Type) where
  sources : Option String := none
  output : Answer α
  applied : Option String := none

/-- What the start of a sequence reads from elsewhere; `again` is the error of the second check of
`ready`. -/
structure StartEnv (α : Type) where
  sources : Option String := none
  output : Answer α
  again : Option String := none
  now : Time

/-- What the start of a test reads from elsewhere: whether the agent supports measured tests, the
error of `ObserveGoose`, what the receiver has done so far, and the clock, which does not show the
zero time. -/
structure TestEnv (F : Type) where
  sources : Option String := none
  measured : Bool := true
  output : Answer (SVOutput F)
  observed : Option String := none
  received : List Watched.Action
  now : Time
  now_pos : Time.zero < now

/-- What happens at an API. -/
inductive ApiAction (Raw F : Type)
  | gooseSet (req : GooseSetRequest Raw) (e : SetEnv GooseOutput)
  | svSet (req : SVSetRequest F) (e : SetEnv (SVOutput F))
  | timedGooseSet (req : TimedGooseRequest Raw) (e : StartEnv GooseOutput)
  | timedSVSet (req : TimedSVRequest F) (e : StartEnv (SVOutput F))
  /-- The timer of a sequence has fired and its worker gets the lock. -/
  | sequence (n : ℕ) (e : StepEnv)
  | cancelSequence (id : String) (now : Time)
  | runTest (req : TestRequest F) (e : TestEnv F)
  /-- The worker of a test makes a step, or something happens around it. -/
  | test (n : ℕ) (act : TestAction)
  | cancelTest (id : String)
  | revoke
  /-- `Release` or `Close` is called. -/
  | release (stopPublishers : Bool)
  /-- A call of `release` makes a step. -/
  | proceed (n : ℕ) (now : Time)

def maxTests : ℕ := 64

variable {Raw F : Type}

/-- `"sequence-%d"`. -/
def sequenceID (n : ℕ) : String := s!"sequence-{n + 1}"

/-- `"test-%d"`. -/
def testID (n : ℕ) : String := s!"test-{n + 1}"

namespace TestRun

/-- The state is `"running"`. -/
def running (run : TestRun F) : Bool := run.test.status.state == .running

/-- The stream that the test writes to. -/
def streamID (run : TestRun F) : String := run.plan.output.id

/-- An action of the worker, or around it. -/
def step [FloatMath F] (run : TestRun F) (act : TestAction) : TestRun F :=
  { run with test := run.test.step run.plan act }

/-- What the worker writes with the action `act`. -/
def writes [FloatMath F] (run : TestRun F) : TestAction → List (SVOutput F × Option String)
  | .run e =>
      match run.test.pc with
      | .write => [(run.plan.waveforms.getD run.test.next run.test.current, e.applied)]
      | .reset =>
          if run.test.wrote then [(run.test.current.reset run.plan.touched, e.applied)] else []
      | _ => []
  | _ => []

end TestRun

/-! ## Writing once -/

/-- The snapshot that `GooseSet` writes. -/
def Project.gooseSet (a : Project Raw) (req : GooseSetRequest Raw) (gooseOutput : Answer GooseOutput) :
    Except String GooseOutput := do
  let s ← a.stream req.streamID "goose" true
  let (current, status) ← gooseOutput
  if status ≠ .running then throw "GOOSE publisher is not running"
  a.prepareGoose req s current

/-- The snapshot that `SVSet` writes. -/
def Project.svSet [FloatMod F] (a : Project Raw) (req : SVSetRequest F)
    (svOutput : Answer (SVOutput F)) : Except String (SVOutput F) := do
  let s ← a.stream req.streamID "sv" true
  let (current, status) ← svOutput
  if status ≠ .running then throw "SV publisher is not running"
  a.prepareSV req s current

namespace Api

variable (a : Api F)

/-- `ready`; `sources` is the error of `CheckSources`. -/
def ready (sources : Option String) : Option String :=
  if !a.attached || a.revoked then some "MCP control is not active" else sources

/-- `streamIdle`. -/
def streamIdle (id : String) : Option String :=
  match a.tests.find? fun _ run ↦ run.streamID == id && run.running with
  | some n => some s!"stream is controlled by {testID n}; cancel_test before writing"
  | none =>
      match a.sequences.find? fun _ run ↦ run.status.streamID == id && run.running with
      | some n => some s!"stream is controlled by {sequenceID n}; cancel_sequence before writing"
      | none => none

/-- The two checks with which every request to an output begins. -/
def admitted {α : Type} (sources : Option String) (id : String) (next : Except String α) :
    Except String α :=
  match a.ready sources with
  | some err => .error err
  | none =>
      match a.streamIdle id with
      | some err => .error err
      | none => next

/-- A call that writes. -/
def apply (writer : Option Runner) (streamID : String) (value : Prepared F)
    (err : Option String) : Api F :=
  { a with calls := a.calls ++ [⟨writer, streamID, value, err⟩] }

/-- `GooseSet`. -/
def gooseSet (project : Project Raw) (req : GooseSetRequest Raw) (e : SetEnv GooseOutput) : Api F :=
  match a.admitted e.sources req.streamID (project.gooseSet req e.output) with
  | .error _ => a
  | .ok next => a.apply none req.streamID (.goose next) e.applied

/-- `SVSet`. -/
def svSet [FloatMod F] (project : Project Raw) (req : SVSetRequest F) (e : SetEnv (SVOutput F)) :
    Api F :=
  match a.admitted e.sources req.streamID (project.svSet req e.output) with
  | .error _ => a
  | .ok next => a.apply none req.streamID (.sv next) e.applied

/-! ## Sequences -/

/-- A sequence at its start. -/
def newSequence [FloatMath F] (tool streamID : String) (steps : List (SequenceStep F))
    (limit : Int64) (now : Time) : SequenceRun F where
  status :=
    { tool
      streamID
      startedAt := now
      maxLatenessMS := ofInt 0
      latenessLimitMS := limit }
  steps

/-- `startSequence`. -/
def startSequence [FloatMath F] (again : Option String) (run : SequenceRun F) :
    Except String (Api F) :=
  match a.ready again with
  | some err => .error err
  | none =>
      match a.sequences.start SequenceRun.running maxSequences run with
      | none => .error "too many active sequences"
      | some sequences => .ok { a with sequences }

/-- `TimedGooseSet`. -/
def timedGooseSet [FloatMath F] (project : Project Raw) (req : TimedGooseRequest Raw)
    (e : StartEnv GooseOutput) : Except String (Api F) :=
  a.admitted e.sources req.streamID
    (match project.timedGooseSet req e.output with
    | .error err => .error err
    | .ok (steps, limit) =>
        a.startSequence e.again (newSequence "t_set_goose" req.streamID steps limit e.now))

/-- `TimedSVSet`. -/
def timedSVSet [FloatMod F] (project : Project Raw) (req : TimedSVRequest F)
    (e : StartEnv (SVOutput F)) : Except String (Api F) :=
  a.admitted e.sources req.streamID
    (match project.timedSVSet req e.output with
    | .error err => .error err
    | .ok (steps, limit) =>
        a.startSequence e.again (newSequence "t_set_sv" req.streamID steps limit e.now))

/-- The section of a worker in `executeSequence`. -/
def sequence [FloatMath F] (n : ℕ) (e : StepEnv) : Api F :=
  match a.sequences.runs[n]? with
  | none => a
  | some run =>
      if !run.running then a
      else
        match run.steps[run.next]? with
        | none => a
        | some step =>
            if e.checkedAt.before (run.deadline step) then a
            else
              let next := { a with
                sequences :=
                  a.sequences.modify n fun run ↦ run.execute step (a.ready e.sources) e }
              match run.refuse step (a.ready e.sources) e with
              | some _ => next
              | none => next.apply (some (.sequence n)) run.status.streamID step.value e.applied

/-- `CancelSequence`. -/
def cancelSequence (id : String) (now : Time) : Api F :=
  if !a.attached || a.revoked then a
  else
    match a.sequences.find? fun n _ ↦ sequenceID n == id with
    | none => a
    | some n => { a with sequences := a.sequences.modify n (·.finish .cancelled "" now) }

/-- The loop over `a.sequences` that finishes them all. -/
def finishSequences (reason : String) (now : Time) : Api F :=
  { a with sequences := a.sequences.modifyKept (·.finish .cancelled reason now) }

/-! ## Tests -/

/-- `RunTest`. -/
def runTest [FloatMod F] (project : Project Raw) (req : TestRequest F) (e : TestEnv F) :
    Except String (Api F) :=
  a.admitted e.sources req.streamID
    (if (a.tests.find? fun _ run ↦ run.running).isSome then .error "another test is running"
    else if !e.measured then .error "runtime does not support measured tests"
    else
      let receiver := e.received.foldl Watched.step .new
      match project.plan req e.output (fun name ↦
        match e.observed with
        | some err => .error err
        | none => .ok (receiver.watch name e.now).initial) with
      | .error err => .error err
      | .ok plan =>
          match a.tests.start TestRun.running maxTests ⟨req, plan, .new plan receiver e.now⟩ with
          | none => .error "test history full"
          | some tests => .ok { a with tests })

/-- What the worker of a test reads of the API. -/
def supply : TestAction → TestAction
  | .run e => .run { e with ready := a.ready e.ready, revoked := a.revoked }
  | act => act

/-- What the worker of a test does to the API after a failed reset. -/
def abort (t : Test F) : TestAction → Api F
  | .run _ =>
      match t.pc with
      | .revoke => { a with revoked := true }
      | .finishSequences => a.finishSequences "test output reset failed" t.now
      | .closeAgent => { a with closed := true }
      | _ => a
  | _ => a

/-- An action of the worker of a test, or around it. -/
def test [FloatMath F] (n : ℕ) (act : TestAction) : Api F :=
  match a.tests.runs[n]? with
  | none => a
  | some run =>
      { a.abort run.test act with
        tests := a.tests.modify n (·.step (a.supply act))
        calls := a.calls ++ (run.writes (a.supply act)).map fun w ↦
          ⟨some (.test n), run.streamID, .sv w.1, w.2⟩ }

/-- `CancelTest`, up to its wait for the worker. -/
def cancelTest [FloatMath F] (id : String) : Api F :=
  match a.tests.find? fun n _ ↦ testID n == id with
  | none => a
  | some n => { a with tests := a.tests.modify n (·.step .cancel) }

/-! ## Releasing -/

/-- A call of `release` goes to another place. -/
def goto (n : ℕ) (pc : ReleasePc) : Api F :=
  { a with releases := a.releases.modify n ({ · with pc }) }

/-- A step of a call of `release`. -/
def proceed [FloatMath F] (n : ℕ) (now : Time) : Api F :=
  match a.releases[n]? with
  | none => a
  | some r =>
      match r.pc with
      | .revoke => { a with revoked := true }.goto n .collect
      | .collect =>
          ({ a with tests := a.tests.modifyKept (·.step .cancel) }.finishSequences
            "MCP control released" now).goto n (.wait a.tests.kept)
      | .wait [] => a.goto n .detach
      | .wait (j :: rest) =>
          -- `done` is closed in the section that sets the state.
          if a.tests.runs[j]?.any TestRun.running then a else a.goto n (.wait rest)
      | .detach =>
          { a with
            attached := false
            closed := a.closed || a.attached && r.stopPublishers }.goto n .returned
      | .returned => a

/-! ## Steps -/

/-- The API after a call, which changes nothing if it returns an error. -/
def accept : Except String (Api F) → Api F
  | .error _ => a
  | .ok b => b

def step [FloatMod F] (project : Project Raw) (a : Api F) : ApiAction Raw F → Api F
  | .gooseSet req e => a.gooseSet project req e
  | .svSet req e => a.svSet project req e
  | .timedGooseSet req e => a.accept (a.timedGooseSet project req e)
  | .timedSVSet req e => a.accept (a.timedSVSet project req e)
  | .sequence n e => a.sequence n e
  | .cancelSequence id now => a.cancelSequence id now
  | .runTest req e => a.accept (a.runTest project req e)
  | .test n act => a.test n act
  | .cancelTest id => a.cancelTest id
  | .revoke => { a with revoked := true }
  | .release stopPublishers => { a with releases := a.releases ++ [{ stopPublishers }] }
  | .proceed n now => a.proceed n now

/-- An API that an agent has been attached to, after the actions `as`. -/
def after [FloatMod F] (project : Project Raw) (as : List (ApiAction Raw F)) : Api F :=
  as.foldl (step project) {}

end Api

end ProcessBus.Automation
