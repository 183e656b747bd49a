import ProcessBus.Automation.Test

/-!
# Timed sequences

`sequence.go`: the preparation of the steps of a `TimedGooseSet` or `TimedSVSet`, and the section in
which the worker of a sequence applies its next step.  Between two sections the worker waits for the
deadline of a step without the lock; if it finds its sequence no longer running, it only returns.

A `SequenceRun` is a sequence with its worker.
-/

namespace ProcessBus.Automation

open Go Sv.Publisher Float64 FloatMath

/-! ## Preparation -/

/-- `GooseStep`. -/
structure GooseStep (Raw : Type) where
  afterMS : Option Int64
  changes : List (GooseChange Raw)

/-- `TimedGooseRequest`. -/
structure TimedGooseRequest (Raw : Type) where
  streamID : String
  revision : String
  steps : List (GooseStep Raw)
  maxLatenessMS : Option Int64 := none

/-- `TimedSVRequest`. -/
structure TimedSVRequest (F : Type) where
  streamID : String
  revision : String
  steps : List (SVStep F)
  maxLatenessMS : Option Int64 := none

/-- The snapshot that a step writes. -/
inductive Prepared (F : Type)
  | goose (v : GooseOutput)
  | sv (v : SVOutput F)

/-- `sequenceStep`: its time after the start, and what its `apply` writes. -/
structure SequenceStep (F : Type) where
  due : Duration
  value : Prepared F

variable {Raw F σ α : Type}

/-- The loops of `TimedGooseSet` and `TimedSVSet`, from step `i` on: each step changes what the one
before it has prepared. -/
def prepareSteps (prepare : α → σ → Except String σ) : ℕ → σ → List α → Except String (List σ)
  | _, _, [] => .ok []
  | i, current, step :: steps =>
      match prepare step current with
      | .error err => .error s!"step {i + 1}: {err}"
      | .ok next => (prepareSteps prepare (i + 1) next steps).map (next :: ·)

/-- The steps of `TimedGooseSet`, and the limit of their lateness. -/
def Project.timedGooseSet (a : Project Raw) (req : TimedGooseRequest Raw)
    (gooseOutput : Answer GooseOutput) : Except String (List (SequenceStep F) × Int64) := do
  let s ← a.stream req.streamID "goose" true
  let (times, limit) ← sequenceSchedule (req.steps.map (·.afterMS)) req.maxLatenessMS
  let (current, status) ← gooseOutput
  if status ≠ .running then throw "GOOSE publisher is not running"
  let values ← prepareSteps
    (fun step current ↦ a.prepareGoose ⟨req.streamID, req.revision, step.changes⟩ s current)
    0 current req.steps
  return (times.zipWith (⟨·, .goose ·⟩) values, limit)

/-- The steps of `TimedSVSet`, and the limit of their lateness. -/
def Project.timedSVSet [FloatMod F] (a : Project Raw) (req : TimedSVRequest F)
    (svOutput : Answer (SVOutput F)) : Except String (List (SequenceStep F) × Int64) := do
  let s ← a.stream req.streamID "sv" true
  let (times, limit) ← sequenceSchedule (req.steps.map (·.afterMS)) req.maxLatenessMS
  let (current, status) ← svOutput
  if status ≠ .running then throw "SV publisher is not running"
  let values ← prepareSteps
    (fun step current ↦ a.prepareSV ⟨req.streamID, req.revision, step.changes⟩ s current)
    0 current req.steps
  return (times.zipWith (⟨·, .sv ·⟩) values, limit)

/-! ## The worker -/

/-- `SequenceStatus.State`. -/
inductive SequenceState
  | running
  | completed
  | cancelled
  | failed
deriving DecidableEq, Repr

/-- `SequenceStatus`, without its identifier, the revision of the catalogue and the number of
steps. -/
structure SequenceStatus (F : Type) where
  tool : String
  streamID : String
  state : SequenceState := .running
  stepsApplied : ℕ := 0
  startedAt : Time
  finishedAt : Option Time := none
  lastAppliedAt : Option Time := none
  maxLatenessMS : F
  latenessLimitMS : Int64
  error : String := ""

/-- A `sequenceRun` and its worker; `next` is the worker's loop counter. -/
structure SequenceRun (F : Type) where
  status : SequenceStatus F
  steps : List (SequenceStep F)
  next : ℕ := 0

/-- What a section of a worker reads from elsewhere: the error of `CheckSources`, the answer of
`GooseOutput` or `SVOutput` (the status of the module, and whether it has a waveform), the error of
`ApplyGoose` or `ApplySV`, and the clock. -/
structure StepEnv where
  sources : Option String := none
  output : Except String (Supervisor.Status × Bool) := .ok (.running, true)
  applied : Option String := none
  /-- The end of the wait. -/
  checkedAt : Time
  /-- The comparison with the deadline of the next step. -/
  comparedAt : Time
  appliedAt : Time
  finishedAt : Time

/-- The checks of `apply` before it writes. -/
def Prepared.refuse (v : Prepared F) : Except String (Supervisor.Status × Bool) → Option String
  | .error err => some err
  | .ok (status, ready) =>
      match v with
      | .goose _ => if status ≠ .running then some "GOOSE publisher is not running" else none
      | .sv _ =>
          if status ≠ .running ∨ ready = false then
            some "SV publisher is not running or waveform is not ready"
          else none

namespace SequenceRun

/-- The state is `"running"`. -/
def running (run : SequenceRun F) : Bool := run.status.state == .running

/-- `finishSequence`. -/
def finish (run : SequenceRun F) (state : SequenceState) (reason : String) (now : Time) :
    SequenceRun F :=
  if run.running then
    { run with status := { run.status with state, error := reason, finishedAt := some now } }
  else run

/-- The deadline of a step. -/
def deadline (run : SequenceRun F) (step : SequenceStep F) : Time :=
  run.status.startedAt.add step.due

/-- `time.Duration(run.status.LatenessLimitMS) * time.Millisecond`. -/
def latenessLimit (run : SequenceRun F) : Duration := milliseconds run.status.latenessLimitMS

/-- What keeps the worker from applying a step; `ready` is the error of `ready`. -/
def refuse (run : SequenceRun F) (step : SequenceStep F) (ready : Option String) (e : StepEnv) :
    Option String :=
  match ready with
  | some err => some err
  | none =>
      if run.latenessLimit < e.checkedAt.sub (run.deadline step) then
        some "step deadline exceeded max_lateness_ms; remaining steps were not applied"
      else if run.steps[run.next + 1]?.any fun next ↦ !e.comparedAt.before (run.deadline next) then
        some "next step deadline already passed; remaining steps were not applied"
      else step.value.refuse e.output

/-- The step has been applied. -/
def countStep (run : SequenceRun F) (now : Time) : SequenceRun F :=
  { run with
    status := { run.status with
      stepsApplied := run.status.stepsApplied + 1
      lastAppliedAt := some now } }

variable [FloatMath F]

/-- The lateness of a step appears in the status. -/
def showLateness (run : SequenceRun F) (lateness : Duration) : SequenceRun F :=
  if lt run.status.maxLatenessMS (inMilliseconds lateness) then
    { run with status := { run.status with maxLatenessMS := inMilliseconds lateness } }
  else run

/-- The end of a section with the error `err`. -/
def failStep (run : SequenceRun F) (lateness : Duration) (err : String) (now : Time) :
    SequenceRun F :=
  (run.showLateness lateness).finish .failed (s!"step {run.next + 1}: " ++ err) now

/-- The end of a section without an error. -/
def passStep (run : SequenceRun F) (lateness : Duration) (now : Time) : SequenceRun F :=
  let run := run.showLateness lateness
  if run.next + 1 = run.steps.length then run.finish .completed "" now
  else { run with next := run.next + 1 }

/-- The section of the worker for a step. -/
def execute (run : SequenceRun F) (step : SequenceStep F) (ready : Option String) (e : StepEnv) :
    SequenceRun F :=
  let late := e.checkedAt.sub (run.deadline step)
  match run.refuse step ready e with
  | some err => run.failStep late err e.finishedAt
  | none =>
      match e.applied with
      | some err => run.failStep late err e.finishedAt
      | none =>
          let late := e.appliedAt.sub (run.deadline step)
          let run := run.countStep e.appliedAt
          if run.latenessLimit < late then
            run.failStep late
              "step application exceeded max_lateness_ms; remaining steps were not applied"
              e.finishedAt
          else run.passStep late e.finishedAt

/-! ## What a section does -/

variable {run : SequenceRun F} {step : SequenceStep F} {ready : Option String} {e : StepEnv}

/-- What every change of a sequence leaves as it is, and that none makes it run again. -/
structure Evolves (run run' : SequenceRun F) : Prop where
  steps_eq : run'.steps = run.steps
  streamID_eq : run'.status.streamID = run.status.streamID
  stopped : run.running = false → run' = run

omit [FloatMath F] in
theorem Evolves.refl (run : SequenceRun F) : Evolves run run := ⟨rfl, rfl, fun _ ↦ rfl⟩

omit [FloatMath F] in
/-- A running sequence that was running before. -/
theorem Evolves.running {run' : SequenceRun F} (h : Evolves run run') (hr : run'.running = true) :
    run.running = true := by
  cases hrun : run.running with
  | true => rfl
  | false => rw [h.stopped hrun, hrun] at hr; exact hr

omit [FloatMath F] in
theorem evolves_finish (run : SequenceRun F) (state : SequenceState) (reason : String)
    (now : Time) : Evolves run (run.finish state reason now) := by
  unfold finish
  split
  · next hr => exact ⟨rfl, rfl, fun hn ↦ by rw [hr] at hn; cases hn⟩
  · exact .refl run

/-- A sequence is left alone or finished. -/
inductive Finishes (run : SequenceRun F) : SequenceRun F → Prop
  | refl : Finishes run run
  | finish (state : SequenceState) (reason : String) (now : Time) :
      Finishes run (run.finish state reason now)

omit [FloatMath F] in
theorem Finishes.evolves {run' : SequenceRun F} (h : Finishes run run') : Evolves run run' := by
  cases h with
  | refl => exact .refl run
  | finish state reason now => exact run.evolves_finish state reason now

omit [FloatMath F] in
@[simp] theorem finish_stepsApplied (run : SequenceRun F) (state : SequenceState) (reason : String)
    (now : Time) : (run.finish state reason now).status.stepsApplied = run.status.stepsApplied := by
  unfold finish
  split <;> rfl

omit [FloatMath F] in
@[simp] theorem finish_next (run : SequenceRun F) (state : SequenceState) (reason : String)
    (now : Time) : (run.finish state reason now).next = run.next := by
  unfold finish
  split <;> rfl

omit [FloatMath F] in
@[simp] theorem finish_steps (run : SequenceRun F) (state : SequenceState) (reason : String)
    (now : Time) : (run.finish state reason now).steps = run.steps := by
  unfold finish
  split <;> rfl

omit [FloatMath F] in
@[simp] theorem finish_streamID (run : SequenceRun F) (state : SequenceState) (reason : String)
    (now : Time) : (run.finish state reason now).status.streamID = run.status.streamID := by
  unfold finish
  split <;> rfl

omit [FloatMath F] in
theorem finish_running (run : SequenceRun F) {state : SequenceState} (hstate : state ≠ .running)
    (reason : String) (now : Time) : (run.finish state reason now).running = false := by
  unfold finish
  split
  · simpa [SequenceRun.running] using hstate
  · next hr => exact Bool.not_eq_true _ ▸ hr

theorem showLateness_eq (run : SequenceRun F) (lateness : Duration) :
    ∃ ms, run.showLateness lateness =
      { run with status := { run.status with maxLatenessMS := ms } } := by
  unfold showLateness
  split
  · exact ⟨_, rfl⟩
  · exact ⟨run.status.maxLatenessMS, rfl⟩

/-- What a section leaves: it has counted `n` steps, and a sequence that still runs goes on to the
next one. -/
structure Advances (run run' : SequenceRun F) (n : ℕ) : Prop where
  steps_eq : run'.steps = run.steps
  streamID_eq : run'.status.streamID = run.status.streamID
  stepsApplied_eq : run'.status.stepsApplied = run.status.stepsApplied + n
  next_eq : run'.running = true → run'.next = run.next + 1

/-- A section that fails ends the sequence. -/
theorem failStep_running (run : SequenceRun F) (lateness : Duration) (err : String) (now : Time) :
    (run.failStep lateness err now).running = false :=
  finish_running _ (by decide) _ _

theorem advances_failStep (run : SequenceRun F) (lateness : Duration) (err : String) (now : Time) :
    Advances run (run.failStep lateness err now) 0 := by
  have hrunning := run.failStep_running lateness err now
  obtain ⟨ms, hms⟩ := run.showLateness_eq lateness
  rw [failStep, hms] at hrunning ⊢
  constructor
  · exact finish_steps ..
  · exact finish_streamID ..
  · exact finish_stepsApplied ..
  · intro hr
    rw [hrunning] at hr
    cases hr

/-- A section that does not fail goes on to the next step or ends the sequence. -/
theorem advances_passStep (run : SequenceRun F) (lateness : Duration) (now : Time) :
    Advances run (run.passStep lateness now) 0 := by
  rw [passStep]
  obtain ⟨ms, hms⟩ := run.showLateness_eq lateness
  rw [hms]
  dsimp only
  split
  · constructor
    · exact finish_steps ..
    · exact finish_streamID ..
    · exact finish_stepsApplied ..
    · intro hr
      rw [finish_running _ (by decide)] at hr
      cases hr
  · exact ⟨rfl, rfl, rfl, fun _ ↦ rfl⟩

omit [FloatMath F] in
theorem Advances.of_countStep {run' : SequenceRun F} {now : Time}
    (h : Advances (run.countStep now) run' 0) : Advances run run' 1 :=
  ⟨h.steps_eq, h.streamID_eq, h.stepsApplied_eq, h.next_eq⟩

/-- The section applies its step: nothing refuses it and the call succeeds. -/
def Applies (run : SequenceRun F) (step : SequenceStep F) (ready : Option String) (e : StepEnv) :
    Prop :=
  run.refuse step ready e = none ∧ e.applied = none

/-- **What a section does.**  It counts its step if it applies it, and ends the sequence if it does
not. -/
theorem execute_spec (run : SequenceRun F) (step : SequenceStep F) (ready : Option String)
    (e : StepEnv) :
    run.Applies step ready e ∧ Advances run (run.execute step ready e) 1 ∨
      ¬ run.Applies step ready e ∧ Advances run (run.execute step ready e) 0 ∧
        (run.execute step ready e).running = false := by
  rw [execute]
  dsimp only
  split
  · next err hrefuse =>
      refine .inr ⟨fun happlies ↦ ?_, run.advances_failStep .., run.failStep_running ..⟩
      rw [happlies.1] at hrefuse
      cases hrefuse
  · next hrefuse =>
      split
      · next err happlied =>
          refine .inr ⟨fun happlies ↦ ?_, run.advances_failStep .., run.failStep_running ..⟩
          rw [happlies.2] at happlied
          cases happlied
      · next happlied =>
          refine .inl ⟨⟨hrefuse, happlied⟩, ?_⟩
          split
          · exact (advances_failStep _ _ _ _).of_countStep
          · exact (advances_passStep _ _ _).of_countStep

end SequenceRun

end ProcessBus.Automation
