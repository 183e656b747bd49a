import ProcessBus.Automation.Requests

/-!
# The worker of a measured test

`executeTest` of `test_run.go`.  The worker writes the waveforms of its plan one after another,
waits for the receipt of each, and handles the frames that the GOOSE receiver queues on its watch;
its deferred function resets the output.  A `Test` is the worker with all that it reads: the clock,
its watch, the channel of the last tracked write and its context.

One action is either something that happens around the worker or one step of it.  A step goes to
the next place where the worker reads the clock, a channel, or a variable that another goroutine
may change, so that anything may come between any two of them.  A step whose `select` case is not
ready changes nothing.

`log` is what the receiver has accepted, `writes` and `resetWrite` are the calls of
`ApplySVTracked`, and `late` counts the frames queued since the loop read the length of the queue;
no function of the source reads these.
-/

namespace ProcessBus.Automation

open Go Goose Goose.Subscriber Sv Sv.Publisher Float64 FloatMath

/-! ## Data -/

/-- `TestStatus.State`, and the variable `state` of `executeTest`. -/
inductive TestState
  | running
  | triggered
  | timeout
  | cancelled
  | failed
deriving DecidableEq, Repr

/-- `TestStatus.Phase`. -/
inductive TestPhase
  | armed
  | waiting
  | resetting
  | finished
deriving DecidableEq, Repr

/-- `ChannelValue`, without the instantaneous value of an input. -/
structure ChannelValue (F : Type) where
  id : String
  name : String
  unit : String
  rms : Option F
  phase : Option F
  frequency : Option F
  quality : UInt32

/-- `TestStepResult`. -/
structure TestStepResult (F : Type) where
  step : ℕ
  sentAt : Time
  fromStartMS : F
  channels : List (ChannelValue F)

/-- `TestStatus`, without the fields copied from the request. -/
structure TestStatus (F : Type) where
  state : TestState := .running
  phase : TestPhase := .armed
  finishedAt : Option Time := none
  steps : List (TestStepResult F) := []
  stepsApplied : ℕ := 0
  responseStep : ℕ := 0
  responseAt : Option Time := none
  elapsedMS : Option F := none
  fromStartMS : Option F := none
  resetConfirmed : Bool := false
  resetAt : Option Time := none
  resetFromStartMS : Option F := none
  error : String := ""

/-- A call of `ApplySVTracked`, and the receipt that the worker read from its channel. -/
structure Write (F : Type) where
  output : SVOutput F
  receipt : Option SendReceipt := none

/-- The channel that a call of `ApplySVTracked` returned: the time of the call, and what is in
it. -/
structure Transmission where
  calledAt : Time
  receipt : Option SendReceipt := none
deriving DecidableEq

/-- Where the worker is. -/
inductive TestPc
  | start
  | loop
  | poll
  | length
  | drain (n : ℕ)
  | deadline
  | expiry
  | due
  | lateness
  | ready
  | fence
  | write
  | sent
  | wait
  -- the deferred function
  | unwind
  | reset
  | resetSent
  | resetWait
  | revoke
  | finishSequences
  | closeAgent
  | finish
  | finished
deriving DecidableEq, Repr

/-- The case that a `select` takes. -/
inductive Choice
  | done
  | failed
  | closed
  | receipt
  | frame
  | check
  | timer
deriving DecidableEq, Repr

/-- What a step of the worker reads from elsewhere: the errors of `ready`, `ApplySVTracked` and
`Close`, the revocation, the statuses of the modules, and the choice of a `select`. -/
structure Env where
  ready : Option String := none
  revoked : Bool := false
  applied : Option String := none
  closed : Option String := none
  statuses : Except String (List (Supervisor.ModuleID × Supervisor.Status)) := .ok []
  choice : Choice := .timer

structure Test (F : Type) where
  pc : TestPc := .start
  now : Time
  watch : Watch
  /-- `ctx.Err() != nil`. -/
  cancelled : Bool := false
  state : TestState := .failed
  reason : String := "test did not complete"
  current : SVOutput F
  receipts : List SendReceipt := []
  wrote : Bool := false
  lastInput : Time
  inputDeadline : Time
  previous : Bool
  /-- `pending`, and `ch` in the deferred function. -/
  pending : Option Transmission := none
  next : ℕ := 0
  deadline : Time
  /-- `sendDeadline`, and the time of the timer in the deferred function. -/
  sendDeadline : Time
  resetOK : Bool := false
  resetErr : String := ""
  resetAt : Option Time := none
  resetFromStart : Option F := none
  status : TestStatus F := {}
  log : List Accepted
  writes : List (Write F) := []
  resetWrite : Option (Write F) := none
  late : ℕ := 0

/-- What happens around a worker, and its own steps. -/
inductive TestAction
  /-- Time passes. -/
  | clock (now : Time)
  /-- The receiver accepts a frame. -/
  | frame (a : Accepted)
  /-- `closeWatches`: the receiver stops. -/
  | closeWatches
  /-- The publisher completes the tracker of the last tracked write. -/
  | receipt (r : SendReceipt)
  /-- `r.cancel()`. -/
  | cancel
  | run (e : Env)

variable {F : Type}

/-- `float64(d) / float64(time.Millisecond)`. -/
def inMilliseconds [Float64 F] (d : Duration) : F := ofInt d.toInt / ofInt 1000000

/-- `finite`. -/
def finite [FloatMath F] (x : F) : Option F := if isFinite x then some x else none

/-- The time for which a message keeps its stream alive. -/
def timeToLive (pdu : PDU) : Duration :=
  milliseconds (Int64.ofNat pdu.timeAllowedToLiveMs.toNat)

def second : Duration := 1000000000

/-- The zero value of a `svpub.Snapshot`. -/
def SVOutput.zero [FloatMath F] : SVOutput F where
  settings := .replicate numChannels ⟨ofInt 0, ofInt 0, ofInt 0, 0⟩
  simulation := false
  synch := 0
  ready := false

/-- The waveform with which the deferred function resets the output. -/
def SVOutput.reset [FloatMath F] (v : SVOutput F) (touched : Fin numChannels → Bool) : SVOutput F :=
  { v with
    settings := .ofFn fun ch ↦
      if touched ch then { v.settings.get ch with rms := ofInt 0 } else v.settings.get ch }

namespace TestPlan

variable (p : TestPlan F)

/-- The duration of `timeout_ms`. -/
def timeout : Duration := milliseconds p.timeoutMS

/-- The time of step `i` after the first. -/
def stepAt (i : ℕ) : Duration := p.schedule.getD i 0

/-- The channels of a step, as its result shows them. -/
def channelValues [FloatMath F] (v : SVOutput F) : List (ChannelValue F) :=
  p.output.signals.zipWith (fun sig setting ↦
    { id := sig.id
      name := sig.name
      unit := sig.unit
      rms := finite setting.rms
      phase := finite setting.phaseDeg
      frequency := finite setting.frequency
      quality := setting.quality }) v.settings.toList

end TestPlan

namespace Test

variable [FloatMath F]

/-- The worker at its start, with a watch just made of the receiver `w`. -/
def new (p : TestPlan F) (w : Watched) (now : Time) : Test F where
  now
  watch := w.watch p.input.stream.name now
  current := .zero
  lastInput := p.observedAt
  inputDeadline := p.observedAt.add (timeToLive p.input.baseline)
  previous := match p.input.value p.input.baseline with
    | .ok value => value
    | .error _ => false
  deadline := now.add p.timeout
  sendDeadline := now.add second
  log := w.accepted

/-! ## Leaving the loop -/

/-- `state, reason = state, reason; return`. -/
def exit (t : Test F) (state : TestState) (reason : String) : Test F :=
  { t with state, reason, pc := .unwind }

/-- `reason = reason; return`. -/
def fail (t : Test F) (reason : String) : Test F := { t with reason, pc := .unwind }

/-- The receipt of the first step. -/
def firstReceipt (t : Test F) : SendReceipt := t.receipts.headD ⟨.zero, .zero, none⟩

/-! ## Frames -/

/-- The loop over the receipts in `handle`. -/
def responseStep (receipts : List SendReceipt) (observedAt : Time) : ℕ :=
  receipts.zipIdx.foldl (fun step tx ↦ if !tx.1.sentAt.after observedAt then tx.2 + 1 else step) 1

/-- The response appears in the status; `tx` is the receipt of `measure_from_step`. -/
def showResponse (t : Test F) (event : Observation) (tx : SendReceipt) : Test F :=
  let first := t.firstReceipt
  let fromStart := event.observedAt.sub first.sentAt
  { t with
    status := { t.status with
      responseStep := responseStep t.receipts event.observedAt
      responseAt := some (first.appTime.add fromStart)
      elapsedMS := some (inMilliseconds (event.observedAt.sub tx.sentAt))
      fromStartMS := some (inMilliseconds fromStart) } }

/-- `handle` on a frame that brings the target level. -/
def respond (p : TestPlan F) (t : Test F) (event : Observation) : Test F :=
  if t.receipts.isEmpty || event.observedAt.before t.firstReceipt.sentAt then
    t.fail "input reached target before stimulus"
  else if event.observedAt.after t.deadline then t.exit .timeout ""
  else
    match t.receipts[p.measureFromStep - 1]? with
    | none => t.fail "response before measure_from_step"
    | some tx =>
        if event.observedAt.before tx.sentAt then t.fail "response before measure_from_step"
        else (t.showResponse event tx).exit .triggered ""

/-- The input is alive until the frame's time allowed to live is over. -/
def hear (t : Test F) (event : Observation) : Test F :=
  { t with
    lastInput := event.observedAt
    inputDeadline := event.observedAt.add (timeToLive event.pdu) }

/-- `handle`; where it returns `true`, the worker leaves the loop. -/
def handle (p : TestPlan F) (t : Test F) (event : Observation) : Test F :=
  if event.restart then t.fail "GOOSE publisher restarted during test"
  else if event.observedAt.isZero || event.observedAt.before t.lastInput then
    t.fail "missing or reordered application receive timestamp"
  else
    match p.input.value event.pdu with
    | .error err => t.fail err
    | .ok value =>
        if event.observedAt.after t.inputDeadline then t.fail "GOOSE input expired before response"
        else if value ≠ t.previous ∧ value = p.target then (t.hear event).respond p event
        else { t.hear event with previous := value }

/-- Take a frame from the queue and handle it; the worker stays in the loop at `pc`. -/
def receive (p : TestPlan F) (t : Test F) (pc : TestPc) : Test F :=
  match t.watch.channels.frames with
  | [] => t
  | event :: _ => { t with pc, watch := t.watch.take }.handle p event

/-! ## Receipts -/

/-- The receipt is noted with the last write. -/
def confirm (writes : List (Write F)) (r : SendReceipt) : List (Write F) :=
  writes.modify (writes.length - 1) ({ · with receipt := some r })

/-- The receipt is read from the channel. -/
def noteReceipt (t : Test F) (r : SendReceipt) : Test F :=
  { t with writes := confirm t.writes r }

/-- The step of the receipt has been sent. -/
def advance (p : TestPlan F) (t : Test F) (r : SendReceipt) : Test F :=
  { t with
    receipts := t.receipts ++ [r]
    pending := none
    next := t.next + 1
    deadline := if t.next = 0 then r.sentAt.add p.timeout else t.deadline }

/-- The step appears in the status. -/
def showStep (p : TestPlan F) (t : Test F) (r : SendReceipt) : Test F :=
  { t with
    pc := .loop
    status := { t.status with
      phase := .waiting
      steps := t.status.steps ++
        [{ step := t.next
           sentAt := r.appTime
           fromStartMS := inMilliseconds (r.sentAt.sub t.firstReceipt.sentAt)
           channels := p.channelValues t.current }]
      stepsApplied := t.next } }

/-- The last receipt is later than its step allows. -/
def sentLate (p : TestPlan F) (t : Test F) (r : SendReceipt) : Bool :=
  1 < t.next && p.limit < r.sentAt.sub (t.firstReceipt.sentAt.add (p.stepAt (t.next - 1)))

/-- The case of a receipt in the loop's `select`. -/
def acknowledge (p : TestPlan F) (t : Test F) (r : SendReceipt) : Test F :=
  if r.err.isSome || r.sentAt.isZero then
    (t.noteReceipt r).fail ("SV send failed or timestamp missing: " ++ r.err.getD "<nil>")
  else
    let t := (t.noteReceipt r).advance p r
    if t.sentLate p r then t.fail "SV send exceeded max_lateness_ms" else t.showStep p r

/-! ## The loop -/

/-- The time of the timer of the loop's `select`. -/
def wake (p : TestPlan F) (t : Test F) : Time :=
  if t.pending.isSome then min t.deadline t.sendDeadline
  else
    let wake := min t.deadline t.inputDeadline
    if t.next < p.waveforms.length then min wake (t.firstReceipt.sentAt.add (p.stepAt t.next))
    else wake

/-- The loop over the statuses of the modules. -/
def moduleStopped (states : List (Supervisor.ModuleID × Supervisor.Status)) : Bool :=
  states.any fun s ↦ (s.1 == .svPub || s.1 == .gooseSub) && s.2 != .running

/-- The loop's `select`. -/
def select (p : TestPlan F) (t : Test F) (e : Env) : Test F :=
  match e.choice with
  | .done => if t.cancelled then t.exit .cancelled "" else t
  | .failed =>
      if t.watch.channels.failed then t.fail "GOOSE observation overflow; measurement invalid"
      else t
  | .closed => if t.watch.closed then t.fail "GOOSE receiver stopped" else t
  | .receipt =>
      match t.pending.bind (·.receipt) with
      | some r => t.acknowledge p r
      | none => t
  | .frame =>
      -- The channel is nil while a write is pending.
      if t.pending.isNone then t.receive p .loop else t
  | .check =>
      match e.ready with
      | some err => t.fail err
      | none =>
          match e.statuses with
          | .error err => t.fail err
          | .ok states =>
              if moduleStopped states then t.fail "test module stopped or failed"
              else { t with pc := .loop }
  | .timer =>
      if t.now.before (t.wake p) then t
      else if t.pending.isSome && !t.now.before t.sendDeadline then
        t.fail "SV frame not confirmed within 1s"
      else { t with pc := .loop }

/-- `current = p.waveforms[next]` and the call of `ApplySVTracked`.  The output will be reset even
if the call fails. -/
def apply (p : TestPlan F) (t : Test F) : Test F :=
  let current := p.waveforms.getD t.next t.current
  { t with current, wrote := true, writes := t.writes ++ [⟨current, none⟩] }

/-- The channel of a call that succeeded. -/
def track (t : Test F) (pc : TestPc) : Test F :=
  { t with pending := some ⟨t.now, none⟩, pc }

/-- The write of the next step. -/
def write (p : TestPlan F) (t : Test F) (e : Env) : Test F :=
  match e.applied with
  | some err => (t.apply p).fail err
  | none => (t.apply p).track .sent

/-! ## The deferred function -/

/-- The call of `ApplySVTracked` for the reset. -/
def applyReset (p : TestPlan F) (t : Test F) : Test F :=
  let current := t.current.reset p.touched
  { t with current, resetWrite := some ⟨current, none⟩ }

/-- The reset failed. -/
def failReset (t : Test F) (err : String) : Test F := { t with resetErr := err, pc := .revoke }

/-- The first part of the deferred function. -/
def reset (p : TestPlan F) (t : Test F) (e : Env) : Test F :=
  if t.wrote then
    match e.applied with
    | some err => (t.applyReset p).failReset err
    | none => (t.applyReset p).track .resetSent
  else { t with resetOK := true, pc := .finish }

/-- The receipt of the reset is read from its channel. -/
def noteReset (t : Test F) (r : SendReceipt) : Test F :=
  { t with resetWrite := t.resetWrite.map ({ · with receipt := some r }) }

/-- The reset was sent. -/
def confirmReset (t : Test F) (r : SendReceipt) : Test F :=
  { t with
    resetOK := true
    resetAt := some r.appTime
    resetFromStart := t.receipts.head?.bind fun first ↦
      finite (inMilliseconds (r.sentAt.sub first.sentAt))
    pc := .finish }

/-- The case of a receipt in the `select` of the deferred function. -/
def acknowledgeReset (t : Test F) (r : SendReceipt) : Test F :=
  match r.err with
  | some err => t.failReset err
  | none =>
      if r.sentAt.isZero then t.failReset "missing reset send timestamp" else t.confirmReset r

/-- The `select` of the deferred function. -/
def awaitReset (t : Test F) (e : Env) : Test F :=
  match e.choice with
  | .receipt =>
      match t.pending.bind (·.receipt) with
      | some r => (t.noteReset r).acknowledgeReset r
      | none => t
  | .timer =>
      if t.now.before t.sendDeadline then t
      else t.failReset "reset frame was not confirmed within 1s"
  | _ => t

/-- The last locked section. -/
def finish (t : Test F) : Test F :=
  { t with
    status := { t.status with
      state := t.state
      phase := .finished
      error := t.reason
      resetConfirmed := t.resetOK
      resetAt := t.resetAt
      resetFromStartMS := t.resetFromStart
      finishedAt := some t.now }
    cancelled := true
    pc := .finished }

/-! ## Steps -/

/-- One step of the worker. -/
def run (p : TestPlan F) (t : Test F) (e : Env) : Test F :=
  match t.pc with
  | .start =>
      { t with
        deadline := t.now.add p.timeout
        sendDeadline := t.now.add second
        pc := .loop }
  | .loop => if t.cancelled then t.exit .cancelled "" else { t with pc := .poll }
  | .poll =>
      -- Of two closed channels the `select` takes either.
      if t.watch.channels.failed && (e.choice == .failed || !t.watch.closed) then
        t.fail "GOOSE observation overflow; measurement invalid"
      else if t.watch.closed then t.fail "GOOSE receiver stopped"
      else { t with pc := .length }
  | .length =>
      if t.pending.isNone then { t with late := 0, pc := .drain t.watch.channels.frames.length }
      else { t with pc := .deadline }
  | .drain 0 => { t with pc := .deadline }
  | .drain (n + 1) => t.receive p (.drain n)
  | .deadline =>
      if !t.now.before t.deadline then t.exit .timeout "" else { t with pc := .expiry }
  | .expiry =>
      if !t.now.before t.inputDeadline && t.pending.isNone then t.fail "GOOSE input expired"
      else { t with pc := .due }
  | .due =>
      if t.pending.isNone && t.next < p.waveforms.length &&
          (t.next == 0 || !t.now.before (t.firstReceipt.sentAt.add (p.stepAt t.next))) then
        { t with pc := if 0 < t.next then .lateness else .ready }
      else { t with pc := .wait }
  | .lateness =>
      if p.limit < t.now.sub (t.firstReceipt.sentAt.add (p.stepAt t.next)) then
        t.fail "test step exceeded max_lateness_ms"
      else { t with pc := .ready }
  | .ready =>
      match e.ready with
      | some err => t.fail err
      | none => { t with pc := .fence }
  | .fence => if t.cancelled || e.revoked then t.exit .cancelled "" else { t with pc := .write }
  | .write => t.write p e
  | .sent => { t with sendDeadline := t.now.add second, pc := .wait }
  | .wait => t.select p e
  | .unwind =>
      { t with
        watch := t.watch.deregister t.log.length
        status := { t.status with phase := .resetting }
        pc := .reset }
  | .reset => t.reset p e
  | .resetSent => { t with sendDeadline := t.now.add second, pc := .resetWait }
  | .resetWait => t.awaitReset e
  | .revoke => { t with pc := .finishSequences }
  | .finishSequences => { t with pc := .closeAgent }
  | .closeAgent =>
      { t with
        state := .failed
        reason := t.reason ++ "; output reset failed: " ++ t.resetErr ++
          "; publishers stopped (error: " ++ e.closed.getD "<nil>" ++ ")"
        pc := .finish }
  | .finish => t.finish
  | .finished => t

/-- The publisher puts a receipt into the channel of the last tracked write.  A frame is stamped
between the call, whose settings it carries, and the completion of its tracker. -/
def complete (t : Test F) (r : SendReceipt) : Test F :=
  match t.pending with
  | some ⟨calledAt, none⟩ =>
      if r.err.isNone ∧ ¬ (calledAt ≤ r.sentAt ∧ r.sentAt ≤ t.now) then t
      else { t with pending := some ⟨calledAt, some r⟩ }
  | _ => t

/-- The receiver accepts a frame and offers it to the watch. -/
def accept (t : Test F) (a : Accepted) : Test F :=
  let watch := t.watch.offer a.name a.observation
  { t with
    watch
    log := t.log ++ [a]
    late := t.late + (watch.channels.frames.length - t.watch.channels.frames.length) }

def step (p : TestPlan F) (t : Test F) : TestAction → Test F
  | .clock now => if t.now ≤ now then { t with now } else t
  | .frame a => t.accept a
  | .closeWatches =>
      { t with
        watch := { t.watch.deregister t.log.length with
          closed := t.watch.registered || t.watch.closed } }
  | .receipt r => t.complete r
  | .cancel => { t with cancelled := true }
  | .run e => t.run p e

end Test

end ProcessBus.Automation
