import ProcessBus.Automation.Input
import ProcessBus.Goose.Encoder
import ProcessBus.Goose.Watch
import ProcessBus.Sv.Publisher

/-!
# Requests

The checks of `internal/application/automation` on a request before anything is written:
`prepareGoose`, `prepareSV`, `sequenceSchedule`, and those of `RunTest`, which end in a `TestPlan`.
What a plan promises the worker is part of its type.

The values of a GOOSE change are JSON; `decodeGooseValue`, which reads them, is a parameter of the
project.
-/

namespace ProcessBus.Automation

open Go Goose Goose.Subscriber Sv Sv.Publisher Float64 FloatMath

/-! ## The project -/

/-- `strings.HasPrefix`. -/
def hasPrefix (s start : String) : Bool := start.toList.isPrefixOf s.toList

/-- What `Prepare` freezes. -/
structure Project (Raw : Type) where
  revision : String
  streams : String → Option Stream
  descriptions : String → Option GooseStream
  gooseHeaders : String → PDU
  decodeGooseValue : String → Raw → Except String DataValue
  /-- A stream is stored under its own identifier. -/
  streams_id : ∀ {id s}, streams id = some s → s.id = id

/-- `stream`. -/
def Project.stream {Raw : Type} (a : Project Raw) (id protocol : String) (outputOnly : Bool) :
    Except String Stream :=
  match a.streams id with
  | some s =>
      if !hasPrefix id (protocol ++ "_pub/") && (!hasPrefix id (protocol ++ "_sub/") || outputOnly)
      then .error "unknown stream or wrong protocol/direction; use get_catalog"
      else .ok s
  | none => .error "unknown stream or wrong protocol/direction; use get_catalog"

/-! ## Sampled Values -/

/-- `svpub.Snapshot`, without the timing counters. -/
structure SVOutput (F : Type) where
  settings : Channels (ChannelSetting F)
  simulation : Bool
  synch : UInt8
  ready : Bool

/-- `SVChange`. -/
structure SVChange (F : Type) where
  signalID : String
  rms : Option F := none
  phase : Option F := none

/-- `SVSetRequest`. -/
structure SVSetRequest (F : Type) where
  streamID : String
  revision : String
  changes : List (SVChange F)

variable {Raw F : Type}

/-- `a == b` on two arrays of settings. -/
def settingsEqual [FloatMath F] (a b : Channels (ChannelSetting F)) : Bool :=
  (List.finRange numChannels).all fun ch ↦
    (a.get ch).rms == (b.get ch).rms && (a.get ch).phaseDeg == (b.get ch).phaseDeg &&
      (a.get ch).frequency == (b.get ch).frequency && (a.get ch).quality == (b.get ch).quality

/-- The channel of a signal. -/
def Stream.channel? (s : Stream) (signalID : String) : Option (Fin numChannels) :=
  (List.finRange numChannels).find? fun ch ↦ s.signals[ch.val]?.any (·.id == signalID)

/-- A change of the settings of one channel. -/
def SVChange.apply [FloatMod F] (change : SVChange F) (ch : Fin numChannels)
    (setting : ChannelSetting F) : Except String (ChannelSetting F) := do
  if change.rms.isNone && change.phase.isNone then throw "supply rms and/or phase_deg"
  let setting ← match change.rms with
    | none => pure setting
    | some rms =>
        if !isFinite rms || lt rms (ofInt 0) then throw "RMS must be finite and non-negative"
        if lt (ofInt maxInt32) (rms * sqrt2 * channelScale ch) then
          throw "RMS exceeds the SV raw int32 range"
        pure { setting with rms }
  match change.phase with
  | none => return setting
  | some phase =>
      if !isFinite phase then throw "phase must be finite"
      return { setting with phaseDeg := FloatMod.mod phase (ofInt 360) }

/-- The loop of `prepareSV`; `seen` are the signals changed before. -/
def changeChannels [FloatMod F] (s : Stream) :
    List (SVChange F) → List String → Channels (ChannelSetting F) →
      Except String (Channels (ChannelSetting F))
  | [], _, settings => .ok settings
  | change :: changes, seen, settings =>
      if change.signalID ∈ seen then .error "duplicate signal_id"
      else
        match s.channel? change.signalID with
        | none => .error "signal_id is not a channel of this output stream"
        | some ch =>
            match change.apply ch (settings.get ch) with
            | .error err => .error err
            | .ok setting =>
                changeChannels s changes (change.signalID :: seen)
                  (.ofFn fun i ↦ if i = ch then setting else settings.get i)

/-- `prepareSV`. -/
def Project.prepareSV [FloatMod F] (a : Project Raw) (req : SVSetRequest F) (s : Stream)
    (current : SVOutput F) : Except String (SVOutput F) := do
  if req.revision ≠ a.revision then throw "catalog_revision mismatch; call get_catalog"
  if req.changes.length = 0 ∨ numChannels < req.changes.length then
    throw "changes must contain 1 to 8 distinct channels"
  if s.signals.length ≠ numChannels then throw "publisher schema differs from catalog"
  if !current.ready then
    throw "engineer must apply the initial SV waveform in Manual before starting MCP"
  let settings ← changeChannels s req.changes [] current.settings
  return { current with settings }

/-! ## GOOSE -/

/-- `goosepub.Snapshot`, without the time of the last change. -/
structure GooseOutput where
  data : List DataValue
  test : Bool
  simulation : Bool

/-- `GooseChange`. -/
structure GooseChange (Raw : Type) where
  signalID : String
  value : Raw

/-- `GooseSetRequest`. -/
structure GooseSetRequest (Raw : Type) where
  streamID : String
  revision : String
  changes : List (GooseChange Raw)

/-- The loop of `prepareGoose`. -/
def Project.changeEntries (a : Project Raw) (s : Stream) :
    List (GooseChange Raw) → List String → List DataValue → Except String (List DataValue)
  | [], _, data => .ok data
  | change :: changes, seen, data =>
      if change.signalID ∈ seen then .error "duplicate signal_id"
      else
        match s.signals.zipIdx.find? (·.1.id == change.signalID) with
        | none => .error "signal_id is not a writable entry of this stream"
        | some (sig, index) =>
            match a.decodeGooseValue sig.type change.value with
            | .error err => .error (change.signalID ++ ": " ++ err)
            | .ok value =>
                a.changeEntries s changes (change.signalID :: seen) (data.set index value)

/-- `prepareGoose`. -/
def Project.prepareGoose (a : Project Raw) (req : GooseSetRequest Raw) (s : Stream)
    (current : GooseOutput) : Except String GooseOutput := do
  if req.revision ≠ a.revision then throw "catalog_revision mismatch; call get_catalog"
  if req.changes.length = 0 ∨ s.signals.length < req.changes.length then
    throw "changes must contain distinct configured signals"
  if current.data.length ≠ s.signals.length then throw "publisher schema differs from catalog"
  let data ← a.changeEntries s req.changes [] current.data
  let header := { a.gooseHeaders s.name with
    allData := data, numDatSetEntries := UInt32.ofNat data.length }
  -- Without the 14 octets of the Ethernet header.
  if 1500 < (encode header).length - 14 then throw "GOOSE data exceeds standard Ethernet MTU"
  return { current with data }

/-! ## Schedules -/

def maxSequenceSteps : ℕ := 1000
def maxSequences : ℕ := 64
def maxSequenceMS : Int64 := 24 * 60 * 60 * 1000

/-- `time.Duration(ms) * time.Millisecond`. -/
def milliseconds (ms : Int64) : Duration := ms * 1000000

/-- The loop of `sequenceSchedule`, from step `i` on. -/
def scheduleFrom : ℕ → Int64 → List (Option Int64) → Except String (List Duration)
  | _, _, [] => .ok []
  | i, total, delay :: delays =>
      match delay.filter fun d ↦ !(d < 0 || (0 < i && d == 0) || maxSequenceMS - total < d) with
      | none => .error (s!"step {i + 1}: after_ms is required, must be positive " ++
          "(first step may be zero), and total duration must not exceed 24 hours")
      | some d => (scheduleFrom (i + 1) (total + d) delays).map (milliseconds (total + d) :: ·)

/-- `sequenceSchedule`: the times of the steps, and the limit of their lateness in milliseconds. -/
def sequenceSchedule (delays : List (Option Int64)) (requestedLimit : Option Int64) :
    Except String (List Duration × Int64) :=
  let limit := requestedLimit.getD 100
  if limit < 1 ∨ 60000 < limit then .error "max_lateness_ms must be between 1 and 60000"
  else if delays.length = 0 ∨ maxSequenceSteps < delays.length then
    .error "steps must contain 1 to 1000 entries"
  else (scheduleFrom 0 0 delays).map (·, limit)

/-! ## Measured tests -/

/-- `SVStep`. -/
structure SVStep (F : Type) where
  afterMS : Option Int64
  changes : List (SVChange F)

/-- `TestExpectation`. -/
structure TestExpectation where
  streamID : String
  signalID : String
  edge : String

/-- `TestRequest`. -/
structure TestRequest (F : Type) where
  streamID : String
  revision : String
  steps : List (SVStep F)
  expect : TestExpectation
  timeoutMS : Int64
  measureFromStep : ℤ := 0
  maxLatenessMS : Option Int64 := none

/-- The loop of `RunTest` over the steps: the waveform of each, from step `i` on. -/
def Project.prepareWaveforms [FloatMod F] (a : Project Raw) (req : TestRequest F) (out : Stream) :
    ℕ → SVOutput F → List (SVStep F) → Except String (List (SVOutput F))
  | _, _, [] => .ok []
  | i, current, step :: steps =>
      match a.prepareSV ⟨req.streamID, req.revision, step.changes⟩ out current with
      | .error err => .error s!"step {i + 1}: {err}"
      | .ok next =>
          if settingsEqual next.settings current.settings then
            .error s!"step {i + 1} does not change the waveform"
          else (a.prepareWaveforms req out (i + 1) next steps).map (next :: ·)

/-- The channels that the steps change. -/
def TestRequest.touched (req : TestRequest F) (out : Stream) (ch : Fin numChannels) : Bool :=
  req.steps.any fun step ↦ step.changes.any fun change ↦
    out.signals[ch.val]?.any (change.signalID == ·.id)

/-- A `testPlan` before it has a watch. -/
structure Stimulus (F : Type) where
  timeoutMS : Int64
  measureFromStep : ℕ
  schedule : List Duration
  waveforms : List (SVOutput F)
  touched : Fin numChannels → Bool
  output : Stream
  limit : Duration
  /-- The level after the expected edge. -/
  target : Bool
  timeout_pos : 1 ≤ timeoutMS
  timeout_le : timeoutMS ≤ 60000
  measure_pos : 1 ≤ measureFromStep
  measure_le : measureFromStep ≤ waveforms.length

/-- A `testPlan` with the baseline of its watch. -/
structure TestPlan (F : Type) extends Stimulus F where
  input : Input
  /-- The time of the baseline. -/
  observedAt : Time
  baseline_value : input.value input.baseline = .ok !target
  observedAt_ne : observedAt.isZero = false

theorem length_prepareWaveforms [FloatMod F] {a : Project Raw} {req : TestRequest F} {out : Stream}
    {i : ℕ} {current : SVOutput F} {steps : List (SVStep F)} {waveforms : List (SVOutput F)}
    (h : a.prepareWaveforms req out i current steps = .ok waveforms) :
    waveforms.length = steps.length := by
  induction steps generalizing i current waveforms with
  | nil =>
      cases h
      rfl
  | cons step steps ih =>
      rw [Project.prepareWaveforms] at h
      cases hnext : a.prepareSV ⟨req.streamID, req.revision, step.changes⟩ out current with
      | error err =>
          rw [hnext] at h
          cases h
      | ok next =>
          rw [hnext] at h
          obtain ⟨-, h⟩ := guard_eq_ok.mp h
          cases hrest : a.prepareWaveforms req out (i + 1) next steps with
          | error err =>
              rw [hrest] at h
              cases h
          | ok rest =>
              rw [hrest] at h
              cases h
              rw [List.length_cons, List.length_cons, ih hrest]

/-- The answer of the agent's `GooseOutput` or `SVOutput`. -/
abbrev Answer (α : Type) := Except String (α × Supervisor.Status)

/-- The checks of `RunTest` on the input: its stream, its description and the path of the signal. -/
def Project.expectedInput (a : Project Raw) (expect : TestExpectation) :
    Except String (Stream × GooseStream × List ℕ) :=
  match a.stream expect.streamID "goose" false with
  | .error _ => .error "expect.stream_id must be a GOOSE input"
  | .ok inp =>
      if !hasPrefix inp.id "goose_sub/" then .error "expect.stream_id must be a GOOSE input"
      else
        match a.descriptions inp.id, booleanSignalPath expect.signalID [] 0 inp.signals with
        | some desc, some path => .ok (inp, desc, path)
        | _, _ => .error "expect.signal_id must be a concrete ICD-described BOOLEAN input"

/-- The checks of `RunTest` on the steps, for the output `out`. -/
def Project.stimulus [FloatMod F] (a : Project Raw) (req : TestRequest F) (out : Stream)
    (svOutput : Answer (SVOutput F)) : Except String (Stimulus F) :=
  if req.expect.edge ≠ "rising" ∧ req.expect.edge ≠ "falling" then
    .error "expect.edge must be rising or falling"
  else if htimeout : req.timeoutMS < 1 ∨ 60000 < req.timeoutMS then
    .error "timeout_ms must be between 1 and 60000"
  else
    let measure := if req.measureFromStep = 0 then 1 else req.measureFromStep
    if hmeasure : measure < 1 ∨ req.steps.length < measure then
      .error "measure_from_step must name a 1-based step"
    else
      match sequenceSchedule (req.steps.map (·.afterMS)) req.maxLatenessMS with
      | .error err => .error err
      | .ok (schedule, limit) =>
          if schedule.headD 0 ≠ 0 ∨ milliseconds req.timeoutMS ≤ schedule.getLastD 0 then
            .error "first after_ms must be zero; all steps must be before timeout_ms"
          else
            match svOutput with
            | .error err => .error err
            | .ok (current, status) =>
                if status ≠ .running then .error "SV publisher is not running"
                else
                  match hwaveforms : a.prepareWaveforms req out 0 current req.steps with
                  | .error err => .error err
                  | .ok waveforms =>
                      .ok
                        { timeoutMS := req.timeoutMS
                          measureFromStep := measure.toNat
                          schedule
                          waveforms
                          touched := req.touched out
                          output := out
                          limit := milliseconds limit
                          target := req.expect.edge == "rising"
                          timeout_pos := Int64.not_lt.mp (not_or.mp htimeout).1
                          timeout_le := Int64.not_lt.mp (not_or.mp htimeout).2
                          measure_pos := by omega
                          measure_le := by
                            rw [length_prepareWaveforms hwaveforms]
                            omega }

/-- The rest of `RunTest`'s checks, on the snapshots of the watch. -/
def Stimulus.arm (p : Stimulus F) (inp : Stream) (desc : GooseStream) (path : List ℕ)
    (initial : List Snapshot) : Except String (TestPlan F) :=
  match initial with
  | [⟨some baseline, _, observedAt, false⟩] =>
      let input : Input := ⟨inp, desc, path, baseline⟩
      match hvalue : input.value baseline with
      | .error err => .error err
      | .ok value =>
          if htarget : value = p.target then
            .error "expected input already at target level; reset it before testing"
          else if hzero : observedAt.isZero then
            .error "GOOSE input has no application receive timestamp"
          else
            .ok
              { p with
                input
                observedAt
                baseline_value := by rw [hvalue, Bool.eq_not_of_ne htarget]
                observedAt_ne := Bool.eq_false_of_not_eq_true hzero }
  | _ => .error "test requires one fresh, unambiguous GOOSE input"

/-- The checks of `RunTest` on a request; `observe` is what `ObserveGoose` answers. -/
def Project.plan [FloatMod F] (a : Project Raw) (req : TestRequest F)
    (svOutput : Answer (SVOutput F)) (observe : String → Except String (List Snapshot)) :
    Except String (TestPlan F) := do
  let out ← a.stream req.streamID "sv" true
  let (inp, desc, path) ← a.expectedInput req.expect
  let stimulus ← a.stimulus req out svOutput
  let initial ← observe inp.name
  stimulus.arm inp desc path initial

end ProcessBus.Automation
