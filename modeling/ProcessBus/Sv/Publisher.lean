import ProcessBus.Go.Float
import ProcessBus.Sv.Encoder

/-!
# The Sampled Values publisher

`internal/application/svpub`: the waveform settings, the frame that is built from them, and the loop
that decides when one is sent.

`runScheduled` is a state machine over its wakeups.  A `Wakeup` is everything that the loop reads
while it is awake: the result of waiting, the application clock, the scheduler's clock, the clock's
status and what becomes of the frame.  `SetWaveform` may come between two wakeups.
-/

namespace ProcessBus.Sv.Publisher

open Go Goose

/-! ## Slots -/

/-- `nanosecondsPerSecond`. -/
def nanosecondsPerSecond : Int64 := 1000000000

/-- The fallback that every function below begins with. -/
def rateOr4000 (samplesPerSecond : Int64) : Int64 :=
  if samplesPerSecond ≤ 0 then 4000 else samplesPerSecond

/-- `sampleSlotAt`. -/
def sampleSlotAt (t : Time) (samplesPerSecond : Int64) : Int64 :=
  let rate := rateOr4000 samplesPerSecond
  Int64.ofInt t.unix * rate + Int64.ofInt t.nanosecond * rate / nanosecondsPerSecond

/-- `sampleSlotStart`. -/
def sampleSlotStart (slot samplesPerSecond : Int64) : Time :=
  let rate := rateOr4000 samplesPerSecond
  let seconds := slot / rate
  let remainder := slot % rate
  let (seconds, remainder) :=
    if remainder < 0 then (seconds - 1, remainder + rate) else (seconds, remainder)
  let nanoseconds := (remainder * nanosecondsPerSecond + rate - 1) / rate
  .ofUnix seconds.toInt nanoseconds.toInt

/-- `nextSecondSampleSlot`. -/
def nextSecondSampleSlot (t : Time) (samplesPerSecond : Int64) : Int64 :=
  (Int64.ofInt t.unix + 1) * rateOr4000 samplesPerSecond

/-! ## The service -/

/-- `PublisherConfig`, without the data set name, which is not transmitted. -/
structure PublisherConfig where
  name : String
  dstMAC : Bytes
  srcMAC : Bytes
  appID : UInt16
  svID : Bytes
  confRev : UInt32
  vlan : Option VLANTag
  smpRate : UInt16
  sampleTimingFrequency : UInt16
  smpSynch : UInt8

def PublisherConfig.samplesPerSecond (c : PublisherConfig) : Int64 :=
  Int64.ofNat c.smpRate.toNat * Int64.ofNat c.sampleTimingFrequency.toNat

def PublisherConfig.sampleInterval (c : PublisherConfig) : Duration :=
  let sps := c.samplesPerSecond
  if sps ≤ 0 then 250000 else nanosecondsPerSecond / sps

def PublisherConfig.smpCntModulo (c : PublisherConfig) : UInt16 :=
  let sps := c.samplesPerSecond
  if sps ≤ 0 ∨ 0x10000 < sps then 0 else UInt16.ofNat sps.toInt.toNat

/-- `ChannelSetting`. -/
structure ChannelSetting (F : Type) where
  rms : F
  phaseDeg : F
  frequency : F
  quality : UInt32

/-- `TimingStats`; `FramesPerSecond` is written by the monitor only. -/
structure TimingStats where
  framesSent : UInt64 := 0
  skippedSamples : UInt64 := 0
  lateWakeups : UInt64 := 0
  maxLateness : Duration := 0
deriving DecidableEq

/-- `SendReceipt`; `sentAt` is its `At`. -/
structure SendReceipt where
  sentAt : Time
  appTime : Time
  err : Option String
deriving DecidableEq

/-- `Service`.  A transmission tracker is the number of the call that it belongs to. -/
structure Service (F : Type) where
  cfg : PublisherConfig
  settings : Channels (ChannelSetting F)
  sim : Bool := false
  smpSynch : UInt8
  smpCnt : UInt16 := 0
  sample : UInt64 := 0
  timing : TimingStats := {}
  transmission : Option ℕ := none

/-- `New`. -/
def Service.new {F : Type} [Float64 F] (cfg : PublisherConfig) : Service F where
  cfg
  settings := .replicate numChannels
    { rms := Float64.ofInt 0
      phaseDeg := Float64.ofInt 0
      frequency := Float64.ofInt cfg.sampleTimingFrequency.toNat
      quality := 0 }
  smpSynch := cfg.smpSynch

/-- The errors of a waveform, with the channel. -/
inductive WaveformError (F : Type)
  | frequencyNotPositive (ch : Fin numChannels)
  | frequencyExceedsNyquist (ch : Fin numChannels) (frequency nyquist : F)
  | rmsNegative (ch : Fin numChannels)
  | phaseNotFinite (ch : Fin numChannels)
  | rmsExceedsRange (ch : Fin numChannels) (rms : F)
  | nonFinite (ch : Fin numChannels)
  | sampleExceedsRange (ch : Fin numChannels)

variable {F : Type} [FloatMath F]

open Float64 FloatMath

def maxInt32 : ℤ := 2 ^ 31 - 1

def channelScale (ch : Fin numChannels) : F := if chUa ≤ ch then ofInt 100 else ofInt 1000

/-- The checks of `setWaveform` on one channel. -/
def checkSetting (nyquist : F) (ch : Fin numChannels) (setting : ChannelSetting F) :
    Option (WaveformError F) :=
  if !isFinite setting.frequency || le setting.frequency (ofInt 0) then
    some (.frequencyNotPositive ch)
  else if lt nyquist setting.frequency then
    some (.frequencyExceedsNyquist ch setting.frequency nyquist)
  else if !isFinite setting.rms || lt setting.rms (ofInt 0) then some (.rmsNegative ch)
  else if !isFinite setting.phaseDeg then some (.phaseNotFinite ch)
  else
    let peakRaw := setting.rms * sqrt2 * channelScale ch
    if !isFinite peakRaw || lt (ofInt maxInt32) peakRaw then some (.rmsExceedsRange ch setting.rms)
    else none

/-- `setWaveform`: the service, and the receipt of a call that is superseded. -/
def setWaveform (s : Service F) (settings : Channels (ChannelSetting F)) (simulation : Bool)
    (smpSynch : UInt8) (transmission : Option ℕ) :
    Except (WaveformError F) (Service F × Option (ℕ × SendReceipt)) :=
  let nyquist : F := ofInt (rateOr4000 s.cfg.samplesPerSecond).toInt / ofInt 2
  match (List.finRange numChannels).findSome? fun ch ↦ checkSetting nyquist ch (settings.get ch) with
  | some err => .error err
  | none =>
      let superseded := s.transmission.map fun call ↦
        (call, ⟨.zero, .zero, some "waveform superseded before transmission"⟩)
      .ok ({ s with transmission, settings, sim := simulation, smpSynch }, superseded)

/-- The value of a channel before it is converted to `int32`. -/
def rawSample (sample : UInt64) (samplesPerSecond : Int64) (ch : Fin numChannels)
    (setting : ChannelSetting F) : F :=
  let phaseStep := ofInt 2 * pi * setting.frequency / ofInt samplesPerSecond.toInt
  let phase := remainder
    (ofInt sample.toNat * phaseStep + setting.phaseDeg * pi / ofInt 180) (ofInt 2 * pi)
  round (setting.rms * sqrt2 * sin phase * channelScale ch)

/-- The checks of `synthesizeChannels` on one channel. -/
def checkSample (sample : UInt64) (samplesPerSecond : Int64) (ch : Fin numChannels)
    (setting : ChannelSetting F) : Option (WaveformError F) :=
  if !isFinite setting.rms || !isFinite setting.phaseDeg || !isFinite setting.frequency then
    some (.nonFinite ch)
  else
    let raw := rawSample sample samplesPerSecond ch setting
    if !isFinite raw || lt raw (-ofInt maxInt32 - ofInt 1) || lt (ofInt maxInt32) raw then
      some (.sampleExceedsRange ch)
    else none

/-- `synthesizeChannels`. -/
def synthesizeChannels (sample : UInt64) (samplesPerSecond : Int64)
    (settings : Channels (ChannelSetting F)) :
    Except (WaveformError F) (Channels Int32 × Channels UInt32) :=
  let samplesPerSecond := rateOr4000 samplesPerSecond
  match (List.finRange numChannels).findSome? fun ch ↦
      checkSample sample samplesPerSecond ch (settings.get ch) with
  | some err => .error err
  | none => .ok
      (.ofFn fun ch ↦ Int32.ofInt (trunc (rawSample sample samplesPerSecond ch (settings.get ch))),
        settings.map (·.quality))

/-- `recordWakeup`. -/
def Service.recordWakeup (s : Service F) (skipped : UInt64) (lateness : Duration) : Service F :=
  let timing :=
    if 0 < lateness then
      { s.timing with
        lateWakeups := s.timing.lateWakeups + 1
        maxLateness := if s.timing.maxLateness < lateness then lateness else s.timing.maxLateness }
    else s.timing
  { s with timing := { timing with skippedSamples := timing.skippedSamples + skipped } }

/-- `alignToClockSlot`. -/
def Service.alignToClockSlot (s : Service F) (slot samplesPerSecond : Int64) : Service F :=
  if slot < 0 then { s with sample := 0, smpCnt := 0 }
  else
    { s with
      sample := slot.toUInt64
      smpCnt := (slot % samplesPerSecond).toUInt64.toUInt16 }

/-- `recordFrameSent`. -/
def Service.recordFrameSent (s : Service F) : Service F :=
  { s with timing := { s.timing with framesSent := s.timing.framesSent + 1 } }

/-- The errors of `transmit`. -/
inductive TransmitError (F : Type)
  | waveform (err : WaveformError F)
  | writeFrame (name err : String)

/-- What the world does to a frame: the two clock readings of its receipt, and the result of
`WriteFrame`. -/
structure Delivery where
  appTime : Time
  sentAt : Time
  err : Option String

/-- The frame that the sink gets; `none` is Go's `nil`. -/
def frameOf (asdu : Wire.ASDU) : Option Bytes := Wire.encode [asdu]

/-- `transmit`: the ASDU of the frame that was written, and the receipt of the tracked call. -/
def Service.transmit (s : Service F) (d : Delivery) :
    Except (TransmitError F) Wire.ASDU × Service F × Option (ℕ × SendReceipt) :=
  match synthesizeChannels s.sample s.cfg.samplesPerSecond s.settings with
  | .error err => (.error (.waveform err), s, none)
  | .ok (channels, quality) =>
      let asdu : Wire.ASDU :=
        { dstMAC := s.cfg.dstMAC
          srcMAC := s.cfg.srcMAC
          vlan := s.cfg.vlan
          appID := s.cfg.appID
          svID := s.cfg.svID
          smpCnt := s.smpCnt
          confRev := s.cfg.confRev
          simulation := s.sim
          smpSynch := s.smpSynch
          channels
          quality }
      let smpCnt := s.smpCnt + 1
      let modulo := s.cfg.smpCntModulo
      let receipt := s.transmission.map fun call ↦ (call, ⟨d.sentAt, d.appTime, d.err⟩)
      let s := { s with
        transmission := none
        smpCnt := if 0 < modulo ∧ modulo ≤ smpCnt then 0 else smpCnt
        sample := s.sample + 1 }
      match d.err with
      | some err => (.error (.writeFrame s.cfg.name err), s, receipt)
      | none => (.ok asdu, s, receipt)

/-! ## The loop -/

/-- The part of `clock.SourceStatus` that the loop reads. -/
structure SourceStatus (F : Type) where
  ptpEnabled : Bool
  frequencyPPB : F

/-- The rate of the application clock against the local one, if it corrects the frequency. -/
def SourceStatus.rate (status : SourceStatus F) : Option F :=
  if !status.ptpEnabled || status.frequencyPPB == ofInt 0 then none
  else
    let rate := ofInt 1 + status.frequencyPPB / ofInt 1000000000
    if le rate (ofInt 0) then none else some rate

/-- `sourceDurationToSystem`. -/
def sourceDurationToSystem (interval : Duration) (status : SourceStatus F) : Duration :=
  if interval ≤ 0 then interval
  else
    match status.rate with
    | none => interval
    | some rate =>
        let converted := Int64.ofInt (trunc (ofInt interval.toInt / rate))
        if converted ≤ 0 then 1 else converted

/-- `systemDurationToSource`. -/
def systemDurationToSource (interval : Duration) (status : SourceStatus F) : Duration :=
  if interval ≤ 0 then interval
  else
    match status.rate with
    | none => interval
    | some rate => Int64.ofInt (trunc (ofInt interval.toInt * rate))

/-- One wakeup.  The status may be read twice, the first time for the lateness that the timer
explains. -/
structure Wakeup (F : Type) where
  /-- The result of `WaitUntil`. -/
  waited : Bool
  /-- `ctx.Err() != nil`. -/
  cancelled : Bool
  clockNow : Time
  now : Time
  lateStatus : SourceStatus F
  status : SourceStatus F
  delivery : Delivery

/-- The variables of `runScheduled`; `result` is set when it has returned. -/
structure Loop (F : Type) where
  samplesPerSecond : Int64
  startupStepThreshold : Duration
  nextSlot : Int64
  nextDeadline : Time
  waitingForSecond : Bool
  startupBoundaryMisses : ℕ
  result : Option (Except (TransmitError F) Unit)

/-- Wait for a slot. -/
def Loop.await (l : Loop F) (slot : Int64) (clockNow now : Time) (status : SourceStatus F) :
    Loop F :=
  { l with
    nextSlot := slot
    nextDeadline := now.add
      (sourceDurationToSystem ((sampleSlotStart slot l.samplesPerSecond).sub clockNow) status) }

/-- The rate at the beginning of `runScheduled`. -/
def scheduledRate (cfg : PublisherConfig) (interval : Duration) : Int64 :=
  let samplesPerSecond :=
    if cfg.samplesPerSecond ≤ 0 ∧ 0 < interval then nanosecondsPerSecond / interval
    else cfg.samplesPerSecond
  rateOr4000 samplesPerSecond

/-- The part of `runScheduled` before the loop. -/
def Loop.start (cfg : PublisherConfig) (interval : Duration) (clockNow now : Time)
    (status : SourceStatus F) : Loop F :=
  let samplesPerSecond := scheduledRate cfg interval
  let l : Loop F :=
    { samplesPerSecond
      startupStepThreshold := if interval ≤ 0 then nanosecondsPerSecond / samplesPerSecond
        else interval
      nextSlot := 0
      nextDeadline := now
      waitingForSecond := true
      startupBoundaryMisses := 0
      result := none }
  l.await (nextSecondSampleSlot clockNow samplesPerSecond) clockNow now status

/-- What a wakeup leads to: waiting on, or a frame for a slot that is due. -/
inductive Aim (F : Type)
  | wait (l : Loop F)
  | send (nextSlot : Int64)

/-- The branches of the loop before a frame is sent. -/
def Loop.aim (l : Loop F) (w : Wakeup F) : Aim F :=
  let currentSlot := sampleSlotAt w.clockNow l.samplesPerSecond
  if l.waitingForSecond then
    let slotInSecond := currentSlot % l.samplesPerSecond
    let slotInSecond := if slotInSecond < 0 then slotInSecond + l.samplesPerSecond else slotInSecond
    if currentSlot < l.nextSlot then
      -- The timer woke early or the clock stepped backwards, perhaps behind an earlier second.
      let rebasedSlot := nextSecondSampleSlot w.clockNow l.samplesPerSecond
      .wait (l.await (if rebasedSlot < l.nextSlot then rebasedSlot else l.nextSlot) w.clockNow w.now
        w.status)
    else if l.nextSlot < currentSlot ∧ slotInSecond = 0 then .send currentSlot
    else if l.nextSlot < currentSlot then
      -- A step of the clock or a missed boundary: the same retry, but only the latter is counted.
      let clockLateness := w.clockNow.sub (sampleSlotStart l.nextSlot l.samplesPerSecond)
      let schedulerLateness := w.now.sub l.nextDeadline
      let schedulerLateness := if schedulerLateness < 0 then 0 else schedulerLateness
      let expectedClockLateness := systemDurationToSource schedulerLateness w.lateStatus
      let stepped := l.startupStepThreshold ≤ clockLateness - expectedClockLateness
      let l := { l with
        startupBoundaryMisses :=
          if stepped then l.startupBoundaryMisses else l.startupBoundaryMisses + 1 }
      .wait (l.await (nextSecondSampleSlot w.clockNow l.samplesPerSecond) w.clockNow w.now w.status)
    else .send l.nextSlot
  else if currentSlot < l.nextSlot then
    .wait (l.await (if 1 < l.nextSlot - currentSlot then currentSlot + 1 else l.nextSlot) w.clockNow
      w.now w.status)
  else .send l.nextSlot

/-- The service and its loop. -/
structure State (F : Type) where
  service : Service F
  loop : Loop F

/-- The state in which `runScheduled` enters its loop. -/
def State.start (service : Service F) (interval : Duration) (clockNow now : Time)
    (status : SourceStatus F) : State F where
  service
  loop := .start service.cfg interval clockNow now status

/-- What is seen of a wakeup: the clock reading, the frame, if one was written, and the counters. -/
structure Reading where
  clockNow : Time
  sent : Option Wire.ASDU
  before : TimingStats
  after : TimingStats

/-- A frame for a slot that is due. -/
def State.send (s : State F) (w : Wakeup F) (nextSlot : Int64) : State F × Reading :=
  let sps := s.loop.samplesPerSecond
  let currentSlot := sampleSlotAt w.clockNow sps
  let skipped := (currentSlot - nextSlot).toUInt64
  let lateness := w.clockNow.sub (sampleSlotStart nextSlot sps)
  let service := (s.service.recordWakeup skipped lateness).alignToClockSlot currentSlot sps
  match service.transmit w.delivery with
  | (.error err, service, _) =>
      ({ service, loop := { s.loop with nextSlot, result := some (.error err) } },
        ⟨w.clockNow, none, s.service.timing, service.timing⟩)
  | (.ok asdu, service, _) =>
      let service := service.recordFrameSent
      let loop := { s.loop with waitingForSecond := false }
      ({ service, loop := loop.await (currentSlot + 1) w.clockNow w.now w.status },
        ⟨w.clockNow, some asdu, s.service.timing, service.timing⟩)

/-- One turn of the loop. -/
def State.wake (s : State F) (w : Wakeup F) : State F × Option Reading :=
  if s.loop.result.isSome then (s, none)
  else if !w.waited || w.cancelled then
    ({ s with loop := { s.loop with result := some (.ok ()) } }, none)
  else
    match s.loop.aim w with
    | .wait loop =>
        ({ s with loop }, some ⟨w.clockNow, none, s.service.timing, s.service.timing⟩)
    | .send nextSlot =>
        let (s, reading) := s.send w nextSlot
        (s, some reading)

/-- The events of a publisher. -/
inductive Event (F : Type)
  | wakeup (w : Wakeup F)
  | setWaveform (settings : Channels (ChannelSetting F)) (simulation : Bool) (smpSynch : UInt8)
      (transmission : Option ℕ)

/-- A waveform that is rejected changes nothing. -/
def State.step (s : State F) : Event F → State F × Option Reading
  | .wakeup w => s.wake w
  | .setWaveform settings simulation smpSynch transmission =>
      match setWaveform s.service settings simulation smpSynch transmission with
      | .error _ => (s, none)
      | .ok (service, _) => ({ s with service }, none)

/-- The readings of a run, in order. -/
def State.trace (s : State F) : List (Event F) → List Reading
  | [] => []
  | e :: events => (s.step e).2.toList ++ State.trace (s.step e).1 events

end ProcessBus.Sv.Publisher
