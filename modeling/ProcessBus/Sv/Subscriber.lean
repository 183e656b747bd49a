import ProcessBus.Lib.Table
import ProcessBus.Sv.Measurement

/-!
# The sampled values subscriber

`internal/application/svsub`: the continuity check of the sample counter, `handleMatch` and the
watchdog.  As in the GOOSE subscriber, everything about a stream depends on its own entry of
the table; `handleMatch_stream` is what a call does to the stream of its sample.
-/

namespace ProcessBus.Sv

open Go Lib

/-- `angleStability`. -/
structure AngleStability (F : Type) where
  badCount : ℤ
  goodCount : ℤ
  unstable : Bool
  lastAngle : F
  hasAngle : Bool

/-- `StreamStats`. -/
structure StreamStats (F : Type) where
  samplesReceived : UInt64
  gapEvents : UInt64
  missedTotal : UInt64
  lastSmpCnt : UInt16
  lastConfRev : UInt32
  smpSynch : UInt8
  simulation : Bool
  smpRate : UInt16
  frequencyHz : Channels F
  instant : Channels F
  rms : Channels F
  angle : Channels F
  quality : Channels UInt32

/-- `streamKey`, with the destination address as bytes. -/
structure StreamKey where
  dstMAC : Bytes
  appID : UInt16
  svID : Bytes
deriving DecidableEq

/-- `streamState`. -/
structure StreamState (F : Type) where
  sub : Subscription
  lastSmpCnt : UInt16
  lastConfRev : UInt32
  lastSynch : UInt8
  lastSeenAt : Time
  lastASDU : Option ASDU
  seen : Bool
  lost : Bool
  samplesReceived : UInt64
  gapEvents : UInt64
  missedTotal : UInt64
  lastStatsAt : Time
  lastSnapshotAt : Time
  sampleIndex : UInt64
  freq : Channels (FrequencyEstimator F)
  window : SampleWindow F
  angleStability : Channels (AngleStability F)
  latestStats : Option (StreamStats F)
  measuredAt : Time
  rmsReady : Bool

/-- `EventReason`, as far as `handleMatch` and the watchdog use it. -/
inductive EventReason
  | firstSeen | streamLost | streamRestored | smpCntGap | confRevChanged | syncChanged
deriving DecidableEq, Repr

/-- `Event`. -/
structure Event where
  reason : EventReason
  subscription : String
  asdu : Option ASDU
  receivedAt : Time
  expectedSmpCnt : UInt16 := 0
  actualSmpCnt : UInt16 := 0
  missedSamples : ℤ := 0
  prevConfRev : UInt32 := 0
  prevSmpSynch : UInt8 := 0

/-- The mutable state of `svsub.Service`. -/
structure Service (F : Type) where
  streams : Table StreamKey (StreamState F)

def streamKey (asdu : ASDU) : StreamKey := ⟨asdu.dstMAC, asdu.appID, asdu.svID⟩

/-! ## The sample counter -/

/-- `smpCntModulo`: the counter's modulus when the previous value lies in its upper half, and
zero when it says nothing about the modulus. -/
def smpCntModulo (smpRate timingFrequency previous : UInt16) : ℕ :=
  if smpRate = 0 then 0
  else if timingFrequency = 50 ∨ timingFrequency = 60 then
    let candidate := smpRate.toNat * timingFrequency.toNat
    if candidate / 2 ≤ previous.toNat ∧ previous.toNat < candidate then candidate else 0
  else
    [50, 60].foldl (fun best frequency ↦
      let candidate := smpRate.toNat * frequency
      if candidate ≤ previous.toNat ∨ previous.toNat < candidate / 2 then best
      else if best = 0 ∨ candidate < best then candidate
      else best) 0

/-- The results of `smpCntGap`. -/
structure Gap where
  expected : UInt16
  missed : ℤ
  forward : Bool
deriving DecidableEq, Repr

/-- `smpCntGap`. -/
def smpCntGap (previous current smpRate timingFrequency : UInt16) : Gap :=
  let expected := previous + 1
  if current = expected then ⟨expected, 0, true⟩
  else if current = previous then ⟨expected, 0, false⟩
  else if previous < current then
    ⟨expected, (current.toNat : ℤ) - previous.toNat - 1, true⟩
  else
    let modulo :=
      if smpCntModulo smpRate timingFrequency previous = 0 then 65536
      else smpCntModulo smpRate timingFrequency previous
    let missed : ℤ := (modulo : ℤ) - previous.toNat - 1 + current.toNat
    if missed < 0 ∨ (modulo : ℤ) / 2 ≤ missed then ⟨expected, 0, false⟩
    else ⟨expected, missed, true⟩

/-- `effectiveSampleTimingFrequency`. -/
def effectiveSampleTimingFrequency (sub : Subscription) : UInt16 := sub.sampleTimingFrequency

/-- `effectiveSmpRate`. -/
def effectiveSmpRate (asdu : ASDU) (sub : Subscription) : UInt16 :=
  if asdu.smpRate ≠ 0 then asdu.smpRate else if sub.smpRate ≠ 0 then sub.smpRate else 80

/-! ## Operations -/

variable {F : Type} [Float64 F]

namespace StreamState

/-- A stream entry before its first sample. -/
def new (F : Type) [Float64 F] (sub : Subscription) (lastStatsAt : Time) : StreamState F where
  sub := sub
  lastSmpCnt := 0
  lastConfRev := 0
  lastSynch := 0
  lastSeenAt := .zero
  lastASDU := none
  seen := false
  lost := false
  samplesReceived := 0
  gapEvents := 0
  missedTotal := 0
  lastStatsAt := lastStatsAt
  lastSnapshotAt := .zero
  sampleIndex := 0
  freq := .replicate _ (.empty F)
  window := .empty F 0
  angleStability := .replicate _ ⟨0, 0, false, Float64.ofInt 0, false⟩
  latestStats := none
  measuredAt := .zero
  rmsReady := false

/-- `resetMeasurements`. -/
def resetMeasurements (st : StreamState F) : StreamState F :=
  { st with
    latestStats := none
    measuredAt := .zero
    rmsReady := false
    window := st.window.reset
    freq := .replicate _ (.empty F)
    angleStability := .replicate _ ⟨0, 0, false, Float64.ofInt 0, false⟩ }

variable (st : StreamState F) (sub : Subscription) (asdu : ASDU)

def confRevChanged : Bool := st.seen && asdu.confRev != st.lastConfRev

/-- The continuity of the sample with the last accepted one. -/
def gap : Gap :=
  smpCntGap st.lastSmpCnt asdu.smpCnt (effectiveSmpRate asdu sub)
    (effectiveSampleTimingFrequency sub)

/-- Continuity is only judged on a running stream of one configuration. -/
def judged : Bool := st.seen && !st.lost && !st.confRevChanged asdu

/-- The guard of the early return: duplicate and reordered samples. -/
def ignores : Bool :=
  st.judged asdu && asdu.smpCnt != (st.gap sub asdu).expected && !(st.gap sub asdu).forward

def hasGap : Bool :=
  st.judged asdu && asdu.smpCnt != (st.gap sub asdu).expected && (st.gap sub asdu).forward &&
    decide (0 < (st.gap sub asdu).missed)

/-- The stream state after an accepted sample. -/
def accept (receivedAt : Time) : StreamState F :=
  let missed := (st.gap sub asdu).missed
  let st₁ :=
    if st.lost || st.confRevChanged asdu || st.hasGap sub asdu then st.resetMeasurements else st
  let st₂ :=
    if st.hasGap sub asdu then
      { st₁ with
        gapEvents := st₁.gapEvents + 1
        missedTotal := st₁.missedTotal + UInt64.ofInt missed }
    else st₁
  let sampleIndex := st₂.sampleIndex + 1
  { st₂ with
    lastSmpCnt := asdu.smpCnt
    lastConfRev := asdu.confRev
    lastSynch := asdu.smpSynch
    lastSeenAt := receivedAt
    lastASDU := some asdu
    seen := true
    lost := false
    samplesReceived := st₂.samplesReceived + 1
    sampleIndex := sampleIndex
    window := st₂.window.add asdu (effectiveSmpRate asdu sub) sampleIndex
    freq := .ofFn fun ch ↦
      (st₂.freq.get ch).update receivedAt (asdu.physicalValue F ch) sampleIndex }

/-- The events of an accepted sample. -/
def events (receivedAt : Time) : List Event :=
  let event (reason : EventReason) : Event :=
    { reason := reason, subscription := sub.name, asdu := some asdu, receivedAt := receivedAt }
  let gap := st.gap sub asdu
  (if st.lost then [event .streamRestored] else []) ++
    if !st.seen then [event .firstSeen]
    else
      (if st.hasGap sub asdu then
        [{ event .smpCntGap with
            expectedSmpCnt := gap.expected
            actualSmpCnt := asdu.smpCnt
            missedSamples := gap.missed }]
        else []) ++
      (if st.confRevChanged asdu then
        [{ event .confRevChanged with prevConfRev := st.lastConfRev }]
        else []) ++
      (if asdu.smpSynch ≠ st.lastSynch then
        [{ event .syncChanged with prevSmpSynch := st.lastSynch }]
        else [])

end StreamState

/-- The stream entry that a sample is compared with; a missing one is created. -/
def Service.stream (s : Service F) (sub : Subscription) (receivedAt : Time) (key : StreamKey) :
    StreamState F :=
  (s.streams.lookup key).getD (.new F sub receivedAt)

/-- `receivedAt`: the capture time, or `time.Now()` when the capture has none. -/
def receivedAt (timestamp now : Time) : Time := if timestamp.isZero then now else timestamp

/-- `handleMatch`, with the events it sends to the sink; `timestamp` is the frame's capture
time. -/
def Service.handleMatch (s : Service F) (sub : Subscription) (asdu : ASDU)
    (timestamp now : Time) : Service F × List Event :=
  let receivedAt := receivedAt timestamp now
  let key := streamKey asdu
  let state := s.stream sub receivedAt key
  if state.ignores sub asdu then
    ({ s with streams := s.streams.insert key state }, [])
  else
    ({ s with streams := s.streams.insert key (state.accept sub asdu receivedAt) },
      state.events sub asdu receivedAt)

/-- `streamLostTimeout`. -/
def streamLostTimeout : Duration := 100000000

/-- Whether the watchdog finds a stream expired. -/
def StreamState.expired (st : StreamState F) (now : Time) : Bool :=
  st.seen && !st.lost && decide (streamLostTimeout < now.sub st.lastSeenAt)

/-- The body of the loop of `checkStale`. -/
def StreamState.expire (st : StreamState F) (now : Time) : StreamState F :=
  if st.expired now then { st with lost := true } else st

/-- `checkStale`, with the `stream_lost` events it sends, in the order of the entries. -/
def Service.checkStale (s : Service F) (now : Time) : Service F × List Event :=
  let lost := s.streams.vals.filter (·.expired now)
  ({ s with streams := Table.mapVal (fun _ st ↦ st.expire now) s.streams },
    lost.map fun st ↦
      { reason := .streamLost, subscription := st.sub.name, asdu := st.lastASDU,
        receivedAt := now })

/-- What a call does to the stream of its sample. -/
theorem handleMatch_stream (s : Service F) (sub : Subscription) (asdu : ASDU)
    (timestamp now : Time) :
    let t := receivedAt timestamp now
    let st := s.stream sub t (streamKey asdu)
    (s.handleMatch sub asdu timestamp now).1.stream sub t (streamKey asdu) =
      if st.ignores sub asdu then st else st.accept sub asdu t := by
  intro t st
  unfold Service.handleMatch
  dsimp only
  split <;> simp_all [Service.stream, AList.lookup_insert, t, st]

end ProcessBus.Sv
