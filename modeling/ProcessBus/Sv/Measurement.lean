import ProcessBus.Go.Bytes
import ProcessBus.Go.Float
import ProcessBus.Go.Time

/-!
# Sampled values and their measurements

`internal/domain/sv` and the measuring parts of `internal/application/svsub`: the decoded
sample, the ring of recent samples and the zero-crossing frequency estimator.

The ring keeps its own bounds as fields, so that the slot it writes always exists.
-/

namespace ProcessBus.Sv

open Go

/-- `NumChannels`: four currents and four voltages. -/
abbrev numChannels : ℕ := 8

/-- One value for every channel. -/
abbrev Channels (α : Type) := Vector α numChannels

/-- `ChUa`, the first voltage. -/
def chUa : ℕ := 4

/-- The part of `sv.ASDU` that the subscriber reads. -/
structure ASDU where
  dstMAC : Bytes
  appID : UInt16
  simulation : Bool
  svID : Bytes
  smpCnt : UInt16
  confRev : UInt32
  smpSynch : UInt8
  smpRate : UInt16
  channels : Channels Int32
  quality : Channels UInt32
deriving DecidableEq

/-- The part of `sv.Subscription` that `handleMatch` reads; the filters have been applied
before it is called. -/
structure Subscription where
  name : String
  smpRate : UInt16
  sampleTimingFrequency : UInt16
deriving DecidableEq

variable {F : Type} [Float64 F]

/-- `PhysicalValue`: volts from the first voltage on, amperes before. -/
def ASDU.physicalValue (F : Type) [Float64 F] (a : ASDU) (ch : Fin numChannels) : F :=
  if chUa ≤ ch then Float64.ofInt (a.channels.get ch).toInt / Float64.ofInt 100
  else Float64.ofInt (a.channels.get ch).toInt / Float64.ofInt 1000

/-! ## The sample window -/

/-- `sampleWindow`: a ring of the last samples.  The columns have the ring's size, and the
position is a slot of it unless the ring has not been sized yet. -/
structure SampleWindow (F : Type) where
  size : ℕ
  values : Channels (Vector F size)
  index : Vector UInt64 size
  sumSquares : Channels F
  pos : ℕ
  count : ℕ
  pos_lt : 0 < size → pos < size
  count_le : count ≤ size

/-- `phasorWindowPeriods`. -/
def phasorWindowPeriods : ℕ := 32

/-- The capacity that `add` asks for. -/
def windowSize (smpRate : UInt16) : ℕ :=
  let size := smpRate.toNat * phasorWindowPeriods
  min (if size = 0 then 80 * phasorWindowPeriods else size) 8192

theorem windowSize_pos (smpRate : UInt16) : 0 < windowSize smpRate := by
  unfold windowSize phasorWindowPeriods
  dsimp only
  split <;> omega

namespace SampleWindow

/-- A window of a given size with nothing in it; the zero value has size 0. -/
def empty (F : Type) [Float64 F] (size : ℕ) : SampleWindow F where
  size := size
  values := .replicate _ (.replicate _ (Float64.ofInt 0))
  index := .replicate _ 0
  sumSquares := .replicate _ (Float64.ofInt 0)
  pos := 0
  count := 0
  pos_lt := id
  count_le := Nat.zero_le _

/-- `reset`: the columns keep their old contents. -/
def reset (w : SampleWindow F) : SampleWindow F :=
  { w with
    sumSquares := .replicate _ (Float64.ofInt 0)
    pos := 0
    count := 0
    pos_lt := id
    count_le := Nat.zero_le _ }

/-- The reallocation at the head of `add`. -/
def resize (w : SampleWindow F) (size : ℕ) : SampleWindow F :=
  if w.size = size then w else empty F size

theorem resize_size (w : SampleWindow F) (size : ℕ) : (w.resize size).size = size := by
  unfold resize
  split
  · assumption
  · rfl

/-- `add`, on a window of the right size. -/
def push (w : SampleWindow F) (hw : 0 < w.size) (asdu : ASDU) (sampleIndex : UInt64) :
    SampleWindow F :=
  have hpos := w.pos_lt hw
  { size := w.size
    values := .ofFn fun ch ↦ (w.values.get ch).set w.pos (asdu.physicalValue F ch)
    index := w.index.set w.pos sampleIndex
    sumSquares := .ofFn fun ch ↦
      let sum := w.sumSquares.get ch
      let old := (w.values.get ch).get ⟨w.pos, hpos⟩
      let sum := if w.count = w.size then sum - old * old else sum
      let value := asdu.physicalValue F ch
      sum + value * value
    pos := (w.pos + 1) % w.size
    count := if w.count < w.size then w.count + 1 else w.count
    pos_lt := Nat.mod_lt _
    count_le := by
      have h := w.count_le
      split <;> omega }

/-- `add`. -/
def add (w : SampleWindow F) (asdu : ASDU) (smpRate : UInt16) (sampleIndex : UInt64) :
    SampleWindow F :=
  (w.resize (windowSize smpRate)).push (by rw [resize_size]; exact windowSize_pos smpRate)
    asdu sampleIndex

end SampleWindow

/-! ## The frequency estimator -/

/-- `frequencyEstimator`. -/
structure FrequencyEstimator (F : Type) where
  lastValue : F
  lastTime : Time
  lastSample : UInt64
  crossings : List Time
  samples : List F
  valueHz : F
  initialized : Bool

/-- `Duration.Seconds`. -/
def seconds (F : Type) [Float64 F] (d : Duration) : F :=
  Float64.ofInt (d / 1000000000).toInt +
    Float64.ofInt (d % 1000000000).toInt / Float64.ofInt 1000000000

namespace FrequencyEstimator

/-- The zero value. -/
def empty (F : Type) [Float64 F] : FrequencyEstimator F where
  lastValue := Float64.ofInt 0
  lastTime := .zero
  lastSample := 0
  crossings := []
  samples := []
  valueHz := Float64.ofInt 0
  initialized := false

/-- `freq < minFrequencyHz || freq > maxFrequencyHz`. -/
def outOfBand (freq : F) : Bool :=
  Float64.lt freq (Float64.ofInt 40) || Float64.lt (Float64.ofInt 70) freq

/-- `addCrossing`. -/
def addCrossing (f : FrequencyEstimator F) (crossing : Time) (sampleCrossing : F) :
    FrequencyEstimator F :=
  let push (f : FrequencyEstimator F) : FrequencyEstimator F :=
    let crossings := f.crossings ++ [crossing]
    let samples := f.samples ++ [sampleCrossing]
    if 32 < crossings.length then
      { f with
        crossings := crossings.drop (crossings.length - 32)
        samples := samples.drop (samples.length - 32) }
    else { f with crossings := crossings, samples := samples }
  match f.crossings.getLast? with
  | none => push f
  | some last =>
      let period := seconds F (crossing.sub last)
      if Float64.le period (Float64.ofInt 0) then f
      else if outOfBand (Float64.ofInt 1 / period) then
        push { f with crossings := [], samples := [] }
      else push f

/-- `windowFrequency`. -/
def windowFrequency (f : FrequencyEstimator F) : F :=
  match f.crossings.head?, f.crossings.getLast? with
  | some first, some last =>
      let periods := f.crossings.length - 1
      let elapsed := seconds F (last.sub first)
      if periods = 0 || Float64.le elapsed (Float64.ofInt 0) then f.valueHz
      else
        let estimate := Float64.ofInt periods / elapsed
        if outOfBand estimate then f.valueHz else estimate
  | _, _ => f.valueHz

/-- `update`. -/
def update (f : FrequencyEstimator F) (now : Time) (value : F) (sampleIndex : UInt64) :
    FrequencyEstimator F :=
  let zero : F := Float64.ofInt 0
  let next := { f with lastValue := value, lastTime := now, lastSample := sampleIndex }
  if !f.initialized then { next with initialized := true }
  else if Float64.le zero f.lastValue || Float64.lt value zero then next
  else
    let den := value - f.lastValue
    if den == zero then next
    else
      let fraction := -f.lastValue / den
      if Float64.lt fraction zero || Float64.lt (Float64.ofInt 1) fraction then next
      else
        let elapsed : F := Float64.ofInt (now.sub f.lastTime).toInt
        let crossing := f.lastTime.add (Int64.ofInt (Float64.trunc (elapsed * fraction)))
        let last : F := Float64.ofInt f.lastSample.toNat
        let sampleCrossing := last + (Float64.ofInt sampleIndex.toNat - last) * fraction
        let next := next.addCrossing crossing sampleCrossing
        if next.crossings.length < 3 then next
        else
          let estimate := next.windowFrequency
          if next.valueHz == zero then { next with valueHz := estimate }
          else
            -- `frequencyFilterAlpha` and its complement, both exact constants.
            { next with valueHz := (0.97 : F) * next.valueHz + (0.03 : F) * estimate }

end FrequencyEstimator

end ProcessBus.Sv
