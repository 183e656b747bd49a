import ProcessBus.Go.Float
import ProcessBus.Go.Time

/-!
# The clock servo

`internal/application/ptpclient/servo.go`, over any carrier with the operations of a `float64`.
`math.Pow` is a parameter of the one function that uses it.
-/

namespace ProcessBus.Ptp.Client

open Go

/-- `ServoState`. -/
inductive ServoState
  | unlocked | jump | locked | lockedStable
deriving DecidableEq, Repr

/-- `PIServo`.  `count` is the stage of the servo: no sample, one sample, tracking. -/
structure PIServo (F : Type) where
  offset0 : Int64
  offset1 : Int64
  local0 : UInt64
  local1 : UInt64
  drift : F
  kp : F
  ki : F
  lastFreq : F
  count : ℕ
  maxFrequency : F
  stepThreshold : F
  firstStepThreshold : F
  firstUpdate : Bool
  kpScale : F
  kpExponent : F
  kpNormMax : F
  kiScale : F
  kiExponent : F
  kiNormMax : F
  offsetThreshold : Int64
  numOffsetValues : ℤ
  currOffsetValues : ℤ

/-- `PIServoConfig`. -/
structure PIServoConfig (F : Type) where
  initialDrift : F
  maxFrequency : F
  stepThreshold : F
  firstStepThreshold : F
  softwareTS : Bool

/-- `abs64`. -/
def abs64 (v : Int64) : Int64 := if v < 0 then -v else v

namespace PIServo

variable {F : Type} [Float64 F]

/-- `clampFloat`. -/
def clampFloat (v lo hi : F) : F :=
  if Float64.lt v lo then lo else if Float64.lt hi v then hi else v

/-- `NewPIServo`. -/
def new (cfg : PIServoConfig F) : PIServo F :=
  let zero : F := Float64.ofInt 0
  let nsPerSec : F := Float64.ofInt 1000000000
  { offset0 := 0
    offset1 := 0
    local0 := 0
    local1 := 0
    drift := cfg.initialDrift
    kp := zero
    ki := zero
    lastFreq := cfg.initialDrift
    count := 0
    maxFrequency :=
      if Float64.le cfg.maxFrequency zero then Float64.ofInt 500000 else cfg.maxFrequency
    stepThreshold :=
      if Float64.lt zero cfg.stepThreshold then cfg.stepThreshold * nsPerSec else zero
    firstStepThreshold :=
      if Float64.lt zero cfg.firstStepThreshold then cfg.firstStepThreshold * nsPerSec else zero
    firstUpdate := true
    kpScale := if cfg.softwareTS then (0.1 : F) else (0.7 : F)
    kpExponent := -(0.3 : F)
    kpNormMax := (1.0 : F)
    kiScale := if cfg.softwareTS then (0.001 : F) else (0.3 : F)
    kiExponent := (0.4 : F)
    kiNormMax := (2.0 : F)
    offsetThreshold := 0
    numOffsetValues := 0
    currOffsetValues := 0 }

/-- `SyncInterval`. -/
def syncInterval (pow : F → F → F) (s : PIServo F) (interval : F) : PIServo F :=
  let kp := s.kpScale * pow interval s.kpExponent
  let ki := s.kiScale * pow interval s.kiExponent
  { s with
    kp := if Float64.lt (s.kpNormMax / interval) kp then s.kpNormMax / interval else kp
    ki := if Float64.lt (s.kiNormMax / interval) ki then s.kiNormMax / interval else ki }

/-- `float64(abs64(offset)) > threshold`, for a threshold that is in use. -/
def exceeds (offset : Int64) (threshold : F) : Bool :=
  Float64.lt (Float64.ofInt 0) threshold &&
    Float64.lt threshold (Float64.ofInt (abs64 offset).toInt)

/-- The second sample: estimate the drift once the two are far enough apart. -/
def estimate (s : PIServo F) (offset : Int64) : PIServo F × F × ServoState :=
  if s.local1 ≤ s.local0 then ({ s with count := 0 }, s.lastFreq, .unlocked)
  else
    let nsPerSec : F := Float64.ofInt 1000000000
    let elapsed : F := Float64.ofInt (s.local1 - s.local0).toNat
    let localDiff := elapsed / nsPerSec
    let localDiff := localDiff + localDiff * (0.001 : F)
    let interval := (0.016 : F) / s.ki
    let limit : F := Float64.ofInt 1000
    let interval := if Float64.lt limit interval then limit else interval
    if Float64.lt localDiff interval then (s, s.lastFreq, .unlocked)
    else
      let change : F := Float64.ofInt (s.offset1 - s.offset0).toInt
      let drift := s.drift + (nsPerSec - s.drift) * change / elapsed
      let drift := clampFloat drift (-s.maxFrequency) s.maxFrequency
      let state : ServoState :=
        if s.firstUpdate && exceeds offset s.firstStepThreshold || exceeds offset s.stepThreshold
        then .jump
        else .locked
      ({ s with drift := drift, count := 2 }, drift, state)

/-- Tracking: the proportional and integral terms, with the integral held at the limit. -/
def track (s : PIServo F) (offset : Int64) : PIServo F × F × ServoState :=
  if exceeds offset s.stepThreshold then ({ s with count := 0 }, s.lastFreq, .unlocked)
  else
    let off : F := Float64.ofInt offset.toInt
    let kiTerm := s.ki * off
    let ppb := s.kp * off + s.drift + kiTerm
    if Float64.lt ppb (-s.maxFrequency) then (s, -s.maxFrequency, .locked)
    else if Float64.lt s.maxFrequency ppb then (s, s.maxFrequency, .locked)
    else ({ s with drift := s.drift + kiTerm }, ppb, .locked)

/-- The stability check at the end of `Sample`. -/
def stabilize (s : PIServo F) (offset : Int64) (state : ServoState) : PIServo F × ServoState :=
  let (s, state) : PIServo F × ServoState :=
    if state = .locked ∧ 0 < s.offsetThreshold then
      if abs64 offset < s.offsetThreshold then
        let s := { s with currOffsetValues := s.currOffsetValues - 1 }
        (s, if s.currOffsetValues ≤ 0 then .lockedStable else .locked)
      else ({ s with currOffsetValues := s.numOffsetValues }, state)
    else (s, state)
  let s :=
    if state = .jump ∨ state = .unlocked then { s with currOffsetValues := s.numOffsetValues }
    else s
  let s := if state = .jump ∨ state = .locked then { s with firstUpdate := false } else s
  (s, state)

/-- `Sample`: the servo, the frequency correction and the servo state. -/
def sample (s : PIServo F) (offset : Int64) (localTS : UInt64) : PIServo F × F × ServoState :=
  let (s, ppb, state) : PIServo F × F × ServoState :=
    match s.count with
    | 0 => ({ s with offset0 := offset, local0 := localTS, count := 1 }, s.lastFreq, .unlocked)
    | 1 => estimate { s with offset1 := offset, local1 := localTS } offset
    | 2 => track s offset
    | _ => (s, s.lastFreq, .unlocked)
  let (s, state) := stabilize { s with lastFreq := ppb } offset state
  (s, ppb, state)

/-- `Reset`. -/
def reset (s : PIServo F) : PIServo F :=
  { s with count := 0, firstUpdate := true, currOffsetValues := s.numOffsetValues }

end PIServo

end ProcessBus.Ptp.Client
