import ProcessBus.Go.Expr
import ProcessBus.Go.Float
import ProcessBus.Lib.Run

/-!
# The clock of an autonomous grandmaster

A grandmaster without a time source of its own starts at the time of the host and then advances
with `CLOCK_MONOTONIC_RAW`; the time stamps of the hardware come from the clock of the network card
and are carried over with the rate between the two, which is measured again and again
(`internal/infrastructure/ptp/phc_clock.go`).

The rates are exact rationals here.  What Go says nothing about, the conversion of a `float64` that
has no place in an `int64`, is a parameter.
-/

namespace ProcessBus.Ptp

open Go Lib

def minPHCRateSampleInterval : Duration := 10000000

/-- Free-running clocks up to ±10,000 ppm are tolerated. -/
def maxPHCRateRatioError : ℚ := 1 / 100

def maxPHCRateResidual : Duration := 20000

def maxHardwareTimestampAge : Duration := 250000000

/-- One simultaneous sample of the clock of the card, `CLOCK_REALTIME` and `CLOCK_MONOTONIC_RAW`. -/
structure PHCCrossTimestamp where
  device : Time
  realtime : Time
  monoraw : Time
deriving DecidableEq

/-- The errors, with the numbers that their texts show. -/
inductive PHCError where
  /-- "PTP cross-timestamp contains a zero clock value" -/
  | zeroCrossTimestamp
  /-- "PTP timestamp conversion received a zero clock value" -/
  | zeroConversion
  /-- "PTP hardware timestamp age … is outside the supported range" -/
  | outsideAge (age : Duration)
  /-- "PTP hardware clock discontinuity: non-increasing cross-timestamp" -/
  | nonIncreasing
  /-- "PTP hardware clock discontinuity: PHC rate ratio … is outside the supported range" -/
  | rateRatio (candidate : ℚ)
  /-- "PTP hardware clock discontinuity: PHC rate residual …" -/
  | rateResidual (residual : Duration)
  /-- "PTP hardware clock rate is not calibrated" -/
  | uncalibrated
deriving DecidableEq

/-- `errors.Is(err, errPHCClockDiscontinuity)`. -/
def PHCError.isDiscontinuity : PHCError → Bool
  | nonIncreasing | rateRatio _ | rateResidual _ => true
  | zeroCrossTimestamp | zeroConversion | outsideAge _ | uncalibrated => false

structure AutonomousPHCClock where
  epochRealtime : Time
  epochMonoraw : Time
  rateDevice : Time
  rateMonoraw : Time
  rate : ℚ
  rateValid : Bool
deriving DecidableEq

def newAutonomousPHCClock (initial : PHCCrossTimestamp) : Except PHCError AutonomousPHCClock :=
  if initial.device.isZero || initial.realtime.isZero || initial.monoraw.isZero then
    .error .zeroCrossTimestamp
  else
    .ok
      { epochRealtime := initial.realtime
        epochMonoraw := initial.monoraw
        rateDevice := initial.device
        rateMonoraw := initial.monoraw
        rate := 1
        rateValid := false }

def absDuration (value : Duration) : Duration := if value < 0 then -value else value

section Clock

variable (outside : ℤ → Duration)

/-- `time.Duration(x)` of a `float64` without a fraction. -/
def toDuration (x : ℤ) : Duration := if Fits64 x then Int64.ofInt x else outside x

def scaleClockDuration (value : Duration) (rate : ℚ) : Duration :=
  toDuration outside (mathRound (value.toInt * rate))

namespace AutonomousPHCClock

/-- The clock at a reading of `CLOCK_MONOTONIC_RAW`. -/
def now (c : AutonomousPHCClock) (monoraw : Time) : Time :=
  c.epochRealtime.add (monoraw.sub c.epochMonoraw)

def resetRateAnchor (c : AutonomousPHCClock) (sample : PHCCrossTimestamp) : AutonomousPHCClock :=
  { c with rateDevice := sample.device, rateMonoraw := sample.monoraw, rateValid := false }

/-- Measures the rate between the last sample that was taken over and a new one. -/
def calibrate (c : AutonomousPHCClock) (sample : PHCCrossTimestamp) :
    AutonomousPHCClock × Option PHCError :=
  let deviceDelta := sample.device.sub c.rateDevice
  let monoDelta := sample.monoraw.sub c.rateMonoraw
  if deviceDelta ≤ 0 ∨ monoDelta ≤ 0 then (c.resetRateAnchor sample, some .nonIncreasing)
  -- too close: the next sample has a wider window
  else if deviceDelta < minPHCRateSampleInterval ∨ monoDelta < minPHCRateSampleInterval then
    (c, none)
  else
    let candidate : ℚ := monoDelta.toInt / deviceDelta.toInt
    if maxPHCRateRatioError < |candidate - 1| then
      (c.resetRateAnchor sample, some (.rateRatio candidate))
    else
      let predictedMono := c.rateMonoraw.add (scaleClockDuration outside deviceDelta c.rate)
      let residual := absDuration (sample.monoraw.sub predictedMono)
      if c.rateValid ∧ maxPHCRateResidual < residual then
        (c.resetRateAnchor sample, some (.rateResidual residual))
      else
        ({ c with
            rate := candidate
            rateValid := true
            rateDevice := sample.device
            rateMonoraw := sample.monoraw }, none)

/-- Carries a time stamp of the card over to the clock, with a sample that was taken behind it. -/
def convert (c : AutonomousPHCClock) (raw : Time) (sample : PHCCrossTimestamp) :
    AutonomousPHCClock × Except PHCError Time :=
  if raw.isZero || sample.device.isZero || sample.monoraw.isZero then (c, .error .zeroConversion)
  else
    let age := sample.device.sub raw
    if age < -1000000 ∨ maxHardwareTimestampAge < age then (c, .error (.outsideAge age))
    else
      match c.calibrate outside sample with
      | (c, some err) => (c, .error err)
      | (c, none) =>
          if c.rateValid then
            let serverAtSample := c.now sample.monoraw
            (c, .ok (serverAtSample.add
              (scaleClockDuration outside (raw.sub sample.device) c.rate)))
          else (c, .error .uncalibrated)

end AutonomousPHCClock

/-! ## Runs -/

/-- A call that reads a sample. -/
inductive PHCCall where
  | calibrate (sample : PHCCrossTimestamp)
  | convert (raw : Time) (sample : PHCCrossTimestamp)
deriving DecidableEq

/-- What it returns. -/
inductive PHCAnswer where
  | calibrated (err : Option PHCError)
  | converted (result : Except PHCError Time)

/-- The call has detected a discontinuity. -/
def PHCAnswer.isDiscontinuity : PHCAnswer → Bool
  | calibrated (some err) => err.isDiscontinuity
  | converted (.error err) => err.isDiscontinuity
  | calibrated none | converted (.ok _) => false

namespace PHCCall

def sample : PHCCall → PHCCrossTimestamp
  | calibrate sample => sample
  | convert _ sample => sample

/-- The call without the time of the host in its sample. -/
def withoutRealtime : PHCCall → PHCCall
  | calibrate sample => calibrate { sample with realtime := .zero }
  | convert raw sample => convert raw { sample with realtime := .zero }

def run (c : AutonomousPHCClock) : PHCCall → AutonomousPHCClock × PHCAnswer
  | calibrate sample => ((c.calibrate outside sample).1, .calibrated (c.calibrate outside sample).2)
  | convert raw sample =>
      ((c.convert outside raw sample).1, .converted (c.convert outside raw sample).2)

end PHCCall

/-- The clock after a call. -/
def afterCall (c : AutonomousPHCClock) (call : PHCCall) : AutonomousPHCClock :=
  (call.run outside c).1

/-- The answers to the calls of a run, the last one first. -/
def answers : AutonomousPHCClock → List PHCCall → List PHCAnswer :=
  history (afterCall outside) fun c call ↦ some (call.run outside c).2

/-- The samples of a run with the answers, the last one first. -/
def readings : AutonomousPHCClock → List PHCCall → List (PHCCrossTimestamp × PHCAnswer) :=
  history (afterCall outside) fun c call ↦ some (call.sample, (call.run outside c).2)

end Clock

/-- The samples that were taken at or after the last discontinuity that was detected, the last one
first. -/
def sinceDiscontinuity (initial : PHCCrossTimestamp) :
    List (PHCCrossTimestamp × PHCAnswer) → List PHCCrossTimestamp
  | [] => [initial]
  | (sample, answer) :: before =>
      if answer.isDiscontinuity then [sample] else sample :: sinceDiscontinuity initial before

/-- The rate `q` is what two samples show that are far enough apart; of the first one only the two
clocks count. -/
structure Observed (device monoraw : Time) (sample : PHCCrossTimestamp) (q : ℚ) : Prop where
  deviceApart : 10000000 ≤ sample.device.ns - device.ns
  monorawApart : 10000000 ≤ sample.monoraw.ns - monoraw.ns
  ratio : q = (sample.monoraw.sub monoraw).toInt / (sample.device.sub device).toInt
  near : |q - 1| ≤ 1 / 100

/-! ## One call -/

/-- What a call does to the clock, and whether it has detected a discontinuity. -/
inductive PHCEffect (c : AutonomousPHCClock) (sample : PHCCrossTimestamp) :
    AutonomousPHCClock → Bool → Prop
  | reset : PHCEffect c sample (c.resetRateAnchor sample) true
  | kept : PHCEffect c sample c false
  | updated {q : ℚ} (h : Observed c.rateDevice c.rateMonoraw sample q) :
      PHCEffect c sample
        { c with
          rate := q
          rateValid := true
          rateDevice := sample.device
          rateMonoraw := sample.monoraw } false

section Step

variable {outside : ℤ → Duration} {c : AutonomousPHCClock} {sample : PHCCrossTimestamp}

/-- A difference that is not below a bound after it was clamped is not below it before. -/
theorem le_of_le_saturate {k : Duration} (hk : -2 ^ 63 < k.toInt) {x : ℤ}
    (h : ¬ saturate x < k) : k.toInt ≤ x := by
  rw [Int64.lt_iff_toInt_lt, toInt_saturate] at h
  omega

theorem calibrate_effect (outside : ℤ → Duration) (c : AutonomousPHCClock)
    (sample : PHCCrossTimestamp) :
    PHCEffect c sample (c.calibrate outside sample).1
      (PHCAnswer.calibrated (c.calibrate outside sample).2).isDiscontinuity := by
  unfold AutonomousPHCClock.calibrate
  dsimp only
  split_ifs with hincrease hclose hratio hresidual
  · exact .reset
  · exact .kept
  · exact .reset
  · exact .reset
  · rw [not_or] at hclose
    exact .updated
      { deviceApart := le_of_le_saturate (by decide) hclose.1
        monorawApart := le_of_le_saturate (by decide) hclose.2
        ratio := rfl
        near := not_lt.mp hratio }

/-- A conversion fails before it calibrates, or it does what the calibration does. -/
theorem convert_cases (outside : ℤ → Duration) (c : AutonomousPHCClock) (raw : Time)
    (sample : PHCCrossTimestamp) :
    (∃ err : PHCError, err.isDiscontinuity = false ∧
        c.convert outside raw sample = (c, .error err)) ∨
      (c.convert outside raw sample).1 = (c.calibrate outside sample).1 ∧
        (PHCAnswer.converted (c.convert outside raw sample).2).isDiscontinuity =
          (PHCAnswer.calibrated (c.calibrate outside sample).2).isDiscontinuity := by
  unfold AutonomousPHCClock.convert
  dsimp only
  split_ifs with hzero hage
  · exact .inl ⟨_, rfl, rfl⟩
  · exact .inl ⟨_, rfl, rfl⟩
  · right
    rcases c.calibrate outside sample with ⟨c', err | _⟩
    · dsimp only
      split_ifs <;> exact ⟨rfl, rfl⟩
    · exact ⟨rfl, rfl⟩

theorem run_effect (outside : ℤ → Duration) (c : AutonomousPHCClock) (call : PHCCall) :
    PHCEffect c call.sample (afterCall outside c call) (call.run outside c).2.isDiscontinuity := by
  cases call with
  | calibrate sample => exact calibrate_effect outside c sample
  | convert raw sample =>
      have hcalibrate := calibrate_effect outside c sample
      rcases convert_cases outside c raw sample with ⟨err, herr, h⟩ | ⟨hclock, hanswer⟩
      · rw [afterCall, PHCCall.run, h]
        dsimp only [PHCAnswer.isDiscontinuity]
        rw [herr]
        exact .kept
      · rw [afterCall, PHCCall.run]
        dsimp only
        rw [hclock, hanswer]
        exact hcalibrate

/-- A call whose sample is no discontinuity detects none. -/
theorem run_quiet (call : PHCCall) (h : (c.calibrate outside call.sample).2 = none) :
    (call.run outside c).2.isDiscontinuity = false := by
  cases call with
  | calibrate sample =>
      rw [PHCCall.run]
      dsimp only
      rw [show (c.calibrate outside sample).2 = none from h]
      rfl
  | convert raw sample =>
      rcases convert_cases outside c raw sample with ⟨err, herr, hconvert⟩ | ⟨-, hanswer⟩
      · rw [PHCCall.run, hconvert]
        exact herr
      · refine hanswer.trans ?_
        rw [show (c.calibrate outside sample).2 = none from h]
        rfl

/-- A conversion that succeeds uses the rate that the clock has afterwards. -/
theorem convert_ok {raw t : Time} {c' : AutonomousPHCClock}
    (h : c.convert outside raw sample = (c', .ok t)) :
    c.calibrate outside sample = (c', none) ∧ c'.rateValid ∧
      -1000000 ≤ (sample.device.sub raw).toInt ∧ (sample.device.sub raw).toInt ≤ 250000000 ∧
      t = (c'.now sample.monoraw).add
        (scaleClockDuration outside (raw.sub sample.device) c'.rate) := by
  unfold AutonomousPHCClock.convert at h
  dsimp only at h
  split_ifs at h with hzero hage
  · nomatch h
  · nomatch h
  · rw [not_or, Int64.lt_iff_toInt_lt, Int64.lt_iff_toInt_lt, not_lt, not_lt] at hage
    rcases hcalibrate : c.calibrate outside sample with ⟨c'', err | _⟩
    · rw [hcalibrate] at h
      dsimp only at h
      split_ifs at h with hvalid
      · cases h
        exact ⟨rfl, hvalid, hage.1, hage.2, rfl⟩
      · nomatch h
    · rw [hcalibrate] at h
      nomatch h

end Step

/-! ## The rate in use -/

/-- The anchor and the rate come from samples since the last discontinuity. -/
structure RateSound (initial : PHCCrossTimestamp) (c : AutonomousPHCClock)
    (seen : List (PHCCrossTimestamp × PHCAnswer)) : Prop where
  anchor : ∃ x ∈ sinceDiscontinuity initial seen,
    x.device = c.rateDevice ∧ x.monoraw = c.rateMonoraw
  rate : c.rateValid → ∃ x y, [y, x].Sublist (sinceDiscontinuity initial seen) ∧
    Observed x.device x.monoraw y c.rate

/-- One call keeps it. -/
theorem RateSound.step {initial : PHCCrossTimestamp} {c : AutonomousPHCClock}
    {seen : List (PHCCrossTimestamp × PHCAnswer)} (h : RateSound initial c seen)
    (outside : ℤ → Duration) (call : PHCCall) :
    RateSound initial (afterCall outside c call)
      ((call.sample, (call.run outside c).2) :: seen) := by
  have heffect := run_effect outside c call
  revert heffect
  generalize afterCall outside c call = c'
  generalize hanswer : (call.run outside c).2.isDiscontinuity = discontinuity
  intro heffect
  obtain ⟨⟨x, hx, hdevice, hmonoraw⟩, hrate⟩ := h
  -- a quiet answer leaves the older samples in place
  have hsince : sinceDiscontinuity initial ((call.sample, (call.run outside c).2) :: seen) =
      if discontinuity then [call.sample]
      else call.sample :: sinceDiscontinuity initial seen := by
    rw [sinceDiscontinuity, hanswer]
  cases heffect with
  | reset =>
      refine ⟨⟨call.sample, ?_, rfl, rfl⟩, nofun⟩
      rw [hsince]
      exact List.mem_cons_self
  | kept =>
      constructor
      · rw [hsince]
        exact ⟨x, List.mem_cons_of_mem _ hx, hdevice, hmonoraw⟩
      · intro hvalid
        obtain ⟨x, y, hxy, hobserved⟩ := hrate hvalid
        rw [hsince]
        exact ⟨x, y, hxy.cons _, hobserved⟩
  | updated hobserved =>
      rw [← hdevice, ← hmonoraw] at hobserved
      constructor
      · rw [hsince]
        exact ⟨call.sample, List.mem_cons_self, rfl, rfl⟩
      · intro _
        rw [hsince]
        exact ⟨x, call.sample, (List.singleton_sublist.mpr hx).cons_cons _, hobserved⟩

theorem rateSound_initial {initial : PHCCrossTimestamp} {clock : AutonomousPHCClock}
    (h : newAutonomousPHCClock initial = .ok clock) : RateSound initial clock [] := by
  unfold newAutonomousPHCClock at h
  split at h
  · nomatch h
  · cases h
    exact ⟨⟨initial, List.mem_cons_self, rfl, rfl⟩, nofun⟩

/-- A run keeps it. -/
theorem rateSound_run {initial : PHCCrossTimestamp} {clock : AutonomousPHCClock}
    (h : newAutonomousPHCClock initial = .ok clock) (outside : ℤ → Duration)
    (calls : List PHCCall) :
    RateSound initial (calls.foldl (afterCall outside) clock) (readings outside clock calls) :=
  inv_history (K := RateSound initial) (fun _ _ call hsound ↦ hsound.step outside call)
    (rateSound_initial h) calls

/-! ## Clocks that run evenly -/

/-- The two clocks of a sample stand on a line. -/
def OnLine (a r : ℚ) (s : PHCCrossTimestamp) : Prop := (s.monoraw.ns : ℚ) = a + r * s.device.ns

/-- The second sample is later on both clocks. -/
def Increases (s u : PHCCrossTimestamp) : Prop := s.device < u.device ∧ s.monoraw < u.monoraw

/-- All samples of a run stand on one line that is not too steep, and successive ones increase. -/
structure Even (a r : ℚ) (initial : PHCCrossTimestamp) (calls : List PHCCall) : Prop where
  steepness : |r - 1| ≤ 1 / 100
  line : ∀ s ∈ initial :: calls.map PHCCall.sample, OnLine a r s
  increase : (initial :: calls.map PHCCall.sample).IsChain Increases

/-- The sample is taken before a `Duration` since the first one overflows, on both clocks. -/
def WithinDuration (initial s : PHCCrossTimestamp) : Prop :=
  s.device.ns - initial.device.ns < 2 ^ 63 ∧ s.monoraw.ns - initial.monoraw.ns < 2 ^ 63

/-- The call detects no discontinuity, and if it converts an event it returns the time of the clock
at the monotonic instant of the event, rounded to a nearest nanosecond. -/
def AnswersExactly (outside : ℤ → Duration) (a r : ℚ) (initial : PHCCrossTimestamp)
    (c : AutonomousPHCClock) (call : PHCCall) : Prop :=
  (call.run outside c).2.isDiscontinuity = false ∧
    ∀ raw sample t, call = .convert raw sample → (c.convert outside raw sample).2 = .ok t →
      |(t.ns : ℚ) - (initial.realtime.ns + (a + r * raw.ns - initial.monoraw.ns))| ≤ 1 / 2

/-- The clock on such a run. -/
structure Tracks (a r : ℚ) (initial : PHCCrossTimestamp) (c : AutonomousPHCClock) : Prop where
  epochRealtime : c.epochRealtime = initial.realtime
  epochMonoraw : c.epochMonoraw = initial.monoraw
  line : (c.rateMonoraw.ns : ℚ) = a + r * c.rateDevice.ns
  device : initial.device ≤ c.rateDevice
  monoraw : initial.monoraw ≤ c.rateMonoraw
  rate : c.rateValid → c.rate = r

/-- A sample that comes behind the anchor of the clock. -/
structure Fresh (a r : ℚ) (initial : PHCCrossTimestamp) (c : AutonomousPHCClock)
    (s : PHCCrossTimestamp) : Prop where
  line : OnLine a r s
  device : c.rateDevice < s.device
  monoraw : c.rateMonoraw < s.monoraw
  withinDuration : WithinDuration initial s

theorem toInt_timeSub {t u : Time} (h : Fits64 (t.ns - u.ns)) : (t.sub u).toInt = t.ns - u.ns :=
  (Expr.toInt_saturate_iff _).mpr h

section Even

variable {outside : ℤ → Duration} {a r : ℚ} {initial s : PHCCrossTimestamp}
  {c : AutonomousPHCClock}

/-- The differences to the anchor are exact, and they have the slope of the line. -/
theorem Tracks.delta (h : Tracks a r initial c) (hs : Fresh a r initial c s) :
    (s.device.sub c.rateDevice).toInt = s.device.ns - c.rateDevice.ns ∧
      (s.monoraw.sub c.rateMonoraw).toInt = s.monoraw.ns - c.rateMonoraw.ns ∧
      ((s.monoraw.ns - c.rateMonoraw.ns : ℤ) : ℚ) = (s.device.ns - c.rateDevice.ns : ℤ) * r := by
  have hdevice : c.rateDevice.ns < s.device.ns := hs.device
  have hmonoraw : c.rateMonoraw.ns < s.monoraw.ns := hs.monoraw
  have hfirst : initial.device.ns ≤ c.rateDevice.ns := h.device
  have hfirst' : initial.monoraw.ns ≤ c.rateMonoraw.ns := h.monoraw
  obtain ⟨hrange, hrange'⟩ := hs.withinDuration
  refine ⟨toInt_timeSub ⟨by omega, by omega⟩, toInt_timeSub ⟨by omega, by omega⟩, ?_⟩
  push_cast
  rw [hs.line, h.line]
  ring

theorem Tracks.ratio (h : Tracks a r initial c) (hs : Fresh a r initial c s) :
    ((s.monoraw.sub c.rateMonoraw).toInt : ℚ) / (s.device.sub c.rateDevice).toInt = r := by
  obtain ⟨hdevice, hmonoraw, hslope⟩ := h.delta hs
  have hpos : c.rateDevice.ns < s.device.ns := hs.device
  rw [hdevice, hmonoraw, hslope]
  refine mul_div_cancel_left₀ r (Int.cast_ne_zero.mpr ?_)
  omega

theorem toInt_toDuration (outside : ℤ → Duration) {x : ℤ} (h : Fits64 x) :
    (toDuration outside x).toInt = x := by
  rw [toDuration, if_pos h, toInt_ofInt h]

/-- A prediction with the slope of the line is right. -/
theorem Tracks.residual (h : Tracks a r initial c) (hs : Fresh a r initial c s)
    (outside : ℤ → Duration) :
    s.monoraw.sub (c.rateMonoraw.add
      (scaleClockDuration outside (s.device.sub c.rateDevice) r)) = 0 := by
  obtain ⟨hdevice, hmonoraw, hslope⟩ := h.delta hs
  have hfits : Fits64 (s.monoraw.ns - c.rateMonoraw.ns) := hmonoraw ▸ fits64_toInt _
  rw [scaleClockDuration, hdevice, ← hslope, mathRound_intCast, Time.add, Time.sub,
    toInt_toDuration outside hfits, add_sub_cancel, sub_self]
  rfl

/-- A sample on the line is no discontinuity. -/
theorem Tracks.calibrate (h : Tracks a r initial c) (hr : |r - 1| ≤ 1 / 100)
    (hs : Fresh a r initial c s) (outside : ℤ → Duration) :
    (c.calibrate outside s).2 = none := by
  have hincrease : ¬ (s.device.sub c.rateDevice ≤ 0 ∨ s.monoraw.sub c.rateMonoraw ≤ 0) := by
    obtain ⟨hdevice, hmonoraw, -⟩ := h.delta hs
    have hpos : c.rateDevice.ns < s.device.ns := hs.device
    have hpos' : c.rateMonoraw.ns < s.monoraw.ns := hs.monoraw
    rw [Int64.le_iff_toInt_le, Int64.le_iff_toInt_le, hdevice, hmonoraw, Int64.toInt_zero]
    omega
  have hresidual : ¬ (c.rateValid ∧ maxPHCRateResidual < absDuration (s.monoraw.sub
      (c.rateMonoraw.add (scaleClockDuration outside (s.device.sub c.rateDevice) c.rate)))) := by
    rintro ⟨hvalid, hlarge⟩
    rw [h.rate hvalid, h.residual hs] at hlarge
    exact absurd hlarge (by decide)
  have hratio : ¬ maxPHCRateRatioError < |r - 1| := not_lt.mpr hr
  unfold AutonomousPHCClock.calibrate
  dsimp only
  rw [if_neg hincrease, h.ratio hs, if_neg hratio, if_neg hresidual]
  split <;> rfl

/-- One call keeps it, if it detects no discontinuity. -/
theorem Tracks.step (h : Tracks a r initial c) (hs : Fresh a r initial c s)
    {c' : AutonomousPHCClock} (heffect : PHCEffect c s c' false) :
    Tracks a r initial c' ∧ (c'.rateDevice ≤ s.device ∧ c'.rateMonoraw ≤ s.monoraw) := by
  cases heffect with
  | kept => exact ⟨h, hs.device.le, hs.monoraw.le⟩
  | updated hobserved =>
      have hrate := hobserved.ratio.trans (h.ratio hs)
      refine ⟨⟨h.epochRealtime, h.epochMonoraw, hs.line, ?_, ?_, fun _ ↦ hrate⟩, le_rfl, le_rfl⟩
      · exact h.device.trans hs.device.le
      · exact h.monoraw.trans hs.monoraw.le

/-- The distance of an event from a sample is scaled within the range of a `Duration`. -/
theorem toInt_scaleClockDuration (outside : ℤ → Duration) (hr : |r - 1| ≤ 1 / 100)
    {value : Duration} (hlow : -250000000 ≤ value.toInt) (hhigh : value.toInt ≤ 1000000) :
    (scaleClockDuration outside value r).toInt = mathRound (value.toInt * r) := by
  have hlow' : (-250000000 : ℚ) ≤ value.toInt := by exact_mod_cast hlow
  have hhigh' : (value.toInt : ℚ) ≤ 1000000 := by exact_mod_cast hhigh
  have hvalue : |(value.toInt : ℚ)| ≤ 250000000 := abs_le.mpr ⟨hlow', by linarith⟩
  have hrate : |r| ≤ 2 := by
    rw [abs_le] at hr ⊢
    constructor <;> linarith
  have hproduct : |(value.toInt : ℚ) * r| ≤ 250000000 * 2 := by
    rw [abs_mul]
    exact mul_le_mul hvalue hrate (abs_nonneg r) (by norm_num)
  have hround := abs_mathRound_sub_le (value.toInt * r)
  rw [abs_le] at hproduct hround
  have hlower : (-600000000 : ℚ) ≤ mathRound (value.toInt * r) := by linarith
  have hupper : (mathRound (value.toInt * r) : ℚ) ≤ 600000000 := by linarith
  have hlowerInt : -600000000 ≤ mathRound (value.toInt * r) := by exact_mod_cast hlower
  have hupperInt : mathRound (value.toInt * r) ≤ 600000000 := by exact_mod_cast hupper
  exact toInt_toDuration outside ⟨by omega, by omega⟩

/-- A conversion is exact up to the last rounding. -/
theorem Tracks.convert (h : Tracks a r initial c) (hr : |r - 1| ≤ 1 / 100)
    (hs : Fresh a r initial c s) {raw t : Time}
    (hok : (c.convert outside raw s).2 = .ok t) :
    |(t.ns : ℚ) - (initial.realtime.ns + (a + r * raw.ns - initial.monoraw.ns))| ≤ 1 / 2 := by
  obtain ⟨hcalibrate, hvalid, hyoung, hold, rfl⟩ := convert_ok (Prod.ext rfl hok)
  have heffect := calibrate_effect outside c s
  rw [hcalibrate] at heffect
  obtain ⟨hafter, -⟩ := h.step hs heffect
  have hnow : (s.monoraw.sub initial.monoraw).toInt = s.monoraw.ns - initial.monoraw.ns := by
    have hfirst : initial.monoraw.ns ≤ c.rateMonoraw.ns := h.monoraw
    have hlater : c.rateMonoraw.ns < s.monoraw.ns := hs.monoraw
    have hrange := hs.withinDuration.2
    exact toInt_timeSub ⟨by omega, by omega⟩
  have hage : -250000000 ≤ raw.ns - s.device.ns ∧ raw.ns - s.device.ns ≤ 1000000 := by
    rw [Time.sub, toInt_saturate] at hyoung hold
    omega
  have hevent : (raw.sub s.device).toInt = raw.ns - s.device.ns :=
    toInt_timeSub ⟨by omega, by omega⟩
  have hscaled := toInt_scaleClockDuration outside hr (hevent ▸ hage.1) (hevent ▸ hage.2)
  rw [hafter.rate hvalid, Time.add, AutonomousPHCClock.now, hafter.epochRealtime,
    hafter.epochMonoraw, Time.add, hnow, hscaled, hevent]
  have hline := hs.line
  rw [OnLine] at hline
  have hround := abs_mathRound_sub_le ((raw.ns - s.device.ns : ℤ) * r)
  push_cast at hround ⊢
  rw [hline]
  convert hround using 2
  ring

/-- A run over samples that come behind the anchor. -/
theorem Tracks.run (hr : |r - 1| ≤ 1 / 100) (outside : ℤ → Duration) {calls : List PHCCall}
    (h : Tracks a r initial c) (hfresh : ∀ call ∈ calls, Fresh a r initial c call.sample)
    (hincrease : calls.Pairwise fun x y ↦ Increases x.sample y.sample) :
    Meets (afterCall outside) (AnswersExactly outside a r initial) c calls := by
  induction calls generalizing c with
  | nil => trivial
  | cons call calls ih =>
      have hs := hfresh call List.mem_cons_self
      have hquiet := run_quiet call (h.calibrate hr hs outside)
      have heffect := run_effect outside c call
      rw [hquiet] at heffect
      obtain ⟨hafter, hdevice, hmonoraw⟩ := h.step hs heffect
      obtain ⟨hfirst, hrest⟩ := List.pairwise_cons.mp hincrease
      refine ⟨⟨hquiet, ?_⟩, ih hafter ?_ hrest⟩
      · rintro raw sample t rfl hok
        exact h.convert hr hs hok
      · intro later hlater
        have hbefore := hfresh later (List.mem_cons_of_mem call hlater)
        have hbehind := hfirst later hlater
        exact ⟨hbefore.line, hdevice.trans_lt hbehind.1, hmonoraw.trans_lt hbehind.2,
          hbefore.withinDuration⟩

end Even

theorem tracks_initial {a r : ℚ} {initial : PHCCrossTimestamp} {clock : AutonomousPHCClock}
    (h : newAutonomousPHCClock initial = .ok clock) (hline : OnLine a r initial) :
    Tracks a r initial clock ∧ clock.rateDevice = initial.device ∧
      clock.rateMonoraw = initial.monoraw := by
  unfold newAutonomousPHCClock at h
  split at h
  · nomatch h
  · cases h
    exact ⟨⟨rfl, rfl, hline, le_rfl, le_rfl, nofun⟩, rfl, rfl⟩

/-- **A clock whose samples run evenly is exact.** -/
theorem even_exact {a r : ℚ} {initial : PHCCrossTimestamp} {clock : AutonomousPHCClock}
    (hnew : newAutonomousPHCClock initial = .ok clock) (outside : ℤ → Duration)
    {calls : List PHCCall} (heven : Even a r initial calls)
    (hrange : ∀ call ∈ calls, WithinDuration initial call.sample) :
    Meets (afterCall outside) (AnswersExactly outside a r initial) clock calls := by
  obtain ⟨htracks, hdevice, hmonoraw⟩ :=
    tracks_initial hnew (heven.line initial List.mem_cons_self)
  have : IsTrans PHCCrossTimestamp Increases :=
    ⟨fun _ _ _ hxy hyz ↦ ⟨hxy.1.trans hyz.1, hxy.2.trans hyz.2⟩⟩
  obtain ⟨hfirst, hrest⟩ := List.pairwise_cons.mp (List.isChain_iff_pairwise.mp heven.increase)
  refine htracks.run heven.steepness outside ?_ (List.pairwise_map.mp hrest)
  intro call hcall
  have hmem : call.sample ∈ calls.map PHCCall.sample := List.mem_map_of_mem hcall
  obtain ⟨hbehind, hbehind'⟩ := hfirst call.sample hmem
  refine ⟨heven.line _ (List.mem_cons_of_mem _ hmem), ?_, ?_, hrange call hcall⟩
  · rw [hdevice]
    exact hbehind
  · rw [hmonoraw]
    exact hbehind'

/-! ## The time of the host -/

theorem run_withoutRealtime (outside : ℤ → Duration) (c : AutonomousPHCClock) (call : PHCCall) :
    call.withoutRealtime.run outside c = call.run outside c := by
  cases call with
  | calibrate sample => rfl
  | convert raw sample => rfl

/-- The time of the host is not read after the first sample. -/
theorem run_map_withoutRealtime (outside : ℤ → Duration) (c : AutonomousPHCClock)
    (calls : List PHCCall) :
    (calls.map PHCCall.withoutRealtime).foldl (afterCall outside) c =
        calls.foldl (afterCall outside) c ∧
      answers outside c (calls.map PHCCall.withoutRealtime) = answers outside c calls := by
  induction calls generalizing c with
  | nil => exact ⟨rfl, rfl⟩
  | cons call calls ih =>
      have hafter : afterCall outside c call.withoutRealtime = afterCall outside c call := by
        rw [afterCall, run_withoutRealtime, afterCall]
      obtain ⟨hclock, hanswers⟩ := ih (afterCall outside c call)
      rw [List.map_cons, List.foldl_cons, List.foldl_cons, hafter]
      refine ⟨hclock, ?_⟩
      rw [answers, history, history, hafter, run_withoutRealtime]
      exact congrArg (· ++ _) hanswers

/-! ## Results -/

/-- **The clock of an autonomous grandmaster**, on every run behind the first sample.

* No answer and no state depends on the time of the host in a later sample.
* A conversion that succeeds uses a rate near one, observed between two samples since the last
  discontinuity.
* If the samples run evenly and no `Duration` overflows, no discontinuity is detected, and a
  conversion that succeeds returns the time of the clock at the instant of the event. -/
theorem autonomous_clock {initial : PHCCrossTimestamp} {clock : AutonomousPHCClock}
    (hnew : newAutonomousPHCClock initial = .ok clock) (outside : ℤ → Duration) :
    (∀ calls calls' : List PHCCall,
      calls.map PHCCall.withoutRealtime = calls'.map PHCCall.withoutRealtime →
        calls.foldl (afterCall outside) clock = calls'.foldl (afterCall outside) clock ∧
          answers outside clock calls = answers outside clock calls') ∧
    (∀ calls raw sample c t,
      (calls.foldl (afterCall outside) clock).convert outside raw sample = (c, .ok t) →
        t = (c.now sample.monoraw).add
            (scaleClockDuration outside (raw.sub sample.device) c.rate) ∧
          ∃ x y, [y, x].Sublist (sinceDiscontinuity initial
              (readings outside clock (calls ++ [.convert raw sample]))) ∧
            Observed x.device x.monoraw y c.rate) ∧
    ∀ a r calls, Even a r initial calls → (∀ call ∈ calls, WithinDuration initial call.sample) →
      Meets (afterCall outside) (AnswersExactly outside a r initial) clock calls := by
  refine ⟨?_, ?_, fun a r calls ↦ even_exact hnew outside⟩
  · intro calls calls' hsame
    obtain ⟨hclock, hanswers⟩ := run_map_withoutRealtime outside clock calls
    obtain ⟨hclock', hanswers'⟩ := run_map_withoutRealtime outside clock calls'
    rw [← hclock, ← hanswers, hsame]
    exact ⟨hclock', hanswers'⟩
  · intro calls raw sample c t hok
    obtain ⟨-, hvalid, -, -, ht⟩ := convert_ok hok
    have hsound := rateSound_run hnew outside (calls ++ [.convert raw sample])
    rw [List.foldl_append, List.foldl_cons, List.foldl_nil, afterCall, PHCCall.run] at hsound
    dsimp only at hsound
    rw [hok] at hsound
    exact ⟨ht, hsound.rate hvalid⟩

/-- A sample so many nanoseconds after the start of a bench. -/
def benchSample (device monoraw : ℤ) : PHCCrossTimestamp :=
  ⟨⟨unixEpoch + 10000000000 + device⟩, ⟨unixEpoch + 1786104000000000000⟩,
    ⟨unixEpoch + 100000000000 + monoraw⟩⟩

/-- The clock of the bench. -/
def benchClock : AutonomousPHCClock :=
  { epochRealtime := (benchSample 0 0).realtime
    epochMonoraw := (benchSample 0 0).monoraw
    rateDevice := (benchSample 0 0).device
    rateMonoraw := (benchSample 0 0).monoraw
    rate := 1
    rateValid := false }

/-- A card that is slow by one in a thousand: a second, and then an event a millisecond before the
next sample. -/
def benchCalls : List PHCCall :=
  [.calibrate (benchSample 1000000000 1001000000),
    .convert (benchSample 1999000000 0).device (benchSample 2000000000 2002000000)]

theorem autonomous_clock_bench :
    newAutonomousPHCClock (benchSample 0 0) = .ok benchClock ∧
      Meets (afterCall fun _ ↦ 0) (AnswersExactly (fun _ ↦ 0)
          ((benchSample 0 0).monoraw.ns - 1001 / 1000 * (benchSample 0 0).device.ns) (1001 / 1000)
          (benchSample 0 0)) benchClock benchCalls ∧
      (((benchCalls.take 1).foldl (afterCall fun _ ↦ 0) benchClock).convert (fun _ ↦ 0)
          (benchSample 1999000000 0).device (benchSample 2000000000 2002000000)).2 =
        .ok ((benchSample 0 0).realtime.add 2000999000) := by
  have hnew : newAutonomousPHCClock (benchSample 0 0) = .ok benchClock := by decide +kernel
  refine ⟨hnew, (autonomous_clock hnew fun _ ↦ 0).2.2 _ _ benchCalls ⟨?_, ?_, ?_⟩ ?_,
    by decide +kernel⟩
  · decide +kernel
  · unfold OnLine
    decide +kernel
  · refine .cons_cons ⟨?_, ?_⟩ (.cons_cons ⟨?_, ?_⟩ (.singleton _)) <;> decide +kernel
  · unfold WithinDuration
    decide +kernel

/-- A sample that is taken when a `Duration` since the start has just overflowed. -/
def lateCall : PHCCall := .convert (benchSample (2 ^ 63) 0).device (benchSample (2 ^ 63) (2 ^ 63))

/-- Without the bound on the samples a conversion need not be exact: after 292 years the clock
stands still. -/
theorem late_inexact :
    ¬ ∀ outside a r initial clock calls, newAutonomousPHCClock initial = .ok clock →
      Even a r initial calls →
        Meets (afterCall outside) (AnswersExactly outside a r initial) clock calls := by
  intro hall
  have heven : Even 90000000000 1 (benchSample 0 0) [lateCall] := by
    refine ⟨by decide +kernel, ?_, .cons_cons ⟨?_, ?_⟩ (.singleton _)⟩
    · unfold OnLine
      decide +kernel
    · decide +kernel
    · decide +kernel
  obtain ⟨⟨-, hexact⟩, -⟩ :=
    hall (fun _ ↦ 0) _ _ _ benchClock _ (by decide +kernel) heven
  have hfar := hexact _ _ ⟨(benchSample 0 0).realtime.ns + (2 ^ 63 - 1)⟩ rfl (by decide +kernel)
  revert hfar
  decide +kernel

end ProcessBus.Ptp
