import ProcessBus.Go.Float
import ProcessBus.Go.Time

/-!
# The application clock

`internal/domain/clock`: the interface that the PTP client drives, and the process-internal
clock behind it.  Reading a clock may change it (a bound local source is sampled, and its loss
is latched), so every operation returns the clock.

`time.Now()` inside the clock is a stream of readings that the clock consumes.  A reading has the
wall clock and the monotonic clock, and the difference of two readings is the monotonic one; a
timestamp of the transport and the time of a source have the wall clock only.

`SyncClock` is a clock whose lock state can be observed: the flag is set by `setSynchronized`
and by nothing else.
-/

namespace ProcessBus

open Go

/-- `clock.Clock` together with the optional `clock.SyncController`; for a clock that is not a
controller, `setSynchronized` does nothing.  `F` is the type of its `float64`s. -/
class Clock (C : Type) (F : outParam Type) where
  now : C → Time × C
  fromSystem : C → Time → Time × C
  /-- The error, if any, and the clock. -/
  step : C → Duration → Option String × C
  adjustFrequency : C → F → Option String × C
  maxFreqAdj : C → F
  setSynchronized : C → Bool → C

/-- A clock with an observable lock state. -/
class SyncClock (C : Type) (F : outParam Type) extends Clock C F where
  synchronized : C → Bool
  now_le (c : C) : synchronized (now c).2 = true → synchronized c = true
  fromSystem_le (c : C) (t : Time) : synchronized (fromSystem c t).2 = true → synchronized c = true
  step_le (c : C) (d : Duration) : synchronized (step c d).2 = true → synchronized c = true
  adjustFrequency_le (c : C) (ppb : F) :
    synchronized (adjustFrequency c ppb).2 = true → synchronized c = true
  setSynchronized_le (c : C) (b : Bool) : synchronized (setSynchronized c b) = true → b = true

/-- A reading of `time.Now()`. -/
structure SystemReading where
  wall : Time
  mono : ℤ
deriving DecidableEq, Repr

/-- A reading of a wall clock that nobody sets. -/
instance : Coe Time SystemReading := ⟨fun t ↦ ⟨t, t.ns⟩⟩

/-- `r.Sub(b)`, and `time.Since(b)` at `r`: both have a monotonic reading. -/
def SystemReading.sub (r b : SystemReading) : Duration := saturate (r.mono - b.mono)

/-- `clock.SourceStatus`. -/
structure SourceStatus (F : Type) where
  ptpEnabled : Bool
  synchronized : Bool
  offset : Duration
  frequencyPPB : F
  updatedAt : Time

/-- `ApplicationClock`.  `system` are the readings of `time.Now()` yet to be made, and
`localSource` is the bound callback, as the stream of its results. -/
structure ApplicationClock (F : Type) where
  ptpEnabled : Bool
  synchronized : Bool
  baseSystem : SystemReading
  baseApp : Time
  frequencyPPB : F
  maxFreqAdj : F
  updatedAt : Time
  localMode : Bool
  localSource : Option (ℕ → Except String Time)
  localError : Option String
  localReads : ℕ
  system : ℕ → SystemReading
  systemReads : ℕ

namespace ApplicationClock

variable {F : Type} [Float64 F]

/-- `time.Now()`. -/
def systemNow (c : ApplicationClock F) : SystemReading × ApplicationClock F :=
  (c.system c.systemReads, { c with systemReads := c.systemReads + 1 })

/-- `NewApplicationClock`. -/
def new (maxPPB : F) (system : ℕ → SystemReading) : ApplicationClock F where
  ptpEnabled := false
  synchronized := false
  baseSystem := system 0
  baseApp := (system 0).wall
  frequencyPPB := Float64.ofInt 0
  maxFreqAdj := if Float64.le maxPPB (Float64.ofInt 0) then Float64.ofInt 500000 else maxPPB
  updatedAt := (system 0).wall
  localMode := false
  localSource := none
  localError := none
  localReads := 0
  system := system
  systemReads := 1

/-- `EnablePTP`. -/
def enablePTP (c : ApplicationClock F) : ApplicationClock F :=
  let (now, c) := c.systemNow
  { c with
    ptpEnabled := true
    localMode := false
    localSource := none
    localError := none
    synchronized := false
    baseSystem := now
    baseApp := now.wall
    frequencyPPB := Float64.ofInt 0
    updatedAt := now.wall }

/-- `DisablePTP`. -/
def disablePTP (c : ApplicationClock F) : ApplicationClock F :=
  let (now, c) := c.systemNow
  { c with
    ptpEnabled := false
    localMode := false
    localSource := none
    localError := none
    synchronized := false
    frequencyPPB := Float64.ofInt 0
    updatedAt := now.wall }

/-- `fromSystemLocked` after `t.Sub(c.baseSystem)`, which depends on what `t` carries. -/
def fromSystemLocked (c : ApplicationClock F) (elapsed : Duration) : Time :=
  let rate : F := Float64.ofInt 1 + c.frequencyPPB / Float64.ofInt 1000000000
  c.baseApp.add (Int64.ofInt (Float64.trunc (Float64.ofInt elapsed.toInt * rate)))

/-- The local scale carried on from the last sample. -/
def holdover (c : ApplicationClock F) : Time × ApplicationClock F :=
  let (now, c) := c.systemNow
  (c.baseApp.add (now.sub c.baseSystem), c)

/-- `localNowLocked`: a failed or empty reading of the source is latched. -/
def localNowLocked (c : ApplicationClock F) : Time × ApplicationClock F :=
  match c.localSource with
  | none => c.holdover
  | some source =>
      let value : Except String Time :=
        match source c.localReads with
        | .ok t => if t.isZero then .error "local PTP source returned an empty time" else .ok t
        | .error err => .error err
      let c := { c with localReads := c.localReads + 1 }
      match value with
      | .ok t =>
          let (now, c) := c.systemNow
          (t, { c with baseSystem := now, baseApp := t, updatedAt := now.wall })
      | .error err =>
          let (now, c) := c.systemNow
          { c with
            localSource := none
            localError := some err
            synchronized := false
            updatedAt := now.wall }.holdover

/-- `Now`. -/
def now (c : ApplicationClock F) : Time × ApplicationClock F :=
  if c.localMode then c.localNowLocked
  else
    let (now, c) := c.systemNow
    if !c.ptpEnabled then (now.wall, c) else (c.fromSystemLocked (now.sub c.baseSystem), c)

/-- `FromSystem`. -/
def fromSystem (c : ApplicationClock F) (t : Time) : Time × ApplicationClock F :=
  if c.localMode then
    let (now, c) := c.systemNow
    let (value, c) := c.localNowLocked
    (value.add (t.sub now.wall), c)
  else if !c.ptpEnabled then (t, c)
  else (c.fromSystemLocked (t.sub c.baseSystem.wall), c)

/-- `Step`. -/
def step (c : ApplicationClock F) (offset : Duration) : ApplicationClock F :=
  let (now, c) := c.systemNow
  let current := c.fromSystemLocked (now.sub c.baseSystem)
  { c with baseSystem := now, baseApp := current.add offset, updatedAt := now.wall }

/-- `AdjustFrequency`, with the correction clamped to the limit. -/
def adjustFrequency (c : ApplicationClock F) (ppb : F) : ApplicationClock F :=
  let ppb :=
    if Float64.lt c.maxFreqAdj ppb then c.maxFreqAdj
    else if Float64.lt ppb (-c.maxFreqAdj) then -c.maxFreqAdj
    else ppb
  let (now, c) := c.systemNow
  let current := c.fromSystemLocked (now.sub c.baseSystem)
  { c with baseSystem := now, baseApp := current, frequencyPPB := ppb, updatedAt := now.wall }

/-- `SetSynchronized`. -/
def setSynchronized (c : ApplicationClock F) (synchronized : Bool) : ApplicationClock F :=
  let (now, c) := c.systemNow
  { c with synchronized := c.ptpEnabled && synchronized, updatedAt := now.wall }

/-- `SourceStatus`. -/
def sourceStatus (c : ApplicationClock F) : SourceStatus F × ApplicationClock F :=
  let (systemNow, c) := c.systemNow
  if !c.ptpEnabled then
    ({ ptpEnabled := false
       synchronized := false
       offset := 0
       frequencyPPB := Float64.ofInt 0
       updatedAt := c.updatedAt }, c)
  else
    let (appNow, c) :=
      if c.localMode then c.localNowLocked
      else (c.fromSystemLocked (systemNow.sub c.baseSystem), c)
    ({ ptpEnabled := true
       synchronized := c.synchronized
       offset := appNow.sub systemNow.wall
       frequencyPPB := c.frequencyPPB
       updatedAt := c.updatedAt }, c)

/-- `BindLocalSource`: the error, if any.  The call reads the source once. -/
def bindLocalSource (c : ApplicationClock F) (source : Option (ℕ → Except String Time)) :
    Option String × ApplicationClock F :=
  match source with
  | none => (some "local PTP source is unavailable", c)
  | some source =>
      match source 0 with
      | .error err => (some err, c)
      | .ok value =>
          if value.isZero then (some "local PTP source returned an empty time", c)
          else
            let (now, c) := c.systemNow
            (none,
              { c with
                ptpEnabled := true
                synchronized := true
                localMode := true
                localSource := some source
                localError := none
                localReads := 1
                baseSystem := now
                baseApp := value
                frequencyPPB := Float64.ofInt 0
                updatedAt := now.wall })

/-- `LocalSourceError`. -/
def localSourceError (c : ApplicationClock F) : Option String × ApplicationClock F :=
  let c := if c.localMode then c.localNowLocked.2 else c
  (c.localError, c)

omit [Float64 F] in
/-- Sampling the local source can only lose the lock. -/
theorem localNowLocked_synchronized (c : ApplicationClock F)
    (h : c.localNowLocked.2.synchronized = true) : c.synchronized = true := by
  unfold localNowLocked at h
  split at h
  · exact h
  · dsimp only at h
    split at h
    · exact h
    · exact absurd h Bool.false_ne_true

instance : SyncClock (ApplicationClock F) F where
  now := now
  fromSystem := fromSystem
  step c d := (none, c.step d)
  adjustFrequency c ppb := (none, c.adjustFrequency ppb)
  maxFreqAdj := maxFreqAdj
  setSynchronized := setSynchronized
  synchronized := ApplicationClock.synchronized
  now_le c h := by
    unfold now at h
    split at h
    · exact localNowLocked_synchronized c h
    · dsimp only at h
      split at h <;> exact h
  fromSystem_le c t h := by
    unfold fromSystem at h
    split at h
    · exact localNowLocked_synchronized c.systemNow.2 h
    · split at h <;> exact h
  step_le _ _ h := h
  adjustFrequency_le _ _ h := h
  setSynchronized_le _ _ h := (Bool.and_eq_true_iff.mp h).2

end ApplicationClock

end ProcessBus
