import ProcessBus.Go.Int64
import ProcessBus.Ptp.Client.Servo
import Mathlib.Algebra.Order.Field.Basic
import Mathlib.Algebra.Order.Ring.Abs
import Mathlib.Tactic.Linarith
import Mathlib.Tactic.NormNum

/-!
# The servo over whole runs

`Sample` and `Reset` in any order, with any offsets and local times.  The integral term only grows
where the sum of the terms is within the limit, and the gains are not negative, so that the drift
stays within the limit too.  A step of the clock needs a fresh acquisition.

In tracking, an offset above the step threshold starts the acquisition again, but for one:
`abs64` of the smallest `int64` is negative, and the servo slews towards it.
-/

namespace ProcessBus.Ptp.Client

open Go

/-! ## Exact arithmetic -/

/-- Arithmetic without rounding.  No law is asked of the division, by which `Sample` only chooses
how long to wait: a quotient by a gain of zero may be anything that stands for an infinity. -/
class Exact (F : Type) [Float64 F] where
  toRat : F → ℚ
  toRat_ofInt (n : ℤ) : toRat (Float64.ofInt n) = n
  toRat_neg (a : F) : toRat (-a) = -toRat a
  toRat_add (a b : F) : toRat (a + b) = toRat a + toRat b
  toRat_mul (a b : F) : toRat (a * b) = toRat a * toRat b
  lt_iff (a b : F) : Float64.lt a b = true ↔ toRat a < toRat b
  le_iff (a b : F) : Float64.le a b = true ↔ toRat a ≤ toRat b

instance : Exact ℚ where
  toRat := id
  toRat_ofInt _ := rfl
  toRat_neg _ := rfl
  toRat_add _ _ := rfl
  toRat_mul _ _ := rfl
  lt_iff _ _ := decide_eq_true_iff
  le_iff _ _ := decide_eq_true_iff

open Exact

/-! ## Calls and steps -/

/-- A call on the servo. -/
inductive ServoCall where
  | sample (offset : Int64) (localTS : UInt64)
  | reset
deriving DecidableEq

/-- A call with the servo before and after it, and what `Sample` returned. -/
structure ServoStep (F : Type) where
  before : PIServo F
  call : ServoCall
  result : Option (F × ServoState)
  after : PIServo F

namespace PIServo

variable {F : Type} [Float64 F]

/-- One call. -/
def step (s : PIServo F) : ServoCall → ServoStep F
  | .sample offset localTS =>
      let (s', ppb, state) := s.sample offset localTS
      { before := s, call := .sample offset localTS, result := some (ppb, state), after := s' }
  | .reset => { before := s, call := .reset, result := none, after := s.reset }

/-- A run. -/
def steps (s : PIServo F) : List ServoCall → List (ServoStep F)
  | [] => []
  | c :: rest => s.step c :: (s.step c).after.steps rest

/-- A new servo with the gains that it is to have. -/
def start (cfg : PIServoConfig F) (kp ki : F) : PIServo F := { new cfg with kp := kp, ki := ki }

end PIServo

variable {F : Type} [Float64 F]

/-- `ServoJump` is returned. -/
def ServoStep.Jumps (t : ServoStep F) : Prop := ∃ ppb, t.result = some (ppb, .jump)

/-- `ServoUnlocked` is returned. -/
def ServoStep.Unlocks (t : ServoStep F) : Prop := ∃ ppb, t.result = some (ppb, .unlocked)

/-- The acquisition starts again: a `Reset`, or a `ServoUnlocked` that clears the counter. -/
def ServoStep.Restarts (t : ServoStep F) : Prop :=
  t.call = .reset ∨ t.Unlocks ∧ t.after.count = 0

variable [Exact F]

/-- An offset above a threshold that is in use. -/
def Above (offset : Int64) (threshold : F) : Prop :=
  0 < toRat threshold ∧ toRat threshold < |(offset.toInt : ℚ)|

/-- What the servo is to do in a run from `s`. -/
structure AntiWindup (s : PIServo F) (calls : List ServoCall) : Prop where
  bounded : ∀ t ∈ s.steps calls, |toRat t.after.drift| ≤ toRat s.maxFrequency ∧
    ∀ ppb state, t.result = some (ppb, state) → |toRat ppb| ≤ toRat s.maxFrequency
  jump_once : ∀ before t mid t' later, s.steps calls = before ++ t :: mid ++ t' :: later →
    t.Jumps → t'.Jumps → ∃ r ∈ mid, r.Restarts
  jump_above : ∀ t ∈ s.steps calls, ∀ offset localTS, t.call = .sample offset localTS → t.Jumps →
    t.before.firstUpdate = true ∧ Above offset s.firstStepThreshold ∨
      Above offset s.stepThreshold
  unlocks_above : ∀ t ∈ s.steps calls, ∀ offset localTS, t.call = .sample offset localTS →
    t.before.count = 2 → Above offset s.stepThreshold → t.Unlocks ∧ t.after.count = 0

/-- A step that tracks the offset without a positive absolute value, with a threshold below it. -/
def Blind (threshold : F) (t : ServoStep F) : Prop :=
  (∃ localTS, t.call = .sample Int64.minValue localTS) ∧ t.before.count = 2 ∧
    0 < toRat threshold ∧ toRat threshold < 2 ^ 63

/-! ## The absolute value -/

theorem toInt_abs64 (v : Int64) (h : v ≠ Int64.minValue) : (abs64 v).toInt = |v.toInt| := by
  have hlow := v.le_toInt
  rw [abs64]
  split
  · rename_i hneg
    rw [Int64.lt_iff_toInt_lt, Int64.toInt_zero] at hneg
    have hne : v.toInt ≠ -9223372036854775808 := fun heq ↦ h (Int64.toInt.inj heq)
    rw [Int64.toInt_neg, bmod_of_fits64 ⟨by omega, by omega⟩, abs_of_neg hneg]
  · rename_i hnonneg
    rw [Int64.lt_iff_toInt_lt, Int64.toInt_zero, not_lt] at hnonneg
    rw [abs_of_nonneg hnonneg]

theorem toInt_abs64_minValue : (abs64 Int64.minValue).toInt = -9223372036854775808 := by
  decide

theorem toInt_abs64_le (v : Int64) : (abs64 v).toInt ≤ |v.toInt| := by
  by_cases h : v = Int64.minValue
  · rw [h, toInt_abs64_minValue]
    exact le_trans (by norm_num) (abs_nonneg _)
  · exact (toInt_abs64 v h).le

/-! ## The thresholds -/

theorem exceeds_eq_true (offset : Int64) (threshold : F) :
    PIServo.exceeds offset threshold = true ↔
      0 < toRat threshold ∧ toRat threshold < ((abs64 offset).toInt : ℚ) := by
  rw [PIServo.exceeds, Bool.and_eq_true, lt_iff, lt_iff, toRat_ofInt, toRat_ofInt, Int.cast_zero]

/-- What exceeds a threshold in the code is above it. -/
theorem above_of_exceeds {offset : Int64} {threshold : F}
    (h : PIServo.exceeds offset threshold = true) : Above offset threshold := by
  rw [exceeds_eq_true] at h
  refine ⟨h.1, h.2.trans_le ?_⟩
  rw [← Int.cast_abs]
  exact_mod_cast toInt_abs64_le offset

/-- But for the smallest offset it is the same. -/
theorem exceeds_iff {offset : Int64} {threshold : F} (h : offset ≠ Int64.minValue) :
    PIServo.exceeds offset threshold = true ↔ Above offset threshold := by
  rw [exceeds_eq_true, toInt_abs64 offset h, Above, Int.cast_abs]

theorem exceeds_minValue (threshold : F) :
    PIServo.exceeds Int64.minValue threshold = false := by
  rw [Bool.eq_false_iff, Ne, exceeds_eq_true, toInt_abs64_minValue]
  rintro ⟨hpos, hlt⟩
  push_cast at hlt
  linarith

/-! ## What a call does -/

namespace PIServo

/-- The part of a servo that no call changes. -/
structure Tuning (F : Type) where
  kp : F
  ki : F
  maxFrequency : F
  stepThreshold : F
  firstStepThreshold : F

def tuning (s : PIServo F) : Tuning F :=
  ⟨s.kp, s.ki, s.maxFrequency, s.stepThreshold, s.firstStepThreshold⟩

/-- The `switch` of `Sample`. -/
def measure (s : PIServo F) (offset : Int64) (localTS : UInt64) : PIServo F × F × ServoState :=
  match s.count with
  | 0 => ({ s with offset0 := offset, local0 := localTS, count := 1 }, s.lastFreq, .unlocked)
  | 1 => estimate { s with offset1 := offset, local1 := localTS } offset
  | 2 => track s offset
  | _ => (s, s.lastFreq, .unlocked)

omit [Exact F] in
theorem sample_eq (s : PIServo F) (offset : Int64) (localTS : UInt64) :
    s.sample offset localTS =
      let (s', ppb, state) := s.measure offset localTS
      let (s', state) := stabilize { s' with lastFreq := ppb } offset state
      (s', ppb, state) := rfl

/-- The stability check leaves everything but its counters and `firstUpdate`, and only makes a
locked servo a stable one. -/
structure Stabilized (s : PIServo F) (state : ServoState) (s' : PIServo F) (state' : ServoState) :
    Prop where
  tuning : s'.tuning = s.tuning
  drift : s'.drift = s.drift
  lastFreq : s'.lastFreq = s.lastFreq
  count : s'.count = s.count
  jump : state' = .jump ↔ state = .jump
  unlocked : state' = .unlocked ↔ state = .unlocked

omit [Float64 F] [Exact F] in
theorem stabilize_stabilized (s : PIServo F) (offset : Int64) (state : ServoState) :
    Stabilized s state (stabilize s offset state).1 (stabilize s offset state).2 := by
  cases state with
  | locked =>
      by_cases hthreshold : 0 < s.offsetThreshold
      · by_cases hsmall : abs64 offset < s.offsetThreshold
        · by_cases hlast : s.currOffsetValues - 1 ≤ 0
          · constructor <;> simp [stabilize, hthreshold, hsmall, hlast, tuning]
          · constructor <;> simp [stabilize, hthreshold, hsmall, hlast, tuning]
        · constructor <;> simp [stabilize, hthreshold, hsmall, tuning]
      · constructor <;> simp [stabilize, hthreshold, tuning]
  | jump =>
      constructor <;> simp [stabilize, tuning]
  | unlocked =>
      constructor <;> simp [stabilize, tuning]
  | lockedStable =>
      constructor <;> simp [stabilize, tuning]

/-! ## Bounds -/

/-- The limits of the terms, and the three phases. -/
structure Sound (s : PIServo F) : Prop where
  kp_nonneg : 0 ≤ toRat s.kp
  ki_nonneg : 0 ≤ toRat s.ki
  drift_le : |toRat s.drift| ≤ toRat s.maxFrequency
  lastFreq_le : |toRat s.lastFreq| ≤ toRat s.maxFrequency
  count_le : s.count ≤ 2

/-- What a measurement does to a servo within its limits. -/
structure Measured (s : PIServo F) (offset : Int64) (s' : PIServo F) (ppb : F)
    (state : ServoState) : Prop where
  tuning : s'.tuning = s.tuning
  drift_le : |toRat s'.drift| ≤ toRat s.maxFrequency
  ppb_le : |toRat ppb| ≤ toRat s.maxFrequency
  count_le : s'.count ≤ 2
  jump : state = .jump → s.count = 1 ∧ s'.count = 2 ∧
    (s.firstUpdate = true ∧ exceeds offset s.firstStepThreshold = true ∨
      exceeds offset s.stepThreshold = true)
  tracking : s.count = 2 →
    if exceeds offset s.stepThreshold then state = .unlocked ∧ s'.count = 0
    else state = .locked ∧ s'.count = 2

theorem abs_clampFloat_le (v limit : F) (h : 0 ≤ toRat limit) :
    |toRat (clampFloat v (-limit) limit)| ≤ toRat limit := by
  rw [clampFloat, abs_le]
  split
  · rw [toRat_neg]
    exact ⟨le_rfl, by linarith⟩
  · rename_i hlow
    rw [lt_iff, toRat_neg, not_lt] at hlow
    split
    · exact ⟨by linarith, le_rfl⟩
    · rename_i hhigh
      rw [lt_iff, not_lt] at hhigh
      exact ⟨hlow, hhigh⟩

/-- Where the sum of the terms is within the limit, the integral is: the proportional term is on
the same side. -/
theorem abs_integral_le {kp ki drift offset limit : ℚ} (hkp : 0 ≤ kp) (hki : 0 ≤ ki)
    (hdrift : |drift| ≤ limit) (hlow : -limit ≤ kp * offset + drift + ki * offset)
    (hhigh : kp * offset + drift + ki * offset ≤ limit) : |drift + ki * offset| ≤ limit := by
  rw [abs_le] at hdrift ⊢
  rcases le_total 0 offset with hpos | hneg
  · have hp : 0 ≤ kp * offset := mul_nonneg hkp hpos
    have hi : 0 ≤ ki * offset := mul_nonneg hki hpos
    exact ⟨by linarith [hdrift.1], by linarith⟩
  · have hp : kp * offset ≤ 0 := mul_nonpos_of_nonneg_of_nonpos hkp hneg
    have hi : ki * offset ≤ 0 := mul_nonpos_of_nonneg_of_nonpos hki hneg
    exact ⟨by linarith, by linarith [hdrift.2]⟩

theorem Sound.maxFrequency_nonneg {s : PIServo F} (h : s.Sound) : 0 ≤ toRat s.maxFrequency :=
  (abs_nonneg _).trans h.drift_le

/-- An unlocked servo keeps its drift and its frequency. -/
theorem measured_unlocked {s s' : PIServo F} {offset : Int64} (h : s.Sound)
    (htuning : s'.tuning = s.tuning) (hdrift : s'.drift = s.drift) (hcount : s'.count ≤ 2)
    (htracking : s.count = 2 → exceeds offset s.stepThreshold = true ∧ s'.count = 0) :
    Measured s offset s' s.lastFreq .unlocked := by
  refine ⟨htuning, ?_, h.lastFreq_le, hcount, ?_, ?_⟩
  · rw [hdrift]
    exact h.drift_le
  · intro hjump
    cases hjump
  · intro htwo
    obtain ⟨hexceeds, hzero⟩ := htracking htwo
    rw [if_pos hexceeds]
    exact ⟨rfl, hzero⟩

theorem estimate_measured {s : PIServo F} (h : s.Sound) (hcount : s.count = 1) (offset : Int64) :
    Measured s offset (estimate s offset).1 (estimate s offset).2.1 (estimate s offset).2.2 := by
  have hone : s.count = 2 → exceeds offset s.stepThreshold = true ∧ (0 : ℕ) = 0 := by
    rw [hcount]
    intro htwo
    cases htwo
  rw [estimate]
  split
  · exact measured_unlocked h rfl rfl (Nat.zero_le 2) hone
  · dsimp only
    generalize (if Float64.lt (Float64.ofInt 1000) ((0.016 : F) / s.ki) then Float64.ofInt 1000
      else (0.016 : F) / s.ki) = interval
    split
    · refine measured_unlocked h rfl rfl h.count_le ?_
      rw [hcount]
      intro htwo
      cases htwo
    · have hlimit := h.maxFrequency_nonneg
      refine ⟨rfl, abs_clampFloat_le _ _ hlimit, abs_clampFloat_le _ _ hlimit, le_rfl, ?_, ?_⟩
      · intro hjump
        refine ⟨hcount, rfl, ?_⟩
        dsimp only at hjump
        split at hjump
        · rename_i hexceeds
          rwa [Bool.or_eq_true, Bool.and_eq_true] at hexceeds
        · cases hjump
      · rw [hcount]
        intro htwo
        cases htwo

theorem track_measured {s : PIServo F} (h : s.Sound) (hcount : s.count = 2) (offset : Int64) :
    Measured s offset (track s offset).1 (track s offset).2.1 (track s offset).2.2 := by
  have hlimit := h.maxFrequency_nonneg
  rw [track]
  split
  · rename_i hexceeds
    exact measured_unlocked h rfl rfl (Nat.zero_le 2) fun _ ↦ ⟨hexceeds, rfl⟩
  · rename_i hexceeds
    have hlocked : ∀ (s' : PIServo F) (ppb : F), s'.tuning = s.tuning → s'.count = 2 →
        |toRat s'.drift| ≤ toRat s.maxFrequency → |toRat ppb| ≤ toRat s.maxFrequency →
        Measured s offset s' ppb .locked := by
      intro s' ppb htuning htwo hdrift hppb
      refine ⟨htuning, hdrift, hppb, htwo.le, ?_, ?_⟩
      · intro hjump
        cases hjump
      · intro _
        rw [if_neg hexceeds]
        exact ⟨rfl, htwo⟩
    dsimp only
    split
    · refine hlocked _ _ rfl hcount h.drift_le ?_
      rw [toRat_neg, abs_neg, abs_of_nonneg hlimit]
    · rename_i hlow
      split
      · refine hlocked _ _ rfl hcount h.drift_le ?_
        rw [abs_of_nonneg hlimit]
      · rename_i hhigh
        rw [lt_iff, not_lt, toRat_neg] at hlow
        rw [lt_iff, not_lt] at hhigh
        refine hlocked _ _ rfl hcount ?_ (abs_le.mpr ⟨hlow, hhigh⟩)
        rw [toRat_add, toRat_add, toRat_mul, toRat_mul] at hlow hhigh
        dsimp only
        rw [toRat_add, toRat_mul]
        exact abs_integral_le h.kp_nonneg h.ki_nonneg h.drift_le hlow hhigh

theorem measure_measured {s : PIServo F} (h : s.Sound) (offset : Int64) (localTS : UInt64) :
    Measured s offset (s.measure offset localTS).1 (s.measure offset localTS).2.1
      (s.measure offset localTS).2.2 := by
  have hphase : s.count = 0 ∨ s.count = 1 ∨ s.count = 2 := by
    have hle := h.count_le
    omega
  rcases hphase with hzero | hone | htwo
  · simp only [measure, hzero]
    refine measured_unlocked h rfl rfl (Nat.le_succ 1) ?_
    rw [hzero]
    intro htwo
    cases htwo
  · have hs : Sound { s with offset1 := offset, local1 := localTS } :=
      ⟨h.kp_nonneg, h.ki_nonneg, h.drift_le, h.lastFreq_le, h.count_le⟩
    have hm := estimate_measured hs hone offset
    have hmeasure : s.measure offset localTS =
        estimate { s with offset1 := offset, local1 := localTS } offset := by
      simp only [measure, hone]
    rw [hmeasure]
    exact ⟨hm.tuning, hm.drift_le, hm.ppb_le, hm.count_le, hm.jump, hm.tracking⟩
  · simp only [measure, htwo]
    exact track_measured h htwo offset

/-- One `Sample`, with the stability check. -/
theorem sample_measured {s : PIServo F} (h : s.Sound) (offset : Int64) (localTS : UInt64) :
    ∃ state, Measured s offset (s.sample offset localTS).1 (s.sample offset localTS).2.1 state ∧
      ((s.sample offset localTS).2.2 = .jump ↔ state = .jump) ∧
      ((s.sample offset localTS).2.2 = .unlocked ↔ state = .unlocked) ∧
      (s.sample offset localTS).1.lastFreq = (s.sample offset localTS).2.1 := by
  have hm := measure_measured h offset localTS
  rw [sample_eq]
  generalize s.measure offset localTS = p at hm
  obtain ⟨s', ppb, state⟩ := p
  have hst := stabilize_stabilized { s' with lastFreq := ppb } offset state
  refine ⟨state, ⟨hst.tuning.trans hm.tuning, ?_, hm.ppb_le, ?_, ?_, ?_⟩, hst.jump, hst.unlocked,
    hst.lastFreq⟩
  · dsimp only
    rw [hst.drift]
    exact hm.drift_le
  · dsimp only
    rw [hst.count]
    exact hm.count_le
  · dsimp only
    rw [hst.count]
    exact hm.jump
  · dsimp only
    rw [hst.count]
    exact hm.tracking

/-! ## Runs -/

/-- A call keeps the limits. -/
theorem Sound.step {s : PIServo F} (h : s.Sound) (c : ServoCall) :
    (s.step c).after.Sound ∧ (s.step c).after.tuning = s.tuning := by
  cases c with
  | sample offset localTS =>
      obtain ⟨state, hm, -, -, hlast⟩ := sample_measured h offset localTS
      have htuning : (s.step (.sample offset localTS)).after.tuning = s.tuning := hm.tuning
      refine ⟨?_, htuning⟩
      rw [tuning, tuning, Tuning.mk.injEq] at htuning
      obtain ⟨hkp, hki, hmax, -, -⟩ := htuning
      constructor
      · rw [hkp]
        exact h.kp_nonneg
      · rw [hki]
        exact h.ki_nonneg
      · rw [hmax]
        exact hm.drift_le
      · rw [hmax]
        change |toRat (s.sample offset localTS).1.lastFreq| ≤ _
        rw [hlast]
        exact hm.ppb_le
      · exact hm.count_le
  | reset =>
      exact ⟨⟨h.kp_nonneg, h.ki_nonneg, h.drift_le, h.lastFreq_le, Nat.zero_le 2⟩, rfl⟩

omit [Exact F] in
theorem before_step (s : PIServo F) (c : ServoCall) : (s.step c).before = s := by
  cases c with
  | sample offset localTS => rfl
  | reset => rfl

omit [Exact F] in
theorem call_step (s : PIServo F) (c : ServoCall) : (s.step c).call = c := by
  cases c with
  | sample offset localTS => rfl
  | reset => rfl

omit [Exact F] in
theorem call_mem_of_mem_steps {s : PIServo F} {calls : List ServoCall} {t : ServoStep F}
    (ht : t ∈ s.steps calls) : t.call ∈ calls := by
  induction calls generalizing s with
  | nil => cases ht
  | cons c rest ih =>
      rw [PIServo.steps, List.mem_cons] at ht
      rcases ht with rfl | ht
      · rw [call_step]
        exact List.mem_cons_self
      · exact List.mem_cons_of_mem c (ih ht)

/-- A run stays within the limits, and its steps are calls on servos within them. -/
theorem Sound.steps {s : PIServo F} (h : s.Sound) (calls : List ServoCall) :
    ∀ t ∈ s.steps calls, t.before.Sound ∧ t.before.tuning = s.tuning ∧
      t.before.step t.call = t := by
  induction calls generalizing s with
  | nil =>
      intro t ht
      cases ht
  | cons c rest ih =>
      intro t ht
      obtain ⟨hafter, htuning⟩ := h.step c
      rw [PIServo.steps, List.mem_cons] at ht
      rcases ht with rfl | ht
      · rw [before_step, call_step]
        exact ⟨h, rfl, rfl⟩
      · obtain ⟨hsound, htuned, hc⟩ := ih hafter t ht
        exact ⟨hsound, htuned.trans htuning, hc⟩

/-- A jump ends the acquisition. -/
theorem Sound.jumps {s : PIServo F} (h : s.Sound) {c : ServoCall} (hjump : (s.step c).Jumps) :
    s.count = 1 ∧ (s.step c).after.count = 2 ∧ ∀ offset localTS, c = .sample offset localTS →
      s.firstUpdate = true ∧ exceeds offset s.firstStepThreshold = true ∨
        exceeds offset s.stepThreshold = true := by
  cases c with
  | sample offset localTS =>
      obtain ⟨state, hm, hstate, -, -⟩ := sample_measured h offset localTS
      obtain ⟨ppb, hresult⟩ := hjump
      have hreturned : (s.sample offset localTS).2.2 = .jump :=
        congrArg Prod.snd (Option.some.inj hresult)
      obtain ⟨hone, htwo, hexceeds⟩ := hm.jump (hstate.mp hreturned)
      refine ⟨hone, htwo, ?_⟩
      intro offset' localTS' hcall
      cases hcall
      exact hexceeds
  | reset =>
      obtain ⟨ppb, hresult⟩ := hjump
      cases hresult

/-- A sample in tracking: beyond the threshold, as far as `abs64` tells, the acquisition starts
again. -/
theorem Sound.tracks_sample {s : PIServo F} (h : s.Sound) (hcount : s.count = 2) (offset : Int64)
    (localTS : UInt64) :
    if exceeds offset s.stepThreshold then
      (s.step (.sample offset localTS)).Unlocks ∧ (s.step (.sample offset localTS)).after.count = 0
    else
      ¬(s.step (.sample offset localTS)).Unlocks ∧
        (s.step (.sample offset localTS)).after.count = 2 := by
  obtain ⟨state, hm, -, hstate, -⟩ := sample_measured h offset localTS
  have htracking := hm.tracking hcount
  split at htracking
  · rename_i hexceeds
    rw [if_pos hexceeds]
    refine ⟨⟨(s.sample offset localTS).2.1, ?_⟩, htracking.2⟩
    exact congrArg (fun st ↦ some ((s.sample offset localTS).2.1, st)) (hstate.mpr htracking.1)
  · rename_i hexceeds
    rw [if_neg hexceeds]
    refine ⟨?_, htracking.2⟩
    rintro ⟨ppb, hresult⟩
    have hunlocked := hstate.mp (congrArg Prod.snd (Option.some.inj hresult))
    rw [htracking.1] at hunlocked
    cases hunlocked

/-- A servo in tracking goes on, or the acquisition starts again. -/
theorem Sound.tracks {s : PIServo F} (h : s.Sound) (hcount : s.count = 2) (c : ServoCall) :
    (s.step c).Restarts ∨ (s.step c).after.count = 2 := by
  cases c with
  | sample offset localTS =>
      have htracks := h.tracks_sample hcount offset localTS
      split at htracks
      · exact .inl (.inr htracks)
      · exact .inr htracks.2
  | reset =>
      exact .inl (.inl rfl)

/-- Until the acquisition starts again, the servo stays in tracking. -/
theorem Sound.tracks_until {s : PIServo F} (h : s.Sound) (hcount : s.count = 2)
    {calls : List ServoCall} {mid later : List (ServoStep F)} {t : ServoStep F}
    (hsteps : s.steps calls = mid ++ t :: later) (hmid : ∀ r ∈ mid, ¬r.Restarts) :
    t.before.count = 2 := by
  induction mid generalizing s calls with
  | nil =>
      cases calls with
      | nil => cases hsteps
      | cons c rest =>
          rw [PIServo.steps, List.nil_append, List.cons.injEq] at hsteps
          rw [← hsteps.1, before_step]
          exact hcount
  | cons r mid ih =>
      cases calls with
      | nil => cases hsteps
      | cons c rest =>
          rw [PIServo.steps, List.cons_append, List.cons.injEq] at hsteps
          obtain ⟨hr, hrest⟩ := hsteps
          have hnot := hmid r List.mem_cons_self
          rw [← hr] at hnot
          have htwo := (h.tracks hcount c).resolve_left hnot
          exact ih (h.step c).1 htwo hrest fun r' hr' ↦ hmid r' (List.mem_cons_of_mem r hr')

/-- Between two jumps the acquisition starts again. -/
theorem Sound.jump_once {s : PIServo F} (h : s.Sound) {calls : List ServoCall}
    {before mid later : List (ServoStep F)} {t t' : ServoStep F}
    (hsteps : s.steps calls = before ++ t :: mid ++ t' :: later) (ht : t.Jumps) (ht' : t'.Jumps) :
    ∃ r ∈ mid, r.Restarts := by
  induction before generalizing s calls with
  | nil =>
      cases calls with
      | nil => cases hsteps
      | cons c rest =>
          rw [PIServo.steps, List.nil_append, List.cons_append, List.cons.injEq] at hsteps
          obtain ⟨rfl, hrest⟩ := hsteps
          have hafter := (h.step c).1
          have htwo := (h.jumps ht).2.1
          by_contra hnone
          have hstill := hafter.tracks_until htwo hrest fun r hr hres ↦ hnone ⟨r, hr, hres⟩
          have hmem : t' ∈ (s.step c).after.steps rest := by
            rw [hrest]
            exact List.mem_append_right mid List.mem_cons_self
          obtain ⟨hsound, -, hstep⟩ := hafter.steps rest t' hmem
          rw [← hstep] at ht'
          have hone := (hsound.jumps ht').1
          omega
  | cons r before ih =>
      cases calls with
      | nil => cases hsteps
      | cons c rest =>
          rw [PIServo.steps, List.cons_append, List.cons_append, List.cons.injEq] at hsteps
          exact ih (h.step c).1 hsteps.2

end PIServo

/-! ## Main result -/

section Main

open PIServo

/-- A new servo with gains that are not negative and a drift within the limit is sound. -/
theorem start_sound (cfg : PIServoConfig F) {kp ki : F} (hkp : 0 ≤ toRat kp) (hki : 0 ≤ toRat ki)
    (hdrift : |toRat cfg.initialDrift| ≤ toRat (start cfg kp ki).maxFrequency) :
    (start cfg kp ki).Sound :=
  ⟨hkp, hki, hdrift, hdrift, Nat.zero_le 2⟩

section Tuned

variable {s s₀ : PIServo F} (h : s.tuning = s₀.tuning)
include h

omit [Float64 F] [Exact F]

theorem maxFrequency_of_tuning : s.maxFrequency = s₀.maxFrequency :=
  congrArg Tuning.maxFrequency h

theorem stepThreshold_of_tuning : s.stepThreshold = s₀.stepThreshold :=
  congrArg Tuning.stepThreshold h

theorem firstStepThreshold_of_tuning : s.firstStepThreshold = s₀.firstStepThreshold :=
  congrArg Tuning.firstStepThreshold h

end Tuned

/-- What a call on a sound servo returns is within the limit. -/
theorem bounded_step {s : PIServo F} (h : s.Sound) (c : ServoCall) :
    |toRat (s.step c).after.drift| ≤ toRat s.maxFrequency ∧
      ∀ ppb state, (s.step c).result = some (ppb, state) → |toRat ppb| ≤ toRat s.maxFrequency := by
  cases c with
  | sample offset localTS =>
      obtain ⟨state, hm, -, -, -⟩ := sample_measured h offset localTS
      refine ⟨hm.drift_le, ?_⟩
      intro ppb state' hresult
      have hppb : (s.sample offset localTS).2.1 = ppb :=
        congrArg Prod.fst (Option.some.inj hresult)
      rw [← hppb]
      exact hm.ppb_le
  | reset =>
      refine ⟨h.drift_le, ?_⟩
      intro ppb state hresult
      cases hresult

theorem above_minValue (threshold : F) :
    Above Int64.minValue threshold ↔ 0 < toRat threshold ∧ toRat threshold < 2 ^ 63 := by
  have habs : |((Int64.minValue.toInt : ℤ) : ℚ)| = 2 ^ 63 := by
    rw [Int64.toInt_minValue, ← Int.cast_abs]
    norm_num
  rw [Above, habs]

/-- **The servo keeps its limits, steps once for each acquisition, and gives up tracking at the step
threshold, unless it tracks the smallest offset**: the last of these fails in exactly the runs with
such a step. -/
theorem antiWindup_iff (cfg : PIServoConfig F) (kp ki : F) (calls : List ServoCall)
    (hkp : 0 ≤ toRat kp) (hki : 0 ≤ toRat ki)
    (hdrift : |toRat cfg.initialDrift| ≤ toRat (start cfg kp ki).maxFrequency) :
    AntiWindup (start cfg kp ki) calls ↔
      ∀ t ∈ (start cfg kp ki).steps calls, ¬Blind (start cfg kp ki).stepThreshold t := by
  have hstart := start_sound cfg hkp hki hdrift
  generalize start cfg kp ki = s at hstart ⊢
  constructor
  · rintro h t ht ⟨⟨localTS, hcall⟩, hcount, habove⟩
    have hunlocks := h.unlocks_above t ht _ localTS hcall hcount ((above_minValue _).mpr habove)
    obtain ⟨hsound, htuning, hstep⟩ := hstart.steps calls t ht
    have htracks := hsound.tracks_sample hcount Int64.minValue localTS
    rw [exceeds_minValue, if_neg Bool.false_ne_true, ← hcall, hstep] at htracks
    exact htracks.1 hunlocks.1
  · intro hblind
    constructor
    · intro t ht
      obtain ⟨hsound, htuning, hstep⟩ := hstart.steps calls t ht
      have hbounded := bounded_step hsound t.call
      rwa [hstep, maxFrequency_of_tuning htuning] at hbounded
    · intro before t mid t' later hsteps ht ht'
      exact hstart.jump_once hsteps ht ht'
    · intro t ht offset localTS hcall hjump
      obtain ⟨hsound, htuning, hstep⟩ := hstart.steps calls t ht
      rw [← hstep] at hjump
      have hexceeds := (hsound.jumps hjump).2.2 offset localTS hcall
      rw [stepThreshold_of_tuning htuning, firstStepThreshold_of_tuning htuning] at hexceeds
      exact hexceeds.imp (fun h ↦ ⟨h.1, above_of_exceeds h.2⟩) above_of_exceeds
    · intro t ht offset localTS hcall hcount habove
      obtain ⟨hsound, htuning, hstep⟩ := hstart.steps calls t ht
      have hne : offset ≠ Int64.minValue := by
        rintro rfl
        exact hblind t ht ⟨⟨localTS, hcall⟩, hcount, (above_minValue _).mp habove⟩
      have hexceeds : exceeds offset t.before.stepThreshold = true := by
        rw [stepThreshold_of_tuning htuning]
        exact (exceeds_iff hne).mpr habove
      have htracks := hsound.tracks_sample hcount offset localTS
      rwa [if_pos hexceeds, ← hcall, hstep] at htracks

end Main

/-! ## A tracked offset without an absolute value -/

section Overflow

open PIServo

/-- 500 ppm, and a step from 20 µs on. -/
def slewConfig : PIServoConfig ℚ where
  initialDrift := 0
  maxFrequency := 500000
  stepThreshold := 1 / 50000
  firstStepThreshold := 0
  softwareTS := false

/-- Two samples to lock, and one to track. -/
def lockAndTrack (offset : Int64) : List ServoCall :=
  [.sample 0 0, .sample 0 1000000000, .sample offset 2000000000]

/-- An offset of a microsecond is slewed as it is to be. -/
theorem antiWindup_iff_lockAndTrack :
    AntiWindup (start slewConfig (7 / 10) (3 / 10)) (lockAndTrack 1000) := by
  have hdrift : |toRat slewConfig.initialDrift| ≤
      toRat (start slewConfig (7 / 10) (3 / 10)).maxFrequency := by
    decide +kernel
  have hkp : 0 ≤ toRat (7 / 10 : ℚ) := by decide +kernel
  have hki : 0 ≤ toRat (3 / 10 : ℚ) := by decide +kernel
  refine (antiWindup_iff slewConfig _ _ _ hkp hki hdrift).mpr ?_
  rintro t ht ⟨⟨localTS, hcall⟩, -, -⟩
  have hmem := call_mem_of_mem_steps ht
  rw [hcall, lockAndTrack] at hmem
  simp only [List.mem_cons, ServoCall.sample.injEq, List.not_mem_nil, or_false] at hmem
  rcases hmem with ⟨h, -⟩ | ⟨h, -⟩ | ⟨h, -⟩
  · exact absurd h (by decide)
  · exact absurd h (by decide)
  · exact absurd h (by decide)

/-- The servo after two samples. -/
def lockedServo : PIServo ℚ :=
  (((start slewConfig (7 / 10) (3 / 10)).step (.sample 0 0)).after.step
    (.sample 0 1000000000)).after

/-- The smallest offset is slewed as well. -/
theorem not_antiWindup_minValue :
    ¬AntiWindup (start slewConfig (7 / 10) (3 / 10)) (lockAndTrack Int64.minValue) := by
  intro h
  have hmem : lockedServo.step (.sample Int64.minValue 2000000000) ∈
      (start slewConfig (7 / 10) (3 / 10)).steps (lockAndTrack Int64.minValue) :=
    List.mem_cons_of_mem _ (List.mem_cons_of_mem _ List.mem_cons_self)
  have hcount : lockedServo.count = 2 := by decide +kernel
  have habove : Above Int64.minValue (start slewConfig (7 / 10) (3 / 10)).stepThreshold := by
    refine (above_minValue _).mpr ⟨?_, ?_⟩
    · decide +kernel
    · decide +kernel
  obtain ⟨⟨ppb, hunlocked⟩, -⟩ :=
    h.unlocks_above _ hmem Int64.minValue 2000000000 rfl hcount habove
  have hlocked : (lockedServo.step (.sample Int64.minValue 2000000000)).result.map Prod.snd =
      some .locked := by
    decide +kernel
  rw [hunlocked] at hlocked
  cases hlocked

end Overflow

end ProcessBus.Ptp.Client
