import ProcessBus.Go.Int64
import ProcessBus.Sv.Publisher

/-!
# The slots of the published frames

Whatever the clock does, the publisher's readings and frames form a `SlotTrace`: no frame before
the first slot of a whole second, then a frame for every reading that is not earlier than the slot
awaited, which is always the one after the last reading.  The loop refines this description
(`slotTrace_trace`), and the properties of the frames follow from it alone.
-/

namespace ProcessBus.Sv.Publisher

open Go

/-! ## Slots as numbers -/

/-- The slot that contains an instant. -/
def slotOf (rate : ℤ) (t : Time) : ℤ := t.unix * rate + t.nanosecond * rate / 1000000000

/-- An instant after 1970 up to whose next whole second the slots have 64-bit numbers. -/
def InRange (rate : ℤ) (t : Time) : Prop := 0 ≤ t.unix ∧ (t.unix + 1) * rate < 2 ^ 63

instance (rate : ℤ) (t : Time) : Decidable (InRange rate t) := inferInstanceAs (Decidable (_ ∧ _))

section Slots

variable {rate : ℤ} {t : Time}

/-- The slots of a second are numbered from its beginning. -/
theorem slotInSecond_nonneg (hrate : 0 < rate) : 0 ≤ t.nanosecond * rate / 1000000000 :=
  Int.ediv_nonneg (mul_nonneg t.nanosecond_nonneg hrate.le) (by decide)

theorem slotInSecond_lt (hrate : 0 < rate) : t.nanosecond * rate / 1000000000 < rate := by
  have hlt := mul_lt_mul_of_pos_right t.nanosecond_lt hrate
  exact Int.ediv_lt_of_lt_mul (by decide) (by linarith)

theorem slotOf_emod (hrate : 0 < rate) :
    slotOf rate t % rate = t.nanosecond * rate / 1000000000 := by
  rw [slotOf, Int.mul_add_emod_self_right]
  exact Int.emod_eq_of_lt (slotInSecond_nonneg hrate) (slotInSecond_lt hrate)

/-- A slot is a multiple of the rate only at the beginning of a second. -/
theorem slotOf_eq_of_emod (hrate : 0 < rate) (h : slotOf rate t % rate = 0) :
    slotOf rate t = t.unix * rate := by
  rw [slotOf_emod hrate] at h
  rw [slotOf, h, add_zero]

variable (ht : InRange rate t)

include ht

theorem slotOf_nonneg (hrate : 0 < rate) : 0 ≤ slotOf rate t :=
  add_nonneg (mul_nonneg ht.1 hrate.le) (slotInSecond_nonneg hrate)

/-- The slot after it still has a number. -/
theorem slotOf_succ_lt (hrate : 0 < rate) : slotOf rate t + 1 < 2 ^ 63 := by
  have hlt := slotInSecond_lt (t := t) hrate
  have hmax := ht.2
  rw [slotOf]
  linarith

end Slots

section Words

variable {sps : Int64} (hrate : 0 < sps.toInt)

include hrate

theorem rateOr4000_of_pos : rateOr4000 sps = sps := by
  refine if_neg ?_
  rw [Int64.le_iff_toInt_le, not_le]
  exact hrate

variable (hle : sps.toInt ≤ 65536) {t : Time} (ht : InRange sps.toInt t)

include ht

theorem fits64_unix_mul {x : ℤ} (h₀ : 0 ≤ x) (h₁ : x ≤ t.unix + 1) : Fits64 (x * sps.toInt) := by
  have hmax := ht.2
  exact ⟨by nlinarith, by nlinarith⟩

theorem fits64_unix {x : ℤ} (h₀ : 0 ≤ x) (h₁ : x ≤ t.unix + 1) : Fits64 x := by
  have hmax := ht.2
  exact ⟨by omega, by nlinarith⟩

/-- `nextSecondSampleSlot` is the first slot of the next second. -/
theorem toInt_nextSecondSampleSlot :
    (nextSecondSampleSlot t sps).toInt = (t.unix + 1) * sps.toInt := by
  have h₀ := ht.1
  have hunix : (Int64.ofInt t.unix).toInt = t.unix :=
    toInt_ofInt (fits64_unix hrate ht h₀ (by omega))
  have hsucc : (Int64.ofInt t.unix + 1).toInt = t.unix + 1 := by
    rw [toInt_add, hunix]
    · rfl
    · rw [hunix]
      exact fits64_unix hrate ht (show 0 ≤ t.unix + 1 by omega) le_rfl
  rw [nextSecondSampleSlot, rateOr4000_of_pos hrate, toInt_mul, hsucc]
  rw [hsucc]
  exact fits64_unix_mul hrate ht (by omega) le_rfl

include hle

/-- `sampleSlotAt` is the slot that contains the instant. -/
theorem toInt_sampleSlotAt : (sampleSlotAt t sps).toInt = slotOf sps.toInt t := by
  have h₀ := ht.1
  have hn₀ := t.nanosecond_nonneg
  have hn₁ := t.nanosecond_lt
  have hunix : (Int64.ofInt t.unix).toInt = t.unix :=
    toInt_ofInt (fits64_unix hrate ht h₀ (by omega))
  have hnano : (Int64.ofInt t.nanosecond).toInt = t.nanosecond :=
    toInt_ofInt ⟨by omega, by omega⟩
  have hsecond : (Int64.ofInt t.unix * sps).toInt = t.unix * sps.toInt := by
    rw [toInt_mul, hunix]
    rw [hunix]
    exact fits64_unix_mul hrate ht h₀ (by omega)
  have hscaled : (Int64.ofInt t.nanosecond * sps).toInt = t.nanosecond * sps.toInt := by
    rw [toInt_mul, hnano]
    rw [hnano]
    exact ⟨by nlinarith, by nlinarith⟩
  have hfraction : (Int64.ofInt t.nanosecond * sps / nanosecondsPerSecond).toInt =
      t.nanosecond * sps.toInt / 1000000000 := by
    rw [toInt_div (by decide), hscaled]
    exact Int.tdiv_eq_ediv_of_nonneg (mul_nonneg hn₀ hrate.le)
  have hnonneg := slotOf_nonneg ht hrate
  have hlt := slotOf_succ_lt ht hrate
  rw [slotOf] at hnonneg hlt
  rw [sampleSlotAt, rateOr4000_of_pos hrate, toInt_add, hsecond, hfraction, slotOf]
  rw [hsecond, hfraction]
  exact ⟨by omega, by omega⟩

end Words

theorem toInt_mod_of_nonneg {a b : Int64} (ha : 0 ≤ a.toInt) :
    (a % b).toInt = a.toInt % b.toInt := by
  rw [Int64.toInt_mod]
  exact Int.tmod_eq_emod_of_nonneg ha

theorem toInt_succ {a : Int64} {x : ℤ} (ha : a.toInt = x) (h₀ : 0 ≤ x) (h : x + 1 < 2 ^ 63) :
    (a + 1).toInt = x + 1 := by
  have hfits : Fits64 (a.toInt + (1 : Int64).toInt) := by
    rw [ha]
    exact ⟨by show -2 ^ 63 ≤ x + 1; omega, h⟩
  rw [toInt_add hfits, ha]
  rfl

/-! ## The description -/

/-- `FramesSent + SkippedSamples`. -/
def TimingStats.total (stats : TimingStats) : UInt64 := stats.framesSent + stats.skippedSamples

/-- The samples that a frame reports as skipped before it. -/
def Reading.skipped (r : Reading) : UInt64 := r.after.skippedSamples - r.before.skippedSamples

/-- A reading at which a frame is written. -/
structure Sends (rate : ℤ) (r : Reading) (awaited : ℤ) : Prop where
  due : awaited ≤ slotOf rate r.clockNow
  smpCnt : ∃ a, r.sent = some a ∧ (a.smpCnt.toNat : ℤ) = slotOf rate r.clockNow % rate
  framesSent : r.after.framesSent = r.before.framesSent + 1
  skippedSamples : r.after.skippedSamples =
    r.before.skippedSamples + UInt64.ofNat (slotOf rate r.clockNow - awaited).toNat

/-- A reading at which nothing happens. -/
structure Idles (r : Reading) : Prop where
  sent : r.sent = none
  after : r.after = r.before

/-- The readings of a publisher, from a state on: before its first frame (`none`), or awaiting a
slot. -/
inductive SlotTrace (rate : ℤ) : Option ℤ → TimingStats → List Reading → Prop
  | nil {phase : Option ℤ} {stats : TimingStats} : SlotTrace rate phase stats []
  /-- Before the first frame any reading may pass. -/
  | hold {stats : TimingStats} {r : Reading} {rs : List Reading} (hbefore : r.before = stats)
      (hidle : Idles r) (h : SlotTrace rate none r.after rs) : SlotTrace rate none stats (r :: rs)
  /-- The first frame belongs to the first slot of a second. -/
  | first {stats : TimingStats} {r : Reading} {rs : List Reading} (hbefore : r.before = stats)
      (hsecond : slotOf rate r.clockNow = r.clockNow.unix * rate)
      (hsends : Sends rate r (slotOf rate r.clockNow))
      (h : SlotTrace rate (some (slotOf rate r.clockNow + 1)) r.after rs) :
      SlotTrace rate none stats (r :: rs)
  /-- A reading before the slot awaited; the slot after it is awaited next. -/
  | early {n : ℤ} {stats : TimingStats} {r : Reading} {rs : List Reading}
      (hbefore : r.before = stats) (hearly : slotOf rate r.clockNow < n) (hidle : Idles r)
      (h : SlotTrace rate (some (slotOf rate r.clockNow + 1)) r.after rs) :
      SlotTrace rate (some n) stats (r :: rs)
  /-- A frame for the slot of the reading, which accounts for the slots that it skips. -/
  | next {n : ℤ} {stats : TimingStats} {r : Reading} {rs : List Reading}
      (hbefore : r.before = stats) (hsends : Sends rate r n)
      (h : SlotTrace rate (some (slotOf rate r.clockNow + 1)) r.after rs) :
      SlotTrace rate (some n) stats (r :: rs)
  /-- A frame that cannot be written ends the run. -/
  | failed {phase : Option ℤ} {stats : TimingStats} {r : Reading} (hbefore : r.before = stats)
      (hsent : r.sent = none) : SlotTrace rate phase stats [r]

/-! ## Refinement -/

variable {F : Type} [FloatMath F]

/-- The loop is in a phase of the description. -/
structure Agrees (l : Loop F) (phase : Option ℤ) : Prop where
  pos : 0 < l.samplesPerSecond.toInt
  le : l.samplesPerSecond.toInt ≤ 65536
  nonneg : 0 ≤ l.nextSlot.toInt
  waiting : l.waitingForSecond = phase.isNone
  second : phase = none → l.nextSlot.toInt % l.samplesPerSecond.toInt = 0
  slot : ∀ n ∈ phase, l.nextSlot.toInt = n

section Aim

variable {l : Loop F} {w : Wakeup F}

/-- Before the first frame: wait on for the beginning of a second, or send at one. -/
theorem aim_waiting (hl : Agrees l none) (ht : InRange l.samplesPerSecond.toInt w.clockNow) :
    (∃ l', l.aim w = .wait l' ∧ Agrees l' none ∧ l'.samplesPerSecond = l.samplesPerSecond ∧
        l'.result = l.result) ∨
      ∃ n, l.aim w = .send n ∧ n.toInt = slotOf l.samplesPerSecond.toInt w.clockNow ∧
        slotOf l.samplesPerSecond.toInt w.clockNow =
          w.clockNow.unix * l.samplesPerSecond.toInt := by
  have hslot := toInt_sampleSlotAt hl.pos hl.le ht
  have hnext := toInt_nextSecondSampleSlot hl.pos ht
  have hnonneg := slotOf_nonneg ht hl.pos
  have hunix := ht.1
  have hmultiple : (nextSecondSampleSlot w.clockNow l.samplesPerSecond).toInt %
      l.samplesPerSecond.toInt = 0 := by
    rw [hnext]
    exact Int.mul_emod_left _ _
  have hnext₀ : 0 ≤ (nextSecondSampleSlot w.clockNow l.samplesPerSecond).toInt := by
    rw [hnext]
    exact mul_nonneg (by omega) hl.pos.le
  have hwaiting : l.waitingForSecond = true := hl.waiting
  have hmod := toInt_mod_of_nonneg (b := l.samplesPerSecond) (hnonneg.trans_eq hslot.symm)
  have hmod₀ : ¬ sampleSlotAt w.clockNow l.samplesPerSecond % l.samplesPerSecond < 0 := by
    rw [Int64.lt_iff_toInt_lt, hmod, not_lt]
    exact Int.emod_nonneg _ hl.pos.ne'
  unfold Loop.aim
  dsimp only
  rw [if_pos hwaiting, if_neg hmod₀]
  split
  · have hrebased : 0 ≤ (if nextSecondSampleSlot w.clockNow l.samplesPerSecond < l.nextSlot then
        nextSecondSampleSlot w.clockNow l.samplesPerSecond else l.nextSlot).toInt ∧
        (if nextSecondSampleSlot w.clockNow l.samplesPerSecond < l.nextSlot then
          nextSecondSampleSlot w.clockNow l.samplesPerSecond else l.nextSlot).toInt %
            l.samplesPerSecond.toInt = 0 := by
      split
      · exact ⟨hnext₀, hmultiple⟩
      · exact ⟨hl.nonneg, hl.second rfl⟩
    exact .inl ⟨_, rfl, ⟨hl.pos, hl.le, hrebased.1, hl.waiting, fun _ ↦ hrebased.2, nofun⟩, rfl, rfl⟩
  · rename_i hge
    split
    · rename_i h
      refine .inr ⟨_, rfl, hslot, slotOf_eq_of_emod hl.pos ?_⟩
      rw [← hslot, ← hmod, h.2]
      rfl
    · split
      · exact .inl ⟨_, rfl, ⟨hl.pos, hl.le, hnext₀, hl.waiting, fun _ ↦ hmultiple, nofun⟩, rfl, rfl⟩
      · rename_i hle
        rw [Int64.lt_iff_toInt_lt, not_lt, hslot] at hge hle
        have heq : l.nextSlot.toInt = slotOf l.samplesPerSecond.toInt w.clockNow := by omega
        refine .inr ⟨_, rfl, heq, slotOf_eq_of_emod hl.pos ?_⟩
        rw [← heq]
        exact hl.second rfl

/-- After it: wait for the slot after an early reading, or send for the slot of the reading. -/
theorem aim_steady {n : ℤ} (hl : Agrees l (some n))
    (ht : InRange l.samplesPerSecond.toInt w.clockNow) :
    (∃ l', l.aim w = .wait l' ∧ slotOf l.samplesPerSecond.toInt w.clockNow < n ∧
        Agrees l' (some (slotOf l.samplesPerSecond.toInt w.clockNow + 1)) ∧
        l'.samplesPerSecond = l.samplesPerSecond ∧ l'.result = l.result) ∨
      l.aim w = .send l.nextSlot ∧ n ≤ slotOf l.samplesPerSecond.toInt w.clockNow := by
  have hslot := toInt_sampleSlotAt hl.pos hl.le ht
  have hnonneg := slotOf_nonneg ht hl.pos
  have hsucc := slotOf_succ_lt ht hl.pos
  have hn := hl.slot n rfl
  have hn₀ := hl.nonneg
  have hmax := l.nextSlot.toInt_lt
  have hsteady : ¬ l.waitingForSecond = true := by
    rw [hl.waiting]
    exact nofun
  unfold Loop.aim
  dsimp only
  rw [if_neg hsteady]
  split
  · rename_i hlt
    rw [Int64.lt_iff_toInt_lt, hslot, hn] at hlt
    refine .inl ⟨_, rfl, hlt, ?_, rfl, rfl⟩
    have hnew : (if 1 < l.nextSlot - sampleSlotAt w.clockNow l.samplesPerSecond then
        sampleSlotAt w.clockNow l.samplesPerSecond + 1 else l.nextSlot).toInt =
          slotOf l.samplesPerSecond.toInt w.clockNow + 1 := by
      have hdiff : (l.nextSlot - sampleSlotAt w.clockNow l.samplesPerSecond).toInt =
          n - slotOf l.samplesPerSecond.toInt w.clockNow := by
        rw [toInt_sub, hslot, hn]
        rw [hslot, hn]
        exact ⟨by omega, by omega⟩
      split
      · exact toInt_succ hslot hnonneg hsucc
      · rename_i hclose
        rw [Int64.lt_iff_toInt_lt, hdiff, not_lt, Int64.toInt_one] at hclose
        omega
    refine ⟨hl.pos, hl.le, ?_, hl.waiting, nofun, ?_⟩
    · exact (show 0 ≤ slotOf l.samplesPerSecond.toInt w.clockNow + 1 by omega).trans_eq hnew.symm
    · rintro m ⟨⟩
      exact hnew
  · rename_i hge
    rw [Int64.lt_iff_toInt_lt, not_lt, hslot, hn] at hge
    exact .inr ⟨rfl, hge⟩

end Aim

section Send

variable {s : Service F}

theorem transmit_timing (d : Delivery) : (s.transmit d).2.1.timing = s.timing := by
  unfold Service.transmit
  split
  · rfl
  · dsimp only
    split <;> rfl

/-- A frame carries the count that the service has aligned to. -/
theorem transmit_smpCnt {d : Delivery} {a : Wire.ASDU} (h : (s.transmit d).1 = .ok a) :
    a.smpCnt = s.smpCnt := by
  unfold Service.transmit at h
  split at h
  · cases h
  · dsimp only at h
    split at h
    · cases h
    · cases h
      rfl

omit [FloatMath F] in
theorem alignToClockSlot_timing (slot sps : Int64) :
    (s.alignToClockSlot slot sps).timing = s.timing := by
  unfold Service.alignToClockSlot
  split <;> rfl

omit [FloatMath F] in
theorem alignToClockSlot_smpCnt {slot sps : Int64} (hpos : 0 < sps.toInt) (hle : sps.toInt ≤ 65536)
    (hslot : 0 ≤ slot.toInt) :
    ((s.alignToClockSlot slot sps).smpCnt.toNat : ℤ) = slot.toInt % sps.toInt := by
  have hnonneg : ¬ slot < 0 := by
    rw [Int64.lt_iff_toInt_lt, not_lt]
    exact hslot
  have hmod := toInt_mod_of_nonneg (b := sps) hslot
  have h₀ := Int.emod_nonneg slot.toInt hpos.ne'
  have h₁ := Int.emod_lt_of_pos slot.toInt hpos
  rw [Service.alignToClockSlot, if_neg hnonneg]
  dsimp only
  rw [toUInt64_of_nonneg (by omega), hmod, UInt64.toNat_toUInt16, UInt64.toNat_ofNat']
  omega

omit [FloatMath F] in
theorem recordWakeup_timing (skipped : UInt64) (lateness : Duration) :
    (s.recordWakeup skipped lateness).timing.framesSent = s.timing.framesSent ∧
      (s.recordWakeup skipped lateness).timing.skippedSamples = s.timing.skippedSamples + skipped := by
  unfold Service.recordWakeup
  dsimp only
  split <;> exact ⟨rfl, rfl⟩

theorem send_clockNow (s : State F) (w : Wakeup F) (n : Int64) :
    (s.send w n).2.clockNow = w.clockNow := by
  unfold State.send
  dsimp only
  split <;> rfl

/-- What comes of a frame that is due. -/
theorem send_spec {s : State F} {w : Wakeup F} {n : Int64} {phase : Option ℤ}
    (hl : Agrees s.loop phase) (ht : InRange s.loop.samplesPerSecond.toInt w.clockNow)
    (hn : 0 ≤ n.toInt) (hdue : n.toInt ≤ slotOf s.loop.samplesPerSecond.toInt w.clockNow) :
    (s.send w n).2.before = s.service.timing ∧
      ((s.send w n).2.sent = none ∧ (s.send w n).1.loop.result.isSome ∨
        Sends s.loop.samplesPerSecond.toInt (s.send w n).2 n.toInt ∧
          (s.send w n).1.service.timing = (s.send w n).2.after ∧
          Agrees (s.send w n).1.loop
            (some (slotOf s.loop.samplesPerSecond.toInt w.clockNow + 1)) ∧
          (s.send w n).1.loop.samplesPerSecond = s.loop.samplesPerSecond) := by
  have hslot := toInt_sampleSlotAt hl.pos hl.le ht
  have hnonneg := slotOf_nonneg ht hl.pos
  have hsucc := slotOf_succ_lt ht hl.pos
  have hdiff : (sampleSlotAt w.clockNow s.loop.samplesPerSecond - n).toUInt64 =
      UInt64.ofNat (slotOf s.loop.samplesPerSecond.toInt w.clockNow - n.toInt).toNat := by
    have hsub : (sampleSlotAt w.clockNow s.loop.samplesPerSecond - n).toInt =
        slotOf s.loop.samplesPerSecond.toInt w.clockNow - n.toInt := by
      rw [toInt_sub, hslot]
      rw [hslot]
      exact ⟨by omega, by omega⟩
    rw [toUInt64_of_nonneg (by omega), hsub]
  obtain ⟨hframes, hskipped⟩ := recordWakeup_timing (s := s.service)
    (sampleSlotAt w.clockNow s.loop.samplesPerSecond - n).toUInt64
    (w.clockNow.sub (sampleSlotStart n s.loop.samplesPerSecond))
  unfold State.send
  dsimp only
  generalize s.service.recordWakeup (sampleSlotAt w.clockNow s.loop.samplesPerSecond - n).toUInt64
    (w.clockNow.sub (sampleSlotStart n s.loop.samplesPerSecond)) = service at hframes hskipped
  have hcount := alignToClockSlot_smpCnt (s := service) hl.pos hl.le (hnonneg.trans_eq hslot.symm)
  have htiming := (transmit_timing w.delivery).trans (alignToClockSlot_timing (s := service)
    (sampleSlotAt w.clockNow s.loop.samplesPerSecond) s.loop.samplesPerSecond)
  have hsmpCnt := @transmit_smpCnt F _ (service.alignToClockSlot
    (sampleSlotAt w.clockNow s.loop.samplesPerSecond) s.loop.samplesPerSecond) w.delivery
  generalize (service.alignToClockSlot (sampleSlotAt w.clockNow s.loop.samplesPerSecond)
    s.loop.samplesPerSecond).transmit w.delivery = result at htiming hsmpCnt
  obtain ⟨outcome, service', receipt⟩ := result
  dsimp only at htiming hsmpCnt
  cases outcome with
  | error err => exact ⟨rfl, .inl ⟨rfl, rfl⟩⟩
  | ok a =>
      have hnext := toInt_succ hslot hnonneg hsucc
      refine ⟨rfl, .inr ⟨⟨hdue, ⟨a, rfl, ?_⟩, ?_, ?_⟩, rfl, ?_, rfl⟩⟩
      · rw [hsmpCnt rfl, hcount, hslot]
      · show service'.timing.framesSent + 1 = _
        rw [htiming, hframes]
      · show service'.timing.skippedSamples = _
        rw [htiming, hskipped, hdiff]
      · exact ⟨hl.pos, hl.le, (show 0 ≤ slotOf s.loop.samplesPerSecond.toInt w.clockNow + 1 by
          omega).trans_eq hnext.symm, rfl, nofun, by rintro m ⟨⟩; exact hnext⟩

end Send

/-- A loop that has returned reads nothing any more. -/
theorem trace_of_ended {s : State F} (h : s.loop.result.isSome) (events : List (Event F)) :
    s.trace events = [] := by
  induction events generalizing s with
  | nil => rfl
  | cons e events ih =>
      rw [State.trace]
      cases e with
      | wakeup w =>
          have hstep : s.step (.wakeup w) = (s, none) := if_pos h
          rw [hstep]
          exact ih h
      | setWaveform settings simulation smpSynch transmission =>
          unfold State.step
          dsimp only
          split
          · exact ih h
          · exact ih (s := { s with service := _ }) h

theorem setWaveform_timing {s s' : Service F} {settings : Channels (ChannelSetting F)}
    {simulation : Bool} {smpSynch : UInt8} {transmission : Option ℕ}
    {receipt : Option (ℕ × SendReceipt)}
    (h : setWaveform s settings simulation smpSynch transmission = .ok (s', receipt)) :
    s'.timing = s.timing := by
  unfold setWaveform at h
  dsimp only at h
  split at h
  · cases h
  · cases h
    rfl

/-- A wakeup reads nothing, waits on or sends. -/
theorem wake_cases (s : State F) (w : Wakeup F) :
    (∃ s' : State F, s.wake w = (s', none) ∧ s'.loop.result.isSome) ∨
      (∃ l, s.loop.aim w = .wait l ∧ s.wake w = ({ s with loop := l },
        some ⟨w.clockNow, none, s.service.timing, s.service.timing⟩)) ∨
      ∃ n, s.loop.aim w = .send n ∧ s.wake w = ((s.send w n).1, some (s.send w n).2) := by
  unfold State.wake
  split
  · rename_i h
    exact .inl ⟨s, rfl, h⟩
  · split
    · exact .inl ⟨_, rfl, rfl⟩
    · split
      · rename_i l haim
        exact .inr (.inl ⟨l, haim, rfl⟩)
      · rename_i n haim
        exact .inr (.inr ⟨n, haim, rfl⟩)

/-- **The loop refines the description**, whatever its wakeups are. -/
theorem slotTrace_trace {s : State F} {phase : Option ℤ} {events : List (Event F)}
    (hs : Agrees s.loop phase)
    (hr : ∀ r ∈ s.trace events, InRange s.loop.samplesPerSecond.toInt r.clockNow) :
    SlotTrace s.loop.samplesPerSecond.toInt phase s.service.timing (s.trace events) := by
  induction events generalizing s phase with
  | nil => exact .nil
  | cons e events ih =>
      cases e with
      | setWaveform settings simulation smpSynch transmission =>
          rw [State.trace] at hr ⊢
          unfold State.step at hr ⊢
          dsimp only at hr ⊢
          split at hr
          · exact ih hs hr
          · rename_i service receipt hset
            have := ih (s := { s with service }) hs hr
            rw [setWaveform_timing hset] at this
            exact this
      | wakeup w =>
          rw [State.trace, State.step] at hr ⊢
          rcases wake_cases s w with ⟨s', hwake, hended⟩ | ⟨l, haim, hwake⟩ | ⟨n, haim, hwake⟩
          · rw [hwake, trace_of_ended hended]
            exact .nil
          · rw [hwake] at hr ⊢
            have ht := hr _ List.mem_cons_self
            have hrest (r : Reading) (h : r ∈ _) := hr r (List.mem_cons_of_mem _ h)
            cases phase with
            | none =>
                obtain ⟨l', haim', hl', hsps, -⟩ | ⟨n, haim', -⟩ := aim_waiting hs ht
                · cases haim.symm.trans haim'
                  rw [← hsps] at hrest ⊢
                  exact .hold rfl ⟨rfl, rfl⟩ (ih (s := { s with loop := l }) hl' hrest)
                · exact absurd (haim.symm.trans haim') nofun
            | some n =>
                obtain ⟨l', haim', hearly, hl', hsps, -⟩ | ⟨haim', -⟩ := aim_steady hs ht
                · cases haim.symm.trans haim'
                  rw [← hsps] at hrest hearly hl' ⊢
                  exact .early rfl hearly ⟨rfl, rfl⟩ (ih (s := { s with loop := l }) hl' hrest)
                · exact absurd (haim.symm.trans haim') nofun
          · rw [hwake] at hr ⊢
            have ht := hr _ List.mem_cons_self
            have hrest (r : Reading) (h : r ∈ _) := hr r (List.mem_cons_of_mem _ h)
            rw [send_clockNow] at ht
            have hclock := send_clockNow s w n
            cases phase with
            | none =>
                obtain ⟨l, haim', -⟩ | ⟨m, haim', hm, hsecond⟩ := aim_waiting hs ht
                · exact absurd (haim.symm.trans haim') nofun
                · cases haim.symm.trans haim'
                  obtain ⟨hbefore, ⟨hsent, hended⟩ | ⟨hsends, hafter, hl', hsps⟩⟩ :=
                    send_spec hs ht (hm ▸ slotOf_nonneg ht hs.pos) hm.le
                  · rw [trace_of_ended hended]
                    exact .failed hbefore hsent
                  · rw [← hclock] at hsecond hm hl'
                    rw [hm] at hsends
                    have := ih hl' (by rw [hsps]; exact hrest)
                    rw [hsps, hafter] at this
                    exact .first hbefore hsecond hsends this
            | some m =>
                obtain ⟨l, haim', -⟩ | ⟨haim', hdue⟩ := aim_steady hs ht
                · exact absurd (haim.symm.trans haim') nofun
                · cases haim.symm.trans haim'
                  have hm := hs.slot m rfl
                  obtain ⟨hbefore, ⟨hsent, hended⟩ | ⟨hsends, hafter, hl', hsps⟩⟩ :=
                    send_spec hs ht hs.nonneg (hm.trans_le hdue)
                  · rw [trace_of_ended hended]
                    exact .failed hbefore hsent
                  · rw [← hclock] at hl'
                    rw [hm] at hsends
                    have := ih hl' (by rw [hsps]; exact hrest)
                    rw [hsps, hafter] at this
                    exact .next hbefore hsends this

theorem rateOr4000_pos (sps : Int64) : 0 < (rateOr4000 sps).toInt := by
  unfold rateOr4000
  split
  · decide
  · rename_i h
    rw [Int64.le_iff_toInt_le, not_le] at h
    exact h

theorem scheduledRate_pos (cfg : PublisherConfig) (interval : Duration) :
    0 < (scheduledRate cfg interval).toInt := rateOr4000_pos _

theorem agrees_start {cfg : PublisherConfig} {interval : Duration} {clockNow now : Time}
    {status : SourceStatus F} (hle : (scheduledRate cfg interval).toInt ≤ 65536)
    (ht : InRange (scheduledRate cfg interval).toInt clockNow) :
    Agrees (Loop.start cfg interval clockNow now status) none := by
  have hpos := scheduledRate_pos cfg interval
  have hnext := toInt_nextSecondSampleSlot hpos ht
  have hunix := ht.1
  refine ⟨hpos, hle, ?_, rfl, fun _ ↦ ?_, nofun⟩
  · show 0 ≤ (nextSecondSampleSlot _ _).toInt
    rw [hnext]
    exact mul_nonneg (by omega) hpos.le
  · show (nextSecondSampleSlot _ _).toInt % _ = 0
    rw [hnext]
    exact Int.mul_emod_left _ _

/-! ## What follows from the description -/

section Follows

variable {rate : ℤ} {phase : Option ℤ} {stats : TimingStats}

theorem Sends.isSome {r : Reading} {n : ℤ} (h : Sends rate r n) : r.sent.isSome := by
  obtain ⟨a, ha, -⟩ := h.smpCnt
  rw [ha]
  rfl

theorem Idles.not_isSome {r : Reading} (h : Idles r) : ¬ r.sent.isSome := by
  rw [h.sent]
  exact nofun

theorem Sends.skipped {r : Reading} {n : ℤ} (h : Sends rate r n) :
    r.skipped = UInt64.ofNat (slotOf rate r.clockNow - n).toNat := by
  rw [Reading.skipped, h.skippedSamples, UInt64.add_comm, UInt64.add_sub_cancel]

/-- A frame accounts for itself and for the slots that it skips. -/
theorem Sends.total {r : Reading} {n : ℤ} (h : Sends rate r n) :
    r.after.total = r.before.total + UInt64.ofNat (slotOf rate r.clockNow - n + 1).toNat := by
  have hdue := h.due
  have hsum : (slotOf rate r.clockNow - n + 1).toNat =
      (slotOf rate r.clockNow - n).toNat + 1 := by omega
  rw [TimingStats.total, h.framesSent, h.skippedSamples, hsum, UInt64.ofNat_add, TimingStats.total]
  show _ = _ + (UInt64.ofNat _ + 1)
  ac_rfl

/-- Every frame carries the count of its slot. -/
theorem SlotTrace.smpCnt {rs : List Reading} (h : SlotTrace rate phase stats rs) :
    ∀ r ∈ rs, ∀ a, r.sent = some a → (a.smpCnt.toNat : ℤ) = slotOf rate r.clockNow % rate := by
  have hidle {r : Reading} (hidle : r.sent = none) {a : Wire.ASDU} (ha : r.sent = some a) : False :=
    absurd (hidle.symm.trans ha) nofun
  have hframe {r : Reading} {n : ℤ} (hsends : Sends rate r n) (a : Wire.ASDU) (ha : r.sent = some a) :
      (a.smpCnt.toNat : ℤ) = slotOf rate r.clockNow % rate := by
    obtain ⟨b, hb, hcount⟩ := hsends.smpCnt
    cases hb.symm.trans ha
    exact hcount
  induction h with
  | nil => exact fun r hr ↦ absurd hr List.not_mem_nil
  | hold _ hi _ ih | early _ _ hi _ ih =>
      exact List.forall_mem_cons.mpr ⟨fun a ha ↦ (hidle hi.sent ha).elim, ih⟩
  | first _ _ hsends _ ih | next _ hsends _ ih =>
      exact List.forall_mem_cons.mpr ⟨hframe hsends, ih⟩
  | failed _ hsent => exact List.forall_mem_singleton.mpr fun a ha ↦ (hidle hsent ha).elim

/-- The first frame stands at the beginning of a second, and nothing is skipped before it. -/
theorem SlotTrace.first_frame {pre post : List Reading} {r : Reading}
    (h : SlotTrace rate none stats (pre ++ r :: post)) (hpre : ∀ x ∈ pre, x.sent = none)
    (hr : r.sent.isSome) :
    slotOf rate r.clockNow = r.clockNow.unix * rate ∧ r.skipped = 0 := by
  induction pre generalizing stats with
  | nil =>
      cases h with
      | hold _ hidle => exact absurd hr hidle.not_isSome
      | first _ hsecond hsends =>
          refine ⟨hsecond, ?_⟩
          rw [hsends.skipped, sub_self]
          rfl
      | failed _ hsent =>
          rw [hsent] at hr
          exact absurd hr nofun
  | cons x pre ih =>
      rw [List.forall_mem_cons] at hpre
      rw [List.cons_append] at h
      generalize hrest : pre ++ r :: post = rest at h
      cases h with
      | hold _ _ h =>
          subst hrest
          exact ih h hpre.2
      | first _ _ hsends =>
          have := hsends.isSome
          rw [hpre.1] at this
          exact absurd this nofun
      | failed => exact absurd hrest (by simp)

/-- Behind a frame the next slot is awaited. -/
theorem SlotTrace.after_frame {pre rest : List Reading} {r : Reading}
    (h : SlotTrace rate phase stats (pre ++ r :: rest)) (hr : r.sent.isSome) :
    (∃ n, Sends rate r n) ∧ SlotTrace rate (some (slotOf rate r.clockNow + 1)) r.after rest := by
  induction pre generalizing phase stats with
  | nil =>
      cases h with
      | hold _ hidle => exact absurd hr hidle.not_isSome
      | first _ _ hsends h => exact ⟨⟨_, hsends⟩, h⟩
      | early _ _ hidle => exact absurd hr hidle.not_isSome
      | next _ hsends h => exact ⟨⟨_, hsends⟩, h⟩
      | failed _ hsent =>
          rw [hsent] at hr
          exact absurd hr nofun
  | cons x pre ih =>
      rw [List.cons_append] at h
      generalize hrest : pre ++ r :: rest = rs at h
      cases h with
      | hold _ _ h | first _ _ _ h | early _ _ _ h | next _ _ h =>
          subst hrest
          exact ih h
      | failed => exact absurd hrest (by simp)

/-- A frame stands behind the last one, unless the clock was seen before that. -/
theorem SlotTrace.next_frame {mid post : List Reading} {r : Reading} {c : ℤ}
    (h : SlotTrace rate (some (c + 1)) stats (mid ++ r :: post)) (hr : r.sent.isSome)
    (hmid : ∀ x ∈ mid, x.sent = none) (hback : ∀ x ∈ mid, c ≤ slotOf rate x.clockNow) :
    c < slotOf rate r.clockNow := by
  induction mid generalizing stats with
  | nil =>
      cases h with
      | early _ _ hidle => exact absurd hr hidle.not_isSome
      | next _ hsends => exact Int.lt_of_add_one_le hsends.due
      | failed _ hsent =>
          rw [hsent] at hr
          exact absurd hr nofun
  | cons x mid ih =>
      rw [List.forall_mem_cons] at hmid hback
      rw [List.cons_append] at h
      generalize hrest : mid ++ r :: post = rs at h
      cases h with
      | early _ hearly _ h =>
          subst hrest
          have heq : slotOf rate x.clockNow = c := by
            have := hback.1
            omega
          rw [heq] at h
          exact ih h hmid.2 hback.2
      | next _ hsends =>
          have := hsends.isSome
          rw [hmid.1] at this
          exact absurd this nofun
      | failed => exact absurd hrest (by simp)

/-- No reading falls in a slot before that of the last frame. -/
def NoStepBack (rate : ℤ) : ℤ → List Reading → Prop
  | _, [] => True
  | c, r :: rs => c ≤ slotOf rate r.clockNow ∧
      NoStepBack rate (if r.sent.isSome then slotOf rate r.clockNow else c) rs

instance (rate : ℤ) : (c : ℤ) → (rs : List Reading) → Decidable (NoStepBack rate c rs)
  | _, [] => isTrue trivial
  | c, r :: rs => @instDecidableAnd _ _ _
      (instDecidableNoStepBack rate (if r.sent.isSome then slotOf rate r.clockNow else c) rs)

/-- **The counters account for every slot** between two frames of a stretch. -/
theorem SlotTrace.total {mid post : List Reading} {last : Reading} {c : ℤ}
    (h : SlotTrace rate (some (c + 1)) stats (mid ++ last :: post)) (hlast : last.sent.isSome)
    (hback : NoStepBack rate c (mid ++ [last])) :
    c < slotOf rate last.clockNow ∧
      last.after.total = stats.total + UInt64.ofNat (slotOf rate last.clockNow - c).toNat := by
  induction mid generalizing stats c with
  | nil =>
      cases h with
      | early _ _ hidle => exact absurd hlast hidle.not_isSome
      | next hbefore hsends =>
          subst hbefore
          have hdue := hsends.due
          have hsum : slotOf rate last.clockNow - (c + 1) + 1 = slotOf rate last.clockNow - c := by
            omega
          refine ⟨Int.lt_of_add_one_le hdue, ?_⟩
          rw [hsends.total, hsum]
      | failed _ hsent =>
          rw [hsent] at hlast
          exact absurd hlast nofun
  | cons x mid ih =>
      obtain ⟨hx, hback⟩ := hback
      rw [List.cons_append] at h
      generalize hrest : mid ++ last :: post = rs at h
      cases h with
      | early hbefore hearly hidle h =>
          subst hrest hbefore
          rw [if_neg hidle.not_isSome] at hback
          have heq : slotOf rate x.clockNow = c := by omega
          rw [heq, hidle.after] at h
          exact ih h hback
      | next hbefore hsends h =>
          subst hrest hbefore
          rw [if_pos hsends.isSome] at hback
          obtain ⟨hlt, htotal⟩ := ih h hback
          have hdue := hsends.due
          have hsum : (slotOf rate last.clockNow - c).toNat =
              (slotOf rate x.clockNow - (c + 1) + 1).toNat +
                (slotOf rate last.clockNow - slotOf rate x.clockNow).toNat := by omega
          refine ⟨by omega, ?_⟩
          rw [htotal, hsends.total, hsum, UInt64.ofNat_add, UInt64.add_assoc]
      | failed => exact absurd hrest (by simp)

end Follows

/-- **The slot discipline of the publisher.**  Whatever the wakeups and the clock readings are: the
first frame has count `0` and stands in the first slot of a second; every frame carries the count of
the slot of its reading; the slots of consecutive frames increase, unless a reading between them
fell before the earlier one; and where no reading does, the counters account for every slot from the
first frame to the last, besides what the first frame itself has skipped, which is nothing at the
beginning of the run. -/
theorem slot_discipline {service : Service F} {interval : Duration} {clockNow now : Time}
    {status : SourceStatus F} {events : List (Event F)} {rate : ℤ}
    (hrate : (scheduledRate service.cfg interval).toInt = rate) (hle : rate ≤ 65536)
    (hstart : InRange rate clockNow) {trace : List Reading}
    (htrace : (State.start service interval clockNow now status).trace events = trace)
    (hr : ∀ r ∈ trace, InRange rate r.clockNow) :
    (∀ pre r post a, trace = pre ++ r :: post → (∀ x ∈ pre, x.sent = none) → r.sent = some a →
      a.smpCnt = 0 ∧ slotOf rate r.clockNow = r.clockNow.unix * rate ∧ r.skipped = 0) ∧
    (∀ r ∈ trace, ∀ a, r.sent = some a →
      (a.smpCnt.toNat : ℤ) = slotOf rate r.clockNow % rate) ∧
    (∀ pre r mid r' post, trace = pre ++ r :: (mid ++ r' :: post) → r.sent.isSome →
      r'.sent.isSome → (∀ x ∈ mid, x.sent = none) →
      slotOf rate r.clockNow < slotOf rate r'.clockNow ∨
        ∃ x ∈ mid, slotOf rate x.clockNow < slotOf rate r.clockNow) ∧
    (∀ pre r rest post, trace = pre ++ r :: (rest ++ post) → r.sent.isSome →
      NoStepBack rate (slotOf rate r.clockNow) rest →
      ∀ last, (r :: rest).getLast? = some last → last.sent.isSome →
        last.after.total = r.before.total + r.skipped +
          UInt64.ofNat (slotOf rate last.clockNow - slotOf rate r.clockNow + 1).toNat) := by
  subst hrate htrace
  have h : SlotTrace (scheduledRate service.cfg interval).toInt none _ _ :=
    slotTrace_trace (s := .start service interval clockNow now status) (agrees_start hle hstart) hr
  generalize (State.start service interval clockNow now status).trace events = trace at h
  have hpos := scheduledRate_pos service.cfg interval
  generalize (scheduledRate service.cfg interval).toInt = rate at *
  refine ⟨?_, h.smpCnt, ?_, ?_⟩
  · rintro pre r post a rfl hpre hsent
    obtain ⟨hsecond, hskipped⟩ := h.first_frame hpre (by rw [hsent]; rfl)
    have hcount := h.smpCnt r (by simp) a hsent
    rw [hsecond, Int.mul_emod_left] at hcount
    refine ⟨?_, hsecond, hskipped⟩
    rw [← UInt16.toNat_inj]
    exact_mod_cast hcount
  · rintro pre r mid r' post rfl hr hr' hmid
    obtain ⟨-, hrest⟩ := h.after_frame hr
    by_cases hback : ∃ x ∈ mid, slotOf rate x.clockNow < slotOf rate r.clockNow
    · exact .inr hback
    · push Not at hback
      exact .inl (hrest.next_frame hr' hmid hback)
  · rintro pre r rest post rfl hr hback last hlast hsent
    obtain ⟨⟨n, hsends⟩, hrest⟩ := h.after_frame hr
    have hdue := hsends.due
    have hfirst : r.after.total = r.before.total + r.skipped + UInt64.ofNat 1 := by
      rw [hsends.total, hsends.skipped, UInt64.add_assoc, ← UInt64.ofNat_add]
      congr 2
      omega
    rcases List.eq_nil_or_concat' rest with rfl | ⟨mid, l, rfl⟩
    · obtain rfl : r = last := Option.some.inj hlast
      rw [hfirst, sub_self]
      rfl
    · have hl : l = last := by
        rw [← List.cons_append, List.getLast?_append] at hlast
        exact Option.some.inj hlast
      subst hl
      rw [List.append_assoc] at hrest
      obtain ⟨hlt, htotal⟩ := hrest.total hsent hback
      rw [htotal, hfirst, UInt64.add_assoc _ (UInt64.ofNat 1), ← UInt64.ofNat_add]
      congr 2
      omega

/-- A stream of `smpRate * frequency` samples a second. -/
def exampleConfig (smpRate sampleTimingFrequency : UInt16) : PublisherConfig where
  name := "sv"
  dstMAC := [1, 0x0C, 0xCD, 4, 0, 1]
  srcMAC := [2, 0, 0, 0, 0, 1]
  appID := 0x4000
  svID := [0x4D, 0x55]
  confRev := 1
  vlan := none
  smpRate
  sampleTimingFrequency
  smpSynch := 2

/-- A wakeup at a time of the clock, with nothing wrong about it. -/
def exampleWakeup (clockNow : Time) : Event ℚ :=
  .wakeup
    { waited := true
      cancelled := false
      clockNow
      now := clockNow
      lateStatus := ⟨false, 0⟩
      status := ⟨false, 0⟩
      delivery := ⟨.zero, .zero, none⟩ }

/-- The readings of a publisher that starts at a time and wakes up at others. -/
def exampleTrace (cfg : PublisherConfig) (start : Time) (wakeups : List Time) : List Reading :=
  (State.start (.new cfg) cfg.sampleInterval start start ⟨false, 0⟩).trace
    (wakeups.map exampleWakeup)

/-- Two slots are lost in the second second, and the clock steps back in the third. -/
theorem slot_discipline_four :
    let trace := exampleTrace (exampleConfig 2 2) (.ofUnix 1 500000000)
      [.ofUnix 1 900000000, .ofUnix 2 0, .ofUnix 2 750000000, .ofUnix 3 0, .ofUnix 2 250000000,
        .ofUnix 2 500000000]
    trace.map (fun r ↦ (r.sent.map (·.smpCnt), r.after.total)) =
        [(none, 0), (some 0, 1), (some 3, 4), (some 0, 5), (none, 5), (some 2, 6)] ∧
      ∀ r ∈ trace, ∀ a, r.sent = some a → (a.smpCnt.toNat : ℤ) = slotOf 4 r.clockNow % 4 := by
  have hrate : (scheduledRate (Service.new (F := ℚ) (exampleConfig 2 2)).cfg
      (exampleConfig 2 2).sampleInterval).toInt = 4 := by
    decide +kernel
  refine ⟨by decide +kernel, (slot_discipline hrate ?_ ?_ rfl ?_).2.1⟩ <;> decide +kernel

/-- The stretch of a single late frame: it reports the two slots before it, so the counters grow by
three.  And the numbers of the slots end: in the second `2 ^ 47`, at `65536` samples a second, they
are negative, and the frame in the second slot of the second has count `0`. -/
theorem late_stretch_and_range :
    (∃ r ∈ exampleTrace (exampleConfig 2 2) (.ofUnix 1 500000000)
        [.ofUnix 2 0, .ofUnix 2 750000000],
      r.sent.isSome ∧ r.after.total ≠ r.before.total +
        UInt64.ofNat (slotOf 4 r.clockNow - slotOf 4 r.clockNow + 1).toNat) ∧
    ∃ r ∈ exampleTrace (exampleConfig 256 256) (.ofUnix (2 ^ 47 - 1) 0)
        [.ofUnix (2 ^ 47) 0, .ofUnix (2 ^ 47) 20000],
      r.sent.map (·.smpCnt) = some 0 ∧ slotOf 65536 r.clockNow % 65536 = 1 := by
  constructor <;> decide +kernel

end ProcessBus.Sv.Publisher
