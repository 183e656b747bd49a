import ProcessBus.Lib.Serial
import ProcessBus.Sv.Subscriber

/-!
# The sample counter on its circle

With a configured timing frequency of 50 or 60 the sample counter runs on a circle of
`M = smpRate * timingFrequency` values.  A sample up to half the circle ahead of the last one is
new, everything else is a repetition or late (`Ahead`).

`smpCntGap` follows this everywhere but at one place: a counter value that is numerically larger
than the last one counts as new without a look at the circle, also when it is a late sample from
before the wrap.  `rejectsLate_iff` is the exact extent of that.
-/

namespace ProcessBus.Sv

open Go Lib

/-- The modulus of the sample counter. -/
def modulus (smpRate timingFrequency : UInt16) : ℕ := smpRate.toNat * timingFrequency.toNat

/-- On a circle of `M` values, `c` is one to `M / 2` steps ahead of `p`. -/
def Ahead (M p c : ℕ) : Prop := 1 ≤ dist M p c ∧ dist M p c ≤ M / 2

instance (M p c : ℕ) : Decidable (Ahead M p c) := inferInstanceAs (Decidable (_ ∧ _))

theorem dist_of_le {M p c : ℕ} (hc : c < M) (h : p ≤ c) : dist M p c = c - p := by
  rw [Lib.dist, show M - p + c = (c - p) + M by omega, Nat.add_mod_right,
    Nat.mod_eq_of_lt (by omega)]

theorem dist_of_lt {M p c : ℕ} (hp : p < M) (h : c < p) : dist M p c = M - p + c :=
  Nat.mod_eq_of_lt (by omega)

section Gap

variable {p c smpRate timingFrequency : UInt16}

/-- With a configured timing frequency the modulus is not a power of two, so it is at most
`65535` and the counter's increment does not wrap below it. -/
theorem modulus_lt (htf : timingFrequency = 50 ∨ timingFrequency = 60)
    (hM : modulus smpRate timingFrequency ≤ 65536) : modulus smpRate timingFrequency < 65536 := by
  rcases htf with rfl | rfl
  · change smpRate.toNat * 50 < 65536
    change smpRate.toNat * 50 ≤ 65536 at hM
    omega
  · change smpRate.toNat * 60 < 65536
    change smpRate.toNat * 60 ≤ 65536 at hM
    omega

/-- The configured modulus is used from its upper half on. -/
theorem smpCntModulo_configured (hrate : smpRate ≠ 0)
    (htf : timingFrequency = 50 ∨ timingFrequency = 60)
    (hp : p.toNat < modulus smpRate timingFrequency) :
    smpCntModulo smpRate timingFrequency p =
      if modulus smpRate timingFrequency / 2 ≤ p.toNat then modulus smpRate timingFrequency
      else 0 := by
  simp only [smpCntModulo, if_neg hrate, if_pos htf]
  by_cases h : modulus smpRate timingFrequency / 2 ≤ p.toNat
  · rw [if_pos h]
    exact if_pos ⟨h, hp⟩
  · rw [if_neg h]
    exact if_neg fun h' ↦ h h'.1

/-- `smpCntGap` on the circle: a larger value is forward, and a smaller one is if it is less than
half the circle ahead. -/
theorem smpCntGap_eq (hrate : smpRate ≠ 0)
    (htf : timingFrequency = 50 ∨ timingFrequency = 60)
    (hM : modulus smpRate timingFrequency ≤ 65536)
    (hp : p.toNat < modulus smpRate timingFrequency) :
    let across : ℤ := (modulus smpRate timingFrequency : ℤ) - p.toNat - 1 + c.toNat
    smpCntGap p c smpRate timingFrequency =
      if p.toNat < c.toNat then ⟨p + 1, (c.toNat : ℤ) - p.toNat - 1, true⟩
      else if c.toNat < p.toNat ∧ across < (modulus smpRate timingFrequency : ℤ) / 2 then
        ⟨p + 1, across, true⟩
      else ⟨p + 1, 0, false⟩ := by
  have hlt := modulus_lt htf hM
  have hmod := smpCntModulo_configured hrate htf hp
  generalize modulus smpRate timingFrequency = M at *
  have hnext : (p + 1).toNat = p.toNat + 1 := by
    rw [UInt16.toNat_add]
    exact Nat.mod_eq_of_lt (by change p.toNat + 1 < 65536; omega)
  unfold smpCntGap
  dsimp only
  rcases lt_trichotomy p.toNat c.toNat with h | h | h
  · have hne : c ≠ p := fun e ↦ by simp [e] at h
    rw [if_pos h]
    by_cases hexp : c = p + 1
    · have hone : (c.toNat : ℤ) - p.toNat - 1 = 0 := by
        rw [hexp, hnext]
        omega
      rw [if_pos hexp, hone]
    · rw [if_neg hexp, if_neg hne, if_pos (UInt16.lt_iff_toNat_lt.mpr h)]
  · have heq : c = p := UInt16.toNat_inj.mp h.symm
    have hexp : ¬ p = p + 1 := fun e ↦ by
      have := congrArg UInt16.toNat e
      omega
    rw [heq, if_neg hexp, if_pos rfl, if_neg (lt_irrefl _), if_neg fun e ↦ lt_irrefl _ e.1]
  · have hexp : ¬ c = p + 1 := fun e ↦ by
      have := congrArg UInt16.toNat e
      omega
    have hne : ¬ c = p := fun e ↦ by simp [e] at h
    have hle : ¬ p < c := fun e ↦ by
      have := UInt16.lt_iff_toNat_lt.mp e
      omega
    rw [if_neg hexp, if_neg hne, if_neg hle, hmod, if_neg (Nat.not_lt.mpr h.le)]
    by_cases hhalf : M / 2 ≤ p.toNat
    · have hM₀ : ¬ M = 0 := by omega
      rw [if_pos hhalf, if_neg hM₀]
      by_cases hback : (M : ℤ) - p.toNat - 1 + c.toNat < 0 ∨
          (M : ℤ) / 2 ≤ (M : ℤ) - p.toNat - 1 + c.toNat
      · rw [if_pos hback, if_neg (by omega)]
      · rw [if_neg hback, if_pos (by omega)]
    · -- in the lower half nothing has wrapped, and a smaller value is late on the 16-bit circle
      rw [if_neg hhalf, if_pos rfl, if_pos (.inr (by push_cast; omega)), if_neg (by omega)]

/-- What `smpCntGap` calls a forward sample. -/
theorem smpCntGap_forward_iff (hrate : smpRate ≠ 0)
    (htf : timingFrequency = 50 ∨ timingFrequency = 60)
    (hM : modulus smpRate timingFrequency ≤ 65536)
    (hp : p.toNat < modulus smpRate timingFrequency)
    (hc : c.toNat < modulus smpRate timingFrequency) :
    (smpCntGap p c smpRate timingFrequency).forward = true ↔
      Ahead (modulus smpRate timingFrequency) p.toNat c.toNat ∨
        p.toNat + modulus smpRate timingFrequency / 2 < c.toNat := by
  rw [smpCntGap_eq hrate htf hM hp]
  unfold Ahead
  rcases lt_trichotomy p.toNat c.toNat with h | h | h
  · rw [if_pos h, dist_of_le hc h.le]
    exact iff_of_true rfl (by omega)
  · rw [← h, if_neg (lt_irrefl _), if_neg fun e ↦ lt_irrefl _ e.1, dist_of_le hp le_rfl]
    exact iff_of_false Bool.false_ne_true (by omega)
  · rw [if_neg (Nat.not_lt.mpr h.le), dist_of_lt hp h]
    split
    · exact iff_of_true rfl (by omega)
    · exact iff_of_false Bool.false_ne_true (by omega)

end Gap

/-! ## Late samples -/

variable {F : Type} [Float64 F]

/-- The last counter, the sample window and the gap counters are the same. -/
structure StreamState.SameCounts (st st' : StreamState F) : Prop where
  lastSmpCnt : st'.lastSmpCnt = st.lastSmpCnt
  window : st'.window = st.window
  gapEvents : st'.gapEvents = st.gapEvents
  missedTotal : st'.missedTotal = st.missedTotal

/-- The stream entry that `handleMatch` compares the sample with. -/
def Service.streamOf (s : Service F) (sub : Subscription) (asdu : ASDU) (timestamp now : Time) :
    StreamState F :=
  s.stream sub (receivedAt timestamp now) (streamKey asdu)

/-- The counter is judged by the circle: exactly the samples ahead of the last one are forward,
and every other sample leaves the stream as it is. -/
def RejectsLate (s : Service F) (sub : Subscription) (asdu : ASDU) (timestamp now : Time) :
    Prop :=
  let st := s.streamOf sub asdu timestamp now
  let ahead := Ahead (modulus (effectiveSmpRate asdu sub) sub.sampleTimingFrequency)
    st.lastSmpCnt.toNat asdu.smpCnt.toNat
  ((st.gap sub asdu).forward = true ↔ ahead) ∧
    (¬ ahead →
      (s.handleMatch sub asdu timestamp now).2 = [] ∧
        st.SameCounts ((s.handleMatch sub asdu timestamp now).1.streamOf sub asdu timestamp now))

theorem effectiveSmpRate_ne_zero (asdu : ASDU) (sub : Subscription) :
    effectiveSmpRate asdu sub ≠ 0 := by
  unfold effectiveSmpRate
  split
  · assumption
  · split
    · assumption
    · decide

theorem smpCntGap_expected_eq (p c smpRate timingFrequency : UInt16) :
    (smpCntGap p c smpRate timingFrequency).expected = p + 1 := by
  unfold smpCntGap
  dsimp only
  split_ifs <;> rfl

/-- A value that is not forward is not the expected one either. -/
theorem smpCntGap_expected {p c smpRate timingFrequency : UInt16}
    (h : (smpCntGap p c smpRate timingFrequency).forward = false) :
    c ≠ (smpCntGap p c smpRate timingFrequency).expected := by
  intro e
  rw [smpCntGap_expected_eq] at e
  simp [smpCntGap, e] at h

omit [Float64 F] in
/-- On a running stream, exactly the samples that are not forward are ignored. -/
theorem StreamState.ignores_of_judged {st : StreamState F} (sub : Subscription) {asdu : ASDU}
    (h : st.judged asdu = true) : st.ignores sub asdu = !(st.gap sub asdu).forward := by
  unfold StreamState.ignores
  rw [h, Bool.true_and]
  cases hf : (st.gap sub asdu).forward with
  | true => simp
  | false =>
      rw [bne_iff_ne.mpr (show asdu.smpCnt ≠ (st.gap sub asdu).expected from smpCntGap_expected hf)]
      rfl

/-- **Late samples across the wrap.**  On a running stream of one configuration, with a counter
modulus `M`, the subscriber judges a sample by the circle if and only if its counter is not more
than `M / 2` above the last one. -/
theorem rejectsLate_iff (s : Service F) (sub : Subscription) (asdu : ASDU)
    (timestamp now : Time)
    (htf : sub.sampleTimingFrequency = 50 ∨ sub.sampleTimingFrequency = 60)
    (hM : modulus (effectiveSmpRate asdu sub) sub.sampleTimingFrequency ≤ 65536)
    (hseen : (s.streamOf sub asdu timestamp now).seen = true)
    (hlost : (s.streamOf sub asdu timestamp now).lost = false)
    (hrev : asdu.confRev = (s.streamOf sub asdu timestamp now).lastConfRev)
    (hp : (s.streamOf sub asdu timestamp now).lastSmpCnt.toNat <
      modulus (effectiveSmpRate asdu sub) sub.sampleTimingFrequency)
    (hc : asdu.smpCnt.toNat < modulus (effectiveSmpRate asdu sub) sub.sampleTimingFrequency) :
    RejectsLate s sub asdu timestamp now ↔
      asdu.smpCnt.toNat ≤ (s.streamOf sub asdu timestamp now).lastSmpCnt.toNat +
        modulus (effectiveSmpRate asdu sub) sub.sampleTimingFrequency / 2 := by
  have hfwd : ((s.streamOf sub asdu timestamp now).gap sub asdu).forward = true ↔ _ :=
    smpCntGap_forward_iff (effectiveSmpRate_ne_zero asdu sub) htf hM hp hc
  have hjudged : (s.streamOf sub asdu timestamp now).judged asdu = true := by
    simp [StreamState.judged, StreamState.confRevChanged, hseen, hlost, hrev]
  have hign := StreamState.ignores_of_judged sub hjudged
  constructor
  · -- Beyond half the circle the two classifications disagree.
    intro ⟨hiff, _⟩
    by_contra hfar
    have hahead := hiff.mp (hfwd.mpr (.inr (not_le.mp hfar)))
    rw [Ahead, dist_of_le hc (by omega)] at hahead
    omega
  · intro hnear
    have hiff : ((s.streamOf sub asdu timestamp now).gap sub asdu).forward = true ↔ _ :=
      hfwd.trans (or_iff_left (not_lt.mpr hnear))
    refine ⟨hiff, fun hlate ↦ ?_⟩
    have hignored : (s.streamOf sub asdu timestamp now).ignores sub asdu = true := by
      rw [hign, Bool.not_eq_true', ← Bool.not_eq_true]
      exact mt hiff.mp hlate
    have hstream : (s.handleMatch sub asdu timestamp now).1.streamOf sub asdu timestamp now =
        s.streamOf sub asdu timestamp now :=
      (handleMatch_stream s sub asdu timestamp now).trans (if_pos hignored)
    refine ⟨?_, ?_⟩
    · unfold Service.handleMatch
      exact congrArg Prod.snd (if_pos hignored)
    · rw [hstream]
      exact ⟨rfl, rfl, rfl, rfl⟩

/-- A sample for concrete runs. -/
def exampleASDU (smpCnt : UInt16) : ASDU where
  dstMAC := [0x01, 0x0C, 0xCD, 0x04, 0x00, 0x01]
  appID := 0x4000
  simulation := false
  svID := []
  smpCnt := smpCnt
  confRev := 1
  smpSynch := 2
  smpRate := 80
  channels := .replicate _ 0
  quality := .replicate _ 0

/-- Eighty samples per period at 50 Hz: the counter runs from 0 to 3999. -/
def exampleSubscription : Subscription := ⟨"s", 80, 50⟩

/-- A subscriber that has just accepted a sample with the given counter. -/
def exampleService (smpCnt : UInt16) : Service ℚ :=
  ((Service.mk ∅).handleMatch exampleSubscription (exampleASDU smpCnt) (.ofUnix 1 0) .zero).1

/-- After sample 0 of a new second, the late last sample of the second before it is taken for
one that is 3999 ahead, and moves the counter. -/
theorem late_sample_before_wrap :
    let s := exampleService 0
    ¬ RejectsLate s exampleSubscription (exampleASDU 3999) (.ofUnix 1 1) .zero ∧
      ((s.handleMatch exampleSubscription (exampleASDU 3999) (.ofUnix 1 1) .zero).1.streamOf
        exampleSubscription (exampleASDU 3999) (.ofUnix 1 1) .zero).lastSmpCnt = 3999 := by
  intro s
  refine ⟨fun h ↦ ?_, by decide⟩
  have hahead : Ahead 4000 0 3999 := h.1.mp (by decide)
  exact absurd hahead (by decide)

/-- A late sample within the second is rejected. -/
theorem late_sample_rejected :
    RejectsLate (exampleService 20) exampleSubscription (exampleASDU 10) (.ofUnix 1 1) .zero := by
  refine (rejectsLate_iff _ _ _ _ _ (.inl rfl) (by decide) ?_ ?_ ?_ ?_ (by decide)).mpr ?_
  all_goals decide

end ProcessBus.Sv
