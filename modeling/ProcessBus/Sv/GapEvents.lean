import ProcessBus.Sv.LossEvents

/-!
# What a gap event says

A gap event has three numbers: the counter expected, the counter found and the samples missed.
`smpCntGap` counts the missed samples on the circle of `M` values, but takes the expected counter to
be `previous + 1` in sixteen bits.  The two agree except after the last value of the circle, where
the expected counter is reported as `M` and not as zero.

`gap_events_consistent_iff` is the exact extent of that, over whole runs of the subscriber.
-/

namespace ProcessBus.Sv

open Go Lib

/-! ## One gap -/

section Gap

variable {p c smpRate timingFrequency : UInt16}

/-- The numbers of a gap on a circle of `M` values: the missed samples lead from the expected
counter to the one found, and the expected counter is on the circle unless the last one was at its
end. -/
theorem smpCntGap_consistent (hrate : smpRate ≠ 0)
    (htf : timingFrequency = 50 ∨ timingFrequency = 60)
    (hM : modulus smpRate timingFrequency ≤ 65536)
    (hp : p.toNat < modulus smpRate timingFrequency)
    (hc : c.toNat < modulus smpRate timingFrequency)
    (h : (smpCntGap p c smpRate timingFrequency).forward = true) :
    (smpCntGap p c smpRate timingFrequency).expected.toNat = p.toNat + 1 ∧
      (c.toNat : ℤ) = ((smpCntGap p c smpRate timingFrequency).expected.toNat +
        (smpCntGap p c smpRate timingFrequency).missed) % modulus smpRate timingFrequency := by
  have hlt := modulus_lt htf hM
  have hnext : (p + 1).toNat = p.toNat + 1 := by
    rw [UInt16.toNat_add]
    exact Nat.mod_eq_of_lt (by change p.toNat + 1 < 65536; omega)
  rw [smpCntGap_eq hrate htf hM hp] at h ⊢
  generalize modulus smpRate timingFrequency = M at *
  split_ifs at h ⊢ with hlarger hacross
  · refine ⟨hnext, ?_⟩
    dsimp only
    rw [hnext, show ((p.toNat + 1 : ℕ) : ℤ) + ((c.toNat : ℤ) - p.toNat - 1) = c.toNat by omega]
    exact (Int.emod_eq_of_lt (by omega) (by omega)).symm
  · refine ⟨hnext, ?_⟩
    dsimp only
    rw [hnext, show ((p.toNat + 1 : ℕ) : ℤ) + ((M : ℤ) - p.toNat - 1 + c.toNat) = c.toNat + M by
      omega, Int.add_emod_right]
    exact (Int.emod_eq_of_lt (by omega) (by omega)).symm

/-- After the last value of the circle, zero is the only value that leaves nothing out. -/
theorem smpCntGap_missed_pos (hrate : smpRate ≠ 0)
    (htf : timingFrequency = 50 ∨ timingFrequency = 60)
    (hM : modulus smpRate timingFrequency ≤ 65536)
    (hp : p.toNat + 1 = modulus smpRate timingFrequency)
    (hc : c.toNat < modulus smpRate timingFrequency)
    (h : (smpCntGap p c smpRate timingFrequency).forward = true) :
    0 < (smpCntGap p c smpRate timingFrequency).missed ↔ 0 < c.toNat := by
  rw [smpCntGap_eq hrate htf hM (by omega)] at h ⊢
  split_ifs at h ⊢ with hlarger hacross
  · omega
  · dsimp only
    omega

end Gap

/-! ## Gap events of one stream -/

variable {F : Type} [Float64 F]

/-- The counters of a gap event, on a circle of `M` values. -/
def Event.Consistent (M : ℕ) (e : Event) : Prop :=
  e.expectedSmpCnt.toNat < M ∧
    (e.actualSmpCnt.toNat : ℤ) = (e.expectedSmpCnt.toNat + e.missedSamples) % M

/-- The gap events that a section leaves for the stream `key` are consistent. -/
def Section.Consistent (key : StreamKey) (M : ℕ) (s : Service F) (a : Section) : Prop :=
  ∀ e ∈ (s.enter a).2, e.reason = .smpCntGap → e.asdu.map streamKey = some key → e.Consistent M

/-- An accepted sample of the stream `key` has a counter below the configured modulus `M`. -/
def Section.Counts (key : StreamKey) (M : ℕ) (s : Service F) : Section → Prop
  | .handleMatch sub asdu timestamp now =>
      streamKey asdu = key → (s.streamOf sub asdu timestamp now).ignores sub asdu = false →
        (sub.sampleTimingFrequency = 50 ∨ sub.sampleTimingFrequency = 60) ∧
          modulus (effectiveSmpRate asdu sub) sub.sampleTimingFrequency = M ∧
          asdu.smpCnt.toNat < M
  | .checkStale _ => True

/-- A loss at the wrap: after the last sample of a round of the stream `key`, the next sample that
the subscriber judges and accepts is not the first one of the next round. -/
def Section.SkipsZero (key : StreamKey) (M : ℕ) (s : Service F) : Section → Prop
  | .handleMatch sub asdu timestamp now =>
      let st := s.streamOf sub asdu timestamp now
      streamKey asdu = key ∧ st.judged asdu = true ∧ st.ignores sub asdu = false ∧
        st.lastSmpCnt.toNat + 1 = M ∧ asdu.smpCnt ≠ 0
  | .checkStale _ => False

/-- The last counter of the stream `key` is on the circle. -/
def Service.OnCircle (key : StreamKey) (M : ℕ) (s : Service F) : Prop :=
  ∀ st, s.streams.lookup key = some st → st.seen = true → st.lastSmpCnt.toNat < M

section Steps

variable {s : Service F} {key : StreamKey} {M : ℕ}

theorem Service.OnCircle.enter (h : s.OnCircle key M) {a : Section} (ha : a.Counts key M s) :
    (s.enter a).1.OnCircle key M := by
  intro st hst hseen
  obtain ⟨st', hst', rfl | rfl⟩ | ⟨sub, asdu, timestamp, now, rfl, rfl, rfl | ⟨hig, rfl⟩⟩ :=
    Service.lookup_enter hst
  · exact h st hst' hseen
  · exact h st' hst' hseen
  · exact h _ (Service.lookup_of_seen hseen) hseen
  · exact (ha rfl hig).2.2

omit [Float64 F] in
/-- The gap events among the events of an accepted sample. -/
theorem mem_events_gap {st : StreamState F} {sub : Subscription} {asdu : ASDU} {t : Time}
    {e : Event} :
    e ∈ st.events sub asdu t ∧ e.reason = .smpCntGap ↔
      st.hasGap sub asdu = true ∧
        e = { reason := .smpCntGap, subscription := sub.name, asdu := some asdu, receivedAt := t,
              expectedSmpCnt := (st.gap sub asdu).expected, actualSmpCnt := asdu.smpCnt,
              missedSamples := (st.gap sub asdu).missed } := by
  have hseen : st.hasGap sub asdu = true → st.seen = true := by
    simp only [StreamState.hasGap, StreamState.judged, Bool.and_eq_true]
    rintro ⟨⟨⟨⟨⟨hseen, -⟩, -⟩, -⟩, -⟩, -⟩
    exact hseen
  rw [StreamState.events]
  dsimp only
  constructor
  · rintro ⟨he, hreason⟩
    rw [List.mem_append] at he
    rcases he with he | he
    · split_ifs at he
      · rw [List.mem_singleton.mp he] at hreason
        cases hreason
      · exact absurd he List.not_mem_nil
    · split at he
      · rw [List.mem_singleton.mp he] at hreason
        cases hreason
      · rw [List.mem_append, List.mem_append] at he
        rcases he with (he | he) | he
        · split_ifs at he with hgap
          · exact ⟨hgap, List.mem_singleton.mp he⟩
          · exact absurd he List.not_mem_nil
        · split_ifs at he
          · rw [List.mem_singleton.mp he] at hreason
            cases hreason
          · exact absurd he List.not_mem_nil
        · split_ifs at he
          · rw [List.mem_singleton.mp he] at hreason
            cases hreason
          · exact absurd he List.not_mem_nil
  · rintro ⟨hgap, rfl⟩
    simp [hgap, hseen hgap]

omit [Float64 F] in
/-- On a judged sample that is accepted, the guard of the gap event is that samples are missing. -/
theorem StreamState.hasGap_of_accepted {st : StreamState F} {sub : Subscription} {asdu : ASDU}
    (hjudged : st.judged asdu = true) (hig : st.ignores sub asdu = false) :
    (st.gap sub asdu).forward = true ∧
      (st.hasGap sub asdu = true ↔ 0 < (st.gap sub asdu).missed) := by
  have hforward : (st.gap sub asdu).forward = true := by
    rw [ignores_of_judged sub hjudged] at hig
    rwa [Bool.not_eq_false'] at hig
  refine ⟨hforward, ?_⟩
  rw [StreamState.hasGap, hjudged, hforward, Bool.true_and, Bool.and_true, Bool.and_eq_true,
    decide_eq_true_iff, bne_iff_ne]
  refine ⟨And.right, fun hpos ↦ ⟨?_, hpos⟩⟩
  -- the expected counter leaves nothing out
  intro hexp
  have hzero : (st.gap sub asdu).missed = 0 := by
    rw [StreamState.gap, smpCntGap_expected_eq] at hexp
    rw [StreamState.gap, smpCntGap, if_pos hexp]
  exact absurd hpos (by rw [hzero]; exact lt_irrefl 0)

theorem events_handleMatch (sub : Subscription) (asdu : ASDU) (timestamp now : Time) :
    (s.handleMatch sub asdu timestamp now).2 =
      if (s.streamOf sub asdu timestamp now).ignores sub asdu then []
      else (s.streamOf sub asdu timestamp now).events sub asdu (receivedAt timestamp now) := by
  rw [Service.handleMatch, Service.streamOf]
  split <;> rfl

omit [Float64 F] in
/-- An accepted sample of the stream reports consistent numbers unless zero is skipped. -/
theorem consistent_gap_iff {st : StreamState F} {sub : Subscription} {asdu : ASDU} {t : Time}
    (hM : M ≤ 65536) (htf : sub.sampleTimingFrequency = 50 ∨ sub.sampleTimingFrequency = 60)
    (hmod : modulus (effectiveSmpRate asdu sub) sub.sampleTimingFrequency = M)
    (hc : asdu.smpCnt.toNat < M) (hp : st.seen = true → st.lastSmpCnt.toNat < M)
    (hig : st.ignores sub asdu = false) :
    (∀ e ∈ st.events sub asdu t, e.reason = .smpCntGap → e.Consistent M) ↔
      ¬ (st.judged asdu = true ∧ st.lastSmpCnt.toNat + 1 = M ∧ asdu.smpCnt ≠ 0) := by
  subst hmod
  have hrate := effectiveSmpRate_ne_zero asdu sub
  have hzero : asdu.smpCnt ≠ 0 ↔ 0 < asdu.smpCnt.toNat := by
    rw [Nat.pos_iff_ne_zero, Ne, Ne, ← UInt16.toNat_inj]
    rfl
  rw [hzero]
  constructor
  · rintro hall ⟨hjudged, hlast, hpos⟩
    obtain ⟨hforward, hgap⟩ := StreamState.hasGap_of_accepted hjudged hig
    have hmissed := (smpCntGap_missed_pos hrate htf hM hlast hc hforward).mpr hpos
    obtain ⟨he, hreason⟩ := (mem_events_gap (t := t)).mpr ⟨hgap.mpr hmissed, rfl⟩
    have hexpected := (smpCntGap_consistent hrate htf hM (by omega) hc hforward).1
    have hlt := (hall _ he hreason).1
    exact absurd (hexpected.symm.trans_lt hlt) (by omega)
  · rintro hskips e he hreason
    obtain ⟨hgap, rfl⟩ := mem_events_gap.mp ⟨he, hreason⟩
    have hjudged : st.judged asdu = true := by
      simp only [StreamState.hasGap, Bool.and_eq_true] at hgap
      exact hgap.1.1.1
    have hseen : st.seen = true := by
      simp only [StreamState.judged, Bool.and_eq_true] at hjudged
      exact hjudged.1.1
    obtain ⟨hforward, hiff⟩ := StreamState.hasGap_of_accepted hjudged hig
    obtain ⟨hexpected, hactual⟩ := smpCntGap_consistent hrate htf hM (hp hseen) hc hforward
    refine ⟨?_, hactual⟩
    show (st.gap sub asdu).expected.toNat < _
    have hlast := hp hseen
    by_contra hge
    have hend : st.lastSmpCnt.toNat + 1 =
        modulus (effectiveSmpRate asdu sub) sub.sampleTimingFrequency := by
      have : (st.gap sub asdu).expected.toNat = st.lastSmpCnt.toNat + 1 := hexpected
      omega
    exact hskips ⟨hjudged, hend,
      (smpCntGap_missed_pos hrate htf hM hend hc hforward).mp (hiff.mp hgap)⟩

/-- A section reports consistent numbers exactly if it is not a loss at the wrap. -/
theorem Section.consistent_iff (hM : M ≤ 65536) (h : s.OnCircle key M) {a : Section}
    (ha : a.Counts key M s) : a.Consistent key M s ↔ ¬ a.SkipsZero key M s := by
  cases a with
  | checkStale now =>
      refine iff_of_true ?_ (fun hskips ↦ hskips)
      intro e he hreason
      rw [Service.enter, Service.checkStale, List.mem_map] at he
      obtain ⟨st, -, rfl⟩ := he
      cases hreason
  | handleMatch sub asdu timestamp now =>
      rw [Section.Consistent, Service.enter, events_handleMatch]
      cases hig : (s.streamOf sub asdu timestamp now).ignores sub asdu with
      | true =>
          refine iff_of_true ?_ (fun hskips ↦ Bool.noConfusion (hig.symm.trans hskips.2.2.1))
          intro e he
          exact absurd he List.not_mem_nil
      | false =>
          rw [if_neg Bool.false_ne_true]
          by_cases hkey : streamKey asdu = key
          · subst hkey
            obtain ⟨htf, hmod, hc⟩ := ha rfl hig
            have hlast : (s.streamOf sub asdu timestamp now).seen = true →
                (s.streamOf sub asdu timestamp now).lastSmpCnt.toNat < M :=
              fun hseen ↦ h _ (Service.lookup_of_seen hseen) hseen
            have hstep := consistent_gap_iff (t := receivedAt timestamp now) hM htf hmod hc
              hlast hig
            have hskips : Section.SkipsZero (streamKey asdu) M s
                (.handleMatch sub asdu timestamp now) ↔
                (s.streamOf sub asdu timestamp now).judged asdu = true ∧
                  (s.streamOf sub asdu timestamp now).lastSmpCnt.toNat + 1 = M ∧
                  asdu.smpCnt ≠ 0 := by
              simp [Section.SkipsZero, hig]
            rw [hskips, ← hstep]
            refine ⟨fun hall e he hreason ↦ hall e he hreason ?_,
              fun hall e he hreason _ ↦ hall e he hreason⟩
            obtain ⟨-, rfl⟩ := mem_events_gap.mp ⟨he, hreason⟩
            rfl
          · refine iff_of_true ?_ (fun hskips ↦ hkey hskips.1)
            intro e he hreason hother
            obtain ⟨-, rfl⟩ := mem_events_gap.mp ⟨he, hreason⟩
            exact absurd (Option.some.inj hother) hkey

end Steps

/-! ## Whole runs -/

/-- The service after a section. -/
def Service.next (s : Service F) (a : Section) : Service F := (s.enter a).1

/-- **Gap events are consistent**, in every run in which the accepted samples of the stream count
below the configured modulus, exactly if none of them follows a loss at the wrap. -/
theorem gap_events_consistent_iff {key : StreamKey} {M : ℕ} (hM : M ≤ 65536) {as : List Section}
    (h : Meets Service.next (fun s a ↦ a.Counts key M s) (⟨∅⟩ : Service F) as) :
    Meets Service.next (fun s a ↦ a.Consistent key M s) (⟨∅⟩ : Service F) as ↔
      Meets Service.next (fun s a ↦ ¬ a.SkipsZero key M s) (⟨∅⟩ : Service F) as := by
  have hstart : (⟨∅⟩ : Service F).OnCircle key M := by
    intro st hst
    exact absurd hst (by simp)
  refine Meets.congr (fun s a hs ha ↦ hs.enter ha) (fun s a hs ha ↦ ?_) hstart h
  exact Section.consistent_iff hM hs ha

/-- Two samples of a stream of 4000 samples per second. -/
def exampleGap (first second : UInt16) : List Section :=
  [.handleMatch exampleSubscription (exampleASDU first) (.ofUnix 1 0) .zero,
    .handleMatch exampleSubscription (exampleASDU second) (.ofUnix 1 1) .zero]

theorem exampleGap_counts (first second : UInt16) (hfirst : first.toNat < 4000)
    (hsecond : second.toNat < 4000) :
    Meets Service.next (fun s a ↦ a.Counts (streamKey (exampleASDU 0)) 4000 s) (⟨∅⟩ : Service ℚ)
      (exampleGap first second) :=
  ⟨fun _ _ ↦ ⟨.inl rfl, rfl, hfirst⟩, fun _ _ ↦ ⟨.inl rfl, rfl, hsecond⟩, trivial⟩

/-- A loss that begins before the wrap. -/
theorem gap_events_consistent_across :
    Meets Service.next (fun s a ↦ a.Consistent (streamKey (exampleASDU 0)) 4000 s)
        (⟨∅⟩ : Service ℚ) (exampleGap 3990 10) ∧
      ((exampleService 3990).handleMatch exampleSubscription (exampleASDU 10)
        (.ofUnix 1 1) .zero).2.map (fun e ↦ (e.expectedSmpCnt, e.actualSmpCnt, e.missedSamples)) =
          [(3991, 10, 19)] := by
  have hcounts := exampleGap_counts 3990 10 (by decide) (by decide)
  refine ⟨(gap_events_consistent_iff (by decide) hcounts).mpr ⟨?_, ?_, trivial⟩, by decide +kernel⟩
  · rintro ⟨-, hjudged, -⟩
    exact absurd hjudged (by decide +kernel)
  · rintro ⟨-, -, -, hlast, -⟩
    exact absurd hlast (by decide +kernel)

/-- Sample 3999 is followed by sample 1: the subscriber says that it expected sample 4000. -/
theorem gap_event_beyond_circle :
    Meets Service.next (fun s a ↦ a.Counts (streamKey (exampleASDU 0)) 4000 s) (⟨∅⟩ : Service ℚ)
        (exampleGap 3999 1) ∧
      ((exampleService 3999).handleMatch exampleSubscription (exampleASDU 1)
        (.ofUnix 1 1) .zero).2.map (fun e ↦ (e.expectedSmpCnt, e.actualSmpCnt, e.missedSamples)) =
          [(4000, 1, 1)] ∧
      ¬ Meets Service.next (fun s a ↦ a.Consistent (streamKey (exampleASDU 0)) 4000 s)
        (⟨∅⟩ : Service ℚ) (exampleGap 3999 1) := by
  refine ⟨exampleGap_counts 3999 1 (by decide) (by decide), by decide +kernel, ?_⟩
  rintro ⟨-, hsecond, -⟩
  have hgap : ((exampleService 3999).streamOf exampleSubscription (exampleASDU 1) (.ofUnix 1 1)
      .zero).hasGap exampleSubscription (exampleASDU 1) = true := by
    decide +kernel
  obtain ⟨hevent, hreason⟩ := (mem_events_gap (t := .ofUnix 1 1)).mpr ⟨hgap, rfl⟩
  have hexpected := (hsecond _ hevent hreason rfl).1
  exact absurd hexpected (by decide +kernel)

end ProcessBus.Sv
