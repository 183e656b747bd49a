import ProcessBus.Lib.Run
import ProcessBus.Sv.Continuity

/-!
# Loss accounting

A publisher numbers its samples by slots and sends the slot number modulo `M`; the subscriber sees
only these counters.  As long as fewer than `M / 2` samples are lost in a row, this is enough to
count every slot: what was received and what is reported missing add up to the slots from the
first sample to the last (`samples_accounted`).

The argument is one fact about `smpCntGap`: within the window it recovers the difference of the
slots, on both sides of the wrap (`smpCntGap_slots`).
-/

namespace ProcessBus.Sv

open Go Lib

/-! ## Slots on the circle -/

section Gap

variable {p c smpRate timingFrequency : UInt16} {i j : ℕ}

/-- The counter of a later slot, less than half the circle ahead: the one before the wrap, or the
one after it, and then the earlier counter lies in the upper half. -/
theorem slot_mod_cases {M : ℕ} (hM : 0 < M) (hij : i < j) (hw : j - i ≤ M / 2) :
    j % M = i % M + (j - i) ∨ j % M + M = i % M + (j - i) ∧ M / 2 ≤ i % M := by
  have hi := Nat.mod_lt i hM
  have hj : j % M = (i % M + (j - i)) % M := by
    rw [Nat.mod_add_mod, Nat.add_sub_cancel' hij.le]
  rcases Nat.lt_or_ge (i % M + (j - i)) M with h | h
  · left
    rw [hj, Nat.mod_eq_of_lt h]
  · right
    have hwrap : (i % M + (j - i)) % M = i % M + (j - i) - M := by
      rw [Nat.mod_eq_sub_mod h]
      exact Nat.mod_eq_of_lt (by omega)
    rw [hj, hwrap]
    omega

/-- Within the window, `smpCntGap` recovers the number of slots that were skipped. -/
theorem smpCntGap_slots (hrate : smpRate ≠ 0) (htf : timingFrequency = 50 ∨ timingFrequency = 60)
    (hM : modulus smpRate timingFrequency ≤ 65536)
    (hp : p.toNat = i % modulus smpRate timingFrequency)
    (hc : c.toNat = j % modulus smpRate timingFrequency) (hij : i < j)
    (hw : j - i - 1 < modulus smpRate timingFrequency / 2) :
    smpCntGap p c smpRate timingFrequency = ⟨p + 1, ((j - i - 1 : ℕ) : ℤ), true⟩ := by
  have hpos : 0 < modulus smpRate timingFrequency := by omega
  have hpM : p.toNat < modulus smpRate timingFrequency := hp ▸ Nat.mod_lt _ hpos
  have hslots := slot_mod_cases (M := modulus smpRate timingFrequency) hpos hij (by omega)
  rw [← hp, ← hc] at hslots
  rw [smpCntGap_eq hrate htf hM hpM]
  rcases hslots with hup | ⟨hwrap, hhalf⟩
  · -- Before the wrap the counters differ as the slots do.
    rw [if_pos (by omega)]
    congr 1
    omega
  · -- Across the wrap the modulus is known, because the earlier counter is in the upper half.
    rw [if_neg (by omega), if_pos (by omega)]
    congr 1
    omega

end Gap

/-! ## Accepted samples -/

section Accept

variable {F : Type} [Float64 F] (st : StreamState F) (sub : Subscription) (asdu : ASDU) (t : Time)

@[simp] theorem accept_samplesReceived :
    (st.accept sub asdu t).samplesReceived = st.samplesReceived + 1 := by
  unfold StreamState.accept
  split <;> split <;> rfl

@[simp] theorem accept_missedTotal :
    (st.accept sub asdu t).missedTotal =
      if st.hasGap sub asdu then st.missedTotal + UInt64.ofInt (st.gap sub asdu).missed
      else st.missedTotal := by
  unfold StreamState.accept
  split <;> split <;> rfl

omit [Float64 F] in
/-- A sample of a running stream follows a gap exactly when `smpCntGap` finds one. -/
theorem hasGap_of_judged {n : ℕ} (h : st.judged asdu = true)
    (hgap : st.gap sub asdu = ⟨st.lastSmpCnt + 1, n, true⟩) :
    st.hasGap sub asdu = decide (0 < n) := by
  have hexp : asdu.smpCnt = st.lastSmpCnt + 1 → n = 0 := by
    intro e
    have hmissed := congrArg Gap.missed hgap
    simp only [StreamState.gap, smpCntGap, e, if_true] at hmissed
    omega
  simp only [StreamState.hasGap, h, hgap, Bool.true_and, Bool.and_true, Nat.cast_pos]
  cases n with
  | zero => simp
  | succ n =>
      have hne : asdu.smpCnt ≠ st.lastSmpCnt + 1 := fun e ↦ absurd (hexp e) (Nat.succ_ne_zero n)
      simp [hne]

/-- What the subscriber is told about missing samples. -/
def missedReports (events : List Event) : List ℤ :=
  (events.filter (·.reason = .smpCntGap)).map Event.missedSamples

omit [Float64 F] in
theorem missedReports_first (h : st.seen = false) :
    missedReports (st.events sub asdu t) = [] := by
  unfold StreamState.events
  rw [h]
  cases st.lost <;> rfl

omit [Float64 F] in
theorem missedReports_seen (h : st.seen = true) :
    missedReports (st.events sub asdu t) =
      if st.hasGap sub asdu then [(st.gap sub asdu).missed] else [] := by
  unfold StreamState.events
  rw [h]
  cases st.lost <;> cases st.hasGap sub asdu <;> cases st.confRevChanged asdu <;>
    by_cases hs : asdu.smpSynch = st.lastSynch <;> simp [missedReports, hs]

end Accept

/-! ## Deliveries -/

/-- What happens at the subscriber: the sample of a slot arrives, or the watchdog runs. -/
inductive Delivery
  | sample (slot : ℕ) (asdu : ASDU) (timestamp now : Time)
  | check (now : Time)

/-- The subscriber, with the slots of the first and of the last delivered sample. -/
structure Receiver (F : Type) where
  svc : Service F
  span : Option (ℕ × ℕ)

variable {F : Type} [Float64 F]

/-- The slot of the first sample, once this one has been delivered. -/
def Receiver.firstSlot (r : Receiver F) (slot : ℕ) : ℕ := (r.span.map Prod.fst).getD slot

def Receiver.step (sub : Subscription) (r : Receiver F) : Delivery → Receiver F
  | .sample slot asdu timestamp now =>
      ⟨(r.svc.handleMatch sub asdu timestamp now).1, some (r.firstSlot slot, slot)⟩
  | .check now => { r with svc := (r.svc.checkStale now).1 }

/-- One stream of a publisher: its identity and its sampling rate. -/
structure Stream where
  key : StreamKey
  confRev : UInt32
  smpRate : UInt16

/-- The modulus of the stream's counter, as the subscriber is configured. -/
def Stream.modulus (x : Stream) (sub : Subscription) : ℕ :=
  Sv.modulus x.smpRate sub.sampleTimingFrequency

/-- What is delivered: samples of one stream in the order of their slots, with fewer than half the
circle lost in between; and the watchdog never finds the stream expired.  The publisher's slot
numbers are 64-bit integers. -/
def Stream.Delivers (x : Stream) (sub : Subscription) (r : Receiver F) : Delivery → Prop
  | .sample slot asdu _ _ =>
      streamKey asdu = x.key ∧ asdu.confRev = x.confRev ∧
        effectiveSmpRate asdu sub = x.smpRate ∧ asdu.smpCnt.toNat = slot % x.modulus sub ∧
        slot < 2 ^ 63 ∧
        ∀ first last, r.span = some (first, last) →
          last < slot ∧ slot - last - 1 < x.modulus sub / 2
  | .check now => ∀ st ∈ r.svc.streams.lookup x.key, st.expired now = false

/-- After a delivered sample, what was received and what was reported missing add up to the slots
since the first one; and this sample was reported to follow a gap exactly if slots were skipped
just before it, with their number. -/
def Stream.Accounts (x : Stream) (sub : Subscription) (r : Receiver F) : Delivery → Prop
  | .sample slot asdu timestamp now =>
      (∃ st, (r.step sub (.sample slot asdu timestamp now)).svc.streams.lookup x.key = some st ∧
        st.samplesReceived.toNat + st.missedTotal.toNat = slot - r.firstSlot slot + 1) ∧
      missedReports (r.svc.handleMatch sub asdu timestamp now).2 =
        match r.span with
        | none => []
        | some (_, last) => if last + 1 < slot then [((slot - last - 1 : ℕ) : ℤ)] else []
  | .check _ => True

/-- The stream entry after the samples from slot `first` to slot `last`. -/
structure StreamState.Counts (st : StreamState F) (x : Stream) (M first last : ℕ) : Prop where
  seen : st.seen = true
  lost : st.lost = false
  confRev : st.lastConfRev = x.confRev
  smpCnt : st.lastSmpCnt.toNat = last % M
  first_le : first ≤ last
  last_lt : last < 2 ^ 63
  total : st.samplesReceived.toNat + st.missedTotal.toNat = last - first + 1

/-- The invariant of a delivery. -/
def Stream.Inv (x : Stream) (sub : Subscription) (r : Receiver F) : Prop :=
  match r.span with
  | none => r.svc.streams.lookup x.key = none
  | some (first, last) =>
      ∃ st, r.svc.streams.lookup x.key = some st ∧ st.Counts x (x.modulus sub) first last

section Step

variable {x : Stream} {sub : Subscription} {r : Receiver F} {slot : ℕ} {asdu : ASDU}
  {timestamp now : Time}

/-- A sample that is not ignored. -/
theorem handleMatch_accept {svc : Service F} {st : StreamState F}
    (hst : svc.stream sub (receivedAt timestamp now) (streamKey asdu) = st)
    (h : st.ignores sub asdu = false) :
    (svc.handleMatch sub asdu timestamp now).1.streams.lookup (streamKey asdu) =
        some (st.accept sub asdu (receivedAt timestamp now)) ∧
      (svc.handleMatch sub asdu timestamp now).2 =
        st.events sub asdu (receivedAt timestamp now) := by
  unfold Service.handleMatch
  dsimp only
  rw [hst, h, if_neg Bool.false_ne_true]
  exact ⟨AList.lookup_insert _, rfl⟩

/-- The first sample of a stream. -/
theorem StreamState.counts_first {t : Time} (hkey : asdu.confRev = x.confRev)
    (hcnt : asdu.smpCnt.toNat = slot % x.modulus sub) (hslot : slot < 2 ^ 63) :
    (StreamState.accept (.new F sub t) sub asdu t).Counts x (x.modulus sub) slot slot where
  seen := rfl
  lost := rfl
  confRev := hkey
  smpCnt := hcnt
  first_le := le_refl slot
  last_lt := hslot
  total := by
    have hgap : (StreamState.new F sub t).hasGap sub asdu = false := rfl
    rw [accept_samplesReceived, accept_missedTotal, hgap, Nat.sub_self]
    rfl

/-- A later sample: the slots in between are counted as missing. -/
theorem StreamState.Counts.accept {st : StreamState F} {first last : ℕ} {t : Time}
    (h : st.Counts x (x.modulus sub) first last) (hrev : asdu.confRev = x.confRev)
    (hcnt : asdu.smpCnt.toNat = slot % x.modulus sub) (hslot : slot < 2 ^ 63) (hlt : last < slot)
    (hgap : st.hasGap sub asdu = decide (0 < slot - last - 1))
    (hmissed : (st.gap sub asdu).missed = ((slot - last - 1 : ℕ) : ℤ)) :
    (st.accept sub asdu t).Counts x (x.modulus sub) first slot where
  seen := rfl
  lost := rfl
  confRev := hrev
  smpCnt := hcnt
  first_le := h.first_le.trans hlt.le
  last_lt := hslot
  total := by
    have hfirst := h.first_le
    have htotal := h.total
    have hone : (st.samplesReceived + 1).toNat = st.samplesReceived.toNat + 1 := by
      rw [UInt64.toNat_add]
      exact Nat.mod_eq_of_lt (by change st.samplesReceived.toNat + 1 < 2 ^ 64; omega)
    rw [accept_samplesReceived, accept_missedTotal, hgap, hone]
    by_cases hpos : 0 < slot - last - 1
    · have hofInt : (UInt64.ofInt (slot - last - 1 : ℕ)).toNat = slot - last - 1 := by
        simp only [UInt64.ofInt, UInt64.toNat_ofNat']
        omega
      rw [if_pos (decide_eq_true hpos), hmissed, UInt64.toNat_add, hofInt,
        Nat.mod_eq_of_lt (by omega)]
      omega
    · rw [if_neg (by simpa using hpos)]
      omega

/-- One delivery: the invariant is kept, and the sample is accounted for. -/
theorem Stream.Inv.step (htf : sub.sampleTimingFrequency = 50 ∨ sub.sampleTimingFrequency = 60)
    (hM : x.modulus sub ≤ 65536) (r : Receiver F) (d : Delivery) (h : x.Inv sub r)
    (hd : x.Delivers sub r d) : x.Inv sub (r.step sub d) ∧ x.Accounts sub r d := by
  cases d with
  | sample slot asdu timestamp now =>
      obtain ⟨hkey, hrev, hrate, hcnt, hslot, hnext⟩ := hd
      obtain ⟨svc, span⟩ := r
      cases span with
      | none =>
          have hst : svc.stream sub (receivedAt timestamp now) (streamKey asdu) =
              .new F sub (receivedAt timestamp now) := by
            rw [Service.stream, hkey, show svc.streams.lookup x.key = none from h]
            rfl
          obtain ⟨hlookup, hevents⟩ := handleMatch_accept hst rfl
          rw [hkey] at hlookup
          have hcounts := StreamState.counts_first (F := F) (t := receivedAt timestamp now) hrev
            hcnt hslot
          refine ⟨⟨_, hlookup, hcounts⟩, ⟨_, hlookup, hcounts.total⟩, ?_⟩
          rw [hevents]
          exact missedReports_first _ _ _ _ rfl
      | some span =>
          obtain ⟨first, last⟩ := span
          obtain ⟨st, hlookup, hcounts⟩ := h
          obtain ⟨hlt, hw⟩ := hnext first last rfl
          have hst : svc.stream sub (receivedAt timestamp now) (streamKey asdu) = st := by
            rw [Service.stream, hkey, hlookup]
            rfl
          have hjudged : st.judged asdu = true := by
            simp [StreamState.judged, StreamState.confRevChanged, hcounts.seen, hcounts.lost,
              hcounts.confRev, hrev]
          have hgap : st.gap sub asdu = ⟨st.lastSmpCnt + 1, ((slot - last - 1 : ℕ) : ℤ), true⟩ := by
            rw [StreamState.gap, hrate]
            exact smpCntGap_slots (hrate ▸ effectiveSmpRate_ne_zero asdu sub) htf hM hcounts.smpCnt
              hcnt hlt hw
          have hhas := hasGap_of_judged st sub asdu hjudged hgap
          have hign : st.ignores sub asdu = false := by
            rw [StreamState.ignores_of_judged sub hjudged, hgap]
            rfl
          obtain ⟨hlookup', hevents⟩ := handleMatch_accept hst hign
          rw [hkey] at hlookup'
          have hcounts' := hcounts.accept (t := receivedAt timestamp now) hrev hcnt hslot hlt hhas
            (congrArg Gap.missed hgap)
          refine ⟨⟨_, hlookup', hcounts'⟩, ⟨_, hlookup', hcounts'.total⟩, ?_⟩
          rw [hevents, missedReports_seen _ _ _ _ hcounts.seen, hhas, hgap]
          by_cases hpos : 0 < slot - last - 1
          · rw [if_pos (decide_eq_true hpos)]
            exact (if_pos (by omega)).symm
          · rw [if_neg (by simpa using hpos)]
            exact (if_neg (by omega)).symm
  | check now =>
      obtain ⟨svc, span⟩ := r
      refine ⟨?_, trivial⟩
      have hlookup : (svc.checkStale now).1.streams.lookup x.key = svc.streams.lookup x.key := by
        simp only [Service.checkStale, Table.lookup_mapVal]
        cases hl : svc.streams.lookup x.key with
        | none => rfl
        | some st =>
            have hexp : st.expired now = false := hd st hl
            simp [StreamState.expire, hexp]
      cases span with
      | none => exact hlookup.trans h
      | some span =>
          obtain ⟨st, hst, hcounts⟩ := h
          exact ⟨st, hlookup.trans hst, hcounts⟩

end Step

/-- **Loss accounting is conservative.**  For every in-order delivery of samples of one stream to a
subscriber that has not seen it, with fewer than `M / 2` slots lost in a row and no watchdog loss:
after every sample, the samples received and the samples reported missing add up to the slots from
the first one to this one; and a gap is reported exactly where slots were skipped, with their
number. -/
theorem samples_accounted (x : Stream) (sub : Subscription)
    (htf : sub.sampleTimingFrequency = 50 ∨ sub.sampleTimingFrequency = 60)
    (hM : x.modulus sub ≤ 65536) (svc : Service F) (hfresh : svc.streams.lookup x.key = none)
    (ds : List Delivery) (hds : Meets (Receiver.step sub) (x.Delivers sub) ⟨svc, none⟩ ds) :
    Meets (Receiver.step sub) (x.Accounts sub) ⟨svc, none⟩ ds := by
  have hinit : x.Inv sub (⟨svc, none⟩ : Receiver F) := hfresh
  exact hds.imp (fun r d h hd ↦ (h.step htf hM r d hd).1)
    (fun r d h hd ↦ (h.step htf hM r d hd).2) hinit

/-- The stream of the concrete samples. -/
def exampleStream : Stream := ⟨streamKey (exampleASDU 0), 1, 80⟩

/-- The last two samples of a second and, after two lost ones, the third of the next. -/
theorem samples_accounted_at_wrap :
    let ds : List Delivery :=
      [.sample 3998 (exampleASDU 3998) (.ofUnix 1 0) .zero,
        .sample 3999 (exampleASDU 3999) (.ofUnix 1 1) .zero,
        .sample 4002 (exampleASDU 2) (.ofUnix 1 2) .zero]
    Meets (Receiver.step exampleSubscription) (exampleStream.Accounts exampleSubscription)
      (⟨⟨∅⟩, none⟩ : Receiver ℚ) ds := by
  intro ds
  refine samples_accounted _ _ (.inl rfl) (by decide) _ (AList.lookup_empty _) _ ?_
  refine ⟨⟨rfl, rfl, rfl, rfl, by decide, nofun⟩, ⟨rfl, rfl, rfl, rfl, by decide, ?_⟩,
    ⟨rfl, rfl, rfl, rfl, by decide, ?_⟩, trivial⟩
  · intro first last h
    cases h
    decide
  · intro first last h
    cases h
    decide

end ProcessBus.Sv
