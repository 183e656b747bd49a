import ProcessBus.Goose.Ordering
import ProcessBus.Goose.Trace

/-!
# Sequence gaps

`handleMatch` reports, for each accepted retransmission, how many sequence numbers were jumped
over since the last accepted frame of the state: the difference of the two numbers as 32-bit
integers, less one.  The publisher skips zero when its number rolls over and the subscriber does
not know about it, so across a rollover the report is one too many: a subscriber that has lost
nothing is told of a gap (`gap_at_rollover`).  Everywhere else the report is the number of frames
that were published in between (`gaps_exact_iff`).
-/

namespace ProcessBus.Goose

open Go Lib Publisher Subscriber

/-! ## One retransmission -/

section Classify

variable {cfg : PublisherConfig} {T : Time → Prop} {st : StreamState} {m : PDU} {k i j : ℕ}
  {pdu : PDU}

/-- How far the `j`-th sequence number of a state is ahead of the `i`-th, as 32-bit numbers. -/
def sqAhead (i j : ℕ) : ℕ := Lib.dist counterSize (skipZero counterSize i) (skipZero counterSize j)

theorem sqDistance_eq_sqAhead (hst : st.Holds (frameOf m k i)) (hc : Carries (frameOf m k j).pdu pdu) :
    (st.sqDistance pdu).toNat = sqAhead i j := by
  rw [sqDistance_toNat, hst.sqNum, hc.sqNum, sqNum_frameOf]
  rfl

theorem stNum_frameOf (hst : st.Holds (frameOf m k i)) (hj : (frameOf m k j).Wf cfg T)
    (hc : Carries (frameOf m k j).pdu pdu) : pdu.stNum = st.lastStNum := by
  rw [← UInt32.toNat_inj, hc.stNum, hj.stNum, hst.stNum]
  rfl

/-- A retransmission is a frame whose number is ahead by less than half the circle. -/
theorem isHeartbeat_frameOf_iff (hst : st.Holds (frameOf m k i)) (hj : (frameOf m k j).Wf cfg T)
    (hc : Carries (frameOf m k j).pdu pdu) :
    st.isHeartbeat pdu = true ↔ 0 < sqAhead i j ∧ sqAhead i j < 2 ^ 31 := by
  rw [← sqDistance_eq_sqAhead hst hc]
  have hpos : st.sqDistance pdu ≠ 0 ↔ 0 < (st.sqDistance pdu).toNat := by
    rw [Nat.pos_iff_ne_zero, ne_eq, ← UInt32.toNat_inj]
    rfl
  have hlt : st.sqDistance pdu < 0x80000000 ↔ (st.sqDistance pdu).toNat < 2 ^ 31 :=
    UInt32.lt_iff_toNat_lt
  simp only [StreamState.isHeartbeat, hst.seen, stNum_frameOf hst hj hc, Bool.and_eq_true,
    beq_self_eq_true, bne_iff_ne, decide_eq_true_eq, hpos, hlt, true_and]

/-- Within one state, exactly the retransmissions are accepted. -/
theorem ignores_frameOf_iff (hst : st.Holds (frameOf m k i)) (hj : (frameOf m k j).Wf cfg T)
    (hc : Carries (frameOf m k j).pdu pdu) :
    st.ignores pdu = false ↔ 0 < sqAhead i j ∧ sqAhead i j < 2 ^ 31 := by
  rw [← isHeartbeat_frameOf_iff hst hj hc]
  have hsteq := stNum_frameOf hst hj hc
  -- All frames of a state carry the time of its change, so none is stale.
  have hstale : pdu.timestamp.before st.lastTimestamp = false := by
    rw [hc.wireTime, hst.timestamp, Time.before_eq_false]
    exact le_refl (wireTime m.timestamp)
  have hdup : st.isHeartbeat pdu = true → st.isDuplicate pdu = false := by
    intro h
    have hne : st.sqDistance pdu ≠ 0 := by
      intro h0
      simp [StreamState.isHeartbeat, h0] at h
    have hne' : pdu.sqNum ≠ st.lastSqNum := fun e ↦ hne (by simp [StreamState.sqDistance, e])
    simp [StreamState.isDuplicate, hne']
  cases hhb : st.isHeartbeat pdu with
  | true =>
      simp [StreamState.ignores, StreamState.isReorderedHeartbeat, StreamState.staleTimestamp,
        StreamState.isRestartCandidate, StreamState.stateDistance, hsteq, hstale, hhb, hdup hhb]
  | false =>
      cases hd : st.isDuplicate pdu <;>
        simp [StreamState.ignores, StreamState.isReorderedHeartbeat, hst.seen, hsteq, hhb, hd]

/-- The gap reported for an accepted retransmission. -/
theorem sqGap_frameOf (hst : st.Holds (frameOf m k i)) (hj : (frameOf m k j).Wf cfg T)
    (hc : Carries (frameOf m k j).pdu pdu) (h : 0 < sqAhead i j ∧ sqAhead i j < 2 ^ 31) :
    (st.sqGap pdu).toInt = ((sqAhead i j - 1 : ℕ) : ℤ) := by
  rw [StreamState.sqGap, if_pos ((isHeartbeat_frameOf_iff hst hj hc).mpr h)]
  have hd := sqDistance_eq_sqAhead hst hc
  have hsub : (st.sqDistance pdu - 1).toNat = sqAhead i j - 1 := by
    rw [UInt32.toNat_sub_of_le _ _ (UInt32.le_iff_toNat_le.mpr (by rw [hd]; exact h.1)), hd]
    rfl
  rw [← hsub]
  refine BitVec.toInt_eq_toNat_of_lt ?_
  have hlt : (st.sqDistance pdu - 1).toNat < 2 ^ 31 := by omega
  exact (Nat.mul_lt_mul_left (by decide)).mpr hlt

end Classify

/-! ## Deliveries -/

/-- The numbers of the delivered frames. -/
def indices : List Input → List ℕ
  | [] => []
  | .frame index _ _ _ :: inputs => index :: indices inputs
  | .tick _ :: inputs => indices inputs

/-- The gap reported for an accepted retransmission is the number of frames published between it
and the last accepted one. -/
def ExactGap (sub : Subscription) (l : Link) : Input → Prop
  | .frame index pdu _ _ => ∀ last ∈ l.accepted.head?,
      (l.svc.stream sub (streamKey pdu)).ignores pdu = false →
        ((l.svc.stream sub (streamKey pdu)).sqGap pdu).toInt = ((index - last - 1 : ℕ) : ℤ)
  | .tick _ => True

/-- The sequence number has not rolled over between the last accepted frame and a delivered one
that looks newer. -/
def NoRollover (l : Link) : Input → Prop
  | .frame index _ _ _ => ∀ last ∈ l.accepted.head?,
      0 < sqAhead last index ∧ sqAhead last index < 2 ^ 31 →
        lap counterSize last = lap counterSize index
  | .tick _ => True

/-- A delivered frame comes after the last accepted one. -/
def InOrder (l : Link) : Input → Prop
  | .frame index _ _ _ => ∀ last ∈ l.accepted.head?, last < index
  | .tick _ => True

/-- Frames delivered in order come after the accepted ones. -/
theorem meets_inOrder {sub : Subscription} {l : Link} {inputs : List Input}
    (h : (indices inputs).Pairwise (· < ·))
    (hl : ∀ last ∈ l.accepted.head?, ∀ i ∈ indices inputs, last < i) :
    Meets (Link.step sub) InOrder l inputs := by
  induction inputs generalizing l with
  | nil => trivial
  | cons a inputs ih =>
      cases a with
      | frame index pdu frame now =>
          obtain ⟨hlt, htail⟩ := List.pairwise_cons.mp h
          refine ⟨fun last hlast ↦ hl last hlast index List.mem_cons_self, ih htail ?_⟩
          intro last hlast i hi
          simp only [Link.step] at hlast
          split at hlast
          · exact hl last hlast i (List.mem_cons_of_mem _ hi)
          · rw [List.head?_cons, Option.mem_some_iff] at hlast
            subst hlast
            exact hlt i hi
      | tick now => exact ⟨trivial, ih h hl⟩

section Step

variable {cfg : PublisherConfig} {T : Time → Prop} {sub : Subscription} {m : PDU} {k n : ℕ}
  {l : Link}

/-- The stream holds the last accepted frame of the period. -/
def Link.HoldsLast (sub : Subscription) (key : StreamKey) (m : PDU) (k : ℕ) (l : Link) : Prop :=
  ∀ last ∈ l.accepted.head?, (l.svc.stream sub key).Holds (frameOf m k last)

/-- A delivered frame is one of the period. -/
theorem delivers_frameOf {index : ℕ} {pdu : PDU} {frame : Frame} {now : Time}
    (hwf : ∀ p ∈ (List.range n).map (frameOf m k), p.Wf cfg T)
    (h : Delivers ((List.range n).map (frameOf m k)) [.frame index pdu frame now]) :
    (frameOf m k index).Wf cfg T ∧ Carries (frameOf m k index).pdu pdu := by
  obtain ⟨p, hp, hc⟩ := h index pdu frame now List.mem_cons_self
  have hpwf := hwf p (List.mem_of_getElem? hp)
  obtain ⟨hlt, rfl⟩ := List.getElem?_eq_some_iff.mp hp
  rw [List.getElem_map, List.getElem_range] at hpwf hc
  exact ⟨hpwf, hc⟩

theorem Link.HoldsLast.step (hwf : ∀ p ∈ (List.range n).map (frameOf m k), p.Wf cfg T)
    (l : Link) (a : Input) (h : l.HoldsLast sub cfg.key m k)
    (hdel : Delivers ((List.range n).map (frameOf m k)) [a]) :
    (l.step sub a).HoldsLast sub cfg.key m k := by
  cases a with
  | frame index pdu frame now =>
      obtain ⟨hj, hc⟩ := delivers_frameOf hwf hdel
      have hstream := handleMatch_stream l.svc sub pdu frame now sub
      intro last hlast
      rw [hc.streamKey_eq hj] at hstream
      simp only [Link.step, hc.streamKey_eq hj] at hlast ⊢
      rw [hstream]
      cases hign : (l.svc.stream sub cfg.key).ignores pdu with
      | true =>
          rw [hign, if_pos rfl] at hlast
          rw [if_pos rfl]
          exact h last hlast
      | false =>
          rw [hign, if_neg Bool.false_ne_true, List.head?_cons, Option.mem_some_iff] at hlast
          rw [if_neg Bool.false_ne_true, ← hlast]
          exact StreamState.holds_accept hj hc frame _
  | tick now =>
      intro last hlast
      obtain ⟨b, hb⟩ := checkStale_stream l.svc sub now cfg.key
      have hst := h last hlast
      simp only [Link.step, hb]
      exact ⟨hst.seen, hst.stNum, hst.sqNum, hst.timestamp⟩

/-- One delivery: the gap is exact if and only if no rollover lies in between. -/
theorem exactGap_iff (hwf : ∀ p ∈ (List.range n).map (frameOf m k), p.Wf cfg T)
    (h : l.HoldsLast sub cfg.key m k) {a : Input}
    (hdel : Delivers ((List.range n).map (frameOf m k)) [a]) (hord : InOrder l a) :
    ExactGap sub l a ↔ NoRollover l a := by
  cases a with
  | frame index pdu frame now =>
      obtain ⟨hj, hc⟩ := delivers_frameOf hwf hdel
      refine forall₂_congr fun last hlast ↦ ?_
      rw [hc.streamKey_eq hj, ignores_frameOf_iff (h last hlast) hj hc]
      refine imp_congr_right fun hacc ↦ ?_
      have hlt := hord last hlast
      rw [sqGap_frameOf (h last hlast) hj hc hacc, Nat.cast_inj,
        ← dist_skipZero_eq_iff hlt.le (by decide) (lt_trans hacc.2 (by decide))]
      have := hacc.1
      unfold sqAhead at this ⊢
      omega
  | tick now => exact Iff.rfl

end Step

/-- **When sequence gaps are exact.**  For every run of a publisher and every in-order delivery of
frames of one of its states, whatever was lost: the gap of each accepted retransmission is the
number of frames published between it and the last accepted one if and only if the sequence
number does not roll over in between. -/
theorem gaps_exact_iff (cfg : PublisherConfig) (r : Reading) (ops : List Op) (k : ℕ)
    (sub : Subscription) (svc : Subscriber.Service) (inputs : List Input)
    (hdel : Delivers (period (published cfg r ops) k) inputs)
    (hord : (indices inputs).Pairwise (· < ·)) :
    Meets (Link.step sub) (ExactGap sub) ⟨svc, 0, []⟩ inputs ↔
      Meets (Link.step sub) NoRollover ⟨svc, 0, []⟩ inputs := by
  have hat : (new cfg r).At cfg (fun _ ↦ True) 0 0 := new_at trivial
  have hwf : ∀ p ∈ period (published cfg r ops) k, p.Wf cfg fun _ ↦ True :=
    fun p hp ↦ publish_wf hat (fun _ _ ↦ trivial) p (List.mem_of_mem_filter hp)
  obtain ⟨m, n, hn⟩ := published_period cfg r ops k
  rw [hn] at hdel hwf
  have hlast : (Link.mk svc 0 []).HoldsLast sub cfg.key m k := by
    intro last hlast
    cases hlast
  have hinOrder : Meets (Link.step sub) InOrder ⟨svc, 0, []⟩ inputs := by
    refine meets_inOrder hord fun last hlast ↦ ?_
    cases hlast
  have hfits := hdel.meets.and hinOrder
  constructor
  · intro h
    refine (hfits.and h).imp (fun l a hl hok ↦ hl.step hwf l a hok.1.1) ?_ hlast
    rintro l a hl ⟨⟨hd, ho⟩, hexact⟩
    exact (exactGap_iff hwf hl hd ho).mp hexact
  · intro h
    refine (hfits.and h).imp (fun l a hl hok ↦ hl.step hwf l a hok.1.1) ?_ hlast
    rintro l a hl ⟨⟨hd, ho⟩, hno⟩
    exact (exactGap_iff hwf hl hd ho).mpr hno

/-! ## Concrete deliveries -/

/-- A publisher that only transmits stays in its state. -/
theorem publish_replicate {cfg : PublisherConfig} {T : Time → Prop} {s : Publisher.Service}
    {state msg : ℕ} (h : s.At cfg T state msg) (n : ℕ) :
    publish s state msg (List.replicate n .transmitState) =
      (List.range' msg n).map (frameOf s.pdu state) := by
  induction n generalizing s msg with
  | zero => rfl
  | succ n ih =>
      have hn := ih h.transmit
      rw [List.replicate_succ, publish, List.range'_succ, List.map_cons, ← h.pdu_eq_frameOf]
      exact congrArg _ hn

/-- Frame `i` of the first state of a publisher, delivered. -/
def exampleFrame (i : ℕ) : Input :=
  .frame i (received (frameOf (new exampleConfig (exampleReading 1)).pdu 0 i).pdu) ⟨.zero, .zero⟩
    (.ofUnix 2 0)

theorem delivers_exampleFrame {n : ℕ} {is : List ℕ} (h : ∀ i ∈ is, i < n) :
    Delivers (period (published exampleConfig (exampleReading 1)
      (List.replicate n .transmitState)) 0) (is.map exampleFrame) := by
  have hat : (new exampleConfig (exampleReading 1)).At exampleConfig (fun _ ↦ True) 0 0 :=
    new_at trivial
  intro index pdu frame now hm
  obtain ⟨i, hi, he⟩ := List.mem_map.mp hm
  cases he
  rw [published, publish_replicate hat, ← List.range_eq_range', period,
    List.filter_eq_self.mpr (by simp [frameOf])]
  exact ⟨_, by simp [h index hi], carries_received _⟩

/-- Two frames with one lost between them: a gap of one. -/
theorem gaps_exact_iff_one_lost :
    Meets (Link.step ⟨"s"⟩) (ExactGap ⟨"s"⟩) ⟨⟨∅, []⟩, 0, []⟩ ([0, 2].map exampleFrame) := by
  refine (gaps_exact_iff exampleConfig (exampleReading 1) (List.replicate 3 .transmitState) 0 ⟨"s"⟩
    ⟨∅, []⟩ _ (delivers_exampleFrame (by decide)) (by decide)).mpr ?_
  refine ⟨?_, ?_, trivial⟩
  · intro last hlast
    cases hlast
  · intro last hlast _
    cases hlast
    decide

/-- **A gap is reported where nothing was lost**: the two frames around the rollover, delivered one
after the other. -/
theorem gap_at_rollover :
    Delivers (period (published exampleConfig (exampleReading 1)
        (List.replicate (2 ^ 32 + 1) .transmitState)) 0)
        ([2 ^ 32 - 1, 2 ^ 32].map exampleFrame) ∧
      (indices ([2 ^ 32 - 1, 2 ^ 32].map exampleFrame)).Pairwise (· < ·) ∧
      ¬ Meets (Link.step ⟨"s"⟩) (ExactGap ⟨"s"⟩) ⟨⟨∅, []⟩, 0, []⟩
        ([2 ^ 32 - 1, 2 ^ 32].map exampleFrame) := by
  refine ⟨delivers_exampleFrame (by decide), by decide, ?_⟩
  rintro ⟨-, h, -⟩
  have hgap := h (2 ^ 32 - 1) (by decide) (by decide)
  revert hgap
  decide

end ProcessBus.Goose
