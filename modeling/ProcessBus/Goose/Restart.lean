import ProcessBus.Goose.Ordering

/-!
# A publisher that starts again

A fresh `goosepub.Service` begins with state number 1 and sequence number 0.  The subscriber
has no other sign of the restart than these counters and the time of the new state, so it
recognises a restart from a state number that goes *back*.  That misses an earlier run that
never left its first state: there the new frame is a duplicate, or a heartbeat out of order,
and is dropped although its time is newer.

`restart_accepted_iff` is the exact condition, over every earlier run and every delivery of it.
-/

namespace ProcessBus.Goose

open Go Lib Publisher Subscriber

/-- The frame is accepted and is what the following frames are compared with. -/
def BecomesBaseline (sub : Subscription) (svc : Subscriber.Service) (pdu : PDU) (frame : Frame)
    (now : Time) : Prop :=
  Updates sub svc pdu frame now ∧
    let st := (svc.handleMatch sub pdu frame now).1.stream sub (streamKey pdu)
    st.seen = true ∧ st.lastStNum = pdu.stNum ∧ st.lastSqNum = pdu.sqNum ∧ st.lastPDU = some pdu

/-- A frame becomes the baseline exactly when it is not ignored. -/
theorem becomesBaseline_iff (sub : Subscription) (svc : Subscriber.Service) (pdu : PDU)
    (frame : Frame) (now : Time) :
    BecomesBaseline sub svc pdu frame now ↔
      (svc.stream sub (streamKey pdu)).ignores pdu = false := by
  unfold BecomesBaseline Updates
  rw [handleMatch_updates_iff]
  constructor
  · exact And.left
  · intro h
    refine ⟨h, ?_⟩
    rw [handleMatch_stream, if_neg (by simp [h])]
    exact ⟨rfl, rfl, rfl, rfl⟩

/-! ## The history of a stream -/

/-- What the restart rules need of a stream: its last frame, if any, has a time. -/
def Subscriber.StreamState.Dated (st : StreamState) : Prop :=
  if st.seen then st.lastTimestamp.isZero = false else st.lastPDU = none

/-- Every delivery of a publication leaves the stream dated: the decoder never produces Go's
zero time. -/
theorem dated_of_delivers {cfg : PublisherConfig} {T : Time → Prop} {ps : List Published}
    (hwf : ∀ p ∈ ps, p.Wf cfg T) {sub : Subscription} {l : Link}
    (hl : (l.svc.stream sub cfg.key).Dated) {inputs : List Input} (hdel : Delivers ps inputs) :
    ((inputs.foldl (Link.step sub) l).svc.stream sub cfg.key).Dated := by
  refine inv_run (I := fun l : Link ↦ (l.svc.stream sub cfg.key).Dated) ?_ hl hdel.meets
  intro l a ih hone
  cases a with
  | frame index pdu frame now =>
      obtain ⟨p, hp, hc⟩ := hone index pdu frame now List.mem_cons_self
      have hkey := hc.streamKey_eq (hwf p (List.mem_of_getElem? hp))
      have hstream := handleMatch_stream l.svc sub pdu frame now sub
      rw [hkey] at hstream
      simp only [Link.step, hstream]
      split
      · exact ih
      · change pdu.timestamp.isZero = false
        rw [hc.wireTime]
        exact wireTime_ne_zero _
  | tick now =>
      obtain ⟨b, hb⟩ := checkStale_stream l.svc sub now cfg.key
      simp only [Link.step, hb]
      exact ih

/-! ## Recognition -/

/-- When the first frame of a fresh publisher, with wire time `t`, is recognised.  A state
number from 2 up to half the circle counts as going back and asks for a newer time; any other
one counts as going forward and asks for a time that is not older; state 1 itself is only left
by a sequence number beyond half the circle. -/
def Subscriber.StreamState.Recognises (st : StreamState) (t : Time) : Prop :=
  st.seen = false ∨
    ((st.lastStNum = 1 → 2 ^ 31 < st.lastSqNum.toNat) ∧ st.lastTimestamp ≤ t ∧
      (2 ≤ st.lastStNum.toNat ∧ st.lastStNum.toNat ≤ 2 ^ 31 + 1 → st.lastTimestamp < t))

section Rules

variable {st : StreamState} {pdu : PDU}

/-- State number 1 goes back exactly from the numbers up to half the circle ahead of it. -/
theorem isRestartCandidate_first (hseen : st.seen = true) (hone : pdu.stNum = 1) :
    st.isRestartCandidate pdu = true ↔
      2 ≤ st.lastStNum.toNat ∧ st.lastStNum.toNat ≤ 2 ^ 31 + 1 := by
  have hd : (st.stateDistance pdu).toNat = (2 ^ 32 - st.lastStNum.toNat + 1) % 2 ^ 32 := by
    rw [StreamState.stateDistance, hone, UInt32.toNat_sub]
    rfl
  have hlt := st.lastStNum.toNat_lt
  rw [StreamState.isRestartCandidate, hseen, Bool.true_and, decide_eq_true_iff,
    UInt32.le_iff_toNat_le, hd, show (0x80000000 : UInt32).toNat = 2 ^ 31 from rfl]
  omega

/-- Sequence number 0 goes forward exactly from the numbers beyond half the circle. -/
theorem isHeartbeat_first (hseen : st.seen = true) (hst : pdu.stNum = st.lastStNum)
    (hzero : pdu.sqNum = 0) : st.isHeartbeat pdu = true ↔ 2 ^ 31 < st.lastSqNum.toNat := by
  have hd : (st.sqDistance pdu).toNat = (2 ^ 32 - st.lastSqNum.toNat) % 2 ^ 32 := by
    rw [StreamState.sqDistance, hzero, UInt32.toNat_sub]
    rfl
  have hlt := st.lastSqNum.toNat_lt
  simp only [StreamState.isHeartbeat, hseen, hst, beq_self_eq_true, Bool.true_and,
    Bool.and_eq_true, bne_iff_ne, ne_eq, decide_eq_true_iff, UInt32.lt_iff_toNat_lt,
    ← UInt32.toNat_inj, hd, UInt32.toNat_zero,
    show (0x80000000 : UInt32).toNat = 2 ^ 31 from rfl]
  omega

/-- The restart rules, for a frame with counters 1 and 0. -/
theorem ignores_first_iff (hst : st.Dated) (hone : pdu.stNum = 1) (hzero : pdu.sqNum = 0)
    (ht : pdu.timestamp.isZero = false) :
    st.ignores pdu = false ↔ st.Recognises pdu.timestamp := by
  unfold StreamState.Dated at hst
  cases hseen : st.seen with
  | false =>
      rw [hseen, if_neg Bool.false_ne_true] at hst
      simp [StreamState.ignores_of_not_seen pdu hseen hst, StreamState.Recognises, hseen]
  | true =>
      rw [hseen, if_pos rfl] at hst
      -- The guard has four disjuncts: the first two are about state 1, the others about times.
      have hback := isRestartCandidate_first hseen hone
      have hstate : (st.isDuplicate pdu || st.isReorderedHeartbeat pdu) = false ↔
          (st.lastStNum = 1 → 2 ^ 31 < st.lastSqNum.toNat) := by
        by_cases h1 : st.lastStNum = 1
        · have hbeat := isHeartbeat_first hseen (hone.trans h1.symm) hzero
          have hdup : st.isDuplicate pdu = true ↔ st.lastSqNum = 0 := by
            simp only [StreamState.isDuplicate, hseen, hone, h1, hzero, beq_self_eq_true,
              Bool.true_and, beq_iff_eq]
            exact eq_comm
          have heq : (pdu.stNum == st.lastStNum) = true := by rw [hone, h1]; rfl
          rw [← hbeat, forall_prop_of_true h1]
          cases hd : st.isDuplicate pdu with
          | true =>
              have hq := hdup.mp hd
              simp [StreamState.isHeartbeat, StreamState.sqDistance, hzero, hq]
          | false =>
              simp [StreamState.isReorderedHeartbeat, hseen, heq, hd]
        · have hne : (pdu.stNum == st.lastStNum) = false := by
            rw [hone]
            exact beq_eq_false_iff_ne.mpr (Ne.symm h1)
          simp [StreamState.isDuplicate, StreamState.isReorderedHeartbeat, hne, h1]
      have hstale : st.staleTimestamp pdu = false ↔ st.lastTimestamp ≤ pdu.timestamp := by
        rw [← Time.before_eq_false]
        simp [StreamState.staleTimestamp, ht, hst]
      have hrestart : (st.isRestartCandidate pdu && !st.isRestart pdu) = false ↔
          (2 ≤ st.lastStNum.toNat ∧ st.lastStNum.toNat ≤ 2 ^ 31 + 1 →
            st.lastTimestamp < pdu.timestamp) := by
        rw [← hback, ← Time.after_iff]
        cases h : st.isRestartCandidate pdu <;>
          simp [h, StreamState.isRestart, StreamState.restartTimestampOK, hzero, ht, hst]
      simp only [StreamState.ignores, StreamState.Recognises, hseen, Bool.true_eq_false, false_or]
      rw [Bool.or_eq_false_iff, Bool.or_eq_false_iff, hstate, hstale, hrestart, and_assoc]

end Rules

/-- **When a restart is recognised.**  Whatever an earlier run of a publisher published and
whatever of it was delivered, in any order, the first frame of a fresh publisher of the same
stream becomes the new baseline exactly when the stream recognises it: its last accepted frame
is not one of the first half circle of state 1, and its time over the wire is not older, or
newer where the state number goes back. -/
theorem restart_accepted_iff (cfg : PublisherConfig) (r : Reading) (ops : List Op)
    (sub : Subscription) (svc : Subscriber.Service)
    (hfresh : svc.streams.lookup cfg.key = none) (inputs : List Input)
    (hdel : Delivers (published cfg r ops) inputs)
    (cfg' : PublisherConfig) (hkey : cfg'.key = cfg.key) (r' : Reading) (pdu : PDU)
    (hc : Carries (new cfg' r').pdu pdu) (frame : Frame) (now : Time) :
    let l := inputs.foldl (Link.step sub) ⟨svc, 0, []⟩
    BecomesBaseline sub l.svc pdu frame now ↔
      (l.svc.stream sub cfg.key).Recognises (wireTime r'.now) := by
  intro l
  have hwf : ∀ p ∈ published cfg r ops, p.Wf cfg (fun _ ↦ True) :=
    publish_wf (new_at trivial) fun _ _ ↦ trivial
  have hdated : (l.svc.stream sub cfg.key).Dated := by
    refine dated_of_delivers hwf (l := ⟨svc, 0, []⟩) ?_ hdel
    simp [StreamState.Dated, Service.stream, hfresh]
  have hstream : streamKey pdu = cfg.key := by
    rw [← hkey]
    simp only [streamKey, hc.dstMAC, hc.appID, hc.gocbRef]
    rfl
  rw [becomesBaseline_iff, hstream, ← show pdu.timestamp = wireTime r'.now from hc.wireTime]
  exact ignores_first_iff hdated hc.stNum hc.sqNum (hc.wireTime ▸ wireTime_ne_zero _)

/-- A publisher that restarts before its first change of state: after one accepted frame of the
earlier run, at second 1, the first frame of the new run, at second 100, is dropped. -/
theorem restart_in_first_state :
    let first : Input :=
      .frame 0 (received (new exampleConfig (exampleReading 1)).pdu) ⟨.zero, .zero⟩ (.ofUnix 2 0)
    let l := [first].foldl (Link.step ⟨"s"⟩) ⟨⟨∅, []⟩, 0, []⟩
    let fresh := new exampleConfig (exampleReading 100)
    Delivers (published exampleConfig (exampleReading 1) [.transmitState]) [first] ∧
      (l.svc.stream ⟨"s"⟩ exampleConfig.key).lastTimestamp < fresh.stateChanged ∧
      ¬ BecomesBaseline ⟨"s"⟩ l.svc (received fresh.pdu) ⟨.zero, .zero⟩ (.ofUnix 101 0) := by
  intro first l fresh
  refine ⟨?_, by decide, ?_⟩
  · intro index pdu frame now hm
    obtain ⟨rfl, rfl, -, -⟩ : index = 0 ∧ pdu = _ ∧ frame = _ ∧ now = _ := by
      simpa [first] using hm
    exact ⟨_, rfl, carries_received _⟩
  · rw [becomesBaseline_iff]
    decide

/-- A publisher that restarts after a change of state, at second 2, is recognised. -/
theorem restart_after_state_change :
    let changed := ((new exampleConfig (exampleReading 1)).applyState [] true false
      (exampleReading 2)).1
    let second : Input := .frame 0 (received changed.pdu) ⟨.zero, .zero⟩ (.ofUnix 3 0)
    let l := [second].foldl (Link.step ⟨"s"⟩) ⟨⟨∅, []⟩, 0, []⟩
    BecomesBaseline ⟨"s"⟩ l.svc (received (new exampleConfig (exampleReading 100)).pdu)
      ⟨.zero, .zero⟩ (.ofUnix 101 0) := by
  intro changed second l
  refine (restart_accepted_iff exampleConfig (exampleReading 1)
    [.applyState [] true false (exampleReading 2), .transmitState] ⟨"s"⟩ ⟨∅, []⟩ rfl [second] ?_
    exampleConfig rfl (exampleReading 100) _ (carries_received _) _ _).mpr ?_
  · intro index pdu frame now hm
    obtain ⟨rfl, rfl, -, -⟩ : index = 0 ∧ pdu = _ ∧ frame = _ ∧ now = _ := by
      simpa [second] using hm
    exact ⟨_, rfl, carries_received _⟩
  · exact .inr ⟨by decide, by decide, fun _ ↦ by decide⟩

end ProcessBus.Goose
