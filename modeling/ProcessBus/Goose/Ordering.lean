import ProcessBus.Goose.Publisher
import ProcessBus.Goose.Subscriber
import ProcessBus.Lib.Run

/-!
# Publisher to subscriber: acceptance follows publication order

One publisher, one subscriber and a network between them that loses, duplicates and reorders
frames as it likes.  A delivered frame is some frame of the publication, decoded again: it
carries the counters and the identity of the original, and its state-change time after the
trip over the wire (`Carries`).  The watchdog may run at any moment.

The subscriber knows nothing about positions; it sees two 32-bit counters that skip zero and a
rounded timestamp.  As long as a delivered frame is less than half the counters' range away
from the last accepted one, this is enough: the frame is accepted exactly when it is the first
one or was published strictly later (`accepted_iff_later`).
-/

namespace ProcessBus.Goose

open Go Lib Publisher Subscriber

/-- `q` is what decoding the encoded `p` yields, as far as `handleMatch` reads it. -/
structure Carries (p q : PDU) : Prop where
  dstMAC : q.dstMAC = p.dstMAC
  appID : q.appID = p.appID
  gocbRef : q.gocbRef = p.gocbRef
  stNum : q.stNum = p.stNum
  sqNum : q.sqNum = p.sqNum
  confRev : q.confRev = p.confRev
  timestamp : q.timestamp = (decodeUtcTime (encodeUtcTime p.timestamp p.timeQuality)).1

theorem Carries.wireTime {p q : PDU} (h : Carries p q) :
    q.timestamp = wireTime p.timestamp :=
  h.timestamp.trans (decodeUtcTime_encodeUtcTime _ _)

/-- A message as the subscriber decodes it, on the fields above. -/
def received (p : PDU) : PDU :=
  { p with timestamp := (decodeUtcTime (encodeUtcTime p.timestamp p.timeQuality)).1 }

theorem carries_received (p : PDU) : Carries p (received p) :=
  ⟨rfl, rfl, rfl, rfl, rfl, rfl, rfl⟩

/-- The stream that the frames of a publisher belong to. -/
def Publisher.PublisherConfig.key (cfg : PublisherConfig) : StreamKey :=
  ⟨cfg.dstMAC, cfg.appID, cfg.gocbRef⟩

theorem Carries.streamKey_eq {cfg : PublisherConfig} {T : Time → Prop} {p : Published} {q : PDU}
    (h : Carries p.pdu q) (hp : p.Wf cfg T) : streamKey q = cfg.key := by
  simp [streamKey, PublisherConfig.key, h.dstMAC, h.appID, h.gocbRef, hp.dstMAC, hp.appID,
    hp.gocbRef]

/-! ## One classification -/

/-- The stream state after accepting the published frame `p`. -/
structure Subscriber.StreamState.Holds (st : StreamState) (p : Published) : Prop where
  seen : st.seen = true
  stNum : st.lastStNum.toNat = skipZero counterSize (p.state + 1)
  sqNum : st.lastSqNum.toNat = skipZero counterSize p.msg
  timestamp : st.lastTimestamp = wireTime p.pdu.timestamp

theorem Subscriber.StreamState.holds_accept {cfg : PublisherConfig} {T : Time → Prop}
    {st : StreamState} {p : Published} {pdu : PDU} (hp : p.Wf cfg T) (hc : Carries p.pdu pdu)
    (frame : Frame) (t : Time) : (st.accept pdu frame t).Holds p where
  seen := rfl
  stNum := (congrArg UInt32.toNat hc.stNum).trans hp.stNum
  sqNum := (congrArg UInt32.toNat hc.sqNum).trans hp.sqNum
  timestamp := hc.wireTime

theorem stateDistance_toNat (st : StreamState) (pdu : PDU) :
    (st.stateDistance pdu).toNat = dist counterSize st.lastStNum.toNat pdu.stNum.toNat :=
  UInt32.toNat_sub _ _

theorem sqDistance_toNat (st : StreamState) (pdu : PDU) :
    (st.sqDistance pdu).toNat = dist counterSize st.lastSqNum.toNat pdu.sqNum.toNat :=
  UInt32.toNat_sub _ _

/-- The window in which serial comparison is meaningful: fewer than `2^31 - 1` changes of
state apart and, within one state, fewer than `2^31 - 1` messages apart. -/
def Near (p q : Published) : Prop :=
  (p.state < q.state + (2 ^ 31 - 1) ∧ q.state < p.state + (2 ^ 31 - 1)) ∧
    (p.state = q.state → p.msg < q.msg + (2 ^ 31 - 1) ∧ q.msg < p.msg + (2 ^ 31 - 1))

section Classify

variable {cfg : PublisherConfig} {st : StreamState} {p q : Published} {pdu : PDU}

/-- A frame published later than the last accepted one is accepted. -/
theorem ignores_of_precedes (hst : st.Holds p) (hp : InUtcRange p.pdu.timestamp)
    (hq : q.Wf cfg InUtcRange) (hc : Carries q.pdu pdu) (hnear : Near p q)
    (h : Precedes p q) : st.ignores pdu = false := by
  have hstale : pdu.timestamp.before st.lastTimestamp = false := by
    rw [hc.wireTime, hst.timestamp, Time.before_eq_false]
    exact wireTime_mono hp hq.timestamp h.2
  have hdist := stateDistance_toNat st pdu
  rw [hst.stNum, hc.stNum, hq.stNum] at hdist
  rcases h.1 with hlt | ⟨heq, hlt⟩
  · -- A later state: the state number is ahead by less than half the circle.
    obtain ⟨hpos, hhalf⟩ := dist_skipZero_later (M := counterSize) (i := p.state + 1)
      (j := q.state + 1) (by omega) (by have := hnear.1.2; norm_num; omega)
    rw [← hdist] at hpos hhalf
    have hne : pdu.stNum ≠ st.lastStNum := fun e ↦ by
      simp [StreamState.stateDistance, e] at hpos
    have hlt' : ¬ (0x80000000 : UInt32) ≤ st.stateDistance pdu := by
      rw [UInt32.le_iff_toNat_le]
      exact not_le.mpr hhalf
    simp [StreamState.ignores, StreamState.isDuplicate, StreamState.isReorderedHeartbeat,
      StreamState.staleTimestamp, StreamState.isRestartCandidate, hne, hlt', hstale]
  · -- The same state: the sequence number is ahead by less than half the circle.
    have hsteq : pdu.stNum = st.lastStNum := by
      rw [← UInt32.toNat_inj, hc.stNum, hq.stNum, hst.stNum, heq]
    have hsq := sqDistance_toNat st pdu
    rw [hst.sqNum, hc.sqNum, hq.sqNum] at hsq
    obtain ⟨hpos, hhalf⟩ := dist_skipZero_later (M := counterSize) hlt
      (by have := (hnear.2 heq).2; norm_num; omega)
    rw [← hsq] at hpos hhalf
    have hne : pdu.sqNum ≠ st.lastSqNum := fun e ↦ by
      simp [StreamState.sqDistance, e] at hpos
    have hne' : st.sqDistance pdu ≠ 0 := fun e ↦ by simp [e] at hpos
    have hlt' : st.sqDistance pdu < 0x80000000 := by
      rw [UInt32.lt_iff_toNat_lt]
      exact hhalf
    simp [StreamState.ignores, StreamState.isDuplicate, StreamState.isReorderedHeartbeat,
      StreamState.isHeartbeat, StreamState.staleTimestamp, StreamState.isRestartCandidate,
      StreamState.stateDistance, hsteq, hne, hne', hlt', hstale]

/-- A repetition of the last accepted frame is ignored. -/
theorem ignores_of_same (hst : st.Holds p) (hp : p.Wf cfg InUtcRange)
    (hc : Carries p.pdu pdu) : st.ignores pdu = true := by
  have hstNum : pdu.stNum = st.lastStNum := by
    rw [← UInt32.toNat_inj, hc.stNum, hp.stNum, hst.stNum]
  have hsqNum : pdu.sqNum = st.lastSqNum := by
    rw [← UInt32.toNat_inj, hc.sqNum, hp.sqNum, hst.sqNum]
  simp [StreamState.ignores, StreamState.isDuplicate, hst.seen, hstNum, hsqNum]

/-- A frame published before the last accepted one is ignored. -/
theorem ignores_of_preceded (hst : st.Holds p) (hp : InUtcRange p.pdu.timestamp)
    (hq : q.Wf cfg InUtcRange) (hc : Carries q.pdu pdu) (hnear : Near p q)
    (h : Precedes q p) : st.ignores pdu = true := by
  rcases h.1 with hlt | ⟨heq, hlt⟩
  · -- An earlier state looks like a restart, but its time is not newer.
    have hdist := stateDistance_toNat st pdu
    rw [hst.stNum, hc.stNum, hq.stNum] at hdist
    have hhalf := dist_skipZero_earlier (M := counterSize) (i := p.state + 1)
      (j := q.state + 1) (by omega) (by have := hnear.1.1; norm_num; omega)
    rw [← hdist] at hhalf
    have hle : (0x80000000 : UInt32) ≤ st.stateDistance pdu := by
      rw [UInt32.le_iff_toNat_le]
      exact hhalf
    have hpz : pdu.timestamp.isZero = false := hc.wireTime ▸ wireTime_ne_zero _
    have hsz : st.lastTimestamp.isZero = false := hst.timestamp ▸ wireTime_ne_zero _
    have hnew : pdu.timestamp.after st.lastTimestamp = false := by
      rw [hc.wireTime, hst.timestamp, Time.after_eq_false]
      exact wireTime_mono hq.timestamp hp h.2
    simp [StreamState.ignores, StreamState.isRestartCandidate, StreamState.isRestart,
      StreamState.restartTimestampOK, hst.seen, hle, hpz, hsz, hnew]
  · -- An earlier message of the same state: its sequence number is behind.
    have hsteq : pdu.stNum = st.lastStNum := by
      rw [← UInt32.toNat_inj, hc.stNum, hq.stNum, hst.stNum, heq]
    have hsq := sqDistance_toNat st pdu
    rw [hst.sqNum, hc.sqNum, hq.sqNum] at hsq
    have hhalf := dist_skipZero_earlier (M := counterSize) hlt
      (by have := (hnear.2 heq.symm).1; norm_num; omega)
    rw [← hsq] at hhalf
    have hlt' : ¬ st.sqDistance pdu < 0x80000000 := by
      rw [UInt32.lt_iff_toNat_lt]
      exact not_lt.mpr hhalf
    cases hdup : st.isDuplicate pdu <;>
      simp [StreamState.ignores, StreamState.isReorderedHeartbeat, StreamState.isHeartbeat,
        hst.seen, hsteq, hlt', hdup]

end Classify

/-! ## Delivery -/

/-- What happens at the subscriber: frame number `index` of the publication arrives, decoded
as `pdu`, or the watchdog runs. -/
inductive Input
  | frame (index : ℕ) (pdu : PDU) (frame : Frame) (now : Time)
  | tick (now : Time)

/-- The subscriber, with a record of the deliveries: how many frames have arrived, and the
numbers of the accepted ones, latest first. -/
structure Link where
  svc : Subscriber.Service
  delivered : ℕ := 0
  accepted : List ℕ := []

/-- One input at the subscriber. -/
def Link.step (sub : Subscription) (l : Link) : Input → Link
  | .frame index pdu frame now =>
      { svc := (l.svc.handleMatch sub pdu frame now).1
        delivered := l.delivered + 1
        accepted :=
          if (l.svc.stream sub (streamKey pdu)).ignores pdu then l.accepted
          else index :: l.accepted }
  | .tick now => { l with svc := (l.svc.checkStale now).1 }

/-- The input updates the state of the stream it belongs to. -/
def Updates (sub : Subscription) (svc : Subscriber.Service) (pdu : PDU) (frame : Frame)
    (now : Time) : Prop :=
  (svc.handleMatch sub pdu frame now).1.stream sub (streamKey pdu) ≠
    svc.stream sub (streamKey pdu)

/-- Every delivered frame decodes a frame of the publication. -/
def Delivers (ps : List Published) (inputs : List Input) : Prop :=
  ∀ index pdu frame now, Input.frame index pdu frame now ∈ inputs →
    ∃ p, ps[index]? = some p ∧ Carries p.pdu pdu

/-- A delivery, input by input. -/
theorem Delivers.meets {ps : List Published} {inputs : List Input} (h : Delivers ps inputs)
    {step : Link → Input → Link} {l : Link} :
    Meets step (fun _ a ↦ Delivers ps [a]) l inputs := by
  refine meets_of_forall ?_
  intro a ha _ index pdu frame now hm
  rw [← List.mem_singleton.mp hm] at ha
  exact h index pdu frame now ha

/-- A delivered frame is near the last accepted one. -/
def InWindow (ps : List Published) (l : Link) : Input → Prop
  | .frame index _ _ _ => ∀ k ∈ l.accepted.head?, ∀ p ∈ ps[k]?, ∀ q ∈ ps[index]?, Near p q
  | .tick _ => True

/-- A delivered frame is accepted exactly when it is the first one delivered or was published
after the last accepted one. -/
def AcceptsLater (sub : Subscription) (l : Link) : Input → Prop
  | .frame index pdu frame now =>
      Updates sub l.svc pdu frame now ↔
        l.delivered = 0 ∨ ∃ k ∈ l.accepted.head?, k < index
  | .tick _ => True

/-- The invariant of a delivery: the stream holds the last accepted frame, and the accepted
frames are in publication order. -/
structure Link.Inv (sub : Subscription) (key : StreamKey) (ps : List Published) (l : Link) :
    Prop where
  fresh : l.accepted = [] → l.delivered = 0 ∧ (l.svc.stream sub key).seen = false ∧
    (l.svc.stream sub key).lastPDU = none
  holds : ∀ k ∈ l.accepted.head?, 0 < l.delivered ∧
    ∃ p, ps[k]? = some p ∧ (l.svc.stream sub key).Holds p
  increasing : l.accepted.Pairwise (· > ·)

theorem Link.inv_fresh {sub : Subscription} {key : StreamKey} {svc : Subscriber.Service}
    (h : svc.streams.lookup key = none) (ps : List Published) :
    (Link.mk svc 0 []).Inv sub key ps where
  fresh _ := by simp [Service.stream, h]
  holds := by simp
  increasing := .nil

section Step

variable {cfg : PublisherConfig} {sub : Subscription} {ps : List Published} {l : Link}

/-- A watchdog run keeps the invariant: it does not touch what the classification reads. -/
theorem Link.Inv.tick (h : l.Inv sub cfg.key ps) (now : Time) :
    (l.step sub (.tick now)).Inv sub cfg.key ps := by
  obtain ⟨b, hb⟩ := checkStale_stream l.svc sub now cfg.key
  constructor
  · intro hnil
    simpa [Link.step, hb] using h.fresh hnil
  · intro k hk
    obtain ⟨hpos, p, hp, hst⟩ := h.holds k hk
    refine ⟨hpos, p, hp, ?_⟩
    simp only [Link.step, hb]
    exact ⟨hst.seen, hst.stNum, hst.sqNum, hst.timestamp⟩
  · exact h.increasing

/-- The classification of one delivered frame, by its number. -/
theorem Link.Inv.ignores_iff (hwf : ∀ p ∈ ps, p.Wf cfg InUtcRange) (hord : ps.Pairwise Precedes)
    (h : l.Inv sub cfg.key ps) {index : ℕ} {pdu : PDU} {p : Published}
    (hp : ps[index]? = some p) (hc : Carries p.pdu pdu)
    (hnear : ∀ k ∈ l.accepted.head?, ∀ p₀ ∈ ps[k]?, ∀ q ∈ ps[index]?, Near p₀ q) :
    (l.svc.stream sub cfg.key).ignores pdu = false ↔
      l.delivered = 0 ∨ ∃ k ∈ l.accepted.head?, k < index := by
  have hpwf := hwf p (List.mem_of_getElem? hp)
  cases hacc : l.accepted.head? with
  | none =>
      have hnil := List.head?_eq_none_iff.mp hacc
      obtain ⟨hd, hseen, hpdu⟩ := h.fresh hnil
      simp [hd, StreamState.ignores_of_not_seen pdu hseen hpdu]
  | some k =>
      obtain ⟨hpos, p₀, hp₀, hst⟩ := h.holds k hacc
      have hp₀wf := hwf p₀ (List.mem_of_getElem? hp₀)
      have hn := hnear k hacc p₀ hp₀ p hp
      have hd : ¬ l.delivered = 0 := by omega
      simp only [hd, false_or, Option.mem_def, Option.some.injEq, exists_eq_left']
      obtain ⟨hk, rfl⟩ := List.getElem?_eq_some_iff.mp hp₀
      obtain ⟨hi, rfl⟩ := List.getElem?_eq_some_iff.mp hp
      rcases lt_trichotomy k index with hlt | rfl | hgt
      · have := ignores_of_precedes hst hp₀wf.timestamp hpwf hc hn
          (List.pairwise_iff_getElem.mp hord k index hk hi hlt)
        simp [this, hlt]
      · simp [ignores_of_same hst hp₀wf hc]
      · have := ignores_of_preceded hst hp₀wf.timestamp hpwf hc hn
          (List.pairwise_iff_getElem.mp hord index k hi hk hgt)
        simp [this, not_lt.mpr hgt.le]

/-- A delivered frame keeps the invariant. -/
theorem Link.Inv.frame (hwf : ∀ p ∈ ps, p.Wf cfg InUtcRange) (hord : ps.Pairwise Precedes)
    (h : l.Inv sub cfg.key ps) {index : ℕ} {pdu : PDU} (frame : Frame) (now : Time)
    {p : Published} (hp : ps[index]? = some p) (hc : Carries p.pdu pdu)
    (hnear : ∀ k ∈ l.accepted.head?, ∀ p₀ ∈ ps[k]?, ∀ q ∈ ps[index]?, Near p₀ q) :
    (l.step sub (.frame index pdu frame now)).Inv sub cfg.key ps := by
  have hpwf := hwf p (List.mem_of_getElem? hp)
  have hkey := hc.streamKey_eq hpwf
  have hiff := h.ignores_iff hwf hord hp hc hnear
  have hstream := handleMatch_stream l.svc sub pdu frame now sub
  rw [hkey] at hstream
  cases hign : (l.svc.stream sub cfg.key).ignores pdu with
  | true =>
      have hne : l.accepted ≠ [] := fun hnil ↦ by
        simp [hign, (h.fresh hnil).1] at hiff
      refine ⟨fun hnil ↦ ?_, fun k hk ↦ ?_, ?_⟩
      · simp [Link.step, hkey, hign, hne] at hnil
      · simp only [Link.step, hkey, hign, if_true] at hk ⊢
        obtain ⟨hpos, p₀, hp₀, hst⟩ := h.holds k hk
        rw [hstream, if_pos hign]
        exact ⟨Nat.succ_pos _, p₀, hp₀, hst⟩
      · simpa [Link.step, hkey, hign] using h.increasing
  | false =>
      refine ⟨fun hnil ↦ ?_, fun k hk ↦ ?_, ?_⟩
      · simp [Link.step, hkey, hign] at hnil
      · simp only [Link.step, hkey, hign, Bool.false_eq_true, if_false, List.head?_cons,
          Option.mem_def, Option.some.injEq] at hk ⊢
        subst hk
        rw [hstream, if_neg (by simp [hign])]
        exact ⟨Nat.succ_pos _, p, hp, StreamState.holds_accept hpwf hc frame _⟩
      · simp only [Link.step, hkey, hign, Bool.false_eq_true, if_false]
        refine List.pairwise_cons.mpr ⟨fun k hk ↦ ?_, h.increasing⟩
        -- Everything accepted so far is at most the last accepted frame.
        rcases hiff.mp hign with hd | ⟨k₀, hk₀, hlt⟩
        · cases hacc : l.accepted with
          | nil => simp [hacc] at hk
          | cons a as =>
              obtain ⟨hpos, -⟩ := h.holds a (by simp [hacc])
              omega
        · cases hacc : l.accepted with
          | nil => simp [hacc] at hk
          | cons a as =>
              rw [hacc, List.head?_cons, Option.mem_def, Option.some.injEq] at hk₀
              subst hk₀
              rw [hacc] at hk
              rcases List.mem_cons.mp hk with rfl | hk
              · exact hlt
              · have hinc := h.increasing
                rw [hacc] at hinc
                exact lt_trans ((List.pairwise_cons.mp hinc).1 k hk) hlt

/-- What is asked of one input: a delivered frame is one of the publication and near the last
accepted one. -/
def Link.Fits (ps : List Published) (l : Link) (a : Input) : Prop :=
  Delivers ps [a] ∧ InWindow ps l a

/-- Every input that fits keeps the invariant. -/
theorem Link.Inv.step (hwf : ∀ p ∈ ps, p.Wf cfg InUtcRange) (hord : ps.Pairwise Precedes)
    (l : Link) (a : Input) (h : l.Inv sub cfg.key ps) (hfits : l.Fits ps a) :
    (l.step sub a).Inv sub cfg.key ps := by
  obtain ⟨hdel, hwin⟩ := hfits
  cases a with
  | frame index pdu frame now =>
      obtain ⟨p, hp, hc⟩ := hdel index pdu frame now List.mem_cons_self
      exact h.frame hwf hord frame now hp hc hwin
  | tick now => exact h.tick now

/-- Every input that fits is accepted in publication order. -/
theorem Link.Inv.acceptsLater (hwf : ∀ p ∈ ps, p.Wf cfg InUtcRange)
    (hord : ps.Pairwise Precedes) (l : Link) (a : Input) (h : l.Inv sub cfg.key ps)
    (hfits : l.Fits ps a) : AcceptsLater sub l a := by
  obtain ⟨hdel, hwin⟩ := hfits
  cases a with
  | frame index pdu frame now =>
      obtain ⟨p, hp, hc⟩ := hdel index pdu frame now List.mem_cons_self
      have hkey := hc.streamKey_eq (hwf p (List.mem_of_getElem? hp))
      rw [AcceptsLater, Updates, handleMatch_updates_iff, hkey]
      exact h.ignores_iff hwf hord hp hc hwin
  | tick now => trivial

end Step

/-- **Acceptance follows publication order.**  For every run of a publisher whose clock does
not run backwards, and for every delivery of its frames on a fresh stream that stays within the
window of serial comparison, a delivered frame updates the stream if and only if it is the
first one delivered or was published later than the last accepted one; so the accepted frames
are strictly increasing in publication order. -/
theorem accepted_iff_later (cfg : PublisherConfig) (r : Reading) (ops : List Op)
    (hclock : (r.now :: readings ops).Pairwise (· ≤ ·))
    (hrange : ∀ t ∈ r.now :: readings ops, InUtcRange t)
    (sub : Subscription) (svc : Subscriber.Service)
    (hfresh : svc.streams.lookup cfg.key = none) (inputs : List Input)
    (hdel : Delivers (published cfg r ops) inputs)
    (hwin : Meets (Link.step sub) (InWindow (published cfg r ops)) ⟨svc, 0, []⟩ inputs) :
    Meets (Link.step sub) (AcceptsLater sub) ⟨svc, 0, []⟩ inputs ∧
      (inputs.foldl (Link.step sub) ⟨svc, 0, []⟩).accepted.Pairwise (· > ·) := by
  have hwf : ∀ p ∈ published cfg r ops, p.Wf cfg InUtcRange :=
    publish_wf (new_at (hrange _ List.mem_cons_self))
      fun t ht ↦ hrange t (List.mem_cons_of_mem _ ht)
  have hord : (published cfg r ops).Pairwise Precedes := publish_precedes hclock
  have hfits : Meets (Link.step sub) (Link.Fits (published cfg r ops)) ⟨svc, 0, []⟩ inputs :=
    hdel.meets.and hwin
  have hinit : (Link.mk svc 0 []).Inv sub cfg.key (published cfg r ops) :=
    Link.inv_fresh hfresh _
  exact ⟨hfits.imp (Link.Inv.step hwf hord) (Link.Inv.acceptsLater hwf hord) hinit,
    (inv_run (Link.Inv.step hwf hord) hinit hfits).increasing⟩

/-- A publisher for concrete runs. -/
def exampleConfig : PublisherConfig where
  dstMAC := [0x01, 0x0C, 0xCD, 0x01, 0x00, 0x01]
  srcMAC := [0x02, 0x00, 0x00, 0x00, 0x00, 0x01]
  appID := 1
  gocbRef := []
  datSet := []
  goID := []
  confRev := 1
  ndsCom := false
  vlan := none
  minMs := 2
  maxMs := 1000
  initialData := []

/-- The publisher's clock, `s` seconds into 1970. -/
def exampleReading (s : ℤ) : Reading := ⟨.ofUnix s 0, true, true⟩

/-- The first frame of a publisher, delivered twice: only the first copy is accepted. -/
theorem accepted_iff_later_duplicate :
    let copy : Input :=
      .frame 0 (received (new exampleConfig (exampleReading 1)).pdu) ⟨.zero, .zero⟩ (.ofUnix 2 0)
    ([copy, copy].foldl (Link.step ⟨"s"⟩) ⟨⟨∅, []⟩, 0, []⟩).accepted = [0] ∧
      Meets (Link.step ⟨"s"⟩) (AcceptsLater ⟨"s"⟩) ⟨⟨∅, []⟩, 0, []⟩ [copy, copy] := by
  intro copy
  refine ⟨by decide, (accepted_iff_later exampleConfig (exampleReading 1) [.transmitState]
    (by simp [readings]) ?_ ⟨"s"⟩ ⟨∅, []⟩ rfl [copy, copy] ?_ ?_).1⟩
  · intro t ht
    rw [List.mem_singleton.mp ht]
    exact ⟨by decide, by decide⟩
  · intro index pdu frame now hm
    obtain ⟨rfl, rfl, -, -⟩ : index = 0 ∧ pdu = _ ∧ frame = _ ∧ now = _ := by
      simpa [copy] using hm
    exact ⟨_, rfl, carries_received _⟩
  · have hnear : Near ⟨0, 0, (new exampleConfig (exampleReading 1)).pdu⟩
        ⟨0, 0, (new exampleConfig (exampleReading 1)).pdu⟩ :=
      ⟨⟨by decide, by decide⟩, fun _ ↦ ⟨by decide, by decide⟩⟩
    refine ⟨?_, ?_, trivial⟩
    · intro k hk
      cases hk
    · intro k hk p hp q hq
      cases hk
      cases hp
      cases hq
      exact hnear

end ProcessBus.Goose
