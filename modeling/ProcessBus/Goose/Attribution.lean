import ProcessBus.Goose.Baseline
import ProcessBus.Goose.Watch

/-!
# The subscription a stream is attributed to

Streams are told apart by destination, AppID and control block, while a subscription can ask for
more: a source, a data set, a configuration revision, a VLAN.  So the frames of one stream can match
different subscriptions over time.  `process` hands a frame to `handleMatch` under the first
subscription it satisfies, but the entry of the stream keeps the one that its first frame matched.
`checkStale`, `Snapshots` and `Observe` name the kept one; everything else names the matched one.

`attribution_current` says when the two agree: as long as no accepted frame of a known stream
matches a subscription of another name than the kept one.
-/

namespace ProcessBus.Goose.Subscriber

open Go Lib

namespace Watched

/-- What happens to a subscriber with a list of subscriptions: a frame is captured, the watchdog
ticks, and consumers observe, read and cancel. -/
inductive Traffic
  | process (data : Bytes) (frame : Frame) (now : Time)
  | checkStale (now : Time)
  | observe (name : String) (now : Time)
  | cancel (i : ℕ)
  | read (i : ℕ)
  | closeWatches

/-- `process`: a frame that is not GOOSE, or that no subscription asks for, is skipped. -/
def process (subs : List Filter) (w : Watched) (data : Bytes) (frame : Frame) (now : Time) :
    Watched :=
  match received subs data with
  | some (sub, pdu) => w.handleMatch sub.toSubscription pdu frame now
  | none => w

def enter (subs : List Filter) (w : Watched) : Traffic → Watched
  | .process data frame now => w.process subs data frame now
  | .checkStale now => w.step (.checkStale now)
  | .observe name now => w.step (.observe name now)
  | .cancel i => w.step (.cancel i)
  | .read i => w.step (.read i)
  | .closeWatches => w.step .closeWatches

variable {subs : List Filter} {w : Watched}

/-- `process` with the watches is `process` of the service inside. -/
theorem service_process (w : Watched) (data : Bytes) (frame : Frame) (now : Time) :
    (w.process subs data frame now).service = (w.service.process subs data frame now).1 := by
  rw [process, Service.process]
  cases received subs data with
  | none => rfl
  | some r => exact service_handleMatch w r.1.toSubscription r.2 frame now

theorem Kept.enter (h : w.Kept) (t : Traffic) : (w.enter subs t).Kept := by
  cases t with
  | process data frame now =>
      show (w.process subs data frame now).Kept
      rw [process]
      split
      · exact h.handleMatch _ _ frame now
      · exact h
  | checkStale now => exact h.step (.checkStale now)
  | observe name now => exact h.step (.observe name now)
  | cancel i => exact h.step (.cancel i)
  | read i => exact h.step (.read i)
  | closeWatches => exact h.step .closeWatches

/-! ## Who is named -/

/-- The names under which a stream is reported are that of its last accepted frame. -/
structure Names (w : Watched) (key : StreamKey) (last : Accepted) : Prop where
  /-- The `stream_lost` events. -/
  lost : ∀ now, ∀ e ∈ (w.service.checkStale now).2,
    e.pdu.map streamKey = some key → e.subscription = last.name
  /-- The stream is among the `Snapshots` of this name, and of no other. -/
  snapshots : ∀ name now,
    (∃ x ∈ w.service.snapshots name now, x.pdu.map streamKey = some key) ↔ name = last.name
  /-- So it is for the `Initial` snapshots of a watch. -/
  initial : ∀ name now,
    (∃ x ∈ (w.watch name now).initial, x.pdu.map streamKey = some key) ↔ name = last.name

/-- Every stream is reported under the subscription of its last accepted frame. -/
def Attributed (w : Watched) : Prop :=
  ∀ key last, (ofStream key w.accepted).getLast? = some last → w.Names key last

/-- A frame that is accepted for a known stream matches a subscription of the name kept with the
stream. -/
def Follows (subs : List Filter) (w : Watched) : Traffic → Prop
  | .process data _ _ => ∀ sub pdu st, received subs data = some (sub, pdu) →
      w.streams.lookup (streamKey pdu) = some st → st.ignores pdu = false → sub.name = st.sub.name
  | _ => True

/-- The name kept with a stream is that of its last accepted frame. -/
def Settled (w : Watched) : Prop :=
  ∀ key st last, w.streams.lookup key = some st → (ofStream key w.accepted).getLast? = some last →
    st.sub.name = last.name

/-- An entry of the table shows the last frame of its stream. -/
theorem Kept.shows (h : w.Kept) {key : StreamKey} {st : StreamState}
    (hst : w.streams.lookup key = some st) :
    ∃ last, (ofStream key w.accepted).getLast? = some last ∧ st.seen = true ∧
      st.lastPDU = some last.observation.pdu ∧ st.lastPDU.map streamKey = some key := by
  rcases h.reflects key with ⟨hnone, -⟩ | ⟨st', -, last, hl, -, hlast, hseen, -, hframe⟩
  · exact absurd (hnone.symm.trans hst) (by simp)
  · obtain rfl : st' = st := Option.some.inj (hl.symm.trans hst)
    have hpdu : st'.lastPDU = some last.observation.pdu := congrArg Prod.fst hframe
    have hkey := (List.mem_filter.mp (List.mem_of_getLast? hlast)).2
    refine ⟨last, hlast, hseen, hpdu, ?_⟩
    rw [hpdu]
    exact congrArg some (beq_iff_eq.mp hkey)

/-- Frames have been accepted for the streams of the table only. -/
theorem Kept.lookup_of_getLast? (h : w.Kept) {key : StreamKey} {last : Accepted}
    (hlast : (ofStream key w.accepted).getLast? = some last) :
    ∃ st, w.streams.lookup key = some st := by
  rcases h.reflects key with ⟨-, hnil⟩ | ⟨st, -, -, hst, -⟩
  · rw [hnil] at hlast
    cases hlast
  · exact ⟨st, hst⟩

/-- The entry of a stream is among the snapshots of the name kept with it. -/
theorem Kept.mem_snapshots (h : w.Kept) {key : StreamKey} {st : StreamState}
    (hst : w.streams.lookup key = some st) (name : String) (now : Time) :
    (∃ x ∈ w.service.snapshots name now, x.pdu.map streamKey = some key) ↔
      name = st.sub.name := by
  obtain ⟨last, -, hseen, hpdu, hkey⟩ := h.shows hst
  constructor
  · rintro ⟨x, hx, hxkey⟩
    obtain ⟨st', hmem, rfl⟩ := List.mem_map.mp hx
    obtain ⟨hval, hcond⟩ := List.mem_filter.mp hmem
    obtain ⟨key', hst'⟩ := Table.mem_vals_iff.mp hval
    obtain ⟨-, -, -, -, hkey'⟩ := h.shows hst'
    obtain rfl : key' = key := Option.some.inj (hkey'.symm.trans hxkey)
    obtain rfl : st' = st := Option.some.inj (hst'.symm.trans hst)
    simp only [Bool.and_eq_true, beq_iff_eq] at hcond
    exact hcond.1.2.symm
  · rintro rfl
    refine ⟨st.snapshot now, List.mem_map.mpr ⟨st, List.mem_filter.mpr ⟨?_, ?_⟩, rfl⟩, hkey⟩
    · exact Table.mem_vals_iff.mpr ⟨key, hst⟩
    · simp [hseen, hpdu]

/-- A `stream_lost` event names the subscription kept with its stream. -/
theorem Kept.lost_event (h : w.Kept) {key : StreamKey} {st : StreamState}
    (hst : w.streams.lookup key = some st) {now : Time} {e : Event}
    (he : e ∈ (w.service.checkStale now).2) (hkey : e.pdu.map streamKey = some key) :
    e.subscription = st.sub.name := by
  obtain ⟨st', hmem, rfl⟩ := List.mem_map.mp he
  obtain ⟨key', hst'⟩ := Table.mem_vals_iff.mp (List.mem_filter.mp hmem).1
  obtain ⟨-, -, -, -, hkey'⟩ := h.shows hst'
  obtain rfl : key' = key := Option.some.inj (hkey'.symm.trans hkey)
  obtain rfl : st' = st := Option.some.inj (hst'.symm.trans hst)
  rfl

/-- A state reports its streams rightly iff the kept names are those of the last frames. -/
theorem Kept.attributed_iff (h : w.Kept) : w.Attributed ↔ w.Settled := by
  constructor
  · intro hatt key st last hst hlast
    exact ((hatt key last hlast).snapshots st.sub.name .zero).mp
      ((h.mem_snapshots hst _ _).mpr rfl)
  · intro hset key last hlast
    obtain ⟨st, hst⟩ := h.lookup_of_getLast? hlast
    have hname := hset key st last hst hlast
    refine ⟨fun now e he hkey ↦ ?_, fun name now ↦ ?_, fun name now ↦ ?_⟩
    · rw [h.lost_event hst he hkey, hname]
    · rw [h.mem_snapshots hst, hname]
    · rw [h.initial_eq, h.mem_snapshots hst, hname]

/-! ## Steps and runs -/

/-- The names and the accepted frames do not change. -/
theorem settled_congr {w w' : Watched} (hlog : w'.accepted = w.accepted)
    (hsub : ∀ key, (w'.streams.lookup key).map (·.sub) = (w.streams.lookup key).map (·.sub)) :
    w.Settled → w'.Settled := by
  intro h key st' last hst' hlast
  have hkey := hsub key
  rw [hst', Option.map_some, eq_comm] at hkey
  obtain ⟨st, hst, hname⟩ := Option.map_eq_some_iff.mp hkey
  rw [hlog] at hlast
  rw [← hname]
  exact h key st last hst hlast

theorem settled_checkStale (h : w.Settled) (now : Time) : (w.step (.checkStale now)).Settled := by
  refine settled_congr (w := w) rfl (fun key ↦ ?_) h
  have hsub (st : StreamState) : (st.expire now).sub = st.sub := by
    rw [StreamState.expire]
    split <;> rfl
  rw [step, Service.checkStale, Table.lookup_mapVal, Option.map_map]
  exact congrArg (Option.map · _) (funext hsub)

/-- A frame that is ignored changes no name. -/
theorem settled_ignored (h : w.Settled) {sub : Subscription} {pdu : PDU} {st : StreamState}
    (hst : w.streams.lookup (streamKey pdu) = some st) (hig : st.ignores pdu = true)
    (frame : Frame) (now : Time) : (w.handleMatch sub pdu frame now).Settled := by
  have hstream : w.service.stream sub (streamKey pdu) = st := by
    rw [Service.stream, service, hst, Option.getD_some]
  rw [handleMatch, hstream, if_pos hig]
  refine settled_congr (w := w) rfl (fun key ↦ ?_) h
  by_cases hkey : key = streamKey pdu
  · rw [hkey, AList.lookup_insert, hst]
  · rw [AList.lookup_insert_ne hkey]

/-- An accepted frame leaves the names settled iff it matched the subscription kept with the
stream. -/
theorem settled_accepted (h : w.Settled) {sub : Subscription} {pdu : PDU} {st : StreamState}
    (hst : w.service.stream sub (streamKey pdu) = st) (hacc : st.ignores pdu = false)
    (frame : Frame) (now : Time) :
    (w.handleMatch sub pdu frame now).Settled ↔ sub.name = st.sub.name := by
  rw [handleMatch, hst, if_neg (by rw [hacc]; decide)]
  set a : Accepted := ⟨sub.name, receivedAt frame now, ⟨pdu, frame.observedAt, st.isRestart pdu⟩⟩
  have hlast : (ofStream (streamKey pdu) (w.accepted ++ [a])).getLast? = some a := by
    have hone : ofStream (streamKey pdu) [a] = [a] := by
      simp [ofStream, a, Accepted.key]
    rw [ofStream_append, hone]
    exact List.getLast?_concat
  constructor
  · intro hs
    have hname := hs (streamKey pdu) (st.accept pdu frame (receivedAt frame now)) a
      (AList.lookup_insert _) hlast
    exact hname.symm
  · intro hname key st' last hst' hl
    by_cases hkey : key = streamKey pdu
    · subst hkey
      rw [AList.lookup_insert] at hst'
      rw [hlast] at hl
      cases hst'
      cases hl
      exact hname.symm
    · have hnone : ofStream key [a] = [] := by
        simp [ofStream, a, Accepted.key, Ne.symm hkey]
      rw [AList.lookup_insert_ne hkey] at hst'
      rw [ofStream_append, hnone, List.append_nil] at hl
      exact h key st' last hst' hl

theorem settled_handleMatch (h : w.Settled) (sub : Subscription) (pdu : PDU) (frame : Frame)
    (now : Time) :
    (w.handleMatch sub pdu frame now).Settled ↔
      ∀ st, w.streams.lookup (streamKey pdu) = some st → st.ignores pdu = false →
        sub.name = st.sub.name := by
  cases hl : w.streams.lookup (streamKey pdu) with
  | none =>
      -- the entry is made for this frame
      have hnew : w.service.stream sub (streamKey pdu) = { sub := sub } := by
        rw [Service.stream, service, hl, Option.getD_none]
      have hacc : StreamState.ignores { sub := sub } pdu = false :=
        StreamState.ignores_of_not_seen pdu rfl rfl
      rw [settled_accepted h hnew hacc frame now]
      refine iff_of_true rfl ?_
      rintro st ⟨⟩
  | some st =>
      have hst : w.service.stream sub (streamKey pdu) = st := by
        rw [Service.stream, service, hl, Option.getD_some]
      cases hig : st.ignores pdu with
      | true =>
          refine iff_of_true (settled_ignored h hl hig frame now) ?_
          rintro st' ⟨⟩ hacc
          exact absurd (hig.symm.trans hacc) (by decide)
      | false =>
          rw [settled_accepted h hst hig frame now]
          constructor
          · rintro hname st' ⟨⟩ -
            exact hname
          · intro hall
            exact hall st rfl hig

/-- **One step** keeps the names settled iff it follows the kept ones. -/
theorem settled_enter (h : w.Settled) (t : Traffic) :
    (w.enter subs t).Settled ↔ w.Follows subs t := by
  cases t with
  | process data frame now =>
      show (w.process subs data frame now).Settled ↔ _
      rw [process, Follows]
      cases hrec : received subs data with
      | none =>
          refine iff_of_true h ?_
          rintro sub pdu st ⟨⟩
      | some r =>
          refine (settled_handleMatch h r.1.toSubscription r.2 frame now).trans ⟨?_, ?_⟩
          · rintro hall sub pdu st ⟨⟩
            exact hall st
          · intro hall st
            exact hall r.1 r.2 st rfl
  | checkStale now => exact iff_of_true (settled_checkStale h now) trivial
  | observe name now => exact iff_of_true h trivial
  | cancel i => exact iff_of_true h trivial
  | read i => exact iff_of_true h trivial
  | closeWatches => exact iff_of_true h trivial

/-- **Attribution is current as long as no stream changes its subscription.**  Under every ordered
list of subscriptions and in every run: in all of its states every stream is reported lost, shown by
`Snapshots` and shown to new watches under the subscription that its last accepted frame matched,
iff no frame of the run that was accepted for a known stream matched a subscription of another name
than the one kept with the stream. -/
theorem attribution_current (subs : List Filter) (ts : List Traffic) :
    Always (enter subs) Attributed new ts ↔ Meets (enter subs) (Follows subs) new ts := by
  refine always_iff_meets (I := Kept) (fun w t hk ↦ hk.enter t) (fun w t hk hatt ↦ ?_) (kept_run [])
    (fun key last hlast ↦ nomatch hlast) ts
  rw [(hk.enter t).attributed_iff]
  exact settled_enter (hk.attributed_iff.mp hatt) t

/-- Two subscriptions to one control block, for two revisions of its configuration. -/
def exampleRevisions : List Filter :=
  [{ name := "old", dstMAC := [1, 0x0C, 0xCD, 1, 0, 1], appID := 1, confRev := some 1 },
    { name := "new", dstMAC := [1, 0x0C, 0xCD, 1, 0, 1], appID := 1, confRev := some 2 }]

/-- The publisher is reconfigured between two messages. -/
def exampleReconfigured : List Traffic :=
  [.process (encode { exampleMessage 0 with confRev := 1 }) ⟨.ofUnix 1 0, .ofUnix 1 0⟩ .zero,
    .process (encode { exampleMessage 1 with confRev := 2 }) ⟨.ofUnix 2 0, .ofUnix 2 0⟩ .zero]

/-- **A reconfigured stream is reported under the old subscription**: the last frame matched the
second one, while the loss, the snapshots and a new watch are the first one's. -/
theorem attribution_outdated :
    let w := exampleReconfigured.foldl (enter exampleRevisions) new
    let key : StreamKey := ⟨[1, 0x0C, 0xCD, 1, 0, 1], 1, [0x67]⟩
    (ofStream key w.accepted).map Accepted.name = ["old", "new"] ∧
      (∃ e ∈ (w.service.checkStale (.ofUnix 9 0)).2,
        e.pdu.map streamKey = some key ∧ e.subscription = "old") ∧
      (w.service.snapshots "old" (.ofUnix 2 5)).length = 1 ∧
      (w.service.snapshots "new" (.ofUnix 2 5)).length = 0 ∧
      (w.watch "old" (.ofUnix 2 5)).initial.length = 1 ∧
      (w.watch "new" (.ofUnix 2 5)).initial.length = 0 ∧
      ¬ Always (enter exampleRevisions) Attributed new exampleReconfigured := by
  intro w key
  have hnames : (ofStream key w.accepted).map Accepted.name = ["old", "new"] := by decide +kernel
  have hlost : ∃ e ∈ (w.service.checkStale (.ofUnix 9 0)).2,
      e.pdu.map streamKey = some key ∧ e.subscription = "old" := by decide +kernel
  refine ⟨hnames, hlost, by decide +kernel, by decide +kernel, by decide +kernel,
    by decide +kernel, fun h ↦ ?_⟩
  obtain ⟨e, he, hkey, hold⟩ := hlost
  have hlast := congrArg List.getLast? hnames
  rw [List.getLast?_map] at hlast
  obtain ⟨last, hl, hname⟩ := Option.map_eq_some_iff.mp hlast
  have hnew := (h.last key last hl).lost _ e he hkey
  rw [hold, hname] at hnew
  exact absurd hnew (by decide)

end Watched

end ProcessBus.Goose.Subscriber
