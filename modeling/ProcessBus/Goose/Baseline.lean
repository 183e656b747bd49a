import ProcessBus.Goose.Grammar
import ProcessBus.Goose.Subscriber
import ProcessBus.Lib.Run

/-!
# The baseline of a stream under arbitrary traffic

The subscriber takes whatever arrives: `process` decodes a captured frame, looks for a subscription
that it satisfies and hands it to `handleMatch`; the watchdog runs in between.  Nothing is assumed
about the senders, so the frames are arbitrary byte strings.

The state-change time of a decoded message is never Go's zero time, since a frame without one is no
GOOSE frame (`decode_timestamp_ne_zero`).  Hence the comparison with the last accepted time is never
skipped, and the last accepted time of a stream only grows; what is rejected leaves nothing behind.
-/

namespace ProcessBus.Goose.Subscriber

open Go Lib Lib.Checked

/-! ## Frames -/

/-- `goose.Subscription`: what a frame must look like.  `none` and an empty string do not filter. -/
structure Filter extends Subscription where
  dstMAC : Bytes
  srcMAC : Option Bytes := none
  appID : UInt16 := 0
  matchAnyAppID : Bool := false
  gocbRef : Bytes := []
  datSet : Bytes := []
  goID : Bytes := []
  confRev : Option UInt32 := none
  vlanID : Option UInt16 := none
  vlanPriority : Option UInt8 := none
  acceptTest : Bool := false
  acceptSimulation : Bool := false
  acceptNdsCom : Bool := false

/-- `Subscription.Matches`. -/
def Filter.matchesPDU (s : Filter) (pdu : PDU) : Bool :=
  s.dstMAC == pdu.dstMAC &&
    s.srcMAC.all (· == pdu.srcMAC) &&
    (s.matchAnyAppID || s.appID == pdu.appID) &&
    (s.gocbRef == [] || s.gocbRef == pdu.gocbRef) &&
    (s.datSet == [] || s.datSet == pdu.datSet) &&
    (s.goID == [] || s.goID == pdu.goID) &&
    s.confRev.all (· == pdu.confRev) &&
    s.vlanID.all (fun id ↦ pdu.vlan.any (·.vid == id)) &&
    s.vlanPriority.all (fun prio ↦ pdu.vlan.any (·.priority == prio)) &&
    (!pdu.test || s.acceptTest) &&
    (!pdu.simulation || s.acceptSimulation) &&
    (!pdu.ndsCom || s.acceptNdsCom)

/-- The message in a captured frame, with the first subscription that it satisfies. -/
def received (subs : List Filter) (data : Bytes) : Option (Filter × PDU) :=
  match decode data with
  | .ok pdu => (subs.find? (·.matchesPDU pdu)).map (·, pdu)
  | .error _ => none

/-- `process`. -/
def Service.process (s : Service) (subs : List Filter) (data : Bytes) (frame : Frame) (now : Time) :
    Service × List Event :=
  match received subs data with
  | some (sub, pdu) => s.handleMatch sub.toSubscription pdu frame now
  | none => (s, [])

/-- What can happen to a subscriber: a frame is captured, or the watchdog ticks. -/
inductive Input
  | frame (data : Bytes) (times : Frame) (now : Time)
  | check (now : Time)

def Service.step (subs : List Filter) (s : Service) : Input → Service
  | .frame data times now => (s.process subs data times now).1
  | .check now => (s.checkStale now).1

/-! ## Decoded times -/

theorem decodeUtcTime_ne_zero {data : Bytes} (h : data.length = 8) :
    (decodeUtcTime data).1.isZero = false := by
  rw [Time.isZero_eq_false, decodeUtcTime, if_neg (by omega)]
  simp only [Time.ofUnix, unixEpoch]
  omega

/-- As soon as the field has been read, the message has a time. -/
def HasTime (s : Fields) : Prop := Seen s.seenFields 0x84 → s.pdu.timestamp.isZero = false

theorem HasTime.read {s s' : Fields} {tag : UInt8} {data : Bytes} (hs : HasTime s)
    (h : s.read tag data = .ok s') : HasTime s' := by
  obtain ⟨-, pdu, hpdu, rfl⟩ := read_eq_ok.mp h
  obtain ⟨-, -, htime⟩ := decodeField_effect hpdu
  intro hseen
  show pdu.timestamp.isZero = false
  split at htime
  · obtain ⟨hlen, ht⟩ := htime
    rw [ht]
    exact decodeUtcTime_ne_zero hlen
  · rename_i hne
    rw [htime]
    exact hs (((seen_or (by decide)).mp hseen).resolve_right hne)

theorem HasTime.readFields {s s' : Fields} {items : List (UInt8 × Bytes)} (hs : HasTime s)
    (h : readFields items s = .ok s') : HasTime s' := by
  induction items generalizing s with
  | nil =>
      cases h
      exact hs
  | cons x items ih =>
      obtain ⟨s₁, h₁, h⟩ := bind_eq_ok.mp h
      exact ih (hs.read h₁) h

/-- **A decoded message has a time.** -/
theorem decode_timestamp_ne_zero {data : Bytes} {pdu : PDU} (h : decode data = .ok pdu) :
    pdu.timestamp.isZero = false := by
  have hd := decode_eq_ok.mp h
  cases hd with
  | mk hheader htype hreserved hlength hlt hoctets htiles hread hvalid =>
      have hzero {p : PDU} : HasTime ⟨p, 0⟩ := fun hseen ↦ absurd hseen (not_seen_zero _)
      exact hzero.readFields hread ((validateGOOSEFields_eq_ok.mp hvalid).1 0x84 (by decide))

theorem received_timestamp {subs : List Filter} {data : Bytes} {sub : Filter} {pdu : PDU}
    (h : received subs data = some (sub, pdu)) : pdu.timestamp.isZero = false := by
  unfold received at h
  split at h
  · rename_i pdu' hdecode
    obtain ⟨sub', -, hpair⟩ := Option.map_eq_some_iff.mp h
    cases hpair
    exact decode_timestamp_ne_zero hdecode
  · cases h

/-! ## One frame -/

/-- Duplicate, reordered, stale, or a restart that is none. -/
def Rejected (st : StreamState) (pdu : PDU) : Prop :=
  st.isDuplicate pdu ∨ st.isReorderedHeartbeat pdu ∨ st.staleTimestamp pdu ∨
    st.isRestartCandidate pdu ∧ ¬ st.isRestart pdu

theorem rejected_iff {st : StreamState} {pdu : PDU} : Rejected st pdu ↔ st.ignores pdu = true := by
  simp only [Rejected, StreamState.ignores, Bool.or_eq_true, Bool.and_eq_true, Bool.not_eq_true',
    Bool.not_eq_true, or_assoc]

/-- The time of the last accepted message of a stream. -/
def Service.lastTime (s : Service) (key : StreamKey) : Option Time :=
  (s.streams.lookup key).bind fun st ↦ st.lastPDU.map PDU.timestamp

/-- Every stream has a last accepted message, and that has a time. -/
def Dated (s : Service) : Prop :=
  ∀ key st, s.streams.lookup key = some st →
    ∃ p, st.lastPDU = some p ∧ p.timestamp.isZero = false

section Frame

variable {s : Service} {sub : Subscription} {pdu : PDU} (frame : Frame) (now : Time)

/-- A rejected frame leaves every stream, the watches and the sink as they were. -/
theorem handleMatch_rejected (h : (s.stream sub (streamKey pdu)).ignores pdu = true) :
    (∀ key, (s.handleMatch sub pdu frame now).1.streams.lookup key = s.streams.lookup key) ∧
      (s.handleMatch sub pdu frame now).1.watches = s.watches ∧
        (s.handleMatch sub pdu frame now).2 = [] := by
  have hstream : s.streams.lookup (streamKey pdu) = some (s.stream sub (streamKey pdu)) := by
    unfold Service.stream at h ⊢
    cases hlookup : s.streams.lookup (streamKey pdu) with
    | some st => rfl
    | none =>
        rw [hlookup, Option.getD_none, StreamState.ignores_of_not_seen pdu rfl rfl] at h
        cases h
  unfold Service.handleMatch
  dsimp only
  rw [if_pos h]
  refine ⟨fun key ↦ ?_, rfl, rfl⟩
  by_cases hkey : key = streamKey pdu
  · rw [hkey, AList.lookup_insert, hstream]
  · exact AList.lookup_insert_ne hkey

/-- An accepted frame becomes the last accepted one of its stream, and no other stream changes. -/
theorem handleMatch_accepted (h : (s.stream sub (streamKey pdu)).ignores pdu = false)
    (key : StreamKey) :
    (s.handleMatch sub pdu frame now).1.streams.lookup key =
      if key = streamKey pdu then some ((s.stream sub (streamKey pdu)).accept pdu frame
        (receivedAt frame now)) else s.streams.lookup key := by
  unfold Service.handleMatch
  dsimp only
  rw [if_neg (by rw [h]; decide)]
  by_cases hkey : key = streamKey pdu
  · rw [if_pos hkey, hkey]
    exact AList.lookup_insert _
  · rw [if_neg hkey]
    exact AList.lookup_insert_ne hkey

/-- What is not rejected is not older than the last accepted message. -/
theorem le_of_accepted (hs : Dated s) (ht : pdu.timestamp.isZero = false)
    (h : (s.stream sub (streamKey pdu)).ignores pdu = false) {t : Time}
    (hlast : s.lastTime (streamKey pdu) = some t) : t ≤ pdu.timestamp := by
  obtain ⟨st, hst, hmap⟩ := Option.bind_eq_some_iff.mp hlast
  obtain ⟨p, hp, rfl⟩ := Option.map_eq_some_iff.mp hmap
  obtain ⟨p', hp', hzero⟩ := hs _ _ hst
  obtain rfl : p' = p := Option.some.inj (hp'.symm.trans hp)
  have hstream : s.stream sub (streamKey pdu) = st := by rw [Service.stream, hst, Option.getD_some]
  have hts : st.lastTimestamp = p'.timestamp := by rw [StreamState.lastTimestamp, hp]; rfl
  rw [hstream] at h
  have hstale : st.staleTimestamp pdu = false := by
    simp only [StreamState.ignores, Bool.or_eq_false_iff] at h
    exact h.1.2
  rw [StreamState.staleTimestamp, ht, hts, hzero] at hstale
  exact Time.before_eq_false.mp hstale

end Frame

/-! ## Runs -/

/-- No stream has gone back in time. -/
def Grows (s s' : Service) : Prop :=
  ∀ key t, s.lastTime key = some t → ∃ t', s'.lastTime key = some t' ∧ t ≤ t'

theorem Grows.trans {s s' s'' : Service} (h : Grows s s') (h' : Grows s' s'') : Grows s s'' := by
  intro key t ht
  obtain ⟨t', ht', hle⟩ := h key t ht
  obtain ⟨t'', ht'', hle'⟩ := h' key t' ht'
  exact ⟨t'', ht'', hle.trans hle'⟩

/-- The same streams, up to the `lost` flag. -/
theorem grows_of_lastPDU {s s' : Service}
    (h : ∀ key, (s'.streams.lookup key).map StreamState.lastPDU =
      (s.streams.lookup key).map StreamState.lastPDU) : (Dated s → Dated s') ∧ Grows s s' := by
  constructor
  · intro hs key st' hst'
    have hkey := h key
    rw [hst', Option.map_some, eq_comm] at hkey
    obtain ⟨st, hst, hpdu⟩ := Option.map_eq_some_iff.mp hkey
    rw [← hpdu]
    exact hs key st hst
  · intro key t ht
    refine ⟨t, ?_, le_rfl⟩
    have hbind (s : Service) : s.lastTime key =
        ((s.streams.lookup key).map StreamState.lastPDU).bind (Option.map PDU.timestamp) := by
      rw [Service.lastTime, Option.bind_map]
      rfl
    rw [hbind, h, ← hbind, ht]

/-- **One step**: every stream still has a time, and none has gone back. -/
theorem step_grows {subs : List Filter} {s : Service} (hs : Dated s) (a : Input) :
    Dated (s.step subs a) ∧ Grows s (s.step subs a) := by
  cases a with
  | check now =>
      have hpdu (st : StreamState) : (st.expire now).lastPDU = st.lastPDU := by
        unfold StreamState.expire
        split <;> rfl
      have hlast (key : StreamKey) :
          ((s.checkStale now).1.streams.lookup key).map StreamState.lastPDU =
            (s.streams.lookup key).map StreamState.lastPDU := by
        rw [Service.checkStale, Table.lookup_mapVal, Option.map_map]
        exact congrArg (Option.map · _) (funext hpdu)
      have hsame := grows_of_lastPDU hlast
      exact ⟨hsame.1 hs, hsame.2⟩
  | frame data times now =>
      show Dated (s.process subs data times now).1 ∧ Grows s (s.process subs data times now).1
      unfold Service.process
      split
      · rename_i sub pdu hreceived
        have ht := received_timestamp hreceived
        cases h : (s.stream sub.toSubscription (streamKey pdu)).ignores pdu with
        | true =>
            have hsame := grows_of_lastPDU (s := s) fun key ↦
              congrArg (Option.map StreamState.lastPDU) ((handleMatch_rejected times now h).1 key)
            exact ⟨hsame.1 hs, hsame.2⟩
        | false =>
            have hlookup := handleMatch_accepted times now h
            constructor
            · intro key st hst
              rw [hlookup] at hst
              split at hst
              · cases hst
                exact ⟨pdu, rfl, ht⟩
              · exact hs key st hst
            · intro key t hlast
              rw [Service.lastTime, hlookup]
              split
              · rename_i hkey
                subst hkey
                exact ⟨pdu.timestamp, rfl, le_of_accepted hs ht h hlast⟩
              · exact ⟨t, hlast, le_rfl⟩
      · exact ⟨hs, fun key t h ↦ ⟨t, h, le_rfl⟩⟩

theorem run_grows (subs : List Filter) {s : Service} (hs : Dated s) (inputs : List Input) :
    Dated (inputs.foldl (Service.step subs) s) ∧ Grows s (inputs.foldl (Service.step subs) s) := by
  refine inv_run_of_step (I := fun s' ↦ Dated s' ∧ Grows s s') ?_ ⟨hs, ?_⟩ inputs
  · rintro s' a ⟨hs', hgrows⟩
    obtain ⟨hdated, hstep⟩ := step_grows hs' a
    exact ⟨hdated, hgrows.trans hstep⟩
  · exact fun key t h ↦ ⟨t, h, le_rfl⟩

/-- A service before its first frame. -/
def Service.initial (watches : List WatchChannels) : Service := ⟨∅, watches⟩

theorem dated_initial (watches : List WatchChannels) : Dated (.initial watches) := by
  intro key st h
  cases h

/-- A call has left no trace: every stream with its deadline and its `lost` flag, the watches and
the sink are as before. -/
def NoTrace (s : Service) (after : Service × List Event) : Prop :=
  (∀ key, after.1.streams.lookup key = s.streams.lookup key) ∧ after.1.watches = s.watches ∧
    after.2 = []

/-- **The baseline is monotone under arbitrary traffic.**  In every state `s` that a subscriber can
reach with any captured byte strings and any watchdog ticks, and in every state `s'` that it can
reach from there:

* a rejected frame leaves no trace, and an accepted one becomes the last accepted one of its stream;
* the time of the last accepted message of a stream is not earlier in `s'` than in `s`;
* a frame with a time earlier than that in `s` is rejected in `s'`. -/
theorem baseline_monotone (subs : List Filter) (watches : List WatchChannels)
    (inputs later : List Input) :
    let s := inputs.foldl (Service.step subs) (.initial watches)
    let s' := later.foldl (Service.step subs) s
    (∀ data times now sub pdu, received subs data = some (sub, pdu) →
      let st := s.stream sub.toSubscription (streamKey pdu)
      (Rejected st pdu → NoTrace s (s.process subs data times now)) ∧
        (¬ Rejected st pdu →
          (s.process subs data times now).1.lastTime (streamKey pdu) = some pdu.timestamp)) ∧
    (∀ key t, s.lastTime key = some t → ∃ t', s'.lastTime key = some t' ∧ t ≤ t') ∧
    ∀ data sub pdu t, received subs data = some (sub, pdu) →
      s.lastTime (streamKey pdu) = some t → pdu.timestamp < t →
        Rejected (s'.stream sub.toSubscription (streamKey pdu)) pdu := by
  intro s s'
  obtain ⟨hs, -⟩ := run_grows subs (dated_initial watches) inputs
  obtain ⟨hs', hgrows⟩ := run_grows subs hs later
  refine ⟨fun data times now sub pdu hreceived ↦ ⟨fun hrej ↦ ?_, fun hacc ↦ ?_⟩, hgrows, ?_⟩
  · rw [Service.process, hreceived]
    exact handleMatch_rejected times now (rejected_iff.mp hrej)
  · rw [rejected_iff, Bool.not_eq_true] at hacc
    rw [Service.process, hreceived, Service.lastTime]
    dsimp only
    rw [handleMatch_accepted times now hacc, if_pos rfl]
    rfl
  · intro data sub pdu t hreceived hlast hlt
    by_contra hacc
    rw [rejected_iff, Bool.not_eq_true] at hacc
    obtain ⟨t', ht', hle⟩ := hgrows _ _ hlast
    have hle' := le_of_accepted hs' (received_timestamp hreceived) hacc ht'
    exact absurd hlt (not_lt.mpr (hle.trans hle'))

end ProcessBus.Goose.Subscriber
