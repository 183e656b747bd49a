import ProcessBus.Goose.Subscriber
import ProcessBus.Lib.Deferred

/-!
# Loss and restoration events of the GOOSE subscriber

`handleMatch` runs on the capture goroutine and `checkStale` on the watchdog's.  Both change the
stream table under the mutex and call the sink only after they have released it, so the machine
is `Lib.Deferred`: the sections are the two functions, and their events wait at the goroutine
that collected them.  The watchdog ranges over a Go map, so its events are emitted in any order.

The events of one stream are told from the others by the PDU they carry.  `Orderly` is what a
reader of the events relies on, and `orderly_run` says which runs keep it: those in which no
section flips the `lost` flag of the stream while an earlier announcement of it is undelivered.
-/

namespace ProcessBus.Goose.Subscriber

open Go Lib

/-- The two goroutines of `Run`. -/
inductive Goroutine
  | capture | watchdog
deriving DecidableEq, Repr

/-- A locked section, with what it is called with. -/
inductive Section
  | handleMatch (sub : Subscription) (pdu : PDU) (frame : Frame) (now : Time)
  | checkStale (now : Time)

def Section.goroutine : Section → Goroutine
  | .handleMatch .. => .capture
  | .checkStale _ => .watchdog

/-- A section and the events it leaves for its goroutine. -/
def Service.enter (s : Service) : Section → Service × List Event
  | .handleMatch sub pdu frame now => s.handleMatch sub pdu frame now
  | .checkStale now => s.checkStale now

/-- The service, the events not yet emitted, and the events the sink has received. -/
abbrev Running := Deferred Service Event Goroutine

/-- `New`: no stream, no event. -/
def Running.new : Running := ⟨⟨∅, []⟩, fun _ ↦ [], []⟩

/-- One step of either goroutine; only the watchdog emits in no particular order. -/
def Running.step : Running → Deferred.Action Section Goroutine → Running :=
  Deferred.step Service.enter Section.goroutine (· == .watchdog)

/-! ## One stream -/

/-- The `lost` flag of a stream; a stream that has not been seen is not lost. -/
def Service.lost (s : Service) (key : StreamKey) : Bool :=
  ((s.streams.lookup key).map StreamState.lost).getD false

/-- The loss (`true`) or restoration (`false`) of the stream `key` that an event announces. -/
def Event.announces (key : StreamKey) (e : Event) : Option Bool :=
  if e.pdu.map streamKey = some key then
    match e.reason with
    | .streamLost => some true
    | .streamRestored => some false
    | _ => none
  else none

/-- The section flips the `lost` flag of the stream `key`. -/
def Section.flips (key : StreamKey) (s : Service) : Section → Bool
  | .handleMatch sub pdu _ _ =>
      streamKey pdu == key && (s.stream sub key).lost && !(s.stream sub key).ignores pdu
  | .checkStale now => ((s.streams.lookup key).map (·.expired now)).getD false

/-- The announcements of a stream alternate, starting with a loss, and once both goroutines are
idle the last of them agrees with the `lost` flag. -/
def Running.Orderly (key : StreamKey) : Running → Prop :=
  Deferred.Orderly (Service.lost · key) (Event.announces key)

/-- The step does not flip the flag of `key` while one of its announcements is undelivered. -/
def Running.Settled (key : StreamKey) : Running → Deferred.Action Section Goroutine → Prop :=
  Deferred.Settled (Event.announces key) (Section.flips key)

/-- Every stream seen has its last PDU, and it is one of this stream. -/
def Service.Filed (s : Service) : Prop :=
  ∀ key st, s.streams.lookup key = some st → st.seen = true →
    st.lastPDU.map streamKey = some key

/-! ## What the sections announce -/

section Sections

variable {s : Service} {key : StreamKey}

theorem Service.Filed.enter (h : s.Filed) (a : Section) : (s.enter a).1.Filed := by
  intro key st hst hseen
  cases a with
  | checkStale now =>
      rw [Service.enter, Service.checkStale, Table.lookup_mapVal, Option.map_eq_some_iff] at hst
      obtain ⟨st', hst', rfl⟩ := hst
      rw [StreamState.expire] at hseen ⊢
      split at hseen
      · rw [if_pos ‹_›]
        exact h key st' hst' hseen
      · rw [if_neg ‹_›]
        exact h key st' hst' hseen
  | handleMatch sub pdu frame now =>
      have hold : ∀ key, (s.stream sub key).seen = true →
          (s.stream sub key).lastPDU.map streamKey = some key := by
        intro key hseen
        cases hl : s.streams.lookup key with
        | none => simp [Service.stream, hl] at hseen
        | some st' =>
            rw [Service.stream, hl, Option.getD_some] at hseen ⊢
            exact h key st' hl hseen
      rw [Service.enter, Service.handleMatch] at hst
      split at hst
      · rcases Table.lookup_insert_eq_some.mp hst with ⟨rfl, rfl⟩ | ⟨-, hst⟩
        · exact hold _ hseen
        · exact h key st hst hseen
      · rcases Table.lookup_insert_eq_some.mp hst with ⟨rfl, rfl⟩ | ⟨-, hst⟩
        · rfl
        · exact h key st hst hseen

theorem Service.lost_eq (sub : Subscription) (key : StreamKey) :
    s.lost key = (s.stream sub key).lost := by
  rw [Service.lost, Service.stream]
  cases s.streams.lookup key <;> rfl

theorem StreamState.expired_iff {st : StreamState} {now : Time} :
    st.expired now = true ↔ st.seen = true ∧ st.lost = false ∧
      now.after ⟨st.lastSeenAt.ns + st.talMs.toNat * 1000000⟩ = true := by
  rw [StreamState.expired, Bool.and_eq_true, Bool.and_eq_true, Bool.not_eq_true', and_assoc]

/-- The flag after a section. -/
theorem lost_enter (a : Section) :
    (s.enter a).1.lost key = if a.flips key s then !s.lost key else s.lost key := by
  cases a with
  | checkStale now =>
      rw [Service.enter, Service.checkStale, Service.lost, Table.lookup_mapVal, Service.lost]
      cases hl : s.streams.lookup key with
      | none => simp [Section.flips, hl]
      | some st =>
          by_cases hx : st.expired now = true
          · simp [Section.flips, hl, StreamState.expire, hx, (StreamState.expired_iff.mp hx).2.1]
          · simp [Section.flips, hl, StreamState.expire, hx]
  | handleMatch sub pdu frame now =>
      rw [Service.lost_eq sub, Service.lost_eq (s := s) sub, Service.enter]
      by_cases hkey : streamKey pdu = key
      · subst hkey
        rw [handleMatch_stream]
        cases hig : (s.stream sub (streamKey pdu)).ignores pdu with
        | true => simp [Section.flips, hig]
        | false =>
            cases hl : (s.stream sub (streamKey pdu)).lost with
            | true => simp [StreamState.accept, Section.flips, hig, hl]
            | false => simp [StreamState.accept, Section.flips, hl]
      · have hsame : (s.handleMatch sub pdu frame now).1.stream sub key = s.stream sub key := by
          rw [Service.handleMatch, Service.stream, Service.stream]
          dsimp only
          split
          · rw [AList.lookup_insert_ne (Ne.symm hkey)]
            rfl
          · rw [AList.lookup_insert_ne (Ne.symm hkey)]
            rfl
        simp [hsame, Section.flips, hkey]

/-- `checkStale` announces the loss of exactly the streams that have expired. -/
theorem announces_checkStale (h : s.Filed) (now : Time) :
    (s.checkStale now).2.filterMap (Event.announces key) =
      if ((s.streams.lookup key).map (·.expired now)).getD false then [true] else [] := by
  let note (st : StreamState) : Option Bool :=
    if st.expired now then
      if st.lastPDU.map streamKey = some key then some true else none
    else none
  have hvals : (s.checkStale now).2.filterMap (Event.announces key) =
      s.streams.vals.filterMap note := by
    rw [Service.checkStale, List.filterMap_map, List.filterMap_filter]
    rfl
  rw [hvals, Table.filterMap_vals (k := key)]
  · cases hl : s.streams.lookup key with
    | none => rfl
    | some st =>
        by_cases hx : st.expired now = true
        · have hkey := h key st hl (StreamState.expired_iff.mp hx).1
          simp only [Option.bind_some, note, if_pos hkey, Option.map_some, hx,
            Option.getD_some, if_true, Option.toList_some]
        · simp [note, hx]
  · -- an event of another stream carries a PDU of that stream
    intro k st hst hne
    by_cases hx : st.expired now = true
    · have hkey := h k st hst (StreamState.expired_iff.mp hx).1
      have hother : ¬ st.lastPDU.map streamKey = some key := by
        rw [hkey, Option.some.injEq]
        exact hne
      simp only [note, if_pos hx, if_neg hother]
    · simp [note, hx]

/-- The switch at the end of `handleMatch` announces neither a loss nor a restoration. -/
theorem StreamState.reason_ne {st : StreamState} {pdu : PDU} {r : EventReason}
    (h : st.reason pdu = some r) : r ≠ .streamLost ∧ r ≠ .streamRestored := by
  rw [StreamState.reason] at h
  split_ifs at h <;> cases h <;> simp

theorem Event.announces_of_reason_ne {e : Event}
    (h : e.reason ≠ .streamLost ∧ e.reason ≠ .streamRestored) : e.announces key = none := by
  rw [Event.announces]
  split
  · split
    · exact absurd ‹_› h.1
    · exact absurd ‹_› h.2
    · rfl
  · rfl

/-- `handleMatch` announces the restoration of a lost stream by an accepted frame. -/
theorem announces_handleMatch (sub : Subscription) (pdu : PDU) (frame : Frame) (now : Time) :
    (s.handleMatch sub pdu frame now).2.filterMap (Event.announces key) =
      if streamKey pdu == key && (s.stream sub key).lost && !(s.stream sub key).ignores pdu
      then [false] else [] := by
  rw [Service.handleMatch]
  dsimp only
  cases hig : (s.stream sub (streamKey pdu)).ignores pdu with
  | true =>
      rw [if_pos rfl, if_neg]
      · rfl
      · intro hf
        simp only [Bool.and_eq_true, beq_iff_eq] at hf
        obtain ⟨⟨rfl, -⟩, hn⟩ := hf
        simp [hig] at hn
  | false =>
      rw [if_neg (by simp), List.filterMap_append]
      have hrestored : (if (s.stream sub (streamKey pdu)).lost = true then
          [{ reason := .streamRestored, subscription := sub.name, pdu := some pdu,
             receivedAt := receivedAt frame now }] else [] : List Event).filterMap
              (Event.announces key) =
          if streamKey pdu == key && (s.stream sub key).lost && !(s.stream sub key).ignores pdu
          then [false] else [] := by
        by_cases hkey : streamKey pdu = key
        · subst hkey
          cases hl : (s.stream sub (streamKey pdu)).lost with
          | true => simp [Event.announces, hig]
          | false => simp
        · cases hl : (s.stream sub (streamKey pdu)).lost with
          | true => simp [Event.announces, hkey]
          | false => simp [hkey]
      rw [hrestored]
      cases hr : (s.stream sub (streamKey pdu)).reason pdu with
      | none => exact List.append_nil _
      | some r =>
          dsimp only
          rw [List.filterMap_cons_none, List.filterMap_nil, List.append_nil]
          exact Event.announces_of_reason_ne (StreamState.reason_ne hr)

/-- A section announces one thing exactly when it flips the flag: its new value. -/
theorem announces_enter (h : s.Filed) (a : Section) :
    (s.enter a).2.filterMap (Event.announces key) =
      if a.flips key s then [!s.lost key] else [] := by
  cases a with
  | checkStale now =>
      rw [Service.enter, announces_checkStale h, Section.flips, Service.lost]
      cases s.streams.lookup key with
      | none => rfl
      | some st =>
          by_cases hx : st.expired now = true
          · simp [hx, (StreamState.expired_iff.mp hx).2.1]
          · simp [hx]
  | handleMatch sub pdu frame now =>
      rw [Service.enter, announces_handleMatch, Section.flips, Service.lost_eq sub]
      cases hl : (s.stream sub key).lost with
      | true => rfl
      | false => simp

end Sections

/-! ## Whole runs -/

theorem filed_new : Running.new.state.Filed := by
  intro key st hst
  exact absurd hst (by simp [Running.new])

/-- In a run in which no section flips the `lost` flag of a stream over an undelivered
announcement, the announcements are in order in every state. -/
theorem Running.orderly_run {key : StreamKey} {as : List (Deferred.Action Section Goroutine)}
    (h : Meets step (Settled key) new as) : Always step (Orderly key) new as := by
  refine Deferred.orderly_run (I := Service.Filed) (fun s a hs ↦ hs.enter a)
    (fun s a _ ↦ lost_enter a) (fun s a hs ↦ announces_enter hs a) filed_new ?_ h
  exact ⟨trivial, .inl ⟨rfl, fun _ ↦ rfl⟩⟩

/-- A retransmission of a stream that allows a second between two messages. -/
def exampleMessage (sqNum : UInt32) : PDU where
  dstMAC := [1, 0x0C, 0xCD, 1, 0, 1]
  srcMAC := [2, 0, 0, 0, 0, 1]
  vlan := none
  appID := 1
  simulation := false
  gocbRef := [0x67]
  timeAllowedToLiveMs := 1000
  datSet := [0x64]
  goID := []
  timestamp := .ofUnix 1 0
  timeQuality := { accuracy := 10 }
  stNum := 1
  sqNum := sqNum
  test := false
  confRev := 1
  ndsCom := false
  numDatSetEntries := 0
  allData := []

/-- A stream of two messages: the second one restores it after a loss. -/
def exampleLoss : List (Deferred.Action Section Goroutine) :=
  [.lock (.handleMatch ⟨"s"⟩ (exampleMessage 0) ⟨.ofUnix 1 0, .zero⟩ .zero),
    .emit .capture 0, .lock (.checkStale (.ofUnix 3 0)), .emit .watchdog 0,
    .lock (.handleMatch ⟨"s"⟩ (exampleMessage 1) ⟨.ofUnix 3 1, .zero⟩ .zero),
    .emit .capture 0]

/-- The same steps with the emission of the loss moved to the end. -/
def exampleOvertaken : List (Deferred.Action Section Goroutine) :=
  [.lock (.handleMatch ⟨"s"⟩ (exampleMessage 0) ⟨.ofUnix 1 0, .zero⟩ .zero),
    .emit .capture 0, .lock (.checkStale (.ofUnix 3 0)),
    .lock (.handleMatch ⟨"s"⟩ (exampleMessage 1) ⟨.ofUnix 3 1, .zero⟩ .zero),
    .emit .capture 0, .emit .watchdog 0]

end ProcessBus.Goose.Subscriber
