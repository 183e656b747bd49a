import ProcessBus.Goose.LossEvents
import ProcessBus.Sv.Continuity

/-!
# Loss and restoration events of the subscribers

The sampled values subscriber has the goroutines of the GOOSE one, `handleMatch` on capture and
`checkStale` on the watchdog, and emits its events after the mutex is released just as well.  The
snapshots and statistics that its watchdog also emits say nothing about losses and are left out.

`loss_events_ordered` is the result for both subscribers and `loss_overtaken` the run that keeps
it from holding without a condition: the watchdog has marked a stream lost and not yet said so
when a frame restores it.
-/

namespace ProcessBus.Sv

open Go Lib

/-- The two goroutines of `Run`. -/
inductive Goroutine
  | capture | watchdog
deriving DecidableEq, Repr

/-- A locked section, with what it is called with. -/
inductive Section
  | handleMatch (sub : Subscription) (asdu : ASDU) (timestamp now : Time)
  | checkStale (now : Time)

def Section.goroutine : Section → Goroutine
  | .handleMatch .. => .capture
  | .checkStale _ => .watchdog

variable {F : Type} [Float64 F]

/-- A section and the events it leaves for its goroutine. -/
def Service.enter (s : Service F) : Section → Service F × List Event
  | .handleMatch sub asdu timestamp now => s.handleMatch sub asdu timestamp now
  | .checkStale now => s.checkStale now

/-- The service, the events not yet emitted, and the events the sink has received. -/
abbrev Running (F : Type) := Deferred (Service F) Event Goroutine

/-- `New`: no stream, no event. -/
def Running.new (F : Type) : Running F := ⟨⟨∅⟩, fun _ ↦ [], []⟩

/-- One step of either goroutine; only the watchdog emits in no particular order. -/
def Running.step : Running F → Deferred.Action Section Goroutine → Running F :=
  Deferred.step Service.enter Section.goroutine (· == .watchdog)

/-! ## One stream -/

/-- The `lost` flag of a stream; a stream that has not been seen is not lost. -/
def Service.lost (s : Service F) (key : StreamKey) : Bool :=
  ((s.streams.lookup key).map StreamState.lost).getD false

/-- The loss (`true`) or restoration (`false`) of the stream `key` that an event announces. -/
def Event.announces (key : StreamKey) (e : Event) : Option Bool :=
  if e.asdu.map streamKey = some key then
    match e.reason with
    | .streamLost => some true
    | .streamRestored => some false
    | _ => none
  else none

/-- The section flips the `lost` flag of the stream `key`. -/
def Section.flips (key : StreamKey) (s : Service F) : Section → Bool
  | .handleMatch sub asdu timestamp now =>
      let state := s.stream sub (receivedAt timestamp now) key
      streamKey asdu == key && state.lost && !state.ignores sub asdu
  | .checkStale now => ((s.streams.lookup key).map (·.expired now)).getD false

/-- The announcements of a stream alternate, starting with a loss, and once both goroutines are
idle the last of them agrees with the `lost` flag. -/
def Running.Orderly (key : StreamKey) : Running F → Prop :=
  Deferred.Orderly (Service.lost · key) (Event.announces key)

/-- The step does not flip the flag of `key` while one of its announcements is undelivered. -/
def Running.Settled (key : StreamKey) : Running F → Deferred.Action Section Goroutine → Prop :=
  Deferred.Settled (Event.announces key) (Section.flips key)

/-- Every stream seen has its last sample, and it is one of this stream. -/
def Service.Filed (s : Service F) : Prop :=
  ∀ key st, s.streams.lookup key = some st → st.seen = true →
    st.lastASDU.map streamKey = some key

/-! ## What the sections announce -/

section Sections

variable {s : Service F} {key : StreamKey}

/-- What a section leaves in the table: an entry that was there, perhaps marked lost, or the entry
of the sample it was called with. -/
theorem Service.lookup_enter {a : Section} {st : StreamState F}
    (h : (s.enter a).1.streams.lookup key = some st) :
    (∃ st', s.streams.lookup key = some st' ∧ (st = st' ∨ st = { st' with lost := true })) ∨
      ∃ sub asdu timestamp now, a = .handleMatch sub asdu timestamp now ∧ streamKey asdu = key ∧
        (st = s.streamOf sub asdu timestamp now ∨
          (s.streamOf sub asdu timestamp now).ignores sub asdu = false ∧
            st = (s.streamOf sub asdu timestamp now).accept sub asdu
              (receivedAt timestamp now)) := by
  cases a with
  | checkStale now =>
      rw [Service.enter, Service.checkStale, Table.lookup_mapVal, Option.map_eq_some_iff] at h
      obtain ⟨st', hst', rfl⟩ := h
      refine .inl ⟨st', hst', ?_⟩
      rw [StreamState.expire]
      split
      · exact .inr rfl
      · exact .inl rfl
  | handleMatch sub asdu timestamp now =>
      rw [Service.enter, Service.handleMatch] at h
      split at h
      · rcases Table.lookup_insert_eq_some.mp h with ⟨rfl, rfl⟩ | ⟨-, hst⟩
        · exact .inr ⟨sub, asdu, timestamp, now, rfl, rfl, .inl rfl⟩
        · exact .inl ⟨st, hst, .inl rfl⟩
      · rename_i hig
        rcases Table.lookup_insert_eq_some.mp h with ⟨rfl, rfl⟩ | ⟨-, hst⟩
        · exact .inr ⟨sub, asdu, timestamp, now, rfl, rfl, .inr ⟨Bool.eq_false_iff.mpr hig, rfl⟩⟩
        · exact .inl ⟨st, hst, .inl rfl⟩

/-- A stream that has been seen is in the table. -/
theorem Service.lookup_of_seen {sub : Subscription} {t : Time}
    (hseen : (s.stream sub t key).seen = true) :
    s.streams.lookup key = some (s.stream sub t key) := by
  rw [Service.stream] at hseen ⊢
  cases hl : s.streams.lookup key with
  | none =>
      rw [hl] at hseen
      exact absurd hseen Bool.false_ne_true
  | some st => rfl

theorem Service.Filed.enter (h : s.Filed) (a : Section) : (s.enter a).1.Filed := by
  intro key st hst hseen
  obtain ⟨st', hst', rfl | rfl⟩ | ⟨sub, asdu, timestamp, now, rfl, rfl, rfl | ⟨-, rfl⟩⟩ :=
    Service.lookup_enter hst
  · exact h key st hst' hseen
  · exact h key st' hst' hseen
  · exact h _ _ (Service.lookup_of_seen hseen) hseen
  · rfl

theorem Service.lost_eq (sub : Subscription) (t : Time) (key : StreamKey) :
    s.lost key = (s.stream sub t key).lost := by
  rw [Service.lost, Service.stream]
  cases s.streams.lookup key <;> rfl

omit [Float64 F] in
theorem StreamState.expired_iff {st : StreamState F} {now : Time} :
    st.expired now = true ↔ st.seen = true ∧ st.lost = false ∧
      streamLostTimeout < now.sub st.lastSeenAt := by
  rw [StreamState.expired, Bool.and_eq_true, Bool.and_eq_true, Bool.not_eq_true',
    decide_eq_true_iff, and_assoc]

/-- A loss is always left by an accepted sample. -/
theorem StreamState.lost_accept (st : StreamState F) (sub : Subscription) (asdu : ASDU)
    (t : Time) : (st.accept sub asdu t).lost = false := rfl

/-- The flag after a section. -/
theorem lost_enter (a : Section) :
    (s.enter a).1.lost key = if a.flips key s then !s.lost key else s.lost key := by
  cases a with
  | checkStale now =>
      rw [Service.enter, Service.checkStale, Service.lost, Table.lookup_mapVal, Service.lost]
      cases hl : s.streams.lookup key with
      | none => simp [Section.flips, hl]
      | some st =>
          by_cases hx : st.expired now = true
          · simp [Section.flips, hl, StreamState.expire, hx, (StreamState.expired_iff.mp hx).2.1]
          · simp [Section.flips, hl, StreamState.expire, hx]
  | handleMatch sub asdu timestamp now =>
      set t := receivedAt timestamp now with ht
      rw [Service.lost_eq sub t, Service.lost_eq (s := s) sub t, Service.enter]
      by_cases hkey : streamKey asdu = key
      · subst hkey
        rw [ht, handleMatch_stream, ← ht]
        cases hig : (s.stream sub t (streamKey asdu)).ignores sub asdu with
        | true => simp [Section.flips, ← ht, hig]
        | false =>
            cases hl : (s.stream sub t (streamKey asdu)).lost with
            | true => simp [StreamState.lost_accept, Section.flips, ← ht, hig, hl]
            | false => simp [StreamState.lost_accept, Section.flips, ← ht, hl]
      · have hsame : (s.handleMatch sub asdu timestamp now).1.stream sub t key =
            s.stream sub t key := by
          rw [Service.handleMatch, Service.stream, Service.stream]
          split
          · rw [AList.lookup_insert_ne (Ne.symm hkey)]
            rfl
          · rw [AList.lookup_insert_ne (Ne.symm hkey)]
            rfl
        simp [hsame, Section.flips, hkey]

omit [Float64 F] in
/-- `checkStale` announces the loss of exactly the streams that have expired. -/
theorem announces_checkStale (h : s.Filed) (now : Time) :
    (s.checkStale now).2.filterMap (Event.announces key) =
      if ((s.streams.lookup key).map (·.expired now)).getD false then [true] else [] := by
  let note (st : StreamState F) : Option Bool :=
    if st.expired now then
      if st.lastASDU.map streamKey = some key then some true else none
    else none
  have hvals : (s.checkStale now).2.filterMap (Event.announces key) =
      s.streams.vals.filterMap note := by
    rw [Service.checkStale, List.filterMap_map, List.filterMap_filter]
    rfl
  rw [hvals, Table.filterMap_vals (k := key)]
  · cases hl : s.streams.lookup key with
    | none => rfl
    | some st =>
        by_cases hx : st.expired now = true
        · have hkey := h key st hl (StreamState.expired_iff.mp hx).1
          simp only [Option.bind_some, note, if_pos hkey, Option.map_some, hx, Option.getD_some,
            if_true, Option.toList_some]
        · simp [note, hx]
  · -- an event of another stream carries a sample of that stream
    intro k st hst hne
    by_cases hx : st.expired now = true
    · have hkey := h k st hst (StreamState.expired_iff.mp hx).1
      have hother : ¬ st.lastASDU.map streamKey = some key := by
        rw [hkey, Option.some.injEq]
        exact hne
      simp only [note, if_pos hx, if_neg hother]
    · simp [note, hx]

omit [Float64 F] in
/-- An accepted sample announces the restoration of a lost stream, and nothing else. -/
theorem announces_events (st : StreamState F) (sub : Subscription) (asdu : ASDU) (t : Time) :
    (st.events sub asdu t).filterMap (Event.announces key) =
      if streamKey asdu == key && st.lost then [false] else [] := by
  rw [StreamState.events]
  dsimp only
  rw [List.filterMap_append]
  have hrest : (if !st.seen then
      [{ reason := .firstSeen, subscription := sub.name, asdu := some asdu, receivedAt := t }]
      else (if st.hasGap sub asdu then
        [{ reason := .smpCntGap, subscription := sub.name, asdu := some asdu, receivedAt := t,
           expectedSmpCnt := (st.gap sub asdu).expected, actualSmpCnt := asdu.smpCnt,
           missedSamples := (st.gap sub asdu).missed }] else []) ++
      (if st.confRevChanged asdu then
        [{ reason := .confRevChanged, subscription := sub.name, asdu := some asdu,
           receivedAt := t, prevConfRev := st.lastConfRev }] else []) ++
      (if asdu.smpSynch ≠ st.lastSynch then
        [{ reason := .syncChanged, subscription := sub.name, asdu := some asdu,
           receivedAt := t, prevSmpSynch := st.lastSynch }] else []) : List Event).filterMap
        (Event.announces key) = [] := by
    refine List.filterMap_eq_nil_iff.mpr fun e he ↦ ?_
    have hreason : e.reason ≠ .streamLost ∧ e.reason ≠ .streamRestored := by
      split_ifs at he <;> simp at he <;> aesop
    rw [Event.announces]
    split
    · split
      · exact absurd ‹_› hreason.1
      · exact absurd ‹_› hreason.2
      · rfl
    · rfl
  rw [hrest, List.append_nil]
  by_cases hkey : streamKey asdu = key
  · cases hl : st.lost with
    | true => simp [Event.announces, hkey]
    | false => simp
  · cases hl : st.lost with
    | true => simp [Event.announces, hkey]
    | false => simp

/-- A section announces one thing exactly when it flips the flag: its new value. -/
theorem announces_enter (h : s.Filed) (a : Section) :
    (s.enter a).2.filterMap (Event.announces key) =
      if a.flips key s then [!s.lost key] else [] := by
  cases a with
  | checkStale now =>
      rw [Service.enter, announces_checkStale h, Section.flips, Service.lost]
      cases s.streams.lookup key with
      | none => rfl
      | some st =>
          by_cases hx : st.expired now = true
          · simp [hx, (StreamState.expired_iff.mp hx).2.1]
          · simp [hx]
  | handleMatch sub asdu timestamp now =>
      set t := receivedAt timestamp now with ht
      rw [Service.enter, Service.handleMatch, Service.lost_eq sub t, ← ht]
      by_cases hkey : streamKey asdu = key
      · subst hkey
        cases hig : (s.stream sub t (streamKey asdu)).ignores sub asdu with
        | true => simp [Section.flips, ← ht, hig]
        | false =>
            rw [if_neg (by simp), announces_events]
            cases hl : (s.stream sub t (streamKey asdu)).lost with
            | true => simp [Section.flips, ← ht, hig, hl]
            | false => simp [Section.flips, ← ht, hl]
      · split
        · simp [Section.flips, hkey]
        · rw [announces_events]
          simp [Section.flips, hkey]

end Sections

/-! ## Whole runs -/

omit [Float64 F] in
theorem filed_new : (Running.new F).state.Filed := by
  intro key st hst
  exact absurd hst (by simp [Running.new])

/-- In a run in which no section flips the `lost` flag of a stream over an undelivered
announcement, the announcements are in order in every state. -/
theorem Running.orderly_run {key : StreamKey} {as : List (Deferred.Action Section Goroutine)}
    (h : Meets step (Settled key) (new F) as) : Always step (Orderly key) (new F) as := by
  refine Deferred.orderly_run (I := Service.Filed) (fun s a hs ↦ hs.enter a)
    (fun s a _ ↦ lost_enter a) (fun s a hs ↦ announces_enter hs a) filed_new ?_ h
  exact ⟨trivial, .inl ⟨rfl, fun _ ↦ rfl⟩⟩

/-- **Order of the loss events.**  For either subscriber and every stream: in a run in which no
locked section flips the stream's `lost` flag while an earlier loss or restoration event of it is
undelivered, the events delivered alternate, starting with a loss, in every state of the run, and
whenever both goroutines are idle the last one agrees with the flag. -/
theorem loss_events_ordered :
    (∀ key as, Meets Goose.Subscriber.Running.step (Goose.Subscriber.Running.Settled key) .new as →
      Always Goose.Subscriber.Running.step (Goose.Subscriber.Running.Orderly key) .new as) ∧
    ∀ key as, Meets Running.step (Running.Settled key) (.new F) as →
      Always Running.step (Running.Orderly key) (.new F) as :=
  ⟨fun _ _ ↦ Goose.Subscriber.Running.orderly_run, fun _ _ ↦ Running.orderly_run⟩

/-- A stream of two samples: the second one restores it after a loss. -/
def exampleLoss : List (Deferred.Action Section Goroutine) :=
  [.lock (.handleMatch exampleSubscription (exampleASDU 0) (.ofUnix 1 0) .zero),
    .emit .capture 0, .lock (.checkStale (.ofUnix 2 0)), .emit .watchdog 0,
    .lock (.handleMatch exampleSubscription (exampleASDU 1) (.ofUnix 2 1) .zero),
    .emit .capture 0]

/-- With the loss emitted before the second message or sample, the events are in order. -/
theorem loss_events_ordered_example :
    Always Goose.Subscriber.Running.step
        (Goose.Subscriber.Running.Orderly (Goose.Subscriber.streamKey
          (Goose.Subscriber.exampleMessage 0))) .new Goose.Subscriber.exampleLoss ∧
      Always Running.step (Running.Orderly (streamKey (exampleASDU 0))) (.new ℚ) exampleLoss := by
  refine ⟨loss_events_ordered (F := ℚ).1 _ _ ?_, loss_events_ordered.2 _ _ ?_⟩
  · refine ⟨?_, trivial, ?_, trivial, ?_, trivial, trivial⟩
    · exact fun h ↦ absurd h (by decide +kernel)
    · rintro - (_ | _) <;> rfl
    · rintro - (_ | _) <;> rfl
  · refine ⟨?_, trivial, ?_, trivial, ?_, trivial, trivial⟩
    · exact fun h ↦ absurd h (by decide +kernel)
    · rintro - (_ | _) <;> rfl
    · rintro - (_ | _) <;> rfl

/-- The same steps with the emission of the loss moved to the end. -/
def exampleOvertaken : List (Deferred.Action Section Goroutine) :=
  [.lock (.handleMatch exampleSubscription (exampleASDU 0) (.ofUnix 1 0) .zero),
    .emit .capture 0, .lock (.checkStale (.ofUnix 2 0)),
    .lock (.handleMatch exampleSubscription (exampleASDU 1) (.ofUnix 2 1) .zero),
    .emit .capture 0, .emit .watchdog 0]

/-- Emitted last, the loss is the last event of a stream that is not lost, and the first event is
a restoration. -/
theorem loss_overtaken :
    (¬ ∀ key as, Always Goose.Subscriber.Running.step (Goose.Subscriber.Running.Orderly key)
      .new as) ∧
    ¬ ∀ key as, Always Running.step (Running.Orderly key) (.new ℚ) as := by
  constructor
  · intro h
    have hlast := (h (Goose.Subscriber.streamKey (Goose.Subscriber.exampleMessage 0))
      Goose.Subscriber.exampleOvertaken).last
    exact absurd hlast.1 (by decide +kernel)
  · intro h
    have hlast := (h (streamKey (exampleASDU 0)) exampleOvertaken).last
    exact absurd hlast.1 (by decide +kernel)

end ProcessBus.Sv
