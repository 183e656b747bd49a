import ProcessBus.Goose.LossEvents

/-!
# GOOSE watches

`internal/application/goosesub/watch.go`.  `Observe` takes a snapshot of the streams of one
subscription and registers a bounded queue in one locked section; from then on every accepted
frame of that subscription is offered to the queue in the section that accepts it, and an offer
to a full queue closes the `failed` channel instead.  The consumer reads outside the lock.

`Watched` is the service with every watch ever made.  Beside the channels a watch records how
long it was registered and what has been read from it, and the service records the frames it has
accepted; no function of the source reads these.  The service of `Goose.Subscriber` is a view of
it, `Watched.service`, with the watches that are still registered.

What a watch promises is `Watch.Faithful`, an invariant of every run: what was queued is what was
accepted while the watch was registered, up to the frame that made it fail.
-/

namespace ProcessBus.Goose.Subscriber

open Go Lib

/-- `Snapshot`. -/
structure Snapshot where
  pdu : Option PDU
  receivedAt : Time
  observedAt : Time
  stale : Bool

/-- The snapshot of a stream. -/
def StreamState.snapshot (st : StreamState) (now : Time) : Snapshot where
  pdu := st.lastPDU
  receivedAt := st.lastSeenAt
  observedAt := st.lastObservedAt
  stale := st.lost || decide (Int64.ofInt (st.talMs.toNat * 1000000) < now.sub st.lastSeenAt)

/-- `Snapshots`, in the order of the entries. -/
def Service.snapshots (s : Service) (name : String) (now : Time) : List Snapshot :=
  (s.streams.vals.filter fun st ↦
    st.seen && st.sub.name == name && st.lastPDU.isSome).map (·.snapshot now)

/-- An accepted frame, with the name of the subscription that matched it. -/
structure Accepted where
  name : String
  receivedAt : Time
  observation : Observation

/-- A `Watch`: its channels, the snapshot taken with it, whether it is a key of `s.watches`, and
whether its `closed` channel is closed.  Of its history it has the number of frames accepted
before it was registered and before it was deregistered, what the consumer has read, and how
often `failed` was closed. -/
structure Watch where
  channels : WatchChannels
  initial : List Snapshot
  registered : Bool := true
  closed : Bool := false
  since : ℕ
  upTo : Option ℕ := none
  read : List Observation := []
  failures : ℕ := 0

/-- The service and every watch made of it, by the order of their creation, with the frames
accepted so far. -/
structure Watched where
  streams : Table StreamKey StreamState
  watches : List Watch
  accepted : List Accepted

/-! ## Operations -/

/-- What `observeLocked` does with one watch of `s.watches`. -/
def WatchChannels.offer (c : WatchChannels) (name : String) (o : Observation) : WatchChannels :=
  if c.name ≠ name ∨ c.failed then c
  else if c.frames.length < 256 then { c with frames := c.frames ++ [o] }
  else { c with failed := true }

namespace Watch

/-- The offer of a frame to a watch. -/
def offer (c : Watch) (name : String) (o : Observation) : Watch :=
  if c.registered then
    { c with
      channels := c.channels.offer name o
      failures := if (c.channels.offer name o).failed && !c.channels.failed then c.failures + 1
        else c.failures }
  else c

/-- The deregistration of a watch after `n` accepted frames. -/
def deregister (c : Watch) (n : ℕ) : Watch :=
  if c.registered then { c with registered := false, upTo := some n } else c

/-- The consumer takes the next frame, if there is one. -/
def take (c : Watch) : Watch :=
  match c.channels.frames with
  | [] => c
  | o :: rest => { c with channels := { c.channels with frames := rest }, read := c.read ++ [o] }

end Watch

namespace Watched

/-- `New`. -/
def new : Watched := ⟨∅, [], []⟩

/-- The service as `handleMatch` sees it. -/
def service (w : Watched) : Service :=
  ⟨w.streams, (w.watches.filter Watch.registered).map Watch.channels⟩

/-- `handleMatch`, with the watches made of the service. -/
def handleMatch (w : Watched) (sub : Subscription) (pdu : PDU) (frame : Frame) (now : Time) :
    Watched :=
  let state := w.service.stream sub (streamKey pdu)
  if state.ignores pdu then
    { w with streams := w.streams.insert (streamKey pdu) state }
  else
    let o : Observation := ⟨pdu, frame.observedAt, state.isRestart pdu⟩
    { streams := w.streams.insert (streamKey pdu) (state.accept pdu frame (receivedAt frame now))
      watches := w.watches.map (·.offer sub.name o)
      accepted := w.accepted ++ [⟨sub.name, receivedAt frame now, o⟩] }

/-- The watch that `Observe` returns, with its snapshot. -/
def watch (w : Watched) (name : String) (now : Time) : Watch where
  channels := ⟨name, [], false⟩
  initial := (w.streams.vals.filter fun st ↦ st.seen && st.sub.name == name).map (·.snapshot now)
  since := w.accepted.length

/-- `Observe`: the snapshot and the registration. -/
def observe (w : Watched) (name : String) (now : Time) : Watched :=
  { w with watches := w.watches ++ [w.watch name now] }

/-- `Cancel` of the watch `i`. -/
def cancel (w : Watched) (i : ℕ) : Watched :=
  { w with watches := w.watches.modify i (·.deregister w.accepted.length) }

/-- `closeWatches`. -/
def closeWatches (w : Watched) : Watched :=
  { w with
    watches := w.watches.map fun c ↦
      { c.deregister w.accepted.length with closed := c.registered || c.closed } }

/-- What the goroutines around the service do. -/
inductive Action
  | handleMatch (sub : Subscription) (pdu : PDU) (frame : Frame) (now : Time)
  | checkStale (now : Time)
  | observe (name : String) (now : Time)
  | cancel (i : ℕ)
  | read (i : ℕ)
  | closeWatches

def step (w : Watched) : Action → Watched
  | .handleMatch sub pdu frame now => w.handleMatch sub pdu frame now
  | .checkStale now => { w with streams := (w.service.checkStale now).1.streams }
  | .observe name now => w.observe name now
  | .cancel i => w.cancel i
  | .read i => { w with watches := w.watches.modify i Watch.take }
  | .closeWatches => w.closeWatches

end Watched

/-! ## The service inside -/

/-- `observeLocked` offers the frame to every watch. -/
theorem observeLocked_eq (watches : List WatchChannels) (name : String) (o : Observation) :
    observeLocked watches name o = watches.map (·.offer name o) := rfl

theorem Watch.registered_offer (c : Watch) (name : String) (o : Observation) :
    (c.offer name o).registered = c.registered := by
  rw [offer]
  split <;> rfl

/-- The registered watches are offered what `observeLocked` offers them. -/
theorem observeLocked_service (w : Watched) (name : String) (o : Observation) :
    ((w.watches.map (·.offer name o)).filter Watch.registered).map Watch.channels =
      observeLocked w.service.watches name o := by
  rw [observeLocked_eq, Watched.service, List.map_map, List.filter_map, List.map_map]
  have hfilter : (Watch.registered ∘ fun c : Watch ↦ c.offer name o) = Watch.registered := by
    funext c
    exact c.registered_offer name o
  rw [hfilter]
  refine List.map_congr_left fun c hc ↦ ?_
  have hreg : c.registered = true := (List.mem_filter.mp hc).2
  simp [Watch.offer, hreg]

/-- `handleMatch` here is `handleMatch` of the service inside. -/
theorem service_handleMatch (w : Watched) (sub : Subscription) (pdu : PDU) (frame : Frame)
    (now : Time) :
    (w.handleMatch sub pdu frame now).service = (w.service.handleMatch sub pdu frame now).1 := by
  rw [Watched.handleMatch, Service.handleMatch]
  split
  · rfl
  · rw [Watched.service, ← observeLocked_service]
    rfl

/-! ## What a watch promises -/

/-- The stream of an accepted frame. -/
def Accepted.key (a : Accepted) : StreamKey := streamKey a.observation.pdu

/-- A frame and its two receive times. -/
def Accepted.frame (a : Accepted) : Option PDU × Time × Time :=
  (some a.observation.pdu, a.receivedAt, a.observation.observedAt)

/-- The frame that a snapshot shows. -/
def Snapshot.frame (x : Snapshot) : Option PDU × Time × Time := (x.pdu, x.receivedAt, x.observedAt)

/-- The frames of one stream. -/
def ofStream (key : StreamKey) (log : List Accepted) : List Accepted :=
  log.filter (·.key == key)

namespace Watch

variable (c : Watch) (log : List Accepted)

/-- The frames of the watch's subscription accepted after its snapshot. -/
def sequence : List Observation :=
  ((log.drop c.since).filter (·.name == c.channels.name)).map Accepted.observation

/-- Those of them accepted while the watch was registered. -/
def due : List Observation := c.sequence (log.take (c.upTo.getD log.length))

/-- Everything that has been queued on the watch, in order. -/
def queued : List Observation := c.read ++ c.channels.frames

/-- The snapshots of one stream taken with the watch. -/
def baseline (key : StreamKey) : List Snapshot :=
  c.initial.filter fun x ↦ x.pdu.map streamKey == some key

/-- Before the snapshot the frames of a stream all matched the watch's subscription. -/
def Steady (key : StreamKey) : Prop :=
  ∀ a ∈ ofStream key (log.take c.since), a.name = c.channels.name

/-- What was queued is what was `due`, up to the frame that made the watch fail; it fails once. -/
structure Served (due : List Observation) : Prop where
  queued_due : c.queued <+: due
  queued_eq : c.channels.failed = false → c.queued = due
  queued_ne : c.channels.failed = true → c.queued ≠ due
  failures_eq : c.failures = if c.channels.failed then 1 else 0

/-- The history of a watch: when it was registered, and the snapshot it was made with. -/
structure Placed : Prop where
  since_le : c.since ≤ log.length
  upTo_le : ∀ n, c.upTo = some n → c.since ≤ n ∧ n ≤ log.length
  upTo_isNone : c.upTo.isNone = c.registered
  baseline_eq : ∀ key, c.Steady log key →
    (c.baseline key).map Snapshot.frame =
      ((ofStream key (log.take c.since)).getLast?.map Accepted.frame).toList

/-- The promise of a watch. -/
def Faithful : Prop := c.Placed log ∧ c.Served (c.due log)

end Watch

/-- Every stream of the table shows the last frame accepted for it, under the subscription of
the first one. -/
def Reflects (streams : Table StreamKey StreamState) (log : List Accepted) : Prop :=
  ∀ key, streams.lookup key = none ∧ ofStream key log = [] ∨
    ∃ st first last, streams.lookup key = some st ∧
      (ofStream key log).head? = some first ∧ (ofStream key log).getLast? = some last ∧
      st.seen = true ∧ st.sub.name = first.name ∧
      (st.lastPDU, st.lastSeenAt, st.lastObservedAt) = last.frame

/-! ## The streams -/

section Streams

variable {streams : Table StreamKey StreamState} {log : List Accepted}

theorem ofStream_append (key : StreamKey) (log log' : List Accepted) :
    ofStream key (log ++ log') = ofStream key log ++ ofStream key log' :=
  List.filter_append _ _

/-- A change of the `lost` flags is not seen. -/
theorem Reflects.checkStale {watches : List WatchChannels} (h : Reflects streams log)
    (now : Time) : Reflects ((Service.mk streams watches).checkStale now).1.streams log := by
  intro key
  rw [Service.checkStale, Table.lookup_mapVal]
  rcases h key with ⟨hl, hlog⟩ | ⟨st, first, last, hl, hfirst, hlast, hseen, hsub, hframe⟩
  · exact .inl ⟨by rw [hl]; rfl, hlog⟩
  · refine .inr ⟨st.expire now, first, last, by rw [hl]; rfl, hfirst, hlast, ?_⟩
    rw [StreamState.expire]
    split
    · exact ⟨hseen, hsub, hframe⟩
    · exact ⟨hseen, hsub, hframe⟩

/-- The entry of an ignored frame is put back as it was. -/
theorem Reflects.ignored {watches : List WatchChannels} (h : Reflects streams log)
    {sub : Subscription} {pdu : PDU}
    (hig : ((Service.mk streams watches).stream sub (streamKey pdu)).ignores pdu = true) :
    Reflects (streams.insert (streamKey pdu)
      ((Service.mk streams watches).stream sub (streamKey pdu))) log := by
  intro key
  by_cases hkey : key = streamKey pdu
  · subst hkey
    rcases h (streamKey pdu) with ⟨hl, -⟩ | ⟨st, first, last, hl, hrest⟩
    · -- a first frame is not ignored
      have hnew : (Service.mk streams watches).stream sub (streamKey pdu) = { sub := sub } := by
        rw [Service.stream, hl, Option.getD_none]
      rw [hnew, StreamState.ignores_of_not_seen pdu rfl rfl] at hig
      exact absurd hig (by simp)
    · refine .inr ⟨st, first, last, ?_, hrest⟩
      rw [AList.lookup_insert, Service.stream, hl, Option.getD_some]
  · rw [AList.lookup_insert_ne hkey]
    exact h key

/-- An accepted frame becomes the last one of its stream. -/
theorem Reflects.accepted {watches : List WatchChannels} (h : Reflects streams log)
    (sub : Subscription) (pdu : PDU) (frame : Frame) (t : Time) (restart : Bool) :
    Reflects (streams.insert (streamKey pdu)
        (((Service.mk streams watches).stream sub (streamKey pdu)).accept pdu frame t))
      (log ++ [⟨sub.name, t, ⟨pdu, frame.observedAt, restart⟩⟩]) := by
  intro key
  set a : Accepted := ⟨sub.name, t, ⟨pdu, frame.observedAt, restart⟩⟩ with ha
  rw [ofStream_append]
  by_cases hkey : key = streamKey pdu
  · subst hkey
    have hone : ofStream (streamKey pdu) [a] = [a] := by
      simp [ofStream, ha, Accepted.key]
    rw [hone, AList.lookup_insert, Service.stream]
    rcases h (streamKey pdu) with ⟨hl, hlog⟩ | ⟨st, first, last, hl, hfirst, -, -, hsub, -⟩
    · refine .inr ⟨_, a, a, rfl, ?_, List.getLast?_concat, rfl, ?_, rfl⟩
      · rw [hlog]
        rfl
      · rw [hl]
        rfl
    · refine .inr ⟨_, first, a, rfl, ?_, List.getLast?_concat, rfl, ?_, rfl⟩
      · rw [List.head?_append, hfirst]
        rfl
      · rw [hl]
        exact hsub
  · have hnone : ofStream key [a] = [] := by
      simp [ofStream, ha, Accepted.key, Ne.symm hkey]
    rw [hnone, List.append_nil, AList.lookup_insert_ne hkey]
    exact h key

/-- The snapshots of a steady stream show its last frame. -/
theorem Reflects.baseline (h : Reflects streams log) (name : String) (now : Time)
    (key : StreamKey) (hsteady : ∀ a ∈ ofStream key log, a.name = name) :
    (((streams.vals.filter fun st ↦ st.seen && st.sub.name == name).map
        (·.snapshot now)).filter fun x ↦ x.pdu.map streamKey == some key).map Snapshot.frame =
      ((ofStream key log).getLast?.map Accepted.frame).toList := by
  let shown (st : StreamState) : Option (Option PDU × Time × Time) :=
    if st.seen && st.sub.name == name then
      if st.lastPDU.map streamKey == some key then some (st.snapshot now).frame else none
    else none
  have hkeys : ∀ k st, streams.lookup k = some st → st.lastPDU.map streamKey = some k := by
    intro k st hst
    rcases h k with ⟨hl, -⟩ | ⟨st', -, last, hl, -, hlast, -, -, hframe⟩
    · exact absurd (hl.symm.trans hst) (by simp)
    · obtain rfl : st' = st := Option.some.inj (hl.symm.trans hst)
      have hmem := List.mem_of_getLast? hlast
      have hkey := (List.mem_filter.mp hmem).2
      have hpdu : st'.lastPDU = some last.observation.pdu := congrArg Prod.fst hframe
      rw [hpdu]
      exact congrArg some (beq_iff_eq.mp hkey)
  have hvals : (((streams.vals.filter fun st ↦ st.seen && st.sub.name == name).map
      (·.snapshot now)).filter fun x ↦ x.pdu.map streamKey == some key).map Snapshot.frame =
      streams.vals.filterMap shown := by
    rw [List.filter_map, List.map_map, ← List.filterMap_eq_map, List.filter_filter,
      List.filterMap_filter]
    refine List.filterMap_congr fun st _ ↦ ?_
    dsimp only [shown, Function.comp_apply, StreamState.snapshot]
    cases (st.seen && st.sub.name == name) with
    | true => simp
    | false => simp
  rw [hvals, Table.filterMap_vals (k := key)]
  · rcases h key with ⟨hl, hlog⟩ | ⟨st, first, last, hl, hfirst, hlast, hseen, hsub, hframe⟩
    · rw [hl, hlog]
      rfl
    · have hname : st.sub.name = name :=
        hsub.trans (hsteady first (List.mem_of_head? hfirst))
      have hshown : shown st = some last.frame := by
        simp only [shown, hseen, hname, hkeys key st hl, beq_self_eq_true, Bool.and_self, if_true]
        exact congrArg some hframe
      rw [hl, hlast, Option.bind_some, hshown]
      rfl
  · intro k st hst hne
    have hother : (st.lastPDU.map streamKey == some key) = false := by
      rw [hkeys k st hst]
      simpa using hne
    simp only [shown, hother]
    split <;> rfl

end Streams

/-! ## One watch -/

namespace Watch

variable {c : Watch} {log : List Accepted}

/-- One more accepted frame extends the sequence of a watch if it is of its subscription. -/
theorem sequence_concat (h : c.since ≤ log.length) (a : Accepted) :
    c.sequence (log ++ [a]) =
      c.sequence log ++ if a.name = c.channels.name then [a.observation] else [] := by
  rw [sequence, sequence, List.drop_append_of_le_length h, List.filter_append, List.map_append]
  split
  · simp [*]
  · simp [*]

theorem due_of_registered (h : c.Placed log) (hreg : c.registered = true) (log' : List Accepted) :
    c.due log' = c.sequence log' := by
  have hnone : c.upTo = none := Option.isNone_iff_eq_none.mp (h.upTo_isNone.trans hreg)
  rw [due, hnone, Option.getD_none, List.take_length]

/-- After its deregistration nothing becomes due to a watch. -/
theorem due_concat_of_not_registered (h : c.Placed log) (hreg : c.registered = false)
    (a : Accepted) : c.due (log ++ [a]) = c.due log := by
  cases hn : c.upTo with
  | none =>
      have hnone := h.upTo_isNone
      rw [hn, hreg] at hnone
      exact absurd hnone (by simp)
  | some n =>
      rw [due, due, hn, Option.getD_some, Option.getD_some,
        List.take_append_of_le_length (h.upTo_le n hn).2]

/-- The history of a watch is not changed by later frames. -/
theorem Placed.concat (h : c.Placed log) (a : Accepted) : c.Placed (log ++ [a]) where
  since_le := h.since_le.trans (by simp)
  upTo_le n hn := ⟨(h.upTo_le n hn).1, (h.upTo_le n hn).2.trans (by simp)⟩
  upTo_isNone := h.upTo_isNone
  baseline_eq key hsteady := by
    rw [Steady, List.take_append_of_le_length h.since_le] at hsteady
    rw [List.take_append_of_le_length h.since_le]
    exact h.baseline_eq key hsteady

/-- Neither do an offer and a read change it. -/
theorem Placed.channels (h : c.Placed log) {channels : WatchChannels} (read : List Observation)
    (failures : ℕ) (hname : channels.name = c.channels.name) :
    { c with channels := channels, read := read, failures := failures }.Placed log where
  since_le := h.since_le
  upTo_le := h.upTo_le
  upTo_isNone := h.upTo_isNone
  baseline_eq key hsteady := by
    rw [Steady, hname] at hsteady
    exact h.baseline_eq key hsteady

/-- An offer to a registered watch, as far as the queue goes: it is due if it is of the watch's
subscription. -/
theorem Served.offer {due : List Observation} (h : c.Served due) (hreg : c.registered = true)
    (name : String) (o : Observation) :
    (c.offer name o).Served (due ++ if name = c.channels.name then [o] else []) := by
  rw [Watch.offer, if_pos hreg, WatchChannels.offer]
  by_cases hname : c.channels.name = name
  · rw [if_pos hname.symm]
    have hnot : ∀ l, l <+: due → l ≠ due ++ [o] := by
      rintro l hl rfl
      exact absurd hl.length_le (by simp)
    cases hf : c.channels.failed with
    | true =>
        -- a watch that has failed takes nothing more
        rw [if_pos (.inr rfl)]
        refine ⟨h.queued_due.trans (List.prefix_append _ _), fun h' ↦ ?_, fun _ ↦ ?_, ?_⟩
        · exact absurd (hf.symm.trans h') (by simp)
        · exact hnot _ h.queued_due
        · simpa [hf] using h.failures_eq
    | false =>
        rw [if_neg (by simp [hname])]
        have hdue : c.read ++ c.channels.frames = due := h.queued_eq hf
        have hcount := h.failures_eq
        rw [hf, if_neg (by simp)] at hcount
        split
        · have hq : c.read ++ (c.channels.frames ++ [o]) = due ++ [o] := by
            rw [← List.append_assoc, hdue]
          refine ⟨⟨[], by rw [List.append_nil]; exact hq⟩, fun _ ↦ hq, fun h' ↦ ?_, ?_⟩
          · exact absurd h' (by simp)
          · simp [hcount]
        · refine ⟨⟨[o], by rw [← hdue]; rfl⟩, fun h' ↦ absurd h' (by simp), fun _ ↦ ?_, ?_⟩
          · exact hnot _ ⟨[], by rw [List.append_nil]; exact hdue⟩
          · simp [hcount]
  · rw [if_neg (Ne.symm hname), List.append_nil, if_pos (.inl hname)]
    refine ⟨h.queued_due, h.queued_eq, h.queued_ne, ?_⟩
    simpa using h.failures_eq

/-- The promise survives the acceptance of a frame, which is offered to the watch. -/
theorem Faithful.offer (h : c.Faithful log) (name : String) (t : Time) (o : Observation) :
    (c.offer name o).Faithful (log ++ [⟨name, t, o⟩]) := by
  obtain ⟨hplaced, hserved⟩ := h
  cases hreg : c.registered with
  | false =>
      have hoff : c.offer name o = c := by simp [Watch.offer, hreg]
      rw [hoff]
      exact ⟨hplaced.concat _,
        (due_concat_of_not_registered hplaced hreg ⟨name, t, o⟩).symm ▸ hserved⟩
  | true =>
      have hname : (c.channels.offer name o).name = c.channels.name := by
        rw [WatchChannels.offer]
        split_ifs <;> rfl
      have hsame : (c.offer name o).due (log ++ [⟨name, t, o⟩]) =
          c.due (log ++ [⟨name, t, o⟩]) := by
        rw [Watch.offer, if_pos hreg, due, due, sequence, sequence]
        dsimp only
        rw [hname]
      have hdue : (c.offer name o).due (log ++ [⟨name, t, o⟩]) =
          c.due log ++ if name = c.channels.name then [o] else [] := by
        rw [hsame, due_of_registered hplaced hreg, due_of_registered hplaced hreg,
          sequence_concat hplaced.since_le]
      refine ⟨?_, hdue ▸ hserved.offer hreg name o⟩
      rw [Watch.offer, if_pos hreg]
      exact (hplaced.concat _).channels _ _ hname

/-- A read moves a frame from the queue to what has been read. -/
theorem queued_take : c.take.queued = c.queued := by
  rw [Watch.take]
  cases hf : c.channels.frames with
  | nil => rfl
  | cons o rest => simp [queued, hf]

theorem Faithful.take (h : c.Faithful log) : c.take.Faithful log := by
  have hq := queued_take (c := c)
  rw [Watch.take] at hq ⊢
  split at hq
  · exact h
  · refine ⟨h.1.channels _ _ rfl, ?_⟩
    exact
      { queued_due := hq ▸ h.2.queued_due
        queued_eq := fun hf ↦ hq.trans (h.2.queued_eq hf)
        queued_ne := fun hf ↦ hq ▸ h.2.queued_ne hf
        failures_eq := h.2.failures_eq }

/-- The deregistration leaves everything due as it is. -/
theorem Faithful.deregister (h : c.Faithful log) : (c.deregister log.length).Faithful log := by
  rw [Watch.deregister]
  split
  · next hreg =>
      have hdue : c.due log = { c with registered := false, upTo := some log.length }.due log := by
        rw [due_of_registered h.1 hreg, due, Option.getD_some, List.take_length]
        rfl
      refine ⟨⟨h.1.since_le, ?_, rfl, h.1.baseline_eq⟩, ?_⟩
      · rintro n hn
        obtain rfl : log.length = n := Option.some.inj hn
        exact ⟨h.1.since_le, le_rfl⟩
      · rw [← hdue]
        exact ⟨h.2.queued_due, h.2.queued_eq, h.2.queued_ne, h.2.failures_eq⟩
  · exact h

theorem Faithful.close (h : c.Faithful log) (b : Bool) : { c with closed := b }.Faithful log :=
  ⟨⟨h.1.since_le, h.1.upTo_le, h.1.upTo_isNone, h.1.baseline_eq⟩,
    ⟨h.2.queued_due, h.2.queued_eq, h.2.queued_ne, h.2.failures_eq⟩⟩

/-- A watch that has failed, with what it has been given: nothing can be added any more. -/
def FailedWith (q : List Observation) (c : Watch) : Prop :=
  c.channels.failed = true ∧ c.failures = 1 ∧ c.queued = q

variable {q : List Observation}

theorem FailedWith.offer (h : c.FailedWith q) (name : String) (o : Observation) :
    (c.offer name o).FailedWith q := by
  have hch : c.channels.offer name o = c.channels := by
    rw [WatchChannels.offer, if_pos (.inr h.1)]
  rw [Watch.offer, hch]
  split
  · refine ⟨h.1, ?_, h.2.2⟩
    simpa using h.2.1
  · exact h

theorem FailedWith.take (h : c.FailedWith q) : c.take.FailedWith q := by
  refine ⟨?_, ?_, queued_take.trans h.2.2⟩
  · rw [Watch.take]
    split
    · exact h.1
    · exact h.1
  · rw [Watch.take]
    split
    · exact h.2.1
    · exact h.2.1

theorem FailedWith.deregister (h : c.FailedWith q) (n : ℕ) : (c.deregister n).FailedWith q := by
  rw [Watch.deregister]
  split
  · exact h
  · exact h

end Watch

/-! ## Whole runs -/

namespace Watched

/-- The invariant of a run. -/
structure Kept (w : Watched) : Prop where
  reflects : Reflects w.streams w.accepted
  faithful : ∀ c ∈ w.watches, c.Faithful w.accepted

variable {w : Watched}

/-- What holds of every element holds of every element after one has been modified. -/
private theorem forall_mem_modify {α : Type*} {P : α → Prop} {l : List α} {i : ℕ} {f : α → α}
    (h : ∀ x ∈ l, P x) (hf : ∀ x, P x → P (f x)) : ∀ x ∈ l.modify i f, P x := by
  intro x hx
  obtain ⟨j, hj, rfl⟩ := List.getElem_of_mem hx
  rw [List.getElem_modify]
  split
  · exact hf _ (h _ (List.getElem_mem _))
  · exact h _ (List.getElem_mem _)

/-- What a modification keeps still holds of the element. -/
private theorem getElem?_modify_of {α : Type*} {P : α → Prop} {l : List α} {i j : ℕ} {x : α}
    {f : α → α} (hx : l[i]? = some x) (h : P x) (hf : P x → P (f x)) :
    ∃ y, (l.modify j f)[i]? = some y ∧ P y := by
  rw [List.getElem?_modify, hx]
  by_cases hj : j = i
  · exact ⟨f x, by simp [hj], hf h⟩
  · exact ⟨x, by simp [hj], h⟩

/-- A new watch has nothing due to it yet. -/
theorem Kept.observe (h : w.Kept) (name : String) (now : Time) : (w.observe name now).Kept := by
  refine ⟨h.reflects, fun c hc ↦ ?_⟩
  rcases List.mem_append.mp hc with hc | hc
  · exact h.faithful c hc
  · obtain rfl := List.mem_singleton.mp hc
    have hall : w.accepted.take (w.watch name now).since = w.accepted := List.take_length
    have hdue : (w.watch name now).due w.accepted = [] := by
      have hdrop : w.accepted.drop (w.watch name now).since = [] := List.drop_length
      rw [Watch.due, Watch.sequence, List.drop_take, hdrop]
      simp
    refine ⟨⟨le_rfl, nofun, rfl, fun key hsteady ↦ ?_⟩, ?_⟩
    · rw [Watch.Steady] at hsteady
      change ∀ a ∈ ofStream key (w.accepted.take (w.watch name now).since), _ at hsteady
      rw [hall] at hsteady
      change _ = ((ofStream key (w.accepted.take (w.watch name now).since)).getLast?.map _).toList
      rw [hall]
      exact h.reflects.baseline name now key hsteady
    · change (w.watch name now).Served ((w.watch name now).due w.accepted)
      rw [hdue]
      exact ⟨List.prefix_rfl, fun _ ↦ rfl, nofun, rfl⟩

/-- `Observe` takes the snapshots that `Snapshots` would take: a stream that has been seen has a
last PDU. -/
theorem Kept.initial_eq (h : w.Kept) (name : String) (now : Time) :
    (w.watch name now).initial = w.service.snapshots name now := by
  rw [watch, Service.snapshots]
  refine congrArg _ (List.filter_congr fun st hst ↦ ?_)
  obtain ⟨key, hl⟩ := Table.mem_vals_iff.mp hst
  rcases h.reflects key with ⟨hnone, -⟩ | ⟨st', -, last, hst', -, -, -, -, hframe⟩
  · exact absurd (hnone.symm.trans hl) (by simp)
  · obtain rfl : st' = st := Option.some.inj (hst'.symm.trans hl)
    have hpdu : st'.lastPDU = some last.observation.pdu := congrArg Prod.fst hframe
    rw [hpdu, Option.isSome_some, Bool.and_true]

theorem Kept.handleMatch (h : w.Kept) (sub : Subscription) (pdu : PDU) (frame : Frame)
    (now : Time) : (w.handleMatch sub pdu frame now).Kept := by
  rw [Watched.handleMatch]
  split
  · exact ⟨h.reflects.ignored ‹_›, h.faithful⟩
  · refine ⟨h.reflects.accepted sub pdu frame _ _, fun c hc ↦ ?_⟩
    obtain ⟨c', hc', rfl⟩ := List.mem_map.mp hc
    exact (h.faithful c' hc').offer _ _ _

theorem Kept.step (h : w.Kept) (a : Action) : (w.step a).Kept := by
  cases a with
  | handleMatch sub pdu frame now => exact h.handleMatch sub pdu frame now
  | checkStale now => exact ⟨h.reflects.checkStale now, h.faithful⟩
  | observe name now => exact h.observe name now
  | cancel i => exact ⟨h.reflects, forall_mem_modify h.faithful fun c hc ↦ hc.deregister⟩
  | read i => exact ⟨h.reflects, forall_mem_modify h.faithful fun c hc ↦ hc.take⟩
  | closeWatches =>
      refine ⟨h.reflects, fun c hc ↦ ?_⟩
      obtain ⟨c', hc', rfl⟩ := List.mem_map.mp hc
      exact (h.faithful c' hc').deregister.close _

theorem kept_run (as : List Action) : (as.foldl step new).Kept := by
  refine inv_run_of_step (fun w a h ↦ h.step a) ⟨fun key ↦ .inl ⟨?_, rfl⟩, nofun⟩ as
  exact AList.lookup_empty key

/-- A failed watch stays as it is. -/
theorem failedWith_step {i : ℕ} {q : List Observation}
    (h : ∃ c, w.watches[i]? = some c ∧ c.FailedWith q) (a : Action) :
    ∃ c, (w.step a).watches[i]? = some c ∧ c.FailedWith q := by
  obtain ⟨c, hc, hf⟩ := h
  cases a with
  | handleMatch sub pdu frame now =>
      rw [step, Watched.handleMatch]
      split
      · exact ⟨c, hc, hf⟩
      · refine ⟨c.offer sub.name ⟨pdu, frame.observedAt,
          (w.service.stream sub (streamKey pdu)).isRestart pdu⟩, ?_, hf.offer _ _⟩
        rw [List.getElem?_map, hc, Option.map_some]
  | checkStale now => exact ⟨c, hc, hf⟩
  | observe name now =>
      refine ⟨c, ?_, hf⟩
      obtain ⟨hi, rfl⟩ := List.getElem?_eq_some_iff.mp hc
      exact List.getElem?_append_left hi |>.trans hc
  | cancel j => exact getElem?_modify_of hc hf fun h ↦ h.deregister w.accepted.length
  | read j => exact getElem?_modify_of hc hf fun h ↦ h.take
  | closeWatches =>
      refine ⟨{ c.deregister w.accepted.length with closed := c.registered || c.closed }, ?_,
        hf.deregister w.accepted.length⟩
      rw [step, Watched.closeWatches, List.getElem?_map, hc, Option.map_some]

/-- What is due to a watch is the beginning of its sequence. -/
theorem due_isPrefix_sequence (c : Watch) (log : List Accepted) : c.due log <+: c.sequence log := by
  rw [Watch.due, Watch.sequence, Watch.sequence, List.drop_take]
  exact ((List.take_prefix _ _).filter _).map _

/-- **No silent gaps.**  In every run, for every watch: what has been read from it is a prefix of
the frames accepted for its subscription after its snapshot; unless everything accepted while it
was registered has been queued, `failed` was closed once, and nothing is queued on it in any
continuation of the run; and for a stream whose frames all matched the watch's subscription, the
snapshot shows the last frame accepted before the sequence begins. -/
theorem watch_has_no_gaps (as : List Action) (i : ℕ) (c : Watch)
    (hc : (as.foldl step new).watches[i]? = some c) :
    c.read <+: c.sequence (as.foldl step new).accepted ∧
      (c.queued = c.due (as.foldl step new).accepted ↔ c.channels.failed = false) ∧
      (c.channels.failed = true → c.failures = 1 ∧
        ∀ bs, ∃ c', ((as ++ bs).foldl step new).watches[i]? = some c' ∧
          c'.channels.failed = true ∧ c'.failures = 1 ∧ c'.queued = c.queued) ∧
      ∀ key, c.Steady (as.foldl step new).accepted key →
        (c.baseline key).map Snapshot.frame =
          ((ofStream key ((as.foldl step new).accepted.take c.since)).getLast?.map
            Accepted.frame).toList := by
  obtain ⟨hplaced, hserved⟩ := (kept_run as).faithful c (List.mem_of_getElem? hc)
  refine ⟨?_, ⟨fun hq ↦ ?_, hserved.queued_eq⟩, fun hf ↦ ?_, hplaced.baseline_eq⟩
  · have hread : c.read <+: c.queued := List.prefix_append _ _
    exact (hread.trans hserved.queued_due).trans (due_isPrefix_sequence c _)
  · by_contra hf
    exact hserved.queued_ne (by simpa using hf) hq
  · have hcount : c.failures = 1 := by rw [hserved.failures_eq, if_pos hf]
    refine ⟨hcount, fun bs ↦ ?_⟩
    rw [List.foldl_append]
    exact inv_run_of_step (I := fun w : Watched ↦ ∃ c', w.watches[i]? = some c' ∧
      c'.FailedWith c.queued) (fun w a h ↦ failedWith_step h a) ⟨c, hc, hf, hcount, rfl⟩ bs

/-- A watch made after the first message of a stream: the second one is read. -/
def exampleWatch : List Action :=
  [.handleMatch ⟨"s"⟩ (exampleMessage 0) ⟨.ofUnix 1 0, .ofUnix 1 0⟩ .zero,
    .observe "s" (.ofUnix 1 5),
    .handleMatch ⟨"s"⟩ (exampleMessage 1) ⟨.ofUnix 1 9, .ofUnix 1 9⟩ .zero, .read 0]

theorem watch_has_no_gaps_example :
    ∃ c, (exampleWatch.foldl step new).watches[0]? = some c ∧ c.read.length = 1 ∧
      c.initial.length = 1 ∧ c.read <+: c.sequence (exampleWatch.foldl step new).accepted :=
  ⟨_, rfl, rfl, rfl, (watch_has_no_gaps exampleWatch 0 _ rfl).1⟩

end Watched

end ProcessBus.Goose.Subscriber
