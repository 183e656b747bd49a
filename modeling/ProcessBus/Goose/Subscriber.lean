import ProcessBus.Goose.Pdu
import ProcessBus.Lib.Table

/-!
# The GOOSE subscriber

`internal/application/goosesub`: the stream table, the classification of a received frame and
the watchdog.  `handleMatch` first classifies the frame against the last accepted one
(`StreamState.ignores` and the predicates it is made of, under the names of the source) and
only then touches any state.

Everything a stream does depends on its own entry of the table, so the results are stated for
one stream: `handleMatch_stream` is what a call does to the stream of its frame, and
`handleMatch_updates_iff` says that the entry changes exactly when the frame is not ignored.
-/

namespace ProcessBus.Goose.Subscriber

open Go Lib

/-- The part of `goose.Subscription` that `handleMatch` uses; the filters have been applied
before it is called. -/
structure Subscription where
  name : String

/-- The two receive times of an `ethernet.Frame`. -/
structure Frame where
  timestamp : Time
  observedAt : Time

/-- `streamKey`.  The destination address is kept as bytes; the source keeps its textual form,
which determines them. -/
structure StreamKey where
  dstMAC : Bytes
  appID : UInt16
  gocbRef : Bytes
deriving DecidableEq

/-- `streamState`. -/
structure StreamState where
  sub : Subscription
  lastStNum : UInt32 := 0
  lastSqNum : UInt32 := 0
  lastConfRev : UInt32 := 0
  lastSeenAt : Time := .zero
  lastObservedAt : Time := .zero
  talMs : UInt32 := 0
  lastPDU : Option PDU := none
  seen : Bool := false
  lost : Bool := false

/-- `EventReason`. -/
inductive EventReason
  | firstSeen | stateChange | publisherRestart | confRevChanged | streamLost | streamRestored
deriving DecidableEq, Repr

/-- `Event`. -/
structure Event where
  reason : EventReason
  subscription : String
  pdu : Option PDU
  receivedAt : Time
  previousStNum : UInt32 := 0
  sqNumGap : Int32 := 0

/-- `Observation`: an accepted frame on its way to a watch. -/
structure Observation where
  pdu : PDU
  observedAt : Time
  restart : Bool

/-- `watchChannels`: the queue of a watch and whether its `failed` channel is closed. -/
structure WatchChannels where
  name : String
  frames : List Observation
  failed : Bool

/-- The mutable state of `goosesub.Service`. -/
structure Service where
  streams : Table StreamKey StreamState
  watches : List WatchChannels

def streamKey (pdu : PDU) : StreamKey := ⟨pdu.dstMAC, pdu.appID, pdu.gocbRef⟩

/-! ## Classification -/

namespace StreamState

variable (st : StreamState) (pdu : PDU)

def stateDistance : UInt32 := pdu.stNum - st.lastStNum

def isStateChange : Bool :=
  st.seen && st.stateDistance pdu != 0 && decide (st.stateDistance pdu < 0x80000000)

def isRestartCandidate : Bool := st.seen && decide (0x80000000 ≤ st.stateDistance pdu)

def isConfRevChange : Bool := st.seen && pdu.confRev != st.lastConfRev

def isDuplicate : Bool := st.seen && pdu.stNum == st.lastStNum && pdu.sqNum == st.lastSqNum

def sqDistance : UInt32 := pdu.sqNum - st.lastSqNum

def isHeartbeat : Bool :=
  st.seen && pdu.stNum == st.lastStNum && st.sqDistance pdu != 0 &&
    decide (st.sqDistance pdu < 0x80000000)

def isReorderedHeartbeat : Bool :=
  st.seen && pdu.stNum == st.lastStNum && !st.isDuplicate pdu && !st.isHeartbeat pdu

def lastTimestamp : Time := (st.lastPDU.map PDU.timestamp).getD .zero

def staleTimestamp : Bool :=
  !pdu.timestamp.isZero && !st.lastTimestamp.isZero && pdu.timestamp.before st.lastTimestamp

def restartTimestampOK : Bool :=
  pdu.timestamp.isZero || st.lastTimestamp.isZero || pdu.timestamp.after st.lastTimestamp

def isRestart : Bool :=
  st.isRestartCandidate pdu && pdu.sqNum == 0 && st.restartTimestampOK pdu

/-- The guard of the early return: stale, duplicate and reordered frames. -/
def ignores : Bool :=
  st.isDuplicate pdu || st.isReorderedHeartbeat pdu || st.staleTimestamp pdu ||
    st.isRestartCandidate pdu && !st.isRestart pdu

/-- `sqGap`: the number of sequence numbers jumped over within one state. -/
def sqGap : Int32 := if st.isHeartbeat pdu then (st.sqDistance pdu - 1).toInt32 else 0

/-- The stream state after an accepted frame. -/
def accept (frame : Frame) (receivedAt : Time) : StreamState :=
  { st with
    lastStNum := pdu.stNum
    lastSqNum := pdu.sqNum
    lastConfRev := pdu.confRev
    lastSeenAt := receivedAt
    lastObservedAt := frame.observedAt
    talMs := pdu.timeAllowedToLiveMs
    lastPDU := some pdu
    seen := true
    lost := false }

/-- The event reason, if any, of an accepted frame: the switch at the end of `handleMatch`. -/
def reason : Option EventReason :=
  if !st.seen then some .firstSeen
  else if st.isRestart pdu then some .publisherRestart
  else if st.isStateChange pdu then some .stateChange
  else if st.isConfRevChange pdu then some .confRevChanged
  else none

end StreamState

/-! ## Operations -/

/-- `observeLocked`: queue the frame on every watch of this name; a full queue fails. -/
def observeLocked (watches : List WatchChannels) (name : String) (o : Observation) :
    List WatchChannels :=
  watches.map fun c ↦
    if c.name ≠ name ∨ c.failed then c
    else if c.frames.length < 256 then { c with frames := c.frames ++ [o] }
    else { c with failed := true }

/-- The stream entry that a frame is classified against; a missing one is created. -/
def Service.stream (s : Service) (sub : Subscription) (key : StreamKey) : StreamState :=
  (s.streams.lookup key).getD { sub := sub }

/-- `receivedAt`: the capture time, or `time.Now()` when the capture has none. -/
def receivedAt (frame : Frame) (now : Time) : Time :=
  if frame.timestamp.isZero then now else frame.timestamp

/-- `handleMatch`, with the events it sends to the sink. -/
def Service.handleMatch (s : Service) (sub : Subscription) (pdu : PDU) (frame : Frame)
    (now : Time) : Service × List Event :=
  let receivedAt := receivedAt frame now
  let key := streamKey pdu
  let state := s.stream sub key
  if state.ignores pdu then
    ({ s with streams := s.streams.insert key state }, [])
  else
    let s' : Service :=
      { streams := s.streams.insert key (state.accept pdu frame receivedAt)
        watches := observeLocked s.watches sub.name
          ⟨pdu, frame.observedAt, state.isRestart pdu⟩ }
    let restored : List Event :=
      if state.lost then
        [{ reason := .streamRestored, subscription := sub.name, pdu := some pdu,
           receivedAt := receivedAt }]
      else []
    let changed : List Event :=
      match state.reason pdu with
      | some reason =>
          [{ reason := reason, subscription := sub.name, pdu := some pdu,
             receivedAt := receivedAt, previousStNum := state.lastStNum,
             sqNumGap := state.sqGap pdu }]
      | none => []
    (s', restored ++ changed)

/-- Whether the watchdog finds a stream expired: `now` is after the last frame's deadline. -/
def StreamState.expired (st : StreamState) (now : Time) : Bool :=
  st.seen && !st.lost &&
    now.after ⟨st.lastSeenAt.ns + st.talMs.toNat * 1000000⟩

/-- The body of the loop of `checkStale`. -/
def StreamState.expire (st : StreamState) (now : Time) : StreamState :=
  if st.expired now then { st with lost := true } else st

/-- `checkStale`, with the `stream_lost` events it sends.  Go visits the streams in no
particular order; the events here follow the order of the entries. -/
def Service.checkStale (s : Service) (now : Time) : Service × List Event :=
  let lost := s.streams.vals.filter (·.expired now)
  ({ s with streams := Table.mapVal (fun _ st ↦ st.expire now) s.streams },
    lost.map fun st ↦
      { reason := .streamLost, subscription := st.sub.name, pdu := st.lastPDU,
        receivedAt := now })

/-! ## One stream -/

section Stream

variable (s : Service) (sub : Subscription) (pdu : PDU) (frame : Frame) (now : Time)

/-- What a call does to the stream of its frame. -/
theorem handleMatch_stream (sub' : Subscription) :
    (s.handleMatch sub pdu frame now).1.stream sub' (streamKey pdu) =
      if (s.stream sub (streamKey pdu)).ignores pdu then s.stream sub (streamKey pdu)
      else (s.stream sub (streamKey pdu)).accept pdu frame (receivedAt frame now) := by
  unfold Service.handleMatch
  dsimp only
  split <;> simp [Service.stream, AList.lookup_insert]

/-- A first frame is never ignored. -/
theorem StreamState.ignores_of_not_seen {st : StreamState} (hs : st.seen = false)
    (hp : st.lastPDU = none) : st.ignores pdu = false := by
  simp [ignores, isDuplicate, isReorderedHeartbeat, staleTimestamp, isRestartCandidate, hs,
    lastTimestamp, hp]

/-- An accepted frame always changes the stream state: it moves one of the counters. -/
theorem StreamState.accept_ne {st : StreamState} (h : st.ignores pdu = false) (t : Time) :
    st.accept pdu frame t ≠ st := by
  intro heq
  have hseen : st.seen = true := (congrArg StreamState.seen heq).symm
  have hst : pdu.stNum = st.lastStNum := congrArg StreamState.lastStNum heq
  have hsq : pdu.sqNum = st.lastSqNum := congrArg StreamState.lastSqNum heq
  simp [ignores, isDuplicate, hseen, hst, hsq] at h

/-- The stream state is updated by exactly the frames that are not ignored. -/
theorem handleMatch_updates_iff :
    (s.handleMatch sub pdu frame now).1.stream sub (streamKey pdu) ≠
        s.stream sub (streamKey pdu) ↔
      (s.stream sub (streamKey pdu)).ignores pdu = false := by
  rw [handleMatch_stream]
  cases h : (s.stream sub (streamKey pdu)).ignores pdu with
  | true => simp
  | false => simpa using StreamState.accept_ne pdu frame h (receivedAt frame now)

/-- The watchdog only ever touches the `lost` flag. -/
theorem checkStale_stream (key : StreamKey) :
    ∃ b, (s.checkStale now).1.stream sub key = { s.stream sub key with lost := b } := by
  simp only [Service.stream, Service.checkStale, Table.lookup_mapVal]
  cases s.streams.lookup key with
  | none => exact ⟨false, rfl⟩
  | some st =>
      by_cases h : st.expired now
      · exact ⟨true, by simp [StreamState.expire, h]⟩
      · exact ⟨st.lost, by simp [StreamState.expire, h]⟩

end Stream

end ProcessBus.Goose.Subscriber
