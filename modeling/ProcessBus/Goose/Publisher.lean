import ProcessBus.Goose.Pdu
import ProcessBus.Lib.Serial

/-!
# The GOOSE publisher

`internal/application/goosepub`: one publisher with its two 32-bit counters.  A run is any
interleaving of `ApplyState` and `transmitState` calls, which the source serialises with one
mutex; the clock is read at construction and at every change of state, and its readings are
inputs of the run.

Each transmitted frame is recorded with the number of state changes before it and its
position within its state (`Published`).  The counters on the wire are the serial numbers of
these two positions, with zero skipped on rollover (`publish_wf`), and a clock that does not
run backwards makes the state-change times follow the publication order (`publish_precedes`).
-/

namespace ProcessBus.Goose.Publisher

open Go Lib

/-- `goosepub.PublisherConfig`. -/
structure PublisherConfig where
  dstMAC : Bytes
  srcMAC : Bytes
  appID : UInt16
  gocbRef : Bytes
  datSet : Bytes
  goID : Bytes
  confRev : UInt32
  ndsCom : Bool
  vlan : Option VLANTag
  minMs : UInt32
  maxMs : UInt32
  initialData : List DataValue

/-- One reading of the publisher's time source: `source.Now()` and `StatusOf(source)`. -/
structure Reading where
  now : Time
  ptpEnabled : Bool
  synchronized : Bool

/-- `gooseTimeQuality`. -/
def gooseTimeQuality (r : Reading) : TimeQuality :=
  { clockNotSynchronized := !r.ptpEnabled || !r.synchronized
    accuracy := accuracyUnspecified }

/-- The mutable state of `goosepub.Service`.  `stateChangeCh` is the one-slot notification
channel to `Run`: whether it holds a token. -/
structure Service where
  cfg : PublisherConfig
  stNum : UInt32
  sqNum : UInt32
  logicalData : List DataValue
  data : List DataValue
  test : Bool
  ndsCom : Bool
  sim : Bool
  stateChanged : Time
  timeQuality : TimeQuality
  stateChangeCh : Bool

/-! ## Data trees -/

mutual

/-- One element of `resolveDataTimes`. -/
def resolveDataTime (now : Time) (quality : TimeQuality) : DataValue → DataValue
  | ⟨type, bool, int, uint, float, bytes, bitLength, string, time, tq, children⟩ =>
      ⟨type, bool, int, uint, float, bytes, bitLength, string,
        if type = .utcTime ∧ time.isZero then now else time,
        if type = .utcTime then quality else tq,
        resolveDataTimes now quality children⟩

/-- `resolveDataTimes`: unset UTC times take the time of the state change. -/
def resolveDataTimes (now : Time) (quality : TimeQuality) : List DataValue → List DataValue
  | [] => []
  | v :: vs => resolveDataTime now quality v :: resolveDataTimes now quality vs

end

/-- `cloneDataValues`: a deep copy, which is the value itself. -/
def cloneDataValues (values : List DataValue) : List DataValue := values

/-- `a == b` on two `float64` bit patterns: NaN differs from everything, and the two zeros
are equal. -/
def floatEqual (a b : UInt64) : Bool :=
  let nan (x : UInt64) : Bool := 0x7FF0000000000000 < (x &&& 0x7FFFFFFFFFFFFFFF)
  let zero (x : UInt64) : Bool := (x &&& 0x7FFFFFFFFFFFFFFF) == 0
  !nan a && !nan b && (a == b || zero a && zero b)

mutual

/-- The body of the loop in `dataValuesEqual`. -/
def dataValueEqual : DataValue → DataValue → Bool
  | ⟨type, bool, int, uint, float, bytes, bitLength, string, time, tq, children⟩,
    ⟨type', bool', int', uint', float', bytes', bitLength', string', time', tq', children'⟩ =>
      type == type' && bool == bool' && int == int' && uint == uint' &&
        floatEqual float float' && string == string' && bitLength == bitLength' &&
        tq == tq' && time == time' && bytes == bytes' && dataValuesEqual children children'

/-- `dataValuesEqual`. -/
def dataValuesEqual : List DataValue → List DataValue → Bool
  | [], [] => true
  | a :: as, b :: bs => dataValueEqual a b && dataValuesEqual as bs
  | _, _ => false

end

/-! ## Operations -/

/-- The intervals after the defaulting at the head of `New`. -/
def PublisherConfig.normalize (cfg : PublisherConfig) : PublisherConfig :=
  let minMs := if cfg.minMs == 0 then 2 else cfg.minMs
  let maxMs := if cfg.maxMs == 0 then 1000 else cfg.maxMs
  { cfg with minMs := if maxMs < minMs then maxMs else minMs, maxMs := maxMs }

/-- `New`. -/
def new (cfg : PublisherConfig) (r : Reading) : Service :=
  let cfg := cfg.normalize
  { cfg := cfg
    stNum := 1
    sqNum := 0
    logicalData := cloneDataValues cfg.initialData
    data := resolveDataTimes r.now (gooseTimeQuality r) cfg.initialData
    test := false
    ndsCom := cfg.ndsCom
    sim := false
    stateChanged := r.now
    timeQuality := gooseTimeQuality r
    stateChangeCh := false }

/-- The counter increment of both `ApplyState` and `transmitState`. -/
def bump (n : UInt32) : UInt32 := if n + 1 == 0 then 1 else n + 1

/-- `ApplyState`; `r` is the reading of the clock, made only when the state changes. -/
def Service.applyState (s : Service) (data : List DataValue) (test simulation : Bool)
    (r : Reading) : Service × Bool :=
  if dataValuesEqual s.logicalData data && s.test == test && s.sim == simulation then
    (s, false)
  else
    ({ s with
        logicalData := cloneDataValues data
        data := resolveDataTimes r.now (gooseTimeQuality r) data
        test := test
        sim := simulation
        stNum := bump s.stNum
        sqNum := 0
        stateChanged := r.now
        timeQuality := gooseTimeQuality r
        stateChangeCh := true }, true)

/-- The message that `transmitState` builds. -/
def Service.pdu (s : Service) : PDU :=
  { dstMAC := s.cfg.dstMAC
    srcMAC := s.cfg.srcMAC
    vlan := s.cfg.vlan
    appID := s.cfg.appID
    simulation := s.sim
    gocbRef := s.cfg.gocbRef
    timeAllowedToLiveMs := s.cfg.maxMs
    datSet := s.cfg.datSet
    goID := s.cfg.goID
    timestamp := s.stateChanged
    timeQuality := s.timeQuality
    stNum := s.stNum
    sqNum := s.sqNum
    test := s.test
    confRev := s.cfg.confRev
    ndsCom := s.ndsCom
    numDatSetEntries := UInt32.ofNat s.data.length
    allData := s.data }

/-- `transmitState`: the message, and the state with `sqNum` advanced.  Encoding and writing
happen outside the lock and do not touch the state; a failed write is a lost frame. -/
def Service.transmitState (s : Service) : Service × PDU :=
  ({ s with sqNum := bump s.sqNum }, s.pdu)

/-! ## Runs -/

/-- One call on the publisher. -/
inductive Op
  | applyState (data : List DataValue) (test simulation : Bool) (r : Reading)
  | transmitState

/-- A transmitted message with its place in the publication: `state` changes of state were
applied before it, and `msg` messages of its state were transmitted before it. -/
structure Published where
  state : ℕ
  msg : ℕ
  pdu : PDU

/-- The frames transmitted by a run, in order.  `state` and `msg` count what has happened
since construction, respectively since the last change of state. -/
def publish (s : Service) (state msg : ℕ) : List Op → List Published
  | [] => []
  | .applyState data test simulation r :: ops =>
      match s.applyState data test simulation r with
      | (s', true) => publish s' (state + 1) 0 ops
      | (s', false) => publish s' state msg ops
  | .transmitState :: ops =>
      ⟨state, msg, s.pdu⟩ :: publish s.transmitState.1 state (msg + 1) ops

/-- The frames of a fresh publisher. -/
def published (cfg : PublisherConfig) (r : Reading) (ops : List Op) : List Published :=
  publish (new cfg r) 0 0 ops

/-- The clock readings offered to a run. -/
def readings : List Op → List Time
  | [] => []
  | .applyState _ _ _ r :: ops => r.now :: readings ops
  | .transmitState :: ops => readings ops

/-! ## The counters -/

/-- The number of values of the two counters. -/
abbrev counterSize : ℕ := 2 ^ 32

theorem toNat_bump (n : UInt32) :
    (bump n).toNat = if n.toNat + 1 = counterSize then 1 else n.toNat + 1 := by
  have hn := n.toNat_lt
  have hadd : (n + 1).toNat = (n.toNat + 1) % 2 ^ 32 := UInt32.toNat_add n 1
  have hzero : (n + 1 == 0) = true ↔ n.toNat + 1 = 2 ^ 32 := by
    rw [beq_iff_eq, ← UInt32.toNat_inj, hadd, UInt32.toNat_zero]
    omega
  unfold bump
  by_cases h' : n.toNat + 1 = 2 ^ 32
  · rw [if_pos (hzero.mpr h'), if_pos h']
    rfl
  · rw [if_neg (mt hzero.mp h'), if_neg h', hadd]
    omega

/-- `bump` is the increment of a counter that skips zero. -/
theorem bump_toNat {n : UInt32} {k : ℕ} (h : n.toNat = skipZero counterSize k) :
    (bump n).toNat = skipZero counterSize (k + 1) := by
  rw [skipZero_step (by decide), ← h]
  exact toNat_bump n

/-- What a transmitted frame says about the run: its counters are the serial numbers of its
position, its identity is that of the configuration and its time satisfies `T`. -/
structure Published.Wf (cfg : PublisherConfig) (T : Time → Prop) (p : Published) : Prop where
  stNum : p.pdu.stNum.toNat = skipZero counterSize (p.state + 1)
  sqNum : p.pdu.sqNum.toNat = skipZero counterSize p.msg
  dstMAC : p.pdu.dstMAC = cfg.dstMAC
  appID : p.pdu.appID = cfg.appID
  gocbRef : p.pdu.gocbRef = cfg.gocbRef
  confRev : p.pdu.confRev = cfg.confRev
  timestamp : T p.pdu.timestamp

/-- `p` was transmitted before `q`: in an earlier state, or earlier in the same state, and
with a state-change time that is not later. -/
def Precedes (p q : Published) : Prop :=
  (p.state < q.state ∨ p.state = q.state ∧ p.msg < q.msg) ∧ p.pdu.timestamp ≤ q.pdu.timestamp

variable {cfg : PublisherConfig} {T : Time → Prop}

/-- The invariant of a run: the counters stand at the serial numbers of the positions. -/
structure Service.At (cfg : PublisherConfig) (T : Time → Prop) (s : Service) (state msg : ℕ) :
    Prop where
  stNum : s.stNum.toNat = skipZero counterSize (state + 1)
  sqNum : s.sqNum.toNat = skipZero counterSize msg
  cfg_eq : s.cfg = cfg.normalize
  stateChanged : T s.stateChanged

theorem new_at {r : Reading} (hr : T r.now) : (new cfg r).At cfg T 0 0 :=
  ⟨rfl, rfl, rfl, hr⟩

theorem Service.At.transmit {s : Service} {state msg : ℕ} (h : s.At cfg T state msg) :
    s.transmitState.1.At cfg T state (msg + 1) :=
  ⟨h.stNum, bump_toNat h.sqNum, h.cfg_eq, h.stateChanged⟩

/-- `ApplyState` either keeps the state or opens the next one at the time it read. -/
theorem applyState_cases (s : Service) (data : List DataValue) (test sim : Bool) (r : Reading) :
    s.applyState data test sim r = (s, false) ∨
      ∃ s', s.applyState data test sim r = (s', true) ∧ s'.stateChanged = r.now ∧
        ∀ {cfg T state msg}, s.At cfg T state msg → T r.now → s'.At cfg T (state + 1) 0 := by
  unfold Service.applyState
  split
  · exact .inl rfl
  · exact .inr ⟨_, rfl, rfl, fun h hr ↦ ⟨bump_toNat h.stNum, rfl, h.cfg_eq, hr⟩⟩

theorem Service.At.published_wf {s : Service} {state msg : ℕ} (h : s.At cfg T state msg) :
    Published.Wf cfg T ⟨state, msg, s.pdu⟩ where
  stNum := h.stNum
  sqNum := h.sqNum
  dstMAC := by simp [Service.pdu, h.cfg_eq, PublisherConfig.normalize]
  appID := by simp [Service.pdu, h.cfg_eq, PublisherConfig.normalize]
  gocbRef := by simp [Service.pdu, h.cfg_eq, PublisherConfig.normalize]
  confRev := by simp [Service.pdu, h.cfg_eq, PublisherConfig.normalize]
  timestamp := h.stateChanged

/-- Every frame of a run carries the serial numbers of its position. -/
theorem publish_wf {s : Service} {state msg : ℕ} (h : s.At cfg T state msg) {ops : List Op}
    (hT : ∀ t ∈ readings ops, T t) : ∀ p ∈ publish s state msg ops, p.Wf cfg T := by
  induction ops generalizing s state msg with
  | nil => intro p hp; cases hp
  | cons op ops ih =>
      cases op with
      | applyState data test sim r =>
          have hT' : ∀ t ∈ readings ops, T t := fun t ht ↦ hT t (List.mem_cons_of_mem _ ht)
          rcases applyState_cases s data test sim r with e | ⟨s', e, -, hs'⟩
          · simp only [publish, e]
            exact ih h hT'
          · simp only [publish, e]
            exact ih (hs' h (hT _ List.mem_cons_self)) hT'
      | transmitState =>
          intro p hp
          rcases List.mem_cons.mp hp with rfl | hp
          · exact h.published_wf
          · exact ih h.transmit hT p hp

/-- With a clock that does not run backwards, every later frame lies at or after the current
position and is not older than the current state. -/
theorem publish_from {s : Service} {state msg : ℕ} (ops : List Op)
    (hclock : (s.stateChanged :: readings ops).Pairwise (· ≤ ·)) :
    ∀ p ∈ publish s state msg ops,
      (state < p.state ∨ state = p.state ∧ msg ≤ p.msg) ∧ s.stateChanged ≤ p.pdu.timestamp := by
  induction ops generalizing s state msg with
  | nil => intro p hp; cases hp
  | cons op ops ih =>
      cases op with
      | applyState data test sim r =>
          obtain ⟨hle, htail⟩ := List.pairwise_cons.mp hclock
          rcases applyState_cases s data test sim r with e | ⟨s', e, ht, -⟩
          · simp only [publish, e]
            refine ih (List.pairwise_cons.mpr ⟨fun t hx ↦ hle t (List.mem_cons_of_mem _ hx), ?_⟩)
            exact (List.pairwise_cons.mp htail).2
          · simp only [publish, e]
            intro p hp
            obtain ⟨hpos, htime⟩ := ih (s := s') (by rw [ht]; exact htail) p hp
            rw [ht] at htime
            exact ⟨by omega, le_trans (hle _ List.mem_cons_self) htime⟩
      | transmitState =>
          intro p hp
          rcases List.mem_cons.mp hp with rfl | hp
          · exact ⟨.inr ⟨rfl, le_refl _⟩, le_refl _⟩
          · obtain ⟨hpos, htime⟩ := ih (s := s.transmitState.1) hclock p hp
            exact ⟨by omega, htime⟩

/-- The publication order is the order of positions, and times follow it. -/
theorem publish_precedes {s : Service} {state msg : ℕ} {ops : List Op}
    (hclock : (s.stateChanged :: readings ops).Pairwise (· ≤ ·)) :
    (publish s state msg ops).Pairwise Precedes := by
  induction ops generalizing s state msg with
  | nil => exact .nil
  | cons op ops ih =>
      cases op with
      | applyState data test sim r =>
          obtain ⟨hle, htail⟩ := List.pairwise_cons.mp hclock
          rcases applyState_cases s data test sim r with e | ⟨s', e, ht, -⟩
          · simp only [publish, e]
            refine ih (List.pairwise_cons.mpr ⟨fun t hx ↦ hle t (List.mem_cons_of_mem _ hx), ?_⟩)
            exact (List.pairwise_cons.mp htail).2
          · simp only [publish, e]
            exact ih (by rw [ht]; exact htail)
      | transmitState =>
          refine List.pairwise_cons.mpr ⟨fun p hp ↦ ?_, ih hclock⟩
          obtain ⟨hpos, htime⟩ := publish_from (s := s.transmitState.1) ops hclock p hp
          exact ⟨by simp only; omega, htime⟩

end ProcessBus.Goose.Publisher
