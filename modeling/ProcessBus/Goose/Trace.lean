import ProcessBus.Goose.Publisher
import Mathlib.Data.List.Range

/-!
# The wire trace of a GOOSE publisher

What an observer of the wire sees of one publisher, for any interleaving of `ApplyState` and
`transmitState`.  The frames between two changes of state form a period, and a period is
determined by one message: its frames are that message under the sequence numbers
`0, 1, 2, …`, rolling over to `1` (`period_eq`).

Against the service stands what its callers ask for (`LogicalState`): the arguments of the last call
that changed something, and the reading of the clock it made.  The frames of a run are the messages
of these states and nothing else (`publish_eq_frames`).

When a call changes the state is decided by `dataValuesEqual`.  `dataValuesEqual_iff` says what
it compares: whole trees, with the floats compared as numbers, so that the two zeros are one
value and a tree with a NaN equals nothing, itself included.
-/

namespace ProcessBus.Goose.Publisher

open Go Lib

/-! ## Equality of data trees -/

/-- The bit pattern of a binary64 NaN. -/
def isNaN (x : UInt64) : Bool := 0x7FF0000000000000 < (x &&& 0x7FFFFFFFFFFFFFFF)

/-- The bit pattern of one of the two zeros. -/
def isZeroFloat (x : UInt64) : Bool := (x &&& 0x7FFFFFFFFFFFFFFF) == 0

/-- One pattern for each number: the negative zero becomes the positive one. -/
def canonicalFloat (x : UInt64) : UInt64 := if isZeroFloat x then 0 else x

theorem isNaN_of_isZeroFloat {x : UInt64} (h : isZeroFloat x = true) : isNaN x = false := by
  rw [isZeroFloat, beq_iff_eq] at h
  rw [isNaN, h]
  rfl

theorem isZeroFloat_canonicalFloat (x : UInt64) :
    isZeroFloat (canonicalFloat x) = isZeroFloat x := by
  unfold canonicalFloat
  split
  · next h => rw [h]; rfl
  · rfl

theorem canonicalFloat_eq_iff (a b : UInt64) :
    canonicalFloat a = canonicalFloat b ↔ a = b ∨ isZeroFloat a = true ∧ isZeroFloat b = true := by
  constructor
  · intro h
    have hz : isZeroFloat a = isZeroFloat b := by
      rw [← isZeroFloat_canonicalFloat a, h, isZeroFloat_canonicalFloat]
    cases ha : isZeroFloat a with
    | true => exact .inr ⟨rfl, hz ▸ ha⟩
    | false =>
        left
        simpa [canonicalFloat, ha, ← hz] using h
  · rintro (rfl | ⟨ha, hb⟩)
    · rfl
    · simp [canonicalFloat, ha, hb]

theorem floatEqual_iff (a b : UInt64) :
    floatEqual a b = true ↔ isNaN a = false ∧ canonicalFloat a = canonicalFloat b := by
  have he : floatEqual a b =
      (!isNaN a && !isNaN b && (a == b || isZeroFloat a && isZeroFloat b)) := rfl
  rw [he, canonicalFloat_eq_iff]
  simp only [Bool.and_eq_true, Bool.not_eq_true', Bool.or_eq_true, beq_iff_eq]
  constructor
  · rintro ⟨⟨ha, -⟩, h⟩
    exact ⟨ha, h⟩
  · rintro ⟨ha, rfl | ⟨hza, hzb⟩⟩
    · exact ⟨⟨ha, ha⟩, .inl rfl⟩
    · exact ⟨⟨ha, isNaN_of_isZeroFloat hzb⟩, .inr ⟨hza, hzb⟩⟩

mutual

/-- A tree with one pattern for each number. -/
def canonical : DataValue → DataValue
  | ⟨type, bool, int, uint, float, bytes, bitLength, string, time, tq, children⟩ =>
      ⟨type, bool, int, uint, canonicalFloat float, bytes, bitLength, string, time, tq,
        canonicalAll children⟩

def canonicalAll : List DataValue → List DataValue
  | [] => []
  | v :: vs => canonical v :: canonicalAll vs

end

mutual

/-- No value of the tree is a NaN. -/
def NoNaN : DataValue → Prop
  | ⟨_, _, _, _, float, _, _, _, _, _, children⟩ => isNaN float = false ∧ NoNaNs children

def NoNaNs : List DataValue → Prop
  | [] => True
  | v :: vs => NoNaN v ∧ NoNaNs vs

end

mutual

theorem dataValueEqual_iff : ∀ a b : DataValue,
    dataValueEqual a b = true ↔ NoNaN a ∧ canonical a = canonical b
  | ⟨type, bool, int, uint, float, bytes, bitLength, string, time, tq, children⟩,
    ⟨type', bool', int', uint', float', bytes', bitLength', string', time', tq', children'⟩ => by
      have ih := dataValuesEqual_iff children children'
      simp only [dataValueEqual, Bool.and_eq_true, beq_iff_eq, floatEqual_iff, ih, NoNaN,
        canonical, DataValue.mk.injEq]
      tauto

/-- **What `dataValuesEqual` compares**: the two trees, up to the sign of zero, and no tree with
a NaN is equal to any other. -/
theorem dataValuesEqual_iff : ∀ as bs : List DataValue,
    dataValuesEqual as bs = true ↔ NoNaNs as ∧ canonicalAll as = canonicalAll bs
  | [], [] => by simp [dataValuesEqual, NoNaNs]
  | [], b :: bs => by simp [dataValuesEqual, canonicalAll]
  | a :: as, [] => by simp [dataValuesEqual, canonicalAll]
  | a :: as, b :: bs => by
      have ih := dataValuesEqual_iff as bs
      have ha := dataValueEqual_iff a b
      simp only [dataValuesEqual, Bool.and_eq_true, ha, ih, NoNaNs, canonicalAll,
        List.cons.injEq]
      tauto

end

/-! ## What the calls ask for -/

/-- A state as the callers know it: the arguments of the call that entered it, and the reading of
the clock that this call made. -/
structure LogicalState where
  data : List DataValue
  test : Bool
  simulation : Bool
  reading : Reading

namespace LogicalState

/-- The arguments of a call are those of the state, with the data compared as numbers. -/
def Same (l : LogicalState) (data : List DataValue) (test simulation : Bool) : Prop :=
  (NoNaNs l.data ∧ canonicalAll l.data = canonicalAll data) ∧
    l.test = test ∧ l.simulation = simulation

instance (l : LogicalState) (data : List DataValue) (test simulation : Bool) :
    Decidable (l.Same data test simulation) :=
  decidable_of_iff (dataValuesEqual l.data data = true ∧ l.test = test ∧ l.simulation = simulation)
    (and_congr_left' (dataValuesEqual_iff l.data data))

/-- The state before the first call. -/
def initial (cfg : PublisherConfig) (r : Reading) : LogicalState :=
  ⟨cfg.initialData, false, false, r⟩

/-- The state after a call. -/
def after (l : LogicalState) : Op → LogicalState
  | .applyState data test simulation r =>
      if l.Same data test simulation then l else ⟨data, test, simulation, r⟩
  | .transmitState => l

/-- The message of the state that was entered after `state` changes, with `msg` messages before
it. -/
def message (cfg : PublisherConfig) (l : LogicalState) (state msg : ℕ) : PDU where
  dstMAC := cfg.dstMAC
  srcMAC := cfg.srcMAC
  vlan := cfg.vlan
  appID := cfg.appID
  simulation := l.simulation
  gocbRef := cfg.gocbRef
  timeAllowedToLiveMs := if cfg.maxMs = 0 then 1000 else cfg.maxMs
  datSet := cfg.datSet
  goID := cfg.goID
  timestamp := l.reading.now
  timeQuality := gooseTimeQuality l.reading
  stNum := UInt32.ofNat (skipZero counterSize (state + 1))
  sqNum := UInt32.ofNat (skipZero counterSize msg)
  test := l.test
  confRev := cfg.confRev
  ndsCom := cfg.ndsCom
  numDatSetEntries := UInt32.ofNat l.data.length
  allData := resolveDataTimes l.reading.now (gooseTimeQuality l.reading) l.data

/-- The frames that the calls ask for. -/
def frames (cfg : PublisherConfig) (l : LogicalState) (state msg : ℕ) : List Op → List Published
  | [] => []
  | .applyState data test simulation r :: ops =>
      if l.Same data test simulation then frames cfg l state msg ops
      else frames cfg ⟨data, test, simulation, r⟩ (state + 1) 0 ops
  | .transmitState :: ops =>
      ⟨state, msg, l.message cfg state msg⟩ :: frames cfg l state (msg + 1) ops

end LogicalState

/-- The service stands at a logical state: its copies are those of the arguments, with the times
resolved at the reading. -/
structure Service.Stands (cfg : PublisherConfig) (l : LogicalState) (state msg : ℕ) (s : Service) :
    Prop where
  position : s.At cfg (fun _ ↦ True) state msg
  logicalData : s.logicalData = l.data
  data : s.data = resolveDataTimes l.reading.now (gooseTimeQuality l.reading) l.data
  test : s.test = l.test
  simulation : s.sim = l.simulation
  ndsCom : s.ndsCom = cfg.ndsCom
  stateChanged : s.stateChanged = l.reading.now
  timeQuality : s.timeQuality = gooseTimeQuality l.reading

section Stands

variable {cfg : PublisherConfig} {l : LogicalState} {state msg : ℕ} {s : Service}

theorem stands_new (r : Reading) : (new cfg r).Stands cfg (.initial cfg r) 0 0 where
  position := new_at trivial
  logicalData := rfl
  data := rfl
  test := rfl
  simulation := rfl
  ndsCom := rfl
  stateChanged := rfl
  timeQuality := rfl

theorem Service.Stands.transmit (h : s.Stands cfg l state msg) :
    s.transmitState.1.Stands cfg l state (msg + 1) :=
  { h with position := h.position.transmit }

theorem Service.Stands.same_iff (h : s.Stands cfg l state msg) (data : List DataValue)
    (test simulation : Bool) :
    (dataValuesEqual s.logicalData data && s.test == test && s.sim == simulation) = true ↔
      l.Same data test simulation := by
  rw [h.logicalData, h.test, h.simulation]
  simp only [Bool.and_eq_true, dataValuesEqual_iff, beq_iff_eq, LogicalState.Same, and_assoc]

/-- With the arguments of its state, `ApplyState` changes nothing. -/
theorem Service.Stands.apply_same (h : s.Stands cfg l state msg) {data : List DataValue}
    {test simulation : Bool} (hsame : l.Same data test simulation) (r : Reading) :
    s.applyState data test simulation r = (s, false) := by
  rw [Service.applyState, if_pos ((h.same_iff data test simulation).mpr hsame)]

/-- With any other arguments, these are the next state. -/
theorem Service.Stands.apply_other (h : s.Stands cfg l state msg) {data : List DataValue}
    {test simulation : Bool} (hother : ¬ l.Same data test simulation) (r : Reading) :
    ∃ s', s.applyState data test simulation r = (s', true) ∧
      s'.Stands cfg ⟨data, test, simulation, r⟩ (state + 1) 0 := by
  rw [Service.applyState, if_neg (mt (h.same_iff data test simulation).mp hother)]
  refine ⟨_, rfl, ⟨?_, rfl, rfl, rfl, rfl, h.ndsCom, rfl, rfl⟩⟩
  exact ⟨bump_toNat h.position.stNum, rfl, h.position.cfg_eq, trivial⟩

theorem length_resolveDataTimes (now : Time) (quality : TimeQuality) (values : List DataValue) :
    (resolveDataTimes now quality values).length = values.length := by
  induction values with
  | nil => rfl
  | cons v values ih => rw [resolveDataTimes, List.length_cons, List.length_cons, ih]

/-- The number of the next state, which skips zero. -/
theorem Service.At.stNum_next {T T' : Time → Prop} {s' : Service} {msg' : ℕ}
    (h : s.At cfg T state msg) (h' : s'.At cfg T' (state + 1) msg') :
    s'.stNum.toNat = if s.stNum.toNat = 2 ^ 32 - 1 then 1 else s.stNum.toNat + 1 := by
  have hstep := skipZero_step (M := counterSize) (by decide) (state + 1)
  have hsize : counterSize = 2 ^ 32 := rfl
  rw [h'.stNum, h.stNum, hstep]
  split <;> split <;> omega

/-- The message of the service is that of the logical state. -/
theorem Service.Stands.pdu_eq (h : s.Stands cfg l state msg) : s.pdu = l.message cfg state msg := by
  have hst := UInt32.ofNat_toNat (x := s.stNum)
  have hsq := UInt32.ofNat_toNat (x := s.sqNum)
  rw [h.position.stNum] at hst
  rw [h.position.sqNum] at hsq
  rw [Service.pdu, LogicalState.message, hst, hsq, h.position.cfg_eq, h.data, h.test, h.simulation,
    h.ndsCom, h.stateChanged, h.timeQuality, length_resolveDataTimes]
  simp [PublisherConfig.normalize]

/-- **The frames of a run are those that its calls ask for.** -/
theorem Service.Stands.publish_eq_frames (h : s.Stands cfg l state msg) (ops : List Op) :
    publish s state msg ops = l.frames cfg state msg ops := by
  induction ops generalizing s l state msg with
  | nil => rfl
  | cons op ops ih =>
      cases op with
      | applyState data test simulation r =>
          rw [LogicalState.frames]
          split_ifs with hsame
          · simp only [publish, h.apply_same hsame r]
            exact ih h
          · obtain ⟨s', he, hs'⟩ := h.apply_other hsame r
            simp only [publish, he]
            exact ih hs'
      | transmitState =>
          rw [publish, LogicalState.frames, h.pdu_eq, ih h.transmit]

end Stands

/-! ## Periods -/

/-- The state after one call. -/
def Service.step (s : Service) : Op → Service
  | .applyState data test simulation r => (s.applyState data test simulation r).1
  | .transmitState => s.transmitState.1

theorem Service.Stands.step {cfg : PublisherConfig} {l : LogicalState} {state msg : ℕ} {s : Service}
    (h : s.Stands cfg l state msg) (op : Op) :
    ∃ state' msg', (s.step op).Stands cfg (l.after op) state' msg' := by
  cases op with
  | applyState data test simulation r =>
      rw [Service.step, LogicalState.after]
      split_ifs with hsame
      · rw [h.apply_same hsame r]
        exact ⟨state, msg, h⟩
      · obtain ⟨s', he, hs'⟩ := h.apply_other hsame r
        rw [he]
        exact ⟨state + 1, 0, hs'⟩
  | transmitState => exact ⟨state, msg + 1, h.transmit⟩

/-- After any calls the service stands at the state that they ask for. -/
theorem Service.Stands.run {cfg : PublisherConfig} {l : LogicalState} {state msg : ℕ} {s : Service}
    (h : s.Stands cfg l state msg) (ops : List Op) :
    ∃ state' msg', (ops.foldl Service.step s).Stands cfg (ops.foldl .after l) state' msg' := by
  induction ops generalizing s l state msg with
  | nil => exact ⟨state, msg, h⟩
  | cons op ops ih =>
      obtain ⟨state', msg', h'⟩ := h.step op
      exact ih h'

/-- The frames transmitted after `k` changes of state and before the next one. -/
def period (ps : List Published) (k : ℕ) : List Published := ps.filter (·.state = k)

/-- The `i`-th frame of a period whose frames are copies of `pdu`. -/
def frameOf (pdu : PDU) (k i : ℕ) : Published :=
  ⟨k, i, { pdu with sqNum := UInt32.ofNat (skipZero counterSize i) }⟩

theorem publish_state_le {s : Service} {state msg : ℕ} {ops : List Op} :
    ∀ p ∈ publish s state msg ops, state ≤ p.state := by
  induction ops generalizing s state msg with
  | nil => intro p hp; cases hp
  | cons op ops ih =>
      cases op with
      | applyState data test sim r =>
          rcases applyState_cases s data test sim r with e | ⟨s', e, -, -⟩
          · simp only [publish, e]
            exact ih
          · simp only [publish, e]
            exact fun p hp ↦ Nat.le_of_succ_le (ih p hp)
      | transmitState =>
          intro p hp
          rcases List.mem_cons.mp hp with rfl | hp
          · exact le_refl _
          · exact ih p hp

theorem period_of_lt {s : Service} {state msg k : ℕ} {ops : List Op} (hk : k < state) :
    period (publish s state msg ops) k = [] := by
  refine List.filter_eq_nil_iff.mpr fun p hp ↦ ?_
  have := publish_state_le p hp
  simp only [decide_eq_true_eq]
  omega

theorem Service.At.pdu_eq_frameOf {cfg : PublisherConfig} {T : Time → Prop} {s : Service}
    {state msg : ℕ} (h : s.At cfg T state msg) : ⟨state, msg, s.pdu⟩ = frameOf s.pdu state msg := by
  rw [frameOf, ← h.sqNum, UInt32.ofNat_toNat]
  rfl

/-- The rest of the current period: the current message, numbered on from `msg`. -/
theorem period_current {cfg : PublisherConfig} {T : Time → Prop} {s : Service} {state msg : ℕ}
    (h : s.At cfg T state msg) (ops : List Op) :
    ∃ n, period (publish s state msg ops) state =
      (List.range' msg n).map (frameOf s.pdu state) := by
  induction ops generalizing s msg with
  | nil => exact ⟨0, rfl⟩
  | cons op ops ih =>
      cases op with
      | applyState data test sim r =>
          rcases applyState_cases s data test sim r with e | ⟨s', e, -, -⟩
          · simp only [publish, e]
            exact ih h
          · simp only [publish, e]
            exact ⟨0, period_of_lt (Nat.lt_succ_self state)⟩
      | transmitState =>
          obtain ⟨n, hn⟩ := ih h.transmit
          refine ⟨n + 1, ?_⟩
          rw [List.range'_succ, List.map_cons, ← h.pdu_eq_frameOf, publish, period,
            List.filter_cons_of_pos (by simp)]
          exact congrArg _ hn

/-- **A period is one message, repeated** under the sequence numbers `0, 1, 2, …`. -/
theorem period_eq {cfg : PublisherConfig} {T : Time → Prop} {s : Service} {state msg k : ℕ}
    (h : s.At cfg T state msg) (hk : state < k) (ops : List Op) (hT : ∀ t ∈ readings ops, T t) :
    ∃ pdu n, period (publish s state msg ops) k = (List.range n).map (frameOf pdu k) := by
  induction ops generalizing s state msg with
  | nil => exact ⟨s.pdu, 0, rfl⟩
  | cons op ops ih =>
      cases op with
      | applyState data test sim r =>
          have hT' : ∀ t ∈ readings ops, T t := fun t ht ↦ hT t (List.mem_cons_of_mem _ ht)
          rcases applyState_cases s data test sim r with e | ⟨s', e, -, hs'⟩
          · simp only [publish, e]
            exact ih h hk hT'
          · simp only [publish, e]
            have hat := hs' h (hT _ List.mem_cons_self)
            rcases Nat.lt_or_eq_of_le (Nat.succ_le_of_lt hk) with hlt | heq
            · exact ih hat hlt hT'
            · subst heq
              obtain ⟨n, hn⟩ := period_current hat ops
              exact ⟨s'.pdu, n, by rw [List.range_eq_range']; exact hn⟩
      | transmitState =>
          obtain ⟨pdu, n, hn⟩ := ih h.transmit hk hT
          refine ⟨pdu, n, ?_⟩
          rw [publish, period, List.filter_cons_of_neg (by simpa using hk.ne)]
          exact hn

/-- Every period of a run is of this form. -/
theorem published_period (cfg : PublisherConfig) (r : Reading) (ops : List Op) (k : ℕ) :
    ∃ pdu n, period (published cfg r ops) k = (List.range n).map (frameOf pdu k) := by
  have hat : (new cfg r).At cfg (fun _ ↦ True) 0 0 := new_at trivial
  rcases Nat.eq_zero_or_pos k with rfl | hk
  · obtain ⟨n, hn⟩ := period_current hat ops
    exact ⟨_, n, by rw [published, hn, List.range_eq_range']⟩
  · exact period_eq hat hk ops fun _ _ ↦ trivial

/-- What the frames of one period look like on the wire. -/
structure IsPeriod (ps : List Published) : Prop where
  /-- The first frame of a period has sequence number zero. -/
  first : ∀ p ∈ ps.head?, p.pdu.sqNum = 0
  /-- Every frame has the number after that of the frame before it. -/
  next : ps.IsChain fun p q ↦ q.pdu.sqNum.toNat =
    if p.pdu.sqNum.toNat = 2 ^ 32 - 1 then 1 else p.pdu.sqNum.toNat + 1
  /-- Nothing but the sequence number changes. -/
  same : ∀ p ∈ ps, ∀ q ∈ ps, q.pdu = { p.pdu with sqNum := q.pdu.sqNum }

theorem sqNum_frameOf (pdu : PDU) (k i : ℕ) :
    (frameOf pdu k i).pdu.sqNum.toNat = skipZero counterSize i :=
  UInt32.toNat_ofNat_of_lt' (skipZero_lt (by decide) i)

theorem isPeriod_map (pdu : PDU) (k n : ℕ) : IsPeriod ((List.range n).map (frameOf pdu k)) where
  first := by
    cases n with
    | zero => intro p hp; cases hp
    | succ n =>
        intro p hp
        rw [List.range_succ_eq_map, List.map_cons, List.head?_cons] at hp
        cases hp
        rfl
  next := by
    rw [List.isChain_map, List.isChain_range]
    intro i _
    rw [sqNum_frameOf, sqNum_frameOf, skipZero_step (by decide)]
    have hsize : counterSize = 2 ^ 32 := rfl
    split <;> split <;> omega
  same := by
    intro p hp q hq
    obtain ⟨i, -, rfl⟩ := List.mem_map.mp hp
    obtain ⟨j, -, rfl⟩ := List.mem_map.mp hq
    rfl

/-- **The wire trace of a publisher.**  For every interleaving of calls:

* after it, `ApplyState` with the arguments of the last call that changed the state (or, before any,
  with the initial data and no flags) changes nothing and returns `false`; with any other it returns
  `true` and moves to the next state number; `transmitState` keeps the number;
* the frames are the messages of the states so entered: each carries the data of its state with the
  times resolved, the time and the time quality of the reading, and the two flags;
* a frame transmitted after `k` changes of state carries the `k`-th state number after the first;
* the frames of each period are numbered `0, 1, 2, …` without repetition or omission, rolling over
  to `1`, and are otherwise identical. -/
theorem wire_trace (cfg : PublisherConfig) (r : Reading) (ops : List Op) :
    (∀ data test simulation r', let s := ops.foldl Service.step (new cfg r)
      let l := ops.foldl LogicalState.after (.initial cfg r)
      (l.Same data test simulation → s.applyState data test simulation r' = (s, false)) ∧
      (¬ l.Same data test simulation →
        (s.applyState data test simulation r').2 = true ∧
          (s.applyState data test simulation r').1.stNum.toNat =
            if s.stNum.toNat = 2 ^ 32 - 1 then 1 else s.stNum.toNat + 1) ∧
      s.transmitState.1.stNum = s.stNum) ∧
    published cfg r ops = LogicalState.frames cfg (.initial cfg r) 0 0 ops ∧
    (∀ p ∈ published cfg r ops, p.pdu.stNum.toNat = skipZero counterSize (p.state + 1)) ∧
    ∀ k, IsPeriod (period (published cfg r ops) k) := by
  have hat : (new cfg r).At cfg (fun _ ↦ True) 0 0 := new_at trivial
  refine ⟨fun data test sim r' ↦ ?_, (stands_new r).publish_eq_frames ops, fun p hp ↦ ?_,
    fun k ↦ ?_⟩
  · intro s l
    have hnew : (new cfg r).Stands cfg (.initial cfg r) 0 0 := stands_new r
    obtain ⟨state, msg, h⟩ := hnew.run ops
    refine ⟨fun hsame ↦ h.apply_same hsame r', fun hother ↦ ?_, rfl⟩
    obtain ⟨s', he, hs'⟩ := h.apply_other hother r'
    rw [he]
    exact ⟨rfl, h.position.stNum_next hs'.position⟩
  · exact (publish_wf hat (fun _ _ ↦ trivial) p hp).stNum
  · obtain ⟨pdu, n, hn⟩ := published_period cfg r ops k
    rw [hn]
    exact isPeriod_map pdu k n

/-- A switch and the time of its last change, which the publisher sets. -/
def switchData (on : Bool) : List DataValue :=
  [{ type := .boolean, bool := on }, { type := .utcTime }]

def switchConfig : PublisherConfig where
  dstMAC := [0x01, 0x0C, 0xCD, 0x01, 0x00, 0x01]
  srcMAC := [0x02, 0x00, 0x00, 0x00, 0x00, 0x01]
  appID := 1
  gocbRef := []
  datSet := []
  goID := []
  confRev := 1
  ndsCom := false
  vlan := none
  minMs := 2
  maxMs := 1000
  initialData := switchData false

/-- The publisher's clock, `s` seconds into 1970. -/
def switchReading (s : ℤ) : Reading := ⟨.ofUnix s 0, true, true⟩

/-- Two frames before the switch is turned on and two after it; the second call asks for the same
state again. -/
def switchCalls : List Op :=
  [.transmitState, .transmitState, .applyState (switchData true) false true (switchReading 7),
    .transmitState, .applyState (switchData true) false true (switchReading 9), .transmitState]

theorem wire_trace_switch :
    (published switchConfig (switchReading 5) switchCalls =
        LogicalState.frames switchConfig (.initial switchConfig (switchReading 5)) 0 0 switchCalls ∧
      IsPeriod (period (published switchConfig (switchReading 5) switchCalls) 1)) ∧
    (published switchConfig (switchReading 5) switchCalls).map (fun p ↦
      (p.pdu.stNum, p.pdu.sqNum, p.pdu.simulation, p.pdu.timestamp,
        p.pdu.allData.map fun v ↦ (v.bool, v.time))) =
      [(1, 0, false, .ofUnix 5 0, [(false, .zero), (false, .ofUnix 5 0)]),
        (1, 1, false, .ofUnix 5 0, [(false, .zero), (false, .ofUnix 5 0)]),
        (2, 0, true, .ofUnix 7 0, [(true, .zero), (false, .ofUnix 7 0)]),
        (2, 1, true, .ofUnix 7 0, [(true, .zero), (false, .ofUnix 7 0)])] := by
  have h := wire_trace switchConfig (switchReading 5) switchCalls
  exact ⟨⟨h.2.1, h.2.2.2 1⟩, rfl⟩

end ProcessBus.Goose.Publisher
