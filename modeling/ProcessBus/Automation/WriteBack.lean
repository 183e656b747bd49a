import Mathlib.Logic.Relation
import ProcessBus.Automation.Values
import ProcessBus.Goose.Publisher

/-!
# Reading a value and writing it back

One GOOSE publisher as MCP, the operator and the supervisor see it (`Desk`): the publisher service,
what stands in the way of a write, the values that an open page was loaded with and the outputs that
were prepared for the steps of a sequence.  `gooseGet` and `gooseSet` are the two calls of
`internal/application/automation` on it.

Every entry keeps to its configured type in every reachable state (`Reachable.fits`), and so a value
that was read can be written back and changes nothing (`write_back`), as long as the stream is free,
its publisher runs, its frames fit into Ethernet and a time is one that a `UtcTime` can carry.
-/

namespace ProcessBus.Automation

open Go Goose Goose.Publisher

/-! ## The catalogue -/

/-- `config.GooseDatasetEntry`. -/
structure DatasetEntry where
  name : String
  type : String

/-- The signal of entry `i` of a publisher. -/
def entrySignal (id : String) (e : DatasetEntry) (i : ℕ) : Signal :=
  { id := id ++ "/entry/" ++ toString i
    name := if e.name = "" then s!"Entry{i + 1}" else e.name
    type := signalKind e.type }

/-- The stream of a publisher in the catalogue that `Generate` makes. -/
def publisherStream (id name : String) (dataset : List DatasetEntry) : Stream :=
  ⟨id, name, dataset.zipIdx.map fun e ↦ entrySignal id e.1 e.2⟩

/-- `buildGooseDatasetInitialData`, from item `i` on. -/
def buildGooseDatasetInitialData : ℕ → List DatasetEntry → Except String (List DataValue)
  | _, [] => .ok []
  | i, e :: es =>
      match gooseDatasetEntryDefaultValue e.type with
      | .error err => .error (s!"item #{i} \"" ++ e.name ++ "\": " ++ err)
      | .ok v => (buildGooseDatasetInitialData (i + 1) es).map (v :: ·)

/-- The header that `Prepare` reserves: the counters are as long as they get. -/
def reservedHeader (cfg : PublisherConfig) : PDU where
  dstMAC := []
  srcMAC := []
  vlan := none
  appID := 0
  simulation := false
  gocbRef := cfg.gocbRef
  timeAllowedToLiveMs := 0xFFFFFFFF
  datSet := cfg.datSet
  goID := cfg.goID
  timestamp := .zero
  timeQuality := {}
  stNum := 0xFFFFFFFF
  sqNum := 0xFFFFFFFF
  test := false
  confRev := cfg.confRev
  ndsCom := false
  numDatSetEntries := 0
  allData := []

/-- One publisher of a project: what was configured, and what `Prepare` made of it. -/
structure Output where
  project : Project Json
  id : String
  name : String
  dataset : List DatasetEntry
  config : PublisherConfig
  stream_eq : project.streams id = some (publisherStream id name dataset)
  output : hasPrefix id "goose_pub/" = true
  decode_eq : project.decodeGooseValue = decodeGooseValue
  header_eq : project.gooseHeaders name = reservedHeader config
  initial_eq : buildGooseDatasetInitialData 0 dataset = .ok config.initialData

def Output.stream (c : Output) : Stream := publisherStream c.id c.name c.dataset

/-! ## The calls -/

/-- The publisher and what is around it.  `ready`, `busy` and `lease` are the errors of `ready`,
`streamIdle` and the agent's `valid`. -/
structure Desk where
  pub : Service
  running : Bool := true
  ready : Option String := none
  busy : Option String := none
  lease : Option String := none
  shown : Option (List DataValue) := none
  planned : List GooseOutput := []

/-- `Snapshot`, without the time of the last change. -/
def Desk.snapshot (d : Desk) : GooseOutput := ⟨d.pub.logicalData, d.pub.test, d.pub.sim⟩

/-- `if err != nil { return err }`. -/
def check : Option String → Except String Unit
  | none => .ok ()
  | some err => .error err

/-- `GooseState` of an output. -/
structure GooseState where
  streamID : String
  catalogRevision : String
  direction : String
  available : Bool
  fresh : Bool
  schemaMatched : Bool
  changedAt : Time
  test : Bool
  simulation : Bool
  warning : String
  values : List SignalValue

/-- `GooseGet` of an output. -/
def Desk.gooseGet (c : Output) (d : Desk) : Except String GooseState := do
  check d.ready
  let s ← c.project.stream c.id "goose" false
  check d.lease
  let schemaMatched := s.signals.length == d.pub.logicalData.length
  return {
    streamID := c.id
    catalogRevision := c.project.revision
    direction := "output"
    available := true
    fresh := d.running
    schemaMatched := schemaMatched
    changedAt := d.pub.stateChanged
    test := d.pub.test
    simulation := d.pub.sim
    warning := "Configured output, not confirmation of delivery to the terminal."
    values := d.pub.logicalData.zipIdx.map fun v ↦
      signalValue v.1 s!"Entry{v.2 + 1}" (if schemaMatched then s.signals[v.2]? else none) }

/-- `Applied`. -/
structure Applied where
  applied : Bool
  changed : Bool
  catalogRevision : String
  note : String := "Applied to publisher state; does not confirm terminal reception."

/-- `ApplyGoose`, and the answer; `r` is the reading of the clock if the state changes. -/
def Desk.write (c : Output) (d : Desk) (next : GooseOutput) (r : Reading) : Applied × Desk :=
  let (pub, changed) := d.pub.applyState next.data next.test next.simulation r
  ({ applied := true, changed, catalogRevision := c.project.revision }, { d with pub })

/-- `GooseSet` on this stream. -/
def Desk.gooseSet (c : Output) (d : Desk) (revision : String) (changes : List (GooseChange Json))
    (r : Reading) : Except String (Applied × Desk) := do
  check d.ready
  check d.busy
  let s ← c.project.stream c.id "goose" true
  check d.lease
  if !d.running then throw "GOOSE publisher is not running"
  let next ← c.project.prepareGoose ⟨c.id, revision, changes⟩ s d.snapshot
  return d.write c next r

/-! ## Runs -/

/-- Every entry of a dataset and its value are related by `R`, which also gets their position. -/
def Each (dataset : List DatasetEntry) (data : List DataValue)
    (R : ℕ → String → DataValue → Prop) : Prop :=
  data.length = dataset.length ∧
    ∀ i e v, dataset[i]? = some e → data[i]? = some v → R i e.type v

/-- What may happen to a publisher. -/
inductive Step (c : Output) : Desk → Desk → Prop
  /-- The supervisor starts the module. -/
  | start (d : Desk) (r : Reading) : Step c d { d with pub := new c.config r, running := true }
  /-- The module stops, the sources change, the agent loses its lease, a run begins or ends. -/
  | around (d : Desk) (running : Bool) (ready busy lease : Option String) :
      Step c d { d with running, ready, busy, lease }
  /-- A page is opened and its controls are loaded. -/
  | load (d : Desk) : Step c d { d with shown := some d.pub.logicalData }
  /-- The operator applies what stands in the controls. -/
  | enter (d : Desk) {data : List DataValue} (test simulation : Bool) (r : Reading) :
      Each c.dataset data (fun i type v ↦ Entered (d.shown.bind (·[i]?)) type v) →
      Step c d { d with pub := (d.pub.applyState data test simulation r).1 }
  /-- A step of a sequence is prepared, after the output or after the step before it. -/
  | plan (d : Desk) {req : GooseSetRequest Json} {last next : GooseOutput} :
      (last = d.snapshot ∨ last ∈ d.planned) → c.project.prepareGoose req c.stream last = .ok next →
      Step c d { d with planned := next :: d.planned }
  /-- A step of a sequence is applied. -/
  | apply (d : Desk) {next : GooseOutput} (r : Reading) : next ∈ d.planned →
      Step c d { d with pub := (d.pub.applyState next.data next.test next.simulation r).1 }
  /-- A client writes. -/
  | set {d d' : Desk} {revision : String} {changes : List (GooseChange Json)} {r : Reading}
      {out : Applied} : d.gooseSet c revision changes r = .ok (out, d') → Step c d d'
  /-- A frame is sent. -/
  | transmit (d : Desk) : Step c d { d with pub := d.pub.transmitState.1 }

/-- The states of a publisher since it was started. -/
def Reachable (c : Output) (d : Desk) : Prop :=
  ∃ r, Relation.ReflTransGen (Step c) { pub := new c.config r } d

/-! ## Every entry keeps to its type -/

variable {c : Output} {d d' : Desk}

/-- Every entry has a value of its configured type. -/
def Output.Fits (c : Output) (data : List DataValue) : Prop :=
  Each c.dataset data fun _ type v ↦ Holds type v

theorem buildInitialData_each {i : ℕ} {dataset : List DatasetEntry} {data : List DataValue}
    (h : buildGooseDatasetInitialData i dataset = .ok data) :
    Each dataset data fun _ type v ↦ Holds type v := by
  induction dataset generalizing i data with
  | nil =>
      cases h
      exact ⟨rfl, nofun⟩
  | cons e es ih =>
      rw [buildGooseDatasetInitialData] at h
      split at h
      · cases h
      · rename_i v hv
        cases hes : buildGooseDatasetInitialData (i + 1) es with
        | error err => simp [hes, Except.map] at h
        | ok vs =>
            obtain ⟨hlen, hall⟩ := ih hes
            obtain rfl : v :: vs = data := by simpa [hes, Except.map] using h
            refine ⟨congrArg (· + 1) hlen, fun j e' v' he hv' ↦ ?_⟩
            cases j with
            | zero =>
                cases he
                cases hv'
                exact .default hv
            | succ j => exact hall j e' v' he hv'

/-- The signal found for an identifier is that of its entry. -/
theorem Output.signal_eq {sig : Signal} {i : ℕ} (h : (sig, i) ∈ c.stream.signals.zipIdx) :
    ∃ e, c.dataset[i]? = some e ∧ sig = entrySignal c.id e i := by
  rw [List.mk_mem_zipIdx_iff_getElem?] at h
  simp only [stream, publisherStream, List.getElem?_map, List.getElem?_zipIdx, Option.map_map,
    Option.map_eq_some_iff] at h
  obtain ⟨e, he, rfl⟩ := h
  exact ⟨e, he, by simp⟩

/-- A change that is accepted puts a value of the right type into its place. -/
theorem changeEntries_fits {changes : List (GooseChange Json)} {seen : List String}
    {data data' : List DataValue} (hdata : c.Fits data)
    (h : c.project.changeEntries c.stream changes seen data = .ok data') : c.Fits data' := by
  induction changes generalizing seen data with
  | nil =>
      cases h
      exact hdata
  | cons change changes ih =>
      rw [Project.changeEntries] at h
      split_ifs at h
      split at h
      · cases h
      · rename_i sig index hfind
        split at h
        · cases h
        · rename_i value hvalue
          refine ih ⟨?_, fun i e v he hv ↦ ?_⟩ h
          · rw [List.length_set]
            exact hdata.1
          · obtain ⟨e', he', rfl⟩ := c.signal_eq (List.mem_of_find?_eq_some hfind)
            by_cases hi : index = i
            · subst hi
              obtain rfl : e' = e := by simpa [he'] using he
              have hlt : index < data.length := by
                have := (List.getElem?_eq_some_iff.mp hv).1
                rwa [List.length_set] at this
              obtain rfl : value = v := by simpa [List.getElem?_set_self hlt] using hv
              rw [c.decode_eq] at hvalue
              exact .decoded hvalue
            · rw [List.getElem?_set_ne hi] at hv
              exact hdata.2 i e v he hv

/-- The frame that `prepareGoose` measures. -/
def Output.frame (c : Output) (data : List DataValue) : PDU :=
  { reservedHeader c.config with allData := data, numDatSetEntries := UInt32.ofNat data.length }

/-- The frame fits into Ethernet. -/
def Output.FitsFrame (c : Output) (data : List DataValue) : Prop :=
  (encode (c.frame data)).length - 14 ≤ 1500

instance (data : List DataValue) : Decidable (c.FitsFrame data) :=
  inferInstanceAs (Decidable (_ ≤ _))

/-- `prepareGoose` on this stream, check by check. -/
theorem prepareGoose_eq (req : GooseSetRequest Json) (last : GooseOutput) :
    c.project.prepareGoose req c.stream last =
      if req.revision ≠ c.project.revision then
        .error "catalog_revision mismatch; call get_catalog"
      else if req.changes.length = 0 ∨ c.stream.signals.length < req.changes.length then
        .error "changes must contain distinct configured signals"
      else if last.data.length ≠ c.stream.signals.length then
        .error "publisher schema differs from catalog"
      else
        match c.project.changeEntries c.stream req.changes [] last.data with
        | .error err => .error err
        | .ok data =>
            if c.FitsFrame data then .ok { last with data }
            else .error "GOOSE data exceeds standard Ethernet MTU" := by
  unfold Project.prepareGoose
  refine ite_congr rfl (fun _ ↦ rfl) fun _ ↦ ?_
  refine ite_congr rfl (fun _ ↦ rfl) fun _ ↦ ?_
  refine ite_congr rfl (fun _ ↦ rfl) fun _ ↦ ?_
  have hheader : c.project.gooseHeaders c.stream.name = reservedHeader c.config := c.header_eq
  rw [hheader]
  cases c.project.changeEntries c.stream req.changes [] last.data with
  | error err => rfl
  | ok data =>
      by_cases hfits : c.FitsFrame data
      · exact (if_neg (Nat.not_lt.mpr hfits)).trans (if_pos hfits).symm
      · exact (if_pos (Nat.lt_of_not_le hfits)).trans (if_neg hfits).symm

theorem prepareGoose_fits {req : GooseSetRequest Json} {last next : GooseOutput}
    (hlast : c.Fits last.data) (h : c.project.prepareGoose req c.stream last = .ok next) :
    c.Fits next.data := by
  rw [prepareGoose_eq] at h
  split_ifs at h
  split at h
  · cases h
  · rename_i data hdata
    split_ifs at h
    cases h
    exact changeEntries_fits hlast hdata

theorem applyState_logicalData (s : Service) (data : List DataValue) (test simulation : Bool)
    (r : Reading) : (s.applyState data test simulation r).1.logicalData = s.logicalData ∨
      (s.applyState data test simulation r).1.logicalData = data := by
  unfold Service.applyState
  split
  · exact .inl rfl
  · exact .inr rfl

/-- The stream is found, as an output too. -/
theorem Output.stream_ok (c : Output) (outputOnly : Bool) :
    c.project.stream c.id "goose" outputOnly = .ok c.stream := by
  have hpub : hasPrefix c.id ("goose" ++ "_pub/") = true := c.output
  unfold Project.stream
  rw [c.stream_eq]
  simp only [hpub]
  rfl

/-- `gooseSet` on a running publisher that nothing keeps from it. -/
theorem gooseSet_eq (revision : String) (changes : List (GooseChange Json)) (r : Reading)
    (hready : d.ready = none) (hbusy : d.busy = none) (hlease : d.lease = none)
    (hrunning : d.running = true) :
    d.gooseSet c revision changes r =
      (c.project.prepareGoose ⟨c.id, revision, changes⟩ c.stream d.snapshot).map
        fun next ↦ d.write c next r := by
  unfold Desk.gooseSet
  rw [hready, hbusy, hlease, hrunning, c.stream_ok]
  cases hprepare : c.project.prepareGoose ⟨c.id, revision, changes⟩ c.stream d.snapshot with
  | error err => simp [check, hprepare, bind, Except.bind, Except.map]
  | ok next => simp [check, hprepare, bind, Except.bind, Except.map, pure, Except.pure, Desk.write]

/-- What `gooseSet` does, once it is done. -/
theorem gooseSet_ok {revision : String} {changes : List (GooseChange Json)} {r : Reading}
    {out : Applied} (h : d.gooseSet c revision changes r = .ok (out, d')) :
    ∃ next, c.project.prepareGoose ⟨c.id, revision, changes⟩ c.stream d.snapshot = .ok next ∧
      (out, d') = d.write c next r := by
  cases hready : d.ready with
  | some err => simp [Desk.gooseSet, hready, check, bind, Except.bind] at h
  | none =>
      cases hbusy : d.busy with
      | some err => simp [Desk.gooseSet, hready, hbusy, check, bind, Except.bind] at h
      | none =>
          cases hlease : d.lease with
          | some err =>
              simp [Desk.gooseSet, hready, hbusy, hlease, c.stream_ok, check, bind,
                Except.bind] at h
          | none =>
              cases hrunning : d.running with
              | false =>
                  simp [Desk.gooseSet, hready, hbusy, hlease, hrunning, c.stream_ok, check, bind,
                    Except.bind, throw, throwThe, MonadExceptOf.throw] at h
              | true =>
                  rw [gooseSet_eq _ _ _ hready hbusy hlease hrunning] at h
                  cases hnext : c.project.prepareGoose ⟨c.id, revision, changes⟩ c.stream
                      d.snapshot with
                  | error err => simp [hnext, Except.map] at h
                  | ok next => exact ⟨next, rfl, by simpa [hnext, Except.map] using h.symm⟩

/-- The values of every kind that a desk keeps. -/
structure Desk.Typed (c : Output) (d : Desk) : Prop where
  pub : c.Fits d.pub.logicalData
  shown : ∀ data, d.shown = some data → c.Fits data
  planned : ∀ next ∈ d.planned, c.Fits next.data

theorem Desk.Typed.step (h : d.Typed c) (hstep : Step c d d') : d'.Typed c := by
  -- A write puts in new values or keeps the old ones.
  have hwrite : ∀ {data : List DataValue} (test simulation : Bool) (r : Reading), c.Fits data →
      Desk.Typed c { d with pub := (d.pub.applyState data test simulation r).1 } := by
    intro data test simulation r hdata
    refine ⟨?_, h.shown, h.planned⟩
    rcases applyState_logicalData d.pub data test simulation r with e | e
    · simpa only [e] using h.pub
    · simpa only [e] using hdata
  cases hstep with
  | start r => exact ⟨buildInitialData_each c.initial_eq, h.shown, h.planned⟩
  | around running ready busy lease => exact ⟨h.pub, h.shown, h.planned⟩
  | load =>
      refine ⟨h.pub, ?_, h.planned⟩
      rintro data ⟨⟩
      exact h.pub
  | enter test simulation r hdata =>
      refine hwrite test simulation r ⟨hdata.1, fun i e v he hv ↦ ?_⟩
      refine (hdata.2 i e v he hv).holds fun w hw ↦ ?_
      obtain ⟨data, hshown, hw⟩ := Option.bind_eq_some_iff.mp hw
      exact (h.shown data hshown).2 i e w he hw
  | @plan req last next hlast hnext =>
      have hfits : c.Fits last.data := by
        rcases hlast with rfl | hlast
        · exact h.pub
        · exact h.planned last hlast
      refine ⟨h.pub, h.shown, fun o ho ↦ ?_⟩
      rcases List.mem_cons.mp ho with rfl | ho
      · exact prepareGoose_fits hfits hnext
      · exact h.planned o ho
  | apply r hnext => exact hwrite _ _ r (h.planned _ hnext)
  | set hset =>
      obtain ⟨next, hnext, hout⟩ := gooseSet_ok hset
      obtain ⟨-, rfl⟩ := Prod.mk.inj hout
      exact hwrite _ _ _ (prepareGoose_fits h.pub hnext)
  | transmit => exact ⟨h.pub, h.shown, h.planned⟩

/-- **Every entry has a value of its configured type in every reachable state.** -/
theorem Reachable.fits (h : Reachable c d) : c.Fits d.pub.logicalData := by
  obtain ⟨r, hrun⟩ := h
  have htyped : d.Typed c := by
    induction hrun with
    | refl => exact ⟨buildInitialData_each c.initial_eq, nofun, nofun⟩
    | tail _ hstep ih => exact ih.step hstep
  exact htyped.pub

/-! ## Reading and writing back -/

/-- The identifiers of the entries differ. -/
theorem entrySignal_id_inj {id : String} {e e' : DatasetEntry} {i j : ℕ}
    (h : (entrySignal id e i).id = (entrySignal id e' j).id) : i = j := by
  have hdigits : Nat.toDigits 10 i = Nat.toDigits 10 j := by
    have := congrArg String.toList h
    simpa [entrySignal, Nat.toList_repr] using this
  rw [← Nat.ofDigitChars_ten_toDigits (n := i), hdigits, Nat.ofDigitChars_ten_toDigits]

/-- The identifier of an entry finds its signal and its place. -/
theorem Output.find_entry {i : ℕ} {e : DatasetEntry} (he : c.dataset[i]? = some e) :
    c.stream.signals.zipIdx.find? (·.1.id == (entrySignal c.id e i).id) =
      some (entrySignal c.id e i, i) := by
  have hmem : (entrySignal c.id e i, i) ∈ c.stream.signals.zipIdx := by
    rw [List.mk_mem_zipIdx_iff_getElem?]
    simp [stream, publisherStream, he]
  cases hfind : c.stream.signals.zipIdx.find? (·.1.id == (entrySignal c.id e i).id) with
  | none => exact absurd (beq_self_eq_true _) (List.find?_eq_none.mp hfind _ hmem)
  | some found =>
      obtain ⟨sig, j⟩ := found
      obtain ⟨e', he', rfl⟩ := c.signal_eq (List.mem_of_find?_eq_some hfind)
      have hid := List.find?_some hfind
      obtain rfl := entrySignal_id_inj (eq_of_beq hid)
      obtain rfl : e' = e := by simpa [he'] using he
      rfl

theorem signalValue_id (v : DataValue) (name : String) (sig : Signal) :
    (signalValue v name (some sig)).id = sig.id := by
  cases v
  rw [signalValue]
  rfl

theorem signalValue_value (v : DataValue) (name : String) (sig : Signal) :
    (signalValue v name (some sig)).value = shownValue v sig.type := by
  cases v
  rw [signalValue]
  rfl

/-- A value of an entry equals itself: it is no NaN. -/
theorem Holds.equal_self {type : String} {v : DataValue} (h : Holds type v) :
    dataValueEqual v v = true := by
  cases h with
  | float x hx =>
      have hmagnitude : (x &&& 0x7FFFFFFFFFFFFFFF).toNat = x.toNat % 2 ^ 63 := by
        rw [UInt64.toNat_and]
        exact Nat.and_two_pow_sub_one_eq_mod _ 63
      have hnumber : ¬ 0x7FF0000000000000 < x &&& 0x7FFFFFFFFFFFFFFF := by
        rw [UInt64.lt_iff_toNat_lt, hmagnitude]
        exact Nat.not_lt.mpr (Nat.le_trans (of_decide_eq_true hx) (by decide))
      simp [dataValueEqual, dataValuesEqual, floatEqual, hnumber]
  | bool b => simp [dataValueEqual, dataValuesEqual, floatEqual]
  | quality mask => simp [newQualityBitString, dataValueEqual, dataValuesEqual, floatEqual]
  | int x => simp [dataValueEqual, dataValuesEqual, floatEqual]
  | uint x => simp [dataValueEqual, dataValuesEqual, floatEqual]
  | string text => simp [dataValueEqual, dataValuesEqual, floatEqual]
  | utcTime t => simp [dataValueEqual, dataValuesEqual, floatEqual]

theorem Output.Fits.equal_self {data : List DataValue} (h : c.Fits data) :
    dataValuesEqual data data = true := by
  have hself : ∀ v ∈ data, dataValueEqual v v = true := by
    intro v hv
    obtain ⟨i, hi⟩ := List.mem_iff_getElem?.mp hv
    have hlt : i < c.dataset.length := h.1 ▸ (List.getElem?_eq_some_iff.mp hi).1
    exact (h.2 i _ v (List.getElem?_eq_getElem hlt) hi).equal_self
  clear h
  induction data with
  | nil => rfl
  | cons v vs ih =>
      rw [dataValuesEqual, hself v List.mem_cons_self, Bool.true_and]
      exact ih fun w hw ↦ hself w (List.mem_cons_of_mem v hw)

/-- What a successful `gooseGet` shows of entry `i`. -/
theorem gooseGet_values (hfits : c.Fits d.pub.logicalData) {out : GooseState}
    (h : d.gooseGet c = .ok out) {i : ℕ} {v : SignalValue} (hv : out.values[i]? = some v) :
    d.ready = none ∧ d.lease = none ∧ out.catalogRevision = c.project.revision ∧
      ∃ e w, c.dataset[i]? = some e ∧ d.pub.logicalData[i]? = some w ∧
        v.id = (entrySignal c.id e i).id ∧ v.value = shownValue w (signalKind e.type) := by
  unfold Desk.gooseGet at h
  cases hready : d.ready with
  | some err => simp [hready, check, bind, Except.bind] at h
  | none =>
      cases hlease : d.lease with
      | some err => simp [hready, hlease, c.stream_ok, check, bind, Except.bind] at h
      | none =>
          have hlength : (c.stream.signals.length == d.pub.logicalData.length) = true := by
            rw [beq_iff_eq, hfits.1]
            simp [Output.stream, publisherStream]
          simp only [hready, hlease, c.stream_ok, check, bind, Except.bind, pure, Except.pure,
            hlength, if_true, Except.ok.injEq] at h
          subst h
          simp only [List.getElem?_map, List.getElem?_zipIdx, Option.map_map,
            Option.map_eq_some_iff] at hv
          obtain ⟨w, hw, rfl⟩ := hv
          have hlt : i < c.dataset.length := hfits.1 ▸ (List.getElem?_eq_some_iff.mp hw).1
          have he := List.getElem?_eq_getElem hlt
          have hsignal : c.stream.signals[i]? = some (entrySignal c.id c.dataset[i] i) := by
            simp [Output.stream, publisherStream, he]
          refine ⟨rfl, rfl, rfl, c.dataset[i], w, he, hw, ?_, ?_⟩
          · simp [hsignal, signalValue_id]
          · simp [hsignal, signalValue_value, entrySignal]

/-- One entry, written with the value that it has. -/
theorem changeEntries_self {data : List DataValue} {i : ℕ} {e : DatasetEntry} {w : DataValue}
    (hfits : c.Fits data) (he : c.dataset[i]? = some e) (hw : data[i]? = some w)
    (htime : w.type = .utcTime → InUtcRange w.time) :
    c.project.changeEntries c.stream
      [⟨(entrySignal c.id e i).id, shownValue w (signalKind e.type)⟩] [] data = .ok data := by
  have hread : c.project.decodeGooseValue (entrySignal c.id e i).type
      (shownValue w (signalKind e.type)) = .ok w := by
    rw [c.decode_eq]
    exact decode_shownValue (hfits.2 i e w he hw) htime
  have hset : data.set i w = data := by
    obtain ⟨hi, rfl⟩ := List.getElem?_eq_some_iff.mp hw
    exact List.set_getElem_self hi
  simp only [Project.changeEntries, List.not_mem_nil, if_false, c.find_entry he, hread, hset]

/-- Writing back what was read comes down to the length of the frame. -/
theorem gooseSet_read (h : Reachable c d) {out : GooseState} (hget : d.gooseGet c = .ok out)
    (hidle : d.busy = none) (hrunning : d.running = true) {i : ℕ} {v : SignalValue}
    (hv : out.values[i]? = some v)
    (htime : ∀ w, d.pub.logicalData[i]? = some w → w.type = .utcTime → InUtcRange w.time)
    (r : Reading) :
    d.gooseSet c out.catalogRevision [⟨v.id, v.value⟩] r =
      if c.FitsFrame d.pub.logicalData then
        .ok ({ applied := true, changed := false, catalogRevision := c.project.revision }, d)
      else .error "GOOSE data exceeds standard Ethernet MTU" := by
  obtain ⟨hready, hlease, hrevision, e, w, he, hw, hid, hvalue⟩ := gooseGet_values h.fits hget hv
  have hchange := changeEntries_self h.fits he hw (htime w hw)
  have hcount : c.stream.signals.length = c.dataset.length := by
    simp [Output.stream, publisherStream]
  have hnonempty : 0 < c.dataset.length :=
    Nat.zero_lt_of_lt (List.getElem?_eq_some_iff.mp he).1
  have hform : ¬ ([(⟨v.id, v.value⟩ : GooseChange Json)].length = 0 ∨
      c.stream.signals.length < [(⟨v.id, v.value⟩ : GooseChange Json)].length) := by
    rw [hcount]
    exact not_or.mpr ⟨Nat.succ_ne_zero 0, Nat.not_lt.mpr hnonempty⟩
  have hlength : ¬ d.snapshot.data.length ≠ c.stream.signals.length :=
    not_not.mpr (h.fits.1.trans hcount.symm)
  have hprepare : c.project.prepareGoose ⟨c.id, c.project.revision, [⟨v.id, v.value⟩]⟩ c.stream
      d.snapshot = if c.FitsFrame d.pub.logicalData then .ok d.snapshot
        else .error "GOOSE data exceeds standard Ethernet MTU" := by
    rw [prepareGoose_eq, if_neg (not_not.mpr rfl), if_neg hform, if_neg hlength, hid, hvalue,
      Desk.snapshot, hchange]
  -- Nothing changes, since every entry equals itself.
  have hsame : d.pub.applyState d.pub.logicalData d.pub.test d.pub.sim r = (d.pub, false) := by
    simp [Service.applyState, h.fits.equal_self]
  rw [hrevision, gooseSet_eq _ _ _ hready hidle hlease hrunning, hprepare]
  split
  · simp [Except.map, Desk.write, Desk.snapshot, hsame]
  · rfl

/-- **A value that was read can be written back, and changes nothing.** -/
theorem write_back (h : Reachable c d) {out : GooseState} (hget : d.gooseGet c = .ok out)
    (hidle : d.busy = none) (hrunning : d.running = true) (hframe : c.FitsFrame d.pub.logicalData)
    {i : ℕ} {v : SignalValue} (hv : out.values[i]? = some v)
    (htime : ∀ w, d.pub.logicalData[i]? = some w → w.type = .utcTime → InUtcRange w.time)
    (r : Reading) :
    d.gooseSet c out.catalogRevision [⟨v.id, v.value⟩] r =
      .ok ({ applied := true, changed := false, catalogRevision := c.project.revision }, d) := by
  rw [gooseSet_read h hget hidle hrunning hv htime r, if_pos hframe]

/-! ## What stands in the way -/

/-- The only publisher of a project. -/
def onlyOutput (dataset : List DatasetEntry) (initial : List DataValue)
    (h : buildGooseDatasetInitialData 0 dataset = .ok initial) : Output where
  project :=
    { revision := "1"
      streams := fun id ↦
        if id = "goose_pub/Trip" then some (publisherStream id "Trip" dataset) else none
      descriptions := fun _ ↦ none
      gooseHeaders := fun _ ↦ reservedHeader
        ⟨[], [], 0, [], [], [], 1, false, none, 0, 0, initial⟩
      decodeGooseValue := decodeGooseValue
      streams_id := by
        intro id s hs
        split_ifs at hs
        cases hs
        rfl }
  id := "goose_pub/Trip"
  name := "Trip"
  dataset := dataset
  config := ⟨[], [], 0, [], [], [], 1, false, none, 0, 0, initial⟩
  stream_eq := rfl
  output := by decide
  decode_eq := rfl
  header_eq := rfl
  initial_eq := h

/-- A trip and its time. -/
def tripOutput : Output :=
  onlyOutput [⟨"Trip", "bool"⟩, ⟨"Trip.t", "utc_time"⟩] [{ type := .boolean }, { type := .utcTime }]
    rfl

/-- A clock that stands still. -/
def standingClock : Reading := ⟨.ofUnix 0 0, false, false⟩

/-- The publisher just after it was started. -/
def freshDesk (c : Output) : Desk := { pub := new c.config standingClock }

theorem freshDesk_reachable (c : Output) : Reachable c (freshDesk c) := ⟨standingClock, .refl⟩

theorem write_back_trip :
    ∃ out v, (freshDesk tripOutput).gooseGet tripOutput = .ok out ∧ out.values[0]? = some v ∧
      (freshDesk tripOutput).gooseSet tripOutput out.catalogRevision [⟨v.id, v.value⟩]
        standingClock = .ok (⟨true, false, "1",
          "Applied to publisher state; does not confirm terminal reception."⟩,
          freshDesk tripOutput) := by
  refine ⟨_, _, rfl, rfl, ?_⟩
  refine write_back (freshDesk_reachable tripOutput) rfl rfl rfl ?_ (i := 0) rfl ?_ standingClock
  · decide +kernel
  · rintro w ⟨⟩ htype
    cases htype

/-- The value of entry `i` is read, and writing it back is refused. -/
def Desk.Refused (c : Output) (d : Desk) (i : ℕ) (err : String) : Prop :=
  ∃ out v, d.gooseGet c = .ok out ∧ out.values[i]? = some v ∧
    ∀ r, d.gooseSet c out.catalogRevision [⟨v.id, v.value⟩] r = .error err

theorem buildInitialData_bools (n i : ℕ) :
    buildGooseDatasetInitialData i (List.replicate n ⟨"Trip", "bool"⟩) =
      .ok (List.replicate n { type := .boolean }) := by
  induction n generalizing i with
  | zero => rfl
  | succ n ih =>
      rw [List.replicate_succ, buildGooseDatasetInitialData, ih]
      rfl

/-- Six hundred trips, too many for one frame. -/
def manyOutput : Output :=
  onlyOutput (List.replicate 600 ⟨"Trip", "bool"⟩) (List.replicate 600 { type := .boolean })
    (buildInitialData_bools 600 0)

theorem manyOutput_refused : Desk.Refused manyOutput (freshDesk manyOutput) 0
    "GOOSE data exceeds standard Ethernet MTU" := by
  have hlong : ¬ manyOutput.FitsFrame (freshDesk manyOutput).pub.logicalData := by decide +kernel
  refine ⟨_, _, rfl, rfl, fun r ↦ ?_⟩
  refine (gooseSet_read (freshDesk_reachable manyOutput) rfl rfl rfl (i := 0) rfl ?_ r).trans
    (if_neg hlong)
  rintro w ⟨⟩ htype
  cases htype

theorem write_back_refused :
    (Reachable tripOutput { freshDesk tripOutput with running := false } ∧
      Desk.Refused tripOutput { freshDesk tripOutput with running := false } 0
        "GOOSE publisher is not running") ∧
    (Reachable tripOutput { freshDesk tripOutput with busy := some "stream is controlled" } ∧
      Desk.Refused tripOutput { freshDesk tripOutput with busy := some "stream is controlled" } 0
        "stream is controlled") ∧
    (Reachable tripOutput (freshDesk tripOutput) ∧
      Desk.Refused tripOutput (freshDesk tripOutput) 1
        "goose_pub/Trip/entry/1: UTC time is outside the protocol range") ∧
    (Reachable manyOutput (freshDesk manyOutput) ∧
      Desk.Refused manyOutput (freshDesk manyOutput) 0
        "GOOSE data exceeds standard Ethernet MTU") := by
  have hstep : ∀ running busy,
      Reachable tripOutput { freshDesk tripOutput with running, busy } := by
    intro running busy
    exact ⟨standingClock, .single (.around _ running none busy none)⟩
  refine ⟨⟨hstep _ _, _, _, rfl, rfl, fun r ↦ rfl⟩, ⟨hstep _ _, _, _, rfl, rfl, fun r ↦ rfl⟩,
    ⟨freshDesk_reachable _, _, _, rfl, rfl, fun r ↦ rfl⟩,
    ⟨freshDesk_reachable _, manyOutput_refused⟩⟩

end ProcessBus.Automation
