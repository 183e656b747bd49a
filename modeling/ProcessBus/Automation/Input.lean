import ProcessBus.Goose.Pdu
import ProcessBus.Supervisor.Modules

/-!
# The input of a measured test

The part of the catalogue and of the ICD that `internal/application/automation` reads
(`catalog.Signal`, `sclmodel.GooseStream`), and `inputValue` of `test_run.go`: the level of the
selected BOOLEAN of a GOOSE message, or the reason why the message cannot be trusted.

`inputValue` succeeds exactly on a clean message, and then shows its signal (`value_eq_ok`).
-/

namespace ProcessBus.Goose

/-- `DataType.String`. -/
def DataType.string : DataType → String
  | .array => "ARRAY"
  | .struct => "STRUCTURE"
  | .boolean => "BOOLEAN"
  | .bitString => "BIT_STRING"
  | .integer => "INTEGER"
  | .unsigned => "UNSIGNED"
  | .floatingPoint => "FLOAT"
  | .real => "REAL"
  | .octetString => "OCTET_STRING"
  | .visibleString => "VISIBLE_STRING"
  | .binaryTime => "BINARY_TIME"
  | .bcd => "BCD"
  | .booleanArray => "BOOLEAN_ARRAY"
  | .utcTime => "UTC_TIME"
  | .unknown => "UNKNOWN"

end ProcessBus.Goose

namespace ProcessBus.Automation

open Go Goose

/-! ## Schemas -/

/-- `catalog.Signal`, with the fields that the API decides by or shows. -/
structure Signal where
  id : String
  name : String := ""
  unit : String := ""
  type : String
  isTemplate : Bool := false
  children : List Signal := []

/-- `catalog.Stream`. -/
structure Stream where
  id : String
  name : String
  signals : List Signal

/-- `sclmodel.Type`. -/
structure SclType where
  kind : String
  size : ℤ := 0
  children : List SclType := []

/-- `sclmodel.GooseStream`, with the fields that `ValidatePDU` compares.  `dstMAC` is text. -/
structure GooseStream where
  gocbRef : Bytes
  datSet : Bytes
  goID : Bytes
  dstMAC : Bytes
  appID : UInt16
  confRev : UInt32
  vlanID : Option UInt16 := none
  vlanPriority : Option UInt8 := none
  entries : List SclType
  frameError : String := ""
  schemaError : String := ""

mutual

/-- `matchesGooseType`. -/
def matchesGooseType : SclType → DataValue → Bool
  | ⟨kind, size, children⟩, v =>
      kind == v.type.string &&
        (if kind = "STRUCTURE" then matchesGooseTypes children v.children
        else if kind = "ARRAY" then
          match children with
          | [t] => size == v.children.length && v.children.all (matchesGooseType t)
          | _ => false
        else if kind = "BIT_STRING" then
          (if v.bitLength = 0 then (v.bytes.length * 8 : ℤ) else v.bitLength) == size.natAbs
        else true)

/-- The comparison of the children of a structure. -/
def matchesGooseTypes : List SclType → List DataValue → Bool
  | [], [] => true
  | t :: types, v :: values => matchesGooseType t v && matchesGooseTypes types values
  | _, _ => false

end

/-- `ValidatePDU`. -/
def GooseStream.validatePDU (g : GooseStream) (p : PDU) : Except String Unit := do
  if g.schemaError ≠ "" then throw g.schemaError
  if g.frameError ≠ "" then throw g.frameError
  if p.gocbRef ≠ g.gocbRef ∨ p.datSet ≠ g.datSet ∨ p.appID ≠ g.appID ∨
      (g.goID ≠ [] ∧ p.goID ≠ g.goID) then
    throw "stream identifiers differ from ICD"
  -- The error of `net.ParseMAC` is dropped, and its address is then empty.
  if (Supervisor.parseMAC g.dstMAC).getD [] ≠ p.dstMAC then
    throw "destination MAC differs from ICD"
  if g.vlanID.isSome ∧ p.vlan.map (·.vid) ≠ g.vlanID then
    throw "VLAN differs from ICD"
  if g.vlanPriority.isSome ∧ p.vlan.map (·.priority) ≠ g.vlanPriority then
    throw "VLAN priority differs from ICD"
  if p.confRev ≠ g.confRev then throw "confRev differs from ICD"
  if p.allData.length ≠ g.entries.length ∨
      p.numDatSetEntries ≠ UInt32.ofNat g.entries.length then
    throw "DataSet entry count differs from ICD"
  match (g.entries.zip p.allData).findIdx? fun e ↦ !matchesGooseType e.1 e.2 with
  | some i => throw s!"entry {i + 1} type/structure differs from ICD"
  | none => return ()

mutual

/-- One signal of `booleanSignalPath`, at the path `path`. -/
def Signal.booleanPath (id : String) (path : List ℕ) : Signal → Option (List ℕ)
  | ⟨sigID, _, _, type, isTemplate, children⟩ =>
      if isTemplate then none
      else if sigID = id ∧ type = "BOOLEAN" then some path
      else if type = "STRUCTURE" then booleanSignalPath id path 0 children
      else none

/-- `booleanSignalPath`, for the signals from number `i` on. -/
def booleanSignalPath (id : String) (path : List ℕ) (i : ℕ) : List Signal → Option (List ℕ)
  | [] => none
  | s :: signals =>
      (s.booleanPath id (path ++ [i])).or (booleanSignalPath id path (i + 1) signals)

end

mutual

/-- One signal of `zeroTestQuality`. -/
def Signal.zeroQuality : Signal → DataValue → Bool
  | ⟨_, _, _, type, _, children⟩, v =>
      (type != "Quality" || v.bytes.all (· == 0)) &&
        (type != "STRUCTURE" || zeroTestQuality children v.children) &&
        (type != "ARRAY" || children.length != 1 ||
          v.children.all fun child ↦ zeroTestQuality children [child])

/-- `zeroTestQuality`. -/
def zeroTestQuality : List Signal → List DataValue → Bool
  | [], _ => true
  | _ :: _, [] => false
  | sig :: schema, v :: values => sig.zeroQuality v && zeroTestQuality schema values

end

/-! ## The input -/

/-- The fields of a `testPlan` that `inputValue` reads. -/
structure Input where
  stream : Stream
  description : GooseStream
  path : List ℕ
  baseline : PDU

/-- The loop of `inputValue` over the path. -/
def follow : List ℕ → List DataValue → DataValue → Except String DataValue
  | [], _, selected => .ok selected
  | i :: path, values, _ =>
      match values[i]? with
      | none => .error "GOOSE structure changed"
      | some v => follow path v.children v

/-- A check that returned no error. -/
theorem guard_eq_ok {α : Type} {c : Prop} [Decidable c] {err : String} {x : Except String α} {a : α} :
    (if c then .error err else x) = .ok a ↔ ¬ c ∧ x = .ok a := by
  split <;> simp_all

namespace Input

variable (p : Input) (v : PDU)

/-- The message comes from another publisher than the baseline.  The source compares the texts of
the two addresses, which are equal when the addresses are. -/
def identityChanged : Bool :=
  v.srcMAC != p.baseline.srcMAC || v.dstMAC != p.baseline.dstMAC || v.appID != p.baseline.appID ||
    v.gocbRef != p.baseline.gocbRef

/-- `inputValue`. -/
def value : Except String Bool :=
  match p.description.validatePDU v with
  | .error err => .error ("ICD mismatch: " ++ err)
  | .ok () =>
      if v.test || v.simulation || v.ndsCom then
        .error "test/simulation/uncommissioned GOOSE cannot establish a test response"
      else if p.identityChanged v then .error "GOOSE input identity changed during test"
      else
        match follow p.path v.allData { type := .unknown } with
        | .error err => .error err
        | .ok selected =>
            if selected.type ≠ .boolean then .error "expected BOOLEAN input"
            -- Any nonzero quality of the data set is rejected, whatever it belongs to.
            else if !zeroTestQuality p.stream.signals v.allData then
              .error "nonzero GOOSE Quality during test"
            else .ok selected.bool

/-- The level of the selected signal, if the message has one. -/
def signal : Option Bool :=
  match follow p.path v.allData { type := .unknown } with
  | .ok selected => if selected.type = .boolean then some selected.bool else none
  | .error _ => none

/-- A message of the ICD's shape, from the publisher of the baseline, without a flag or a quality
bit that would make its data unfit. -/
structure Clean : Prop where
  schema : p.description.validatePDU v = .ok ()
  test : v.test = false
  simulation : v.simulation = false
  ndsCom : v.ndsCom = false
  identity : p.identityChanged v = false
  quality : zeroTestQuality p.stream.signals v.allData = true

variable {p v}

/-- What `inputValue` reports is the level of the signal of a clean message. -/
theorem value_eq_ok {level : Bool} :
    p.value v = .ok level ↔ p.Clean v ∧ p.signal v = some level := by
  constructor
  · intro h
    rw [value] at h
    cases hschema : p.description.validatePDU v with
    | error err =>
        rw [hschema] at h
        cases h
    | ok u =>
        rw [hschema] at h
        obtain ⟨hflags, h⟩ := guard_eq_ok.mp h
        obtain ⟨hidentity, h⟩ := guard_eq_ok.mp h
        simp only [Bool.or_eq_true, not_or, Bool.not_eq_true] at hflags hidentity
        cases hfollow : follow p.path v.allData { type := .unknown } with
        | error err =>
            rw [hfollow] at h
            cases h
        | ok selected =>
            rw [hfollow] at h
            obtain ⟨htype, h⟩ := guard_eq_ok.mp h
            obtain ⟨hquality, h⟩ := guard_eq_ok.mp h
            rw [not_not] at htype
            refine ⟨⟨hschema, hflags.1.1, hflags.1.2, hflags.2, hidentity, by simpa using hquality⟩, ?_⟩
            rw [signal, hfollow]
            simpa [htype] using h
  · rintro ⟨⟨hschema, htest, hsimulation, hndsCom, hidentity, hquality⟩, hsignal⟩
    rw [signal] at hsignal
    cases hfollow : follow p.path v.allData { type := .unknown } with
    | error err =>
        rw [hfollow] at hsignal
        cases hsignal
    | ok selected =>
        rw [hfollow] at hsignal
        have htype : selected.type = .boolean := by
          by_contra hne
          simp [hne] at hsignal
        rw [value, hschema, hfollow]
        simpa [htest, hsimulation, hndsCom, hidentity, hquality, htype] using hsignal

end Input

end ProcessBus.Automation
