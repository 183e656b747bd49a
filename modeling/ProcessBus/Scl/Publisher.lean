import ProcessBus.Lib.Fresh
import ProcessBus.Scl.Model

/-!
# The data set of a GOOSE publisher

`internal/domain/scl/export.go` writes the description of a publisher.  The entries of its data set
have free names; those of one data object are collected in a group, which gets a name that SCL
allows, and every entry becomes a reference to an attribute of its group's object.

The types of the objects are written beside them.  A reference is looked up in what is written as an
engineering tool does (`attributeType`).
-/

namespace ProcessBus.Scl.Publisher

open Lib

/-! ## Text -/

/-- `unicode.IsSpace`. -/
def isSpace (c : Char) : Bool :=
  c.toNat ∈ [9, 10, 11, 12, 13, 32, 0x85, 0xA0, 0x1680, 0x2028, 0x2029, 0x202F, 0x205F, 0x3000] ||
    0x2000 ≤ c.toNat && c.toNat ≤ 0x200A

/-- `strings.TrimSpace`. -/
def trimSpace (s : String) : String :=
  .ofList ((s.toList.dropWhile isSpace).reverse.dropWhile isSpace).reverse

/-- `strings.HasSuffix`. -/
def hasSuffix (s suffix : String) : Bool := suffix.toList.isSuffixOf s.toList

/-- `strings.TrimSuffix`. -/
def trimSuffix (s suffix : String) : String :=
  if hasSuffix s suffix then .ofList (s.toList.take (s.length - suffix.length)) else s

/-- `isASCIILetter`. -/
def isASCIILetter (c : Char) : Bool := 'A' ≤ c && c ≤ 'Z' || 'a' ≤ c && c ≤ 'z'

/-- `isASCIIDigit`. -/
def isASCIIDigit (c : Char) : Bool := '0' ≤ c && c ≤ '9'

/-! ## Names -/

/-- The first letter as a capital. -/
def capitalize (first : Char) : Char :=
  if 'a' ≤ first && first ≤ 'z' then Char.ofNat (first.toNat - ('a'.toNat - 'A'.toNat)) else first

/-- `sanitizeDataName`. -/
def sanitizeDataName (value fallback : String) : String :=
  let kept := (trimSpace value).toList.filter fun c ↦ isASCIILetter c || isASCIIDigit c
  match if kept = [] then fallback.toList else kept with
  | [] => ""
  | first :: rest =>
      if isASCIILetter first then .ofList (capitalize first :: rest)
      else .ofList ("Signal".toList ++ first :: rest)

/-- The names that `uniqueDataName` tries: `base`, `base2`, `base3` and so on. -/
def numbered (base : String) : ℕ → String
  | 0 => base
  | n + 1 => base ++ toString (n + 2)

/-- `uniqueDataName`; the caller adds the name to those in use. -/
def uniqueDataName (base : String) (used : List String) : String :=
  firstUnused (numbered base) used

/-! ## Types of values -/

/-- The kinds of values; an object that has only a quality or a time has none. -/
inductive Kind
  | bool | int | uint | float | string
deriving DecidableEq, Repr

/-- `valueKind`: nothing if the type is not supported. -/
def valueKind : String → Option (Option Kind)
  | "bool" => some (some .bool)
  | "int" => some (some .int)
  | "uint" => some (some .uint)
  | "float" => some (some .float)
  | "string" => some (some .string)
  | "quality" => some none
  | "utc_time" => some none
  | _ => none

/-- `dataAttributeName`. -/
def dataAttributeName : String → Option String
  | "bool" | "int" | "uint" | "string" => some "stVal"
  | "float" => some "mag.f"
  | "quality" => some "q"
  | "utc_time" => some "t"
  | _ => none

/-! ## Groups -/

/-- `DatasetEntry`. -/
structure DatasetEntry where
  name : String
  type : String

/-- `dataGroup`. -/
structure DataGroup where
  rawName : String
  name : String
  kind : Option Kind

/-- `typeID`. -/
def typeIDOf : Option Kind → String
  | some .int => "PBMT_INS"
  | some .uint => "PBMT_INSU"
  | some .float => "PBMT_MV"
  | some .string => "PBMT_VSS"
  | _ => "PBMT_SPS"

def DataGroup.typeID (g : DataGroup) : String := typeIDOf g.kind

/-- `fc`. -/
def fcOf (kind : Option Kind) : String := if kind = some .float then "MX" else "ST"

def DataGroup.fc (g : DataGroup) : String := fcOf g.kind

/-- `fcda`. -/
structure FCDA where
  ldInst : String
  lnClass : String
  lnInst : String
  doName : String
  daName : String
  fc : String

/-- The errors of `buildDataset`. -/
inductive DatasetError
  /-- `dataset item #%d name is required`. -/
  | nameRequired (item : ℕ)
  /-- `dataset item %q: unsupported type %q`. -/
  | unsupported (entry type : String)
  /-- `dataset object %q mixes incompatible types %q and %q`. -/
  | mixes (object : String) (first second : Kind)
  /-- `dataset item #%d duplicates SCL reference %s`. -/
  | duplicates (item : ℕ) (reference : String)
deriving DecidableEq, Repr

/-- `datasetObjectName`: the name without the first of the suffixes that it has. -/
def datasetObjectName (e : DatasetEntry) : String :=
  let name := trimSpace e.name
  match [".mag.f", ".stVal", ".q", ".t"].find? (hasSuffix name) with
  | some suffix => trimSuffix name suffix
  | none => name

/-- The names of the objects that every logical node has. -/
def reserved : List String := ["Mod", "Beh", "Health", "NamPlt"]

/-- Finds the group of an object, or starts it; `i` is the index of the entry.  The names in use are
the reserved ones and those of the groups. -/
def openGroup (groups : List DataGroup) (rawName : String) (i : ℕ) : List DataGroup :=
  if groups.any (·.rawName = rawName) then groups
  else
    groups ++ [{
      rawName := rawName
      name := uniqueDataName (sanitizeDataName rawName ("Signal" ++ toString (i + 1)))
        (reserved ++ groups.map (·.name))
      kind := none }]

/-- `groups[idx].kind = kind`. -/
def setKind (groups : List DataGroup) (rawName : String) (kind : Kind) : List DataGroup :=
  groups.map fun g ↦ if g.rawName = rawName then { g with kind := some kind } else g

/-- One turn of the first loop of `buildDataset`. -/
def addEntry (groups : List DataGroup) (i : ℕ) (e : DatasetEntry) :
    Except DatasetError (List DataGroup) :=
  let rawName := datasetObjectName e
  if rawName = "" then .error (.nameRequired (i + 1))
  else
    let groups := openGroup groups rawName i
    match valueKind e.type with
    | none => .error (.unsupported e.name e.type)
    | some none => .ok groups
    | some (some kind) =>
        match (groups.find? (·.rawName = rawName)).bind (·.kind) with
        | none => .ok (setKind groups rawName kind)
        | some other =>
            if other = kind then .ok (setKind groups rawName kind)
            else .error (.mixes rawName other kind)

/-- The first loop. -/
def buildGroups (groups : List DataGroup) (i : ℕ) :
    List DatasetEntry → Except DatasetError (List DataGroup)
  | [] => .ok groups
  | e :: rest => do
      let groups ← addEntry groups i e
      buildGroups groups (i + 1) rest

/-- `groups[byRawName[rawName]]`: a name that starts no group would find the first one. -/
def groupOf (groups : List DataGroup) (rawName : String) : DataGroup :=
  ((groups.find? (·.rawName = rawName)).or groups.head?).getD ⟨"", "", none⟩

/-- The second loop. -/
def buildReferences (groups : List DataGroup) (seen : List String) (i : ℕ) :
    List DatasetEntry → Except DatasetError (List FCDA)
  | [] => .ok []
  | e :: rest =>
      let group := groupOf groups (datasetObjectName e)
      match dataAttributeName e.type with
      | none => .error (.unsupported e.name e.type)
      | some daName => do
          let key := group.name ++ "." ++ daName
          if key ∈ seen then .error (.duplicates (i + 1) key)
          else
            let fcdas ← buildReferences groups (key :: seen) (i + 1) rest
            return { ldInst := "LD0", lnClass := "GGIO", lnInst := "1",
                     doName := group.name, daName := daName, fc := group.fc } :: fcdas

/-- `buildDataset`. -/
def buildDataset (entries : List DatasetEntry) :
    Except DatasetError (List DataGroup × List FCDA) := do
  let groups ← buildGroups [] 0 entries
  let fcdas ← buildReferences groups [] 0 entries
  return (groups, fcdas)

/-! ## Types of objects -/

/-- `dataAttribute`. -/
structure DataAttribute where
  name : String
  bType : String
  type : String := ""
  fc : String
  dchg : Bool := false
  qchg : Bool := false
deriving DecidableEq, Repr

/-- `dataObjectType`. -/
structure DataObjectType where
  id : String
  cdc : String
  das : List DataAttribute
deriving DecidableEq, Repr

/-- `dataAttributeType` with its `basicDataAttribute`s: their names and basic types. -/
structure DataAttributeType where
  id : String
  bdas : List (String × String)
deriving DecidableEq, Repr

/-- `statusDOType`. -/
def statusDOType (id cdc valueType fc : String) : DataObjectType where
  id := id
  cdc := cdc
  das := [
    { name := "stVal", bType := valueType, fc := fc, dchg := true },
    { name := "q", bType := "Quality", fc := fc, qchg := true },
    { name := "t", bType := "Timestamp", fc := fc }]

/-- The types that every document has. -/
def commonDOTypes : List DataObjectType := [
  { id := "PBMT_INC_Mod", cdc := "INC", das := [
      { name := "q", bType := "Quality", fc := "ST", qchg := true },
      { name := "t", bType := "Timestamp", fc := "ST" },
      { name := "ctlModel", bType := "Enum", type := "PBMT_CtlModels", fc := "CF" }] },
  statusDOType "PBMT_INS" "INS" "INT32" "ST",
  { id := "PBMT_LPL", cdc := "LPL", das := [
      { name := "vendor", bType := "VisString255", fc := "DC" },
      { name := "swRev", bType := "VisString255", fc := "DC" },
      { name := "d", bType := "VisString255", fc := "DC" },
      { name := "configRev", bType := "VisString255", fc := "DC" },
      { name := "ldNs", bType := "VisString255", fc := "EX" }] },
  { id := "PBMT_DPL", cdc := "DPL", das := [
      { name := "vendor", bType := "VisString255", fc := "DC" }] },
  statusDOType "PBMT_SPS" "SPS" "BOOLEAN" "ST"]

/-- The type that `buildDOTypes` adds for a kind. -/
def extraDOType (id : String) : Option Kind → List DataObjectType
  | some .int => [statusDOType id "INS" "INT32" "ST"]
  | some .uint => [statusDOType id "INS" "INT32U" "ST"]
  | some .float => [{
      id := id
      cdc := "MV"
      das := [
        { name := "mag", bType := "Struct", type := "PBMT_AnalogueValue", fc := "MX",
          dchg := true },
        { name := "q", bType := "Quality", fc := "MX", qchg := true },
        { name := "t", bType := "Timestamp", fc := "MX" }] }]
  | some .string => [statusDOType id "VSS" "VisString255" "ST"]
  | _ => []

/-- The loop of `buildDOTypes`. -/
def buildDOTypes.loop (used : List String) (result : List DataObjectType) :
    List DataGroup → List DataObjectType
  | [] => result
  | g :: rest =>
      if g.typeID ∈ used then loop used result rest
      else loop (g.typeID :: used) (result ++ extraDOType g.typeID g.kind) rest

/-- `buildDOTypes`. -/
def buildDOTypes (groups : List DataGroup) : List DataObjectType :=
  buildDOTypes.loop ["PBMT_INC_Mod", "PBMT_INS", "PBMT_LPL", "PBMT_DPL", "PBMT_SPS"]
    commonDOTypes groups

/-- `buildDATypes`. -/
def buildDATypes (groups : List DataGroup) : List DataAttributeType :=
  if groups.any (·.kind = some .float) then [⟨"PBMT_AnalogueValue", [("f", "FLOAT32")]⟩] else []

/-- `commonLogicalNodeDOs`: names and types. -/
def commonLogicalNodeDOs : List (String × String) :=
  [("Mod", "PBMT_INC_Mod"), ("Beh", "PBMT_INS"), ("Health", "PBMT_INS"), ("NamPlt", "PBMT_LPL")]

/-- The objects of the logical node of the data set, as `buildModel` collects them. -/
def logicalNodeDOs (groups : List DataGroup) : List (String × String) :=
  commonLogicalNodeDOs ++ groups.map fun g ↦ (g.name, g.typeID)

/-! ## References -/

/-- The basic type of the attribute of a type with this path and functional constraint. -/
def DataObjectType.attributeType (t : DataObjectType) (daTypes : List DataAttributeType)
    (daName fc : String) : Option String :=
  match cut '.' daName with
  | none => (t.das.find? fun da ↦ da.name = daName ∧ da.fc = fc).map (·.bType)
  | some (first, field) => do
      let da ← t.das.find? fun da ↦ da.name = first ∧ da.fc = fc
      let daType ← daTypes.find? (·.id = da.type)
      (daType.bdas.find? (·.1 = field)).map (·.2)

/-- The basic type of the attribute that a reference names, by its object, the path of its
attribute and its functional constraint. -/
def attributeType (groups : List DataGroup) (doName daName fc : String) : Option String := do
  let (_, typeID) ← (logicalNodeDOs groups).find? (·.1 = doName)
  let doType ← (buildDOTypes groups).find? (·.id = typeID)
  doType.attributeType (buildDATypes groups) daName fc

/-- The basic type of the values of a kind. -/
def Kind.basicType : Kind → String
  | bool => "BOOLEAN"
  | int => "INT32"
  | uint => "INT32U"
  | float => "FLOAT32"
  | string => "VisString255"

/-- The basic type of the values of an entry. -/
def basicTypeOf : String → Option String
  | "bool" => some Kind.bool.basicType
  | "int" => some Kind.int.basicType
  | "uint" => some Kind.uint.basicType
  | "float" => some Kind.float.basicType
  | "string" => some Kind.string.basicType
  | "quality" => some "Quality"
  | "utc_time" => some "Timestamp"
  | _ => none

end ProcessBus.Scl.Publisher
