import ProcessBus.Scl.Model

/-!
# Exporting a model

`export.go` of `internal/application/sclmodel`: a browsed model becomes an SCL document.  The
definitions of types are collected in a builder with a running number for their identifiers; an
object that cannot be converted is left out, and the definitions it has made so far are dropped
again.

An object is browsed once for each functional constraint, and its parts are merged by the names of
their attributes, in the order of first occurrence (`gather`).
-/

namespace ProcessBus.Scl

/-! ## The builder -/

/-- `exportBuilder`. -/
structure Builder where
  lns : List Element := []
  dos : List Element := []
  das : List Element := []
  warnings : List String := []
  serial : ℕ := 0

/-- A step of the export: an error leaves what was built before it. -/
abbrev Build (α : Type) := ExceptT String (StateM Builder) α

/-- The identifier of a definition. -/
def typeID (n : ℕ) : String := "PBMT_T" ++ toString n

/-- `id`. -/
def nextID : Build String :=
  fun b ↦ (.ok (typeID (b.serial + 1)), { b with serial := b.serial + 1 })

/-- `b.warnings = append(b.warnings, ...)`. -/
def warn (warning : String) : Build Unit :=
  fun b ↦ (.ok (), { b with warnings := b.warnings ++ [warning] })

def addLN (x : Element) : Build Unit := fun b ↦ (.ok (), { b with lns := b.lns ++ [x] })

def addDO (x : Element) : Build Unit := fun b ↦ (.ok (), { b with dos := b.dos ++ [x] })

def addDA (x : Element) : Build Unit := fun b ↦ (.ok (), { b with das := b.das ++ [x] })

/-! ## Attributes -/

/-- The basic types that carry their size in the name. -/
def sizedType (start : String) (sizes : List ℤ) (size : ℤ) : String :=
  if size ∈ sizes then start ++ toString size else ""

/-- The SCL type of a value that is no structure: nothing if there is none.  `name` is the name of
the attribute, which decides between the types of equal size. -/
def basicType (name kind : String) (size : ℤ) : String :=
  if kind = "BOOLEAN" then "BOOLEAN"
  else if kind = "INTEGER" then sizedType "INT" [8, 16, 24, 32, 64, 128] size
  else if kind = "UNSIGNED" then
    if size ∈ [8, 16, 24, 32] then "INT" ++ toString size ++ "U" else ""
  else if kind = "FLOAT" then sizedType "FLOAT" [32, 64] size
  else if kind = "UTC_TIME" then "Timestamp"
  else if kind = "BINARY_TIME" then if size = 6 then "EntryTime" else ""
  else if kind = "VISIBLE_STRING" then
    if size.natAbs = 129 ∧
        name ∈ ["setSrcRef", "setTstRef", "setSrcCB", "setTstCB", "objRef", "datSet"] then "ObjRef"
    else sizedType "VisString" [32, 64, 65, 129, 255] size.natAbs
  else if kind = "MMS_STRING" then "Unicode255"
  else if kind = "OCTET_STRING" then
    if size.natAbs = 8 then "EntryID" else sizedType "Octet" [6, 16, 64] size.natAbs
  else if kind = "BIT_STRING" then
    if name = "q" ∧ size.natAbs = 13 then "Quality"
    else if name = "Check" ∧ size.natAbs = 2 then "Check"
    else if name = "stVal" ∧ size.natAbs = 2 then "Dbpos"
    else if (name = "TrgOps" ∨ name = "trgOps") ∧ size.natAbs = 6 then "TrgOps"
    else if (name = "OptFlds" ∨ name = "optFlds") ∧ size.natAbs = 10 then "OptFlds"
    else ""
  else ""

/-- The attributes of a `DA` or `BDA` before its type. -/
def startAttrs (name : String) (count : Option ℤ) : List (String × String) :=
  ("name", name) :: (count.map fun n ↦ ("count", toString n)).toList

/-- The part of `attribute` after the array is taken off; `fields` converts the children. -/
def typed (tag name : String) (count : Option ℤ) (kind : String) (size : ℤ)
    (fields : Build (List Element)) : Build Element :=
  if kind = "STRUCTURE" then do
    let id ← nextID
    let children ← fields
    addDA (element "DAType" [("id", id)] children)
    return element tag (startAttrs name count ++ [("bType", "Struct"), ("type", id)])
  else
    let basic := basicType name kind size
    if basic = "" then throw s!"unresolved SCL type {name} ({kind}/{size})"
    else return element tag (startAttrs name count ++ [("bType", basic)])

mutual

/-- `attribute` of the builder. -/
def Builder.attribute : Typ → String → Build Element
  | ⟨name, kind, size, children⟩, tag =>
      if kind = "ARRAY" then
        match children with
        | [⟨_, kind, elementSize, children⟩] =>
            if size < 1 then throw s!"invalid array {name}"
            else typed tag name (some size) kind elementSize (Builder.attributes children)
        | _ => throw s!"invalid array {name}"
      else typed tag name none kind size (Builder.attributes children)

/-- The children of a structure. -/
def Builder.attributes : List Typ → Build (List Element)
  | [] => return []
  | t :: ts => do
      let x ← Builder.attribute t "BDA"
      let xs ← Builder.attributes ts
      return x :: xs

end

/-! ## Objects -/

/-- `fcType`. -/
structure FcType where
  fc : String
  t : Typ

/-- Put an attribute with the others of its name, or behind all names. -/
def insertPart (part : FcType) : List (String × List FcType) → List (String × List FcType)
  | [] => [(part.t.name, [part])]
  | entry :: entries =>
      if entry.1 = part.t.name then (entry.1, entry.2 ++ [part]) :: entries
      else entry :: insertPart part entries

/-- The children of all groups. -/
def parts (groups : List FcType) : List FcType :=
  groups.flatMap fun g ↦ g.t.children.map (FcType.mk g.fc)

/-- The attributes by name, in the order of first occurrence. -/
def gather (groups : List FcType) : List (String × List FcType) :=
  (parts groups).foldl (fun entries part ↦ insertPart part entries) []

/-- `isSubObject`. -/
def isSubObject (t : Typ) : Bool :=
  t.kind == "STRUCTURE" &&
    t.name ∉ ["Oper", "SBOw", "Cancel", "mag", "cVal", "instMag", "subMag", "subCVal", "rangeC",
      "units"] &&
    t.children.any fun c ↦ c.name == "q" || c.name == "t"

/-- The first part of an attribute. -/
def firstPart (attrs : List (String × List FcType)) (name : String) : Option Typ :=
  ((attrs.lookup name).bind (·.head?)).map (·.t)

/-- `inferCDC`. -/
def inferCDC (attrs : List (String × List FcType)) : String :=
  let get := firstPart attrs
  let has (name : String) : Bool := (get name).isSome
  if (get "setSrcRef").any fun ref ↦ ref.kind == "VISIBLE_STRING" && ref.size.natAbs == 129 then
    "ORG"
  else if (get "setTm").any (·.kind == "UTC_TIME") then "TSG"
  else if has "objRef" && has "serviceType" && has "errorCode" then
    if has "ctlVal" && has "origin" then "CTS"
    else if has "rptID" && has "purgeBuf" && has "entryID" then "BTS"
    else if has "rptID" && has "resv" then "UTS"
    else if has "numOfSG" && has "actSG" then "STS"
    else if attrs.all fun a ↦ a.1 ∈
        ["objRef", "serviceType", "errorCode", "t", "d", "dU", "cdcNs", "cdcName", "dataNs"] then
      "CST"
    else ""
  else if has "phsA" && has "phsB" && has "phsC" then "WYE"
  else if has "phsAB" && has "phsBC" then "DEL"
  else if has "c1" && has "c2" then "SEQ"
  else if has "vendor" then
    if has "ldNs" || has "lnNs" || has "configRev" then "LPL" else "DPL"
  else if has "general" then if has "dirGeneral" then "ACD" else "ACT"
  else if has "cVal" then "CMV"
  else if has "mag" then "MV"
  else if has "instMag" then "SAV"
  else if has "actVal" then "BCR"
  else
    let control := has "Oper" || has "ctlModel"
    let status : String :=
      match get "stVal" with
      | none => ""
      | some t =>
          if t.kind = "BOOLEAN" then if control then "SPC" else "SPS"
          else if t.kind = "BIT_STRING" ∧ t.size.natAbs = 2 then if control then "DPC" else "DPS"
          else if t.kind = "INTEGER" then if control then "INC" else "INS"
          else if t.kind = "VISIBLE_STRING" ∧ t.size.natAbs = 255 then "VSS"
          else ""
    let setting : String :=
      match get "setVal" with
      | none => ""
      | some t =>
          if t.kind = "BOOLEAN" then "SPG"
          else if t.kind = "INTEGER" then "ING"
          else if t.kind = "VISIBLE_STRING" then "VSG"
          else if t.kind = "STRUCTURE" then "ASG"
          else ""
    if status ≠ "" then status
    else if setting ≠ "" then setting
    else if has "setMag" then "ASG"
    else ""

mutual

/-- `reflect.DeepEqual` of two types. -/
def Typ.deepEqual : Typ → Typ → Bool
  | ⟨name, kind, size, children⟩, ⟨name', kind', size', children'⟩ =>
      name == name' && kind == kind' && size == size' && Typ.deepEquals children children'

def Typ.deepEquals : List Typ → List Typ → Bool
  | [], [] => true
  | t :: ts, u :: us => t.deepEqual u && Typ.deepEquals ts us
  | _, _ => false

end

/-- The loop over the other parts of an attribute: only `SG` and `SE` may have it together. -/
def mergeParts (name : String) : FcType → List FcType → Except String FcType
  | v, [] => .ok v
  | v, other :: others =>
      if (v.fc = "SE" ∧ other.fc = "SG" ∨ v.fc = "SG" ∧ other.fc = "SE") ∧
          v.t.deepEqual other.t then
        mergeParts name (if other.fc = "SG" then other else v) others
      else .error s!"ambiguous FC for {name}"

/-- The child of a `DOType` for one name; `object` converts a sub-object. -/
def objectMember (object : List FcType → Build String) (name : String) (values : List FcType) :
    Build Element :=
  if values.any fun part ↦ isSubObject part.t then do
    let id ← object values
    return element "SDO" [("name", name), ("type", id)]
  else
    match values with
    | [] => throw "no part"
    | v :: others =>
        match mergeParts name v others with
        | .error err => throw err
        | .ok v => do
            let da ← Builder.attribute v.t "DA"
            return { da with attrs := da.attrs ++ [("fc", v.fc)] }

/-- The children of a `DOType`. -/
def objectMembers (object : List FcType → Build String) :
    List (String × List FcType) → Build (List Element)
  | [] => return []
  | (name, values) :: rest => do
      let x ← objectMember object name values
      let xs ← objectMembers object rest
      return x :: xs

/-- `object`; `depth` bounds the nesting of sub-objects. -/
def Builder.objectAt : ℕ → List FcType → Build String
  | 0, _ => throw "nested too deeply"
  | depth + 1, groups =>
      if groups.any fun g ↦ g.t.kind ≠ "STRUCTURE" then throw "non-structure data object"
      else
        let attrs := gather groups
        let cdc := inferCDC attrs
        if cdc = "" then throw "CDC is not recoverable"
        else do
          let id ← nextID
          let children ← objectMembers (Builder.objectAt depth) attrs
          addDO (element "DOType" [("id", id), ("cdc", cdc)] children)
          return id

mutual

/-- The depth of a tree of types. -/
def Typ.depth : Typ → ℕ
  | ⟨_, _, _, children⟩ => Typ.depths children + 1

/-- The greatest depth. -/
def Typ.depths : List Typ → ℕ
  | [] => 0
  | t :: ts => max t.depth (Typ.depths ts)

end

/-- `object`: the nesting of sub-objects ends with the trees. -/
def Builder.object (groups : List FcType) : Build String :=
  Builder.objectAt (Typ.depths (groups.map (·.t)) + 1) groups

/-! ## Logical nodes -/

/-- The data objects of a logical node: the groups of data constraints, without the settings control
block. -/
def dataGroups (ln : LogicalNode) : List FcType :=
  (ln.groups.filter fun g ↦ isDataFC g.name).map fun g ↦
    ⟨g.name, { g with children := g.children.filter fun obj ↦
      !(ln.name == "LLN0" && g.name == "SP" && obj.name == "SGCB") }⟩

/-- The warnings about other groups. -/
def groupWarnings (ld ln : String) (groups : List Typ) : List String :=
  (groups.filter fun g ↦
    !isDataFC g.name && g.name != "GO" && g.name != "RP" && g.name != "BR").map fun g ↦
      s!"{ld}/{ln} [{g.name}]: unsupported control metadata omitted"

/-- Convert one data object, and drop what is left of it if that fails. -/
def exportObject (path name : String) (groups : List FcType) : Build (Option Element) := fun b ↦
  match Builder.object groups b with
  | (.ok id, b') => (.ok (some (element "DO" [("name", name), ("type", id)])), b')
  | (.error err, b') =>
      (.ok none, { b' with
        dos := b'.dos.take b.dos.length
        das := b'.das.take b.das.length
        warnings := b'.warnings ++ [s!"{path}.{name}: {err}; omitted"] })

/-- The children of an `LNodeType`. -/
def exportObjects (path : String) : List (String × List FcType) → Build (List Element)
  | [] => return []
  | (name, groups) :: rest => do
      let x ← exportObject path name groups
      let xs ← exportObjects path rest
      return x.toList ++ xs

/-! ## Data sets and control blocks -/

/-- `ldMap`: the instance of a logical device, by name. -/
def ldInst (devices : List LogicalDevice) (name : String) : Option String :=
  (devices.zipIdx.reverse.find? (·.1.name == name)).map fun ld ↦ "LD" ++ toString (ld.2 + 1)

/-- The reference of a member, cut at its last opening bracket: path and constraint. -/
def cutFC (ref : String) : Option (String × String) :=
  match ref.toList.reverse with
  | ']' :: rest =>
      match rest.span (· ≠ '[') with
      | (_, []) => none
      | (fc, _ :: path) => some (.ofList path.reverse, .ofList fc.reverse)
  | _ => none

/-- `exportMember`. -/
def exportMember (devices : List LogicalDevice) (ref : String) : Except String Element :=
  match cutFC ref with
  | none => .error s!"unsupported member {ref}"
  | some (path, fc) =>
      match (cut '/' path).bind fun p ↦ (ldInst devices p.1).map (·, p.2) with
      | none => .error s!"unknown DataSet domain: {ref}"
      | some (inst, path) =>
          match cut '.' path with
          | none => .error s!"invalid DataSet member {ref}"
          | some (ln, data) =>
              match splitLN ln with
              | .error err => .error err
              | .ok (pre, cls, lnInst) =>
                  if data.toList.any fun c ↦ c = '(' || c = ')' then
                    .error s!"array DataSet member omitted: {ref}"
                  else
                    let path := split '.' data
                    let daName := join '.' path.tail
                    .ok (element "FCDA" ([("ldInst", inst), ("lnClass", cls), ("lnInst", lnInst),
                      ("doName", path.headD ""), ("fc", fc)] ++
                      (if pre ≠ "" then [("prefix", pre)] else []) ++
                      (if daName ≠ "" then [("daName", daName)] else [])))

/-- The members of a data set, up to the first that cannot be exported. -/
def exportMembers (devices : List LogicalDevice) : List String → Except String (List Element)
  | [] => .ok []
  | ref :: refs =>
      match exportMember devices ref with
      | .error err => .error err
      | .ok x => (exportMembers devices refs).map (x :: ·)

/-- The data sets of a logical node. -/
def exportDataSets (devices : List LogicalDevice) : List DataSet → Build (List Element)
  | [] => return []
  | ds :: rest =>
      match exportMembers devices ds.members with
      | .error err => do
          warn (ds.name ++ ": " ++ err)
          exportDataSets devices rest
      | .ok members => do
          let xs ← exportDataSets devices rest
          return element "DataSet" [("name", ds.name)] members :: xs

/-- `%0*X`. -/
def hexNumber (width n : ℕ) : String :=
  .ofList (((Nat.toDigits 16 n).map Char.toUpper).leftpad width '0')

/-- An element with a text. -/
def textElement (name : String) (attrs : List (String × String)) (text : String) : Element :=
  { name, attrs, text }

/-- The `GSE` of a GOOSE control block. -/
def exportGSE (inst : String) (cb : GooseControl) : Element :=
  element "GSE" [("ldInst", inst), ("cbName", cb.name)]
    (element "Address" [] [
      textElement "P" [("type", "MAC-Address")] cb.mac,
      textElement "P" [("type", "APPID")] (hexNumber 4 cb.appID),
      textElement "P" [("type", "VLAN-ID")] (hexNumber 3 cb.vlan),
      textElement "P" [("type", "VLAN-PRIORITY")] (toString cb.priority)] ::
    ([("MinTime", cb.minTime), ("MaxTime", cb.maxTime)].filter (0 < ·.2)).map fun v ↦
      textElement v.1 [("unit", "s"), ("multiplier", "m")] (toString v.2.toNat))

/-- The GOOSE control blocks of a logical node, each with its address. -/
def exportGoose (inst ld ln : String) : List GooseControl → Build (List (Element × Element))
  | [] => return []
  | cb :: rest => do
      let expected := ld ++ "/" ++ ln ++ "."
      let ds := replace '$' '.' cb.dataSet
      if ln ≠ "LLN0" then
        warn ("GoCB outside LLN0 omitted: " ++ cb.name)
        exportGoose inst ld ln rest
      else if !startsWith expected ds then
        warn ("External GoCB DataSet omitted: " ++ cb.name)
        exportGoose inst ld ln rest
      else
        let xs ← exportGoose inst ld ln rest
        return (element "GSEControl" [("name", cb.name), ("type", "GOOSE"), ("appID", cb.goID),
          ("datSet", trimStart expected ds), ("confRev", toString cb.confRev.toNat)],
          exportGSE inst cb) :: xs

/-- `strconv.FormatBool`. -/
def formatBool (b : Bool) : String := if b then "true" else "false"

/-- The `ReportControl` of a report; `dataSet` is its data set in the same logical node, if it has
one. -/
def exportReport (r : ReportControl) (dataSet : Option String) : Element :=
  let t := r.triggers
  let o := r.options
  element "ReportControl" ([("name", r.name), ("rptID", r.reportID),
      ("buffered", formatBool r.buffered), ("indexed", "false"),
      ("confRev", toString r.confRev.toNat), ("bufTime", toString r.bufferTime.toNat),
      ("intgPd", toString r.integrityPeriod.toNat)] ++
      (dataSet.map fun ds ↦ ("datSet", ds)).toList)
    [element "TrgOps" [("dchg", formatBool t.dataChange), ("qchg", formatBool t.qualityChange),
        ("dupd", formatBool t.dataUpdate), ("period", formatBool t.integrity),
        ("gi", formatBool t.gi)],
      element "OptFields" [("seqNum", formatBool o.seqNum), ("timeStamp", formatBool o.timeStamp),
        ("reasonCode", formatBool o.reasonCode), ("dataSet", formatBool o.dataSet),
        ("dataRef", formatBool o.dataRef), ("bufOvfl", formatBool o.bufOvfl),
        ("entryID", formatBool o.entryID), ("configRef", formatBool o.confRev)]]

/-- The reports of a logical node. -/
def exportReports (ld ln : String) : List ReportControl → Build (List Element)
  | [] => return []
  | r :: rest => do
      let expected := ld ++ "/" ++ ln ++ "."
      let ref := replace '$' '.' r.dataSet
      if ref ≠ "" ∧ !startsWith expected ref then
        warn s!"{ld}/{ln}.{r.name}: external report DataSet omitted"
        exportReports ld ln rest
      else
        let xs ← exportReports ld ln rest
        return exportReport r (if ref = "" then none else some (trimStart expected ref)) :: xs

/-- The warnings about control blocks whose values were not read. -/
def controlWarnings (ld : String) (ln : LogicalNode) : List String :=
  ln.groups.flatMap fun g ↦
    (if g.name = "RP" ∨ g.name = "BR" then
      (g.children.filter fun r ↦ !ln.reports.any fun x ↦
        (if x.buffered then "BR" else "RP") == g.name && x.name == r.name).map fun r ↦
          s!"{ld}/{ln.name}.{r.name}: report configuration values unavailable; " ++
            "run Read Model again"
    else []) ++
    (if ln.name = "LLN0" ∧ g.name = "SP" ∧ ln.settings.isNone then
      (g.children.filter (·.name == "SGCB")).map fun _ ↦
        s!"{ld}/LLN0.SGCB: setting group values unavailable; run Read Model again"
    else [])

/-- The `SettingControl` of a logical node. -/
def exportSettings (ld : String) (ln : LogicalNode) : Build (List Element) :=
  match ln.settings with
  | none => return []
  | some s => do
      if ln.name ≠ "LLN0" ∨ s.numGroups = 0 ∨ s.activeGroup = 0 ∨ s.numGroups < s.activeGroup then
        warn s!"{ld}/{ln.name}: invalid setting group parameters; omitted"
        return []
      else
        return [element "SettingControl" [("numOfSGs", toString s.numGroups.toNat),
          ("actSG", toString s.activeGroup.toNat)]]

def warnAll : List String → Build Unit
  | [] => return ()
  | w :: ws => do
      warn w
      warnAll ws

/-- One logical node: its element, and the addresses of its GOOSE control blocks. -/
def exportNode (devices : List LogicalDevice) (inst ld : String) (ln : LogicalNode) :
    Build (Element × List Element) := do
  match splitLN ln.name with
  | .error err => throw err
  | .ok (pre, cls, lnInst) =>
      let id ← nextID
      warnAll (groupWarnings ld ln.name ln.groups)
      let objects ← exportObjects (ld ++ "/" ++ ln.name) (gather (dataGroups ln))
      addLN (element "LNodeType" [("id", id), ("lnClass", cls)] objects)
      let dataSets ← exportDataSets devices ln.dataSets
      let goose ← exportGoose inst ld ln.name ln.goose
      let reports ← exportReports ld ln.name ln.reports
      warnAll (controlWarnings ld ln)
      let settings ← exportSettings ld ln
      -- The order of the schema: data sets, reports, GOOSE, settings.
      return (element (if ln.name = "LLN0" then "LN0" else "LN")
        ([("lnClass", cls), ("inst", lnInst), ("lnType", id)] ++
          (if pre ≠ "" then [("prefix", pre)] else []))
        (dataSets ++ reports ++ goose.map (·.1) ++ settings), goose.map (·.2))

def exportNodes (devices : List LogicalDevice) (inst ld : String) :
    List LogicalNode → Build (List Element × List Element)
  | [] => return ([], [])
  | ln :: rest => do
      let (x, gses) ← exportNode devices inst ld ln
      let (xs, gses') ← exportNodes devices inst ld rest
      return (x :: xs, gses ++ gses')

/-- One logical device, with `LLN0` in front. -/
def exportDevice (devices : List LogicalDevice) (ld : LogicalDevice) :
    Build (Element × List Element) := do
  let inst := (ldInst devices ld.name).getD ""
  let (nodes, gses) ← exportNodes devices inst ld.name
    (ld.nodes.filter (·.name == "LLN0") ++ ld.nodes.filter (·.name != "LLN0"))
  if !ld.nodes.any (·.name == "LLN0") then throw s!"{ld.name} has no LLN0; cannot export an ICD"
  return (element "LDevice" [("inst", inst), ("ldName", ld.name)] nodes, gses)

def exportDevices (devices : List LogicalDevice) :
    List LogicalDevice → Build (List Element × List Element)
  | [] => return ([], [])
  | ld :: rest => do
      let (x, gses) ← exportDevice devices ld
      let (xs, gses') ← exportDevices devices rest
      return (x :: xs, gses ++ gses')

/-! ## Reconciliation -/

/-- A lookup in a map that was filled in this order: the last entry counts. -/
def lastNamed {α : Type} (key : α → String) (xs : List α) (k : String) : Option α :=
  xs.reverse.find? (key · == k)

/-- A definition by its identifier. -/
def typeOf (types : List Element) (id : String) : Element :=
  (lastNamed (·.attribute "id") types id).getD {}

/-- The key of a logical node or of the node of a member, inside its device. -/
def nodeName (x : Element) (inst : String) : String :=
  x.attribute "prefix" ++ x.attribute "lnClass" ++ x.attribute inst

/-- The walk of `resolve` along a path: the names of objects and of attributes on it. -/
def walk (types : List Element) (fc : String) :
    Element → List String → Option (List String × List String)
  | _, [] => some ([], [])
  | current, name :: names =>
      match current.children.find? (·.attribute "name" == name) with
      | none => none
      | some child =>
          let rest := walk types fc (typeOf types (child.attribute "type")) names
          if child.name = "DO" ∨ child.name = "SDO" then rest.map fun r ↦ (name :: r.1, r.2)
          else if child.name = "DA" then
            if child.attribute "fc" ≠ fc then none else rest.map fun r ↦ (r.1, name :: r.2)
          else if child.name = "BDA" then rest.map fun r ↦ (r.1, name :: r.2)
          else none

/-- `nodes`: the definition of the node with this key. -/
def nodeType (types devices : List Element) (key : String) : Option Element :=
  (lastNamed (·.1) (devices.flatMap fun ld ↦ ld.children.map fun ln ↦
    (ld.attribute "inst" ++ "/" ++ nodeName ln "inst",
      typeOf types (ln.attribute "lnType"))) key).map (·.2)

/-- `resolve`: the member with its path divided into object and attribute. -/
def resolve (types devices : List Element) (member : Element) : Option Element :=
  match nodeType types devices
      (member.attribute "ldInst" ++ "/" ++ nodeName member "lnInst") with
  | none => none
  | some definition =>
      let path := split '.' (member.attribute "doName") ++
        (if member.attribute "daName" ≠ "" then split '.' (member.attribute "daName") else [])
      match walk types (member.attribute "fc") definition path with
      | none => none
      | some (objects, attrs) =>
          let member := member.setAttribute "doName" (join '.' objects)
          some (if attrs ≠ [] then member.setAttribute "daName" (join '.' attrs)
            else { member with attrs := member.attrs.filter (·.1 != "daName") })

/-- All members of a data set, if all of them resolve. -/
def resolveAll (types devices : List Element) : List Element → Option (List Element)
  | [] => some []
  | m :: ms =>
      match resolve types devices m, resolveAll types devices ms with
      | some m, some ms => some (m :: ms)
      | _, _ => none

/-- A data set without members, or with one that does not resolve, is left out. -/
def reconcileDataSet (types devices : List Element) (ds : Element) : Option Element :=
  if ds.children = [] then none
  else (resolveAll types devices ds.children).map fun members ↦ { ds with children := members }

/-- The children of a logical node that stay, and the warnings about the others. -/
def reconcileNode (types devices : List Element) (ln : Element) : Element × List String :=
  let dataSets := ln.childrenNamed "DataSet"
  let kept := dataSets.filterMap (reconcileDataSet types devices)
  let available (control : Element) : Bool :=
    kept.any (·.attribute "name" == control.attribute "datSet")
  let controls := ln.children.filter (·.name != "DataSet")
  let stays (control : Element) : Bool :=
    !(control.name == "GSEControl" && !available control) &&
      !(control.name == "ReportControl" && control.attribute "datSet" != "" && !available control)
  ({ ln with children := kept ++ controls.filter stays },
    (dataSets.filter fun ds ↦ (reconcileDataSet types devices ds).isNone).map (fun ds ↦
      "DataSet " ++ ds.attribute "name" ++ ": unresolved member; whole DataSet omitted") ++
    (controls.filter (!stays ·)).map fun control ↦
      (if control.name = "GSEControl" then "GoCB " else "ReportControl ") ++
        control.attribute "name" ++ ": DataSet unavailable; omitted")

/-- `reconcileDataSets` on the logical devices. -/
def reconcileDevices (types devices : List Element) : List Element :=
  devices.map fun ld ↦ { ld with children := ld.children.map fun ln ↦
    (reconcileNode types devices ln).1 }

def reconcileWarnings (types devices : List Element) : List String :=
  devices.flatMap fun ld ↦ ld.children.flatMap fun ln ↦ (reconcileNode types devices ln).2

/-- The addresses of the GOOSE control blocks that stay. -/
def reconcileAddresses (devices gses : List Element) : List Element :=
  gses.filter fun gse ↦ devices.any fun ld ↦ ld.attribute "inst" == gse.attribute "ldInst" &&
    ld.children.any fun ln ↦ (ln.childrenNamed "GSEControl").any
      (·.attribute "name" == gse.attribute "cbName")

/-! ## The document -/

/-- `iedName`. -/
def discoveredIED : String := "DiscoveredIED"

/-- The document around the devices, the addresses and the definitions. -/
def exportDocument (ip : String) (devices gses types : List Element) : Element :=
  element "SCL" [("xmlns", "http://www.iec.ch/61850/2003/SCL"), ("version", "2007"),
      ("revision", "B"), ("release", "4")]
    [element "Header" [("id", "PBMT_Discovered"), ("toolID", "PBMT"), ("nameStructure", "IEDName")],
      element "Communication" [] [element "SubNetwork" [("name", "MMS"), ("type", "8-MMS")]
        [element "ConnectedAP" [("iedName", discoveredIED), ("apName", "AP1")]
          (element "Address" [] [textElement "P" [("type", "IP")] ip] :: gses)]],
      element "IED" [("name", discoveredIED)] [element "AccessPoint" [("name", "AP1")]
        [element "Server" [] (element "Authentication" [] :: devices)]],
      element "DataTypeTemplates" [] types]

/-- The notice that every export begins with. -/
def exportNotice : String :=
  "Online reconstruction: CDCs are inferred from structure; enum labels and engineering " ++
    "descriptions are unavailable. Objects/control blocks that cannot be represented in SCL are " ++
    "omitted."

/-- `ExportICD`: the document, and the warnings. -/
def exportICD (model : Model) : Except String Element × List String :=
  if model.devices = [] then (.error "read a model before exporting", [])
  else
    match exportDevices model.devices model.devices
        { warnings := model.warnings ++ [exportNotice] } with
    | (.error err, b) => (.error err, b.warnings)
    | (.ok (devices, gses), b) =>
        let types := b.lns ++ b.dos ++ b.das
        let kept := reconcileDevices types devices
        (.ok (exportDocument model.ip kept (reconcileAddresses kept gses) types),
          b.warnings ++ reconcileWarnings types devices)

end ProcessBus.Scl
