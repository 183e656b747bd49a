import ProcessBus.Scl.GooseImport

/-!
# Importing a model

`ImportICD` of `import.go` in `internal/application/sclmodel`: a document with one IED becomes a
model again.  The definitions are unfolded with one budget for the whole document, and the data sets
and control blocks are read from the logical nodes and from the communication section.

A number or a flag that cannot be read is remembered and refused at the end of its logical node; the
last one counts.  `net.ParseIP` is a parameter.
-/

namespace ProcessBus.Scl

open Go.Strconv Lib Metered Publisher

/-! ## Numbers and flags -/

/-- A step of `importControls`: the state is `parseErr`. -/
abbrev Reading (α : Type) := ExceptT String (StateM (Option String)) α

/-- `parseErr = ...`. -/
def setParseErr (err : String) : Reading Unit := fun _ ↦ (.ok (), some err)

/-- `number`, of a text. -/
def readNumber (name s : String) (base : ℕ) : Reading UInt32 :=
  if s = "" then return 0
  else
    match parseUint s base 32 with
    | .ok n => return n.toUInt32
    | .error err => do
        setParseErr s!"invalid {name}: {quote s}"
        return (value 32 (.error err)).toUInt32

/-- `number`. -/
def number (x : Element) (name : String) : Reading UInt32 := readNumber name (x.attribute name) 10

/-- `strconv.ParseBool`. -/
def parseBool (s : String) : Option Bool :=
  if s ∈ ["1", "t", "T", "TRUE", "true", "True"] then some true
  else if s ∈ ["0", "f", "F", "FALSE", "false", "False"] then some false
  else none

/-- `flag`. -/
def flag (x : Element) (name : String) : Reading Bool :=
  if x.attribute name = "" then return false
  else
    match parseBool (x.attribute name) with
    | some v => return v
    | none => do
        setParseErr s!"invalid {name}: {quote (x.attribute name)}"
        return false

/-! ## Control blocks -/

/-- `dataset`: the data set of a control block, with the name of its logical node. -/
def dataset (domain node : String) (x : Element) : String :=
  if x.attribute "datSet" = "" then "" else domain ++ "/" ++ node ++ "." ++ x.attribute "datSet"

/-- The triggers of a `ReportControl`. -/
def importTriggers (trg : Element) : Reading ReportTriggers := do
  let dataChange ← flag trg "dchg"
  let qualityChange ← flag trg "qchg"
  let dataUpdate ← flag trg "dupd"
  let integrity ← flag trg "period"
  let gi ← flag trg "gi"
  return { dataChange, qualityChange, dataUpdate, integrity, gi }

/-- The options of a `ReportControl`. -/
def importOptions (opt : Element) : Reading ReportOptions := do
  let seqNum ← flag opt "seqNum"
  let timeStamp ← flag opt "timeStamp"
  let reasonCode ← flag opt "reasonCode"
  let dataSet ← flag opt "dataSet"
  let dataRef ← flag opt "dataRef"
  let bufOvfl ← flag opt "bufOvfl"
  let entryID ← flag opt "entryID"
  let confRev ← flag opt "configRef"
  return { seqNum, timeStamp, reasonCode, dataSet, dataRef, bufOvfl, entryID, confRev }

/-- A `ReportControl`; the names of indexed instances cannot be told from the control's. -/
def importReport (domain node : String) (r : Element) : Reading ReportControl :=
  if r.attribute "indexed" ≠ "false" ∧ r.attribute "indexed" ≠ "0" then
    throw "indexed report controls require Read Model"
  else do
    let buffered ← flag r "buffered"
    let confRev ← number r "confRev"
    let bufferTime ← number r "bufTime"
    let integrityPeriod ← number r "intgPd"
    let triggers ← importTriggers (r.childNamed "TrgOps")
    let options ← importOptions (r.childNamed "OptFields")
    return { name := r.attribute "name", reportID := r.attribute "rptID",
             dataSet := dataset domain node r, buffered, confRev, bufferTime, integrityPeriod,
             triggers, options }

/-- The `SettingControl` of a logical node. -/
def importSettings (x : Element) : Reading (Option SettingControl) :=
  let sg := x.childNamed "SettingControl"
  if sg.name = "" then return none
  else do
    let numGroups ← number sg "numOfSGs"
    let activeGroup ← number sg "actSG"
    if numGroups = 0 ∨ activeGroup = 0 ∨ numGroups < activeGroup then
      throw "invalid setting group parameters"
    else return some { numGroups, activeGroup }

/-- A parameter of an address. -/
def importParameter (g : GooseControl) (p : Element) : Reading GooseControl :=
  let v := trimSpace p.text
  if p.attribute "type" = "MAC-Address" then return { g with mac := v }
  else if p.attribute "type" = "APPID" then do
    let n ← readNumber "value" v 16
    return { g with appID := n.toNat }
  else if p.attribute "type" = "VLAN-ID" then do
    let n ← readNumber "value" v 16
    return { g with vlan := n.toNat }
  else if p.attribute "type" = "VLAN-PRIORITY" then do
    let n ← readNumber "value" v 10
    return { g with priority := n.toNat }
  else return g

/-- A time of a `GSE`, if it has this one. -/
def importTime (comm : Element) (name : String) : Reading (Option UInt32) :=
  let tm := comm.childNamed name
  if tm.name = "" then return none
  else if tm.attribute "unit" ≠ "s" ∨ tm.attribute "multiplier" ≠ "m" then
    throw s!"unsupported {name} units"
  else do
    let n ← readNumber "value" (trimSpace tm.text) 10
    return some n

/-- What a `GSE` adds to its control block. -/
def importGSE (g : GooseControl) (comm : Element) : Reading GooseControl := do
  let g ← ((comm.childNamed "Address").childrenNamed "P").foldlM importParameter g
  let minTime ← importTime comm "MinTime"
  let g := { g with minTime := minTime.getD g.minTime }
  let maxTime ← importTime comm "MaxTime"
  return { g with maxTime := maxTime.getD g.maxTime }

/-- The `GSE` of a control block. -/
def controlGSEs (connection : Element) (ldInst name : String) : List Element :=
  (connection.childrenNamed "GSE").filter fun comm ↦
    comm.attribute "ldInst" == ldInst && comm.attribute "cbName" == name

/-- A `GSEControl`. -/
def importGoose (domain node : String) (connection : Element) (ldInst : String) (cb : Element) :
    Reading GooseControl := do
  let confRev ← number cb "confRev"
  let g : GooseControl :=
    { name := cb.attribute "name", dataSet := dataset domain node cb, goID := cb.attribute "appID",
      mac := "", confRev, appID := 0, vlan := 0, priority := 0 }
  (controlGSEs connection ldInst (cb.attribute "name")).foldlM importGSE g

/-- The steps of `importControls`. -/
def readControls (ln : LogicalNode) (x : Element) (domain : String) (connection : Element)
    (ldInst : String) : Reading LogicalNode := do
  let reports ← (x.childrenNamed "ReportControl").mapM (importReport domain ln.name)
  let settings ← importSettings x
  let goose ← (x.childrenNamed "GSEControl").mapM (importGoose domain ln.name connection ldInst)
  return { ln with reports, settings, goose }

/-- `importControls`. -/
def importControls (ln : LogicalNode) (x : Element) (domain : String) (connection : Element)
    (ldInst : String) : Except String LogicalNode :=
  match readControls ln x domain connection ldInst none with
  | (.error err, _) => .error err
  | (.ok _, some err) => .error err
  | (.ok ln, none) => .ok ln

/-! ## Logical nodes -/

/-- `group.Children = append(group.Children, part.t)`; no two groups have one name. -/
def addGroup (fc : String) (t : Typ) : List Typ → List Typ
  | [] => [{ name := fc, kind := "STRUCTURE", children := [t] }]
  | group :: groups =>
      if group.name = fc then { group with children := group.children ++ [t] } :: groups
      else group :: addGroup fc t groups

/-- The loop over the `DO` of a node's type; `seen` has the names before. -/
def TypeTable.objects (types : TypeTable) :
    List String → List Typ → List Element → Metered String (List Typ)
  | _, groups, [] => return groups
  | seen, groups, obj :: rest => do
      let name := obj.attribute "name"
      if name = "" ∨ name ∈ seen ∨ obj.attribute "count" ≠ "" then
        fail s!"invalid, duplicate or array DO {quote name}"
      else
        let parts ← types.object 49 name (obj.attribute "type")
        types.objects (name :: seen)
          (parts.foldl (fun groups p ↦ addGroup p.fc p.t groups) groups) rest

/-- A member of a data set; `domains` has the names of the logical devices. -/
def importMember (domains : List (String × String)) (ldInst set : String) (member : Element) :
    Except String String :=
  let inst := if member.attribute "ldInst" = "" then ldInst else member.attribute "ldInst"
  let ld := (domains.lookup inst).getD ""
  let fc := member.attribute "fc"
  let obj := member.attribute "doName"
  if ld = "" ∨ ¬isDataFC fc ∨ fc = "" ∨ obj = "" ∨ member.attribute "ix" ≠ "" then
    .error s!"unsupported DataSet member in {set}"
  else
    let ref := ld ++ "/" ++ memberNode member ++ "." ++ obj
    let da := member.attribute "daName"
    .ok ((if da = "" then ref else ref ++ "." ++ da) ++ "[" ++ fc ++ "]")

/-- A data set. -/
def importDataSet (domains : List (String × String)) (ldInst : String) (ds : Element) :
    Except String DataSet := do
  let name := ds.attribute "name"
  let members ← (ds.childrenNamed "FCDA").mapM (importMember domains ldInst name)
  return { name, members }

/-- `node`. -/
def TypeTable.node (types : TypeTable) (x : Element) (name domain : String)
    (domains : List (String × String)) (connection : Element) (ldInst : String) :
    Metered String LogicalNode := do
  let typ ← types.definition (x.attribute "lnType") "LNodeType" 0
  let groups ← types.objects [] [] (typ.childrenNamed "DO")
  let dataSets ← ofExcept ((x.childrenNamed "DataSet").mapM (importDataSet domains ldInst))
  ofExcept (importControls { name, groups, dataSets } x domain connection ldInst)

/-! ## Documents -/

/-- The loop that enters the definitions. -/
def importTypes : TypeTable → List Element → Except String TypeTable
  | types, [] => .ok types
  | types, typ :: rest =>
      let id := typ.attribute "id"
      if id = "" ∨ (types.get id).name ≠ "" then
        .error s!"missing or duplicate type ID {quote id}"
      else importTypes (types ++ [(id, typ)]) rest

/-- The loop that enters the logical devices: instances and names. -/
def importDomains (iedName : String) :
    List (String × String) → List Element → Except String (List (String × String))
  | domains, [] => .ok domains
  | domains, ld :: rest =>
      let inst := ld.attribute "inst"
      let domain := if ld.attribute "ldName" = "" then iedName ++ inst else ld.attribute "ldName"
      if inst = "" ∨ (domains.lookup inst).getD "" ≠ "" ∨ domain ∈ domains.map (·.2) then
        .error s!"missing or duplicate logical device {quote inst}"
      else importDomains iedName (domains ++ [(inst, domain)]) rest

/-- The loop over the logical nodes of a device; `seen` has the names before. -/
def TypeTable.nodes (types : TypeTable) (domain : String) (domains : List (String × String))
    (connection : Element) (ldInst : String) :
    List String → List Element → Metered String (List LogicalNode)
  | seen, [] => if "LLN0" ∈ seen then return [] else fail s!"{domain} has no LLN0"
  | seen, node :: rest => do
      let name := sclLNName node
      if (splitLN name).toOption.isNone ∨ name ∈ seen then
        fail s!"invalid or duplicate logical node {quote name}"
      else
        let ln ← (types.node node name domain domains connection ldInst).mapError fun err ↦
          s!"{domain}/{name}: {err}"
        let lns ← types.nodes domain domains connection ldInst (name :: seen) rest
        return ln :: lns

/-- The loop over the logical devices. -/
def TypeTable.devices (types : TypeTable) (domains : List (String × String))
    (connection : Element) : List Element → Metered String (List LogicalDevice)
  | [] => return []
  | ld :: rest => do
      let ldInst := ld.attribute "inst"
      let name := (domains.lookup ldInst).getD ""
      let nodes ← types.nodes name domains connection ldInst [] (ld.children.filter isNode)
      let lds ← types.devices domains connection rest
      return { name, nodes } :: lds

/-- The only element of a list. -/
def single (xs : List Element) (err : ℕ → String) : Except String Element :=
  match xs with
  | [x] => .ok x
  | _ => .error (err xs.length)

/-- The entry of an access point in the communication section: an empty one if it has none. -/
def connectionOf (root ied ap : Element) : Except String Element :=
  match ((root.childNamed "Communication").childrenNamed "SubNetwork").flatMap fun sub ↦
      (sub.childrenNamed "ConnectedAP").filter fun cap ↦
        cap.attribute "iedName" == ied.attribute "name" &&
          cap.attribute "apName" == ap.attribute "name" with
  | [] => .ok {}
  | [connection] => .ok connection
  | _ => .error "multiple communication addresses for the IED access point"

/-- `net.ParseIP`, and its text. -/
def readIP (parseIP : String → Option String) (text : String) : Except String String :=
  match parseIP text with
  | none => .error "invalid IED IP address in ICD"
  | some ip => .ok ip

/-- The address of the server. -/
def importIP (parseIP : String → Option String) (connection : Element) : Except String String :=
  (((connection.childNamed "Address").childrenNamed "P").filter
    (·.attribute "type" == "IP")).foldlM (fun _ p ↦ readIP parseIP (trimSpace p.text)) ""

/-- `ImportICD`. -/
def importICD (parseIP : String → Option String) (root : Element) : Except String Model := do
  let ied ← single (root.childrenNamed "IED") fun n ↦
    s!"ICD must describe exactly one IED (found {n})"
  let ap ← single ((ied.childrenNamed "AccessPoint").filter fun ap ↦
      (ap.childrenNamed "Server").length == 1) fun n ↦
    s!"ICD must contain one server access point (found {n})"
  let connection ← connectionOf root ied ap
  let ip ← importIP parseIP connection
  let types ← importTypes [] (root.childNamed "DataTypeTemplates").children
  let lds := (ap.childNamed "Server").childrenNamed "LDevice"
  let domains ← importDomains (ied.attribute "name") [] lds
  let devices ← ((types.devices domains connection lds).run 200000).1
  if devices = [] then throw "ICD contains no logical devices"
  else return { ip, devices }

end ProcessBus.Scl
