import ProcessBus.Scl.Import
import ProcessBus.Scl.TypeCost
import ProcessBus.Supervisor.Modules

/-!
# GOOSE streams of a document

`ParseGooseSCL` of `goose.go` in `internal/application/sclmodel`: every GOOSE control block of a
document becomes a stream with its address and the types of its data set.  What is wrong with one
control block is an error of its stream; the document itself is refused only for its types and its
logical devices.

One builder with one budget serves all control blocks.
-/

namespace ProcessBus.Scl

open Go Go.Strconv Lib Metered Publisher

/-- `GooseStream`. -/
structure GooseStream where
  ied : String := ""
  accessPoint : String := ""
  name : String := ""
  gocbRef : String := ""
  datSet : String := ""
  goID : String := ""
  dstMAC : String := ""
  appID : UInt16 := 0
  confRev : UInt32 := 0
  vlanID : Option UInt16 := none
  vlanPriority : Option UInt8 := none
  entries : List Typ := []
  frameError : String := ""
  schemaError : String := ""

/-! ## Types -/

/-- The loop that enters the definitions. -/
def enterTypes : TypeTable → List Element → Except String TypeTable
  | types, [] => .ok types
  | types, typ :: rest =>
      let id := typ.attribute "id"
      if id = "" ∨ (types.get id).name ≠ "" then
        .error s!"missing or duplicate SCL type {quote id}"
      else enterTypes (types ++ [(id, typ)]) rest

/-- An attribute of an enumeration is read as the integer that is sent for it. -/
def readEnum (types : TypeTable) (a : Element) : Element :=
  if a.attribute "bType" = "Enum" ∧ (types.get (a.attribute "type")).name = "EnumType" then
    a.setAttribute "bType" "INT32"
  else a

/-- The types of a document; reading enumerations renames no definition, so that the order does
not matter. -/
def typeTable (root : Element) : Except String TypeTable := do
  let types ← enterTypes [] (root.childNamed "DataTypeTemplates").children
  return types.map fun e ↦ (e.1, { e.2 with children := e.2.children.map (readEnum types) })

/-! ## Logical devices -/

/-- An entry of `domains` and of `ldByInst`. -/
structure Device where
  inst : String
  domain : String
  element : Element

/-- `domains[inst]`. -/
def domainOf (devices : List Device) (inst : String) : String :=
  ((devices.find? (·.inst == inst)).map (·.domain)).getD ""

/-- `devices[inst]`. -/
def deviceOf (devices : List Device) (inst : String) : Element :=
  ((devices.find? (·.inst == inst)).map (·.element)).getD {}

/-- The loop that enters the logical devices of an access point. -/
def enterDevices (iedName : String) : List Device → List Element → Except String (List Device)
  | devices, [] => .ok devices
  | devices, ld :: rest =>
      let inst := ld.attribute "inst"
      if inst = "" ∨ domainOf devices inst ≠ "" then
        .error s!"missing or duplicate LDevice inst {quote inst}"
      else
        let domain :=
          if ld.attribute "ldName" = "" then iedName ++ inst else ld.attribute "ldName"
        enterDevices iedName (devices ++ [⟨inst, domain, ld⟩]) rest

/-- The elements of logical nodes. -/
def isNode (x : Element) : Bool := x.name == "LN0" || x.name == "LN"

/-- `sclLNName`. -/
def sclLNName (x : Element) : String :=
  if x.name = "LN0" then "LLN0"
  else x.attribute "prefix" ++ x.attribute "lnClass" ++ x.attribute "inst"

/-! ## Addresses -/

/-- The parameters of an address by their types. -/
def addressValues : List (String × String) → List Element → Except String (List (String × String))
  | values, [] => .ok values
  | values, p :: rest =>
      let key := p.attribute "type"
      if (values.lookup key).isSome then .error s!"duplicate address parameter {key}"
      else addressValues (values ++ [(key, trimSpace p.text)]) rest

/-- `HardwareAddr.String`. -/
def formatMAC (mac : Bytes) : String :=
  join ':' (mac.map fun b ↦ .ofList (hexByte b.toNat))

/-- The addresses of a control block in the communication section. -/
def gooseAddresses (g : GooseStream) (root : Element) (ldInst : String) : List Element :=
  ((root.childNamed "Communication").childrenNamed "SubNetwork").flatMap fun sub ↦
    ((sub.childrenNamed "ConnectedAP").filter fun ap ↦
      ap.attribute "iedName" == g.ied && ap.attribute "apName" == g.accessPoint).flatMap fun ap ↦
        (ap.childrenNamed "GSE").filter fun x ↦
          x.attribute "ldInst" == ldInst && x.attribute "cbName" == g.name

/-- The VLAN priority of an address. -/
def readGoosePriority (g : GooseStream) (values : List (String × String)) :
    GooseStream × Option String :=
  match values.lookup "VLAN-PRIORITY" with
  | none => (g, none)
  | some raw =>
      match parseUint raw 10 3 with
      | .error _ => (g, some "invalid VLAN priority")
      | .ok n => ({ g with vlanPriority := some n.toUInt8 }, none)

/-- The VLAN of an address. -/
def readGooseVLAN (g : GooseStream) (values : List (String × String)) :
    GooseStream × Option String :=
  match values.lookup "VLAN-ID" with
  | none => readGoosePriority g values
  | some raw =>
      match parseUint raw 16 12 with
      | .error _ => (g, some "invalid VLAN ID")
      | .ok n =>
          if 4094 < n then (g, some "invalid VLAN ID")
          else readGoosePriority { g with vlanID := some n.toUInt16 } values

/-- `readGooseAddress`: what was read before an error stays. -/
def readGooseAddress (g : GooseStream) (root : Element) (ldInst : String) :
    GooseStream × Option String :=
  match gooseAddresses g root ldInst with
  | [x] =>
      match addressValues [] ((x.childNamed "Address").childrenNamed "P") with
      | .error err => (g, some err)
      | .ok values =>
          let text := replace '-' ':' ((values.lookup "MAC-Address").getD "")
          match Supervisor.parseMAC text.toUTF8.toList with
          | none => (g, some "missing or invalid destination MAC")
          | some mac =>
              if mac.length ≠ 6 then (g, some "missing or invalid destination MAC")
              else
                let g := { g with dstMAC := formatMAC mac }
                match parseUint ((values.lookup "APPID").getD "") 16 16 with
                | .error _ => (g, some "missing or invalid numeric APPID")
                | .ok app => readGooseVLAN { g with appID := app.toUInt16 } values
  | _ => (g, some "missing or ambiguous Communication/GSE address")

/-! ## Members -/

/-- The types of the logical nodes of a name. -/
def nodeTypes (devices : List Device) (inst lnName : String) : List String :=
  ((deviceOf devices inst).children.filter fun ln ↦ isNode ln && sclLNName ln == lnName).map
    (·.attribute "lnType")

/-- The last child of a name. -/
def childTyp (value : Typ) (name : String) : Option Typ :=
  (value.children.filter (·.name == name)).getLast?

/-- The loop along the path of a member. -/
def descend : Option Typ → List String → Option Typ
  | value, [] => value
  | none, _ :: _ => none
  | some value, part :: parts =>
      if value.kind ≠ "STRUCTURE" then none else descend (childTyp value part) parts

/-- The value of a member in what its object consists of. -/
def memberTyp (groups : List FcType) (fc : String) (parts : List String) : Option Typ :=
  descend ((groups.filter (·.fc == fc)).getLast?.map (·.t)) parts

/-- The object of a member, unfolded. -/
def memberGroups (types : TypeTable) (definition : Element) (path name : String) :
    Metered String (List FcType) :=
  match (definition.childrenNamed "DO").filter (·.attribute "name" == name) with
  | [obj] =>
      if obj.attribute "count" ≠ "" then fail s!"unresolved or array FCDA object {path}"
      else types.object 49 name (obj.attribute "type")
  | _ => fail s!"unresolved or array FCDA object {path}"

/-- The path of a member. -/
def gooseMemberPath (m : Element) : String :=
  if m.attribute "daName" = "" then m.attribute "doName"
  else m.attribute "doName" ++ "." ++ m.attribute "daName"

/-- The instance of a member's logical device. -/
def memberInst (m : Element) (current : String) : String :=
  if m.attribute "ldInst" = "" then current else m.attribute "ldInst"

/-- The name of a member's logical node. -/
def memberNode (m : Element) : String :=
  m.attribute "prefix" ++ m.attribute "lnClass" ++ m.attribute "lnInst"

/-- The name that an entry gets. -/
def memberName (devices : List Device) (current : String) (m : Element) : String :=
  domainOf devices (memberInst m current) ++ "/" ++ memberNode m ++ "." ++ gooseMemberPath m

/-- `resolveGooseMember`. -/
def resolveGooseMember (types : TypeTable) (devices : List Device) (current : String)
    (m : Element) : Metered String Typ :=
  let inst := memberInst m current
  let fc := m.attribute "fc"
  if domainOf devices inst = "" ∨ fc = "" ∨ ¬ isDataFC fc ∨ m.attribute "ix" ≠ "" then
    fail "unsupported FCDA domain, FC or array index"
  else
    match nodeTypes devices inst (memberNode m) with
    | [lnType] => do
        let definition ← types.definition lnType "LNodeType" 0
        let path := gooseMemberPath m
        let parts := split '.' path
        let groups ← memberGroups types definition path (parts.head?.getD "")
        match memberTyp groups fc parts.tail with
        | none => fail s!"unresolved FCDA {path} [{fc}]"
        | some value => return { value with name := memberName devices current m }
    | _ => fail s!"unresolved FCDA logical node {memberNode m}"

/-- The loop over the members of a data set, up to the first error. -/
def resolveMembers (resolve : Element → Metered String Typ) :
    List Element → Metered String (List Typ)
  | [] => return []
  | m :: ms => do
      let t ← resolve m
      let ts ← resolveMembers resolve ms
      return t :: ts

/-! ## Control blocks -/

/-- A control block: its stream without a schema, and how its schema is resolved. -/
structure Control where
  header : GooseStream
  members : Metered String (List Typ)

/-- The control blocks that are read. -/
def isGooseControl (cb : Element) : Bool :=
  cb.name == "GSEControl" && (cb.attribute "type" == "" || cb.attribute "type" == "GOOSE")

/-- The stream of a control block with its address. -/
def gooseHeader (root ied ap : Element) (devices : List Device) (ld ln cb : Element) :
    GooseStream :=
  let node := domainOf devices (ld.attribute "inst") ++ "/" ++ sclLNName ln
  let rev := parseUint (cb.attribute "confRev") 10 32
  let g : GooseStream :=
    { ied := ied.attribute "name"
      accessPoint := ap.attribute "name"
      name := cb.attribute "name"
      gocbRef := node ++ "$GO$" ++ cb.attribute "name"
      datSet := node ++ "$" ++ cb.attribute "datSet"
      goID := cb.attribute "appID"
      confRev := (value 32 rev).toUInt32
      frameError :=
        if rev.toOption.isNone ∨ cb.attribute "name" = "" ∨ cb.attribute "datSet" = "" then
          "missing or invalid GSEControl name, datSet or confRev"
        else "" }
  match readGooseAddress g root (ld.attribute "inst") with
  | (g, none) => g
  | (g, some err) => { g with frameError := err }

/-- The members of a control block's data set. -/
def gooseMembers (types : TypeTable) (devices : List Device) (ld ln cb : Element) :
    Metered String (List Typ) :=
  match (ln.childrenNamed "DataSet").filter (·.attribute "name" == cb.attribute "datSet") with
  | [set] =>
      resolveMembers (resolveGooseMember types devices (ld.attribute "inst"))
        (set.childrenNamed "FCDA")
  | _ => fail "missing or ambiguous DataSet"

/-- The control block of an element. -/
def control (types : TypeTable) (root ied ap : Element) (devices : List Device)
    (ld ln cb : Element) : Control where
  header := gooseHeader root ied ap devices ld ln cb
  members := gooseMembers types devices ld ln cb

/-- The stream of a control block whose members are resolved, if they can be displayed. -/
def GooseStream.resolved (g : GooseStream) : Except String (List Typ) → GooseStream
  | .error err => { g with schemaError := err }
  | .ok entries =>
      match displayBudget entries 200000 with
      | .error err => { g with schemaError := err }
      | .ok _ => { g with entries }

/-! ## Documents -/

/-- What is left of the builder's budget, and the streams so far. -/
abbrev ParseState := ℤ × List GooseStream

/-- One control block: its members are resolved with what is left of the budget. -/
def parseControl (st : ParseState) (c : Control) : ParseState :=
  ((c.members.run st.1).2, st.2 ++ [c.header.resolved (c.members.run st.1).1])

/-- The control blocks of a logical node. -/
def parseNode (types : TypeTable) (root ied ap : Element) (devices : List Device) (ld : Element)
    (st : ParseState) (ln : Element) : ParseState :=
  (ln.children.filter isGooseControl).foldl
    (fun st cb ↦ parseControl st (control types root ied ap devices ld ln cb)) st

/-- The logical nodes of a logical device. -/
def parseDevice (types : TypeTable) (root ied ap : Element) (devices : List Device)
    (st : ParseState) (ld : Element) : ParseState :=
  (ld.children.filter isNode).foldl (parseNode types root ied ap devices ld) st

/-- The logical devices of an access point. -/
def parseAccessPoint (types : TypeTable) (root ied : Element) (st : ParseState) (ap : Element) :
    Except String ParseState := do
  let lds := (ap.childNamed "Server").childrenNamed "LDevice"
  let devices ← enterDevices (ied.attribute "name") [] lds
  return lds.foldl (parseDevice types root ied ap devices) st

/-- The access points of an IED. -/
def parseIED (types : TypeTable) (root : Element) (st : ParseState) (ied : Element) :
    Except String ParseState :=
  (ied.childrenNamed "AccessPoint").foldlM (parseAccessPoint types root ied) st

/-- `ParseGooseSCL`. -/
def parseGooseSCL (root : Element) : Except String (List GooseStream) := do
  let types ← typeTable root
  let st ← (root.childrenNamed "IED").foldlM (parseIED types root) (200000, [])
  return st.2

end ProcessBus.Scl
