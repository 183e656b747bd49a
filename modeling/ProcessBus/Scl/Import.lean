import ProcessBus.Go.Strconv
import ProcessBus.Lib.Metered
import ProcessBus.Scl.Export
import ProcessBus.Scl.Publisher

/-!
# Importing types

`importBuilder` of `import.go` in `internal/application/sclmodel`: the definitions of a document's
types are unfolded into trees.  Every definition and every attribute that is visited takes one node
of a budget, and no path is longer than 48, so that a cyclic graph of types ends as well.

The unfolding is a program that takes units of a budget (`Lib.Metered`).  Its recursion is by the
levels that are left: `left` is 49 at depth 0, and at `left = 0` the depth exceeds 48.
-/

namespace ProcessBus.Scl

open Go.Strconv Lib Metered Publisher

/-! ## The definitions -/

/-- `importBuilder.types`. -/
abbrev TypeTable := List (String × Element)

/-- A missing definition is an element without a name. -/
def TypeTable.get (types : TypeTable) (id : String) : Element := (types.lookup id).getD {}

/-- The error of `definition` and of `object`. -/
def typeGraph : String := "cyclic or oversized SCL type graph"

/-- The error of `dataAttribute`. -/
def attributeGraph : String := "cyclic or oversized SCL attribute graph"

/-- `definition`. -/
def TypeTable.definition (types : TypeTable) (id kind : String) (depth : ℕ) :
    Metered String Element := do
  take typeGraph
  let x := types.get id
  if 48 < depth then fail typeGraph
  else if x.name ≠ kind then fail s!"unresolved {kind} {quote id}"
  else return x

/-! ## Basic types -/

/-- The words of `allowed`; no basic type with a blank in it is one. -/
def sizedTypes : List String :=
  ["INT8", "INT16", "INT24", "INT32", "INT64", "INT128", "INT8U", "INT16U", "INT24U", "INT32U",
    "FLOAT32", "FLOAT64", "VisString32", "VisString64", "VisString65", "VisString129",
    "VisString255", "Octet6", "Octet16", "Octet64"]

/-- The loop over the prefixes of a basic type. -/
def sizedKind (basic : String) : Except String (String × ℤ) :=
  match [("INT", "INTEGER"), ("FLOAT", "FLOAT"), ("VisString", "VISIBLE_STRING"),
      ("Octet", "OCTET_STRING")].find? fun p ↦ startsWith p.1 basic with
  | none => .error s!"unsupported SCL basic type {quote basic}"
  | some (start, kind) =>
      let suffix := trimStart start basic
      let isUnsigned : Bool := start == "INT" && hasSuffix suffix "U"
      match atoi (if isUnsigned then trimSuffix suffix "U" else suffix) with
      | none => .error s!"invalid SCL basic type {quote basic}"
      | some size =>
          if size < 1 ∨ 255 < size then .error s!"invalid SCL basic type {quote basic}"
          else .ok (if isUnsigned then "UNSIGNED" else kind, size)

/-- The kind and the size of a basic type. -/
def basicKind (basic : String) : Except String (String × ℤ) :=
  if basic = "BOOLEAN" then .ok ("BOOLEAN", 0)
  else if basic = "Timestamp" then .ok ("UTC_TIME", 0)
  else if basic = "EntryTime" then .ok ("BINARY_TIME", 6)
  else if basic = "ObjRef" then .ok ("VISIBLE_STRING", 129)
  else if basic = "Unicode255" then .ok ("MMS_STRING", 255)
  else if basic = "EntryID" then .ok ("OCTET_STRING", 8)
  else if basic = "Quality" then .ok ("BIT_STRING", 13)
  else if basic = "Check" ∨ basic = "Dbpos" then .ok ("BIT_STRING", 2)
  else if basic = "TrgOps" then .ok ("BIT_STRING", 6)
  else if basic = "OptFlds" then .ok ("BIT_STRING", 10)
  else if basic ∉ sizedTypes then .error s!"unsupported SCL basic type {quote basic}"
  else sizedKind basic

/-! ## Attributes -/

/-- The array of an attribute with a `count`. -/
def arrayOf (count : String) (t : Typ) : Except String Typ :=
  if count = "" then .ok t
  else
    match atoi count with
    | none => .error s!"invalid array count {quote count}"
    | some n =>
        if n < 1 ∨ 200000 < n then .error s!"invalid array count {quote count}"
        else .ok { name := t.name, kind := "ARRAY", size := n, children := [t] }

/-- The loop over the `BDA` of a structure; `seen` has the names before. -/
def fields (dataAttribute : Element → Metered String Typ) :
    List String → List Element → Metered String (List Typ)
  | _, [] => return []
  | seen, child :: rest => do
      let name := child.attribute "name"
      if name = "" ∨ name ∈ seen then fail s!"missing or duplicate BDA {quote name}"
      else
        let t ← dataAttribute child
        let ts ← fields dataAttribute (name :: seen) rest
        return t :: ts

/-- An attribute before its array is made; `struct` has the children of a structure. -/
def plainAttribute (a : Element) (struct : Metered String (List Typ)) : Metered String Typ :=
  let name := a.attribute "name"
  if a.attribute "bType" = "Struct" then do
    let children ← struct
    return { name, kind := "STRUCTURE", children }
  else do
    let (kind, size) ← ofExcept (basicKind (a.attribute "bType"))
    return { name, kind, size }

/-- `dataAttribute`. -/
def TypeTable.dataAttribute (types : TypeTable) : ℕ → Element → Metered String Typ
  | 0, _ => do
      take attributeGraph
      fail attributeGraph
  | left + 1, a => do
      take attributeGraph
      let t ← plainAttribute a do
        let x ← types.definition (a.attribute "type") "DAType" (48 - left)
        fields (types.dataAttribute left) [] (x.childrenNamed "BDA")
      ofExcept (arrayOf (a.attribute "count") t)

/-! ## Objects -/

/-- `add`: the structure of a constraint gets another attribute. -/
def addPart (name fc : String) (attr : Typ) : List FcType → List FcType
  | [] => [⟨fc, { name, kind := "STRUCTURE", children := [attr] }⟩]
  | group :: groups =>
      if group.fc = fc then
        { group with t := { group.t with children := group.t.children ++ [attr] } } :: groups
      else group :: addPart name fc attr groups

/-- What one `DA` or `SDO` adds; `object` unfolds a sub-object. -/
def objectParts (object : String → String → Metered String (List FcType))
    (dataAttribute : Element → Metered String Typ) (a : Element) :
    Metered String (List FcType) :=
  let name := a.attribute "name"
  let fc := a.attribute "fc"
  if a.name = "SDO" then
    if a.attribute "count" ≠ "" then fail s!"SDO arrays are not supported: {name}"
    else object name (a.attribute "type")
  else if ¬ isDataFC fc ∨ fc = "" then fail s!"unsupported functional constraint {quote fc}"
  else do
    let t ← dataAttribute a
    return [⟨fc, t⟩]

/-- The loop over the children of a `DOType`; `seen` has the names before. -/
def objectLoop (parts : Element → Metered String (List FcType)) (name : String) :
    List String → List FcType → List Element → Metered String (List FcType)
  | _, result, [] => return result
  | seen, result, a :: rest => do
      let child := a.attribute "name"
      if child = "" ∨ child ∈ seen then
        fail s!"missing or duplicate data attribute {quote child}"
      else
        let added ← parts a
        objectLoop parts name (child :: seen)
          (added.foldl (fun result p ↦ addPart name p.fc p.t result) result) rest

/-- `object`: its type for each functional constraint. -/
def TypeTable.object (types : TypeTable) : ℕ → String → String → Metered String (List FcType)
  | 0, _, id => do
      let _ ← types.definition id "DOType" 49
      return []
  | left + 1, name, id => do
      let x ← types.definition id "DOType" (48 - left)
      objectLoop (objectParts (types.object left) (types.dataAttribute left)) name [] []
        (x.children.filter fun a ↦ a.name == "DA" || a.name == "SDO")

end ProcessBus.Scl
