import Mathlib

/-!
# Models and documents

The data of `internal/application/sclmodel`: the model that is browsed from a device or imported
from a file (`model.go`), and the elements of an SCL document (`xmlElement`) with their attributes.
A document is its tree of elements; `encoding/xml` reads back the tree it wrote.

Names are text; the functions of Go's `strings` that take them apart are given on their characters.
-/

namespace ProcessBus.Scl

/-! ## Text -/

/-- `strings.Cut` at a character. -/
def cut (sep : Char) (s : String) : Option (String × String) :=
  match s.toList.span (· ≠ sep) with
  | (_, []) => none
  | (before, _ :: after) => some (.ofList before, .ofList after)

/-- `strings.Split` at a character. -/
def split (sep : Char) (s : String) : List String := (s.toList.splitOn sep).map .ofList

/-- `strings.Join` with a character. -/
def join (sep : Char) (parts : List String) : String :=
  .ofList ([sep].intercalate (parts.map (·.toList)))

/-- `strings.HasPrefix`. -/
def startsWith (start s : String) : Bool := start.toList.isPrefixOf s.toList

/-- `strings.TrimPrefix`. -/
def trimStart (start s : String) : String :=
  if startsWith start s then .ofList (s.toList.drop start.length) else s

/-- `strings.ReplaceAll` of a character. -/
def replace (old new : Char) (s : String) : String :=
  .ofList (s.toList.map fun c ↦ if c = old then new else c)

theorem toList_join (sep : Char) (parts : List String) :
    (join sep parts).toList = [sep].intercalate (parts.map (·.toList)) := by
  simp [join]

theorem not_mem_of_mem_splitOn {sep : Char} {cs part : List Char} (h : part ∈ cs.splitOn sep) :
    sep ∉ part := by
  induction cs generalizing part with
  | nil =>
      rw [List.splitOn_nil, List.mem_singleton] at h
      subst h
      exact List.not_mem_nil
  | cons c cs ih =>
      rw [List.splitOn_cons_eq_if_modifyHead] at h
      by_cases hc : (c == sep) = true
      · rw [if_pos hc] at h
        rcases List.mem_cons.mp h with rfl | h
        · exact List.not_mem_nil
        · exact ih h
      · rw [if_neg hc] at h
        obtain ⟨p, ps, hps⟩ := List.exists_cons_of_ne_nil (List.splitOn_ne_nil sep cs)
        rw [hps, List.modifyHead_cons] at h
        rcases List.mem_cons.mp h with rfl | h
        · rintro hmem
          rcases List.mem_cons.mp hmem with rfl | hmem
          · simp at hc
          · exact ih (by rw [hps]; exact List.mem_cons_self) hmem
        · exact ih (by rw [hps]; exact List.mem_cons_of_mem _ h)

theorem not_mem_of_mem_split {sep : Char} {s part : String} (h : part ∈ split sep s) :
    sep ∉ part.toList := by
  obtain ⟨cs, hcs, rfl⟩ := List.mem_map.mp h
  rw [String.toList_ofList]
  exact not_mem_of_mem_splitOn hcs

theorem split_ne_nil (sep : Char) (s : String) : split sep s ≠ [] := by
  rw [split, ne_eq, List.map_eq_nil_iff]
  exact List.splitOn_ne_nil sep s.toList

theorem split_join {sep : Char} {parts : List String} (h : parts ≠ [])
    (hsep : ∀ part ∈ parts, sep ∉ part.toList) : split sep (join sep parts) = parts := by
  rw [split, toList_join, List.splitOn_intercalate sep _ (by simpa using h), List.map_map]
  · have hid : (String.ofList ∘ String.toList) = id := by
      funext s
      simp
    rw [hid, List.map_id]
  · intro cs hcs
    obtain ⟨part, hpart, rfl⟩ := List.mem_map.mp hcs
    exact hsep part hpart

/-! ## Models -/

/-- `Type`: a node of the tree of MMS types. -/
structure Typ where
  name : String
  kind : String
  size : ℤ := 0
  children : List Typ := []

/-- `DataSet`. -/
structure DataSet where
  name : String
  members : List String

/-- `GooseControl`. -/
structure GooseControl where
  name : String
  dataSet : String
  goID : String
  mac : String
  confRev : UInt32
  appID : ℕ
  vlan : ℕ
  priority : ℕ
  minTime : UInt32 := 0
  maxTime : UInt32 := 0

/-- `ReportTriggers`. -/
structure ReportTriggers where
  dataChange : Bool
  qualityChange : Bool
  dataUpdate : Bool
  integrity : Bool
  gi : Bool

/-- `ReportOptions`. -/
structure ReportOptions where
  seqNum : Bool
  timeStamp : Bool
  reasonCode : Bool
  dataSet : Bool
  dataRef : Bool
  bufOvfl : Bool
  entryID : Bool
  confRev : Bool

/-- `ReportControl`. -/
structure ReportControl where
  name : String
  reportID : String
  dataSet : String
  buffered : Bool
  confRev : UInt32
  bufferTime : UInt32
  integrityPeriod : UInt32
  triggers : ReportTriggers
  options : ReportOptions

/-- `SettingControl`. -/
structure SettingControl where
  numGroups : UInt32
  activeGroup : UInt32

/-- `LogicalNode`. -/
structure LogicalNode where
  name : String
  groups : List Typ := []
  dataSets : List DataSet := []
  goose : List GooseControl := []
  reports : List ReportControl := []
  settings : Option SettingControl := none

/-- `LogicalDevice`. -/
structure LogicalDevice where
  name : String
  nodes : List LogicalNode

/-- `Model`, without the times of reading. -/
structure Model where
  ip : String := ""
  devices : List LogicalDevice
  warnings : List String := []

/-- `IsDataFC`: a search in one text, in which the names stand between blanks. -/
def isDataFC (fc : String) : Bool :=
  decide ((" " ++ fc ++ " ").toList <:+: " ST MX CO SP SG SE SV CF DC EX SR BL OR ".toList)

/-! ## The names of logical nodes -/

/-- The regular expression `^(.*?)([A-Z]{4})([0-9]*)$`, from `before` on: the shortest prefix. -/
def matchLN (before : List Char) : List Char → Option (List Char × List Char × List Char)
  | [] => none
  | c :: cs =>
      if ((c :: cs).take 4).length = 4 ∧ ((c :: cs).take 4).all Char.isUpper ∧
          ((c :: cs).drop 4).all Char.isDigit then
        some (before, (c :: cs).take 4, (c :: cs).drop 4)
      else if c = '\n' then none
      else matchLN (before ++ [c]) cs

/-- `splitLN`: prefix, class and instance. -/
def splitLN (name : String) : Except String (String × String × String) :=
  if name = "LLN0" then .ok ("", "LLN0", "")
  else
    match matchLN [] name.toList with
    | some (before, cls, inst) =>
        if inst = [] then .error s!"cannot reconstruct logical node name \"{name}\""
        else .ok (.ofList before, .ofList cls, .ofList inst)
    | none => .error s!"cannot reconstruct logical node name \"{name}\""

theorem matchLN_append {before s pre cls inst : List Char}
    (h : matchLN before s = some (pre, cls, inst)) : pre ++ (cls ++ inst) = before ++ s := by
  induction s generalizing before with
  | nil => cases h
  | cons c cs ih =>
      rw [matchLN] at h
      split_ifs at h
      · cases h
        rw [List.take_append_drop]
      · rw [ih h, List.append_assoc, List.singleton_append]

/-- The parts of a name make up the name. -/
theorem splitLN_append {name pre cls inst : String} (h : splitLN name = .ok (pre, cls, inst)) :
    pre ++ cls ++ inst = name := by
  unfold splitLN at h
  split_ifs at h with hlln0
  · cases h
    exact hlln0.symm
  · split at h
    · rename_i before cls' inst' hmatch
      split_ifs at h
      cases h
      have happend := matchLN_append hmatch
      rw [List.nil_append] at happend
      rw [← String.toList_inj]
      simpa using happend
    · cases h

/-! ## Elements -/

/-- `xmlElement`. -/
structure Element where
  name : String := ""
  attrs : List (String × String) := []
  children : List Element := []
  text : String := ""

instance : Inhabited Element := ⟨{}⟩

/-- `element`. -/
def element (name : String) (attrs : List (String × String)) (children : List Element := []) :
    Element :=
  { name, attrs, children }

/-- `attribute`: the first one of this name, or nothing. -/
def Element.attribute (x : Element) (name : String) : String := (x.attrs.lookup name).getD ""

/-- The list of attributes after `setAttribute`. -/
def setAttr (name value : String) : List (String × String) → List (String × String)
  | [] => [(name, value)]
  | a :: attrs => if a.1 = name then (name, value) :: attrs else a :: setAttr name value attrs

/-- `setAttribute`. -/
def Element.setAttribute (x : Element) (name value : String) : Element :=
  { x with attrs := setAttr name value x.attrs }

/-- `childrenNamed`. -/
def Element.childrenNamed (x : Element) (name : String) : List Element :=
  x.children.filter (·.name == name)

/-- `childNamed`: the first one, or an empty element. -/
def Element.childNamed (x : Element) (name : String) : Element :=
  (x.children.find? (·.name == name)).getD {}

theorem lookup_setAttr (name value key : String) (attrs : List (String × String)) :
    (setAttr name value attrs).lookup key =
      if key = name then some value else attrs.lookup key := by
  induction attrs with
  | nil =>
      by_cases h : key = name
      · simp [setAttr, h]
      · simp [setAttr, h, beq_eq_false_iff_ne.mpr h, List.lookup]
  | cons a attrs ih =>
      rw [setAttr]
      split_ifs with ha hk hk
      · simp [hk]
      · simp [List.lookup, beq_eq_false_iff_ne.mpr hk, ha]
      · subst hk
        have : (key == a.1) = false := beq_eq_false_iff_ne.mpr (Ne.symm ha)
        simp only [List.lookup, this, ih, if_true]
      · simp only [List.lookup, ih, if_neg hk]

@[simp] theorem Element.attribute_setAttribute (x : Element) (name value key : String) :
    (x.setAttribute name value).attribute key = if key = name then value else x.attribute key := by
  simp only [Element.attribute, setAttribute, lookup_setAttr]
  split_ifs <;> rfl

@[simp] theorem Element.name_setAttribute (x : Element) (name value : String) :
    (x.setAttribute name value).name = x.name := rfl

@[simp] theorem Element.children_setAttribute (x : Element) (name value : String) :
    (x.setAttribute name value).children = x.children := rfl

@[simp] theorem name_element (name : String) (attrs : List (String × String))
    (children : List Element) : (element name attrs children).name = name := rfl

@[simp] theorem children_element (name : String) (attrs : List (String × String))
    (children : List Element) : (element name attrs children).children = children := rfl

end ProcessBus.Scl
