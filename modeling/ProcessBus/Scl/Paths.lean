import ProcessBus.Scl.Templates

/-!
# Paths in types

A path of names leads from the type of a logical node to an object or to an attribute.  The walk of
`reconcileDataSets` along a path of the document leads where the path leads in the model, in the
objects that can be converted (`DefinesNode.walk_eq`), and a constraint selects an attribute below
it if some attribute of the object carries the constraint (`DefinesNode.selects_iff`).
-/

namespace ProcessBus.Scl

open Definitions

/-! ## What a member refers to -/

/-- The definition of the object with these names, below a definition. -/
def ObjectAt (types : List Element) : Element → List String → Element → Prop
  | d, [], d' => d' = d
  | d, name :: names, d' =>
      ∃ c ∈ d.children, (c.name = "DO" ∨ c.name = "SDO") ∧ c.attribute "name" = name ∧
        ∃ d₁ ∈ types, identity d₁ = ("DOType", c.attribute "type") ∧ ObjectAt types d₁ names d'

/-- An attribute has a component with these names. -/
def ComponentAt (types : List Element) : Element → List String → Prop
  | _, [] => True
  | x, name :: names =>
      ∃ d ∈ types, identity d = ("DAType", x.attribute "type") ∧
        ∃ c ∈ d.children, c.name = "BDA" ∧ c.attribute "name" = name ∧ ComponentAt types c names

/-- An object has an attribute with this constraint and these names. -/
def AttributeAt (types : List Element) (fc : String) (d : Element) : List String → Prop
  | [] => False
  | name :: names => ∃ c ∈ d.children, c.name = "DA" ∧ c.attribute "fc" = fc ∧
      c.attribute "name" = name ∧ ComponentAt types c names

/-- A constraint selects an attribute of an object. -/
inductive Selects (types : List Element) (fc : String) : Element → Prop
  /-- One of its own attributes. -/
  | da {d c : Element} (hc : c ∈ d.children) (hname : c.name = "DA") (hfc : c.attribute "fc" = fc) :
      Selects types fc d
  /-- One of a sub-object. -/
  | sdo {d d' c : Element} (hc : c ∈ d.children) (hname : c.name = "SDO") (hd : d' ∈ types)
      (hid : identity d' = ("DOType", c.attribute "type")) (h : Selects types fc d') :
      Selects types fc d

/-! ## The model -/

/-- The fields of a type that is a structure, or an array of structures. -/
def Typ.fields (t : Typ) : List Typ :=
  match t.shape with
  | some s => if s.kind = "STRUCTURE" then s.fields else []
  | none => []

/-- There is a component with these names. -/
def hasField : List Typ → List String → Bool
  | _, [] => true
  | ts, name :: names =>
      match ts.find? (·.name == name) with
      | none => false
      | some t => hasField t.fields names

/-- What a path leads to. -/
inductive Target where
  /-- A whole object. -/
  | object (groups : List FcType)
  /-- An attribute with this constraint. -/
  | attr (fc : String)

/-- The target of a path inside an object. -/
def targetIn : List FcType → List String → Option Target
  | groups, [] => some (.object groups)
  | groups, name :: names =>
      match (gather groups).lookup name with
      | none => none
      | some values =>
          if values.any fun part ↦ isSubObject part.t then targetIn values names
          else
            match values with
            | [] => none
            | v :: others =>
                match mergeParts name v others with
                | .error _ => none
                | .ok w => if hasField w.t.fields names then some (.attr w.fc) else none

/-- A path leads to a target inside a logical node, in an object that can be converted. -/
def Finds (ln : LogicalNode) (path : List String) (target : Target) : Prop :=
  ∃ name names groups, path = name :: names ∧ (name, groups) ∈ gather (dataGroups ln) ∧
    Representable groups ∧ targetIn groups names = some target

/-- A constraint that some attribute of an object has, after `SG` and `SE` are merged. -/
inductive Carries (fc : String) : List FcType → Prop
  /-- One of its own attributes. -/
  | attr {groups : List FcType} {name : String} {v w : FcType} {others : List FcType}
      (hmem : (name, v :: others) ∈ gather groups)
      (hsub : ((v :: others).any fun part ↦ isSubObject part.t) = false)
      (hmerge : mergeParts name v others = .ok w) (hfc : w.fc = fc) : Carries fc groups
  /-- One of a sub-object. -/
  | sub {groups : List FcType} {name : String} {values : List FcType}
      (hmem : (name, values) ∈ gather groups)
      (hsub : (values.any fun part ↦ isSubObject part.t) = true) (h : Carries fc values) :
      Carries fc groups

/-! ## Reading definitions -/

section Read

variable {types : List Element} {roots : List (String × String)} {lo hi : ℕ}

theorem lastNamed_eq {α : Type} (key : α → String) {xs : List α} (h : (xs.map key).Nodup) {x : α}
    (hx : x ∈ xs) : lastNamed key xs (key x) = some x := by
  rw [lastNamed]
  have hrev : (xs.reverse.find? fun y ↦ key y == key x).isSome := by
    rw [List.find?_isSome]
    exact ⟨x, List.mem_reverse.mpr hx, by simp⟩
  obtain ⟨y, hy⟩ := Option.isSome_iff_exists.mp hrev
  have hkey : key y = key x := by simpa using List.find?_some hy
  have hmem : y ∈ xs := List.mem_reverse.mp (List.mem_of_find?_eq_some hy)
  rw [hy, List.inj_on_of_nodup_map h hmem hx hkey]

/-- A definition is found by its identifier. -/
theorem typeOf_eq (hpart : Templates types roots lo hi) {d : Element} (hd : d ∈ types) :
    typeOf types (d.attribute "id") = d := by
  rw [typeOf, lastNamed_eq (·.attribute "id") hpart.nodup hd, Option.getD_some]

/-- What has no reference has no definition. -/
theorem typeOf_empty (hpart : Templates types roots lo hi) : typeOf types "" = {} := by
  rw [typeOf]
  have hnone : lastNamed (·.attribute "id") types "" = none := by
    rw [lastNamed, List.find?_eq_none]
    intro d hd
    obtain ⟨n, -, -, hid⟩ := hpart.fresh d (List.mem_reverse.mp hd)
    have hne : typeID n ≠ "" := by
      rw [typeID]
      simp
    have hattr : d.attribute "id" = typeID n := hid
    simp [hattr, hne]
  rw [hnone, Option.getD_none]

theorem forall₂_find? {α β : Type} {R : α → β → Prop} {xs : List α} {ys : List β} {p : α → Bool}
    {q : β → Bool} (h : List.Forall₂ R xs ys) (hpq : ∀ x ∈ xs, ∀ y, R x y → p x = q y) :
    (xs.find? p = none ∧ ys.find? q = none) ∨
      ∃ x ∈ xs, ∃ y, xs.find? p = some x ∧ ys.find? q = some y ∧ R x y := by
  induction h with
  | nil => exact .inl ⟨rfl, rfl⟩
  | @cons x y xs ys hxy hrest ih =>
      have he := hpq x List.mem_cons_self y hxy
      cases hp : p x with
      | true =>
          refine .inr ⟨x, List.mem_cons_self, y, ?_, ?_, hxy⟩
          · rw [List.find?_cons_of_pos hp]
          · rw [List.find?_cons_of_pos (he ▸ hp)]
      | false =>
          have hq : ¬q y = true := by simp [← he, hp]
          rw [List.find?_cons_of_neg (by simp [hp]), List.find?_cons_of_neg hq]
          rcases ih fun x hx ↦ hpq x (List.mem_cons_of_mem _ hx) with hnone | ⟨x', hx', y', h⟩
          · exact .inl hnone
          · exact .inr ⟨x', List.mem_cons_of_mem _ hx', y', h⟩

theorem startAttrs_attribute (tag name : String) (count : Option ℤ)
    (rest : List (String × String)) (children : List Element) :
    (element tag (startAttrs name count ++ rest) children).attribute "name" = name ∧
      (element tag (startAttrs name count ++ rest) children).attribute "fc" =
        (rest.lookup "fc").getD "" ∧
      (element tag (startAttrs name count ++ rest) children).attribute "type" =
        (rest.lookup "type").getD "" := by
  cases count <;> simp [startAttrs, element, Element.attribute, List.lookup]

theorem Describes.name_eq {t : Typ} {tag : String} {x : Element} (h : Describes types t tag x) :
    x.name = tag ∧ x.attribute "name" = t.name := by
  cases h with
  | basic => exact ⟨rfl, (startAttrs_attribute _ _ _ _ _).1⟩
  | struct => exact ⟨rfl, (startAttrs_attribute _ _ _ _ _).1⟩

/-- The components of an attribute: those of its type. -/
theorem walk_components (hpart : Templates types roots lo hi) {t : Typ} {tag : String} {x : Element}
    (h : Describes types t tag x) (fc : String) (names : List String) :
    walk types fc (typeOf types (x.attribute "type")) names =
      if hasField t.fields names then some ([], names) else none := by
  induction names generalizing t tag x with
  | nil => rfl
  | cons name names ih =>
      cases h with
      | @basic t tag s hshape hkind hbasic =>
          rw [(startAttrs_attribute _ _ _ _ _).2.2]
          have hfields : t.fields = [] := by
            rw [Typ.fields, hshape]
            exact if_neg hkind
          have hnone :
              (List.lookup "type" [("bType", basicType t.name s.kind s.size)]).getD "" = "" := rfl
          rw [hnone, typeOf_empty hpart, hfields]
          rfl
      | @struct t tag s d hshape hkind hd hname hfields =>
          rw [(startAttrs_attribute _ _ _ _ _).2.2]
          have hsome :
              (List.lookup "type" [("bType", "Struct"), ("type", d.attribute "id")]).getD "" =
                d.attribute "id" := rfl
          have hts : t.fields = s.fields := by
            rw [Typ.fields, hshape]
            exact if_pos hkind
          rw [hsome, typeOf_eq hpart hd, walk, hasField, hts]
          have hfind := forall₂_find? (p := fun f ↦ f.name == name)
            (q := fun c ↦ c.attribute "name" == name) hfields fun f _ c hc ↦ by rw [hc.name_eq.2]
          rcases hfind with ⟨hf, hc⟩ | ⟨f, hfmem, c, hf, hc, hdesc⟩
          · rw [hf, hc]
            rfl
          · rw [hf, hc]
            dsimp only
            have hdo : ¬(c.name = "DO" ∨ c.name = "SDO") := by simp [hdesc.name_eq.1]
            have hda : ¬c.name = "DA" := by simp [hdesc.name_eq.1]
            rw [if_neg hdo, if_neg hda, if_pos hdesc.name_eq.1, ih hdesc]
            split_ifs <;> rfl

/-! ## Objects of the model and of the document -/

theorem mergeParts_mem {name : String} {v w : FcType} {others : List FcType}
    (h : mergeParts name v others = .ok w) : w ∈ v :: others := by
  induction others generalizing v with
  | nil =>
      cases h
      exact List.mem_cons_self
  | cons other others ih =>
      rw [mergeParts] at h
      split_ifs at h with hpair
      all_goals
        have hmem := ih h
        simp only [List.mem_cons] at hmem ⊢
        tauto

theorem attribute_append_fc (da : Element) (fc : String) {key : String} (hkey : key ≠ "fc") :
    Element.attribute { da with attrs := da.attrs ++ [("fc", fc)] } key = da.attribute key := by
  rw [Element.attribute, Element.attribute, List.lookup_append]
  cases da.attrs.lookup key with
  | none => simp [List.lookup, beq_eq_false_iff_ne.mpr hkey]
  | some value => rfl

theorem Describes.fc_eq {t : Typ} {tag : String} {da : Element} (h : Describes types t tag da)
    (fc : String) :
    Element.attribute { da with attrs := da.attrs ++ [("fc", fc)] } "fc" = fc := by
  cases h with
  | @basic t tag s =>
      cases s.count <;> simp [startAttrs, element, Element.attribute, List.lookup]
  | @struct t tag s =>
      cases s.count <;> simp [startAttrs, element, Element.attribute, List.lookup]

/-- The element for a name carries the name. -/
theorem DescribesMember.name_eq {groups values : List FcType} {name : String} {x : Element}
    (hmem : (name, values) ∈ gather groups) (h : DescribesMember types name values x) :
    x.attribute "name" = name := by
  cases h with
  | sub hsub hid => rfl
  | @attr _ v w others da hsub hmerge hda =>
      have hw := mergeParts_mem hmerge
      rw [(mem_gather hmem).1, List.mem_filter] at hw
      rw [attribute_append_fc da w.fc (by decide), hda.name_eq.2]
      simpa using hw.2

theorem DescribesObject.members (hpart : Templates types roots lo hi) {groups : List FcType}
    {id : String} (h : DescribesObject types groups id) {d : Element} (hd : d ∈ types)
    (hid : identity d = ("DOType", id)) :
    List.Forall₂ (fun entry x ↦ DescribesMember types entry.1 entry.2 x) (gather groups)
      d.children := by
  obtain ⟨-, -, hd', hid', hmembers⟩ := h
  rw [hpart.unique hd hd' (by rw [hid, hid'])]
  exact hmembers

/-- The definition of an object is found by its identifier. -/
theorem DescribesObject.definition (hpart : Templates types roots lo hi) {groups : List FcType}
    {id : String} (h : DescribesObject types groups id) :
    typeOf types id ∈ types ∧ identity (typeOf types id) = ("DOType", id) := by
  obtain ⟨-, -, hd, hid, -⟩ := h
  have hattr : Element.attribute _ "id" = id := (Prod.mk.inj hid).2
  rw [← hattr, typeOf_eq hpart hd, hattr]
  exact ⟨hd, hid⟩

theorem lookup_eq_find? {α : Type} (entries : List (String × α)) (name : String) :
    entries.lookup name = (entries.find? (·.1 == name)).map (·.2) := by
  induction entries with
  | nil => rfl
  | cons entry entries ih =>
      by_cases h : name = entry.1
      · simp [List.lookup, h]
      · have h' : ¬entry.1 = name := fun he ↦ h he.symm
        simp [List.lookup, beq_eq_false_iff_ne.mpr h, h', ih]

/-- The child with a name describes what the groups have under the name. -/
theorem DescribesObject.child (hpart : Templates types roots lo hi) {groups : List FcType}
    {id : String} (h : DescribesObject types groups id) {d : Element} (hd : d ∈ types)
    (hid : identity d = ("DOType", id)) (name : String) :
    ((gather groups).lookup name = none ∧
        d.children.find? (·.attribute "name" == name) = none) ∨
      ∃ values c, (name, values) ∈ gather groups ∧ (gather groups).lookup name = some values ∧
        d.children.find? (·.attribute "name" == name) = some c ∧
        DescribesMember types name values c := by
  have hfind := forall₂_find? (p := fun entry ↦ entry.1 == name)
    (q := fun c ↦ c.attribute "name" == name) (h.members hpart hd hid) fun entry hentry c hc ↦ by
      rw [hc.name_eq hentry]
  rw [lookup_eq_find?]
  rcases hfind with ⟨he, hc⟩ | ⟨⟨key, values⟩, hmem, c, he, hc, hdesc⟩
  · exact .inl ⟨by rw [he]; rfl, hc⟩
  · obtain rfl : key = name := by simpa using List.find?_some he
    exact .inr ⟨values, c, hmem, by rw [he]; rfl, hc, hdesc⟩

/-- The path of a member inside an object, in the document and in the model. -/
def Agrees (types : List Element) (fc : String) (d : Element) (path : List String) :
    Option Target → Prop
  | none => walk types fc d path = none
  | some (.object _) => walk types fc d path = some (path, [])
  | some (.attr fc') =>
      (fc' = fc → ∃ objects attrs, attrs ≠ [] ∧ walk types fc d path = some (objects, attrs)) ∧
        (fc' ≠ fc → walk types fc d path = none)

theorem Agrees.cons {fc : String} {d d' : Element} {name : String} {names : List String}
    {target : Option Target} (h : Agrees types fc d' names target)
    (hwalk : walk types fc d (name :: names) =
      (walk types fc d' names).map fun r ↦ (name :: r.1, r.2)) :
    Agrees types fc d (name :: names) target := by
  match target with
  | none =>
      rw [Agrees, hwalk, show walk types fc d' names = none from h]
      rfl
  | some (.object _) =>
      rw [Agrees, hwalk, show walk types fc d' names = some (names, []) from h]
      rfl
  | some (.attr fc') =>
      constructor
      · intro hfc
        obtain ⟨objects, attrs, hattrs, he⟩ := h.1 hfc
        exact ⟨name :: objects, attrs, hattrs, by rw [hwalk, he]; rfl⟩
      · intro hfc
        rw [hwalk, h.2 hfc]
        rfl

/-- A definition of the table describes an object. -/
def Defines (types : List Element) (groups : List FcType) (d : Element) : Prop :=
  ∃ id, DescribesObject types groups id ∧ d ∈ types ∧ identity d = ("DOType", id)

theorem DescribesObject.defines (hpart : Templates types roots lo hi) {groups : List FcType}
    {id : String} (h : DescribesObject types groups id) : Defines types groups (typeOf types id) :=
  ⟨id, h, h.definition hpart⟩

theorem Defines.of_reference {groups : List FcType} {id : String} {d : Element}
    (h : DescribesObject types groups id) (hd : d ∈ types) (hid : identity d = ("DOType", id)) :
    Defines types groups d :=
  ⟨id, h, hd, hid⟩

/-- One step of the walk in the definition of an object. -/
inductive Step (types : List Element) (fc : String) (groups : List FcType) (d : Element)
    (name : String) (names : List String) : Prop
  /-- Nothing has the name. -/
  | missing (hlookup : (gather groups).lookup name = none)
      (hwalk : walk types fc d (name :: names) = none)
  /-- A sub-object has it. -/
  | object {values : List FcType} {id : String}
      (hlookup : (gather groups).lookup name = some values)
      (hsub : (values.any fun part ↦ isSubObject part.t) = true)
      (hobj : DescribesObject types values id)
      (hmem : element "SDO" [("name", name), ("type", id)] ∈ d.children)
      (hwalk : walk types fc d (name :: names) =
        (walk types fc (typeOf types id) names).map fun r ↦ (name :: r.1, r.2))
  /-- An attribute has it. -/
  | attr {v w : FcType} {others : List FcType} {da : Element}
      (hlookup : (gather groups).lookup name = some (v :: others))
      (hsub : ((v :: others).any fun part ↦ isSubObject part.t) = false)
      (hmerge : mergeParts name v others = .ok w) (hname : w.t.name = name)
      (hda : Describes types w.t "DA" da)
      (hmem : { da with attrs := da.attrs ++ [("fc", w.fc)] } ∈ d.children)
      (hwalk : walk types fc d (name :: names) =
        if w.fc ≠ fc then none
        else if hasField w.t.fields names then some ([], name :: names) else none)

theorem Defines.step (hpart : Templates types roots lo hi) {groups : List FcType} {d : Element}
    (h : Defines types groups d) (fc name : String) (names : List String) :
    Step types fc groups d name names := by
  obtain ⟨id, hdesc, hd, hid⟩ := h
  rcases hdesc.child hpart hd hid name with ⟨hnone, hfind⟩ | ⟨values, c, hmem, hsome, hfind, hc⟩
  · refine .missing hnone ?_
    rw [walk, hfind]
  · have hname := hc.name_eq hmem
    cases hc with
    | sub hsub hobj =>
        refine .object hsome hsub hobj (List.mem_of_find?_eq_some hfind) ?_
        rw [walk, hfind]
        exact if_pos (.inr rfl)
    | @attr _ v w others da hsub hmerge hda =>
        rw [attribute_append_fc da w.fc (by decide), hda.name_eq.2] at hname
        refine .attr hsome hsub hmerge hname hda (List.mem_of_find?_eq_some hfind) ?_
        rw [walk, hfind]
        dsimp only
        rw [attribute_append_fc da w.fc (by decide), walk_components hpart hda, hda.fc_eq,
          hda.name_eq.1, if_neg (by decide), if_pos rfl]
        refine ite_congr rfl (fun _ ↦ rfl) fun _ ↦ ?_
        split_ifs <;> rfl

/-- A path in a definition leads where it leads in the object. -/
theorem Defines.agrees (hpart : Templates types roots lo hi) {groups : List FcType} {d : Element}
    (h : Defines types groups d) (fc : String) (path : List String) :
    Agrees types fc d path (targetIn groups path) := by
  induction path generalizing groups d with
  | nil => rfl
  | cons name names ih =>
      rw [targetIn]
      cases h.step hpart fc name names with
      | missing hlookup hwalk =>
          rw [hlookup]
          exact hwalk
      | object hlookup hsub hobj _ hwalk =>
          rw [hlookup]
          dsimp only
          rw [if_pos hsub]
          exact (ih (hobj.defines hpart)).cons hwalk
      | @attr v w others da hlookup hsub hmerge _ hda _ hwalk =>
          rw [hlookup]
          dsimp only
          rw [if_neg (by simp [hsub]), hmerge]
          dsimp only
          by_cases hfield : hasField w.t.fields names = true
          · rw [if_pos hfield]
            rw [if_pos hfield] at hwalk
            constructor
            · intro hfc
              exact ⟨[], name :: names, by simp, by rw [hwalk, if_neg (not_not.mpr hfc)]⟩
            · intro hfc
              rw [hwalk, if_pos hfc]
          · rw [if_neg hfield]
            rw [if_neg hfield, ite_self] at hwalk
            exact hwalk

/-- A component of the type is one of the definition. -/
theorem Describes.componentAt {t : Typ} {tag : String} {x : Element} (h : Describes types t tag x)
    {names : List String} (hfield : hasField t.fields names = true) :
    ComponentAt types x names := by
  induction names generalizing t tag x with
  | nil => exact trivial
  | cons name names ih =>
      cases h with
      | @basic t tag s hshape hkind hbasic =>
          have hfields : t.fields = [] := by
            rw [Typ.fields, hshape]
            exact if_neg hkind
          rw [hfields] at hfield
          cases hfield
      | @struct t tag s d hshape hkind hd hname hfields =>
          have hts : t.fields = s.fields := by
            rw [Typ.fields, hshape]
            exact if_pos hkind
          rw [hts, hasField] at hfield
          cases hf : s.fields.find? (·.name == name) with
          | none =>
              rw [hf] at hfield
              cases hfield
          | some f =>
              rw [hf] at hfield
              obtain ⟨c, hc, hdesc⟩ := forall₂_mem_right hfields.flip (List.mem_of_find?_eq_some hf)
              have hfname : f.name = name := by simpa using List.find?_some hf
              refine ⟨d, hd, ?_, c, hc, hdesc.name_eq.1, hdesc.name_eq.2.trans hfname,
                ih hdesc hfield⟩
              rw [identity, hname, (startAttrs_attribute _ _ _ _ _).2.2]
              rfl

theorem AttributeAt.selects {fc : String} {d : Element} {names : List String}
    (h : AttributeAt types fc d names) : Selects types fc d := by
  cases names with
  | nil => exact h.elim
  | cons name names =>
      obtain ⟨c, hc, hname, hfc, -⟩ := h
      exact .da hc hname hfc

theorem componentAt_congr {x y : Element} (h : x.attribute "type" = y.attribute "type")
    {names : List String} (hx : ComponentAt types x names) : ComponentAt types y names := by
  cases names with
  | nil => exact trivial
  | cons name names =>
      rw [ComponentAt] at hx ⊢
      rwa [← h]

/-- A path to an attribute: the object and the attribute exist. -/
theorem Defines.attributeAt (hpart : Templates types roots lo hi) {groups : List FcType}
    {d : Element} (h : Defines types groups d) {fc : String} {path objects attrs : List String}
    (hwalk : walk types fc d path = some (objects, attrs)) (hattrs : attrs ≠ []) :
    ∃ d', ObjectAt types d objects d' ∧ AttributeAt types fc d' attrs := by
  induction path generalizing groups d objects with
  | nil =>
      cases hwalk
      exact absurd rfl hattrs
  | cons name names ih =>
      cases h.step hpart fc name names with
      | missing _ hw =>
          rw [hw] at hwalk
          cases hwalk
      | @object values id hlookup hsub hobj hmem hw =>
          rw [hw, Option.map_eq_some_iff] at hwalk
          obtain ⟨⟨objects', attrs'⟩, hw', he⟩ := hwalk
          cases he
          obtain ⟨d', hat, hattr⟩ := ih (hobj.defines hpart) hw'
          obtain ⟨hd', hid'⟩ := hobj.definition hpart
          exact ⟨d', ⟨_, hmem, .inr rfl, rfl, _, hd', hid', hat⟩, hattr⟩
      | @attr v w others da hlookup hsub hmerge hname hda hmem hw =>
          rw [hw] at hwalk
          split_ifs at hwalk with hfc hfield
          cases hwalk
          refine ⟨d, rfl, _, hmem, hda.name_eq.1, (hda.fc_eq _).trans (not_not.mp hfc), ?_, ?_⟩
          · rw [attribute_append_fc da w.fc (by decide), hda.name_eq.2, hname]
          · exact componentAt_congr (attribute_append_fc da w.fc (by decide)).symm
              (hda.componentAt hfield)

/-- An object of the model along names is one of the document. -/
theorem Defines.objectAt (hpart : Templates types roots lo hi) {groups groups' : List FcType}
    {d : Element} (h : Defines types groups d) {path : List String}
    (htarget : targetIn groups path = some (.object groups')) :
    ∃ d', ObjectAt types d path d' ∧ Defines types groups' d' := by
  induction path generalizing groups d with
  | nil =>
      cases htarget
      exact ⟨d, rfl, h⟩
  | cons name names ih =>
      obtain ⟨id, hdesc, hd, hid⟩ := h
      rw [targetIn] at htarget
      rcases hdesc.child hpart hd hid name with ⟨hnone, -⟩ | ⟨values, c, -, hsome, hfind, hc⟩
      · rw [hnone] at htarget
        cases htarget
      · rw [hsome] at htarget
        dsimp only at htarget
        cases hc with
        | @sub _ _ id' hsub hobj =>
            rw [if_pos hsub] at htarget
            obtain ⟨d', hat, hdef⟩ := ih (hobj.defines hpart) htarget
            obtain ⟨hmem, hid'⟩ := hobj.definition hpart
            have hc := List.mem_of_find?_eq_some hfind
            exact ⟨d', ⟨_, hc, .inr rfl, rfl, _, hmem, hid', hat⟩, hdef⟩
        | @attr _ v w others da hsub hmerge hda =>
            rw [if_neg (by simp [hsub])] at htarget
            dsimp only at htarget
            rw [hmerge] at htarget
            dsimp only at htarget
            split_ifs at htarget
            cases htarget

/-- An object of the document along names is one of the model. -/
theorem Defines.target (hpart : Templates types roots lo hi) {groups : List FcType} {d d' : Element}
    (h : Defines types groups d) {path : List String} (hat : ObjectAt types d path d') :
    ∃ groups', targetIn groups path = some (.object groups') ∧ Defines types groups' d' := by
  induction path generalizing groups d with
  | nil =>
      obtain rfl : d' = d := hat
      exact ⟨groups, rfl, h⟩
  | cons name names ih =>
      obtain ⟨id, hdesc, hd, hid⟩ := h
      obtain ⟨c, hc, htag, hname, d₁, hd₁, hid₁, hat⟩ := hat
      obtain ⟨⟨key, values⟩, hmem, hdesc'⟩ := forall₂_mem_right (hdesc.members hpart hd hid) hc
      have hkey : key = name := (hdesc'.name_eq hmem).symm.trans hname
      subst hkey
      have hlookup : (gather groups).lookup key = some values :=
        lookup_of_mem (gathered (parts groups)).nodup hmem
      rw [targetIn, hlookup]
      dsimp only at hdesc' ⊢
      cases hdesc' with
      | @sub _ _ id' hsub hobj =>
          rw [if_pos hsub]
          exact ih (.of_reference hobj hd₁ hid₁) hat
      | @attr _ v w others da hsub hmerge hda =>
          have hda' : da.name = "DA" := hda.name_eq.1
          simp [hda'] at htag

/-- The constraints of the attributes of an object. -/
theorem Defines.selects_iff (hpart : Templates types roots lo hi) {groups : List FcType}
    {d : Element} (h : Defines types groups d) (fc : String) :
    Selects types fc d ↔ Carries fc groups := by
  constructor
  · intro hsel
    induction hsel generalizing groups with
    | @da d c hc hname hfc =>
        obtain ⟨id, hdesc, hd, hid⟩ := h
        obtain ⟨⟨key, values⟩, hmem, hdesc'⟩ := forall₂_mem_right (hdesc.members hpart hd hid) hc
        dsimp only at hdesc'
        cases hdesc' with
        | sub hsub hobj => simp at hname
        | attr hsub hmerge hda =>
            rw [hda.fc_eq] at hfc
            exact .attr hmem hsub hmerge hfc
    | @sdo d d' c hc hname hd' hid' _ ih =>
        obtain ⟨id, hdesc, hd, hid⟩ := h
        obtain ⟨⟨key, values⟩, hmem, hdesc'⟩ := forall₂_mem_right (hdesc.members hpart hd hid) hc
        dsimp only at hdesc'
        cases hdesc' with
        | sub hsub hobj => exact .sub hmem hsub (ih (.of_reference hobj hd' hid'))
        | attr hsub hmerge hda =>
            have hda' := hda.name_eq.1
            simp [hda'] at hname
  · intro hcar
    induction hcar generalizing d with
    | @attr groups name v w others hmem hsub hmerge hfc =>
        obtain ⟨id, hdesc, hd, hid⟩ := h
        obtain ⟨c, hc, hdesc'⟩ := forall₂_mem_right (hdesc.members hpart hd hid).flip hmem
        dsimp only [flip] at hdesc'
        cases hdesc' with
        | sub hsub' hobj =>
            rw [hsub] at hsub'
            cases hsub'
        | attr hsub' hmerge' hda =>
            rw [hmerge] at hmerge'
            cases hmerge'
            exact .da hc hda.name_eq.1 ((hda.fc_eq _).trans hfc)
    | @sub groups name values hmem hsub _ ih =>
        obtain ⟨id, hdesc, hd, hid⟩ := h
        obtain ⟨c, hc, hdesc'⟩ := forall₂_mem_right (hdesc.members hpart hd hid).flip hmem
        dsimp only [flip] at hdesc'
        cases hdesc' with
        | sub hsub' hobj =>
            obtain ⟨hmem', hid'⟩ := hobj.definition hpart
            exact .sdo hc rfl hmem' hid' (ih (hobj.defines hpart))
        | attr hsub' hmerge' hda =>
            rw [hsub] at hsub'
            cases hsub'

/-! ## Nodes of the model and of the document -/

theorem Describes.convertible {t : Typ} {tag : String} {x : Element} (h : Describes types t tag x) :
    Convertible t := by
  induction t using Typ.shape_induction generalizing tag x with
  | h t ih =>
      cases h with
      | basic hshape hkind hbasic => exact .basic hshape hkind hbasic
      | struct hshape hkind hd hname hfields =>
          refine .struct hshape hkind fun f hf ↦ ?_
          obtain ⟨c, -, hc⟩ := forall₂_mem_right hfields.flip hf
          exact ih _ hshape f hf hc

theorem DescribesObject.representable {groups : List FcType} {id : String}
    (h : DescribesObject types groups id) : Representable groups := by
  induction groups using gather_induction generalizing id with
  | h groups ih =>
      obtain ⟨hkind, hcdc, hd, hid, hmembers⟩ := h
      refine .mk hkind hcdc ?_ ?_
      · intro name values hmem hsub
        obtain ⟨c, -, hc⟩ := forall₂_mem_right hmembers.flip hmem
        dsimp only [flip] at hc
        cases hc with
        | sub _ hobj => exact ih name values hmem hobj
        | attr hsub' =>
            rw [hsub] at hsub'
            cases hsub'
      · intro name v others hmem hsub
        obtain ⟨c, -, hc⟩ := forall₂_mem_right hmembers.flip hmem
        dsimp only [flip] at hc
        cases hc with
        | sub hsub' =>
            rw [hsub] at hsub'
            cases hsub'
        | attr _ hmerge hda => exact ⟨_, hmerge, hda.convertible⟩

/-- The child of an `LNodeType` with a name: the object with this name, if it can be converted. -/
theorem DescribesObjects.child {entries : List (String × List FcType)} {xs : List Element}
    (h : DescribesObjects types entries xs) (hnodup : (entries.map (·.1)).Nodup) (name : String) :
    (xs.find? (·.attribute "name" == name) = none ∧
        ∀ groups, (name, groups) ∈ entries → ¬Representable groups) ∨
      ∃ groups id, (name, groups) ∈ entries ∧ DescribesObject types groups id ∧
        xs.find? (·.attribute "name" == name) =
          some (element "DO" [("name", name), ("type", id)]) := by
  induction h with
  | nil => exact .inl ⟨rfl, by simp⟩
  | @kept name' groups id rest xs hobj _ ih =>
      rw [List.map_cons, List.nodup_cons] at hnodup
      have hattr : (element "DO" [("name", name'), ("type", id)]).attribute "name" = name' := rfl
      by_cases hn : name' = name
      · subst hn
        refine .inr ⟨groups, id, List.mem_cons_self, hobj, ?_⟩
        rw [List.find?_cons_of_pos (by simp [hattr])]
      · rw [List.find?_cons_of_neg (by simp [hattr, hn])]
        rcases ih hnodup.2 with ⟨hfind, hnot⟩ | ⟨groups', id', hmem, hrest⟩
        · refine .inl ⟨hfind, ?_⟩
          rintro g (_ | ⟨_, hg⟩)
          · exact absurd rfl hn
          · exact hnot g hg
        · exact .inr ⟨groups', id', List.mem_cons_of_mem _ hmem, hrest⟩
  | @omitted name' groups rest xs hrep _ ih =>
      rw [List.map_cons, List.nodup_cons] at hnodup
      rcases ih hnodup.2 with ⟨hfind, hnot⟩ | ⟨groups', id', hmem, hrest⟩
      · refine .inl ⟨hfind, ?_⟩
        rintro g (_ | ⟨_, hg⟩)
        · exact hrep
        · exact hnot g hg
      · exact .inr ⟨groups', id', List.mem_cons_of_mem _ hmem, hrest⟩

/-- A definition of the table describes the objects of a logical node. -/
structure DefinesNode (types : List Element) (ln : LogicalNode) (lt : Element) : Prop where
  mem : lt ∈ types
  name : lt.name = "LNodeType"
  objects : DescribesObjects types (gather (dataGroups ln)) lt.children

theorem gather_unique {groups values values' : List FcType} {name : String}
    (h : (name, values) ∈ gather groups) (h' : (name, values') ∈ gather groups) :
    values = values' :=
  (mem_gather h).1.trans (mem_gather h').1.symm

/-- Nothing is found under a name whose object is left out. -/
theorem DefinesNode.cases {ln : LogicalNode} {lt : Element} (h : DefinesNode types ln lt)
    (name : String) (names : List String) :
    ((∀ fc, walk types fc lt (name :: names) = none) ∧ ∀ target, ¬Finds ln (name :: names) target) ∨
      ∃ groups id, DescribesObject types groups id ∧
        element "DO" [("name", name), ("type", id)] ∈ lt.children ∧
        (∀ fc, walk types fc lt (name :: names) =
          (walk types fc (typeOf types id) names).map fun r ↦ (name :: r.1, r.2)) ∧
        ∀ target, Finds ln (name :: names) target ↔ targetIn groups names = some target := by
  rcases h.objects.child (gathered _).nodup name with
    ⟨hfind, hnot⟩ | ⟨groups, id, hmem, hobj, hfind⟩
  · refine .inl ⟨?_, ?_⟩
    · intro fc
      rw [walk, hfind]
    · rintro target ⟨_, _, groups, ⟨⟩, hmem, hrep, -⟩
      exact hnot groups hmem hrep
  · refine .inr ⟨groups, id, hobj, List.mem_of_find?_eq_some hfind, ?_, ?_⟩
    · intro fc
      rw [walk, hfind]
      exact if_pos (.inl rfl)
    · intro target
      constructor
      · rintro ⟨_, _, groups', ⟨⟩, hmem', -, htarget⟩
        rwa [gather_unique hmem hmem']
      · intro htarget
        exact ⟨name, names, groups, rfl, hmem, hobj.representable, htarget⟩

theorem DescribesObjects.mem {entries : List (String × List FcType)} {xs : List Element}
    (h : DescribesObjects types entries xs) {x : Element} (hx : x ∈ xs) :
    ∃ name groups id, (name, groups) ∈ entries ∧ DescribesObject types groups id ∧
      x = element "DO" [("name", name), ("type", id)] := by
  induction h with
  | nil => cases hx
  | @kept name groups id rest xs hobj _ ih =>
      rcases List.mem_cons.mp hx with rfl | hx
      · exact ⟨name, groups, id, List.mem_cons_self, hobj, rfl⟩
      · obtain ⟨name', groups', id', hmem, hrest⟩ := ih hx
        exact ⟨name', groups', id', List.mem_cons_of_mem _ hmem, hrest⟩
  | omitted _ _ ih =>
      obtain ⟨name', groups', id', hmem, hrest⟩ := ih hx
      exact ⟨name', groups', id', List.mem_cons_of_mem _ hmem, hrest⟩

/-- The path of a member resolves in a logical node: to an object, or to an attribute with its
constraint. -/
def Resolves (ln : LogicalNode) (path : List String) (fc : String) : Prop :=
  (∃ groups, Finds ln path (.object groups)) ∨ Finds ln path (.attr fc)

/-- The walk of a path in the type of a node. -/
theorem DefinesNode.walk_eq (hpart : Templates types roots lo hi) {ln : LogicalNode} {lt : Element}
    (h : DefinesNode types ln lt) {path : List String} (hne : path ≠ []) (fc : String) :
    (walk types fc lt path = none ∧ ¬Resolves ln path fc) ∨
      (walk types fc lt path = some (path, []) ∧ ∃ groups, Finds ln path (.object groups)) ∨
      ∃ objects attrs, attrs ≠ [] ∧ walk types fc lt path = some (objects, attrs) ∧
        Resolves ln path fc ∧ ¬∃ groups, Finds ln path (.object groups) := by
  obtain ⟨name, names, rfl⟩ := List.exists_cons_of_ne_nil hne
  rcases h.cases name names with ⟨hnone, hnot⟩ | ⟨groups, id, hobj, -, hwalk, hfinds⟩
  · exact .inl ⟨hnone fc, by rintro (⟨g, hg⟩ | hg) <;> exact hnot _ hg⟩
  · have hagrees := ((hobj.defines hpart).agrees hpart fc names).cons (hwalk fc)
    match htarget : targetIn groups names with
    | none =>
        rw [htarget] at hagrees
        refine .inl ⟨hagrees, ?_⟩
        rintro (⟨g, hg⟩ | hg)
        · rw [hfinds, htarget] at hg
          cases hg
        · rw [hfinds, htarget] at hg
          cases hg
    | some (.object g) =>
        rw [htarget] at hagrees
        exact .inr (.inl ⟨hagrees, g, (hfinds _).mpr htarget⟩)
    | some (.attr fc') =>
        rw [htarget] at hagrees
        by_cases hfc : fc' = fc
        · subst hfc
          obtain ⟨objects, attrs, hattrs, hw⟩ := hagrees.1 rfl
          refine .inr (.inr ⟨objects, attrs, hattrs, hw, .inr ((hfinds _).mpr htarget), ?_⟩)
          rintro ⟨g, hg⟩
          rw [hfinds, htarget] at hg
          cases hg
        · refine .inl ⟨hagrees.2 hfc, ?_⟩
          rintro (⟨g, hg⟩ | hg)
          · rw [hfinds, htarget] at hg
            cases hg
          · rw [hfinds, htarget] at hg
            cases hg
            exact hfc rfl

/-- A constraint selects something below a path: in the document and in the model. -/
theorem DefinesNode.selects_iff (hpart : Templates types roots lo hi) {ln : LogicalNode}
    {lt : Element} (h : DefinesNode types ln lt) {path : List String} (hne : path ≠ [])
    (fc : String) :
    (∃ d, ObjectAt types lt path d ∧ Selects types fc d) ↔
      ∃ groups, Finds ln path (.object groups) ∧ Carries fc groups := by
  obtain ⟨name, names, rfl⟩ := List.exists_cons_of_ne_nil hne
  constructor
  · rintro ⟨d, ⟨c, hc, -, hname, d₁, hd₁, hid₁, hat⟩, hsel⟩
    obtain ⟨name', groups, id, hmem, hobj, rfl⟩ := h.objects.mem hc
    obtain rfl : name' = name := hname
    have hdef : Defines types groups d₁ := .of_reference hobj hd₁ hid₁
    obtain ⟨groups', htarget, hdef'⟩ := hdef.target hpart hat
    exact ⟨groups', ⟨name', names, groups, rfl, hmem, hobj.representable, htarget⟩,
      (hdef'.selects_iff hpart fc).mp hsel⟩
  · rintro ⟨groups', hfinds', hcar⟩
    rcases h.cases name names with ⟨-, hnot⟩ | ⟨groups, id, hobj, hmem, -, hfinds⟩
    · exact absurd hfinds' (hnot _)
    · rw [hfinds] at hfinds'
      obtain ⟨d, hat, hdef⟩ := (hobj.defines hpart).objectAt hpart hfinds'
      obtain ⟨hd, hid⟩ := hobj.definition hpart
      exact ⟨d, ⟨_, hmem, .inl rfl, rfl, _, hd, hid, hat⟩, (hdef.selects_iff hpart fc).mpr hcar⟩

/-- A path to an attribute: object and attribute exist in the document. -/
theorem DefinesNode.attributeAt (hpart : Templates types roots lo hi) {ln : LogicalNode}
    {lt : Element} (h : DefinesNode types ln lt) {fc : String} {path objects attrs : List String}
    (hwalk : walk types fc lt path = some (objects, attrs)) (hattrs : attrs ≠ []) :
    ∃ d, ObjectAt types lt objects d ∧ AttributeAt types fc d attrs := by
  cases path with
  | nil =>
      cases hwalk
      exact absurd rfl hattrs
  | cons name names =>
      rcases h.cases name names with ⟨hnone, -⟩ | ⟨groups, id, hobj, hmem, hw, -⟩
      · rw [hnone] at hwalk
        cases hwalk
      · rw [hw, Option.map_eq_some_iff] at hwalk
        obtain ⟨⟨objects', attrs'⟩, hw', he⟩ := hwalk
        cases he
        obtain ⟨d, hat, hattr⟩ := (hobj.defines hpart).attributeAt hpart hw' hattrs
        obtain ⟨hd, hid⟩ := hobj.definition hpart
        exact ⟨d, ⟨_, hmem, .inl rfl, rfl, _, hd, hid, hat⟩, hattr⟩

end Read

end ProcessBus.Scl
