import ProcessBus.Scl.Independence

/-!
# What an accepted stream describes

The types that `importBuilder` unfolds are those that can be sent in a data set: every structure has
distinct names, every array one element type and a length, and every leaf one of the kinds and sizes
of `dataAttribute` (`Typ.Schema`).  `Yields` is what a program of the builder promises about the
value that it reaches; the functions of the import are taken one by one.
-/

namespace ProcessBus.Scl

open Go Go.Strconv Lib Metered Publisher

/-! ## Schemas -/

/-- The kinds and sizes of the basic types that carry their size in the name. -/
def sizedKinds : List (String × ℤ) :=
  [("INTEGER", 8), ("INTEGER", 16), ("INTEGER", 24), ("INTEGER", 32), ("INTEGER", 64),
    ("INTEGER", 128), ("UNSIGNED", 8), ("UNSIGNED", 16), ("UNSIGNED", 24), ("UNSIGNED", 32),
    ("FLOAT", 32), ("FLOAT", 64), ("VISIBLE_STRING", 32), ("VISIBLE_STRING", 64),
    ("VISIBLE_STRING", 65), ("VISIBLE_STRING", 129), ("VISIBLE_STRING", 255), ("OCTET_STRING", 6),
    ("OCTET_STRING", 16), ("OCTET_STRING", 64)]

/-- The kinds and sizes of leaves. -/
def leafKinds : List (String × ℤ) :=
  [("BOOLEAN", 0), ("UTC_TIME", 0), ("BINARY_TIME", 6), ("VISIBLE_STRING", 129),
    ("MMS_STRING", 255), ("OCTET_STRING", 8), ("BIT_STRING", 13), ("BIT_STRING", 2),
    ("BIT_STRING", 6), ("BIT_STRING", 10)] ++ sizedKinds

/-- The types of values in a data set. -/
inductive Typ.Schema : Typ → Prop
  | leaf {name kind : String} {size : ℤ} (h : (kind, size) ∈ leafKinds) :
      Schema ⟨name, kind, size, []⟩
  | struct {name : String} {children : List Typ} (named : ∀ c ∈ children, c.name ≠ "")
      (nodup : (children.map (·.name)).Nodup) (all : ∀ c ∈ children, c.Schema) :
      Schema ⟨name, "STRUCTURE", 0, children⟩
  | array {name : String} {size : ℤ} {t : Typ} (one_le : 1 ≤ size) (le : size ≤ 200000)
      (plain : t.kind ≠ "ARRAY") (elements : t.Schema) : Schema ⟨name, "ARRAY", size, [t]⟩

/-- A value's own name is not part of its schema. -/
theorem Typ.Schema.rename {t : Typ} (h : t.Schema) (name : String) :
    { t with name := name }.Schema := by
  cases h with
  | leaf h => exact .leaf h
  | struct named nodup all => exact .struct named nodup all
  | array one_le le plain elements => exact .array one_le le plain elements

theorem structure_ne_array : "STRUCTURE" ≠ "ARRAY" := by decide

/-! ## Leaves -/

theorem map_sizedKind : sizedTypes.map sizedKind = sizedKinds.map .ok := rfl

theorem sizedKind_mem {basic : String} {e : String × ℤ} (hbasic : basic ∈ sizedTypes)
    (h : sizedKind basic = .ok e) : e ∈ sizedKinds := by
  have hmem : sizedKind basic ∈ sizedTypes.map sizedKind := List.mem_map_of_mem hbasic
  rw [map_sizedKind, h] at hmem
  obtain ⟨e', he', heq⟩ := List.mem_map.mp hmem
  rw [← Except.ok.inj heq]
  exact he'

/-- The result is a leaf, if there is one. -/
def IsLeaf (r : Except String (String × ℤ)) : Prop := ∀ e, r = .ok e → e ∈ leafKinds

theorem isLeaf_ok {e : String × ℤ} (h : e ∈ leafKinds) : IsLeaf (.ok e) := by
  intro e' he'
  rw [← Except.ok.inj he']
  exact h

theorem isLeaf_ite {c : Prop} [Decidable c] {r r' : Except String (String × ℤ)} (h : IsLeaf r)
    (h' : ¬ c → IsLeaf r') : IsLeaf (if c then r else r') := by
  by_cases hc : c
  · rw [if_pos hc]
    exact h
  · rw [if_neg hc]
    exact h' hc

/-- Whatever basic type is accepted, its value is a leaf. -/
theorem isLeaf_basicKind (basic : String) : IsLeaf (basicKind basic) := by
  apply isLeaf_ite (isLeaf_ok (by decide))
  intro _
  apply isLeaf_ite (isLeaf_ok (by decide))
  intro _
  apply isLeaf_ite (isLeaf_ok (by decide))
  intro _
  apply isLeaf_ite (isLeaf_ok (by decide))
  intro _
  apply isLeaf_ite (isLeaf_ok (by decide))
  intro _
  apply isLeaf_ite (isLeaf_ok (by decide))
  intro _
  apply isLeaf_ite (isLeaf_ok (by decide))
  intro _
  apply isLeaf_ite (isLeaf_ok (by decide))
  intro _
  apply isLeaf_ite (isLeaf_ok (by decide))
  intro _
  apply isLeaf_ite (isLeaf_ok (by decide))
  intro _
  by_cases hmem : basic ∈ sizedTypes
  · rw [if_neg (not_not.mpr hmem)]
    intro e he
    exact List.mem_append_right _ (sizedKind_mem hmem he)
  · rw [if_pos hmem]
    intro e he
    cases he

theorem ne_array_of_mem {kind : String} {size : ℤ} (h : (kind, size) ∈ leafKinds) :
    kind ≠ "ARRAY" := by
  have hall : ∀ e ∈ leafKinds, e.1 ≠ "ARRAY" := by decide
  exact hall _ h

mutual

/-- The lengths of arrays are positive. -/
theorem Typ.Schema.sized : ∀ {t : Typ}, t.Schema → t.Sized
  | ⟨_, _, _, children⟩, h => by
    rw [Typ.Sized]
    cases h with
    | leaf h =>
        exact ⟨fun hkind ↦ absurd hkind (ne_array_of_mem h), trivial⟩
    | struct named nodup all =>
        exact ⟨fun hkind ↦ absurd hkind (by decide), sizedAll all⟩
    | array one_le le plain elements =>
        exact ⟨fun _ ↦ by omega, elements.sized, trivial⟩

theorem sizedAll : ∀ {children : List Typ}, (∀ c ∈ children, c.Schema) → SizedAll children
  | [], _ => trivial
  | c :: rest, h => by
    rw [SizedAll]
    exact ⟨(h c List.mem_cons_self).sized, sizedAll fun c hc ↦ h c (List.mem_cons_of_mem _ hc)⟩

end

/-! ## Attributes -/

/-- The value of an attribute: a schema under the attribute's name. -/
structure IsValue (name : String) (t : Typ) : Prop where
  name_eq : t.name = name
  schema : t.Schema

/-- Every value that a program reaches has a property. -/
def Yields {α : Type} (P : α → Prop) (p : Metered String α) : Prop :=
  ∀ a, p.outcome = .ok a → P a

section Yields

variable {α β : Type} {P : α → Prop} {Q : β → Prop}

theorem yields_pure {a : α} (h : P a) : Yields P (pure a) := by
  intro a' ha
  cases ha
  exact h

theorem yields_fail (err : String) : Yields P (fail err) := by
  intro a ha
  cases ha

theorem Yields.bind {p : Metered String α} {f : α → Metered String β} (hp : Yields P p)
    (hf : ∀ a, P a → Yields Q (f a)) : Yields Q (p >>= f) := by
  intro b hb
  obtain ⟨a, ha, hb⟩ := outcome_bind_eq_ok.mp hb
  exact hf a (hp a ha) b hb

end Yields

theorem arrayOf_isValue {count name : String} {t t' : Typ} (ht : IsValue name t)
    (hkind : t.kind ≠ "ARRAY") (h : arrayOf count t = .ok t') : IsValue name t' := by
  rw [arrayOf] at h
  split_ifs at h
  · cases h
    exact ht
  · cases hcount : atoi count with
    | none =>
        rw [hcount] at h
        cases h
    | some n =>
        rw [hcount] at h
        dsimp only at h
        split_ifs at h with hrange
        cases h
        exact ⟨ht.name_eq, .array (by omega) (by omega) hkind ht.schema⟩

/-- The children of a structure: named, with names that differ from each other and from those seen
before. -/
structure AreFields (seen : List String) (children : List Typ) : Prop where
  named : ∀ c ∈ children, c.name ≠ ""
  nodup : (children.map (·.name)).Nodup
  fresh : ∀ c ∈ children, c.name ∉ seen
  schemas : ∀ c ∈ children, c.Schema

theorem AreFields.nil (seen : List String) : AreFields seen [] where
  named := fun _ hc ↦ absurd hc List.not_mem_nil
  nodup := List.nodup_nil
  fresh := fun _ hc ↦ absurd hc List.not_mem_nil
  schemas := fun _ hc ↦ absurd hc List.not_mem_nil

theorem AreFields.cons {seen : List String} {name : String} {t : Typ} {ts : List Typ}
    (hname : name ≠ "") (hseen : name ∉ seen) (ht : IsValue name t)
    (hts : AreFields (name :: seen) ts) : AreFields seen (t :: ts) := by
  obtain ⟨rfl, hschema⟩ := ht
  constructor
  · exact List.forall_mem_cons.mpr ⟨hname, hts.named⟩
  · rw [List.map_cons, List.nodup_cons]
    refine ⟨?_, hts.nodup⟩
    intro hmem
    obtain ⟨c, hc, heq⟩ := List.mem_map.mp hmem
    exact hts.fresh c hc (heq ▸ List.mem_cons_self)
  · refine List.forall_mem_cons.mpr ⟨hseen, ?_⟩
    intro c hc hmem
    exact hts.fresh c hc (List.mem_cons_of_mem _ hmem)
  · exact List.forall_mem_cons.mpr ⟨hschema, hts.schemas⟩

theorem yields_fields {dataAttribute : Element → Metered String Typ}
    (h : ∀ a, Yields (IsValue (a.attribute "name")) (dataAttribute a)) (seen : List String)
    (children : List Element) : Yields (AreFields seen) (fields dataAttribute seen children) := by
  induction children generalizing seen with
  | nil => exact yields_pure (.nil seen)
  | cons child rest ih =>
      rw [fields]
      split_ifs with hname
      · exact yields_fail _
      · obtain ⟨hempty, hseen⟩ := not_or.mp hname
        refine (h child).bind ?_
        intro t ht
        refine (ih _).bind ?_
        intro ts hts
        exact yields_pure (.cons hempty hseen ht hts)

theorem yields_plainAttribute (a : Element) {struct : Metered String (List Typ)}
    (h : Yields (AreFields []) struct) :
    Yields (fun t ↦ IsValue (a.attribute "name") t ∧ t.kind ≠ "ARRAY")
      (plainAttribute a struct) := by
  rw [plainAttribute]
  dsimp only
  split_ifs
  · refine h.bind ?_
    intro children hchildren
    exact yields_pure
      ⟨⟨rfl, .struct hchildren.named hchildren.nodup hchildren.schemas⟩, structure_ne_array⟩
  · intro t ht
    obtain ⟨e, he, ht⟩ := outcome_ofExcept_bind_eq_ok.mp ht
    cases ht
    have hmem := isLeaf_basicKind _ _ he
    exact ⟨⟨rfl, .leaf hmem⟩, ne_array_of_mem hmem⟩

theorem yields_dataAttribute (types : TypeTable) (left : ℕ) (a : Element) :
    Yields (IsValue (a.attribute "name")) (types.dataAttribute left a) := by
  induction left generalizing a with
  | zero => exact yields_fail _
  | succ left ih =>
      intro t ht
      rw [TypeTable.dataAttribute, outcome_take_bind] at ht
      obtain ⟨plain, hplain, ht⟩ := outcome_bind_eq_ok.mp ht
      have hstruct : Yields (AreFields []) (do
          let x ← types.definition (a.attribute "type") "DAType" (48 - left)
          fields (types.dataAttribute left) [] (x.childrenNamed "BDA")) := by
        intro children hchildren
        obtain ⟨x, -, hchildren⟩ := outcome_bind_eq_ok.mp hchildren
        exact yields_fields ih [] _ children hchildren
      obtain ⟨hvalue, hkind⟩ := yields_plainAttribute a hstruct plain hplain
      exact arrayOf_isValue hvalue hkind ht

/-! ## Objects -/

/-- The structure of an object for one constraint: its names are among those seen. -/
structure IsGroup (name : String) (seen : List String) (g : FcType) : Prop where
  kind : g.t.kind = "STRUCTURE"
  size : g.t.size = 0
  name_eq : g.t.name = name
  named : ∀ c ∈ g.t.children, c.name ≠ ""
  nodup : (g.t.children.map (·.name)).Nodup
  subset : ∀ c ∈ g.t.children, c.name ∈ seen
  schemas : ∀ c ∈ g.t.children, c.Schema

/-- An object: one structure for each constraint. -/
structure IsObject (name : String) (seen : List String) (groups : List FcType) : Prop where
  nodup : (groups.map (·.fc)).Nodup
  all : ∀ g ∈ groups, IsGroup name seen g

theorem IsGroup.isValue {name : String} {seen : List String} {g : FcType}
    (h : IsGroup name seen g) : IsValue name g.t := by
  refine ⟨h.name_eq, ?_⟩
  obtain ⟨fc, name', kind, size, children⟩ := g
  obtain rfl : kind = "STRUCTURE" := h.kind
  obtain rfl : size = 0 := h.size
  exact .struct h.named h.nodup h.schemas

theorem IsGroup.mono {name child : String} {seen : List String} {g : FcType}
    (h : IsGroup name seen g) : IsGroup name (child :: seen) g :=
  { h with subset := fun c hc ↦ List.mem_cons_of_mem _ (h.subset c hc) }

/-- Another attribute for a constraint. -/
theorem IsGroup.append {name : String} {seen : List String} {g : FcType} {attr : Typ}
    (h : IsGroup name seen g) (hname : attr.name ≠ "") (hseen : attr.name ∈ seen)
    (hfresh : attr.name ∉ g.t.children.map (·.name)) (hattr : attr.Schema) :
    IsGroup name seen { g with t := { g.t with children := g.t.children ++ [attr] } } where
  kind := h.kind
  size := h.size
  name_eq := h.name_eq
  named := List.forall_mem_append.mpr ⟨h.named, List.forall_mem_singleton.mpr hname⟩
  nodup := by
    rw [List.map_append, List.map_singleton, List.nodup_append]
    refine ⟨h.nodup, List.nodup_singleton _, ?_⟩
    rintro a ha b hb rfl
    rw [List.mem_singleton] at hb
    exact hfresh (hb ▸ ha)
  subset := List.forall_mem_append.mpr ⟨h.subset, List.forall_mem_singleton.mpr hseen⟩
  schemas := List.forall_mem_append.mpr ⟨h.schemas, List.forall_mem_singleton.mpr hattr⟩

/-- `addPart` changes the structure of its constraint only, which it makes if there is none. -/
theorem addPart_fcs (name fc : String) (attr : Typ) (groups : List FcType) :
    (addPart name fc attr groups).map (·.fc) =
      if fc ∈ groups.map (·.fc) then groups.map (·.fc) else groups.map (·.fc) ++ [fc] := by
  induction groups with
  | nil => rfl
  | cons group groups ih =>
      rw [addPart]
      by_cases hfc : group.fc = fc
      · rw [if_pos hfc, List.map_cons, List.map_cons, if_pos (hfc ▸ List.mem_cons_self)]
      · rw [if_neg hfc, List.map_cons, ih, List.map_cons]
        by_cases hmem : fc ∈ groups.map (·.fc)
        · rw [if_pos hmem, if_pos (List.mem_cons_of_mem _ hmem)]
        · rw [if_neg hmem, if_neg, List.cons_append]
          intro h
          rcases List.mem_cons.mp h with h | h
          · exact hfc h.symm
          · exact hmem h

theorem nodup_addPart {name fc : String} {attr : Typ} {groups : List FcType}
    (h : (groups.map (·.fc)).Nodup) : ((addPart name fc attr groups).map (·.fc)).Nodup := by
  rw [addPart_fcs]
  split_ifs with hmem
  · exact h
  · rw [List.nodup_append]
    refine ⟨h, List.nodup_singleton _, ?_⟩
    rintro a ha b hb rfl
    rw [List.mem_singleton] at hb
    exact hmem (hb ▸ ha)

/-- The structures after `addPart`. -/
theorem mem_addPart {name fc : String} {attr : Typ} {groups : List FcType} {g : FcType}
    (hnodup : (groups.map (·.fc)).Nodup) (h : g ∈ addPart name fc attr groups) :
    (g ∈ groups ∧ g.fc ≠ fc) ∨ g = ⟨fc, { name, kind := "STRUCTURE", children := [attr] }⟩ ∨
      ∃ g' ∈ groups, g'.fc = fc ∧
        g = { g' with t := { g'.t with children := g'.t.children ++ [attr] } } := by
  induction groups with
  | nil =>
      rw [addPart, List.mem_singleton] at h
      exact .inr (.inl h)
  | cons group groups ih =>
      rw [List.map_cons, List.nodup_cons] at hnodup
      obtain ⟨hnotMem, hnodup⟩ := hnodup
      rw [addPart] at h
      by_cases hfc : group.fc = fc
      · rw [if_pos hfc] at h
        rcases List.mem_cons.mp h with h | h
        · exact .inr (.inr ⟨group, List.mem_cons_self, hfc, h⟩)
        · refine .inl ⟨List.mem_cons_of_mem _ h, ?_⟩
          intro hg
          exact hnotMem (hfc.trans hg.symm ▸ List.mem_map_of_mem h)
      · rw [if_neg hfc] at h
        rcases List.mem_cons.mp h with rfl | h
        · exact .inl ⟨List.mem_cons_self, hfc⟩
        · rcases ih hnodup h with ⟨hg, hne⟩ | hg | ⟨g', hg', heq⟩
          · exact .inl ⟨List.mem_cons_of_mem _ hg, hne⟩
          · exact .inr (.inl hg)
          · exact .inr (.inr ⟨g', List.mem_cons_of_mem _ hg', heq⟩)

section Add

variable {name child : String} {seen : List String}

theorem IsObject.add {fc : String} {attr : Typ} {groups : List FcType}
    (h : IsObject name seen groups) (hattr : IsValue child attr) (hchild : child ≠ "")
    (hseen : child ∈ seen)
    (hfresh : ∀ g ∈ groups, g.fc = fc → child ∉ g.t.children.map (·.name)) :
    IsObject name seen (addPart name fc attr groups) := by
  refine ⟨nodup_addPart h.nodup, ?_⟩
  obtain ⟨rfl, hschema⟩ := hattr
  intro g hg
  rcases mem_addPart h.nodup hg with ⟨hg, -⟩ | rfl | ⟨g', hg', hfc, rfl⟩
  · exact h.all g hg
  · constructor
    · rfl
    · rfl
    · rfl
    · exact List.forall_mem_singleton.mpr hchild
    · exact List.nodup_singleton _
    · exact List.forall_mem_singleton.mpr hseen
    · exact List.forall_mem_singleton.mpr hschema
  · exact (h.all g' hg').append hchild hseen (hfresh g' hg' hfc) hschema

/-- What one child adds has one value for each constraint. -/
structure AreParts (child : String) (added : List FcType) : Prop where
  nodup : (added.map (·.fc)).Nodup
  all : ∀ p ∈ added, IsValue child p.t

theorem IsObject.addAll {added groups : List FcType} (h : IsObject name seen groups)
    (hadded : AreParts child added) (hchild : child ≠ "") (hseen : child ∈ seen)
    (hfresh : ∀ p ∈ added, ∀ g ∈ groups, g.fc = p.fc → child ∉ g.t.children.map (·.name)) :
    IsObject name seen (added.foldl (fun result p ↦ addPart name p.fc p.t result) groups) := by
  induction added generalizing groups with
  | nil => exact h
  | cons p added ih =>
      obtain ⟨hnodup, hall⟩ := hadded
      rw [List.map_cons, List.nodup_cons] at hnodup
      obtain ⟨hp, hall⟩ := List.forall_mem_cons.mp hall
      obtain ⟨hfreshp, hfresh⟩ := List.forall_mem_cons.mp hfresh
      rw [List.foldl_cons]
      refine ih (h.add hp hchild hseen hfreshp) ⟨hnodup.2, hall⟩ ?_
      intro p' hp' g hg hfc
      have hne : p'.fc ≠ p.fc := by
        intro heq
        exact hnodup.1 (heq ▸ List.mem_map_of_mem hp')
      rcases mem_addPart h.nodup hg with ⟨hg, -⟩ | rfl | ⟨g', hg', hfc', rfl⟩
      · exact hfresh p' hp' g hg hfc
      · exact absurd hfc.symm hne
      · exact absurd (hfc.symm.trans hfc') hne

theorem IsObject.seeing {groups : List FcType} (h : IsObject name seen groups) :
    IsObject name (child :: seen) groups :=
  ⟨h.nodup, fun g hg ↦ (h.all g hg).mono⟩

end Add

theorem yields_objectLoop {parts : Element → Metered String (List FcType)}
    (h : ∀ a, Yields (AreParts (a.attribute "name")) (parts a)) (name : String)
    {seen : List String} {result : List FcType} (hresult : IsObject name seen result)
    (children : List Element) :
    Yields (fun groups ↦ ∃ seen, IsObject name seen groups)
      (objectLoop parts name seen result children) := by
  induction children generalizing seen result with
  | nil => exact yields_pure ⟨seen, hresult⟩
  | cons a rest ih =>
      rw [objectLoop]
      split_ifs with hname
      · exact yields_fail _
      · obtain ⟨hempty, hseen⟩ := not_or.mp hname
        refine (h a).bind ?_
        intro added hadded
        refine ih (hresult.seeing.addAll hadded hempty List.mem_cons_self ?_)
        intro p _ g hg _ hmem
        obtain ⟨c, hc, heq⟩ := List.mem_map.mp hmem
        exact hseen (heq ▸ (hresult.all g hg).subset c hc)

theorem yields_objectParts {object : String → String → Metered String (List FcType)}
    {dataAttribute : Element → Metered String Typ}
    (hobject : ∀ name id, Yields (fun groups ↦ ∃ seen, IsObject name seen groups)
      (object name id))
    (hattribute : ∀ a, Yields (IsValue (a.attribute "name")) (dataAttribute a)) (a : Element) :
    Yields (AreParts (a.attribute "name")) (objectParts object dataAttribute a) := by
  rw [objectParts]
  split_ifs
  · exact yields_fail _
  · rintro groups hgroups
    obtain ⟨seen, hobj⟩ := hobject _ _ groups hgroups
    exact ⟨hobj.nodup, fun g hg ↦ (hobj.all g hg).isValue⟩
  · exact yields_fail _
  · refine (hattribute a).bind ?_
    intro t ht
    exact yields_pure ⟨List.nodup_singleton _, List.forall_mem_singleton.mpr ht⟩

theorem isObject_nil (name : String) (seen : List String) : IsObject name seen [] :=
  ⟨List.nodup_nil, fun _ hg ↦ absurd hg List.not_mem_nil⟩

/-- **What an object consists of**: for each constraint a structure with the object's name. -/
theorem yields_object (types : TypeTable) (left : ℕ) (name id : String) :
    Yields (fun groups ↦ ∃ seen, IsObject name seen groups) (types.object left name id) := by
  induction left generalizing name id with
  | zero =>
      intro groups hgroups
      obtain ⟨x, -, hgroups⟩ := outcome_bind_eq_ok.mp hgroups
      cases hgroups
      exact ⟨[], isObject_nil name []⟩
  | succ left ih =>
      intro groups hgroups
      obtain ⟨x, -, hgroups⟩ := outcome_bind_eq_ok.mp hgroups
      exact yields_objectLoop (yields_objectParts ih (yields_dataAttribute types left)) name
        (isObject_nil name []) _ groups hgroups

/-! ## Members -/

theorem Typ.Schema.child {t c : Typ} (h : t.Schema) (hc : c ∈ t.children) : c.Schema := by
  cases h with
  | leaf h => exact absurd hc List.not_mem_nil
  | struct named nodup all => exact all c hc
  | array one_le le plain elements => exact List.mem_singleton.mp hc ▸ elements

theorem schema_of_descend {parts : List String} {value : Option Typ} {t : Typ}
    (hvalue : ∀ v, value = some v → v.Schema) (h : descend value parts = some t) : t.Schema := by
  induction parts generalizing value with
  | nil =>
      rw [descend] at h
      exact hvalue t h
  | cons part parts ih =>
      cases value with
      | none => cases h
      | some v =>
          rw [descend] at h
          split_ifs at h
          refine ih ?_ h
          intro c hc
          exact (hvalue v rfl).child (List.mem_filter.mp (List.mem_of_getLast? hc)).1

theorem schema_of_memberTyp {name : String} {seen parts : List String} {groups : List FcType}
    {fc : String} {t : Typ} (hgroups : IsObject name seen groups)
    (h : memberTyp groups fc parts = some t) : t.Schema := by
  refine schema_of_descend ?_ h
  intro v hv
  obtain ⟨g, hg, rfl⟩ := Option.map_eq_some_iff.mp hv
  exact (hgroups.all g (List.mem_filter.mp (List.mem_of_getLast? hg)).1).isValue.schema

theorem yields_memberGroups (types : TypeTable) (definition : Element) (path name : String) :
    Yields (fun groups ↦ ∃ seen, IsObject name seen groups)
      (memberGroups types definition path name) := by
  rw [memberGroups]
  split
  · split_ifs
    · exact yields_fail _
    · exact yields_object types 49 name _
  · exact yields_fail _

/-- A member is resolved to a schema under its reference. -/
theorem yields_resolveGooseMember (types : TypeTable) (devices : List Device) (current : String)
    (m : Element) :
    Yields (IsValue (memberName devices current m)) (resolveGooseMember types devices current m) := by
  rw [resolveGooseMember]
  dsimp only
  split_ifs
  · exact yields_fail _
  · split
    · intro t ht
      obtain ⟨definition, -, ht⟩ := outcome_bind_eq_ok.mp ht
      obtain ⟨groups, hgroups, ht⟩ := outcome_bind_eq_ok.mp ht
      obtain ⟨seen, hobject⟩ := yields_memberGroups types definition _ _ groups hgroups
      split at ht
      · cases ht
      · rename_i value hvalue
        cases ht
        exact ⟨rfl, (schema_of_memberTyp hobject hvalue).rename _⟩
    · exact yields_fail _

theorem yields_resolveMembers {resolve : Element → Metered String Typ} {name : Element → String}
    (h : ∀ m, Yields (IsValue (name m)) (resolve m)) (ms : List Element) :
    Yields (List.Forall₂ (fun m t ↦ IsValue (name m) t) ms) (resolveMembers resolve ms) := by
  induction ms with
  | nil => exact yields_pure .nil
  | cons m ms ih =>
      refine (h m).bind ?_
      intro t ht
      refine ih.bind ?_
      intro ts hts
      exact yields_pure (.cons ht hts)

theorem schema_of_gooseMembers (types : TypeTable) (devices : List Device) (ld ln cb : Element)
    {ts : List Typ} (h : (gooseMembers types devices ld ln cb).outcome = .ok ts) :
    ∀ t ∈ ts, t.Schema := by
  rw [gooseMembers] at h
  split at h
  · rename_i set _
    have hall := yields_resolveMembers
      (yields_resolveGooseMember types devices (ld.attribute "inst")) _ ts h
    clear h
    generalize set.childrenNamed "FCDA" = ms at hall
    induction hall with
    | nil => exact fun _ ht ↦ absurd ht List.not_mem_nil
    | cons ht _ ih => exact List.forall_mem_cons.mpr ⟨ht.schema, ih⟩
  · cases h

/-! ## Addresses -/

theorem hexDigit_digitChar {d : ℕ} (h : d < 16) :
    Supervisor.hexDigit (Nat.digitChar d).toNat.toUInt8 = some d.toUInt8 := by
  interval_cases d <;> rfl

theorem digitChar_ascii {d : ℕ} (h : d < 16) : (Nat.digitChar d).toNat < 128 := by
  interval_cases d <;> decide

theorem ascii_hexByte (b : UInt8) : ∀ c ∈ hexByte b.toNat, c.toNat < 128 := by
  intro c hc
  rw [hexByte, List.mem_cons, List.mem_singleton] at hc
  rcases hc with rfl | rfl
  · exact digitChar_ascii (Nat.mod_lt _ (by decide))
  · exact digitChar_ascii (Nat.mod_lt _ (by decide))

/-- Two digits before a separator. -/
theorem xtoi2_hexByte (b : UInt8) {rest : Bytes} (h : rest.head?.all (· == 58) = true) :
    Supervisor.xtoi2 ((hexByte b.toNat).map (fun c ↦ c.toNat.toUInt8) ++ rest) 58 = some b := by
  have hdigits : (b.toNat / 16 % 16).toUInt8 * 16 + (b.toNat % 16).toUInt8 = b := by
    rw [← UInt8.toNat_inj]
    have hb := b.toNat_lt
    simp
    omega
  rw [hexByte, List.map_cons, List.map_singleton]
  change (if rest.head?.all (· == 58) = true then _ else _) = _
  rw [if_pos h, hexDigit_digitChar (Nat.mod_lt _ (by decide)),
    hexDigit_digitChar (Nat.mod_lt _ (by decide))]
  exact congrArg some hdigits

/-- The text of an address without its last octet's end. -/
def octetText (b : UInt8) (rest : Bytes) : Bytes :=
  (hexByte b.toNat).map (fun c ↦ c.toNat.toUInt8) ++ rest

theorem textOf_formatMAC (a b c d e f : UInt8) :
    (formatMAC [a, b, c, d, e, f]).toUTF8.toList =
      octetText a (58 :: octetText b (58 :: octetText c (58 :: octetText d
        (58 :: octetText e (58 :: octetText f []))))) := by
  have htext : formatMAC [a, b, c, d, e, f] = .ofList (hexByte a.toNat ++ ':' ::
      (hexByte b.toNat ++ ':' :: (hexByte c.toNat ++ ':' :: (hexByte d.toNat ++ ':' ::
        (hexByte e.toNat ++ ':' :: hexByte f.toNat))))) := by
    simp [formatMAC, join]
  have hcolon : ∀ {l : List Char}, (∀ c ∈ l, c.toNat < 128) → ∀ c ∈ ':' :: l, c.toNat < 128 :=
    fun hl ↦ List.forall_mem_cons.mpr ⟨by decide, hl⟩
  have hascii : ∀ {b : UInt8} {l : List Char}, (∀ c ∈ l, c.toNat < 128) →
      ∀ c ∈ hexByte b.toNat ++ l, c.toNat < 128 :=
    fun hl ↦ List.forall_mem_append.mpr ⟨ascii_hexByte _, hl⟩
  rw [htext, toUTF8_ofList (hascii (hcolon (hascii (hcolon (hascii (hcolon (hascii (hcolon
    (hascii (hcolon (ascii_hexByte f)))))))))))]
  rfl

/-- An address is read back from its text. -/
theorem parseMAC_formatMAC {mac : Bytes} (h : mac.length = 6) :
    Supervisor.parseMAC (formatMAC mac).toUTF8.toList = some mac := by
  obtain ⟨a, b, c, d, e, f, rfl⟩ : ∃ a b c d e f, mac = [a, b, c, d, e, f] := by
    rcases mac with _ | ⟨a, _ | ⟨b, _ | ⟨c, _ | ⟨d, _ | ⟨e, _ | ⟨f, _ | ⟨g, l⟩⟩⟩⟩⟩⟩⟩ <;> simp at h
    exact ⟨a, b, c, d, e, f, rfl⟩
  rw [textOf_formatMAC]
  have hoctet (b : UInt8) (rest : Bytes) : Supervisor.xtoi2 (octetText b (58 :: rest)) 58 = some b :=
    xtoi2_hexByte b rfl
  have hlast : Supervisor.xtoi2 (octetText f []) 58 = some f := xtoi2_hexByte f rfl
  have hparse (text : Bytes) (hlen : text.length = 17) (hsep : byteAt text 2 = 58) :
      Supervisor.parseMAC text =
        [0, 1, 2, 3, 4, 5].mapM fun i ↦ Supervisor.xtoi2 (text.drop (3 * i)) 58 := by
    rw [Supervisor.parseMAC, hlen, hsep]
    rfl
  rw [hparse _ rfl rfl]
  generalize htext : octetText a _ = text
  have ha : Supervisor.xtoi2 (text.drop (3 * 0)) 58 = some a := htext ▸ hoctet a _
  have hb : Supervisor.xtoi2 (text.drop (3 * 1)) 58 = some b := htext ▸ hoctet b _
  have hc : Supervisor.xtoi2 (text.drop (3 * 2)) 58 = some c := htext ▸ hoctet c _
  have hd : Supervisor.xtoi2 (text.drop (3 * 3)) 58 = some d := htext ▸ hoctet d _
  have he : Supervisor.xtoi2 (text.drop (3 * 4)) 58 = some e := htext ▸ hoctet e _
  have hf : Supervisor.xtoi2 (text.drop (3 * 5)) 58 = some f := htext ▸ hlast
  simp only [List.mapM_cons, List.mapM_nil, ha, hb, hc, hd, he, hf]
  rfl

/-- What a stream says about its frames, if nothing is wrong with it. -/
structure GooseStream.Addressed (g : GooseStream) : Prop where
  name : g.name ≠ ""
  mac : ∃ mac : Bytes, mac.length = 6 ∧ Supervisor.parseMAC g.dstMAC.toUTF8.toList = some mac
  vlanID : ∀ v, g.vlanID = some v → v ≤ 4094
  vlanPriority : ∀ v, g.vlanPriority = some v → v ≤ 7

/-- A number of three bits is a priority. -/
theorem toUInt8_le_seven {n : ℕ} (h : n ≤ 7) : n.toUInt8 ≤ 7 := by
  rw [UInt8.le_iff_toNat_le]
  exact (Nat.mod_le n _).trans h

theorem toUInt16_le_4094 {n : ℕ} (h : n ≤ 4094) : n.toUInt16 ≤ 4094 := by
  rw [UInt16.le_iff_toNat_le]
  exact (Nat.mod_le n _).trans h

/-- The rest of a stream, and a VLAN that can be sent. -/
structure VLANOf (g g' : GooseStream) : Prop where
  name : g'.name = g.name
  mac : g'.dstMAC = g.dstMAC
  frameError : g'.frameError = g.frameError
  vlanID : ∀ v, g'.vlanID = some v → v ≤ 4094
  vlanPriority : ∀ v, g'.vlanPriority = some v → v ≤ 7

theorem readGoosePriority_ok {g g' : GooseStream} {values : List (String × String)}
    (hid : ∀ v, g.vlanID = some v → v ≤ 4094) (hpriority : g.vlanPriority = none)
    (h : readGoosePriority g values = (g', none)) : VLANOf g g' := by
  rw [readGoosePriority] at h
  split at h
  · cases h
    refine ⟨rfl, rfl, rfl, hid, ?_⟩
    intro v hv
    rw [hpriority] at hv
    cases hv
  · split at h
    · cases h
    · rename_i n hparse
      cases h
      refine ⟨rfl, rfl, rfl, hid, ?_⟩
      intro v hv
      cases hv
      exact toUInt8_le_seven (parseUint_le hparse)

/-- The VLAN that is read without an error. -/
theorem readGooseVLAN_ok {g g' : GooseStream} {values : List (String × String)}
    (hid : g.vlanID = none) (hpriority : g.vlanPriority = none)
    (h : readGooseVLAN g values = (g', none)) : VLANOf g g' := by
  rw [readGooseVLAN] at h
  split at h
  · refine readGoosePriority_ok ?_ hpriority h
    intro v hv
    rw [hid] at hv
    cases hv
  · split at h
    · cases h
    · rename_i n hparse
      by_cases hn : 4094 < n
      · rw [if_pos hn] at h
        cases h
      · rw [if_neg hn] at h
        have hid' : ∀ v, some n.toUInt16 = some v → v ≤ 4094 := by
          intro v hv
          cases hv
          exact toUInt16_le_4094 (not_lt.mp hn)
        obtain ⟨hname, hmac, hframe, hid', hpriority'⟩ :=
          readGoosePriority_ok (g := { g with vlanID := some n.toUInt16 }) hid' hpriority h
        exact ⟨hname, hmac, hframe, hid', hpriority'⟩

/-- The address that is read without an error. -/
theorem readGooseAddress_ok {g g' : GooseStream} {root : Element} {ldInst : String}
    (hid : g.vlanID = none) (hpriority : g.vlanPriority = none)
    (h : readGooseAddress g root ldInst = (g', none)) :
    g'.frameError = g.frameError ∧ (g.name ≠ "" → g'.Addressed) := by
  rw [readGooseAddress] at h
  split at h
  · split at h
    · cases h
    · dsimp only at h
      split at h
      · cases h
      · rename_i mac _
        by_cases hlength : mac.length = 6
        · rw [if_neg (not_not.mpr hlength)] at h
          split at h
          · cases h
          · obtain ⟨hname', hmac', hframe', hid', hpriority'⟩ :=
              readGooseVLAN_ok (by exact hid) (by exact hpriority) h
            refine ⟨hframe', ?_⟩
            intro hname
            refine ⟨hname'.symm ▸ hname, ⟨mac, hlength, ?_⟩, hid', hpriority'⟩
            rw [hmac']
            exact parseMAC_formatMAC hlength
        · rw [if_pos hlength] at h
          cases h
  · cases h

/-- The errors of an address say something. -/
theorem ne_empty_of_append {s t : String} (h : s ≠ "") : s ++ t ≠ "" := by
  intro hempty
  rw [String.append_eq_empty_iff] at hempty
  exact h hempty.1

theorem addressValues_error {values : List (String × String)} {ps : List Element} {err : String}
    (h : addressValues values ps = .error err) : err ≠ "" := by
  induction ps generalizing values with
  | nil => cases h
  | cons p ps ih =>
      rw [addressValues] at h
      split_ifs at h
      · cases h
        exact ne_empty_of_append (by decide)
      · exact ih h

theorem readGoosePriority_error {g g' : GooseStream} {values : List (String × String)}
    {err : String} (h : readGoosePriority g values = (g', some err)) : err ≠ "" := by
  rw [readGoosePriority] at h
  split at h
  · cases h
  · split at h
    · cases h
      decide
    · cases h

theorem readGooseAddress_error {g g' : GooseStream} {root : Element} {ldInst err : String}
    (h : readGooseAddress g root ldInst = (g', some err)) : err ≠ "" := by
  rw [readGooseAddress] at h
  split at h
  · split at h
    · rename_i hvalues
      cases h
      exact addressValues_error hvalues
    · dsimp only at h
      split at h
      · cases h
        decide
      · split at h
        · cases h
          decide
        · split at h
          · cases h
            decide
          · rw [readGooseVLAN] at h
            split at h
            · exact readGoosePriority_error h
            · split at h
              · cases h
                decide
              · split at h
                · cases h
                  decide
                · exact readGoosePriority_error h
  · cases h
    decide

theorem addressed_gooseHeader {root ied ap : Element} {devices : List Device}
    {ld ln cb : Element}
    (h : (gooseHeader root ied ap devices ld ln cb).frameError = "") :
    (gooseHeader root ied ap devices ld ln cb).Addressed := by
  rw [gooseHeader] at h ⊢
  split at h
  · rename_i g hread
    obtain ⟨hframe, haddressed⟩ := readGooseAddress_ok rfl rfl hread
    apply haddressed
    intro hname
    rw [hframe] at h
    dsimp only at h hname
    rw [if_pos (.inr (.inl hname))] at h
    exact absurd h (by decide)
  · rename_i g err hread
    exact absurd h (readGooseAddress_error hread)

/-! ## Streams -/

/-- A stream of an accepted document. -/
structure GooseStream.WellFormed (g : GooseStream) : Prop where
  schema : ∀ t ∈ g.entries, t.Schema
  displayed : nodesOf g.entries ≤ 200000
  failed : g.schemaError ≠ "" → g.entries = []
  addressed : g.frameError = "" → g.Addressed

theorem wellFormed_resolved {g : GooseStream} {r : Except String (List Typ)}
    (haddressed : g.frameError = "" → g.Addressed) (hentries : g.entries = [])
    (hschema : g.schemaError = "") (hr : ∀ ts, r = .ok ts → ∀ t ∈ ts, t.Schema) :
    (g.resolved r).WellFormed := by
  have hempty (err : String) : ({ g with schemaError := err }).WellFormed := by
    constructor
    · rw [hentries]
      exact fun _ ht ↦ absurd ht List.not_mem_nil
    · rw [hentries, nodesOf]
      exact Nat.zero_le _
    · exact fun _ ↦ hentries
    · intro h
      obtain ⟨hname, hmac, hid, hpriority⟩ := haddressed h
      exact ⟨hname, hmac, hid, hpriority⟩
  cases r with
  | error err => exact hempty err
  | ok ts =>
      have hall := hr ts rfl
      rw [GooseStream.resolved, displayBudget_eq ts 200000 (sizedAll hall) (by decide)]
      by_cases hover : (200000 : ℤ) < nodesOf ts
      · rw [if_pos hover]
        exact hempty _
      · rw [if_neg hover]
        constructor
        · exact hall
        · exact_mod_cast not_lt.mp hover
        · exact fun h ↦ absurd hschema h
        · intro h
          obtain ⟨hname, hmac, hid, hpriority⟩ := haddressed h
          exact ⟨hname, hmac, hid, hpriority⟩

/-- **What is accepted is well formed**: every stream of an accepted document describes values that
can be sent, no more of them than can be displayed, under an address that can be compared. -/
theorem gooseStream_wellFormed {root : Element} {gs : List GooseStream}
    (h : parseGooseSCL root = .ok gs) : ∀ g ∈ gs, g.WellFormed := by
  obtain ⟨types, -, -, rfl⟩ := parseGooseSCL_eq_ok.mp h
  intro g hg
  obtain ⟨k, hk⟩ := List.mem_iff_getElem?.mp hg
  rw [streams_getElem?] at hk
  obtain ⟨c, hc, rfl⟩ := Option.map_eq_some_iff.mp hk
  obtain ⟨e, he, rfl⟩ := List.mem_map.mp (List.mem_of_getElem? hc)
  obtain ⟨ied, ap, devices, ld, ln, cb, hcontrol⟩ := exists_of_mem_controls he
  rw [hcontrol]
  refine wellFormed_resolved addressed_gooseHeader (entries_gooseHeader root ied ap devices ld ln cb)
    (schemaError_gooseHeader root ied ap devices ld ln cb) ?_
  intro ts hts
  apply schema_of_gooseMembers types devices ld ln cb
  rw [within] at hts
  split at hts
  · cases hts
  · exact hts

/-- What a document with one control block is read as. -/
theorem exists_of_parsed {β : Type} {f : GooseStream → β} {root : Element} {b : β}
    (h : (parseGooseSCL root).map (·.map f) = .ok [b]) :
    ∃ g, parseGooseSCL root = .ok [g] ∧ f g = b := by
  cases hparse : parseGooseSCL root with
  | error err =>
      rw [hparse] at h
      cases h
  | ok gs =>
      rw [hparse] at h
      obtain ⟨g, rfl, hg⟩ := List.map_eq_singleton_iff.mp (Except.ok.inj h)
      exact ⟨g, rfl, hg⟩

/-- A measured current with a sub-object for a phase: a vector, an array of harmonics and a
quality. -/
def meteringTypes : List Element :=
  [element "LNodeType" [("id", "N")] [element "DO" [("name", "A"), ("type", "O")]],
    element "DOType" [("id", "O")] [element "SDO" [("name", "phsA"), ("type", "C")]],
    element "DOType" [("id", "C")]
      [element "DA" [("name", "cVal"), ("fc", "MX"), ("bType", "Struct"), ("type", "V")],
        element "DA" [("name", "har"), ("fc", "MX"), ("bType", "FLOAT32"), ("count", "3")],
        element "DA" [("name", "q"), ("fc", "MX"), ("bType", "Quality")]],
    element "DAType" [("id", "V")] [element "BDA" [("name", "f"), ("bType", "FLOAT32")]]]

/-- The members are the whole object and the number in the vector. -/
def meteringNode : Element :=
  element "LN0" [("lnType", "N")]
    [element "DataSet" [("name", "loads")]
        [element "FCDA" [("lnClass", "LLN0"), ("doName", "A"), ("fc", "MX")],
          element "FCDA" [("lnClass", "LLN0"), ("doName", "A.phsA"), ("daName", "cVal.f"),
            ("fc", "MX")]],
      element "GSEControl" [("name", "load"), ("datSet", "loads"), ("confRev", "1")]]

/-- A parameter of an address. -/
def parameter (type text : String) : Element := { name := "P", attrs := [("type", type)], text }

/-- A control block with an address. -/
def metering : Element :=
  element "SCL" []
    [element "Communication" []
      [element "SubNetwork" []
        [element "ConnectedAP" [("iedName", "I"), ("apName", "P")]
          [element "GSE" [("ldInst", "L"), ("cbName", "load")]
            [element "Address" []
              [parameter "MAC-Address" "01-0C-CD-01-00-01", parameter "APPID" "0001",
                parameter "VLAN-ID" "00A", parameter "VLAN-PRIORITY" "4"]]]]],
      element "IED" [("name", "I")]
        [element "AccessPoint" [("name", "P")]
          [element "Server" [] [element "LDevice" [("inst", "L")] [meteringNode]]]],
      element "DataTypeTemplates" [] meteringTypes]

/-- What is sent: the object, and the number once more. -/
def meteringEntries : List Typ :=
  let f : Typ := { name := "f", kind := "FLOAT", size := 32 }
  let har : Typ :=
    { name := "har", kind := "ARRAY", size := 3, children := [{ f with name := "har" }] }
  let q : Typ := { name := "q", kind := "BIT_STRING", size := 13 }
  [{ name := "IL/LLN0.A", kind := "STRUCTURE", children := [
      { name := "phsA", kind := "STRUCTURE", children := [
        { name := "cVal", kind := "STRUCTURE", children := [f] }, har, q] }] },
    { f with name := "IL/LLN0.A.phsA.cVal.f" }]

/-- The stream has no error, and the address and the entries of the document. -/
def GooseStream.IsMetering (g : GooseStream) : Prop :=
  (g.frameError = "" ∧ g.schemaError = "") ∧
    (g.dstMAC = "01:0c:cd:01:00:01" ∧ g.vlanID = some 10 ∧ g.vlanPriority = some 4) ∧
    Typ.deepEquals g.entries meteringEntries = true

instance (g : GooseStream) : Decidable g.IsMetering := inferInstanceAs (Decidable (_ ∧ _ ∧ _))

theorem gooseStream_wellFormed_metering :
    ∃ g, parseGooseSCL metering = .ok [g] ∧ g.IsMetering ∧ g.WellFormed := by
  have hread : (parseGooseSCL metering).map (·.map fun g ↦ decide g.IsMetering) = .ok [true] := by
    decide +kernel
  obtain ⟨g, hparse, hg⟩ := exists_of_parsed hread
  exact ⟨g, hparse, of_decide_eq_true hg,
    gooseStream_wellFormed hparse g (List.mem_singleton_self g)⟩

end ProcessBus.Scl
