import ProcessBus.Scl.ImportModel
import ProcessBus.Scl.Paths
import ProcessBus.Scl.Schema

/-!
# Objects that are read back

What the import makes of an object that the export has converted.  A value comes back with its kind
(`readsBack_basicType`), an attribute with its fields (`Typ.normal`), and an object with one
structure for each constraint, which has the attributes that were merged under the constraint, in the
order of first occurrence (`restored`).

What is lost is what the definitions do not say: the sign of a size, the name of the elements of an
array, and structures in which nothing is left.
-/

namespace ProcessBus.Scl

open Go.Strconv Lib Metered

/-! ## Values -/

/-- The size that a value has again: a sign is lost, and some types have one size. -/
def leafSize (kind : String) (size : ℤ) : ℤ :=
  if kind = "BOOLEAN" ∨ kind = "UTC_TIME" then 0
  else if kind = "MMS_STRING" then 255
  else size.natAbs

/-- A basic type is read back as a kind and a size. -/
def ReadsBack (basic kind : String) (size : ℤ) : Prop :=
  basic ≠ "" → basicKind basic = .ok (kind, leafSize kind size)

theorem readsBack_ite {c : Prop} [Decidable c] {a b kind : String} {size : ℤ}
    (ha : c → ReadsBack a kind size) (hb : ¬c → ReadsBack b kind size) :
    ReadsBack (if c then a else b) kind size := by
  split_ifs with h
  · exact ha h
  · exact hb h

theorem readsBack_empty (kind : String) (size : ℤ) : ReadsBack "" kind size :=
  fun h ↦ absurd rfl h

/-- A basic type with its size in the name, if every size of the list is read back. -/
theorem readsBack_sized {start kind : String} {sizes : List ℤ} {size : ℤ}
    (h : ∀ size ∈ sizes, basicKind (start ++ toString size) = .ok (kind, leafSize kind size)) :
    ReadsBack (sizedType start sizes size) kind size := by
  intro hne
  rw [sizedType] at hne ⊢
  split_ifs at hne ⊢ with hmem
  · exact h size hmem
  · exact absurd rfl hne

theorem leafSize_natAbs (kind : String) (size : ℤ) :
    leafSize kind size.natAbs = leafSize kind size := by
  rw [leafSize, leafSize, Int.natAbs_natCast]

theorem ReadsBack.natAbs {basic kind : String} {size : ℤ}
    (h : ReadsBack basic kind size.natAbs) : ReadsBack basic kind size := by
  rw [ReadsBack, ← leafSize_natAbs]
  exact h

/-- A basic type of one size. -/
theorem readsBack_one {basic kind : String} {size : ℤ} {n : ℕ} (hn : size.natAbs = n)
    (h : basicKind basic = .ok (kind, leafSize kind n)) : ReadsBack basic kind size := by
  apply ReadsBack.natAbs
  intro _
  rw [hn]
  exact h

/-- The SCL type of a value is read back. -/
theorem readsBack_basicType (name kind : String) (size : ℤ) :
    ReadsBack (basicType name kind size) kind size := by
  apply readsBack_ite
  · rintro rfl _
    rfl
  intro _
  apply readsBack_ite
  · rintro rfl
    apply readsBack_sized
    simp only [List.forall_mem_cons]
    exact ⟨rfl, rfl, rfl, rfl, rfl, rfl, List.forall_mem_nil _⟩
  intro _
  apply readsBack_ite
  · rintro rfl
    apply readsBack_ite
    · intro hmem _
      simp only [List.mem_cons, List.not_mem_nil, or_false] at hmem
      rcases hmem with rfl | rfl | rfl | rfl <;> rfl
    · exact fun _ ↦ readsBack_empty _ _
  intro _
  apply readsBack_ite
  · rintro rfl
    apply readsBack_sized
    simp only [List.forall_mem_cons]
    exact ⟨rfl, rfl, List.forall_mem_nil _⟩
  intro _
  apply readsBack_ite
  · rintro rfl _
    rfl
  intro _
  apply readsBack_ite
  · rintro rfl
    apply readsBack_ite
    · rintro rfl _
      rfl
    · exact fun _ ↦ readsBack_empty _ _
  intro _
  apply readsBack_ite
  · rintro rfl
    apply readsBack_ite
    · exact fun h ↦ readsBack_one h.1 rfl
    · intro _
      apply ReadsBack.natAbs
      apply readsBack_sized
      simp only [List.forall_mem_cons]
      exact ⟨rfl, rfl, rfl, rfl, rfl, List.forall_mem_nil _⟩
  intro _
  apply readsBack_ite
  · rintro rfl _
    rfl
  intro _
  apply readsBack_ite
  · rintro rfl
    apply readsBack_ite
    · exact fun h ↦ readsBack_one h rfl
    · intro _
      apply ReadsBack.natAbs
      apply readsBack_sized
      simp only [List.forall_mem_cons]
      exact ⟨rfl, rfl, rfl, List.forall_mem_nil _⟩
  intro _
  apply readsBack_ite
  · rintro rfl
    apply readsBack_ite
    · exact fun h ↦ readsBack_one h.2 rfl
    intro _
    apply readsBack_ite
    · exact fun h ↦ readsBack_one h.2 rfl
    intro _
    apply readsBack_ite
    · exact fun h ↦ readsBack_one h.2 rfl
    intro _
    apply readsBack_ite
    · exact fun h ↦ readsBack_one h.2 rfl
    intro _
    apply readsBack_ite
    · exact fun h ↦ readsBack_one h.2 rfl
    exact fun _ ↦ readsBack_empty _ _
  · exact fun _ ↦ readsBack_empty _ _

/-! ## Attributes -/

/-- A value or a structure as it is read back. -/
def plainTyp (name kind : String) (size : ℤ) (fields : List Typ) : Typ :=
  if kind = "STRUCTURE" then { name, kind, children := fields }
  else { name, kind, size := leafSize kind size }

/-- The array of a count: its elements get its name. -/
def arrayTyp (count : Option ℤ) (t : Typ) : Typ :=
  match count with
  | none => t
  | some n => { name := t.name, kind := "ARRAY", size := n, children := [t] }

mutual

/-- An attribute as it is read back. -/
def Typ.normal : Typ → Typ
  | ⟨name, kind, size, children⟩ =>
      if kind = "ARRAY" then
        match children with
        | [⟨_, kind, elementSize, children⟩] =>
            arrayTyp (some size) (plainTyp name kind elementSize (Typ.normals children))
        | _ => { name, kind, size }
      else plainTyp name kind size (Typ.normals children)

def Typ.normals : List Typ → List Typ
  | [] => []
  | t :: ts => t.normal :: Typ.normals ts

end

theorem Typ.normals_eq_map (ts : List Typ) : Typ.normals ts = ts.map Typ.normal := by
  induction ts with
  | nil => rfl
  | cons t ts ih => rw [Typ.normals, ih, List.map_cons]

theorem Typ.normal_eq {t : Typ} {s : Shape} (h : t.shape = some s) :
    t.normal = arrayTyp s.count (plainTyp t.name s.kind s.size (s.fields.map Typ.normal)) := by
  obtain ⟨name, kind, size, children⟩ := t
  unfold Typ.shape at h
  unfold Typ.normal
  dsimp only at h
  by_cases hk : kind = "ARRAY"
  · rw [if_pos hk] at h ⊢
    match children with
    | [⟨_, _, _, _⟩] =>
        dsimp only at h
        split_ifs at h
        cases h
        rw [← Typ.normals_eq_map]
    | [] => cases h
    | ⟨_, _, _, _⟩ :: _ :: _ => cases h
  · rw [if_neg hk] at h ⊢
    cases h
    rw [Typ.normals_eq_map]
    rfl

theorem one_le_of_shape {t : Typ} {s : Shape} (h : t.shape = some s) {n : ℤ}
    (hn : s.count = some n) : 1 ≤ n := by
  obtain ⟨name, kind, size, children⟩ := t
  unfold Typ.shape at h
  dsimp only at h
  by_cases hk : kind = "ARRAY"
  · rw [if_pos hk] at h
    match children with
    | [⟨_, _, _, _⟩] =>
        dsimp only at h
        split_ifs at h with hsize
        cases h
        cases hn
        exact not_lt.mp hsize
    | [] => cases h
    | ⟨_, _, _, _⟩ :: _ :: _ => cases h
  · rw [if_neg hk] at h
    cases h
    cases hn

theorem startAttrs_count (tag name : String) (count : Option ℤ) {rest : List (String × String)}
    (h : rest.lookup "count" = none) :
    (element tag (startAttrs name count ++ rest)).attribute "count" =
      (count.map toString).getD "" := by
  cases count <;> simp [startAttrs, element, Element.attribute, List.lookup, h]

theorem startAttrs_bType (tag name : String) (count : Option ℤ) (basic : String)
    (rest : List (String × String)) :
    (element tag (startAttrs name count ++ ("bType", basic) :: rest)).attribute "bType" = basic := by
  cases count <;> simp [startAttrs, element, Element.attribute, List.lookup]

/-- The count of an array is read back. -/
theorem arrayOf_count {count : Option ℤ} {t t' : Typ} (hcount : ∀ n, count = some n → 1 ≤ n)
    (h : arrayOf ((count.map toString).getD "") t = .ok t') : t' = arrayTyp count t := by
  rw [arrayOf] at h
  cases count with
  | none =>
      cases h
      rfl
  | some n =>
      obtain ⟨k, rfl⟩ := Int.eq_ofNat_of_zero_le (Int.le_trans (by decide) (hcount n rfl))
      have hne : toString k ≠ "" := by
        rw [ne_eq, ← String.toList_inj, toList_toString]
        exact Nat.toDigits_ne_nil
      change (if toString k = "" then _ else _) = _ at h
      rw [if_neg hne] at h
      change (match atoi (toString k) with
        | none => _
        | some n => _) = _ at h
      cases hatoi : atoi (toString k) with
      | none =>
          rw [hatoi] at h
          cases h
      | some m =>
          rw [hatoi] at h
          dsimp only at h
          split_ifs at h
          cases h
          rw [eq_of_atoi_toString hatoi]
          rfl

section Read

variable {types : List Element} {table : TypeTable}

/-- A definition that is reached is the one of the table. -/
theorem yields_definition (table : TypeTable) (id kind : String) (depth : ℕ) :
    Yields (fun x ↦ x = table.get id ∧ depth ≤ 48) (table.definition id kind depth) := by
  intro x hx
  rw [TypeTable.definition, outcome_take_bind] at hx
  dsimp only at hx
  split_ifs at hx with hdepth
  · cases hx
  · cases hx
  · cases hx
    exact ⟨rfl, not_lt.mp hdepth⟩

theorem yields_fields_normal {dataAttribute : Element → Metered String Typ} {ts : List Typ}
    {xs : List Element}
    (h : List.Forall₂ (fun t x ↦ Yields (· = t.normal) (dataAttribute x)) ts xs)
    (seen : List String) : Yields (· = ts.map Typ.normal) (fields dataAttribute seen xs) := by
  induction h generalizing seen with
  | nil => exact yields_pure rfl
  | @cons t x ts xs hx _ ih =>
      rw [fields]
      split_ifs
      · exact yields_fail _
      · refine hx.bind ?_
        rintro _ rfl
        refine (ih _).bind ?_
        rintro _ rfl
        exact yields_pure rfl

theorem basicKind_struct (e : String × ℤ) : basicKind "Struct" ≠ .ok e := by
  intro h
  cases h

/-- An attribute of a value, as it is read. -/
theorem yields_plainAttribute_basic {x : Element} {name kind : String} {size : ℤ}
    (hname : x.attribute "name" = name)
    (hbasic : basicKind (x.attribute "bType") = .ok (kind, leafSize kind size))
    (hkind : kind ≠ "STRUCTURE") (fs : List Typ) (struct : Metered String (List Typ)) :
    Yields (· = plainTyp name kind size fs) (plainAttribute x struct) := by
  intro t ht
  rw [plainAttribute] at ht
  dsimp only at ht
  by_cases hstruct : x.attribute "bType" = "Struct"
  · rw [hstruct] at hbasic
    exact absurd hbasic (basicKind_struct _)
  · rw [if_neg hstruct, hbasic] at ht
    cases ht
    rw [plainTyp, if_neg hkind, hname]

/-- **An attribute is read back.** -/
theorem Describes.yields (htable : ∀ d ∈ types, table.get (d.attribute "id") = d) {t : Typ}
    {tag : String} {x : Element} (h : Describes types t tag x) (left : ℕ) :
    Yields (· = t.normal) (table.dataAttribute left x) := by
  induction t using Typ.shape_induction generalizing tag x left with
  | h t ih =>
      cases left with
      | zero => exact yields_fail _
      | succ left =>
          intro t' ht'
          rw [TypeTable.dataAttribute, outcome_take_bind] at ht'
          obtain ⟨plain, hplain, ht'⟩ := outcome_bind_eq_ok.mp ht'
          cases h with
          | @basic t tag s hshape hkind hbasic =>
              have hp := yields_plainAttribute_basic (startAttrs_attribute _ _ _ _ _).1
                (by rw [startAttrs_bType]; exact readsBack_basicType _ _ _ hbasic) hkind
                (s.fields.map Typ.normal) _ plain hplain
              rw [startAttrs_count _ _ _ rfl] at ht'
              rw [arrayOf_count (fun n ↦ one_le_of_shape hshape) ht', hp, Typ.normal_eq hshape]
          | @struct t tag s d hshape hkind hd hname hfields =>
              rw [startAttrs_count _ _ _ rfl] at ht'
              rw [arrayOf_count (fun n ↦ one_le_of_shape hshape) ht', Typ.normal_eq hshape]
              rw [plainAttribute, startAttrs_bType, (startAttrs_attribute _ _ _ _ _).1,
                (startAttrs_attribute _ _ _ _ _).2.2] at hplain
              obtain ⟨children, hchildren, hplain⟩ := outcome_bind_eq_ok.mp hplain
              obtain ⟨y, hy, hchildren⟩ := outcome_bind_eq_ok.mp hchildren
              cases hplain
              obtain ⟨rfl, -⟩ := yields_definition _ _ _ _ y hy
              have hid : (List.lookup "type" [("bType", "Struct"), ("type", d.attribute "id")]).getD ""
                  = d.attribute "id" := rfl
              rw [hid, htable d hd] at hchildren
              have hbda : d.childrenNamed "BDA" = d.children := by
                rw [Element.childrenNamed, List.filter_eq_self]
                intro c hc
                obtain ⟨f, -, hf⟩ := forall₂_mem_right hfields hc
                simp [hf.name_eq.1]
              rw [hbda] at hchildren
              have hall : List.Forall₂
                  (fun t x ↦ Yields (· = t.normal) (table.dataAttribute left x))
                  s.fields d.children := by
                rw [List.forall₂_iff_zip] at hfields ⊢
                refine ⟨hfields.1, fun hmem ↦ ?_⟩
                exact ih s hshape _ (List.of_mem_zip hmem).1 (hfields.2 hmem) left
              rw [yields_fields_normal hall [] children hchildren, plainTyp, if_pos hkind, hkind]

end Read

/-! ## Objects -/

/-- The structure of a name with these children; nothing is left of an empty one. -/
def asObject (name : String) (children : List Typ) : List Typ :=
  if children = [] then [] else [{ name, kind := "STRUCTURE", children }]

/-- What the attributes of one name have for a constraint; `sub` is what a sub-object has. -/
def memberValues (sub : List Typ) (fc name : String) (values : List FcType) : List Typ :=
  if values.any fun part ↦ isSubObject part.t then asObject name sub
  else
    match values with
    | [] => []
    | v :: others =>
        match mergeParts name v others with
        | .error _ => []
        | .ok w => if w.fc = fc then [w.t.normal] else []

theorem memberValues_sub {sub : List Typ} {fc name : String} {values : List FcType}
    (hsub : (values.any fun part ↦ isSubObject part.t) = true) :
    memberValues sub fc name values = asObject name sub := if_pos hsub

theorem memberValues_attr {sub : List Typ} {fc name : String} {v w : FcType} {others : List FcType}
    (hsub : ((v :: others).any fun part ↦ isSubObject part.t) = false)
    (hmerge : mergeParts name v others = .ok w) :
    memberValues sub fc name (v :: others) = if w.fc = fc then [w.t.normal] else [] := by
  unfold memberValues
  rw [if_neg (Bool.eq_false_iff.mp hsub)]
  dsimp only
  rw [hmerge]

/-- **What an object has for a constraint after it was merged**: its attributes and its sub-objects,
in the order in which their names occur first under any constraint. -/
def merged (fc : String) (groups : List FcType) : List Typ :=
  (gather groups).attach.flatMap fun entry ↦
    memberValues (merged fc entry.1.2) fc entry.1.1 entry.1.2
termination_by Typ.depths (groups.map (·.t))
decreasing_by exact depths_lt_of_mem_gather entry.2

theorem merged_eq (fc : String) (groups : List FcType) :
    merged fc groups =
      (gather groups).flatMap fun entry ↦ memberValues (merged fc entry.2) fc entry.1 entry.2 := by
  rw [merged, List.flatMap_subtype
    (g := fun entry ↦ memberValues (merged fc entry.2) fc entry.1 entry.2) fun _ _ ↦ rfl,
    List.unattach_attach]

/-- The structures of a constraint. -/
def valuesAt (fc : String) (groups : List FcType) : List Typ :=
  (groups.filter (·.fc == fc)).map (·.t)

theorem valuesAt_cons (fc : String) (group : FcType) (groups : List FcType) :
    valuesAt fc (group :: groups) =
      if group.fc = fc then group.t :: valuesAt fc groups else valuesAt fc groups := by
  rw [valuesAt, List.filter_cons]
  by_cases h : group.fc = fc
  · rw [if_pos h, if_pos (beq_iff_eq.mpr h), List.map_cons]
    rfl
  · rw [if_neg h, if_neg (mt beq_iff_eq.mp h)]
    rfl

/-- The structure with another child: a new one, if there is none. -/
def appendChild (name : String) (attr : Typ) : List Typ → List Typ
  | [] => [{ name, kind := "STRUCTURE", children := [attr] }]
  | t :: ts => { t with children := t.children ++ [attr] } :: ts

theorem valuesAt_addPart (name fc fc' : String) (attr : Typ) (groups : List FcType) :
    valuesAt fc (addPart name fc' attr groups) =
      if fc' = fc then appendChild name attr (valuesAt fc groups) else valuesAt fc groups := by
  induction groups with
  | nil =>
      rw [addPart, valuesAt_cons]
      rfl
  | cons group groups ih =>
      rw [addPart]
      by_cases hg : group.fc = fc'
      · rw [if_pos hg, valuesAt_cons, valuesAt_cons, hg]
        dsimp only
        split_ifs <;> rfl
      · rw [if_neg hg, valuesAt_cons, valuesAt_cons, ih]
        by_cases hfc : fc' = fc
        · rw [if_pos hfc, if_pos hfc, if_neg (hfc ▸ hg), if_neg (hfc ▸ hg)]
        · rw [if_neg hfc, if_neg hfc]

theorem appendChild_asObject (name : String) (attr : Typ) (cs : List Typ) :
    appendChild name attr (asObject name cs) = asObject name (cs ++ [attr]) := by
  have hne : cs ++ [attr] ≠ [] := List.append_ne_nil_of_right_ne_nil cs (List.cons_ne_nil attr [])
  rw [asObject, asObject, if_neg hne]
  split_ifs with h
  · rw [h]
    rfl
  · rfl

/-- An object has one structure with these children for each constraint. -/
def Holds (name : String) (cs : String → List Typ) (groups : List FcType) : Prop :=
  ∀ fc, valuesAt fc groups = asObject name (cs fc)

theorem Holds.congr {name : String} {cs cs' : String → List Typ} {groups : List FcType}
    (h : Holds name cs groups) (hcs : ∀ fc, cs fc = cs' fc) : Holds name cs' groups := by
  intro fc
  rw [h fc, hcs fc]

theorem holds_nil (name : String) : Holds name (fun _ ↦ []) [] := fun _ ↦ rfl

theorem Holds.add {name fc' : String} {attr : Typ} {cs : String → List Typ}
    {groups : List FcType} (h : Holds name cs groups) :
    Holds name (fun fc ↦ cs fc ++ if fc' = fc then [attr] else []) (addPart name fc' attr groups) := by
  intro fc
  rw [valuesAt_addPart, h fc]
  dsimp only
  split_ifs
  · exact appendChild_asObject name attr (cs fc)
  · rw [List.append_nil]

theorem Holds.addAll {name : String} {cs : String → List Typ} {groups : List FcType}
    (h : Holds name cs groups) (added : List FcType) :
    Holds name (fun fc ↦ cs fc ++ valuesAt fc added)
      (added.foldl (fun result p ↦ addPart name p.fc p.t result) groups) := by
  induction added generalizing cs groups with
  | nil => exact h.congr fun fc ↦ (List.append_nil _).symm
  | cons p added ih =>
      refine (ih h.add).congr fun fc ↦ ?_
      rw [valuesAt_cons, List.append_assoc]
      split_ifs <;> rfl

theorem yields_objectLoop_merged {parts : Element → Metered String (List FcType)}
    {f : String → String × List FcType → List Typ} {entries : List (String × List FcType)}
    {xs : List Element}
    (h : List.Forall₂ (fun entry x ↦
      Yields (fun added ↦ ∀ fc, valuesAt fc added = f fc entry) (parts x)) entries xs)
    {name : String} {cs : String → List Typ} {result : List FcType}
    (hresult : Holds name cs result) (seen : List String) :
    Yields (Holds name fun fc ↦ cs fc ++ entries.flatMap (f fc))
      (objectLoop parts name seen result xs) := by
  induction h generalizing cs result seen with
  | nil =>
      refine yields_pure (hresult.congr fun fc ↦ ?_)
      rw [List.flatMap_nil, List.append_nil]
  | @cons entry x entries xs hx _ ih =>
      rw [objectLoop]
      split_ifs
      · exact yields_fail _
      · refine hx.bind ?_
        intro added hadded out hout
        refine (ih (hresult.addAll added) _ out hout).congr fun fc ↦ ?_
        rw [hadded fc, List.flatMap_cons, List.append_assoc]

section Read

variable {types : List Element} {table : TypeTable}

theorem dataAttribute_append_fc (table : TypeTable) (left : ℕ) (da : Element) (fc : String) :
    table.dataAttribute left { da with attrs := da.attrs ++ [("fc", fc)] } =
      table.dataAttribute left da := by
  cases left with
  | zero => rfl
  | succ left =>
      rw [TypeTable.dataAttribute, TypeTable.dataAttribute, plainAttribute, plainAttribute]
      dsimp only
      rw [attribute_append_fc da fc (by decide), attribute_append_fc da fc (by decide),
        attribute_append_fc da fc (by decide), attribute_append_fc da fc (by decide)]

/-- The attribute or the sub-object of a name is read back. -/
theorem DescribesMember.yields (htable : ∀ d ∈ types, table.get (d.attribute "id") = d)
    {name : String} {values : List FcType} {x : Element} {left : ℕ}
    (h : DescribesMember types name values x)
    (hobject : ∀ id, DescribesObject types values id →
      Yields (Holds name fun fc ↦ merged fc values) (table.object left name id)) :
    Yields (fun added ↦ ∀ fc, valuesAt fc added = memberValues (merged fc values) fc name values)
      (objectParts (table.object left) (table.dataAttribute left) x) := by
  cases h with
  | @sub _ _ id hsub hid =>
      intro added hadded fc
      rw [memberValues_sub hsub]
      exact hobject id hid added hadded fc
  | @attr _ v w others da hsub hmerge hda =>
      have hname : da.name = "DA" := hda.name_eq.1
      have hfc := hda.fc_eq w.fc
      have hdata := dataAttribute_append_fc table left da w.fc
      revert hname hfc hdata
      generalize ha : Element.mk da.name (da.attrs ++ [("fc", w.fc)]) da.children da.text = a
      intro hname hfc hdata
      have hsdo : ¬a.name = "SDO" := by
        rw [← ha, hname]
        decide
      rw [objectParts, hfc, hdata, if_neg hsdo]
      split_ifs
      · exact yields_fail _
      · refine (hda.yields htable left).bind ?_
        rintro _ rfl
        refine yields_pure fun fc ↦ ?_
        rw [memberValues_attr hsub hmerge, valuesAt_cons]
        rfl

/-- **An object is read back.** -/
theorem DescribesObject.yields (htable : ∀ d ∈ types, table.get (d.attribute "id") = d)
    {groups : List FcType} {id : String} (h : DescribesObject types groups id) (name : String)
    (left : ℕ) : Yields (Holds name fun fc ↦ merged fc groups) (table.object left name id) := by
  induction groups using gather_induction generalizing id name left with
  | h groups ih =>
      intro out hout
      cases left with
      | zero =>
          obtain ⟨x, hx, -⟩ := outcome_bind_eq_ok.mp hout
          exact absurd (yields_definition _ _ _ _ x hx).2 (by decide)
      | succ left =>
          obtain ⟨x, hx, hout⟩ := outcome_bind_eq_ok.mp hout
          obtain ⟨rfl, -⟩ := yields_definition _ _ _ _ x hx
          obtain @⟨_, _, d, -, -, hd, hid, hmembers⟩ := h
          have hget := htable d hd
          rw [(Prod.mk.inj hid).2] at hget
          rw [hget] at hout
          have hall : ∀ c ∈ d.children, (c.name == "DA" || c.name == "SDO") = true := by
            intro c hc
            obtain ⟨⟨key, values⟩, -, hentry⟩ := forall₂_mem_right hmembers hc
            dsimp only at hentry
            cases hentry with
            | sub => rfl
            | attr _ _ hda => simp [hda.name_eq.1]
          rw [List.filter_eq_self.mpr hall] at hout
          intro fc
          dsimp only
          rw [merged_eq]
          refine yields_objectLoop_merged (f := fun fc entry ↦
            memberValues (merged fc entry.2) fc entry.1 entry.2) ?_ (holds_nil name) [] out hout fc
          rw [List.forall₂_iff_zip] at hmembers ⊢
          refine ⟨hmembers.1, fun {entry c} hmem ↦ ?_⟩
          exact (hmembers.2 hmem).yields htable fun id hid ↦
            ih entry.1 entry.2 (List.of_mem_zip hmem).1 hid entry.1 left

end Read

end ProcessBus.Scl
