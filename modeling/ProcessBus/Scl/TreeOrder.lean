import ProcessBus.Lib.Arrange
import ProcessBus.Scl.RoundTrip

/-!
# The order of the attributes

An object comes back with its attributes in the order in which their names occur first under any
constraint.  This is the order in which they were browsed exactly if the orders of the constraints
do not contradict each other, at every level (`merged_eq_iff`): GOOSE structures are compared by
position, so that the other objects can no longer be received.
-/

namespace ProcessBus.Scl

open Lib

/-- The attributes of a constraint. -/
def childrenAt (fc : String) (groups : List FcType) : List Typ :=
  (valuesAt fc groups).flatMap (·.children)

/-- The names of an object, in the order of first occurrence. -/
def memberNames (groups : List FcType) : List String := (gather groups).map (·.1)

/-- Objects whose constraints can be told apart again: no name stands twice under one constraint, an
attribute stands under one constraint only, and nothing is empty. -/
inductive Regular : List FcType → Prop
  | mk {groups : List FcType} (hfc : (groups.map (·.fc)).Nodup)
      (hnames : ∀ g ∈ groups, (g.t.children.map (·.name)).Nodup)
      (hattr : ∀ name values, (name, values) ∈ gather groups →
        (values.any fun part ↦ isSubObject part.t) = false → ∃ v, values = [v])
      (hkind : ∀ name values, (name, values) ∈ gather groups →
        (values.any fun part ↦ isSubObject part.t) = true →
          ∀ v ∈ values, v.t.kind = "STRUCTURE" ∧ v.t.children ≠ [])
      (hsub : ∀ name values, (name, values) ∈ gather groups →
        (values.any fun part ↦ isSubObject part.t) = true → Regular values) : Regular groups

/-- The names of every constraint stand in the order of the object, at every level. -/
inductive InOrder : List FcType → Prop
  | mk {groups : List FcType}
      (horder : ∀ g ∈ groups, (g.t.children.map (·.name)).Sublist (memberNames groups))
      (hsub : ∀ name values, (name, values) ∈ gather groups →
        (values.any fun part ↦ isSubObject part.t) = true → InOrder values) : InOrder groups

/-! ## Names -/

theorem Typ.name_plainTyp (name kind : String) (size : ℤ) (fields : List Typ) :
    (plainTyp name kind size fields).name = name := by
  rw [plainTyp]
  split_ifs <;> rfl

/-- What is read back keeps its name. -/
theorem Typ.name_normal (t : Typ) : t.normal.name = t.name := by
  obtain ⟨name, kind, size, children⟩ := t
  unfold Typ.normal
  by_cases hk : kind = "ARRAY"
  · rw [if_pos hk]
    rcases children with _ | ⟨⟨_, _, _, _⟩, _ | ⟨_, _⟩⟩
    · rfl
    · exact Typ.name_plainTyp _ _ _ _
    · rfl
  · rw [if_neg hk]
    exact Typ.name_plainTyp _ _ _ _

theorem map_name_normal (ts : List Typ) : (ts.map Typ.normal).map (·.name) = ts.map (·.name) := by
  rw [List.map_map]
  exact List.map_congr_left fun t _ ↦ Typ.name_normal t

/-- A structure comes back with its attributes. -/
theorem normal_structure {c : Typ} (h : c.kind = "STRUCTURE") :
    c.normal = { name := c.name, kind := "STRUCTURE", children := c.children.map Typ.normal } := by
  obtain ⟨name, kind, size, children⟩ := c
  obtain rfl : kind = "STRUCTURE" := h
  unfold Typ.normal
  rw [if_neg (by decide), plainTyp, if_pos rfl, Typ.normals_eq_map]

theorem valuesAt_parts (fc : String) (groups : List FcType) :
    valuesAt fc (parts groups) = childrenAt fc groups := by
  rw [childrenAt, valuesAt, valuesAt, parts, List.filter_flatMap, List.map_flatMap,
    List.flatMap_map]
  induction groups with
  | nil => rfl
  | cons g groups ih =>
      rw [List.flatMap_cons, ih, List.filter_cons]
      by_cases h : g.fc = fc
      · rw [if_pos (beq_iff_eq.mpr h), List.flatMap_cons]
        congr 1
        rw [List.filter_map, List.map_map, List.filter_eq_self.mpr]
        · exact List.map_id _
        · intro c _
          exact beq_iff_eq.mpr h
      · rw [if_neg (mt beq_iff_eq.mp h)]
        rw [List.filter_map, List.filter_eq_nil_iff.mpr, List.map_nil, List.map_nil,
          List.nil_append]
        intro c _
        exact mt beq_iff_eq.mp h

/-- What a constraint has under a name. -/
theorem valuesAt_of_mem_gather {groups : List FcType} {name : String} {values : List FcType}
    (h : (name, values) ∈ gather groups) (fc : String) :
    valuesAt fc values = (childrenAt fc groups).filter (·.name == name) := by
  rw [← valuesAt_parts, (mem_gather h).1, valuesAt, valuesAt, List.filter_map, List.filter_filter,
    List.filter_filter]
  refine congrArg _ (List.filter_congr fun p _ ↦ ?_)
  exact Bool.and_comm _ _

theorem nodup_memberNames (groups : List FcType) : (memberNames groups).Nodup :=
  (gathered (parts groups)).nodup

/-- At most one attribute is read back under a name, and it has the name. -/
theorem memberValues_cases {groups : List FcType} {sub : List Typ} {fc name : String}
    {values : List FcType} (h : (name, values) ∈ gather groups) :
    memberValues sub fc name values = [] ∨
      ∃ t, t.name = name ∧ memberValues sub fc name values = [t] := by
  cases hsub : values.any fun part ↦ isSubObject part.t with
  | true =>
      rw [memberValues_sub hsub, asObject]
      split_ifs
      · exact .inl rfl
      · exact .inr ⟨_, rfl, rfl⟩
  | false =>
      obtain ⟨hvalues, hne⟩ := mem_gather h
      obtain ⟨v, others, rfl⟩ := List.exists_cons_of_ne_nil hne
      cases hmerge : mergeParts name v others with
      | error err =>
          left
          unfold memberValues
          rw [if_neg (Bool.eq_false_iff.mp hsub)]
          dsimp only
          rw [hmerge]
      | ok w =>
          rw [memberValues_attr hsub hmerge]
          split_ifs
          · have hw := mergeParts_mem hmerge
            rw [hvalues, List.mem_filter, beq_iff_eq] at hw
            exact .inr ⟨_, (Typ.name_normal w.t).trans hw.2, rfl⟩
          · exact .inl rfl

/-- The names that are read back stand in the order of the object. -/
theorem names_merged (fc : String) (groups : List FcType) :
    ((merged fc groups).map (·.name)).Sublist (memberNames groups) := by
  rw [merged_eq]
  refine map_key_flatMap fun entry hentry ↦ ?_
  rcases memberValues_cases hentry with hnil | ⟨t, hname, hone⟩
  · rw [hnil]
    exact List.nil_sublist _
  · rw [hone, List.map_singleton, hname]

/-- What is read back under a name. -/
theorem filter_merged {groups : List FcType} {name : String} {values : List FcType}
    (h : (name, values) ∈ gather groups) (fc : String) :
    (merged fc groups).filter (·.name == name) = memberValues (merged fc values) fc name values := by
  rw [merged_eq]
  exact filter_flatMap_key (g := fun entry : String × List FcType ↦ entry.1)
    (nodup_memberNames groups) (fun entry hentry t ht ↦ by
      rcases memberValues_cases hentry with hnil | ⟨t', hname, hone⟩
      · rw [hnil] at ht
        cases ht
      · rw [hone] at ht
        rw [List.mem_singleton.mp ht, hname]) h

/-! ## One constraint -/

/-- The attributes of a constraint are those of its group. -/
theorem childrenAt_eq {groups : List FcType} (hfc : (groups.map (·.fc)).Nodup) {g : FcType}
    (hg : g ∈ groups) : childrenAt g.fc groups = g.t.children := by
  rw [childrenAt, valuesAt, filter_key_eq hfc hg]
  exact List.append_nil _

theorem childrenAt_cases {groups : List FcType} (hfc : (groups.map (·.fc)).Nodup) (fc : String) :
    childrenAt fc groups = [] ∨ ∃ g ∈ groups, childrenAt fc groups = g.t.children := by
  by_cases h : fc ∈ groups.map (·.fc)
  · obtain ⟨g, hg, rfl⟩ := List.mem_map.mp h
    exact .inr ⟨g, hg, childrenAt_eq hfc hg⟩
  · rw [childrenAt, valuesAt, filter_key_of_notMem h]
    exact .inl rfl

theorem Regular.nodup_childrenAt {groups : List FcType} (h : Regular groups) (fc : String) :
    ((childrenAt fc groups).map (·.name)).Nodup := by
  obtain ⟨hfc, hnames, -, -, -⟩ := h
  rcases childrenAt_cases hfc fc with hnil | ⟨g, hg, hchildren⟩
  · rw [hnil]
    exact List.nodup_nil
  · rw [hchildren]
    exact hnames g hg

/-- What a constraint has under a name is at most one attribute. -/
theorem Regular.valuesAt_cases {groups : List FcType} (h : Regular groups) {name : String}
    {values : List FcType} (hmem : (name, values) ∈ gather groups) (fc : String) :
    valuesAt fc values = [] ∨
      ∃ c ∈ childrenAt fc groups, c.name = name ∧ valuesAt fc values = [c] := by
  rw [valuesAt_of_mem_gather hmem]
  by_cases hname : name ∈ (childrenAt fc groups).map (·.name)
  · obtain ⟨c, hc, rfl⟩ := List.mem_map.mp hname
    exact .inr ⟨c, hc, rfl, filter_key_eq (h.nodup_childrenAt fc) hc⟩
  · exact .inl (filter_key_of_notMem hname)

theorem mem_valuesAt {fc : String} {values : List FcType} {c : Typ} (h : c ∈ valuesAt fc values) :
    ∃ v ∈ values, v.t = c := by
  obtain ⟨v, hv, hc⟩ := List.mem_map.mp h
  exact ⟨v, List.mem_of_mem_filter hv, hc⟩

theorem asObject_eq_nil_iff {name : String} {cs : List Typ} : asObject name cs = [] ↔ cs = [] := by
  constructor
  · intro h
    by_contra hcs
    rw [asObject, if_neg hcs] at h
    cases h
  · rintro rfl
    rfl

theorem asObject_inj {name : String} {cs cs' : List Typ}
    (h : asObject name cs = asObject name cs') : cs = cs' := by
  by_cases hcs' : cs' = []
  · rw [hcs'] at h ⊢
    exact asObject_eq_nil_iff.mp h
  · have hcs : cs ≠ [] := by
      intro hcs
      rw [hcs] at h
      exact hcs' (asObject_eq_nil_iff.mp h.symm)
    rw [asObject, asObject, if_neg hcs, if_neg hcs'] at h
    injection (List.cons.inj h).1

/-- A sub-object of a constraint, as it was browsed. -/
theorem Regular.map_normal_sub {groups : List FcType} (h : Regular groups) {name : String}
    {values : List FcType} (hmem : (name, values) ∈ gather groups)
    (hsub : (values.any fun part ↦ isSubObject part.t) = true) (fc : String) :
    (valuesAt fc values).map Typ.normal =
      asObject name ((childrenAt fc values).map Typ.normal) := by
  rw [childrenAt]
  rcases h.valuesAt_cases hmem fc with hnil | ⟨c, -, hname, hc⟩
  · rw [hnil]
    rfl
  · obtain ⟨-, -, -, hkind, -⟩ := h
    obtain ⟨v, hv, hvc⟩ := mem_valuesAt (hc ▸ List.mem_singleton_self c : c ∈ valuesAt fc values)
    obtain ⟨hstruct, hne⟩ := hkind name values hmem hsub v hv
    rw [hvc] at hstruct hne
    rw [hc, List.flatMap_singleton, asObject, if_neg (mt List.map_eq_nil_iff.mp hne),
      List.map_singleton, normal_structure hstruct, hname]

/-- An attribute of a constraint, as it was browsed. -/
theorem memberValues_one {sub : List Typ} {fc name : String} {v : FcType}
    (hsub : ([v].any fun part ↦ isSubObject part.t) = false) :
    memberValues sub fc name [v] = (valuesAt fc [v]).map Typ.normal := by
  rw [memberValues_attr hsub rfl, valuesAt_cons]
  split_ifs <;> rfl

/-- **The order of an object.**  The attributes come back as they were browsed, for every
constraint, exactly if the names of every constraint stand in the order of the object. -/
theorem merged_eq_iff {groups : List FcType} (h : Regular groups) :
    (∀ fc, merged fc groups = (childrenAt fc groups).map Typ.normal) ↔ InOrder groups := by
  induction h with
  | @mk groups hfc hnames hattr hkind hsub ih =>
      have hregular : Regular groups := .mk hfc hnames hattr hkind hsub
      constructor
      · intro hsame
        refine .mk ?_ ?_
        · intro g hg
          have hsublist := names_merged g.fc groups
          rw [hsame, map_name_normal, childrenAt_eq hfc hg] at hsublist
          exact hsublist
        · intro name values hmem hany
          refine (ih name values hmem hany).mp fun fc ↦ ?_
          have hfilter := filter_merged hmem fc
          rw [hsame, memberValues_sub hany] at hfilter
          refine asObject_inj (?_ : asObject name _ = asObject name _)
          rw [← hfilter, ← hregular.map_normal_sub hmem hany, valuesAt_of_mem_gather hmem,
            List.filter_map]
          refine congrArg _ (List.filter_congr fun c _ ↦ ?_)
          exact congrArg (· == name) (Typ.name_normal c)
      · rintro ⟨horder, hinorder⟩ fc
        have hmember : ∀ entry ∈ gather groups,
            memberValues (merged fc entry.2) fc entry.1 entry.2 =
              ((childrenAt fc groups).filter (·.name == entry.1)).map Typ.normal := by
          rintro ⟨name, values⟩ hmem
          rw [← valuesAt_of_mem_gather hmem]
          cases hany : values.any fun part ↦ isSubObject part.t with
          | true =>
              rw [memberValues_sub hany, (ih name values hmem hany).mpr (hinorder name values hmem hany),
                hregular.map_normal_sub hmem hany]
          | false =>
              obtain ⟨v, rfl⟩ := hattr name values hmem hany
              exact memberValues_one hany
        rw [merged_eq, List.flatMap_congr hmember]
        have harrange : arrange (·.name) (memberNames groups) (childrenAt fc groups) =
            childrenAt fc groups := by
          rw [arrange_eq_iff (nodup_memberNames groups) (hregular.nodup_childrenAt fc)]
          rcases childrenAt_cases hfc fc with hnil | ⟨g, hg, hchildren⟩
          · rw [hnil]
            exact List.nil_sublist _
          · rw [hchildren]
            exact horder g hg
        rw [← List.map_flatMap]
        refine congrArg _ (Eq.trans ?_ harrange)
        rw [arrange, memberNames, List.flatMap_map]

/-! ## Documents -/

/-- The structures of an object for a constraint. -/
def objectsOf (fc name : String) (ln : LogicalNode) : List Typ :=
  ((ln.groups.filter (·.name == fc)).flatMap (·.children)).filter (·.name == name)

theorem flatMap_asObject (name : String) (cs : List Typ) :
    (asObject name cs).flatMap (·.children) = cs := by
  rw [asObject]
  split_ifs with h
  · rw [h]
    rfl
  · exact List.append_nil _

theorem name_of_mem_asObject {name : String} {cs : List Typ} {t : Typ} (h : t ∈ asObject name cs) :
    t.name = name := by
  rw [asObject] at h
  split_ifs at h
  · cases h
  · rw [List.mem_singleton.mp h]

/-- What comes back of an object. -/
theorem RestoredNode.objectsOf {devices : List LogicalDevice} {ln ln' : LogicalNode}
    (h : RestoredNode devices ln ln') {name : String} {groups : List FcType}
    (hmem : (name, groups) ∈ gather (dataGroups ln)) (hrep : Representable groups) (fc : String) :
    objectsOf fc name ln' = asObject name (merged fc groups) := by
  rw [Scl.objectsOf, h.groups fc, flatMap_asObject]
  unfold restoredObjects
  refine (filter_flatMap_key (g := fun entry : String × List FcType ↦ entry.1)
    (e := (name, groups)) (gathered _).nodup ?_ hmem).trans (if_pos hrep)
  intro entry _ t ht
  split_ifs at ht
  · exact name_of_mem_asObject ht
  · cases ht

/-- The objects of a node came back as they were browsed, for every constraint. -/
def SameTrees (ln ln' : LogicalNode) : Prop :=
  ∀ name groups, (name, groups) ∈ gather (dataGroups ln) → Representable groups →
    ∀ fc, objectsOf fc name ln' = asObject name ((childrenAt fc groups).map Typ.normal)

/-- What holds of the objects of a node that are exported. -/
def Exported (P : List FcType → Prop) (ln : LogicalNode) : Prop :=
  ∀ name groups, (name, groups) ∈ gather (dataGroups ln) → Representable groups → P groups

theorem Exported.imp {P Q : List FcType → Prop} {ln : LogicalNode} (h : Exported P ln)
    (hPQ : ∀ groups, P groups → Q groups) : Exported Q ln :=
  fun name groups hmem hrep ↦ hPQ groups (h name groups hmem hrep)

theorem RestoredNode.sameTrees_iff {devices : List LogicalDevice} {ln ln' : LogicalNode}
    (h : RestoredNode devices ln ln') (hregular : Exported Regular ln) :
    SameTrees ln ln' ↔ Exported InOrder ln := by
  constructor
  · intro hsame name groups hmem hrep
    refine (merged_eq_iff (hregular name groups hmem hrep)).mp fun fc ↦ ?_
    refine asObject_inj (?_ : asObject name _ = asObject name _)
    rw [← h.objectsOf hmem hrep, hsame name groups hmem hrep]
  · intro horder name groups hmem hrep fc
    rw [h.objectsOf hmem hrep,
      (merged_eq_iff (hregular name groups hmem hrep)).mpr (horder name groups hmem hrep)]

theorem forall₂_iff_forall_mem {α β : Type} {R S : α → β → Prop} {P : α → Prop} {xs : List α}
    {ys : List β} (h : List.Forall₂ R xs ys) (hiff : ∀ x ∈ xs, ∀ y, R x y → (S x y ↔ P x)) :
    List.Forall₂ S xs ys ↔ ∀ x ∈ xs, P x := by
  induction h with
  | nil => simp
  | @cons x y xs ys hxy _ ih =>
      obtain ⟨hhead, hrest⟩ := List.forall_mem_cons.mp hiff
      rw [List.forall₂_cons, List.forall_mem_cons, hhead y hxy, ih hrest]

theorem mem_orderedNodes {ld : LogicalDevice} {ln : LogicalNode} :
    ln ∈ orderedNodes ld ↔ ln ∈ ld.nodes := by
  rw [orderedNodes, List.mem_append, List.mem_filter, List.mem_filter]
  by_cases hn : ln.name = "LLN0" <;> simp [hn]

/-- **When export and import keep the trees.**  If no name of an object is ambiguous, the objects of
a model come back as they were browsed, for every constraint and in the same order, exactly if the
constraints have their names in one order, at every level. -/
theorem importICD_order_iff {parseIP : String → Option String} {model model' : Model}
    {doc : Element} {ws : List String} (h : exportICD model = (.ok doc, ws))
    (himport : importICD parseIP doc = .ok model')
    (hregular : ∀ ld ∈ model.devices, ∀ ln ∈ ld.nodes, Exported Regular ln) :
    List.Forall₂ (fun ld ld' ↦ List.Forall₂ SameTrees (orderedNodes ld) ld'.nodes)
        model.devices model'.devices ↔
      ∀ ld ∈ model.devices, ∀ ln ∈ ld.nodes, Exported InOrder ln := by
  apply forall₂_iff_forall_mem (restored_of_exportICD h himport)
  intro ld hld ld' hld'
  rw [forall₂_iff_forall_mem (P := Exported InOrder) hld'.nodes]
  · simp only [mem_orderedNodes]
  · intro ln hln ln' hln'
    exact hln'.sameTrees_iff (hregular ld hld ln (mem_orderedNodes.mp hln))

/-! ## A model whose trees come back -/

/-- Objects all of whose names are attributes, each under one constraint. -/
theorem Regular.of_attributes {groups : List FcType} (hfc : (groups.map (·.fc)).Nodup)
    (hnames : ∀ g ∈ groups, (g.t.children.map (·.name)).Nodup)
    (hattr : ∀ e ∈ gather groups,
      (e.2.any fun part ↦ isSubObject part.t) = false ∧ e.2.length = 1) : Regular groups := by
  refine .mk hfc hnames ?_ ?_ ?_
  · exact fun name values h _ ↦ List.length_eq_one_iff.mp (hattr _ h).2
  · intro name values h hany
    rw [(hattr _ h).1] at hany
    cases hany
  · intro name values h hany
    rw [(hattr _ h).1] at hany
    cases hany

/-- Objects all of whose names are regular sub-objects. -/
theorem Regular.of_subObjects {groups : List FcType} (hfc : (groups.map (·.fc)).Nodup)
    (hnames : ∀ g ∈ groups, (g.t.children.map (·.name)).Nodup)
    (hkind : ∀ e ∈ gather groups, (e.2.any fun part ↦ isSubObject part.t) = true ∧
      ∀ v ∈ e.2, v.t.kind = "STRUCTURE" ∧ v.t.children ≠ [])
    (hsub : ∀ e ∈ gather groups, Regular e.2) : Regular groups := by
  refine .mk hfc hnames ?_ ?_ ?_
  · intro name values h hany
    rw [(hkind _ h).1] at hany
    cases hany
  · exact fun name values h _ ↦ (hkind _ h).2
  · exact fun name values h _ ↦ hsub _ h

/-- These have an order if their names have one. -/
theorem regular_inOrder_of_attributes {groups : List FcType} (hfc : (groups.map (·.fc)).Nodup)
    (hnames : ∀ g ∈ groups, (g.t.children.map (·.name)).Nodup)
    (horder : ∀ g ∈ groups, (g.t.children.map (·.name)).Sublist (memberNames groups))
    (hattr : ∀ e ∈ gather groups,
      (e.2.any fun part ↦ isSubObject part.t) = false ∧ e.2.length = 1) :
    Regular groups ∧ InOrder groups := by
  refine ⟨.of_attributes hfc hnames hattr, .mk horder fun name values h hany ↦ ?_⟩
  rw [(hattr _ h).1] at hany
  cases hany

/-- The measured value under its two constraints. -/
def feederAmp : List FcType :=
  [⟨"MX", composite "Amp" [feederMag, feederQuality]⟩, ⟨"CF", composite "Amp" [feederDeadBand]⟩]

/-- The current under its two constraints. -/
def feederCurrent : List FcType :=
  [⟨"MX", composite "A" [feederPhase "phsA", feederPhase "phsB", feederPhase "phsC"]⟩,
    ⟨"CF", composite "A" [composite "phsA" [feederDeadBand]]⟩]

/-- The phases of the current; one of them has a dead band. -/
def feederPhases : List (String × List FcType) :=
  [("phsA", [⟨"MX", feederPhase "phsA"⟩, ⟨"CF", composite "phsA" [feederDeadBand]⟩]),
    ("phsB", [⟨"MX", feederPhase "phsB"⟩]), ("phsC", [⟨"MX", feederPhase "phsC"⟩])]

theorem gather_feederNode :
    gather (dataGroups feederNode) = [("Amp", feederAmp), ("A", feederCurrent)] := rfl

theorem gather_feederCurrent : gather feederCurrent = feederPhases := rfl

theorem regular_feederPhases : ∀ e ∈ feederPhases, Regular e.2 ∧ InOrder e.2 := by
  simp only [feederPhases, List.forall_mem_cons]
  refine ⟨?_, ?_, ?_, fun e he ↦ absurd he List.not_mem_nil⟩
  · exact regular_inOrder_of_attributes (by decide) (by decide) (by decide) (by decide)
  · exact regular_inOrder_of_attributes (by decide) (by decide) (by decide) (by decide)
  · exact regular_inOrder_of_attributes (by decide) (by decide) (by decide) (by decide)

/-- No name of the model is ambiguous, and all stand in one order. -/
theorem regular_feederModel : ∀ ld ∈ feederModel.devices, ∀ ln ∈ ld.nodes,
    Exported (fun groups ↦ Regular groups ∧ InOrder groups) ln := by
  intro ld hld ln hln name groups hmem _
  obtain rfl := List.mem_singleton.mp hld
  obtain rfl := List.mem_singleton.mp hln
  rw [gather_feederNode] at hmem
  simp only [List.mem_cons, Prod.mk.injEq, List.not_mem_nil, or_false] at hmem
  rcases hmem with ⟨rfl, rfl⟩ | ⟨rfl, rfl⟩
  · exact regular_inOrder_of_attributes (by decide) (by decide) (by decide) (by decide)
  · have hphases := regular_feederPhases
    rw [← gather_feederCurrent] at hphases
    constructor
    · exact .of_subObjects (by decide) (by decide) (by decide) fun e he ↦ (hphases e he).1
    · exact .mk (by decide) fun name values h _ ↦ (hphases _ h).2

/-- Both objects come back as they were browsed, with their sub-objects. -/
theorem importICD_order_iff_feeder :
    ∃ doc ws model', exportICD feederModel = (.ok doc, ws) ∧ importICD some doc = .ok model' ∧
      List.Forall₂ (fun ld ld' ↦ List.Forall₂ SameTrees (orderedNodes ld) ld'.nodes)
        feederModel.devices model'.devices := by
  obtain ⟨doc, ws, model', h, himport, -⟩ := exists_import_feederModel
  refine ⟨doc, ws, model', h, himport, (importICD_order_iff h himport ?_).mpr ?_⟩
  · exact fun ld hld ln hln ↦ (regular_feederModel ld hld ln hln).imp fun _ h ↦ h.1
  · exact fun ld hld ln hln ↦ (regular_feederModel ld hld ln hln).imp fun _ h ↦ h.2

end ProcessBus.Scl
