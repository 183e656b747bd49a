import ProcessBus.Scl.References

/-!
# The members of exported data sets

`reconcileDataSets` keeps a data set if each of its members leads to an object or to an attribute of
the exported types.  The constraint of a member is compared where the path comes to an attribute: a
member that names a whole object is kept with any constraint.
-/

namespace ProcessBus.Scl

/-! ## The document -/

/-- A member refers to a device, a node, an object and, if it names one, an attribute of the
document, and its constraint selects an attribute of the object. -/
def Refers (doc m : Element) : Prop :=
  ∃ ld ∈ documentDevices doc, ∃ ln ∈ ld.children, ld.attribute "inst" = m.attribute "ldInst" ∧
    ln.attribute "prefix" = m.attribute "prefix" ∧
    ln.attribute "lnClass" = m.attribute "lnClass" ∧ ln.attribute "inst" = m.attribute "lnInst" ∧
    ∃ lt ∈ documentTypes doc, identity lt = ("LNodeType", ln.attribute "lnType") ∧
      ∃ d, ObjectAt (documentTypes doc) lt (split '.' (m.attribute "doName")) d ∧
        (m.attribute "daName" ≠ "" → AttributeAt (documentTypes doc) (m.attribute "fc") d
          (split '.' (m.attribute "daName"))) ∧
        Selects (documentTypes doc) (m.attribute "fc") d

/-- Every member of every data set of a document. -/
def MembersRefer (doc : Element) : Prop :=
  ∀ ld ∈ documentDevices doc, ∀ ln ∈ ld.children, ∀ ds ∈ ln.childrenNamed "DataSet",
    ∀ m ∈ ds.childrenNamed "FCDA", Refers doc m

section Document

variable {types : List Element} {roots : List (String × String)} {lo hi : ℕ}
  {devices : List LogicalDevice} {devs : List Element} {doc : Element}

theorem mem_modelNodes {a : LogicalDevice × LogicalNode} :
    a ∈ modelNodes devices ↔ a.1 ∈ devices ∧ a.2 ∈ a.1.nodes := by
  obtain ⟨ld, ln⟩ := a
  have hordered : ∀ ld : LogicalDevice, ln ∈ orderedNodes ld ↔ ln ∈ ld.nodes := by
    intro ld
    rw [orderedNodes, List.mem_append, List.mem_filter, List.mem_filter]
    by_cases hn : ln.name = "LLN0" <;> simp [hn]
  simp only [modelNodes, List.mem_flatMap, List.mem_map, Prod.mk.injEq]
  constructor
  · rintro ⟨ld', hld', ln', hln', rfl, rfl⟩
    exact ⟨hld', (hordered _).mp hln'⟩
  · rintro ⟨hld, hln⟩
    exact ⟨ld, hld, ln, (hordered ld).mpr hln, rfl, rfl⟩

/-- What a member of the document refers to, by nodes of the model. -/
theorem refers_iff (htypes : documentTypes doc = types)
    (hdevs : documentDevices doc = reconcileDevices types devs)
    (hpart : Templates types roots lo hi)
    (h : List.Forall₂ (NodeRel types devices) (modelNodes devices) (documentNodes devs))
    {r : MemberRef} {m : Element} (hm : Exports devices r m) :
    Refers doc m ↔ ∃ a x, a ∈ modelNodes devices ∧ x ∈ documentNodes devs ∧
      NodeRel types devices a x ∧ a.1.name = r.ld ∧ a.2.name = r.ln ∧
      ∃ d, ObjectAt types (typeOf types (x.2.attribute "lnType"))
          (split '.' (m.attribute "doName")) d ∧
        (m.attribute "daName" ≠ "" →
          AttributeAt types r.fc d (split '.' (m.attribute "daName"))) ∧
        Selects types r.fc d := by
  rw [Refers, htypes, hdevs, hm.fc]
  constructor
  · rintro ⟨ld, hld, ln, hln, hinst, hpre, hcls, hlnInst, lt, hlt, hid, hd⟩
    obtain ⟨ld', hld', rfl⟩ := List.mem_map.mp hld
    obtain ⟨ln', hln', rfl⟩ := List.mem_map.mp hln
    have hx : (ld', ln') ∈ documentNodes devs :=
      List.mem_flatMap.mpr ⟨ld', hld', List.mem_map.mpr ⟨ln', hln', rfl⟩⟩
    obtain ⟨a, ha, hrel⟩ := forall₂_mem_right h hx
    obtain ⟨hname, hname'⟩ := (hrel.matches_iff hm).mp ⟨hinst, hpre, hcls, hlnInst⟩
    have hdef := hrel.node.defines hpart
    obtain rfl : lt = typeOf types (ln'.attribute "lnType") :=
      hpart.unique hlt hdef.1.mem (by rw [hid, hdef.2]; rfl)
    exact ⟨a, (ld', ln'), ha, hx, hrel, hname, hname', hd⟩
  · rintro ⟨a, ⟨ld', ln'⟩, ha, hx, hrel, hname, hname', hd⟩
    obtain ⟨hinst, hpre, hcls, hlnInst⟩ := (hrel.matches_iff hm).mpr ⟨hname, hname'⟩
    obtain ⟨ld, hld, hx⟩ := List.mem_flatMap.mp hx
    obtain ⟨ln, hln, he⟩ := List.mem_map.mp hx
    cases he
    have hdef := hrel.node.defines hpart
    exact ⟨_, List.mem_map.mpr ⟨ld', hld, rfl⟩, _, List.mem_map.mpr ⟨ln', hln, rfl⟩, hinst, hpre,
      hcls, hlnInst, _, hdef.1.mem, hdef.2, hd⟩

/-- Some node with the names of a reference has the object it names, with an attribute that carries
its constraint. -/
def Selected (devices : List LogicalDevice) (r : MemberRef) : Prop :=
  ∃ ld ∈ devices, ∃ ln ∈ ld.nodes, ld.name = r.ld ∧ ln.name = r.ln ∧
    ∃ groups, Finds ln r.path (.object groups) ∧ Carries r.fc groups

/-- A member that names a whole object. -/
theorem refers_object_iff (htypes : documentTypes doc = types)
    (hdevs : documentDevices doc = reconcileDevices types devs)
    (hpart : Templates types roots lo hi)
    (h : List.Forall₂ (NodeRel types devices) (modelNodes devices) (documentNodes devs))
    {r : MemberRef} {m : Element} (hm : Exports devices r m) (hne : r.path ≠ [])
    (hfree : ∀ name ∈ r.path, '.' ∉ name.toList) :
    Refers doc (divide m r.path []) ↔ Selected devices r := by
  rw [refers_iff htypes hdevs hpart h (hm.divide _ _)]
  have hdo : split '.' ((divide m r.path []).attribute "doName") = r.path := by
    rw [attribute_divide, if_neg (by decide), if_pos rfl, split_join hne hfree]
  have hda : (divide m r.path []).attribute "daName" = "" := by
    rw [attribute_divide, if_pos rfl, if_pos rfl]
  rw [hdo, hda]
  constructor
  · rintro ⟨a, x, ha, -, hrel, hld, hln, d, hat, -, hsel⟩
    have hdef := (hrel.node.defines hpart).1
    obtain ⟨hmem, hmem'⟩ := mem_modelNodes.mp ha
    exact ⟨a.1, hmem, a.2, hmem', hld, hln, (hdef.selects_iff hpart hne r.fc).mp ⟨d, hat, hsel⟩⟩
  · rintro ⟨ld, hmem, ln, hmem', hld, hln, hfinds⟩
    have ha : (ld, ln) ∈ modelNodes devices := mem_modelNodes.mpr ⟨hmem, hmem'⟩
    obtain ⟨x, hx, hrel⟩ := forall₂_mem_right h.flip ha
    have hdef := (DescribesNode.defines hpart hrel.node).1
    obtain ⟨d, hat, hsel⟩ := (hdef.selects_iff hpart hne r.fc).mpr hfinds
    exact ⟨(ld, ln), x, ha, hx, hrel, hld, hln, d, hat, fun hne ↦ absurd rfl hne, hsel⟩

/-- A member that names an attribute. -/
theorem refers_attribute (htypes : documentTypes doc = types)
    (hdevs : documentDevices doc = reconcileDevices types devs)
    (hpart : Templates types roots lo hi)
    (h : List.Forall₂ (NodeRel types devices) (modelNodes devices) (documentNodes devs))
    {r : MemberRef} {m : Element} (hm : Exports devices r m) (hne : r.path ≠ [])
    (hfree : ∀ name ∈ r.path, '.' ∉ name.toList) {a : LogicalDevice × LogicalNode}
    {x : Element × Element} (hx : x ∈ documentNodes devs) (hrel : NodeRel types devices a x)
    (hld : a.1.name = r.ld) (hln : a.2.name = r.ln) {objects attrs : List String}
    (hattrs : attrs ≠ [])
    (hwalk : walk types r.fc (typeOf types (x.2.attribute "lnType")) r.path =
      some (objects, attrs)) :
    Refers doc (divide m objects attrs) := by
  obtain ⟨a', ha', hrel'⟩ := forall₂_mem_right h hx
  have hnames := (hrel'.matches_iff hm).mp ((hrel.matches_iff hm).mpr ⟨hld, hln⟩)
  have hdef := (hrel.node.defines hpart).1
  obtain ⟨d, hat, hattr⟩ := hdef.attributeAt hpart hwalk hattrs
  obtain ⟨hosub, hasub⟩ := walk_subset hwalk
  rw [refers_iff htypes hdevs hpart h (hm.divide _ _)]
  have hdo : split '.' ((divide m objects attrs).attribute "doName") = objects := by
    rw [attribute_divide, if_neg (by decide), if_pos rfl,
      split_join (hdef.objects_ne_nil hne hwalk) fun name hname ↦ hfree name (hosub hname)]
  have hda : split '.' ((divide m objects attrs).attribute "daName") = attrs := by
    rw [attribute_divide, if_pos rfl, if_neg hattrs,
      split_join hattrs fun name hname ↦ hfree name (hasub hname)]
  refine ⟨a', x, ha', hx, hrel', hnames.1, hnames.2, d, ?_, ?_, hattr.selects⟩
  · rw [hdo]
    exact hat
  · rw [hda]
    exact fun _ ↦ hattr

/-! ## Data sets -/

theorem forall₂_comp_iff {α β γ : Type} {R : α → β → Prop} {S : β → γ → Prop} {xs : List α}
    {zs : List γ} :
    List.Forall₂ (fun a c ↦ ∃ b, R a b ∧ S b c) xs zs ↔
      ∃ ys, List.Forall₂ R xs ys ∧ List.Forall₂ S ys zs := by
  constructor
  · intro h
    induction h with
    | nil => exact ⟨[], .nil, .nil⟩
    | cons hac _ ih =>
        obtain ⟨b, hab, hbc⟩ := hac
        obtain ⟨ys, hxy, hyz⟩ := ih
        exact ⟨b :: ys, .cons hab hxy, .cons hbc hyz⟩
  · rintro ⟨ys, hxy, hyz⟩
    induction hxy generalizing zs with
    | nil =>
        cases hyz
        exact .nil
    | cons hab _ ih =>
        cases hyz with
        | cons hbc hrest => exact .cons ⟨_, hab, hbc⟩ (ih hrest)

theorem exportMembers_eq_ok {refs : List String} {ms : List Element} :
    exportMembers devices refs = .ok ms ↔
      List.Forall₂ (fun ref m ↦ exportMember devices ref = .ok m) refs ms := by
  induction refs generalizing ms with
  | nil =>
      rw [exportMembers, Except.ok.injEq, List.forall₂_nil_left_iff]
      exact eq_comm
  | cons ref refs ih =>
      rw [exportMembers, List.forall₂_cons_left_iff]
      cases hm : exportMember devices ref with
      | error err => simp
      | ok m =>
          dsimp only
          constructor
          · intro h
            cases hms : exportMembers devices refs with
            | error err =>
                rw [hms] at h
                cases h
            | ok ms' =>
                rw [hms] at h
                cases h
                exact ⟨m, ms', rfl, ih.mp hms, rfl⟩
          · rintro ⟨m', ms', hm', hms', rfl⟩
            cases hm'
            rw [ih.mpr hms']
            rfl

theorem resolveAll_eq_some {ms ms' : List Element} :
    resolveAll types devs ms = some ms' ↔
      List.Forall₂ (fun m m' ↦ resolve types devs m = some m') ms ms' := by
  induction ms generalizing ms' with
  | nil =>
      rw [resolveAll, Option.some.injEq, List.forall₂_nil_left_iff]
      exact eq_comm
  | cons m ms ih =>
      rw [resolveAll, List.forall₂_cons_left_iff]
      cases hm : resolve types devs m with
      | none => simp
      | some m₁ =>
          cases hms : resolveAll types devs ms with
          | none =>
              simp only [reduceCtorEq, Option.some.injEq, false_iff]
              rintro ⟨m', ms₁, -, hms', -⟩
              rw [← ih, hms] at hms'
              cases hms'
          | some ms₁ =>
              simp only [Option.some.injEq]
              constructor
              · rintro rfl
                exact ⟨m₁, ms₁, rfl, ih.mp hms, rfl⟩
              · rintro ⟨_, ms₂, rfl, hms', rfl⟩
                rw [← ih, hms] at hms'
                cases hms'
                rfl

theorem name_of_mem_exportedDataSets {dss : List DataSet} {x : Element}
    (h : x ∈ exportedDataSets devices dss) : x.name = "DataSet" := by
  obtain ⟨ds, -, he⟩ := List.mem_filterMap.mp h
  obtain ⟨ms, -, rfl⟩ := Option.map_eq_some_iff.mp he
  rfl

theorem DescribesNode.dataSets {ln : LogicalNode} {x : Element}
    (h : DescribesNode types devices ln x) :
    x.childrenNamed "DataSet" = exportedDataSets devices ln.dataSets := by
  obtain ⟨controls, hchildren, hcontrols⟩ := h.children
  rw [Element.childrenNamed, hchildren, List.filter_append, List.filter_eq_self.mpr,
    List.filter_eq_nil_iff.mpr, List.append_nil]
  · intro c hc
    have hname := hcontrols c hc
    simp only [List.mem_cons, List.not_mem_nil, or_false] at hname
    rcases hname with hname | hname | hname <;> simp [hname]
  · intro ds hds
    simp [name_of_mem_exportedDataSets hds]

/-- The data sets of a node of the document. -/
theorem childrenNamed_reconcileNode {ln : LogicalNode} {x : Element}
    (h : DescribesNode types devices ln x) :
    (reconcileNode types devs x).1.childrenNamed "DataSet" =
      (exportedDataSets devices ln.dataSets).filterMap (reconcileDataSet types devs) := by
  rw [reconcileNode, Element.childrenNamed]
  dsimp only
  rw [h.dataSets, List.filter_append, List.filter_eq_self.mpr, List.filter_eq_nil_iff.mpr,
    List.append_nil]
  · intro c hc
    have hname := (List.mem_filter.mp (List.mem_filter.mp hc).1).2
    simpa using hname
  · intro ds hds
    obtain ⟨ds₀, hmem, he⟩ := List.mem_filterMap.mp hds
    rw [reconcileDataSet] at he
    split_ifs at he
    obtain ⟨ms, -, rfl⟩ := Option.map_eq_some_iff.mp he
    simp [name_of_mem_exportedDataSets hmem]

/-- A data set of the model that stays in the document: it has members, and each of them can be
exported and resolves. -/
def Kept (devices : List LogicalDevice) (ds : DataSet) : Prop :=
  ds.members ≠ [] ∧ ∀ ref ∈ ds.members, ∃ m r, exportMember devices ref = .ok m ∧
    memberRef ref = some r ∧ ResolvesIn devices r

/-- The member of the document for a reference. -/
def ExportedMember (types devs : List Element) (devices : List LogicalDevice) (ref : String)
    (m' : Element) : Prop :=
  ∃ m, exportMember devices ref = .ok m ∧ resolve types devs m = some m'

/-- The data sets of a node of the document are those of the model that stay. -/
theorem mem_dataSets {ln : LogicalNode} {x : Element} (h : DescribesNode types devices ln x)
    {ds' : Element} :
    ds' ∈ (reconcileNode types devs x).1.childrenNamed "DataSet" ↔
      ∃ ds ∈ ln.dataSets, ds.members ≠ [] ∧ ∃ ms',
        List.Forall₂ (ExportedMember types devs devices) ds.members ms' ∧
        ds' = element "DataSet" [("name", ds.name)] ms' := by
  rw [childrenNamed_reconcileNode h, List.mem_filterMap]
  constructor
  · rintro ⟨ds₀, hds₀, he⟩
    obtain ⟨ds, hds, hds'⟩ := List.mem_filterMap.mp hds₀
    obtain ⟨ms, hms, rfl⟩ := Option.map_eq_some_iff.mp hds'
    rw [reconcileDataSet] at he
    split_ifs at he with hnil
    obtain ⟨ms', hms', rfl⟩ := Option.map_eq_some_iff.mp he
    have hms : exportMembers devices ds.members = .ok ms := by
      cases hex : exportMembers devices ds.members with
      | error err =>
          rw [hex] at hms
          cases hms
      | ok ms₁ =>
          rw [hex] at hms
          cases hms
          rfl
    have hexp := exportMembers_eq_ok.mp hms
    have hres := resolveAll_eq_some.mp hms'
    refine ⟨ds, hds, ?_, ms', ?_, rfl⟩
    · intro hmembers
      rw [hmembers, List.forall₂_nil_left_iff] at hexp
      exact hnil hexp
    · exact forall₂_comp_iff.mpr ⟨ms, hexp, hres⟩
  · rintro ⟨ds, hds, hne, ms', hall, rfl⟩
    obtain ⟨ms, hexp, hres⟩ := forall₂_comp_iff.mp hall
    refine ⟨element "DataSet" [("name", ds.name)] ms, ?_, ?_⟩
    · refine List.mem_filterMap.mpr ⟨ds, hds, ?_⟩
      rw [exportMembers_eq_ok.mpr hexp]
      rfl
    · have hnil : ms ≠ [] := by
        rintro rfl
        exact hne (List.forall₂_nil_right_iff.mp hexp)
      rw [reconcileDataSet, children_element, if_neg hnil, resolveAll_eq_some.mpr hres]
      rfl

theorem kept_iff (hpart : Templates types roots lo hi)
    (h : List.Forall₂ (NodeRel types devices) (modelNodes devices) (documentNodes devs))
    {ds : DataSet} :
    Kept devices ds ↔ ds.members ≠ [] ∧ ∃ ms',
      List.Forall₂ (ExportedMember types devs devices) ds.members ms' := by
  rw [Kept]
  refine and_congr_right fun _ ↦ ?_
  have hone : ∀ ref, (∃ m r, exportMember devices ref = .ok m ∧ memberRef ref = some r ∧
      ResolvesIn devices r) ↔ ∃ m', ExportedMember types devs devices ref m' := by
    intro ref
    constructor
    · rintro ⟨m, r, hm, hr, hres⟩
      obtain ⟨r', hr', hexp, hpath⟩ := exportMember_exports hm
      rw [hr] at hr'
      cases hr'
      rcases resolve_cases hpart hexp hpath (memberRef_path hr).1 h with
        ⟨-, hnot⟩ | ⟨hsome, -⟩ | ⟨_, _, _, _, hsome, -⟩
      · exact absurd hres hnot
      · exact ⟨_, m, hm, hsome⟩
      · exact ⟨_, m, hm, hsome⟩
    · rintro ⟨m', m, hm, hsome⟩
      obtain ⟨r, hr, hexp, hpath⟩ := exportMember_exports hm
      rcases resolve_cases hpart hexp hpath (memberRef_path hr).1 h with
        ⟨hnone, -⟩ | ⟨-, hres, -⟩ | ⟨_, _, _, _, -, hres, -⟩
      · rw [hnone] at hsome
        cases hsome
      · exact ⟨m, r, hm, hr, hres⟩
      · exact ⟨m, r, hm, hr, hres⟩
  constructor
  · generalize ds.members = refs
    intro hall
    induction refs with
    | nil => exact ⟨[], .nil⟩
    | cons ref refs ih =>
        obtain ⟨m', hm'⟩ := (hone ref).mp (hall ref List.mem_cons_self)
        obtain ⟨ms', hms'⟩ := ih fun ref hmem ↦ hall ref (List.mem_cons_of_mem _ hmem)
        exact ⟨m' :: ms', .cons hm' hms'⟩
  · rintro ⟨ms', hms'⟩ ref href
    obtain ⟨m', -, hm'⟩ := forall₂_mem_right hms'.flip href
    exact (hone ref).mpr ⟨m', hm'⟩

end Document

/-- **Exactly when no exported member dangles.**  A member of a data set that stays in the document
and that names a whole object has to have a constraint that some attribute of the object carries. -/
theorem members_refer_iff {model : Model} {doc : Element} {ws : List String}
    (h : exportICD model = (.ok doc, ws)) :
    MembersRefer doc ↔ ∀ ld ∈ model.devices, ∀ ln ∈ ld.nodes, ∀ ds ∈ ln.dataSets,
      Kept model.devices ds → ∀ ref ∈ ds.members, ∀ r, memberRef ref = some r →
        NamesObject model.devices r → Selected model.devices r := by
  obtain ⟨types, devs, serial, htypes, hdevs, hpart, hdesc⟩ := exportICD_run h
  have hrel := nodeRel_documentNodes (List.Subset.refl _) hdesc
  constructor
  · intro hrefer ld hld ln hln ds hds hkept ref href r hr hobj
    obtain ⟨hne, ms', hms'⟩ := (kept_iff hpart hrel).mp hkept
    have ha : (ld, ln) ∈ modelNodes model.devices := mem_modelNodes.mpr ⟨hld, hln⟩
    obtain ⟨⟨x, y⟩, hx, hxy⟩ := forall₂_mem_right hrel.flip ha
    obtain ⟨m', hm', m, hm, hres⟩ := forall₂_mem_right hms'.flip href
    obtain ⟨r', hr', hexp, hpath⟩ := exportMember_exports hm
    rw [hr] at hr'
    cases hr'
    obtain ⟨hpne, hfree⟩ := memberRef_path hr
    rcases resolve_cases hpart hexp hpath hpne hrel with
      ⟨hnone, -⟩ | ⟨hsome, -⟩ | ⟨_, _, _, _, -, -, hnot, -⟩
    · rw [hnone] at hres
      cases hres
    · rw [hsome] at hres
      cases hres
      rw [← refers_object_iff htypes hdevs hpart hrel hexp hpne hfree]
      obtain ⟨x', hx', hxy'⟩ := List.mem_flatMap.mp hx
      obtain ⟨y', hy', he⟩ := List.mem_map.mp hxy'
      cases he
      refine hrefer { x with
        children := x.children.map fun ln ↦ (reconcileNode types devs ln).1 } ?_ _
        (List.mem_map.mpr ⟨y, hy', rfl⟩) _
        ((mem_dataSets hxy.node).mpr ⟨ds, hds, hne, ms', hms', rfl⟩) _
        (List.mem_filter.mpr ⟨hm', ?_⟩)
      · rw [hdevs]
        exact List.mem_map.mpr ⟨x, hx', rfl⟩
      · simp [(hexp.divide r.path []).name]
    · exact absurd hobj hnot
  · intro hcond x hx y hy ds' hds' m' hm'
    rw [hdevs] at hx
    obtain ⟨x₀, hx₀, rfl⟩ := List.mem_map.mp hx
    obtain ⟨y₀, hy₀, rfl⟩ := List.mem_map.mp hy
    have hnode : (x₀, y₀) ∈ documentNodes devs :=
      List.mem_flatMap.mpr ⟨x₀, hx₀, List.mem_map.mpr ⟨y₀, hy₀, rfl⟩⟩
    obtain ⟨⟨ld, ln⟩, ha, hxy⟩ := forall₂_mem_right hrel hnode
    obtain ⟨hld, hln⟩ := mem_modelNodes.mp ha
    obtain ⟨ds, hds, hne, ms', hms', rfl⟩ := (mem_dataSets hxy.node).mp hds'
    obtain ⟨ref, href, m, hm, hres⟩ := forall₂_mem_right hms' (List.mem_filter.mp hm').1
    obtain ⟨r, hr, hexp, hpath⟩ := exportMember_exports hm
    obtain ⟨hpne, hfree⟩ := memberRef_path hr
    rcases resolve_cases hpart hexp hpath hpne hrel with
      ⟨hnone, -⟩ | ⟨hsome, -, hobj⟩ |
      ⟨a, x, objects, attrs, hsome, -, -, hx, hax, hnld, hnln, hattrs, hwalk⟩
    · rw [hnone] at hres
      cases hres
    · rw [hsome] at hres
      cases hres
      rw [refers_object_iff htypes hdevs hpart hrel hexp hpne hfree]
      have hkept := (kept_iff hpart hrel).mpr ⟨hne, ms', hms'⟩
      exact hcond ld hld ln hln ds hds hkept ref href r hr hobj
    · rw [hsome] at hres
      cases hres
      exact refers_attribute htypes hdevs hpart hrel hexp hpne hfree hx hax hnld hnln hattrs hwalk

theorem ObjectAt.mem {types : List Element} {d d' : Element} {path : List String}
    (h : ObjectAt types d path d') (hd : d ∈ types) : d' ∈ types := by
  induction path generalizing d with
  | nil =>
      obtain rfl : d' = d := h
      exact hd
  | cons name names ih =>
      obtain ⟨c, -, -, -, d₁, hd₁, -, hat⟩ := h
      exact ih hat hd₁

theorem Selects.exists_fc {types : List Element} {fc : String} {d : Element} (hd : d ∈ types)
    (h : Selects types fc d) : ∃ d' ∈ types, ∃ c ∈ d'.children, c.attribute "fc" = fc := by
  induction h with
  | @da d c hc _ hfc => exact ⟨d, hd, c, hc, hfc⟩
  | sdo _ _ hd' _ _ ih => exact ih hd'

/-- A status object, and a data set whose member names it as a measured value. -/
def mixedModel : Model :=
  { devices := [{ name := "IED1LD0", nodes := [
      { name := "LLN0"
        groups := [{ name := "ST", kind := "STRUCTURE", children := [
          { name := "Loc", kind := "STRUCTURE", children := [
            { name := "stVal", kind := "BOOLEAN" },
            { name := "q", kind := "BIT_STRING", size := -13 }] }] }]
        dataSets := [{ name := "ds1", members := ["IED1LD0/LLN0.Loc[MX]"] }] }] }] }

/-- The member is exported, though its constraint selects nothing. -/
theorem members_refer_mixed :
    ∃ doc ws, exportICD mixedModel = (.ok doc, ws) ∧ ¬MembersRefer doc := by
  have hok : (exportICD mixedModel).1.toOption.any (fun doc ↦
      ((documentDevices doc).any fun ld ↦ ld.children.any fun ln ↦
        (ln.childrenNamed "DataSet").any fun ds ↦ (ds.childrenNamed "FCDA").any
          (·.attribute "fc" == "MX")) &&
      (documentTypes doc).all fun d ↦ d.children.all (·.attribute "fc" != "MX")) = true := by
    decide +kernel
  rcases hrun : exportICD mixedModel with ⟨err | doc, ws⟩
  · rw [hrun] at hok
    cases hok
  · rw [hrun] at hok
    simp only [Except.toOption, Option.any_some, Bool.and_eq_true, List.any_eq_true,
      List.all_eq_true, beq_iff_eq, bne_iff_ne] at hok
    obtain ⟨⟨ld, hld, ln, hln, ds, hds, m, hm, hfc⟩, hnone⟩ := hok
    refine ⟨doc, ws, rfl, ?_⟩
    intro hrefer
    obtain ⟨_, _, _, _, -, -, -, -, lt, hlt, -, d, hat, -, hsel⟩ := hrefer ld hld ln hln ds hds m hm
    have hd : d ∈ documentTypes doc := hat.mem hlt
    obtain ⟨d', hd', c, hc, he⟩ := hsel.exists_fc hd
    exact hnone d' hd' c hc (he.trans hfc)

theorem members_refer_iff_mixed :
    ∃ doc ws, exportICD mixedModel = (.ok doc, ws) ∧
      (MembersRefer doc ↔ ∀ ld ∈ mixedModel.devices, ∀ ln ∈ ld.nodes, ∀ ds ∈ ln.dataSets,
        Kept mixedModel.devices ds → ∀ ref ∈ ds.members, ∀ r, memberRef ref = some r →
          NamesObject mixedModel.devices r → Selected mixedModel.devices r) := by
  have hok : (exportICD mixedModel).1.toOption.isSome = true := by decide +kernel
  rcases hrun : exportICD mixedModel with ⟨err | doc, ws⟩
  · rw [hrun] at hok
    cases hok
  · exact ⟨doc, ws, rfl, members_refer_iff hrun⟩

end ProcessBus.Scl
