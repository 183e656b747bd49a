import ProcessBus.Scl.Conversion

/-!
# The exported document

A run of `ExportICD` in terms of the model: the logical devices and nodes of the document describe
those of the model, over one table of definitions.  From this the type templates are closed and
minimal: no identifier stands twice, every reference leads to one definition of its kind, and every
definition is reached from the type of a logical node.
-/

namespace ProcessBus.Scl

open Definitions

/-! ## Steps that only warn -/

/-- A step with this result that changes nothing but the warnings. -/
def Quiet {α : Type} (m : Build α) (a : α) : Prop :=
  ∀ b : Builder, ∃ ws, m b = (.ok a, { b with warnings := ws })

section Quiet

variable {α β : Type}

theorem Quiet.pure (a : α) : Quiet (pure a : Build α) a := fun b ↦ ⟨b.warnings, rfl⟩

theorem Quiet.bind {m : Build α} {f : α → Build β} {a : α} {c : β} (hm : Quiet m a)
    (hf : Quiet (f a) c) : Quiet (m >>= f) c := by
  intro b
  obtain ⟨ws, hb⟩ := hm b
  rw [bind_ok hb]
  obtain ⟨ws', hb'⟩ := hf { b with warnings := ws }
  exact ⟨ws', hb'⟩

theorem warn_quiet (w : String) : Quiet (warn w) () := fun _ ↦ ⟨_, rfl⟩

theorem warnAll_quiet (ws : List String) : Quiet (warnAll ws) () := by
  induction ws with
  | nil => exact .pure ()
  | cons w ws ih => exact (warn_quiet w).bind ih

end Quiet

/-- The data sets whose members can be exported. -/
def exportedDataSets (devices : List LogicalDevice) (dss : List DataSet) : List Element :=
  dss.filterMap fun ds ↦ (exportMembers devices ds.members).toOption.map fun members ↦
    element "DataSet" [("name", ds.name)] members

theorem exportDataSets_quiet (devices : List LogicalDevice) (dss : List DataSet) :
    Quiet (exportDataSets devices dss) (exportedDataSets devices dss) := by
  induction dss with
  | nil => exact .pure _
  | cons ds dss ih =>
      rw [exportDataSets]
      cases h : exportMembers devices ds.members with
      | error err =>
          have he : exportedDataSets devices (ds :: dss) = exportedDataSets devices dss := by
            simp [exportedDataSets, h, Except.toOption]
          rw [he]
          exact (warn_quiet _).bind ih
      | ok members =>
          have he : exportedDataSets devices (ds :: dss) =
              element "DataSet" [("name", ds.name)] members :: exportedDataSets devices dss := by
            simp [exportedDataSets, h, Except.toOption]
          rw [he]
          exact ih.bind (.pure _)

theorem exportGoose_quiet (inst ld ln : String) (cbs : List GooseControl) :
    ∃ xs, Quiet (exportGoose inst ld ln cbs) xs ∧ ∀ x ∈ xs, x.1.name = "GSEControl" := by
  induction cbs with
  | nil => exact ⟨[], .pure _, by simp⟩
  | cons cb cbs ih =>
      obtain ⟨xs, hxs, hname⟩ := ih
      rw [exportGoose]
      split_ifs
      · exact ⟨xs, (warn_quiet _).bind hxs, hname⟩
      · exact ⟨xs, (warn_quiet _).bind hxs, hname⟩
      · refine ⟨_, hxs.bind (.pure _), ?_⟩
        rintro x (_ | ⟨_, hx⟩)
        · rfl
        · exact hname x hx

theorem exportReports_quiet (ld ln : String) (rs : List ReportControl) :
    ∃ xs, Quiet (exportReports ld ln rs) xs ∧ ∀ x ∈ xs, x.name = "ReportControl" := by
  induction rs with
  | nil => exact ⟨[], .pure _, by simp⟩
  | cons r rs ih =>
      obtain ⟨xs, hxs, hname⟩ := ih
      rw [exportReports]
      by_cases hext : replace '$' '.' r.dataSet ≠ "" ∧
          (!startsWith (ld ++ "/" ++ ln ++ ".") (replace '$' '.' r.dataSet)) = true
      · rw [if_pos hext]
        exact ⟨xs, (warn_quiet _).bind hxs, hname⟩
      · rw [if_neg hext]
        refine ⟨_, hxs.bind (.pure _), ?_⟩
        rintro x (_ | ⟨_, hx⟩)
        · rfl
        · exact hname x hx

theorem exportSettings_quiet (ld : String) (ln : LogicalNode) :
    ∃ xs, Quiet (exportSettings ld ln) xs ∧ ∀ x ∈ xs, x.name = "SettingControl" := by
  unfold exportSettings
  cases ln.settings with
  | none => exact ⟨[], .pure _, by simp⟩
  | some s =>
      dsimp only
      split_ifs
      · exact ⟨[], (warn_quiet _).bind (.pure _), by simp⟩
      · exact ⟨_, .pure _, by simp⟩

/-! ## Nodes and devices -/

theorem forall₂_mem_right {α β : Type} {R : α → β → Prop} {xs : List α} {ys : List β}
    (h : List.Forall₂ R xs ys) {y : β} (hy : y ∈ ys) : ∃ x ∈ xs, R x y := by
  induction h with
  | nil => cases hy
  | cons hr _ ih =>
      rcases List.mem_cons.mp hy with rfl | hy
      · exact ⟨_, List.mem_cons_self, hr⟩
      · obtain ⟨x, hx, hxy⟩ := ih hy
        exact ⟨x, List.mem_cons_of_mem _ hx, hxy⟩

/-- A step has appended these definitions, which are a part of the templates. -/
structure Grows (b b' : Builder) (ls os as : List Element) (roots : List (String × String)) :
    Prop where
  lns : b'.lns = b.lns ++ ls
  dos : b'.dos = b.dos ++ os
  das : b'.das = b.das ++ as
  serial : b.serial ≤ b'.serial
  part : Templates (ls ++ (os ++ as)) roots b.serial b'.serial

theorem Grows.refl (b : Builder) : Grows b b [] [] [] [] where
  lns := by simp
  dos := by simp
  das := by simp
  serial := le_rfl
  part := .nil _

/-- The definitions of two steps, by their lists. -/
theorem grows_perm (ls os as ls' os' as' : List Element) :
    ((ls ++ (os ++ as)) ++ (ls' ++ (os' ++ as'))).Perm
      ((ls ++ ls') ++ ((os ++ os') ++ (as ++ as'))) :=
  (perm_append_append_comm ls (os ++ as) ls' (os' ++ as')).trans
    ((perm_append_append_comm os as os' as').append_left _)

theorem Grows.trans {b b' b'' : Builder} {ls os as ls' os' as' : List Element}
    {roots roots' : List (String × String)} (h : Grows b b' ls os as roots)
    (h' : Grows b' b'' ls' os' as' roots') :
    Grows b b'' (ls ++ ls') (os ++ os') (as ++ as') (roots ++ roots') where
  lns := by rw [h'.lns, h.lns, List.append_assoc]
  dos := by rw [h'.dos, h.dos, List.append_assoc]
  das := by rw [h'.das, h.das, List.append_assoc]
  serial := h.serial.trans h'.serial
  part := by
    have happend := h.part.append h'.part ids_disjoint
    rw [ids_union h.serial h'.serial] at happend
    exact happend.perm (grows_perm ls os as ls' os' as')

/-- An element describes a logical node, with its data sets before they are reconciled. -/
structure DescribesNode (types : List Element) (devices : List LogicalDevice) (ln : LogicalNode)
    (x : Element) : Prop where
  exists_type : ∃ d ∈ types, d.name = "LNodeType" ∧ x.attribute "lnType" = d.attribute "id" ∧
    DescribesObjects types (gather (dataGroups ln)) d.children
  name : x.name = if ln.name = "LLN0" then "LN0" else "LN"
  split : splitLN ln.name =
    .ok (x.attribute "prefix", x.attribute "lnClass", x.attribute "inst")
  children : ∃ controls, x.children = exportedDataSets devices ln.dataSets ++ controls ∧
    ∀ c ∈ controls, c.name ∈ ["ReportControl", "GSEControl", "SettingControl"]

theorem DescribesNode.mono {types types' : List Element} (h : types ⊆ types')
    {devices : List LogicalDevice} {ln : LogicalNode} {x : Element}
    (hx : DescribesNode types devices ln x) : DescribesNode types' devices ln x :=
  { hx with
    exists_type := hx.exists_type.imp fun _ hd ↦ ⟨h hd.1, hd.2.1, hd.2.2.1, hd.2.2.2.mono h⟩ }

/-- A logical node in steps: its objects are converted, its type is appended, and the rest warns. -/
theorem exportNode_run {devices : List LogicalDevice} {inst ld : String} {ln : LogicalNode}
    {pre cls lnInst : String} (hsplit : splitLN ln.name = .ok (pre, cls, lnInst)) (b : Builder) :
    ∃ ws₀ objects b₁ controls gses ws,
      exportObjects (ld ++ "/" ++ ln.name) (gather (dataGroups ln))
        { b with serial := b.serial + 1, warnings := ws₀ } = (.ok objects, b₁) ∧
      (∀ c ∈ controls, c.name ∈ ["ReportControl", "GSEControl", "SettingControl"]) ∧
      exportNode devices inst ld ln b =
        (.ok (element (if ln.name = "LLN0" then "LN0" else "LN")
          ([("lnClass", cls), ("inst", lnInst), ("lnType", typeID (b.serial + 1))] ++
            (if pre ≠ "" then [("prefix", pre)] else []))
          (exportedDataSets devices ln.dataSets ++ controls), gses),
        { b₁ with
          lns := b₁.lns ++
            [element "LNodeType" [("id", typeID (b.serial + 1)), ("lnClass", cls)] objects]
          warnings := ws }) := by
  obtain ⟨ws₀, hwarn⟩ := warnAll_quiet (groupWarnings ld ln.name ln.groups)
    { b with serial := b.serial + 1 }
  obtain ⟨objects, hobjects⟩ := exportObjects_total (ld ++ "/" ++ ln.name) (gather (dataGroups ln))
    { b with serial := b.serial + 1, warnings := ws₀ }
  obtain ⟨goose, hgoose, hgname⟩ := exportGoose_quiet inst ld ln.name ln.goose
  obtain ⟨reports, hreports, hrname⟩ := exportReports_quiet ld ln.name ln.reports
  obtain ⟨settings, hsettings, hsname⟩ := exportSettings_quiet ld ln
  set b₁ := (exportObjects (ld ++ "/" ++ ln.name) (gather (dataGroups ln))
    { b with serial := b.serial + 1, warnings := ws₀ }).2 with hb₁
  have hrun : exportObjects (ld ++ "/" ++ ln.name) (gather (dataGroups ln))
      { b with serial := b.serial + 1, warnings := ws₀ } = (.ok objects, b₁) :=
    Prod.ext hobjects rfl
  -- What follows the type of the node only warns.
  set b₂ : Builder := { b₁ with lns := b₁.lns ++
    [element "LNodeType" [("id", typeID (b.serial + 1)), ("lnClass", cls)] objects] } with hb₂
  obtain ⟨ws₁, h₁⟩ := exportDataSets_quiet devices ln.dataSets b₂
  obtain ⟨ws₂, h₂⟩ := hgoose { b₂ with warnings := ws₁ }
  obtain ⟨ws₃, h₃⟩ := hreports { b₂ with warnings := ws₂ }
  obtain ⟨ws₄, h₄⟩ := warnAll_quiet (controlWarnings ld ln) { b₂ with warnings := ws₃ }
  obtain ⟨ws, h₅⟩ := hsettings { b₂ with warnings := ws₄ }
  refine ⟨ws₀, objects, b₁, reports ++ goose.map (·.1) ++ settings, goose.map (·.2), ws, hrun,
    ?_, ?_⟩
  · intro c hc
    rcases List.mem_append.mp hc with hc | hc
    · rcases List.mem_append.mp hc with hc | hc
      · simp [hrname c hc]
      · obtain ⟨x, hx, rfl⟩ := List.mem_map.mp hc
        simp [hgname x hx]
    · simp [hsname c hc]
  · have hnext : nextID b = (.ok (typeID (b.serial + 1)), { b with serial := b.serial + 1 }) := rfl
    have hadd : addLN (element "LNodeType" [("id", typeID (b.serial + 1)), ("lnClass", cls)]
        objects) b₁ = (.ok (), b₂) := rfl
    unfold exportNode
    rw [hsplit]
    dsimp only
    rw [bind_ok hnext, bind_ok hwarn, bind_ok hrun, bind_ok hadd, bind_ok h₁, bind_ok h₂,
      bind_ok h₃, bind_ok h₄, bind_ok h₅]
    simp only [List.append_assoc]
    rfl

theorem exportNode_grows {devices : List LogicalDevice} {inst ld : String} {ln : LogicalNode}
    {b b' : Builder} {x : Element} {gses : List Element}
    (h : exportNode devices inst ld ln b = (.ok (x, gses), b')) :
    ∃ ls os as, Grows b b' ls os as [nodeReference x] ∧
      DescribesNode (ls ++ (os ++ as)) devices ln x := by
  cases hsplit : splitLN ln.name with
  | error err =>
      unfold exportNode at h
      rw [hsplit] at h
      cases h
  | ok s =>
      obtain ⟨pre, cls, lnInst⟩ := s
      obtain ⟨ws₀, objects, b₁, controls, gses', ws, hrun, hcontrols, hnode⟩ :=
        exportNode_run hsplit b
      rw [h] at hnode
      cases hnode
      obtain ⟨os, as, hext, hok⟩ := exportObjects_emits (ld ++ "/" ++ ln.name)
        (gather (dataGroups ln)) { b with serial := b.serial + 1, warnings := ws₀ }
      rw [hrun] at hext hok
      obtain ⟨hpart, hdesc⟩ := hok objects rfl
      set d := element "LNodeType" [("id", typeID (b.serial + 1)), ("lnClass", cls)] objects with hd
      have hlt : b.serial + 1 ≤ b₁.serial := hext.serial
      have hid : identity d = ("LNodeType", typeID (b.serial + 1)) := rfl
      have hfresh : (identity d).2 ∉ ids (b.serial + 1) b₁.serial := by
        rw [hid]
        exact not_mem_ids
      have hdefine := Part.define (d := d) hpart hfresh
      rw [hid, insert_ids hlt] at hdefine
      refine ⟨[d], os, as, ⟨?_, hext.dos, hext.das, (Nat.le_succ _).trans hlt, ?_⟩, ?_⟩
      · rw [hext.lns]
      · have href : nodeReference (element (if ln.name = "LLN0" then "LN0" else "LN")
            ([("lnClass", cls), ("inst", lnInst), ("lnType", typeID (b.serial + 1))] ++
              (if pre ≠ "" then [("prefix", pre)] else []))
            (exportedDataSets devices ln.dataSets ++ controls)) =
            ("LNodeType", typeID (b.serial + 1)) := by
          refine Prod.ext ?_ rfl
          rw [nodeReference]
          split_ifs <;> rfl
        rw [href]
        exact hdefine.perm List.perm_append_comm
      · refine ⟨⟨d, by simp, rfl, rfl, ?_⟩, rfl, ?_, ⟨controls, rfl, hcontrols⟩⟩
        · exact hdesc.mono (List.subset_append_right _ _)
        · rw [hsplit]
          by_cases hpre : pre = ""
          · simp [hpre, element, Element.attribute, List.lookup]
          · simp [hpre, element, Element.attribute, List.lookup]

theorem exportNodes_grows {devices : List LogicalDevice} {inst ld : String}
    {lns : List LogicalNode} {b b' : Builder} {xs gses : List Element}
    (h : exportNodes devices inst ld lns b = (.ok (xs, gses), b')) :
    ∃ ls os as, Grows b b' ls os as (xs.map nodeReference) ∧
      List.Forall₂ (DescribesNode (ls ++ (os ++ as)) devices) lns xs := by
  induction lns generalizing b b' xs gses with
  | nil =>
      cases h
      exact ⟨[], [], [], .refl b, .nil⟩
  | cons ln lns ih =>
      rw [exportNodes] at h
      rcases hnode : exportNode devices inst ld ln b with ⟨err | ⟨x, g⟩, b₁⟩
      · rw [bind_error hnode] at h
        cases h
      rw [bind_ok hnode] at h
      dsimp only at h
      rcases hnodes : exportNodes devices inst ld lns b₁ with ⟨err | ⟨ys, gs⟩, b₂⟩
      · rw [bind_error hnodes] at h
        cases h
      rw [bind_ok hnodes] at h
      cases h
      obtain ⟨ls, os, as, hgrow, hx⟩ := exportNode_grows hnode
      obtain ⟨ls', os', as', hgrow', hxs⟩ := ih hnodes
      have hperm := grows_perm ls os as ls' os' as'
      refine ⟨_, _, _, hgrow.trans hgrow', .cons ?_ (hxs.imp fun _ _ hy ↦ ?_)⟩
      · exact hx.mono fun y hy ↦ hperm.subset (List.mem_append_left _ hy)
      · exact hy.mono fun z hz ↦ hperm.subset (List.mem_append_right _ hz)

/-- The nodes of a device in the order of the document. -/
def orderedNodes (ld : LogicalDevice) : List LogicalNode :=
  ld.nodes.filter (·.name == "LLN0") ++ ld.nodes.filter (·.name != "LLN0")

/-- An element describes a logical device. -/
structure DescribesDevice (types : List Element) (devices : List LogicalDevice) (ld : LogicalDevice)
    (x : Element) : Prop where
  inst : x.attribute "inst" = (ldInst devices ld.name).getD ""
  ldName : x.attribute "ldName" = ld.name
  name : x.name = "LDevice"
  nodes : List.Forall₂ (DescribesNode types devices) (orderedNodes ld) x.children

theorem DescribesDevice.mono {types types' : List Element} (h : types ⊆ types')
    {devices : List LogicalDevice} {ld : LogicalDevice} {x : Element}
    (hx : DescribesDevice types devices ld x) : DescribesDevice types' devices ld x :=
  { hx with nodes := hx.nodes.imp fun _ _ hy ↦ hy.mono h }

/-- The logical nodes below logical devices. -/
def deviceNodes (devices : List Element) : List Element := devices.flatMap (·.children)

theorem exportDevice_grows {devices : List LogicalDevice} {ld : LogicalDevice} {b b' : Builder}
    {x : Element} {gses : List Element} (h : exportDevice devices ld b = (.ok (x, gses), b')) :
    ∃ ls os as, Grows b b' ls os as (x.children.map nodeReference) ∧
      DescribesDevice (ls ++ (os ++ as)) devices ld x := by
  unfold exportDevice at h
  dsimp only at h
  rcases hnodes : exportNodes devices ((ldInst devices ld.name).getD "") ld.name
    (ld.nodes.filter (·.name == "LLN0") ++ ld.nodes.filter (·.name != "LLN0")) b with
    ⟨err | ⟨xs, gs⟩, b₁⟩
  · rw [bind_error hnodes] at h
    cases h
  rw [bind_ok hnodes] at h
  dsimp only at h
  by_cases hlln0 : (!ld.nodes.any (·.name == "LLN0")) = true
  · rw [if_pos hlln0] at h
    cases h
  rw [if_neg hlln0] at h
  cases h
  obtain ⟨ls, os, as, hgrow, hxs⟩ := exportNodes_grows hnodes
  exact ⟨ls, os, as, hgrow, rfl, rfl, rfl, hxs⟩

theorem exportDevices_grows {devices lds : List LogicalDevice} {b b' : Builder}
    {xs gses : List Element} (h : exportDevices devices lds b = (.ok (xs, gses), b')) :
    ∃ ls os as, Grows b b' ls os as ((deviceNodes xs).map nodeReference) ∧
      List.Forall₂ (DescribesDevice (ls ++ (os ++ as)) devices) lds xs := by
  induction lds generalizing b b' xs gses with
  | nil =>
      cases h
      exact ⟨[], [], [], .refl b, .nil⟩
  | cons ld lds ih =>
      rw [exportDevices] at h
      rcases hdev : exportDevice devices ld b with ⟨err | ⟨x, g⟩, b₁⟩
      · rw [bind_error hdev] at h
        cases h
      rw [bind_ok hdev] at h
      dsimp only at h
      rcases hdevs : exportDevices devices lds b₁ with ⟨err | ⟨ys, gs⟩, b₂⟩
      · rw [bind_error hdevs] at h
        cases h
      rw [bind_ok hdevs] at h
      cases h
      obtain ⟨ls, os, as, hgrow, hx⟩ := exportDevice_grows hdev
      obtain ⟨ls', os', as', hgrow', hxs⟩ := ih hdevs
      have hperm := grows_perm ls os as ls' os' as'
      refine ⟨ls ++ ls', os ++ os', as ++ as', ?_, .cons ?_ (hxs.imp fun _ _ hy ↦ ?_)⟩
      · rw [deviceNodes, List.flatMap_cons, List.map_append]
        exact hgrow.trans hgrow'
      · exact hx.mono fun y hy ↦ hperm.subset (List.mem_append_left _ hy)
      · exact hy.mono fun z hz ↦ hperm.subset (List.mem_append_right _ hz)

/-! ## The document -/

/-- The definitions of a document. -/
def documentTypes (doc : Element) : List Element := (doc.childNamed "DataTypeTemplates").children

/-- The logical devices of a document. -/
def documentDevices (doc : Element) : List Element :=
  (doc.childrenNamed "IED").flatMap fun ied ↦ (ied.childrenNamed "AccessPoint").flatMap fun ap ↦
    (ap.childrenNamed "Server").flatMap (·.childrenNamed "LDevice")

theorem documentTypes_exportDocument (ip : String) (devices gses types : List Element) :
    documentTypes (exportDocument ip devices gses types) = types := by
  simp [documentTypes, exportDocument, Element.childNamed, List.find?]

theorem documentDevices_exportDocument (ip : String) {devices : List Element}
    (gses types : List Element) (h : ∀ d ∈ devices, d.name = "LDevice") :
    documentDevices (exportDocument ip devices gses types) = devices := by
  have hfilter : devices.filter (·.name == "LDevice") = devices :=
    List.filter_eq_self.mpr fun d hd ↦ by simp [h d hd]
  simp [documentDevices, exportDocument, Element.childrenNamed, hfilter]

/-- A run of the export: the devices before they are reconciled describe the model. -/
theorem exportICD_run {model : Model} {doc : Element} {ws : List String}
    (h : exportICD model = (.ok doc, ws)) :
    ∃ types devices serial, documentTypes doc = types ∧
      documentDevices doc = reconcileDevices types devices ∧
      Templates types ((deviceNodes devices).map nodeReference) 0 serial ∧
      List.Forall₂ (DescribesDevice types model.devices) model.devices devices := by
  unfold exportICD at h
  by_cases hnil : model.devices = []
  · rw [if_pos hnil] at h
    cases h
  rw [if_neg hnil] at h
  rcases hrun : exportDevices model.devices model.devices
      { warnings := model.warnings ++ [exportNotice] } with ⟨err | ⟨devices, gses⟩, b⟩
  · rw [hrun] at h
    cases h
  rw [hrun] at h
  cases h
  obtain ⟨ls, os, as, hgrow, hdev⟩ := exportDevices_grows hrun
  have htypes : b.lns ++ b.dos ++ b.das = ls ++ (os ++ as) := by
    rw [hgrow.lns, hgrow.dos, hgrow.das]
    simp
  refine ⟨_, devices, b.serial, documentTypes_exportDocument _ _ _ _, ?_, ?_, ?_⟩
  · refine documentDevices_exportDocument _ _ _ ?_
    intro d hd
    obtain ⟨x, hx, rfl⟩ := List.mem_map.mp hd
    obtain ⟨ld, -, hld⟩ := forall₂_mem_right hdev hx
    exact hld.name
  · rw [htypes]
    exact hgrow.part
  · rw [htypes]
    exact hdev

/-- A logical node of the document is described by its element. -/
theorem exists_describesNode {types : List Element} {devices lds : List LogicalDevice}
    {xs : List Element} (h : List.Forall₂ (DescribesDevice types devices) lds xs) {x : Element}
    (hx : x ∈ deviceNodes xs) : ∃ ln, DescribesNode types devices ln x := by
  obtain ⟨dev, hdev, hx⟩ := List.mem_flatMap.mp hx
  obtain ⟨ld, -, hld⟩ := forall₂_mem_right h hdev
  obtain ⟨ln, -, hln⟩ := forall₂_mem_right hld.nodes hx
  exact ⟨ln, hln⟩

theorem mem_deviceNodes_reconcileDevices {types devices : List Element} {ln : Element}
    (h : ln ∈ deviceNodes (reconcileDevices types devices)) :
    ∃ ln' ∈ deviceNodes devices, nodeReference ln = nodeReference ln' := by
  obtain ⟨ld, hld, hln⟩ := List.mem_flatMap.mp h
  obtain ⟨ld', hld', rfl⟩ := List.mem_map.mp hld
  obtain ⟨ln', hln', rfl⟩ := List.mem_map.mp hln
  exact ⟨ln', List.mem_flatMap.mpr ⟨ld', hld', hln'⟩, rfl⟩

/-- **The exported type templates are closed and minimal.** -/
theorem exported_templates_closed {model : Model} {doc : Element} {ws : List String}
    (h : exportICD model = (.ok doc, ws)) :
    ((documentTypes doc).map (·.attribute "id")).Nodup ∧
    (∀ d ∈ documentTypes doc, ∀ r ∈ references d, ∃! d', d' ∈ documentTypes doc ∧ identity d' = r) ∧
    (∀ ln ∈ deviceNodes (documentDevices doc), ∃! d, d ∈ documentTypes doc ∧
      identity d = ("LNodeType", ln.attribute "lnType")) ∧
    ∀ d ∈ documentTypes doc, d.name = "DOType" ∨ d.name = "DAType" →
      Reach identity references (documentTypes doc)
        (((documentTypes doc).filter (·.name == "LNodeType")).map identity) d := by
  obtain ⟨types, devices, serial, htypes, hdevices, hpart, hdesc⟩ := exportICD_run h
  rw [htypes, hdevices]
  have hresolve : ∀ r ∈ (deviceNodes devices).map nodeReference,
      ∃! d, d ∈ types ∧ identity d = r := by
    intro r hr
    obtain ⟨d, hd, he⟩ := hpart.rooted r hr
    refine ⟨d, ⟨hd, he⟩, ?_⟩
    rintro d' ⟨hd', he'⟩
    exact hpart.unique hd' hd (by rw [he, he'])
  have hkind : ∀ ln ∈ deviceNodes devices,
      nodeReference ln = ("LNodeType", ln.attribute "lnType") := by
    intro ln hln
    obtain ⟨ln', hln'⟩ := exists_describesNode hdesc hln
    refine Prod.ext ?_ rfl
    rw [nodeReference, hln'.name]
    split_ifs <;> rfl
  refine ⟨hpart.nodup, ?_, ?_, ?_⟩
  · intro d hd r hr
    obtain ⟨d', hd', he⟩ := hpart.closed d hd r hr
    refine ⟨d', ⟨hd', he⟩, ?_⟩
    rintro d'' ⟨hd'', he'⟩
    exact hpart.unique hd'' hd' (by rw [he, he'])
  · intro ln hln
    obtain ⟨ln', hln', he⟩ := mem_deviceNodes_reconcileDevices hln
    have href : (refKind ln.name, ln.attribute "lnType") = ("LNodeType", ln'.attribute "lnType") :=
      he.trans (hkind ln' hln')
    rw [(Prod.mk.inj href).2, ← hkind ln' hln']
    exact hresolve _ (List.mem_map.mpr ⟨ln', hln', rfl⟩)
  · intro d hd _
    refine (hpart.reach d hd).mono (List.Subset.refl _) ?_
    intro r hr
    obtain ⟨d', hd', he⟩ := hpart.rooted r hr
    obtain ⟨ln, hln, rfl⟩ := List.mem_map.mp hr
    refine List.mem_map.mpr ⟨d', List.mem_filter.mpr ⟨hd', ?_⟩, he⟩
    have hname : d'.name = "LNodeType" := (Prod.mk.inj (he.trans (hkind ln hln))).1
    simp [hname]

/-- A model with one object that is exported, and one that fails after its first sub-object has been
converted. -/
def sampleModel : Model :=
  let q : Typ := { name := "q", kind := "BIT_STRING", size := -13 }
  let t : Typ := { name := "t", kind := "UTC_TIME" }
  let stVal : Typ := { name := "stVal", kind := "BOOLEAN" }
  let bad : Typ := { name := "bad", kind := "BCD", size := 4 }
  let phase (name : String) (children : List Typ) : Typ :=
    { name, kind := "STRUCTURE", children }
  { devices := [{ name := "IED1LD0", nodes := [
      { name := "LLN0", groups := [{ name := "ST", kind := "STRUCTURE", children := [
          phase "Loc" [stVal, q, t],
          phase "A" [phase "phsA" [stVal, q, t], phase "phsB" [bad, q], phase "phsC" [stVal, q]]]
        }] }] }] }

/-- Of the second object nothing is left. -/
theorem exported_templates_closed_sample :
    ∃ doc ws, exportICD sampleModel = (.ok doc, ws) ∧
      (documentTypes doc).map identity = [("LNodeType", "PBMT_T1"), ("DOType", "PBMT_T2")] ∧
      ((documentTypes doc).map (·.attribute "id")).Nodup := by
  have hok : (exportICD sampleModel).1.toOption.map (fun doc ↦ (documentTypes doc).map identity) =
      some [("LNodeType", "PBMT_T1"), ("DOType", "PBMT_T2")] := by
    decide +kernel
  rcases hrun : exportICD sampleModel with ⟨err | doc, ws⟩
  · rw [hrun] at hok
    cases hok
  · rw [hrun] at hok
    exact ⟨doc, ws, rfl, Option.some.inj hok, (exported_templates_closed hrun).1⟩

end ProcessBus.Scl
