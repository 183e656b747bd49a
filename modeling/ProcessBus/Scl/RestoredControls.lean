import ProcessBus.Lib.Arrange
import ProcessBus.Scl.ControlBlocks

/-!
# Control blocks after export and import

A report or a GOOSE control block stays in the document if the data set that it names is one of its
logical node and was kept; a report may name none.  What stays comes back in its order, with the
name of the data set as the import writes it, and a GOOSE control block with its address.
-/

namespace ProcessBus.Scl

open Go.Strconv Lib Metered Publisher

/-! ## What comes back -/

/-- The data sets of a logical node that a control block can name. -/
noncomputable def keptNames (devices : List LogicalDevice) (ln : LogicalNode) : List String :=
  (keptDataSets devices ln.dataSets).map (·.name)

open Classical in
/-- The reports that stay, with the names of their data sets. -/
noncomputable def keptReports (devices : List LogicalDevice) (ld : String) (ln : LogicalNode) :
    List (ReportControl × Option String) :=
  (exportedReports ld ln.name ln.reports).filter fun e ↦
    ∀ ds ∈ e.2, ds = "" ∨ ds ∈ keptNames devices ln

open Classical in
/-- The GOOSE control blocks that stay, with the names of their data sets. -/
noncomputable def keptGoose (devices : List LogicalDevice) (ld : String) (ln : LogicalNode) :
    List (GooseControl × String) :=
  (exportedGoose ld ln.name ln.goose).filter fun e ↦ e.2 ∈ keptNames devices ln

/-- What comes back of the control blocks of a logical node. -/
structure RestoredControls (devices : List LogicalDevice) (ld : String) (ln ln' : LogicalNode) :
    Prop where
  reports : ln'.reports = (keptReports devices ld ln).map fun e ↦
    { e.1 with dataSet := localSet (deviceName devices ld) ln.name (e.2.getD "") }
  goose : ln'.goose = (keptGoose devices ld ln).map fun e ↦
    { e.1 with dataSet := localSet (deviceName devices ld) ln.name e.2, mac := trimSpace e.1.mac }
  settings : ln'.settings = exportedSettings ln

/-! ## Reading a logical node -/

/-- What is read of the control blocks of a logical node. -/
structure ControlsRead (x : Element) (domain : String) (connection : Element) (ldInst : String)
    (ln : LogicalNode) : Prop where
  reports : List.Forall₂ (fun y v ↦ ∀ r ds, y = exportReport r ds →
    v = { r with dataSet := localSet domain ln.name (ds.getD "") })
      (x.childrenNamed "ReportControl") ln.reports
  settings : (x.childNamed "SettingControl" = {} → ln.settings = none) ∧
    ∀ s, x.childNamed "SettingControl" = settingElement s → ln.settings = some s
  goose : List.Forall₂ (fun y v ↦ ∀ cb ds, y = gseElement cb ds →
    (∃ inst, controlGSEs connection ldInst cb.name = [exportGSE inst cb]) →
      v = { cb with dataSet := localSet domain ln.name ds, mac := trimSpace cb.mac })
    (x.childrenNamed "GSEControl") ln.goose

theorem reads_readControls (ln : LogicalNode) (x : Element) (domain : String) (connection : Element)
    (ldInst : String) :
    Reads (readControls ln x domain connection ldInst)
      (ControlsRead x domain connection ldInst) := by
  refine (reads_mapM (reads_importReport domain ln.name) _).bind fun reports ↦ ?_
  refine (reads_importSettings x).bind fun settings ↦ ?_
  refine (reads_mapM (reads_importGoose domain ln.name connection ldInst) _).bind fun goose ↦ ?_
  exact reads_pure fun hgoose hsettings hreports ↦ ⟨hreports, hsettings, hgoose⟩

theorem yields_node_controls (table : TypeTable) (x : Element) (name domain : String)
    (domains : List (String × String)) (connection : Element) (ldInst : String) :
    Yields (ControlsRead x domain connection ldInst)
      (table.node x name domain domains connection ldInst) := by
  intro ln hln
  obtain ⟨typ, -, hln⟩ := outcome_bind_eq_ok.mp hln
  obtain ⟨groups, -, hln⟩ := outcome_bind_eq_ok.mp hln
  obtain ⟨dataSets, -, hln⟩ := outcome_ofExcept_bind_eq_ok.mp hln
  change importControls _ x domain connection ldInst = .ok ln at hln
  rw [importControls] at hln
  rcases hread : readControls { name, groups, dataSets } x domain connection ldInst none with
    ⟨err | ln₁, _ | err⟩
  · rw [hread] at hln
    cases hln
  · rw [hread] at hln
    cases hln
  · rw [hread] at hln
    cases hln
    exact (reads_readControls _ x domain connection ldInst).yields ln hread
  · rw [hread] at hln
    cases hln

/-! ## Distinct names -/

theorem yields_nodes_nodup (table : TypeTable) (domain : String) (domains : List (String × String))
    (connection : Element) (ldInst : String) (seen : List String) (xs : List Element) :
    Yields (fun _ ↦ (xs.map sclLNName).Nodup ∧ ∀ x ∈ xs, sclLNName x ∉ seen)
      (table.nodes domain domains connection ldInst seen xs) := by
  induction xs generalizing seen with
  | nil => exact fun _ _ ↦ ⟨.nil, fun x hx ↦ absurd hx List.not_mem_nil⟩
  | cons x xs ih =>
      rw [TypeTable.nodes]
      split_ifs with hbad
      · exact yields_fail _
      · intro lns hlns
        obtain ⟨ln, -, hlns⟩ := outcome_bind_eq_ok.mp hlns
        obtain ⟨rest, hrest, -⟩ := outcome_bind_eq_ok.mp hlns
        obtain ⟨hnodup, hseen⟩ := ih _ rest hrest
        rw [not_or] at hbad
        refine ⟨List.nodup_cons.mpr ⟨?_, hnodup⟩, List.forall_mem_cons.mpr ⟨hbad.2, ?_⟩⟩
        · intro hmem
          obtain ⟨y, hy, he⟩ := List.mem_map.mp hmem
          exact hseen y hy (he ▸ List.mem_cons_self)
        · exact fun y hy hmem ↦ hseen y hy (List.mem_cons_of_mem _ hmem)

theorem yields_devices_nodup (table : TypeTable) (domains : List (String × String))
    (connection : Element) (xs : List Element) :
    Yields (fun _ ↦ ∀ x ∈ xs, ((x.children.filter isNode).map sclLNName).Nodup)
      (table.devices domains connection xs) := by
  induction xs with
  | nil => exact fun _ _ x hx ↦ absurd hx List.not_mem_nil
  | cons x xs ih =>
      intro lds hlds
      obtain ⟨nodes, hnodes, hlds⟩ := outcome_bind_eq_ok.mp hlds
      obtain ⟨rest, hrest, -⟩ := outcome_bind_eq_ok.mp hlds
      exact List.forall_mem_cons.mpr
        ⟨(yields_nodes_nodup _ _ _ _ _ _ _ nodes hnodes).1, ih rest hrest⟩

theorem importDomains_nodup {iedName : String} {domains domains' : List (String × String)}
    {lds : List Element} (h : importDomains iedName domains lds = .ok domains')
    (hnodup : (domains.map (·.2)).Nodup) : (domains'.map (·.2)).Nodup := by
  induction lds generalizing domains with
  | nil =>
      cases h
      exact hnodup
  | cons ld lds ih =>
      rw [importDomains_cons] at h
      split_ifs at h with hbad
      simp only [not_or] at hbad
      refine ih h ?_
      rw [List.map_append, List.nodup_append]
      refine ⟨hnodup, by simp, ?_⟩
      rintro d hd d' hd' rfl
      have he : d = (domainEntry iedName ld).2 := List.mem_singleton.mp hd'
      rw [he] at hd
      exact hbad.2.2 hd

/-! ## The nodes of the document -/

theorem name_of_mem_controlElements {ld : String} {ln : LogicalNode} {c : Element}
    (h : c ∈ controlElements ld ln) :
    c.name = "ReportControl" ∨ c.name = "GSEControl" ∨ c.name = "SettingControl" := by
  rcases List.mem_append.mp h with h | h
  · rcases List.mem_append.mp h with h | h
    · obtain ⟨e, -, rfl⟩ := List.mem_map.mp h
      exact .inl rfl
    · obtain ⟨e, -, rfl⟩ := List.mem_map.mp h
      exact .inr (.inl rfl)
  · obtain ⟨s, -, rfl⟩ := List.mem_map.mp h
    exact .inr (.inr rfl)

/-- The elements of one kind. -/
theorem filter_map_name {α : Type} {f : α → Element} {name : String} (name' : String)
    (hf : ∀ a, (f a).name = name') {P : Element → Prop} [DecidablePred P] (as : List α) :
    (as.map f).filter (fun c ↦ decide (c.name = name ∧ P c)) =
      if name' = name then (as.filter fun a ↦ decide (P (f a))).map f else [] := by
  split_ifs with h
  · rw [List.filter_map]
    refine congrArg (List.map f) (List.filter_congr fun a _ ↦ ?_)
    simp [hf, h]
  · rw [List.filter_eq_nil_iff]
    intro c hc
    obtain ⟨a, -, rfl⟩ := List.mem_map.mp hc
    simp [hf, h]

section Document

variable {types : List Element} {roots : List (String × String)} {lo hi : ℕ}
  {devices : List LogicalDevice} {devs : List Element}

/-- The names of the data sets that a node of the document has. -/
theorem any_dataSets (hkept : ∀ ds, Kept devices ds ↔ ds.members ≠ [] ∧ ∃ ms',
      List.Forall₂ (ExportedMember types devs devices) ds.members ms') (ln : LogicalNode)
    (v : String) :
    (((exportedDataSets devices ln.dataSets).filterMap (reconcileDataSet types devs)).any
      (·.attribute "name" == v)) = true ↔ v ∈ keptNames devices ln := by
  rw [keptNames]
  have hall := forall₂_dataSets hkept ln.dataSets
  generalize keptDataSets devices ln.dataSets = dss at hall
  generalize (exportedDataSets devices ln.dataSets).filterMap (reconcileDataSet types devs) = xs
    at hall
  induction hall with
  | nil => simp
  | @cons ds x dss xs hds _ ih =>
      obtain ⟨ms', -, rfl⟩ := hds
      have hname : (element "DataSet" [("name", ds.name)] ms').attribute "name" = ds.name := rfl
      rw [List.any_cons, List.map_cons, List.mem_cons, Bool.or_eq_true, hname, beq_iff_eq]
      exact or_congr eq_comm ih

/-- A control block stays in the document. -/
def Stays (names : List String) (c : Element) : Prop :=
  (c.name = "GSEControl" → c.attribute "datSet" ∈ names) ∧
    (c.name = "ReportControl" → c.attribute "datSet" = "" ∨ c.attribute "datSet" ∈ names)

open Classical in
/-- The control blocks of a node of the document are those that stay. -/
theorem childrenNamed_controls (hkept : ∀ ds, Kept devices ds ↔ ds.members ≠ [] ∧ ∃ ms',
      List.Forall₂ (ExportedMember types devs devices) ds.members ms') {ld : String}
    {ln : LogicalNode} {x : Element} (h : DescribesNode types devices ln x)
    (hx : HasControls devices ld ln x) {name : String} (hname : name ≠ "DataSet") :
    (reconcileNode types devs x).1.childrenNamed name =
      (controlElements ld ln).filter fun c ↦ c.name = name ∧ Stays (keptNames devices ln) c := by
  have hstays : ∀ c : Element,
      (!(c.name == "GSEControl" && !((exportedDataSets devices ln.dataSets).filterMap
          (reconcileDataSet types devs)).any (·.attribute "name" == c.attribute "datSet")) &&
        !(c.name == "ReportControl" && c.attribute "datSet" != "" &&
          !((exportedDataSets devices ln.dataSets).filterMap
            (reconcileDataSet types devs)).any (·.attribute "name" == c.attribute "datSet"))) =
        decide (Stays (keptNames devices ln) c) := by
    intro c
    rw [Bool.eq_iff_iff, decide_eq_true_iff, Stays, ← any_dataSets hkept]
    simp [or_iff_not_imp_left]
  have hkeptname : ∀ ds ∈ (exportedDataSets devices ln.dataSets).filterMap
      (reconcileDataSet types devs), ¬(ds.name == name) = true := by
    rw [← childrenNamed_reconcileNode h]
    intro ds hds hdsname
    have hds' := beq_iff_eq.mp (List.mem_filter.mp hds).2
    exact hname ((beq_iff_eq.mp hdsname).symm.trans hds')
  have hsets : (exportedDataSets devices ln.dataSets).filter (·.name != "DataSet") = [] := by
    rw [List.filter_eq_nil_iff]
    intro ds hds
    simp [name_of_mem_exportedDataSets hds]
  have hcontrols : (controlElements ld ln).filter (·.name != "DataSet") = controlElements ld ln := by
    rw [List.filter_eq_self]
    intro c hc
    rcases name_of_mem_controlElements hc with hc | hc | hc <;> simp [hc]
  rw [reconcileNode, Element.childrenNamed]
  dsimp only
  rw [h.dataSets, hx, List.filter_append, List.filter_eq_nil_iff.mpr hkeptname, List.nil_append,
    List.filter_append, hsets, hcontrols, List.nil_append, List.filter_filter]
  refine List.filter_congr fun c _ ↦ ?_
  rw [hstays c, Bool.decide_and, Bool.beq_eq_decide_eq]

theorem reports_reconciled (hkept : ∀ ds, Kept devices ds ↔ ds.members ≠ [] ∧ ∃ ms',
      List.Forall₂ (ExportedMember types devs devices) ds.members ms') {ld : String}
    {ln : LogicalNode} {x : Element} (h : DescribesNode types devices ln x)
    (hx : HasControls devices ld ln x) :
    (reconcileNode types devs x).1.childrenNamed "ReportControl" =
      (keptReports devices ld ln).map fun e ↦ exportReport e.1 e.2 := by
  classical
  rw [childrenNamed_controls hkept h hx (by decide), controlElements, List.filter_append,
    List.filter_append, filter_map_name "ReportControl" fun _ ↦ rfl,
    filter_map_name "GSEControl" fun _ ↦ rfl,
    filter_map_name "SettingControl" fun _ ↦ rfl, if_pos rfl, if_neg (by decide),
    if_neg (by decide), List.append_nil, List.append_nil, keptReports]
  refine congrArg (List.map _) (List.filter_congr fun e _ ↦ ?_)
  have hname : (exportReport e.1 e.2).name = "ReportControl" := rfl
  rw [decide_eq_decide, Stays, exportReport_datSet, hname]
  cases e.2 <;> simp

theorem goose_reconciled (hkept : ∀ ds, Kept devices ds ↔ ds.members ≠ [] ∧ ∃ ms',
      List.Forall₂ (ExportedMember types devs devices) ds.members ms') {ld : String}
    {ln : LogicalNode} {x : Element} (h : DescribesNode types devices ln x)
    (hx : HasControls devices ld ln x) :
    (reconcileNode types devs x).1.childrenNamed "GSEControl" =
      (keptGoose devices ld ln).map fun e ↦ gseElement e.1 e.2 := by
  classical
  rw [childrenNamed_controls hkept h hx (by decide), controlElements, List.filter_append,
    List.filter_append, filter_map_name "ReportControl" fun _ ↦ rfl,
    filter_map_name "GSEControl" fun _ ↦ rfl,
    filter_map_name "SettingControl" fun _ ↦ rfl, if_neg (by decide), if_pos rfl,
    if_neg (by decide), List.nil_append, List.append_nil, keptGoose]
  refine congrArg (List.map _) (List.filter_congr fun e _ ↦ ?_)
  have hname : (gseElement e.1 e.2).name = "GSEControl" := rfl
  have hset : (gseElement e.1 e.2).attribute "datSet" = e.2 := rfl
  rw [decide_eq_decide, Stays, hset, hname]
  simp

theorem settings_reconciled (hkept : ∀ ds, Kept devices ds ↔ ds.members ≠ [] ∧ ∃ ms',
      List.Forall₂ (ExportedMember types devs devices) ds.members ms') {ld : String}
    {ln : LogicalNode} {x : Element} (h : DescribesNode types devices ln x)
    (hx : HasControls devices ld ln x) :
    (reconcileNode types devs x).1.childNamed "SettingControl" =
      ((exportedSettings ln).map settingElement).getD {} := by
  classical
  have hall : (reconcileNode types devs x).1.childrenNamed "SettingControl" = _ :=
    childrenNamed_controls hkept h hx (by decide)
  rw [controlElements, List.filter_append,
    List.filter_append, filter_map_name "ReportControl" fun _ ↦ rfl,
    filter_map_name "GSEControl" fun _ ↦ rfl,
    filter_map_name "SettingControl" fun _ ↦ rfl, if_neg (by decide), if_neg (by decide),
    if_pos rfl, List.nil_append, List.nil_append, List.filter_eq_self.mpr] at hall
  · rw [Element.childNamed, ← List.head?_filter]
    rw [Element.childrenNamed] at hall
    rw [hall]
    cases exportedSettings ln <;> rfl
  · intro s _
    have hname : (settingElement s).name = "SettingControl" := rfl
    rw [decide_eq_true_iff, Stays, hname]
    simp

/-! ## Addresses -/

theorem map_fst_withSet {α β : Type} (f : α → Option β) (cbs : List α) :
    ((withSet f cbs).map (·.1)).Sublist cbs := by
  induction cbs with
  | nil => exact .slnil
  | cons cb cbs ih =>
      cases h : f cb with
      | none =>
          rw [withSet_none h]
          exact ih.cons cb
      | some ds =>
          rw [withSet_some h, List.map_cons]
          exact ih.cons_cons cb

/-- The names of the control blocks that are exported are distinct if those of the node are. -/
theorem exportedGoose_nodup {ld ln : String} {cbs : List GooseControl}
    (h : (cbs.map (·.name)).Nodup) : ((exportedGoose ld ln cbs).map (·.1.name)).Nodup := by
  rw [exportedGoose]
  split_ifs
  · have hsub := (map_fst_withSet (gooseSet ld ln) cbs).map (·.name)
    rw [List.map_map] at hsub
    exact hsub.nodup h
  · exact .nil

/-- The address of a control block is the only one with its name in the logical device. -/
theorem filter_addresses {ld : LogicalDevice} {ln : LogicalNode} {inst : String}
    (hdevices : (devices.map (·.name)).Nodup) (hld : ld ∈ devices)
    (hinst : ldInst devices ld.name = some inst)
    (hnodes : ((orderedNodes ld).map (·.name)).Nodup) (hln : ln ∈ orderedNodes ld)
    (hnames : (ln.goose.map (·.name)).Nodup) {e : GooseControl × String}
    (he : e ∈ exportedGoose ld.name ln.name ln.goose) :
    (devices.flatMap (deviceAddresses devices)).filter (fun g ↦
      g.attribute "ldInst" == inst && g.attribute "cbName" == e.1.name) = [exportGSE inst e.1] := by
  have hlln0 : ln.name = "LLN0" := by
    by_contra hne
    rw [exportedGoose, if_neg hne] at he
    exact absurd he List.not_mem_nil
  rw [List.filter_flatMap, flatMap_eq_of_key hdevices hld, deviceAddresses, hinst, Option.getD_some,
    List.filter_flatMap, flatMap_eq_of_key hnodes hln, nodeAddresses, List.filter_map]
  · have hcomp : ((fun g : Element ↦ g.attribute "ldInst" == inst &&
        g.attribute "cbName" == e.1.name) ∘ fun e : GooseControl × String ↦ exportGSE inst e.1) =
        fun e' ↦ e'.1.name == e.1.name := by
      funext e'
      have hattr : (exportGSE inst e'.1).attribute "ldInst" = inst := rfl
      have hname : (exportGSE inst e'.1).attribute "cbName" = e'.1.name := rfl
      rw [Function.comp_apply, hattr, hname, beq_self_eq_true, Bool.true_and]
    rw [hcomp, filter_key_eq (exportedGoose_nodup hnames) he]
    rfl
  · intro ln' _ hne
    rw [nodeAddresses, exportedGoose, if_neg fun h ↦ hne (h.trans hlln0.symm)]
    rfl
  · intro ld' hld' hne
    rw [List.filter_eq_nil_iff]
    intro g hg hkey
    obtain ⟨ln', -, hg⟩ := List.mem_flatMap.mp hg
    obtain ⟨e', -, rfl⟩ := List.mem_map.mp hg
    obtain ⟨inst', hinst'⟩ := ldInst_isSome hld'
    rw [hinst', Option.getD_some, Bool.and_eq_true, beq_iff_eq] at hkey
    have hsame : inst' = inst := hkey.1
    rw [hsame] at hinst'
    exact hne (ldInst_inj hinst' hinst)

/-- The addresses that the import takes for a control block that stays. -/
theorem controlGSEs_reconciled (hkept : ∀ ds, Kept devices ds ↔ ds.members ≠ [] ∧ ∃ ms',
      List.Forall₂ (ExportedMember types devs devices) ds.members ms') {ip : String}
    {ld : LogicalDevice} {ln : LogicalNode} {inst : String} {x y : Element}
    (hdevices : (devices.map (·.name)).Nodup) (hld : ld ∈ devices)
    (hinst : ldInst devices ld.name = some inst)
    (hnodes : ((orderedNodes ld).map (·.name)).Nodup) (hln : ln ∈ orderedNodes ld)
    (hnames : (ln.goose.map (·.name)).Nodup) (hxs : x ∈ devs)
    (hx : x.attribute "inst" = inst) (hys : y ∈ x.children)
    (hy : DescribesNode types devices ln y) (hcontrols : HasControls devices ld.name ln y)
    {e : GooseControl × String} (he : e ∈ keptGoose devices ld.name ln) :
    controlGSEs (exportedConnection ip (reconcileAddresses (reconcileDevices types devs)
      (devices.flatMap (deviceAddresses devices)))) inst e.1.name = [exportGSE inst e.1] := by
  have hexported : e ∈ exportedGoose ld.name ln.name ln.goose := (List.mem_filter.mp he).1
  have haddress : ¬((element "Address" [] [textElement "P" [("type", "IP")] ip]).name == "GSE") =
      true := by
    rw [name_element]
    decide
  rw [← filter_addresses hdevices hld hinst hnodes hln hnames hexported, controlGSEs,
    Element.childrenNamed, exportedConnection, children_element,
    List.filter_cons, if_neg haddress, reconcileAddresses, List.filter_filter, List.filter_filter]
  refine List.filter_congr fun g hg ↦ ?_
  obtain ⟨ld', -, hg⟩ := List.mem_flatMap.mp hg
  obtain ⟨ln', -, hg⟩ := List.mem_flatMap.mp hg
  obtain ⟨e', -, rfl⟩ := List.mem_map.mp hg
  rw [Bool.eq_iff_iff]
  simp only [Bool.and_eq_true, beq_iff_eq]
  constructor
  · exact fun h ↦ h.1.1
  · rintro hkey
    refine ⟨⟨hkey, rfl⟩, ?_⟩
    rw [List.any_eq_true]
    refine ⟨_, List.mem_map.mpr ⟨x, hxs, rfl⟩, ?_⟩
    rw [Bool.and_eq_true, beq_iff_eq, List.any_eq_true]
    refine ⟨hx.trans hkey.1.symm, _, List.mem_map.mpr ⟨y, hys, rfl⟩, ?_⟩
    rw [goose_reconciled hkept hy hcontrols, List.any_eq_true]
    exact ⟨_, List.mem_map.mpr ⟨e, he, rfl⟩, beq_iff_eq.mpr hkey.2.symm⟩

end Document

/-! ## The model -/

theorem map_eq_of_forall₂ {α β γ : Type} {R : α → β → Prop} {f : α → γ} {g : β → γ} {xs : List α}
    {ys : List β} (h : List.Forall₂ R xs ys) (hfg : ∀ x y, R x y → f x = g y) :
    xs.map f = ys.map g := by
  induction h with
  | nil => rfl
  | cons hr _ ih => rw [List.map_cons, List.map_cons, hfg _ _ hr, ih]

theorem forall₂_and {α β : Type} {R S : α → β → Prop} {xs : List α} {ys : List β}
    (h : List.Forall₂ R xs ys) (h' : List.Forall₂ S xs ys) :
    List.Forall₂ (fun x y ↦ R x y ∧ S x y) xs ys := by
  rw [List.forall₂_iff_zip] at h h' ⊢
  exact ⟨h.1, fun hmem ↦ ⟨h.2 hmem, h'.2 hmem⟩⟩

theorem forall₂_mem_and {α β : Type} {R : α → β → Prop} {xs : List α} {ys : List β}
    (h : List.Forall₂ R xs ys) : List.Forall₂ (fun x y ↦ x ∈ xs ∧ y ∈ ys ∧ R x y) xs ys := by
  rw [List.forall₂_iff_zip] at h ⊢
  exact ⟨h.1, fun hmem ↦ ⟨(List.of_mem_zip hmem).1, (List.of_mem_zip hmem).2, h.2 hmem⟩⟩

/-- What is read of the control blocks of a node of the document. -/
theorem ControlsRead.restored {devices : List LogicalDevice} {types devs : List Element}
    (hkept : ∀ ds, Kept devices ds ↔ ds.members ≠ [] ∧ ∃ ms',
      List.Forall₂ (ExportedMember types devs devices) ds.members ms') {ld : String}
    {ln ln' : LogicalNode} {connection y : Element} {inst : String}
    (hy : DescribesNode types devices ln y) (hcontrols : HasControls devices ld ln y)
    (hgses : ∀ e ∈ keptGoose devices ld ln,
      controlGSEs connection inst e.1.name = [exportGSE inst e.1])
    (hname : ln'.name = ln.name)
    (h : ControlsRead (reconcileNode types devs y).1 (deviceName devices ld) connection inst ln') :
    RestoredControls devices ld ln ln' where
  reports := by
    have hreports := h.reports
    rw [reports_reconciled hkept hy hcontrols, List.forall₂_map_left_iff] at hreports
    refine eq_map_of_forall₂ (hreports.imp fun e v hv ↦ ?_)
    rw [hv e.1 e.2 rfl, hname]
  goose := by
    have hgoose := h.goose
    rw [goose_reconciled hkept hy hcontrols, List.forall₂_map_left_iff] at hgoose
    refine eq_map_of_forall₂ ((forall₂_mem_and hgoose).imp ?_)
    rintro e v ⟨he, -, hv⟩
    rw [hv e.1 e.2 rfl ⟨inst, hgses e he⟩, hname]
  settings := by
    have hsettings := h.settings
    rw [settings_reconciled hkept hy hcontrols] at hsettings
    cases hs : exportedSettings ln with
    | none =>
        rw [hs] at hsettings
        exact hsettings.1 rfl
    | some s =>
        rw [hs] at hsettings
        exact hsettings.2 s rfl

/-- **The control blocks of a model that is exported come back.**  If a document that was exported
from a model is imported, the reports and GOOSE control blocks of a logical node are those that
stayed, with all their values, and the settings are those that were valid.  The GOOSE control blocks
of a logical node have distinct names. -/
theorem importICD_exportICD_controls {parseIP : String → Option String} {model model' : Model}
    {doc : Element} {ws : List String} (h : exportICD model = (.ok doc, ws))
    (himport : importICD parseIP doc = .ok model')
    (hnames : ∀ ld ∈ model.devices, ∀ ln ∈ ld.nodes, (ln.goose.map (·.name)).Nodup) :
    List.Forall₂ (fun ld ld' ↦
        List.Forall₂ (RestoredControls model.devices ld.name) (orderedNodes ld) ld'.nodes)
      model.devices model'.devices := by
  obtain ⟨types, devs, serial, rfl, hpart, hdesc, hcontrols⟩ := exportICD_steps h
  have hrel := nodeRel_documentNodes (List.Subset.refl _) hdesc
  have hkept : ∀ ds, Kept model.devices ds ↔ ds.members ≠ [] ∧ ∃ ms',
      List.Forall₂ (ExportedMember types devs model.devices) ds.members ms' := fun ds ↦
    kept_iff hpart hrel
  have hlds : ∀ d ∈ reconcileDevices types devs, d.name = "LDevice" := by
    intro d hd
    obtain ⟨x, hx, rfl⟩ := List.mem_map.mp hd
    obtain ⟨ld, -, hld⟩ := forall₂_mem_right hdesc hx
    exact hld.name
  obtain ⟨table, domains, -, hdomains, hread, -⟩ := importICD_exportDocument himport
  rw [documentDevices_exportDocument _ _ _ hlds] at hdomains hread
  have hnodup := yields_devices_nodup _ _ _ _ _ hread
  replace hread := yields_devices _ _ _ _ _ hread
  rw [reconcileDevices, List.forall₂_map_left_iff] at hread
  -- The logical devices have distinct names, since the import has entered all of them.
  have hdevices : (model.devices.map (·.name)).Nodup := by
    have hentries := importDomains_nodup hdomains .nil
    obtain ⟨heq, -⟩ := importDomains_eq hdomains
    rw [heq, List.nil_append, reconcileDevices, List.map_map, List.map_map,
      ← map_eq_of_forall₂ (f := deviceName model.devices ∘ (·.name)) hdesc] at hentries
    · rw [← List.map_map] at hentries
      exact hentries.of_map _
    · intro ld x hx
      exact (congrArg Prod.snd hx.entry).symm
  refine (forall₂_comp_iff.mpr
    ⟨devs, forall₂_mem_and (forall₂_and hdesc hcontrols), hread⟩).imp ?_
  rintro ld ld' ⟨x, ⟨hld, hxs, hx, hcx⟩, hld'⟩
  obtain ⟨inst, hinst⟩ := ldInst_isSome hld
  have hxinst : x.attribute "inst" = inst := by
    rw [hx.inst, hinst]
    rfl
  have hname : ld'.name = deviceName model.devices ld.name := by
    have hname := hld'.name
    change ld'.name = (domains.lookup (x.attribute "inst")).getD "" at hname
    rw [hname, hxinst, (domains_lookup hdesc hdomains hinst).1]
    rfl
  have hnodes : ((orderedNodes ld).map (·.name)).Nodup := by
    have hscl := hnodup _ (List.mem_map.mpr ⟨x, hxs, rfl⟩)
    rw [List.filter_eq_self.mpr, List.map_map] at hscl
    · rw [map_eq_of_forall₂ hx.nodes fun ln y hy ↦ hy.sclLNName.symm]
      exact hscl
    · intro y' hy'
      obtain ⟨y, hy, rfl⟩ := List.mem_map.mp hy'
      obtain ⟨ln, -, hln⟩ := forall₂_mem_right hx.nodes hy
      exact hln.isNode
  refine (forall₂_comp_iff.mpr
    ⟨x.children, forall₂_mem_and (forall₂_and hx.nodes hcx), hld'.nodes_outcome hx⟩).imp ?_
  rintro ln ln' ⟨y, ⟨hln, hys, hy, hcy⟩, hln'⟩
  rw [hy.sclLNName, hname, hxinst] at hln'
  have hmem : ln ∈ ld.nodes := by
    rcases List.mem_append.mp hln with hln | hln
    · exact (List.mem_filter.mp hln).1
    · exact (List.mem_filter.mp hln).1
  refine ControlsRead.restored hkept hy hcy (fun e he ↦ ?_)
    (yields_node _ _ _ _ _ _ _ ln' hln').name (yields_node_controls _ _ _ _ _ _ _ ln' hln')
  exact controlGSEs_reconciled hkept hdevices hld hinst hnodes hln (hnames ld hld ln hmem) hxs hxinst
    hys hy hcy he

/-- Three of the four reports come back, with the GOOSE control block and the settings. -/
theorem importICD_exportICD_controls_feeder :
    ∃ doc ws model', exportICD feederModel = (.ok doc, ws) ∧ importICD some doc = .ok model' ∧
      (model'.devices.flatMap (·.nodes)).map LogicalNode.controlNames =
        [([("rcb1", "IED1LD0/LLN0.ds1"), ("rcb2", ""), ("rcb3", "")], ["gcb1"], some 4)] ∧
      List.Forall₂ (fun ld ld' ↦
          List.Forall₂ (RestoredControls feederModel.devices ld.name) (orderedNodes ld) ld'.nodes)
        feederModel.devices model'.devices := by
  obtain ⟨doc, ws, model', h, himport, hcontrols⟩ := exists_import_feederModel
  refine ⟨doc, ws, model', h, himport, hcontrols, importICD_exportICD_controls h himport ?_⟩
  simp [feederModel, feederNode]

end ProcessBus.Scl
