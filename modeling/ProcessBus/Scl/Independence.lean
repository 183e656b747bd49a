import ProcessBus.Scl.Controls
import ProcessBus.Scl.ImportErrors

/-!
# Control blocks beside each other

A document can be reduced to some of its control blocks (`retain`): the others are removed, and
nothing else is changed.  What is read of the control blocks that stay does not change by that
(`controls_retain`), so that they influence each other only by the budget they share.

The stream of a control block is therefore independent of the others exactly under a condition on
the budget (`gooseStream_independent_iff`): the nodes that the control blocks before it visit leave
room for its own, or it fails in any case, with the same error.
-/

namespace ProcessBus.Scl

open Lib Metered

/-! ## Editing the children of an element -/

/-- The children that satisfy `p` are edited or removed, by their positions among themselves. -/
def editFrom (p : Element → Bool) (f : ℕ → Element → Option Element) :
    ℕ → List Element → List Element
  | _, [] => []
  | i, c :: cs =>
      if p c then (f i c).toList ++ editFrom p f (i + 1) cs else c :: editFrom p f i cs

/-- Edit the children of an element. -/
def Element.edit (x : Element) (p : Element → Bool) (f : ℕ → Element → Option Element) : Element :=
  { x with children := editFrom p f 0 x.children }

section Edit

variable {p q : Element → Bool} {f : ℕ → Element → Option Element}

theorem filter_editFrom (hf : ∀ i c c', f i c = some c' → p c = true → p c' = true) (i : ℕ)
    (cs : List Element) :
    (editFrom p f i cs).filter p = ((cs.filter p).zipIdx i).filterMap fun e ↦ f e.2 e.1 := by
  induction cs generalizing i with
  | nil => rfl
  | cons c cs ih =>
      rw [editFrom]
      by_cases hc : p c = true
      · rw [if_pos hc, List.filter_append, ih, List.filter_cons_of_pos hc, List.zipIdx_cons]
        cases hfc : f i c with
        | none =>
            rw [List.filterMap_cons_none (by exact hfc)]
            rfl
        | some c' =>
            rw [List.filterMap_cons_some (by exact hfc), Option.toList_some,
              List.filter_cons_of_pos (hf i c c' hfc hc), List.filter_nil, List.singleton_append]
      · rw [if_neg hc, List.filter_cons_of_neg hc, List.filter_cons_of_neg hc, ih]

/-- The other children stay. -/
theorem filter_editFrom_of_disjoint (hq : ∀ c, p c = true → q c = false)
    (hf : ∀ i c c', f i c = some c' → p c = true → p c' = true) (i : ℕ) (cs : List Element) :
    (editFrom p f i cs).filter q = cs.filter q := by
  induction cs generalizing i with
  | nil => rfl
  | cons c cs ih =>
      rw [editFrom]
      by_cases hc : p c = true
      · have hqc : ¬ q c = true := by rw [hq c hc]; exact Bool.false_ne_true
        rw [if_pos hc, List.filter_append, ih, List.filter_cons_of_neg hqc]
        cases hfc : f i c with
        | none => rfl
        | some c' =>
            have hqc' : ¬ q c' = true := by
              rw [hq c' (hf i c c' hfc hc)]
              exact Bool.false_ne_true
            rw [Option.toList_some, List.filter_cons_of_neg hqc']
            rfl
      · rw [if_neg hc]
        by_cases hqc : q c = true
        · rw [List.filter_cons_of_pos hqc, List.filter_cons_of_pos hqc, ih]
        · rw [List.filter_cons_of_neg hqc, List.filter_cons_of_neg hqc, ih]

/-- What is read of the children stays if no edit changes it. -/
theorem map_filter_editFrom {β : Type} {g : Element → β}
    (hf : ∀ i c, p c = true → ∃ c', f i c = some c' ∧ q c' = q c ∧ g c' = g c) (i : ℕ)
    (cs : List Element) :
    ((editFrom p f i cs).filter q).map g = (cs.filter q).map g := by
  induction cs generalizing i with
  | nil => rfl
  | cons c cs ih =>
      rw [editFrom]
      by_cases hc : p c = true
      · obtain ⟨c', hfc, hqc, hgc⟩ := hf i c hc
        rw [if_pos hc, hfc, Option.toList_some, List.singleton_append, List.filter_cons,
          List.filter_cons, hqc]
        split_ifs
        · rw [List.map_cons, List.map_cons, ih, hgc]
        · exact ih (i + 1)
      · rw [if_neg hc, List.filter_cons, List.filter_cons]
        split_ifs
        · rw [List.map_cons, List.map_cons, ih]
        · exact ih i

end Edit

section Named

variable {n m : String} {f : ℕ → Element → Option Element} {x : Element}

/-- Children of a name that are edited. -/
theorem childrenNamed_edit (hf : ∀ i c c', f i c = some c' → c'.name = c.name) :
    (x.edit (·.name == n) f).childrenNamed n =
      (x.childrenNamed n).zipIdx.filterMap fun e ↦ f e.2 e.1 := by
  refine filter_editFrom ?_ 0 x.children
  intro i c c' hfc hc
  rw [hf i c c' hfc]
  exact hc

/-- Children of another name. -/
theorem childrenNamed_edit_of_ne (hne : n ≠ m)
    (hf : ∀ i c c', f i c = some c' → c'.name = c.name) :
    (x.edit (·.name == n) f).childrenNamed m = x.childrenNamed m := by
  refine filter_editFrom_of_disjoint ?_ ?_ 0 x.children
  · intro c hc
    rw [beq_iff_eq.mp hc]
    exact beq_eq_false_iff_ne.mpr hne
  · intro i c c' hfc hc
    rw [hf i c c' hfc]
    exact hc

theorem childNamed_eq (x : Element) (n : String) :
    x.childNamed n = (x.childrenNamed n).head?.getD {} := by
  rw [Element.childNamed, Element.childrenNamed, List.head?_filter]

theorem childNamed_edit_of_ne (hne : n ≠ m)
    (hf : ∀ i c c', f i c = some c' → c'.name = c.name) :
    (x.edit (·.name == n) f).childNamed m = x.childNamed m := by
  rw [childNamed_eq, childNamed_eq, childrenNamed_edit_of_ne hne hf]

end Named

/-! ## Reducing a document -/

/-- Keep some of the control blocks of a logical node. -/
def retainNode (sel : ℕ → Bool) (ln : Element) : Element :=
  ln.edit (·.name == "GSEControl") fun c cb ↦ if sel c then some cb else none

def retainDevice (sel : ℕ → ℕ → Bool) (ld : Element) : Element :=
  ld.edit isNode fun n ln ↦ some (retainNode (sel n) ln)

def retainServer (sel : ℕ → ℕ → ℕ → Bool) (server : Element) : Element :=
  server.edit (·.name == "LDevice") fun l ld ↦ some (retainDevice (sel l) ld)

def retainAccessPoint (sel : ℕ → ℕ → ℕ → ℕ → Bool) (ap : Element) : Element :=
  ap.edit (·.name == "Server") fun s server ↦ some (retainServer (sel s) server)

def retainIED (sel : ℕ → ℕ → ℕ → ℕ → ℕ → Bool) (ied : Element) : Element :=
  ied.edit (·.name == "AccessPoint") fun a ap ↦ some (retainAccessPoint (sel a) ap)

/-- The document with some of its control blocks. -/
def retain (sel : ControlPath → Bool) (root : Element) : Element :=
  root.edit (·.name == "IED") fun i ied ↦
    some (retainIED (fun a s l n c ↦ sel ⟨i, a, s, l, n, c⟩) ied)

/-! ## What stays the same -/

theorem childrenNamed_retainNode {sel : ℕ → Bool} {ln : Element} :
    (retainNode sel ln).childrenNamed "GSEControl" =
      ((ln.childrenNamed "GSEControl").zipIdx.filter fun e ↦ sel e.2).map (·.1) := by
  rw [retainNode, childrenNamed_edit, ← List.filterMap_eq_map, ← List.filterMap_eq_filter,
    List.filterMap_filterMap]
  · refine List.filterMap_congr fun e _ ↦ ?_
    cases hs : sel e.2 <;> simp [Option.guard, hs]
  · intro i c c' h
    split_ifs at h
    cases h
    rfl

theorem dataSets_retainNode (sel : ℕ → Bool) (ln : Element) :
    (retainNode sel ln).childrenNamed "DataSet" = ln.childrenNamed "DataSet" := by
  refine childrenNamed_edit_of_ne (by decide) ?_
  intro i c c' h
  split_ifs at h
  cases h
  rfl

/-- The other edits keep every child. -/
theorem childrenNamed_edit_some {n : String} {f : ℕ → Element → Element} {x : Element}
    (hf : ∀ i c, (f i c).name = c.name) :
    (x.edit (·.name == n) fun i c ↦ some (f i c)).childrenNamed n =
      (x.childrenNamed n).zipIdx.map fun e ↦ f e.2 e.1 := by
  rw [childrenNamed_edit, List.filterMap_eq_map']
  intro i c c' h
  cases h
  exact hf i c

theorem filter_isNode_retainDevice {sel : ℕ → ℕ → Bool} {ld : Element} :
    (retainDevice sel ld).children.filter isNode =
      (ld.children.filter isNode).zipIdx.map fun e ↦ retainNode (sel e.2) e.1 := by
  rw [retainDevice, Element.edit, filter_editFrom, List.filterMap_eq_map']
  intro i c c' h hc
  cases h
  exact hc

theorem name_eq_of_some {f : ℕ → Element → Element} (hf : ∀ i c, (f i c).name = c.name) :
    ∀ i c c', some (f i c) = some c' → c'.name = c.name := by
  intro i c c' h
  cases h
  exact hf i c

/-- The devices of an access point are those of its first server. -/
theorem devices_retainAccessPoint (sel : ℕ → ℕ → ℕ → ℕ → Bool) (ap : Element) :
    ((retainAccessPoint sel ap).childNamed "Server").childrenNamed "LDevice" =
      ((ap.childNamed "Server").childrenNamed "LDevice").zipIdx.map fun e ↦
        retainDevice (sel 0 e.2) e.1 := by
  rw [childNamed_eq, childNamed_eq, retainAccessPoint,
    childrenNamed_edit_some (f := fun s server ↦ retainServer (sel s) server) fun _ _ ↦ rfl]
  cases ap.childrenNamed "Server" with
  | nil => rfl
  | cons server servers =>
      rw [List.zipIdx_cons, List.map_cons, List.head?_cons, List.head?_cons, Option.getD_some,
        Option.getD_some, retainServer,
        childrenNamed_edit_some (f := fun l ld ↦ retainDevice (sel 0 l) ld) fun _ _ ↦ rfl]

theorem childNamed_retain (sel : ControlPath → Bool) (root : Element) {n : String} (h : "IED" ≠ n) :
    (retain sel root).childNamed n = root.childNamed n :=
  childNamed_edit_of_ne h (name_eq_of_some fun _ _ ↦ rfl)

theorem typeTable_retain (sel : ControlPath → Bool) (root : Element) :
    typeTable (retain sel root) = typeTable root := by
  rw [typeTable, typeTable, childNamed_retain sel root (by decide)]

theorem readGooseAddress_retain (sel : ControlPath → Bool) (root : Element) (g : GooseStream)
    (ldInst : String) :
    readGooseAddress g (retain sel root) ldInst = readGooseAddress g root ldInst := by
  have haddresses : gooseAddresses g (retain sel root) ldInst = gooseAddresses g root ldInst := by
    rw [gooseAddresses, gooseAddresses, childNamed_retain sel root (by decide)]
  rw [readGooseAddress, readGooseAddress, haddresses]

/-! ## What is read of a control block -/

/-- The names of a device. -/
def names (d : Device) : String × String := (d.inst, d.domain)

/-- A domain is looked up among the names. -/
theorem domainOf_congr {devices devices' : List Device}
    (h : devices'.map names = devices.map names) : domainOf devices' = domainOf devices := by
  have hfind (devices : List Device) (inst : String) : domainOf devices inst =
      (((devices.map names).find? (·.1 == inst)).map (·.2)).getD "" := by
    rw [List.find?_map, Option.map_map]
    rfl
  funext inst
  rw [hfind, hfind, h]

section Devices

variable {β : Type} {iedName : String} {r : ℕ → Element → Element}

/-- What is looked up of a device stays if no edit changes it. -/
theorem find_deviceTable {g : Device → β} (hattrs : ∀ i ld, (r i ld).attrs = ld.attrs)
    (hg : ∀ i ld, g (deviceEntry iedName (r i ld)) = g (deviceEntry iedName ld)) (inst : String)
    (lds : List Element) (i : ℕ) :
    ((deviceTable iedName ((lds.zipIdx i).map fun e ↦ r e.2 e.1)).find? (·.inst == inst)).map g =
      ((deviceTable iedName lds).find? (·.inst == inst)).map g := by
  induction lds generalizing i with
  | nil => rfl
  | cons ld lds ih =>
      have hinst : (deviceEntry iedName (r i ld)).inst = (deviceEntry iedName ld).inst := by
        simp only [deviceEntry, Element.attribute, hattrs]
      rw [List.zipIdx_cons, List.map_cons, deviceTable, List.map_cons, deviceTable, List.map_cons,
        List.find?_cons, List.find?_cons, hinst]
      cases (deviceEntry iedName ld).inst == inst with
      | true => exact congrArg some (hg i ld)
      | false => exact ih (i + 1)

end Devices

theorem domainOf_retain (iedName inst : String) (sel : ℕ → ℕ → ℕ → Bool) (lds : List Element) :
    domainOf (deviceTable iedName (lds.zipIdx.map fun e ↦ retainDevice (sel e.2) e.1)) inst =
      domainOf (deviceTable iedName lds) inst := by
  rw [domainOf, domainOf, find_deviceTable (r := fun l ld ↦ retainDevice (sel l) ld)]
  · intro i ld
    rfl
  · intro i ld
    rfl

theorem nodeTypes_eq (devices : List Device) (inst lnName : String) :
    nodeTypes devices inst lnName =
      ((devices.find? (·.inst == inst)).map fun d ↦
        (d.element.children.filter fun ln ↦ isNode ln && sclLNName ln == lnName).map
          (·.attribute "lnType")).getD [] := by
  rw [nodeTypes, deviceOf]
  cases devices.find? (·.inst == inst) with
  | none => rfl
  | some d => rfl

theorem nodeTypes_retain (iedName inst lnName : String) (sel : ℕ → ℕ → ℕ → Bool)
    (lds : List Element) :
    nodeTypes (deviceTable iedName (lds.zipIdx.map fun e ↦ retainDevice (sel e.2) e.1)) inst
      lnName = nodeTypes (deviceTable iedName lds) inst lnName := by
  rw [nodeTypes_eq, nodeTypes_eq, find_deviceTable (r := fun l ld ↦ retainDevice (sel l) ld)]
  · intro i ld
    rfl
  · intro i ld
    refine map_filter_editFrom ?_ 0 ld.children
    intro n ln _
    exact ⟨_, rfl, rfl, rfl⟩

/-- What is read of a control block depends on the attributes of the elements around it, on the
domains and the nodes of the devices, and on the data sets of its node. -/
theorem control_congr {types : TypeTable} {root root' ied ied' ap ap' ld ld' ln ln' : Element}
    {devices devices' : List Device} (cb : Element)
    (haddress : ∀ g ldInst, readGooseAddress g root' ldInst = readGooseAddress g root ldInst)
    (hied : ied'.attribute = ied.attribute) (hap : ap'.attribute = ap.attribute)
    (hld : ld'.attribute = ld.attribute) (hln : sclLNName ln' = sclLNName ln)
    (hsets : ln'.childrenNamed "DataSet" = ln.childrenNamed "DataSet")
    (hdomain : domainOf devices' = domainOf devices)
    (hnodes : nodeTypes devices' = nodeTypes devices) :
    control types root' ied' ap' devices' ld' ln' cb =
      control types root ied ap devices ld ln cb := by
  have hresolve : resolveGooseMember types devices' = resolveGooseMember types devices := by
    funext current m
    rw [resolveGooseMember, resolveGooseMember, hdomain, hnodes]
    simp only [memberName, hdomain]
  rw [control, control, gooseHeader, gooseHeader, gooseMembers, gooseMembers, hdomain, hied, hap,
    hld, hln, hsets, hresolve]
  simp only [haddress]

/-! ## The control blocks that stay -/

section Retain

variable (types : TypeTable) (root : Element) {sel : ControlPath → Bool}

/-- A level at which every element is kept. -/
theorem map_flatMap_retain {r : Element × ℕ → Element}
    {g g' : Element × ℕ → List (ControlPath × Control)}
    (h : ∀ e k, (g' (r e, k)).map (·.2) = ((g e).filter (sel ·.1)).map (·.2))
    (es : List (Element × ℕ)) (k : ℕ) :
    (((es.map r).zipIdx k).flatMap g').map (·.2) =
      ((es.flatMap g).filter (sel ·.1)).map (·.2) := by
  induction es generalizing k with
  | nil => rfl
  | cons e es ih =>
      rw [List.map_cons, List.zipIdx_cons, List.flatMap_cons, List.flatMap_cons, List.map_append,
        List.filter_append, List.map_append, h, ih]

theorem nodeControls_retain {ied ied' ap ap' ld ld' ln : Element} {devices devices' : List Device}
    {path path' : ℕ → ControlPath} {root' : Element}
    (hcontrol : ∀ cb, control types root' ied' ap' devices' ld'
      (retainNode (fun c ↦ sel (path c)) ln) cb = control types root ied ap devices ld ln cb) :
    (nodeControls types root' ied' ap' devices' ld' path'
      (retainNode (fun c ↦ sel (path c)) ln)).map (·.2) =
      ((nodeControls types root ied ap devices ld path ln).filter (sel ·.1)).map (·.2) := by
  rw [nodeControls, nodeControls, childrenNamed_retainNode, List.map_map, List.filter_map,
    List.map_map, List.filter_filter]
  have hleft (es : List (Element × ℕ)) (k : ℕ) :
      (((es.map (·.1)).zipIdx k).filter fun e ↦ isGooseControl e.1).map
        ((·.2) ∘ fun e ↦ (path' e.2, control types root' ied' ap' devices' ld'
          (retainNode (fun c ↦ sel (path c)) ln) e.1)) =
        (es.filter fun e ↦ isGooseControl e.1).map fun e ↦
          control types root ied ap devices ld ln e.1 := by
    induction es generalizing k with
    | nil => rfl
    | cons e es ih =>
        rw [List.map_cons, List.zipIdx_cons, List.filter_cons, List.filter_cons]
        split_ifs
        · rw [List.map_cons, List.map_cons, ih]
          exact congrArg (· :: _) (hcontrol e.1)
        · exact ih (k + 1)
  rw [hleft, List.filter_filter]
  have hcomm (e : Element × ℕ) : (isGooseControl e.1 && sel (path e.2)) =
      (((fun e : ControlPath × Control ↦ sel e.1) ∘ fun e : Element × ℕ ↦
        (path e.2, control types root ied ap devices ld ln e.1)) e && isGooseControl e.1) :=
    Bool.and_comm _ _
  rw [List.filter_congr fun e _ ↦ hcomm e]
  rfl

theorem deviceControls_retain {ied ied' ap ap' ld : Element} {devices devices' : List Device}
    {path path' : ℕ → ℕ → ControlPath} {root' : Element}
    (haddress : ∀ g ldInst, readGooseAddress g root' ldInst = readGooseAddress g root ldInst)
    (hied : ied'.attribute = ied.attribute) (hap : ap'.attribute = ap.attribute)
    (hdomain : domainOf devices' = domainOf devices)
    (hnodes : nodeTypes devices' = nodeTypes devices) :
    (deviceControls types root' ied' ap' devices' path'
      (retainDevice (fun n c ↦ sel (path n c)) ld)).map (·.2) =
      ((deviceControls types root ied ap devices path ld).filter (sel ·.1)).map (·.2) := by
  rw [deviceControls, deviceControls, filter_isNode_retainDevice]
  refine map_flatMap_retain ?_ _ 0
  intro e k
  refine nodeControls_retain types root ?_
  intro cb
  exact control_congr cb haddress hied hap rfl rfl
    (dataSets_retainNode (fun c ↦ sel (path e.2 c)) e.1) hdomain hnodes

theorem accessPointControls_retain {ied ied' ap : Element}
    {path path' : ℕ → ℕ → ℕ → ControlPath} {root' : Element}
    {selAp : ℕ → ℕ → ℕ → ℕ → Bool} (hsel : ∀ l n c, selAp 0 l n c = sel (path l n c))
    (haddress : ∀ g ldInst, readGooseAddress g root' ldInst = readGooseAddress g root ldInst)
    (hied : ied'.attribute = ied.attribute) :
    (accessPointControls types root' ied' path' (retainAccessPoint selAp ap)).map (·.2) =
      ((accessPointControls types root ied path ap).filter (sel ·.1)).map (·.2) := by
  have hselAp : selAp 0 = fun l n c ↦ sel (path l n c) := by
    funext l n c
    exact hsel l n c
  rw [accessPointControls, accessPointControls, devices_retainAccessPoint, hied, hselAp]
  refine map_flatMap_retain ?_ _ 0
  intro e k
  refine deviceControls_retain types root haddress hied rfl ?_ ?_
  · funext inst
    exact domainOf_retain _ inst (fun l n c ↦ sel (path l n c)) _
  · funext inst lnName
    exact nodeTypes_retain _ inst lnName (fun l n c ↦ sel (path l n c)) _

theorem iedControls_retain {ied : Element} {path path' : ℕ → ℕ → ℕ → ℕ → ControlPath}
    {root' : Element} {selIed : ℕ → ℕ → ℕ → ℕ → ℕ → Bool}
    (hsel : ∀ a l n c, selIed a 0 l n c = sel (path a l n c))
    (haddress : ∀ g ldInst, readGooseAddress g root' ldInst = readGooseAddress g root ldInst) :
    (iedControls types root' path' (retainIED selIed ied)).map (·.2) =
      ((iedControls types root path ied).filter (sel ·.1)).map (·.2) := by
  rw [iedControls, iedControls, retainIED,
    childrenNamed_edit_some (f := fun a ap ↦ retainAccessPoint (selIed a) ap) fun _ _ ↦ rfl]
  refine map_flatMap_retain ?_ _ 0
  intro e k
  exact accessPointControls_retain types root (hsel e.2) haddress rfl

/-- **What a reduced document says**: the control blocks that stay, unchanged and in their order. -/
theorem controls_retain (sel : ControlPath → Bool) :
    (controls types (retain sel root)).map (·.2) =
      ((controls types root).filter (sel ·.1)).map (·.2) := by
  rw [controls, controls, retain, childrenNamed_edit_some
    (f := fun i ied ↦ retainIED (fun a s l n c ↦ sel ⟨i, a, s, l, n, c⟩) ied) fun _ _ ↦ rfl]
  refine map_flatMap_retain ?_ _ 0
  intro e k
  exact iedControls_retain types root (fun _ _ _ _ ↦ rfl) (readGooseAddress_retain sel root)

end Retain

/-- Devices are accepted by their names alone. -/
theorem enterDevices_congr {iedName : String} {r : ℕ → Element → Element}
    (hattrs : ∀ i ld, (r i ld).attrs = ld.attrs) {devices devices' : List Device}
    (hnames : devices'.map names = devices.map names) (lds : List Element) (i : ℕ) :
    (∃ table, enterDevices iedName devices' ((lds.zipIdx i).map fun e ↦ r e.2 e.1) = .ok table) ↔
      ∃ table, enterDevices iedName devices lds = .ok table := by
  induction lds generalizing i devices devices' with
  | nil => exact ⟨fun _ ↦ ⟨_, rfl⟩, fun _ ↦ ⟨_, rfl⟩⟩
  | cons ld lds ih =>
      have hattr : (r i ld).attribute = ld.attribute := by
        funext name
        rw [Element.attribute, Element.attribute, hattrs]
      rw [List.zipIdx_cons, List.map_cons, enterDevices_cons, enterDevices_cons, hattr,
        domainOf_congr hnames]
      by_cases hbad : ld.attribute "inst" = "" ∨ domainOf devices (ld.attribute "inst") ≠ ""
      · rw [if_pos hbad, if_pos hbad]
      · rw [if_neg hbad, if_neg hbad]
        refine ih ?_ (i + 1)
        rw [List.map_append, List.map_append, hnames, List.map_singleton, List.map_singleton,
          names, names, deviceEntry, deviceEntry, hattr]

/-- A condition on the elements of a level at which every element is kept. -/
theorem forall_mem_zipIdx_map {r : Element × ℕ → Element} {P Q : Element → Prop}
    (h : ∀ e, P (r e) ↔ Q e.1) (l : List Element) :
    (∀ x ∈ l.zipIdx.map r, P x) ↔ ∀ x ∈ l, Q x := by
  have hfst : (∀ x ∈ l, Q x) ↔ ∀ x ∈ l.zipIdx.map (·.1), Q x := by
    rw [List.zipIdx_map_fst]
  rw [hfst, List.forall_mem_map, List.forall_mem_map]
  exact forall₂_congr fun e _ ↦ h e

/-- A reduced document is accepted if the whole one is. -/
theorem accepted_retain (sel : ControlPath → Bool) (root : Element) :
    Accepted (retain sel root) ↔ Accepted root := by
  rw [Accepted, Accepted, retain, childrenNamed_edit_some
    (f := fun i ied ↦ retainIED (fun a s l n c ↦ sel ⟨i, a, s, l, n, c⟩) ied) fun _ _ ↦ rfl]
  refine forall_mem_zipIdx_map ?_ _
  intro e
  rw [retainIED, childrenNamed_edit_some (f := fun a ap ↦
    retainAccessPoint (fun s l n c ↦ sel ⟨e.2, a, s, l, n, c⟩) ap) fun _ _ ↦ rfl]
  refine forall_mem_zipIdx_map ?_ _
  intro e'
  rw [devices_retainAccessPoint]
  exact enterDevices_congr (r := fun l ld ↦ retainDevice (fun n c ↦ sel ⟨e.2, e'.2, 0, l, n, c⟩) ld)
    (fun _ _ ↦ rfl) rfl _ 0

/-! ## Paths -/

/-- Lists that are marked with their positions are disjoint. -/
theorem nodup_flatMap_zipIdx {α β : Type} {g : α × ℕ → List β} (mark : β → ℕ)
    (hnodup : ∀ e, (g e).Nodup) (hmark : ∀ e, ∀ b ∈ g e, mark b = e.2) (l : List α) (i : ℕ) :
    ((l.zipIdx i).flatMap g).Nodup ∧ ∀ b ∈ (l.zipIdx i).flatMap g, i ≤ mark b := by
  induction l generalizing i with
  | nil => exact ⟨List.nodup_nil, fun b hb ↦ absurd hb List.not_mem_nil⟩
  | cons a l ih =>
      obtain ⟨htail, hle⟩ := ih (i + 1)
      rw [List.zipIdx_cons, List.flatMap_cons, List.nodup_append']
      refine ⟨⟨hnodup _, htail, ?_⟩, ?_⟩
      · intro b hb hb'
        have := hmark _ b hb
        have := hle b hb'
        omega
      · intro b hb
        rcases List.mem_append.mp hb with hb | hb
        · exact (hmark _ b hb).ge
        · exact (Nat.le_succ i).trans (hle b hb)

section Paths

variable (types : TypeTable) (root ied ap : Element) (devices : List Device) (ld : Element)

/-- The paths of a list of control blocks. -/
def paths (cs : List (ControlPath × Control)) : List ControlPath := cs.map (·.1)

theorem paths_flatMap {α : Type} (l : List α) (g : α → List (ControlPath × Control)) :
    paths (l.flatMap g) = l.flatMap fun a ↦ paths (g a) := List.map_flatMap

theorem nodeControls_paths (path : ℕ → ControlPath) (hpath : ∀ c, (path c).control = c)
    (ln : Element) :
    (paths (nodeControls types root ied ap devices ld path ln)).Nodup ∧
      ∀ b ∈ paths (nodeControls types root ied ap devices ld path ln), ∃ c, b = path c := by
  rw [paths, nodeControls, List.map_map]
  constructor
  · refine List.Nodup.of_map ControlPath.control ?_
    rw [List.map_map]
    have hcontrol : (ControlPath.control ∘ ((·.1) ∘ fun e : Element × ℕ ↦
        (path e.2, control types root ied ap devices ld ln e.1))) = (·.2) := by
      funext e
      exact hpath e.2
    rw [hcontrol]
    refine List.Nodup.sublist (List.Sublist.map _ List.filter_sublist) ?_
    rw [List.zipIdx_map_snd]
    exact List.nodup_range'
  · intro b hb
    obtain ⟨e, -, rfl⟩ := List.mem_map.mp hb
    exact ⟨e.2, rfl⟩

theorem deviceControls_paths (path : ℕ → ℕ → ControlPath)
    (hpath : ∀ n c, (path n c).node = n ∧ (path n c).control = c) (ld : Element) :
    (paths (deviceControls types root ied ap devices path ld)).Nodup ∧
      ∀ b ∈ paths (deviceControls types root ied ap devices path ld), ∃ n c, b = path n c := by
  rw [deviceControls, paths_flatMap]
  have hnode (e : Element × ℕ) := nodeControls_paths types root ied ap devices ld
    (path e.2) (fun c ↦ (hpath e.2 c).2) e.1
  constructor
  · refine (nodup_flatMap_zipIdx ControlPath.node (fun e ↦ (hnode e).1) ?_ _ 0).1
    intro e b hb
    obtain ⟨c, rfl⟩ := (hnode e).2 b hb
    exact (hpath e.2 c).1
  · intro b hb
    obtain ⟨e, -, hb⟩ := List.mem_flatMap.mp hb
    obtain ⟨c, rfl⟩ := (hnode e).2 b hb
    exact ⟨e.2, c, rfl⟩

theorem accessPointControls_paths (path : ℕ → ℕ → ℕ → ControlPath)
    (hpath : ∀ l n c, (path l n c).device = l ∧ (path l n c).node = n ∧ (path l n c).control = c)
    (ap : Element) :
    (paths (accessPointControls types root ied path ap)).Nodup ∧
      ∀ b ∈ paths (accessPointControls types root ied path ap), ∃ l n c, b = path l n c := by
  rw [accessPointControls, paths_flatMap]
  have hdevice (e : Element × ℕ) := deviceControls_paths types root ied ap
    (deviceTable (ied.attribute "name") ((ap.childNamed "Server").childrenNamed "LDevice"))
    (path e.2) (fun n c ↦ (hpath e.2 n c).2) e.1
  constructor
  · refine (nodup_flatMap_zipIdx ControlPath.device (fun e ↦ (hdevice e).1) ?_ _ 0).1
    intro e b hb
    obtain ⟨n, c, rfl⟩ := (hdevice e).2 b hb
    exact (hpath e.2 n c).1
  · intro b hb
    obtain ⟨e, -, hb⟩ := List.mem_flatMap.mp hb
    obtain ⟨n, c, rfl⟩ := (hdevice e).2 b hb
    exact ⟨e.2, n, c, rfl⟩

theorem iedControls_paths (i : ℕ) (ied : Element) :
    (paths (iedControls types root (fun a l n c ↦ ⟨i, a, 0, l, n, c⟩) ied)).Nodup ∧
      ∀ b ∈ paths (iedControls types root (fun a l n c ↦ ⟨i, a, 0, l, n, c⟩) ied),
        b.ied = i := by
  rw [iedControls, paths_flatMap]
  have hap (e : Element × ℕ) := accessPointControls_paths types root ied
    (fun l n c ↦ ⟨i, e.2, 0, l, n, c⟩) (fun _ _ _ ↦ ⟨rfl, rfl, rfl⟩) e.1
  constructor
  · refine (nodup_flatMap_zipIdx ControlPath.accessPoint (fun e ↦ (hap e).1) ?_ _ 0).1
    intro e b hb
    obtain ⟨l, n, c, rfl⟩ := (hap e).2 b hb
    rfl
  · intro b hb
    obtain ⟨e, -, hb⟩ := List.mem_flatMap.mp hb
    obtain ⟨l, n, c, rfl⟩ := (hap e).2 b hb
    rfl

/-- Different control blocks have different paths. -/
theorem nodup_controls : (paths (controls types root)).Nodup := by
  rw [controls, paths_flatMap]
  exact (nodup_flatMap_zipIdx ControlPath.ied (fun e ↦ (iedControls_paths types root e.2 e.1).1)
    (fun e ↦ (iedControls_paths types root e.2 e.1).2) _ 0).1

end Paths

/-! ## Main result -/

/-- A document with one of its control blocks. -/
def only (p : ControlPath) (root : Element) : Element := retain (· == p) root

theorem filter_eq_singleton {α β : Type} [DecidableEq α] {l : List (α × β)} {a : α} {b : β}
    (hnodup : (l.map (·.1)).Nodup) (h : (a, b) ∈ l) : l.filter (·.1 == a) = [(a, b)] := by
  induction l with
  | nil => exact absurd h List.not_mem_nil
  | cons e l ih =>
      rw [List.map_cons, List.nodup_cons] at hnodup
      obtain ⟨hnotin, hnodup⟩ := hnodup
      rcases List.mem_cons.mp h with rfl | h
      · have hrest : l.filter (·.1 == a) = [] := by
          rw [List.filter_eq_nil_iff]
          intro e he hkey
          exact hnotin (List.mem_map.mpr ⟨e, he, beq_iff_eq.mp hkey⟩)
        rw [List.filter_cons_of_pos (p := fun e : α × β ↦ e.1 == a) (beq_self_eq_true a), hrest]
      · have hne : ¬ (e.1 == a) = true := by
          intro hkey
          exact hnotin (List.mem_map.mpr ⟨(a, b), h, (beq_iff_eq.mp hkey).symm⟩)
        rw [List.filter_cons_of_neg (p := fun e : α × β ↦ e.1 == a) hne, ih hnodup h]

/-- The reduced document has the one control block. -/
theorem controls_only {types : TypeTable} {root : Element} {p : ControlPath} {c : Control}
    (h : (p, c) ∈ controls types root) :
    (controls types (only p root)).map (·.2) = [c] := by
  rw [only, controls_retain, filter_eq_singleton (nodup_controls types root) h, List.map_singleton]

/-- The nodes that one document may visit for all its members. -/
def nodeLimit : ℕ := 200000

/-- The nodes that the control blocks before one visit. -/
def nodesBefore (types : TypeTable) (root : Element) (k : ℕ) : ℕ :=
  costs (((controls types root).map (·.2.members)).take k)

/-- What is before a control block does not matter: there is room for its nodes, or it fails in any
case with the error of the node at which the limit is reached. -/
def Unaffected (before : ℕ) (members : Metered String (List Typ)) : Prop :=
  members.cost ≤ nodeLimit - before ∨
    ∃ err, members.takes[nodeLimit - before]? = some err ∧ members.within nodeLimit = .error err

/-- The limit that is reached shows in the stream. -/
theorem resolved_within_eq_iff {types : TypeTable} {root : Element} {e : ControlPath × Control}
    (he : e ∈ controls types root) (before : ℕ) :
    e.2.header.resolved (e.2.members.within (nodeLimit - before)) =
        e.2.header.resolved (e.2.members.within nodeLimit) ↔
      Unaffected before e.2.members := by
  obtain ⟨ied, ap, devices, ld, ln, cb, hcontrol⟩ := exists_of_mem_controls he
  have hheader : e.2.header.schemaError = "" := by
    rw [hcontrol]
    exact schemaError_gooseHeader root ied ap devices ld ln cb
  have hcharges : Charges IsBudgetError e.2.members := by
    rw [hcontrol]
    exact charges_gooseMembers types devices ld ln cb
  rw [Unaffected, ← within_eq_iff e.2.members (Nat.sub_le nodeLimit before)]
  constructor
  · intro h
    rcases Nat.lt_or_ge (nodeLimit - before) e.2.members.cost with hlt | hge
    · rw [within_of_lt hlt] at h ⊢
      exact ((resolved_eq_error_iff hheader (hcharges _ (List.get_mem _ _))).mp h).symm
    · rw [within_of_le hge, within_of_le (hge.trans (Nat.sub_le _ _))]
  · intro h
    rw [h]

/-- The one stream of a reduced document. -/
theorem parseGooseSCL_only {types : TypeTable} {root : Element} {e : ControlPath × Control}
    (htypes : typeTable root = .ok types) (haccepted : Accepted root)
    (he : e ∈ controls types root) :
    parseGooseSCL (only e.1 root) = .ok [e.2.header.resolved (e.2.members.within nodeLimit)] := by
  refine parseGooseSCL_eq_ok.mpr ⟨types, ?_, (accepted_retain _ root).mpr haccepted, ?_⟩
  · rw [only, typeTable_retain, htypes]
  · rw [controls_only he]
    change [_] = [e.2.header.resolved (e.2.members.run 200000).1]
    rw [run_fst]
    rfl

/-- **Control blocks are imported independently exactly as far as the budget allows**: an accepted
document has one stream for each of its GOOSE control blocks, and it is the stream that the document
has with this control block alone exactly if the nodes that the control blocks before it visit do not
matter. -/
theorem gooseStream_independent_iff {root : Element} {gs : List GooseStream}
    (hparse : parseGooseSCL root = .ok gs) :
    ∃ types, typeTable root = .ok types ∧ gs.length = (controls types root).length ∧
      ∀ k p c, (controls types root)[k]? = some (p, c) →
        ∃ g, gs[k]? = some g ∧
          (parseGooseSCL (only p root) = .ok [g] ↔
            Unaffected (nodesBefore types root k) c.members) := by
  obtain ⟨types, htypes, haccepted, rfl⟩ := parseGooseSCL_eq_ok.mp hparse
  refine ⟨types, htypes, ?_, ?_⟩
  · rw [streams, List.length_zipWith, length_runAll, List.length_map, List.length_map,
      List.length_map, min_self]
  · intro k p c hk
    have hmem : (p, c) ∈ controls types root := List.mem_of_getElem? hk
    refine ⟨c.header.resolved (c.members.within (nodeLimit - nodesBefore types root k)), ?_, ?_⟩
    · rw [streams_getElem?, List.getElem?_map, hk, nodesBefore, List.map_map]
      rfl
    · rw [parseGooseSCL_only htypes haccepted hmem,
        ← resolved_within_eq_iff hmem (nodesBefore types root k)]
      constructor
      · intro h
        exact (List.singleton_inj.mp (Except.ok.inj h)).symm
      · intro h
        rw [h]

/-! ## A station that is too large -/

/-- A data set of one member after another. -/
theorem resolveMembers_replicate {resolve : Element → Metered String Typ} {m : Element}
    {takes : List String} {t : Typ} (h : resolve m = ⟨takes, .ok t⟩) (n : ℕ) :
    resolveMembers resolve (List.replicate n m) =
      ⟨(List.replicate n takes).flatten, .ok (List.replicate n t)⟩ := by
  induction n with
  | zero => rfl
  | succ n ih =>
      rw [List.replicate_succ, resolveMembers, h, ih, bind_of_ok rfl, bind_of_ok rfl]
      change (⟨takes ++ ((List.replicate n takes).flatten ++ []), _⟩ : Metered _ _) = _
      rw [List.append_nil]
      rfl

/-- The definitions of one data object with one attribute. -/
def stationTypes : TypeTable :=
  [("N", element "LNodeType" [("id", "N")] [element "DO" [("name", "Op"), ("type", "O")]]),
    ("O", element "DOType" [("id", "O")]
      [element "DA" [("name", "general"), ("fc", "ST"), ("bType", "BOOLEAN")]])]

def stationMember : Element :=
  element "FCDA" [("lnClass", "LLN0"), ("doName", "Op"), ("daName", "general"), ("fc", "ST")]

def stationSet (n : ℕ) : Element :=
  element "DataSet" [("name", "trips")] (List.replicate n stationMember)

def stationControl (name : String) : Element :=
  element "GSEControl" [("name", name), ("datSet", "trips"), ("confRev", "1")]

/-- Two control blocks over one data set. -/
def stationNode (n : ℕ) : Element :=
  element "LN0" [("lnType", "N")] [stationSet n, stationControl "first", stationControl "second"]

def stationPoint (n : ℕ) : Element :=
  element "AccessPoint" [("name", "P")]
    [element "Server" [] [element "LDevice" [("inst", "L")] [stationNode n]]]

def stationIED (n : ℕ) : Element := element "IED" [("name", "I")] [stationPoint n]

def station (n : ℕ) : Element :=
  element "SCL" []
    [stationIED n, element "DataTypeTemplates" [] (stationTypes.map (·.2))]

def stationDevices (n : ℕ) : List Device :=
  [⟨"L", "IL", element "LDevice" [("inst", "L")] [stationNode n]⟩]

theorem typeTable_station (n : ℕ) : typeTable (station n) = .ok stationTypes := rfl

theorem accepted_station (n : ℕ) : Accepted (station n) := by
  intro ied hied ap hap
  obtain rfl : ied = stationIED n := List.mem_singleton.mp hied
  obtain rfl : ap = stationPoint n := List.mem_singleton.mp hap
  exact ⟨stationDevices n, rfl⟩

/-- Three nodes for each member. -/
theorem resolve_stationMember (n : ℕ) :
    resolveGooseMember stationTypes (stationDevices n) "L" stationMember =
      ⟨[typeGraph, typeGraph, attributeGraph],
        .ok { name := "IL/LLN0.Op.general", kind := "BOOLEAN" }⟩ := rfl

theorem controls_station (n : ℕ) :
    ∃ a b, controls stationTypes (station n) =
        [(⟨0, 0, 0, 0, 0, 0⟩, a), (⟨0, 0, 0, 0, 0, 1⟩, b)] ∧
      (a.members.cost = 3 * n ∧ b.members.cost = 3 * n) ∧
      b.members.outcome =
        .ok (List.replicate n { name := "IL/LLN0.Op.general", kind := "BOOLEAN" }) := by
  have hset : (stationSet n).childrenNamed "FCDA" = List.replicate n stationMember :=
    List.filter_replicate_of_pos rfl
  have hmembers := resolveMembers_replicate (resolve_stationMember n) n
  rw [← hset] at hmembers
  have hcost : (List.replicate n [typeGraph, typeGraph, attributeGraph]).flatten.length =
      3 * n := by
    rw [List.length_flatten, List.map_replicate, List.sum_replicate_nat, mul_comm]
    rfl
  refine ⟨_, _, rfl, ⟨?_, ?_⟩, ?_⟩
  · exact (congrArg cost hmembers).trans hcost
  · exact (congrArg cost hmembers).trans hcost
  · exact congrArg outcome hmembers

/-- Either of the two control blocks has a stream with 50,000 entries if it is alone, but the second
one has none beside the first. -/
theorem gooseStream_independent_iff_station :
    ∃ gs g, parseGooseSCL (station 50000) = .ok gs ∧ gs[1]? = some g ∧
      parseGooseSCL (only ⟨0, 0, 0, 0, 0, 1⟩ (station 50000)) ≠ .ok [g] := by
  have hparse : parseGooseSCL (station 50000) = .ok _ := parseGooseSCL_eq_ok.mpr
    ⟨stationTypes, typeTable_station 50000, accepted_station 50000, rfl⟩
  obtain ⟨types, htypes, -, hall⟩ := gooseStream_independent_iff hparse
  rw [typeTable_station] at htypes
  cases htypes
  obtain ⟨a, b, hcontrols, ⟨ha, hb⟩, houtcome⟩ := controls_station 50000
  obtain ⟨g, hg, hiff⟩ := hall 1 ⟨0, 0, 0, 0, 0, 1⟩ b (by rw [hcontrols]; rfl)
  refine ⟨_, g, hparse, hg, ?_⟩
  rw [ne_eq, hiff, Unaffected, nodesBefore, hcontrols]
  have hbefore : costs (([a.members, b.members]).take 1) = 150000 := by
    rw [costs]
    change a.members.cost + 0 = 150000
    rw [ha]
  change ¬ (b.members.cost ≤ nodeLimit - costs (([a.members, b.members]).take 1) ∨ _)
  rw [hb, hbefore]
  rintro (hle | ⟨err, -, herr⟩)
  · exact absurd hle (by decide)
  · rw [within_of_le (by rw [hb]; decide), houtcome] at herr
    cases herr

end ProcessBus.Scl
