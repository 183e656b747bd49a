import ProcessBus.Scl.Members
import ProcessBus.Scl.Restored

/-!
# Export and import

What `ImportICD` makes of a document that `ExportICD` has written.  The logical devices and nodes
come back in the order of the document.  A logical node has for each constraint the objects that
could be converted, with the attributes that they have for it after they were merged
(`restoredObjects`); its data sets are those that were kept, with their members (`restoredRef`).
-/

namespace ProcessBus.Scl

open Go.Strconv Lib Metered

/-! ## Steps that do not fail -/

theorem except_bind_eq_ok {ε α β : Type} {x : Except ε α} {f : α → Except ε β} {b : β} :
    (x >>= f) = .ok b ↔ ∃ a, x = .ok a ∧ f a = .ok b := by
  cases x with
  | error e =>
      constructor
      · intro h
        cases h
      · rintro ⟨a, ha, -⟩
        cases ha
  | ok a =>
      constructor
      · intro h
        exact ⟨a, rfl, h⟩
      · rintro ⟨a', ha, h⟩
        cases ha
        exact h

theorem eq_ok_of_toOption {ε α : Type} {x : Except ε α} {a : α} (h : x.toOption = some a) :
    x = .ok a := by
  cases x with
  | error e => cases h
  | ok b => exact congrArg _ (Option.some.inj h)

/-- A loop that succeeds has succeeded at each place. -/
theorem forall₂_of_mapM {ε α β : Type} {f : α → Except ε β} {xs : List α} {ys : List β}
    (h : xs.mapM f = .ok ys) : List.Forall₂ (fun x y ↦ f x = .ok y) xs ys := by
  induction xs generalizing ys with
  | nil =>
      cases h
      exact .nil
  | cons x xs ih =>
      rw [List.mapM_cons] at h
      obtain ⟨y, hy, h⟩ := except_bind_eq_ok.mp h
      obtain ⟨zs, hzs, h⟩ := except_bind_eq_ok.mp h
      cases h
      exact .cons hy (ih hzs)

theorem forall₂_and_mem {α β : Type} {R : α → β → Prop} {xs : List α} {ys : List β}
    (h : List.Forall₂ R xs ys) : List.Forall₂ (fun x y ↦ x ∈ xs ∧ R x y) xs ys := by
  rw [List.forall₂_iff_zip] at h ⊢
  exact ⟨h.1, fun hmem ↦ ⟨(List.of_mem_zip hmem).1, h.2 hmem⟩⟩

/-! ## Definitions -/

theorem importTypes_eq {table table' : TypeTable} {types : List Element}
    (h : importTypes table types = .ok table') :
    table' = table ++ types.map fun d ↦ (d.attribute "id", d) := by
  induction types generalizing table with
  | nil =>
      cases h
      exact (List.append_nil _).symm
  | cons d types ih =>
      rw [importTypes] at h
      split_ifs at h
      rw [ih h, List.append_assoc]
      rfl

/-- A definition of the templates is in the table. -/
theorem importTypes_get {table : TypeTable} {types : List Element}
    (h : importTypes [] types = .ok table) (hnodup : (types.map (·.attribute "id")).Nodup)
    {d : Element} (hd : d ∈ types) : table.get (d.attribute "id") = d := by
  rw [importTypes_eq h, List.nil_append]
  have hlookup : (types.map fun d ↦ (d.attribute "id", d)).lookup (d.attribute "id") = some d := by
    apply lookup_of_mem
    · rw [List.map_map]
      exact hnodup
    · exact List.mem_map.mpr ⟨d, hd, rfl⟩
  rw [TypeTable.get, hlookup]
  rfl

/-! ## The objects of a logical node -/

open Classical in
/-- The objects of a logical node for a constraint: those that can be converted. -/
noncomputable def restoredObjects (fc : String) (entries : List (String × List FcType)) :
    List Typ :=
  entries.flatMap fun entry ↦
    if Representable entry.2 then asObject entry.1 (merged fc entry.2) else []

theorem restoredObjects_kept {fc name : String} {groups : List FcType}
    {rest : List (String × List FcType)} (h : Representable groups) :
    restoredObjects fc ((name, groups) :: rest) =
      asObject name (merged fc groups) ++ restoredObjects fc rest := by
  rw [restoredObjects, List.flatMap_cons, if_pos h]
  rfl

theorem restoredObjects_omitted {fc name : String} {groups : List FcType}
    {rest : List (String × List FcType)} (h : ¬Representable groups) :
    restoredObjects fc ((name, groups) :: rest) = restoredObjects fc rest := by
  rw [restoredObjects, List.flatMap_cons, if_neg h]
  rfl

/-- A group with its name as its constraint. -/
def groupPart (g : Typ) : FcType := ⟨g.name, g⟩

theorem valuesAt_groupPart (fc : String) (groups : List Typ) :
    valuesAt fc (groups.map groupPart) = groups.filter (·.name == fc) := by
  induction groups with
  | nil => rfl
  | cons g groups ih =>
      rw [List.map_cons, valuesAt_cons, ih, List.filter_cons]
      by_cases h : g.name = fc
      · rw [if_pos (beq_iff_eq.mpr h)]
        exact if_pos h
      · rw [if_neg (mt beq_iff_eq.mp h)]
        exact if_neg h

theorem map_addGroup (fc : String) (t : Typ) (groups : List Typ) :
    (addGroup fc t groups).map groupPart = addPart fc fc t (groups.map groupPart) := by
  induction groups with
  | nil => rfl
  | cons g groups ih =>
      rw [addGroup, List.map_cons, addPart]
      by_cases h : g.name = fc
      · rw [if_pos h, if_pos (show (groupPart g).fc = fc from h)]
        rfl
      · rw [if_neg h, if_neg (show ¬(groupPart g).fc = fc from h), List.map_cons, ih]

/-- A node has one group with these objects for each constraint. -/
def Groups (cs : String → List Typ) (groups : List Typ) : Prop :=
  ∀ fc, groups.filter (·.name == fc) = asObject fc (cs fc)

theorem groups_nil : Groups (fun _ ↦ []) [] := fun _ ↦ rfl

theorem Groups.congr {cs cs' : String → List Typ} {groups : List Typ} (h : Groups cs groups)
    (hcs : ∀ fc, cs fc = cs' fc) : Groups cs' groups := by
  intro fc
  rw [h fc, hcs fc]

theorem Groups.add {cs : String → List Typ} {groups : List Typ} (h : Groups cs groups)
    (fc' : String) (t : Typ) :
    Groups (fun fc ↦ cs fc ++ if fc' = fc then [t] else []) (addGroup fc' t groups) := by
  intro fc
  rw [← valuesAt_groupPart, map_addGroup, valuesAt_addPart, valuesAt_groupPart, h fc]
  dsimp only
  split_ifs with hfc
  · rw [hfc]
    exact appendChild_asObject fc t (cs fc)
  · rw [List.append_nil]

theorem Groups.addAll {cs : String → List Typ} {groups : List Typ} (h : Groups cs groups)
    (added : List FcType) :
    Groups (fun fc ↦ cs fc ++ valuesAt fc added)
      (added.foldl (fun groups p ↦ addGroup p.fc p.t groups) groups) := by
  induction added generalizing cs groups with
  | nil => exact h.congr fun fc ↦ (List.append_nil _).symm
  | cons p added ih =>
      refine (ih (h.add p.fc p.t)).congr fun fc ↦ ?_
      rw [valuesAt_cons, List.append_assoc]
      split_ifs <;> rfl

section Read

variable {types : List Element} {table : TypeTable}

theorem DescribesObjects.name_eq {entries : List (String × List FcType)} {xs : List Element}
    (h : DescribesObjects types entries xs) : ∀ x ∈ xs, x.name = "DO" := by
  intro x hx
  obtain ⟨name, groups, id, -, -, rfl⟩ := h.mem hx
  rfl

/-- The objects of a node are read back. -/
theorem DescribesObjects.yields (htable : ∀ d ∈ types, table.get (d.attribute "id") = d)
    {entries : List (String × List FcType)} {xs : List Element}
    (h : DescribesObjects types entries xs) {cs : String → List Typ} {groups : List Typ}
    (hgroups : Groups cs groups) (seen : List String) :
    Yields (Groups fun fc ↦ cs fc ++ restoredObjects fc entries)
      (table.objects seen groups xs) := by
  induction h generalizing cs groups seen with
  | nil => exact yields_pure (hgroups.congr fun fc ↦ (List.append_nil _).symm)
  | @kept name os id rest xs hobject _ ih =>
      rw [TypeTable.objects]
      split_ifs
      · exact yields_fail _
      · refine (hobject.yields htable name 49).bind ?_
        intro parts hparts out hout
        refine (ih (hgroups.addAll parts) _ out hout).congr fun fc ↦ ?_
        rw [hparts fc, restoredObjects_kept hobject.representable, List.append_assoc]
  | @omitted name os rest xs hnot _ ih =>
      intro out hout
      refine (ih hgroups seen out hout).congr fun fc ↦ ?_
      rw [restoredObjects_omitted hnot]

/-! ## Paths -/

theorem yields_objectLoop_named {parts : Element → Metered String (List FcType)} (name : String)
    (seen : List String) (result : List FcType) (xs : List Element) :
    Yields (fun _ ↦ ∀ x ∈ xs, x.attribute "name" ≠ "" ∧ ∃ added, (parts x).outcome = .ok added)
      (objectLoop parts name seen result xs) := by
  induction xs generalizing seen result with
  | nil => exact yields_pure fun x hx ↦ absurd hx List.not_mem_nil
  | cons x xs ih =>
      rw [objectLoop]
      split_ifs with hname
      · exact yields_fail _
      · intro out hout
        obtain ⟨added, hadded, hout⟩ := outcome_bind_eq_ok.mp hout
        exact List.forall_mem_cons.mpr
          ⟨⟨fun he ↦ hname (.inl he), added, hadded⟩, ih _ _ out hout⟩

/-- A path is divided into object and attribute; no attribute is empty. -/
structure Divides (path objects attrs : List String) : Prop where
  append : objects ++ attrs = path
  named : attrs ≠ [""]

/-- The walk of a path divides it, in an object that is read back. -/
theorem Defines.divides {roots : List (String × String)} {lo hi : ℕ}
    (hpart : Templates types roots lo hi) (htable : ∀ d ∈ types, table.get (d.attribute "id") = d)
    {groups : List FcType} {d : Element} (h : Defines types groups d) {name : String} {left : ℕ}
    {out : List FcType} (hout : (table.object left name (d.attribute "id")).outcome = .ok out)
    {fc : String} {path objects attrs : List String}
    (hwalk : walk types fc d path = some (objects, attrs)) : Divides path objects attrs := by
  induction path generalizing groups d name left out objects attrs with
  | nil =>
      cases hwalk
      exact ⟨rfl, by simp⟩
  | cons key names ih =>
      have hd : d ∈ types := h.choose_spec.2.1
      cases left with
      | zero =>
          obtain ⟨x, hx, -⟩ := outcome_bind_eq_ok.mp hout
          exact absurd (yields_definition _ _ _ _ x hx).2 (by decide)
      | succ left =>
          obtain ⟨x, hx, hout⟩ := outcome_bind_eq_ok.mp hout
          obtain ⟨rfl, -⟩ := yields_definition _ _ _ _ x hx
          rw [htable d hd] at hout
          have hnamed := yields_objectLoop_named _ _ _ _ out hout
          cases h.step hpart fc key names with
          | missing _ hw =>
              rw [hw] at hwalk
              cases hwalk
          | @object values id _ _ hobj hmem hw =>
              rw [hw] at hwalk
              obtain ⟨⟨objects', attrs'⟩, hw', he⟩ := Option.map_eq_some_iff.mp hwalk
              cases he
              obtain ⟨-, added, hadded⟩ := hnamed _ (List.mem_filter.mpr ⟨hmem, rfl⟩)
              change (table.object left key id).outcome = .ok added at hadded
              rw [← (Prod.mk.inj (hobj.definition hpart).2).2] at hadded
              obtain ⟨happend, hattrs⟩ := ih (hobj.defines hpart) hadded hw'
              exact ⟨congrArg (key :: ·) happend, hattrs⟩
          | @attr v w others da _ _ _ hname hda hmem hw =>
              rw [hw] at hwalk
              split_ifs at hwalk
              cases hwalk
              refine ⟨rfl, ?_⟩
              rintro ⟨⟩
              obtain ⟨hne, -⟩ := hnamed _ (List.mem_filter.mpr ⟨hmem, by simp [hda.name_eq.1]⟩)
              rw [attribute_append_fc da w.fc (by decide), hda.name_eq.2, hname] at hne
              exact hne rfl

theorem yields_objects_read (table : TypeTable) (seen : List String) (groups : List Typ)
    (xs : List Element) :
    Yields (fun _ ↦ ∀ x ∈ xs, ∃ parts,
      (table.object 49 (x.attribute "name") (x.attribute "type")).outcome = .ok parts)
      (table.objects seen groups xs) := by
  induction xs generalizing seen groups with
  | nil => exact yields_pure fun x hx ↦ absurd hx List.not_mem_nil
  | cons x xs ih =>
      rw [TypeTable.objects]
      split_ifs
      · exact yields_fail _
      · intro out hout
        obtain ⟨parts, hparts, hout⟩ := outcome_bind_eq_ok.mp hout
        exact List.forall_mem_cons.mpr ⟨⟨parts, hparts⟩, ih _ _ out hout⟩

/-- The walk of a path divides it, in a node whose objects are read back. -/
theorem DefinesNode.divides {roots : List (String × String)} {lo hi : ℕ}
    (hpart : Templates types roots lo hi) (htable : ∀ d ∈ types, table.get (d.attribute "id") = d)
    {ln : LogicalNode} {lt : Element} (h : DefinesNode types ln lt) {out : List Typ}
    (hout : (table.objects [] [] (lt.childrenNamed "DO")).outcome = .ok out) {fc : String}
    {path objects attrs : List String} (hne : path ≠ [])
    (hwalk : walk types fc lt path = some (objects, attrs)) : Divides path objects attrs := by
  obtain ⟨name, names, rfl⟩ := List.exists_cons_of_ne_nil hne
  rcases h.cases name names with ⟨hnone, -⟩ | ⟨groups, id, hobj, hmem, hw, -⟩
  · rw [hnone] at hwalk
    cases hwalk
  · rw [hw] at hwalk
    obtain ⟨⟨objects', attrs'⟩, hw', he⟩ := Option.map_eq_some_iff.mp hwalk
    cases he
    obtain ⟨parts, hparts⟩ :=
      yields_objects_read table _ _ _ out hout _ (List.mem_filter.mpr ⟨hmem, rfl⟩)
    change (table.object 49 name id).outcome = .ok parts at hparts
    rw [← (Prod.mk.inj (hobj.definition hpart).2).2] at hparts
    obtain ⟨happend, hattrs⟩ := (hobj.defines hpart).divides hpart htable hparts hw'
    exact ⟨congrArg (name :: ·) happend, hattrs⟩

end Read

/-! ## Members of data sets -/

/-- The name of a logical device after the import: one without a name is named after the IED. -/
def deviceName (devices : List LogicalDevice) (name : String) : String :=
  if name = "" then discoveredIED ++ (ldInst devices name).getD "" else name

/-- A member after the import. -/
def restoredRef (devices : List LogicalDevice) (ref : String) : String :=
  match memberRef ref with
  | none => ref
  | some r => deviceName devices r.ld ++ "/" ++ r.ln ++ "." ++ join '.' r.path ++ "[" ++ r.fc ++ "]"

theorem join_append {xs ys : List String} (hx : xs ≠ []) (hy : ys ≠ []) :
    join '.' (xs ++ ys) = join '.' xs ++ "." ++ join '.' ys := by
  rw [← String.toList_inj, String.toList_append, String.toList_append, toList_join, toList_join,
    toList_join, List.map_append]
  induction xs with
  | nil => exact absurd rfl hx
  | cons x xs ih =>
      cases xs with
      | nil =>
          obtain ⟨y, ys, rfl⟩ := List.exists_cons_of_ne_nil hy
          simp
      | cons x' xs =>
          have hxs := ih (by simp)
          simp only [List.map_cons, List.cons_append, List.intercalate_cons_cons] at hxs ⊢
          rw [hxs]
          simp

theorem join_ne_empty {names : List String} (hne : names ≠ []) (hone : names ≠ [""])
    (hfree : ∀ name ∈ names, '.' ∉ name.toList) : join '.' names ≠ "" := by
  intro h
  have hsplit := split_join hne hfree
  rw [h] at hsplit
  exact hone hsplit.symm

section Members

variable {devices : List LogicalDevice}

/-- A member that is divided is read back. -/
theorem importMember_divide {domains : List (String × String)} {current set ref text : String}
    {r : MemberRef} {m : Element} {objects attrs : List String}
    (hdomains : ∀ name inst, ldInst devices name = some inst →
      domains.lookup inst = some (deviceName devices name) ∧ inst ≠ "")
    (hr : memberRef ref = some r) (hm : Exports devices r m) (hdivides : Divides r.path objects attrs)
    (h : importMember domains current set (divide m objects attrs) = .ok text) :
    text = restoredRef devices ref := by
  obtain ⟨hpne, hfree⟩ := memberRef_path hr
  have hm' := hm.divide objects attrs
  obtain ⟨hlookup, hinst⟩ := hdomains _ _ hm'.ldInst
  have hnode : memberNode (divide m objects attrs) = r.ln := splitLN_append hm'.split
  have hdo : (divide m objects attrs).attribute "doName" = join '.' objects := by
    rw [attribute_divide, if_neg (by decide), if_pos rfl]
  have hda : (divide m objects attrs).attribute "daName" =
      if attrs = [] then "" else join '.' attrs := by
    rw [attribute_divide, if_pos rfl]
  rw [importMember, if_neg hinst, hlookup, hnode, hdo, hda, hm'.fc, Option.getD_some] at h
  dsimp only at h
  split_ifs at h with hbad hattrs hempty hempty
  · cases h
    rw [restoredRef, hr]
    dsimp only
    rw [← hdivides.append, hattrs, List.append_nil]
  · exact absurd rfl hempty
  · refine absurd hempty (join_ne_empty hattrs hdivides.named fun name hname ↦ hfree name ?_)
    rw [← hdivides.append]
    exact List.mem_append_right _ hname
  · have hobjects : objects ≠ [] := by
      rintro rfl
      simp [join] at hbad
    cases h
    rw [restoredRef, hr]
    dsimp only
    rw [← hdivides.append, join_append hobjects hattrs]
    simp only [String.append_assoc]

end Members

/-! ## Logical nodes -/

/-- What is read of a logical node besides its control blocks. -/
structure NodeRead (table : TypeTable) (domains : List (String × String)) (ldInst : String)
    (x : Element) (name : String) (ln : LogicalNode) : Prop where
  name : ln.name = name
  groups : (table.objects [] [] ((table.get (x.attribute "lnType")).childrenNamed "DO")).outcome =
    .ok ln.groups
  dataSets : (x.childrenNamed "DataSet").mapM (importDataSet domains ldInst) = .ok ln.dataSets

theorem reading_bind_eq {α β : Type} (m : Reading α) (f : α → Reading β) (e : Option String) :
    (m >>= f) e = match m e with
      | (.ok a, e') => f a e'
      | (.error err, e') => (.error err, e') := by
  change (match m e with | (x, e') => ExceptT.bindCont f x e') = _
  rcases m e with ⟨_ | a, e'⟩ <;> rfl

/-- The first step of a step that succeeds. -/
theorem exists_of_reading_bind {α β : Type} {m : Reading α} {f : α → Reading β}
    {e e' : Option String} {b : β} (h : (m >>= f) e = (.ok b, e')) :
    ∃ a e₁, m e = (.ok a, e₁) ∧ f a e₁ = (.ok b, e') := by
  rw [reading_bind_eq] at h
  rcases hm : m e with ⟨err | a, e₁⟩
  · rw [hm] at h
    cases h
  · rw [hm] at h
    exact ⟨a, e₁, rfl, h⟩

/-- The control blocks change nothing else. -/
theorem importControls_eq_ok {ln ln' : LogicalNode} {x connection : Element} {domain ldInst : String}
    (h : importControls ln x domain connection ldInst = .ok ln') :
    ∃ reports settings goose, ln' = { ln with reports, settings, goose } := by
  rw [importControls] at h
  rcases hread : readControls ln x domain connection ldInst none with ⟨err | ln₁, _ | err⟩
  · rw [hread] at h
    cases h
  · rw [hread] at h
    cases h
  · rw [hread] at h
    cases h
    obtain ⟨reports, e₁, -, hread⟩ := exists_of_reading_bind hread
    obtain ⟨settings, e₂, -, hread⟩ := exists_of_reading_bind hread
    obtain ⟨goose, e₃, -, hread⟩ := exists_of_reading_bind hread
    cases hread
    exact ⟨reports, settings, goose, rfl⟩
  · rw [hread] at h
    cases h

theorem yields_node (table : TypeTable) (x : Element) (name domain : String)
    (domains : List (String × String)) (connection : Element) (ldInst : String) :
    Yields (NodeRead table domains ldInst x name)
      (table.node x name domain domains connection ldInst) := by
  intro ln hln
  obtain ⟨typ, htyp, hln⟩ := outcome_bind_eq_ok.mp hln
  obtain ⟨groups, hgroups, hln⟩ := outcome_bind_eq_ok.mp hln
  obtain ⟨dataSets, hdataSets, hln⟩ := outcome_ofExcept_bind_eq_ok.mp hln
  obtain ⟨reports, settings, goose, rfl⟩ := importControls_eq_ok hln
  obtain ⟨rfl, -⟩ := yields_definition _ _ _ _ typ htyp
  exact ⟨rfl, hgroups, hdataSets⟩

/-- The nodes of a device are read one after another. -/
theorem yields_nodes (table : TypeTable) (domain : String) (domains : List (String × String))
    (connection : Element) (ldInst : String) (seen : List String) (xs : List Element) :
    Yields (List.Forall₂ (fun x ln ↦
        (table.node x (sclLNName x) domain domains connection ldInst).outcome = .ok ln) xs)
      (table.nodes domain domains connection ldInst seen xs) := by
  induction xs generalizing seen with
  | nil =>
      rw [TypeTable.nodes]
      split_ifs
      · exact yields_pure .nil
      · exact yields_fail _
  | cons x xs ih =>
      rw [TypeTable.nodes]
      split_ifs
      · exact yields_fail _
      · intro lns hlns
        obtain ⟨ln, hln, hlns⟩ := outcome_bind_eq_ok.mp hlns
        obtain ⟨rest, hrest, hlns⟩ := outcome_bind_eq_ok.mp hlns
        cases hlns
        exact .cons (outcome_mapError_eq_ok.mp hln) (ih _ rest hrest)

/-- What is read of a logical device. -/
structure DeviceRead (table : TypeTable) (domains : List (String × String)) (connection : Element)
    (x : Element) (ld : LogicalDevice) : Prop where
  name : ld.name = (domains.lookup (x.attribute "inst")).getD ""
  nodes : List.Forall₂ (fun x' ln ↦ (table.node x' (sclLNName x') ld.name domains connection
    (x.attribute "inst")).outcome = .ok ln) (x.children.filter isNode) ld.nodes

theorem yields_devices (table : TypeTable) (domains : List (String × String)) (connection : Element)
    (xs : List Element) :
    Yields (List.Forall₂ (DeviceRead table domains connection) xs)
      (table.devices domains connection xs) := by
  induction xs with
  | nil => exact yields_pure .nil
  | cons x xs ih =>
      intro lds hlds
      obtain ⟨nodes, hnodes, hlds⟩ := outcome_bind_eq_ok.mp hlds
      obtain ⟨rest, hrest, hlds⟩ := outcome_bind_eq_ok.mp hlds
      cases hlds
      exact .cons ⟨rfl, yields_nodes _ _ _ _ _ _ _ nodes hnodes⟩ (ih rest hrest)

/-! ## Documents -/

/-- The entry of an exported document in the communication section. -/
def exportedConnection (ip : String) (gses : List Element) : Element :=
  element "ConnectedAP" [("iedName", discoveredIED), ("apName", "AP1")]
    (element "Address" [] [textElement "P" [("type", "IP")] ip] :: gses)

/-- The entry of a logical device: instance and name. -/
def domainEntry (iedName : String) (ld : Element) : String × String :=
  (ld.attribute "inst",
    if ld.attribute "ldName" = "" then iedName ++ ld.attribute "inst" else ld.attribute "ldName")

theorem importDomains_cons (iedName : String) (domains : List (String × String)) (ld : Element)
    (lds : List Element) :
    importDomains iedName domains (ld :: lds) =
      if ld.attribute "inst" = "" ∨ (domains.lookup (ld.attribute "inst")).getD "" ≠ "" ∨
          (domainEntry iedName ld).2 ∈ domains.map (·.2) then
        .error ("missing or duplicate logical device " ++ quote (ld.attribute "inst"))
      else importDomains iedName (domains ++ [domainEntry iedName ld]) lds := rfl

theorem importDomains_eq {iedName : String} {domains domains' : List (String × String)}
    {lds : List Element} (h : importDomains iedName domains lds = .ok domains') :
    domains' = domains ++ lds.map (domainEntry iedName) ∧ ∀ ld ∈ lds, ld.attribute "inst" ≠ "" := by
  induction lds generalizing domains with
  | nil =>
      cases h
      exact ⟨(List.append_nil _).symm, fun ld hld ↦ absurd hld List.not_mem_nil⟩
  | cons ld lds ih =>
      rw [importDomains_cons] at h
      split_ifs at h with hbad
      obtain ⟨heq, hinst⟩ := ih h
      refine ⟨?_, List.forall_mem_cons.mpr ⟨fun he ↦ hbad (.inl he), hinst⟩⟩
      rw [heq, List.append_assoc]
      rfl

theorem exportICD_document {model : Model} {doc : Element} {ws : List String}
    (h : exportICD model = (.ok doc, ws)) :
    ∃ devices gses types, doc = exportDocument model.ip devices gses types := by
  unfold exportICD at h
  by_cases hnil : model.devices = []
  · rw [if_pos hnil] at h
    cases h
  rw [if_neg hnil] at h
  rcases hrun : exportDevices model.devices model.devices
      { warnings := model.warnings ++ [exportNotice] } with ⟨err | ⟨devices, gses⟩, b⟩
  · rw [hrun] at h
    cases h
  · rw [hrun] at h
    cases h
    exact ⟨_, _, _, rfl⟩

/-- What is read of an exported document. -/
theorem importICD_exportDocument {parseIP : String → Option String} {ip : String}
    {devices gses types : List Element} {m : Model}
    (h : importICD parseIP (exportDocument ip devices gses types) = .ok m) :
    ∃ table domains, importTypes [] types = .ok table ∧
      importDomains discoveredIED []
        (documentDevices (exportDocument ip devices gses types)) = .ok domains ∧
      (table.devices domains (exportedConnection ip gses)
        (documentDevices (exportDocument ip devices gses types))).outcome = .ok m.devices ∧
      parseIP (Publisher.trimSpace ip) = some m.ip := by
  obtain ⟨ied, hied, h⟩ := except_bind_eq_ok.mp h
  cases hied
  obtain ⟨ap, hap, h⟩ := except_bind_eq_ok.mp h
  cases hap
  obtain ⟨connection, hconnection, h⟩ := except_bind_eq_ok.mp h
  cases hconnection
  obtain ⟨ip', hip, h⟩ := except_bind_eq_ok.mp h
  obtain ⟨table, htable, h⟩ := except_bind_eq_ok.mp h
  obtain ⟨domains, hdomains, h⟩ := except_bind_eq_ok.mp h
  obtain ⟨lds, hlds, h⟩ := except_bind_eq_ok.mp h
  have hdocument : documentDevices (exportDocument ip devices gses types) =
      devices.filter (·.name == "LDevice") := by
    simp [documentDevices, exportDocument, Element.childrenNamed]
  rw [run_fst] at hlds
  have hread := outcome_of_within hlds
  split_ifs at h
  cases h
  rw [hdocument]
  refine ⟨table, domains, htable, hdomains, hread, ?_⟩
  change (readIP parseIP (Publisher.trimSpace ip) >>= pure) = Except.ok ip' at hip
  rw [readIP] at hip
  cases hparse : parseIP (Publisher.trimSpace ip) with
  | none =>
      rw [hparse] at hip
      cases hip
  | some text =>
      rw [hparse] at hip
      cases hip
      rfl

/-! ## Names of logical devices -/

theorem lookup_eq_some {α : Type} {entries : List (String × α)} {key : String} {value : α}
    (hmem : ∃ e ∈ entries, e.1 = key) (hall : ∀ e ∈ entries, e.1 = key → e.2 = value) :
    entries.lookup key = some value := by
  rw [lookup_eq_find?]
  obtain ⟨e, he, hkey⟩ := hmem
  have hsome : (entries.find? (·.1 == key)).isSome := by
    rw [List.find?_isSome]
    exact ⟨e, he, beq_iff_eq.mpr hkey⟩
  obtain ⟨e', he'⟩ := Option.isSome_iff_exists.mp hsome
  have hvalue := hall e' (List.mem_of_find?_eq_some he') (by simpa using List.find?_some he')
  rw [he', Option.map_some, hvalue]

section Document

variable {types : List Element} {roots : List (String × String)} {lo hi : ℕ}
  {devices : List LogicalDevice} {devs : List Element}

/-- The entry of a logical device of the document. -/
theorem DescribesDevice.entry {ld : LogicalDevice} {x : Element}
    (h : DescribesDevice types devices ld x) :
    domainEntry discoveredIED x = (x.attribute "inst", deviceName devices ld.name) := by
  rw [domainEntry, deviceName, h.ldName, h.inst]

/-- The names of the logical devices by their instances. -/
theorem domains_lookup
    (h : List.Forall₂ (DescribesDevice types devices) devices devs)
    {domains : List (String × String)}
    (hdomains : importDomains discoveredIED [] (reconcileDevices types devs) = .ok domains)
    {name inst : String} (hinst : ldInst devices name = some inst) :
    domains.lookup inst = some (deviceName devices name) ∧ inst ≠ "" := by
  obtain ⟨heq, hne⟩ := importDomains_eq hdomains
  have hentries : domains = devs.map (domainEntry discoveredIED) := by
    rw [heq, List.nil_append, reconcileDevices, List.map_map]
    rfl
  obtain ⟨k, ld, hk, hname, -⟩ := ldInst_eq_some hinst
  obtain ⟨x, hx, hldx⟩ := forall₂_mem_right h.flip (List.mem_of_getElem? hk)
  have hxinst : x.attribute "inst" = inst := by
    rw [hldx.inst, hname, hinst]
    rfl
  constructor
  · rw [hentries]
    refine lookup_eq_some ⟨_, List.mem_map.mpr ⟨x, hx, rfl⟩, hxinst⟩ ?_
    intro e he hkey
    obtain ⟨y, hy, rfl⟩ := List.mem_map.mp he
    obtain ⟨ld', hld', hldy⟩ := forall₂_mem_right h hy
    have hyinst : y.attribute "inst" = inst := hkey
    obtain ⟨inst', hinst'⟩ := ldInst_isSome hld'
    rw [hldy.inst, hinst', Option.getD_some] at hyinst
    rw [hyinst] at hinst'
    rw [hldy.entry, ldInst_inj hinst' hinst]
  · rw [← hxinst]
    exact hne { x with children := x.children.map fun ln ↦ (reconcileNode types devs ln).1 }
      (List.mem_map.mpr ⟨x, hx, rfl⟩)

/-! ## Data sets -/

open Classical in
/-- The data sets that stay in the document. -/
noncomputable def keptDataSets (devices : List LogicalDevice) (dss : List DataSet) :
    List DataSet :=
  dss.filter fun ds ↦ Kept devices ds

/-- A data set after the import. -/
def restoredDataSet (devices : List LogicalDevice) (ds : DataSet) : DataSet where
  name := ds.name
  members := ds.members.map (restoredRef devices)

/-- What becomes of a data set in the document. -/
def documentDataSet (types devs : List Element) (devices : List LogicalDevice) (ds : DataSet) :
    Option Element :=
  ((exportMembers devices ds.members).toOption.map fun members ↦
    element "DataSet" [("name", ds.name)] members).bind (reconcileDataSet types devs)

theorem documentDataSet_eq_some {ds : DataSet} {x : Element} :
    documentDataSet types devs devices ds = some x ↔ ds.members ≠ [] ∧ ∃ ms',
      List.Forall₂ (ExportedMember types devs devices) ds.members ms' ∧
        x = element "DataSet" [("name", ds.name)] ms' := by
  rw [documentDataSet]
  have hcomp : (∃ ms', List.Forall₂ (ExportedMember types devs devices) ds.members ms' ∧
      x = element "DataSet" [("name", ds.name)] ms') ↔ ∃ ms, exportMembers devices ds.members = .ok ms ∧
        ∃ ms', resolveAll types devs ms = some ms' ∧ x = element "DataSet" [("name", ds.name)] ms' := by
    constructor
    · rintro ⟨ms', hms', rfl⟩
      obtain ⟨ms, hexp, hres⟩ := forall₂_comp_iff.mp hms'
      exact ⟨ms, exportMembers_eq_ok.mpr hexp, ms', resolveAll_eq_some.mpr hres, rfl⟩
    · rintro ⟨ms, hexp, ms', hres, rfl⟩
      exact ⟨ms', forall₂_comp_iff.mpr ⟨ms, exportMembers_eq_ok.mp hexp,
        resolveAll_eq_some.mp hres⟩, rfl⟩
  rw [hcomp]
  cases hexp : exportMembers devices ds.members with
  | error err =>
      constructor
      · intro h
        cases h
      · rintro ⟨-, ms, hms, -⟩
        cases hms
  | ok ms =>
      have hnil : ds.members = [] ↔ ms = [] := by
        have hall := exportMembers_eq_ok.mp hexp
        constructor
        · intro he
          rw [he, List.forall₂_nil_left_iff] at hall
          exact hall
        · rintro rfl
          exact List.forall₂_nil_right_iff.mp hall
      change reconcileDataSet types devs (element "DataSet" [("name", ds.name)] ms) = some x ↔ _
      rw [reconcileDataSet, children_element, ne_eq, hnil]
      by_cases hms : ms = []
      · rw [if_pos hms]
        constructor
        · intro h
          cases h
        · rintro ⟨hne, -⟩
          exact absurd hms hne
      · rw [if_neg hms, Option.map_eq_some_iff]
        constructor
        · rintro ⟨ms', hres, rfl⟩
          exact ⟨hms, ms, rfl, ms', hres, rfl⟩
        · rintro ⟨-, ms₁, hms₁, ms', hres, rfl⟩
          cases hms₁
          exact ⟨ms', hres, rfl⟩

/-- The data sets of a node of the document are those that stay, in their order. -/
theorem forall₂_dataSets
    (hkept : ∀ ds, Kept devices ds ↔ ds.members ≠ [] ∧ ∃ ms',
      List.Forall₂ (ExportedMember types devs devices) ds.members ms') (dss : List DataSet) :
    List.Forall₂ (fun ds x ↦ ∃ ms', List.Forall₂ (ExportedMember types devs devices) ds.members ms' ∧
        x = element "DataSet" [("name", ds.name)] ms')
      (keptDataSets devices dss)
      ((exportedDataSets devices dss).filterMap (reconcileDataSet types devs)) := by
  have hmap : (exportedDataSets devices dss).filterMap (reconcileDataSet types devs) =
      dss.filterMap (documentDataSet types devs devices) := by
    rw [exportedDataSets, List.filterMap_filterMap]
    rfl
  rw [hmap]
  induction dss with
  | nil => exact .nil
  | cons ds dss ih =>
      rw [exportedDataSets, List.filterMap_filterMap] at ih
      by_cases hds : Kept devices ds
      · obtain ⟨hne, ms', hms'⟩ := (hkept ds).mp hds
        have hsome := documentDataSet_eq_some.mpr ⟨hne, ms', hms', rfl⟩
        rw [keptDataSets, List.filter_cons_of_pos (by simpa using hds), List.filterMap_cons_some hsome]
        exact .cons ⟨ms', hms', rfl⟩ (ih rfl)
      · have hnone : documentDataSet types devs devices ds = none := by
          cases hx : documentDataSet types devs devices ds with
          | none => rfl
          | some x =>
              obtain ⟨hne, ms', hms', -⟩ := documentDataSet_eq_some.mp hx
              exact absurd ((hkept ds).mpr ⟨hne, ms', hms'⟩) hds
        rw [keptDataSets, List.filter_cons_of_neg (by simpa using hds), List.filterMap_cons_none hnone]
        exact ih rfl

theorem eq_map_of_forall₂ {α β : Type} {f : α → β} {xs : List α} {ys : List β}
    (h : List.Forall₂ (fun x y ↦ y = f x) xs ys) : ys = xs.map f := by
  induction h with
  | nil => rfl
  | cons hy _ ih => rw [hy, ih, List.map_cons]

/-- All objects of all nodes of a document are read back. -/
def AllRead (table : TypeTable) (devs : List Element) : Prop :=
  ∀ x ∈ documentNodes devs, ∃ out,
    (table.objects [] [] ((table.get (x.2.attribute "lnType")).childrenNamed "DO")).outcome = .ok out

/-- An exported member is read back. -/
theorem importMember_exported {table : TypeTable} {domains : List (String × String)}
    (hpart : Templates types roots lo hi) (htable : ∀ d ∈ types, table.get (d.attribute "id") = d)
    (hrel : List.Forall₂ (NodeRel types devices) (modelNodes devices) (documentNodes devs))
    (hread : AllRead table devs)
    (hdomains : ∀ name inst, ldInst devices name = some inst →
      domains.lookup inst = some (deviceName devices name) ∧ inst ≠ "")
    {ref text current set : String} {m' : Element}
    (hexported : ExportedMember types devs devices ref m')
    (h : importMember domains current set m' = .ok text) : text = restoredRef devices ref := by
  obtain ⟨m, hm, hres⟩ := hexported
  obtain ⟨r, hr, hexp, hpath⟩ := exportMember_exports hm
  obtain ⟨hpne, -⟩ := memberRef_path hr
  rcases resolve_cases hpart hexp hpath hpne hrel with
    ⟨hnone, -⟩ | ⟨hsome, -, -⟩ | ⟨a, x, objects, attrs, hsome, -, -, hx, hax, -, -, -, hwalk⟩
  · rw [hnone] at hres
    cases hres
  · rw [hsome] at hres
    cases hres
    exact importMember_divide hdomains hr hexp ⟨List.append_nil _, by simp⟩ h
  · rw [hsome] at hres
    cases hres
    have hdef := hax.node.defines hpart
    obtain ⟨out, hout⟩ := hread x hx
    have hget : table.get (x.2.attribute "lnType") = typeOf types (x.2.attribute "lnType") := by
      have hid := htable _ hdef.1.mem
      rwa [(Prod.mk.inj hdef.2).2] at hid
    rw [hget] at hout
    exact importMember_divide hdomains hr hexp (hdef.1.divides hpart htable hout hpne hwalk) h

/-- What comes back of a logical node. -/
structure RestoredNode (devices : List LogicalDevice) (ln ln' : LogicalNode) : Prop where
  name : ln'.name = ln.name
  groups : Groups (fun fc ↦ restoredObjects fc (gather (dataGroups ln))) ln'.groups
  dataSets : ln'.dataSets = (keptDataSets devices ln.dataSets).map (restoredDataSet devices)

/-- What comes back of a logical device: its nodes, `LLN0` first. -/
structure RestoredDevice (devices : List LogicalDevice) (ld ld' : LogicalDevice) : Prop where
  name : ld'.name = deviceName devices ld.name
  nodes : List.Forall₂ (RestoredNode devices) (orderedNodes ld) ld'.nodes

theorem DescribesNode.sclLNName {ln : LogicalNode} {x : Element}
    (h : DescribesNode types devices ln x) : sclLNName x = ln.name := by
  rw [Scl.sclLNName, h.name]
  by_cases hlln0 : ln.name = "LLN0"
  · rw [if_pos hlln0, if_pos rfl, hlln0]
  · rw [if_neg hlln0, if_neg (by decide)]
    exact splitLN_append h.split

theorem DescribesNode.isNode {ln : LogicalNode} {x : Element}
    (h : DescribesNode types devices ln x) : isNode x = true := by
  rw [Scl.isNode, h.name]
  split_ifs <;> rfl

/-- The data sets of a logical node are read back. -/
theorem dataSets_restored {domains : List (String × String)} {ldInst : String}
    {dss : List DataSet} {xs : List Element} {dss' : List DataSet}
    (hmember : ∀ ref m' set text, ExportedMember types devs devices ref m' →
      importMember domains ldInst set m' = .ok text → text = restoredRef devices ref)
    (h : List.Forall₂ (fun ds x ↦ ∃ ms',
      List.Forall₂ (ExportedMember types devs devices) ds.members ms' ∧
        x = element "DataSet" [("name", ds.name)] ms') dss xs)
    (hok : List.Forall₂ (fun x ds' ↦ importDataSet domains ldInst x = .ok ds') xs dss') :
    dss' = dss.map (restoredDataSet devices) := by
  apply eq_map_of_forall₂
  refine (forall₂_comp_iff.mpr ⟨xs, h, hok⟩).imp ?_
  rintro ds ds' ⟨x, ⟨ms', hms', rfl⟩, hds'⟩
  obtain ⟨members, hmembers, hds'⟩ := except_bind_eq_ok.mp hds'
  cases hds'
  have hfcda : (element "DataSet" [("name", ds.name)] ms').childrenNamed "FCDA" = ms' := by
    rw [Element.childrenNamed, children_element, List.filter_eq_self]
    intro m' hm'
    obtain ⟨ref, -, m, hm, hres⟩ := forall₂_mem_right hms' hm'
    obtain ⟨r, -, hexp, -⟩ := exportMember_exports hm
    rw [resolve_eq, Option.bind_eq_some_iff] at hres
    obtain ⟨d, -, hres⟩ := hres
    obtain ⟨p, -, rfl⟩ := Option.map_eq_some_iff.mp hres
    rw [(hexp.divide p.1 p.2).name]
    rfl
  rw [hfcda] at hmembers
  have hall := forall₂_comp_iff.mpr ⟨ms', hms', forall₂_of_mapM hmembers⟩
  rw [restoredDataSet]
  congr 1
  refine eq_map_of_forall₂ (hall.imp ?_)
  rintro ref text ⟨m', hm', htext⟩
  exact hmember ref m' _ text hm' htext

/-- The name of a type's node is that of the logical node. -/
theorem DescribesNode.get {table : TypeTable}
    (htable : ∀ d ∈ types, table.get (d.attribute "id") = d) {ln : LogicalNode} {x : Element}
    (h : DescribesNode types devices ln x) :
    DescribesObjects types (gather (dataGroups ln))
      ((table.get (x.attribute "lnType")).childrenNamed "DO") := by
  obtain ⟨d, hd, -, hid, hobjects⟩ := h.exists_type
  have hdo : d.childrenNamed "DO" = d.children := by
    rw [Element.childrenNamed, List.filter_eq_self]
    intro c hc
    rw [hobjects.name_eq c hc]
    rfl
  rw [hid, htable d hd, hdo]
  exact hobjects

/-- The nodes of a device of the document are read one after another. -/
theorem DeviceRead.nodes_outcome {table : TypeTable} {domains : List (String × String)}
    {connection : Element} {ld ld' : LogicalDevice} {x : Element}
    (h : DescribesDevice types devices ld x)
    (hread : DeviceRead table domains connection
      { x with children := x.children.map fun y ↦ (reconcileNode types devs y).1 } ld') :
    List.Forall₂ (fun y ln' ↦ (table.node (reconcileNode types devs y).1 (sclLNName y) ld'.name
      domains connection (x.attribute "inst")).outcome = .ok ln') x.children ld'.nodes := by
  have hnodes := hread.nodes
  have hfilter : (x.children.map fun y ↦ (reconcileNode types devs y).1).filter isNode =
      x.children.map fun y ↦ (reconcileNode types devs y).1 := by
    rw [List.filter_eq_self]
    intro y' hy'
    obtain ⟨y, hy, rfl⟩ := List.mem_map.mp hy'
    obtain ⟨ln, -, hln⟩ := forall₂_mem_right h.nodes hy
    exact hln.isNode
  dsimp only at hnodes
  rw [hfilter, List.forall₂_map_left_iff] at hnodes
  exact hnodes

theorem DeviceRead.nodes_read {table : TypeTable} {domains : List (String × String)}
    {connection : Element} {ld ld' : LogicalDevice} {x : Element}
    (h : DescribesDevice types devices ld x)
    (hread : DeviceRead table domains connection
      { x with children := x.children.map fun y ↦ (reconcileNode types devs y).1 } ld') :
    List.Forall₂ (fun y ln' ↦ NodeRead table domains (x.attribute "inst")
      (reconcileNode types devs y).1 (sclLNName y) ln') x.children ld'.nodes :=
  (hread.nodes_outcome h).imp fun _ ln' hln' ↦ yields_node _ _ _ _ _ _ _ ln' hln'

/-- **A logical node comes back.** -/
theorem NodeRead.restored {table : TypeTable} {domains : List (String × String)} {ldInst : String}
    (htable : ∀ d ∈ types, table.get (d.attribute "id") = d)
    (hkept : ∀ ds, Kept devices ds ↔ ds.members ≠ [] ∧ ∃ ms',
      List.Forall₂ (ExportedMember types devs devices) ds.members ms')
    (hmember : ∀ ref m' set text, ExportedMember types devs devices ref m' →
      importMember domains ldInst set m' = .ok text → text = restoredRef devices ref)
    {ln ln' : LogicalNode} {x : Element} (h : DescribesNode types devices ln x)
    (hread : NodeRead table domains ldInst (reconcileNode types devs x).1 ln.name ln') :
    RestoredNode devices ln ln' where
  name := hread.name
  groups := ((h.get htable).yields htable groups_nil [] ln'.groups hread.groups).congr
    fun fc ↦ List.nil_append _
  dataSets := by
    have hok := forall₂_of_mapM hread.dataSets
    rw [childrenNamed_reconcileNode h] at hok
    exact dataSets_restored hmember (forall₂_dataSets hkept ln.dataSets) hok

end Document

/-- What is read of the logical devices of a document that was exported from a model. -/
theorem restored_of_exportICD {parseIP : String → Option String} {model model' : Model}
    {doc : Element} {ws : List String} (h : exportICD model = (.ok doc, ws))
    (himport : importICD parseIP doc = .ok model') :
    List.Forall₂ (RestoredDevice model.devices) model.devices model'.devices := by
  obtain ⟨types, devs, serial, htypes, hdevs, hpart, hdesc⟩ := exportICD_run h
  have hrel := nodeRel_documentNodes (List.Subset.refl _) hdesc
  obtain ⟨ds, gses, ts, rfl⟩ := exportICD_document h
  obtain ⟨table, domains, htable, hdomains, hread, -⟩ := importICD_exportDocument himport
  replace hread := yields_devices _ _ _ _ _ hread
  rw [documentTypes_exportDocument] at htypes
  subst htypes
  rw [hdevs] at hdomains hread
  have hget : ∀ d ∈ ts, table.get (d.attribute "id") = d := fun d hd ↦
    importTypes_get htable hpart.nodup hd
  rw [reconcileDevices, List.forall₂_map_left_iff] at hread
  have hall : AllRead table devs := by
    rintro ⟨x, y⟩ hxy
    obtain ⟨x', hx, hxy⟩ := List.mem_flatMap.mp hxy
    obtain ⟨y', hy, he⟩ := List.mem_map.mp hxy
    cases he
    obtain ⟨ld, -, hld⟩ := forall₂_mem_right hdesc hx
    obtain ⟨ld', -, hld'⟩ := forall₂_mem_right hread.flip hx
    obtain ⟨ln', -, hln'⟩ := forall₂_mem_right (hld'.nodes_read hld).flip hy
    exact ⟨_, hln'.groups⟩
  have hlookup : ∀ name inst, ldInst model.devices name = some inst →
      domains.lookup inst = some (deviceName model.devices name) ∧ inst ≠ "" :=
    fun _ _ ↦ domains_lookup hdesc hdomains
  refine (forall₂_comp_iff.mpr ⟨devs, forall₂_and_mem hdesc, hread⟩).imp ?_
  rintro ld ld' ⟨x, ⟨hld, hx⟩, hld'⟩
  constructor
  · obtain ⟨inst, hinst⟩ := ldInst_isSome hld
    have hxinst : x.attribute "inst" = inst := by
      rw [hx.inst, hinst]
      rfl
    have hname := hld'.name
    change ld'.name = (domains.lookup (x.attribute "inst")).getD "" at hname
    rw [hname, hxinst, (hlookup ld.name inst hinst).1]
    rfl
  · refine (forall₂_comp_iff.mpr ⟨x.children, hx.nodes, hld'.nodes_read hx⟩).imp ?_
    rintro ln ln' ⟨y, hy, hln'⟩
    rw [hy.sclLNName] at hln'
    refine hln'.restored hget (fun ds ↦ kept_iff hpart hrel) ?_ hy
    intro ref m' set text hexported htext
    exact importMember_exported hpart hget hrel hall hlookup hexported htext

/-- **A model that is exported comes back.**  If a document that was exported from a model is
imported, the logical devices and nodes are those of the model.  For each functional constraint a
node has one group with the objects that could be converted, and each object has the attributes that
were merged under the constraint; the data sets are those that were kept, with the same members.
The address is the one that was exported. -/
theorem importICD_exportICD {parseIP : String → Option String} {model model' : Model}
    {doc : Element} {ws : List String} (h : exportICD model = (.ok doc, ws))
    (himport : importICD parseIP doc = .ok model') :
    List.Forall₂ (RestoredDevice model.devices) model.devices model'.devices ∧
      parseIP (Publisher.trimSpace model.ip) = some model'.ip := by
  refine ⟨restored_of_exportICD h himport, ?_⟩
  obtain ⟨ds, gses, types, rfl⟩ := exportICD_document h
  obtain ⟨-, -, -, -, -, hip⟩ := importICD_exportDocument himport
  exact hip

/-- A structure. -/
def composite (name : String) (children : List Typ) : Typ := { name, kind := "STRUCTURE", children }

/-- The magnitude of a measured value. -/
def feederMag : Typ := composite "mag" [{ name := "f", kind := "FLOAT", size := 32 }]

def feederQuality : Typ := { name := "q", kind := "BIT_STRING", size := -13 }

/-- The dead band of a measured value. -/
def feederDeadBand : Typ := { name := "db", kind := "UNSIGNED", size := 32 }

/-- The sub-object of a phase. -/
def feederPhase (name : String) : Typ := composite name [composite "cVal" [feederMag], feederQuality]

def feederReport (name dataSet : String) (buffered : Bool) : ReportControl where
  name
  reportID := "feeder"
  dataSet
  buffered
  confRev := 3
  bufferTime := 100
  integrityPeriod := 60000
  triggers := ⟨true, true, false, true, true⟩
  options := ⟨true, true, true, false, true, false, true, true⟩

/-- A measured value with its dead band and a current with its phases, a data set, the control blocks
that send it, two reports without a data set, one whose data set does not exist, and settings. -/
def feederNode : LogicalNode where
  name := "LLN0"
  groups := [
    composite "MX" [composite "Amp" [feederMag, feederQuality],
      composite "A" [feederPhase "phsA", feederPhase "phsB", feederPhase "phsC"]],
    composite "CF" [composite "Amp" [feederDeadBand],
      composite "A" [composite "phsA" [feederDeadBand]]]]
  dataSets := [{ name := "ds1", members :=
    ["IED1LD0/LLN0.Amp.mag.f[MX]", "IED1LD0/LLN0.A.phsA.cVal.mag.f[MX]"] }]
  goose := [{ name := "gcb1", dataSet := "IED1LD0/LLN0$ds1", goID := "feeder",
              mac := "01-0C-CD-01-00-01", confRev := 3, appID := 4097, vlan := 5,
              priority := 4, minTime := 10 }]
  reports := [feederReport "rcb1" "IED1LD0/LLN0$ds1" true, feederReport "rcb2" "" false,
    feederReport "rcb3" "IED1LD0/LLN0$" false, feederReport "rcb4" "IED1LD0/LLN0$ds2" false]
  settings := some ⟨4, 1⟩

def feederModel : Model where
  ip := "192.0.2.1"
  devices := [{ name := "IED1LD0", nodes := [feederNode] }]

/-- The reports of a logical node with their data sets, its GOOSE control blocks and its settings. -/
def LogicalNode.controlNames (ln : LogicalNode) :
    List (String × String) × List String × Option UInt32 :=
  (ln.reports.map fun r ↦ (r.name, r.dataSet), ln.goose.map (·.name),
    ln.settings.map (·.numGroups))

/-- The document of the model is accepted. -/
theorem exists_import_feederModel :
    ∃ doc ws model', exportICD feederModel = (.ok doc, ws) ∧ importICD some doc = .ok model' ∧
      (model'.devices.flatMap (·.nodes)).map LogicalNode.controlNames =
        [([("rcb1", "IED1LD0/LLN0.ds1"), ("rcb2", ""), ("rcb3", "")], ["gcb1"], some 4)] := by
  have hok : (((exportICD feederModel).1.toOption.bind fun doc ↦
      (importICD some doc).toOption).map fun model' ↦
        (model'.devices.flatMap (·.nodes)).map LogicalNode.controlNames) =
      some [([("rcb1", "IED1LD0/LLN0.ds1"), ("rcb2", ""), ("rcb3", "")], ["gcb1"], some 4)] := by
    decide +kernel
  obtain ⟨model', hmodel, hcontrols⟩ := Option.map_eq_some_iff.mp hok
  obtain ⟨doc, hdoc, himport⟩ := Option.bind_eq_some_iff.mp hmodel
  rcases hrun : exportICD feederModel with ⟨result, ws⟩
  rw [hrun] at hdoc
  obtain rfl : result = .ok doc := eq_ok_of_toOption hdoc
  exact ⟨doc, ws, model', rfl, eq_ok_of_toOption himport, hcontrols⟩

theorem importICD_exportICD_feeder :
    ∃ doc ws model', exportICD feederModel = (.ok doc, ws) ∧ importICD some doc = .ok model' ∧
      List.Forall₂ (RestoredDevice feederModel.devices) feederModel.devices model'.devices ∧
      some (Publisher.trimSpace feederModel.ip) = some model'.ip := by
  obtain ⟨doc, ws, model', h, himport, -⟩ := exists_import_feederModel
  exact ⟨doc, ws, model', h, himport, importICD_exportICD h himport⟩

end ProcessBus.Scl
