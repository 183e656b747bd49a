import ProcessBus.Scl.Paths

/-!
# References of members

A member of a data set is a text with a device, a node, a path and a constraint.  `exportMember`
makes an element of it, and `resolve` looks for its node in the document and divides its path into
object and attribute.  Whether it resolves is a question about the model (`resolve_cases`).
-/

namespace ProcessBus.Scl

/-! ## References of members -/

/-- The reference of a member, taken apart: device, node, path and constraint. -/
structure MemberRef where
  ld : String
  ln : String
  path : List String
  fc : String

/-- The names of a path.  An empty name behind the first is lost, since it leaves `daName` empty. -/
def memberPath (data : String) : List String :=
  if (split '.' data).tail = [""] then [(split '.' data).headD ""] else split '.' data

/-- The parts of a reference. -/
def memberRef (ref : String) : Option MemberRef :=
  match cutFC ref with
  | none => none
  | some (path, fc) =>
      match cut '/' path with
      | none => none
      | some (ld, path) =>
          match cut '.' path with
          | none => none
          | some (ln, data) => some ⟨ld, ln, memberPath data, fc⟩

/-- The path of an exported member, as `resolve` reads it. -/
def fcdaPath (m : Element) : List String :=
  split '.' (m.attribute "doName") ++
    (if m.attribute "daName" ≠ "" then split '.' (m.attribute "daName") else [])

/-- An exported member names the device, the node and the constraint of its reference. -/
structure Exports (devices : List LogicalDevice) (r : MemberRef) (m : Element) : Prop where
  name : m.name = "FCDA"
  ldInst : ldInst devices r.ld = some (m.attribute "ldInst")
  split : splitLN r.ln =
    .ok (m.attribute "prefix", m.attribute "lnClass", m.attribute "lnInst")
  fc : m.attribute "fc" = r.fc

theorem fcdaPath_split (data : String) :
    split '.' ((split '.' data).headD "") ++
      (if join '.' (split '.' data).tail ≠ "" then split '.' (join '.' (split '.' data).tail)
        else []) = memberPath data := by
  obtain ⟨name, names, hsplit⟩ := List.exists_cons_of_ne_nil (split_ne_nil '.' data)
  have hfree : ∀ part ∈ name :: names, '.' ∉ part.toList := by
    intro part hpart
    rw [← hsplit] at hpart
    exact not_mem_of_mem_split hpart
  have hname : split '.' name = [name] := by
    have h : split '.' (join '.' [name]) = [name] := split_join (by simp) fun part hpart ↦
      hfree part (List.mem_singleton.mp hpart ▸ List.mem_cons_self)
    simpa [join] using h
  rw [memberPath, hsplit, List.headD_cons, List.tail_cons, hname]
  cases names with
  | nil => simp [join]
  | cons name' names =>
      have hjoin : split '.' (join '.' (name' :: names)) = name' :: names :=
        split_join (by simp) fun part hpart ↦ hfree part (List.mem_cons_of_mem _ hpart)
      by_cases hempty : join '.' (name' :: names) = ""
      · have hone : name' :: names = [""] := by
          rw [← hjoin, hempty]
          rfl
        rw [if_neg (not_not.mpr hempty), if_pos hone]
        rfl
      · have hne : name' :: names ≠ [""] := by
          intro he
          rw [he] at hempty
          exact hempty rfl
        rw [if_pos hempty, if_neg hne, hjoin]
        rfl

theorem fcda_exports {devices : List LogicalDevice} {ld ln inst pre cls lnInst : String}
    (hinst : ldInst devices ld = some inst) (hsplit : splitLN ln = .ok (pre, cls, lnInst))
    {data fc : String} {m : Element} (hm : m = element "FCDA"
      ([("ldInst", inst), ("lnClass", cls), ("lnInst", lnInst),
        ("doName", (split '.' data).headD ""), ("fc", fc)] ++
        (if pre ≠ "" then [("prefix", pre)] else []) ++
        (if join '.' (split '.' data).tail ≠ "" then [("daName", join '.' (split '.' data).tail)]
          else []))) :
    Exports devices ⟨ld, ln, memberPath data, fc⟩ m ∧ fcdaPath m = memberPath data := by
  have hpre : m.attribute "prefix" = pre := by
    by_cases hpre : pre = "" <;> by_cases hda : join '.' (split '.' data).tail = "" <;>
      simp [hm, hpre, hda, element, Element.attribute, List.lookup]
  have hda : m.attribute "daName" = join '.' (split '.' data).tail := by
    by_cases hpre : pre = "" <;> by_cases hda : join '.' (split '.' data).tail = "" <;>
      simp [hm, hpre, hda, element, Element.attribute, List.lookup]
  have hdo : m.attribute "doName" = (split '.' data).headD "" := by
    rw [hm]
    rfl
  constructor
  · refine ⟨by rw [hm]; rfl, ?_, ?_, by rw [hm]; rfl⟩
    · rw [hinst, hm]
      rfl
    · rw [hpre, hsplit, hm]
      rfl
  · rw [fcdaPath, hda, hdo]
    exact fcdaPath_split data

theorem exportMember_exports {devices : List LogicalDevice} {ref : String} {m : Element}
    (h : exportMember devices ref = .ok m) :
    ∃ r, memberRef ref = some r ∧ Exports devices r m ∧ fcdaPath m = r.path := by
  rw [exportMember] at h
  rw [memberRef]
  cases hfc : cutFC ref with
  | none =>
      rw [hfc] at h
      cases h
  | some p =>
      obtain ⟨path, fc⟩ := p
      rw [hfc] at h
      dsimp only at h ⊢
      cases hld : cut '/' path with
      | none =>
          rw [hld] at h
          cases h
      | some p =>
          obtain ⟨ld, path'⟩ := p
          rw [hld] at h
          dsimp only [Option.bind_some] at h ⊢
          cases hinst : ldInst devices ld with
          | none =>
              rw [hinst] at h
              cases h
          | some inst =>
              rw [hinst] at h
              dsimp only [Option.map_some] at h
              cases hln : cut '.' path' with
              | none =>
                  rw [hln] at h
                  cases h
              | some q =>
                  obtain ⟨ln, data⟩ := q
                  rw [hln] at h
                  dsimp only at h ⊢
                  cases hsplit : splitLN ln with
                  | error err =>
                      rw [hsplit] at h
                      cases h
                  | ok s =>
                      obtain ⟨pre, cls, lnInst⟩ := s
                      rw [hsplit] at h
                      dsimp only at h
                      by_cases hparen : (data.toList.any fun c ↦ c = '(' || c = ')') = true
                      · rw [if_pos hparen] at h
                        cases h
                      · rw [if_neg hparen, Except.ok.injEq] at h
                        exact ⟨_, rfl, fcda_exports hinst hsplit h.symm⟩

/-! ## Devices -/

/-- The instance of a device: `LD` and the number of the last device with its name. -/
theorem ldInst_eq_some {devices : List LogicalDevice} {name inst : String}
    (h : ldInst devices name = some inst) :
    ∃ k ld, devices[k]? = some ld ∧ ld.name = name ∧ inst = "LD" ++ toString (k + 1) := by
  rw [ldInst, Option.map_eq_some_iff] at h
  obtain ⟨⟨ld, k⟩, hfind, rfl⟩ := h
  have hmem := List.mem_reverse.mp (List.mem_of_find?_eq_some hfind)
  have hname : ld.name = name := by simpa using List.find?_some hfind
  exact ⟨k, ld, List.mem_zipIdx_iff_getElem?.mp hmem, hname, rfl⟩

theorem ldInst_isSome {devices : List LogicalDevice} {ld : LogicalDevice} (h : ld ∈ devices) :
    ∃ inst, ldInst devices ld.name = some inst := by
  obtain ⟨k, hk⟩ := List.mem_iff_getElem?.mp h
  have hsome : (devices.zipIdx.reverse.find? (·.1.name == ld.name)).isSome := by
    rw [List.find?_isSome]
    exact ⟨(ld, k), List.mem_reverse.mpr (List.mem_zipIdx_iff_getElem?.mpr hk), by simp⟩
  obtain ⟨p, hp⟩ := Option.isSome_iff_exists.mp hsome
  exact ⟨_, by rw [ldInst, hp]; rfl⟩

theorem instName_injective : Function.Injective fun k : ℕ ↦ "LD" ++ toString (k + 1) := by
  intro m n h
  have hid : typeID (m + 1) = typeID (n + 1) := by
    rw [typeID, typeID]
    simp only [← String.toList_inj, String.toList_append, List.append_cancel_left_eq] at h ⊢
    exact h
  exact Nat.succ_injective (typeID_injective hid)

/-- Different names have different instances. -/
theorem ldInst_inj {devices : List LogicalDevice} {name name' inst : String}
    (h : ldInst devices name = some inst) (h' : ldInst devices name' = some inst) :
    name = name' := by
  obtain ⟨k, ld, hld, rfl, hinst⟩ := ldInst_eq_some h
  obtain ⟨k', ld', hld', rfl, hinst'⟩ := ldInst_eq_some h'
  obtain rfl := instName_injective (hinst.symm.trans hinst')
  rw [hld] at hld'
  cases hld'
  rfl

theorem slash_not_mem_ldInst {devices : List LogicalDevice} {name inst : String}
    (h : ldInst devices name = some inst) : '/' ∉ inst.toList := by
  obtain ⟨k, ld, -, -, rfl⟩ := ldInst_eq_some h
  rw [String.toList_append, Nat.toString_eq_repr, Nat.toList_repr, List.mem_append]
  rintro (hmem | hmem)
  · revert hmem
    decide
  · exact absurd (Nat.isDigit_of_mem_toDigits (by decide) (by decide) hmem) (by decide)

theorem append_slash_inj {a a' b b' : String} (ha : '/' ∉ a.toList) (ha' : '/' ∉ a'.toList)
    (h : a ++ "/" ++ b = a' ++ "/" ++ b') : a = a' ∧ b = b' := by
  have htake : ∀ cs cs' : List Char, '/' ∉ cs → (cs ++ '/' :: cs').takeWhile (· ≠ '/') = cs := by
    intro cs cs' hcs
    rw [List.takeWhile_append_of_pos]
    · simp
    · intro c hc
      simp only [decide_eq_true_eq]
      rintro rfl
      exact hcs hc
  simp only [← String.toList_inj, String.toList_append] at h
  have hlist : a.toList ++ '/' :: b.toList = a'.toList ++ '/' :: b'.toList := by simpa using h
  have haa : a.toList = a'.toList := by
    rw [← htake a.toList b.toList ha, hlist, htake a'.toList b'.toList ha']
  rw [haa, List.append_cancel_left_eq, List.cons_inj_right] at hlist
  exact ⟨String.toList_inj.mp haa, String.toList_inj.mp hlist⟩

/-- The logical nodes of a model with their devices, in the order of the document. -/
def modelNodes (devices : List LogicalDevice) : List (LogicalDevice × LogicalNode) :=
  devices.flatMap fun ld ↦ (orderedNodes ld).map (ld, ·)

/-- The logical nodes of a document with their devices. -/
def documentNodes (devices : List Element) : List (Element × Element) :=
  devices.flatMap fun ld ↦ ld.children.map (ld, ·)

/-- The node that a reference names: the last one, if there are several. -/
def lastNode (devices : List LogicalDevice) (ld ln : String) : Option LogicalNode :=
  ((modelNodes devices).reverse.find? fun n ↦ n.1.name == ld && n.2.name == ln).map (·.2)

/-- A node of the document describes a node of the model. -/
structure NodeRel (types : List Element) (devices : List LogicalDevice)
    (a : LogicalDevice × LogicalNode) (x : Element × Element) : Prop where
  inst : ldInst devices a.1.name = some (x.1.attribute "inst")
  node : DescribesNode types devices a.2 x.2

section Nodes

variable {types : List Element} {roots : List (String × String)} {lo hi : ℕ}
  {devices : List LogicalDevice} {devs : List Element}

theorem nodeRel_documentNodes {lds : List LogicalDevice} (hsub : lds ⊆ devices)
    (h : List.Forall₂ (DescribesDevice types devices) lds devs) :
    List.Forall₂ (NodeRel types devices) (modelNodes lds) (documentNodes devs) := by
  induction h with
  | nil => exact .nil
  | @cons ld x lds xs hx _ ih =>
      rw [modelNodes, documentNodes, List.flatMap_cons, List.flatMap_cons]
      refine List.rel_append ?_ (ih fun y hy ↦ hsub (List.mem_cons_of_mem _ hy))
      rw [List.forall₂_map_left_iff, List.forall₂_map_right_iff]
      refine hx.nodes.imp fun ln y hy ↦ ⟨?_, hy⟩
      obtain ⟨inst, hinst⟩ := ldInst_isSome (hsub List.mem_cons_self)
      rw [hinst, hx.inst, hinst]
      rfl

theorem DescribesNode.defines (hpart : Templates types roots lo hi) {ln : LogicalNode} {x : Element}
    (h : DescribesNode types devices ln x) :
    DefinesNode types ln (typeOf types (x.attribute "lnType")) ∧
      identity (typeOf types (x.attribute "lnType")) = ("LNodeType", x.attribute "lnType") := by
  obtain ⟨d, hd, hname, hid, hobj⟩ := h.exists_type
  rw [hid, typeOf_eq hpart hd]
  exact ⟨⟨hd, hname, hobj⟩, by rw [identity, hname]⟩

/-- A node of the document is the one a member names if the names agree. -/
theorem NodeRel.matches_iff {r : MemberRef} {m : Element} (hm : Exports devices r m)
    {a : LogicalDevice × LogicalNode} {x : Element × Element} (h : NodeRel types devices a x) :
    (x.1.attribute "inst" = m.attribute "ldInst" ∧ x.2.attribute "prefix" = m.attribute "prefix" ∧
      x.2.attribute "lnClass" = m.attribute "lnClass" ∧
      x.2.attribute "inst" = m.attribute "lnInst") ↔
      a.1.name = r.ld ∧ a.2.name = r.ln := by
  constructor
  · rintro ⟨hinst, hpre, hcls, hlnInst⟩
    refine ⟨ldInst_inj h.inst (hinst ▸ hm.ldInst), ?_⟩
    rw [← splitLN_append h.node.split, ← splitLN_append hm.split, hpre, hcls, hlnInst]
  · rintro ⟨hld, hln⟩
    have hinst := h.inst
    rw [hld, hm.ldInst] at hinst
    have hsplit := h.node.split
    rw [hln, hm.split, Except.ok.injEq, Prod.mk.injEq, Prod.mk.injEq] at hsplit
    exact ⟨(Option.some.inj hinst).symm, hsplit.1.symm, hsplit.2.1.symm, hsplit.2.2.symm⟩

theorem nodeType_eq (types devs : List Element) (key : String) :
    nodeType types devs key =
      ((documentNodes devs).reverse.find? fun n ↦
        n.1.attribute "inst" ++ "/" ++ nodeName n.2 "inst" == key).map fun n ↦
          typeOf types (n.2.attribute "lnType") := by
  have hmap : (devs.flatMap fun ld ↦ ld.children.map fun ln ↦
      (ld.attribute "inst" ++ "/" ++ nodeName ln "inst", typeOf types (ln.attribute "lnType"))) =
      (documentNodes devs).map fun n ↦ (n.1.attribute "inst" ++ "/" ++ nodeName n.2 "inst",
        typeOf types (n.2.attribute "lnType")) := by
    rw [documentNodes, List.map_flatMap]
    simp only [List.map_map]
    rfl
  rw [nodeType, hmap, lastNamed, ← List.map_reverse, List.find?_map, Option.map_map]
  rfl

/-- The key of a node is that of a member if the names agree. -/
theorem NodeRel.key_eq {r : MemberRef} {m : Element} (hm : Exports devices r m)
    {a : LogicalDevice × LogicalNode} {x : Element × Element} (h : NodeRel types devices a x) :
    (a.1.name == r.ld && a.2.name == r.ln) =
      (x.1.attribute "inst" ++ "/" ++ nodeName x.2 "inst" ==
        m.attribute "ldInst" ++ "/" ++ nodeName m "lnInst") := by
  have hx : nodeName x.2 "inst" = a.2.name := splitLN_append h.node.split
  have hr : nodeName m "lnInst" = r.ln := splitLN_append hm.split
  rw [hx, hr, Bool.eq_iff_iff, Bool.and_eq_true, beq_iff_eq, beq_iff_eq, beq_iff_eq]
  constructor
  · rintro ⟨hld, hln⟩
    have hinst := h.inst
    rw [hld, hm.ldInst] at hinst
    rw [hln, ← Option.some.inj hinst]
  · intro he
    obtain ⟨hinst, hln⟩ := append_slash_inj (slash_not_mem_ldInst h.inst)
      (slash_not_mem_ldInst hm.ldInst) he
    exact ⟨ldInst_inj h.inst (hinst ▸ hm.ldInst), hln⟩

/-- The node that a member names, in the model and in the document. -/
theorem nodeType_cases {r : MemberRef} {m : Element} (hm : Exports devices r m)
    (h : List.Forall₂ (NodeRel types devices) (modelNodes devices) (documentNodes devs)) :
    (lastNode devices r.ld r.ln = none ∧
        nodeType types devs (m.attribute "ldInst" ++ "/" ++ nodeName m "lnInst") = none) ∨
      ∃ a x, x ∈ documentNodes devs ∧ NodeRel types devices a x ∧
        lastNode devices r.ld r.ln = some a.2 ∧
        nodeType types devs (m.attribute "ldInst" ++ "/" ++ nodeName m "lnInst") =
          some (typeOf types (x.2.attribute "lnType")) ∧ a.1.name = r.ld ∧ a.2.name = r.ln := by
  rw [nodeType_eq, lastNode]
  rcases forall₂_find? (p := fun n ↦ n.1.name == r.ld && n.2.name == r.ln)
    (q := fun n ↦ n.1.attribute "inst" ++ "/" ++ nodeName n.2 "inst" ==
      m.attribute "ldInst" ++ "/" ++ nodeName m "lnInst")
    (List.forall₂_reverse_iff.mpr h) fun a _ x hx ↦ hx.key_eq hm with
    ⟨ha, hx⟩ | ⟨a, -, x, ha, hx, hrel⟩
  · rw [ha, hx]
    exact .inl ⟨rfl, rfl⟩
  · rw [ha, hx]
    have hnames := List.find?_some ha
    rw [Bool.and_eq_true, beq_iff_eq, beq_iff_eq] at hnames
    exact .inr ⟨a, x, List.mem_reverse.mp (List.mem_of_find?_eq_some hx), hrel, rfl, rfl, hnames⟩

/-- A reference resolves in the node it names. -/
def ResolvesIn (devices : List LogicalDevice) (r : MemberRef) : Prop :=
  ∃ ln, lastNode devices r.ld r.ln = some ln ∧ Resolves ln r.path r.fc

/-- A reference leads to a whole object of the node it names. -/
def NamesObject (devices : List LogicalDevice) (r : MemberRef) : Prop :=
  ∃ ln, lastNode devices r.ld r.ln = some ln ∧ ∃ groups, Finds ln r.path (.object groups)

/-- A member after `resolve`: its path is divided into object and attribute. -/
def divide (m : Element) (objects attrs : List String) : Element :=
  let m := m.setAttribute "doName" (join '.' objects)
  if attrs ≠ [] then m.setAttribute "daName" (join '.' attrs)
  else { m with attrs := m.attrs.filter (·.1 != "daName") }

theorem resolve_eq (types devs : List Element) (m : Element) :
    resolve types devs m =
      (nodeType types devs (m.attribute "ldInst" ++ "/" ++ nodeName m "lnInst")).bind fun d ↦
        (walk types (m.attribute "fc") d (fcdaPath m)).map fun r ↦ divide m r.1 r.2 := by
  rw [resolve]
  cases nodeType types devs (m.attribute "ldInst" ++ "/" ++ nodeName m "lnInst") with
  | none => rfl
  | some d =>
      dsimp only [Option.bind_some]
      rw [fcdaPath]
      cases walk types (m.attribute "fc") d (split '.' (m.attribute "doName") ++
        (if m.attribute "daName" ≠ "" then split '.' (m.attribute "daName") else [])) with
      | none => rfl
      | some r => rfl

theorem lookup_filter (attrs : List (String × String)) (name key : String) :
    (attrs.filter (·.1 != name)).lookup key = if key = name then none else attrs.lookup key := by
  induction attrs with
  | nil => simp
  | cons a attrs ih =>
      by_cases ha : a.1 = name
      · rw [List.filter_cons_of_neg (by simp [ha]), ih]
        by_cases hk : key = name
        · rw [if_pos hk, if_pos hk]
        · have hne : (key == a.1) = false := beq_eq_false_iff_ne.mpr fun he ↦ hk (he.trans ha)
          rw [if_neg hk, if_neg hk, List.lookup, hne]
      · rw [List.filter_cons_of_pos (by simp [ha])]
        by_cases hk : key = a.1
        · have hn : ¬key = name := fun he ↦ ha (hk.symm.trans he)
          simp [List.lookup, hk, ha]
        · have hne : (key == a.1) = false := beq_eq_false_iff_ne.mpr hk
          rw [List.lookup, hne, ih, List.lookup, hne]

theorem attribute_filter (x : Element) (name key : String) :
    Element.attribute { x with attrs := x.attrs.filter (·.1 != name) } key =
      if key = name then "" else x.attribute key := by
  rw [Element.attribute, lookup_filter]
  split_ifs <;> rfl

theorem attribute_divide (m : Element) (objects attrs : List String) (key : String) :
    (divide m objects attrs).attribute key =
      if key = "daName" then if attrs = [] then "" else join '.' attrs
      else if key = "doName" then join '.' objects
      else m.attribute key := by
  rw [divide]
  by_cases hattrs : attrs = []
  · rw [if_neg (not_not.mpr hattrs), attribute_filter, Element.attribute_setAttribute,
      if_pos hattrs]
  · rw [if_pos hattrs, Element.attribute_setAttribute, Element.attribute_setAttribute,
      if_neg hattrs]

theorem Exports.divide {r : MemberRef} {m : Element} (hm : Exports devices r m)
    (objects attrs : List String) : Exports devices r (divide m objects attrs) where
  name := by
    rw [← hm.name, Scl.divide]
    split_ifs <;> rfl
  ldInst := by
    rw [hm.ldInst, attribute_divide, if_neg (by decide), if_neg (by decide)]
  split := by
    rw [hm.split]
    simp [attribute_divide]
  fc := by
    rw [attribute_divide, if_neg (by decide), if_neg (by decide), hm.fc]

/-- What becomes of a member in the document. -/
theorem resolve_cases (hpart : Templates types roots lo hi) {r : MemberRef} {m : Element}
    (hm : Exports devices r m) (hpath : fcdaPath m = r.path) (hne : r.path ≠ [])
    (h : List.Forall₂ (NodeRel types devices) (modelNodes devices) (documentNodes devs)) :
    (resolve types devs m = none ∧ ¬ResolvesIn devices r) ∨
      (resolve types devs m = some (divide m r.path []) ∧ ResolvesIn devices r ∧
        NamesObject devices r) ∨
      ∃ a x objects attrs, resolve types devs m = some (divide m objects attrs) ∧
        ResolvesIn devices r ∧ ¬NamesObject devices r ∧ x ∈ documentNodes devs ∧
        NodeRel types devices a x ∧ a.1.name = r.ld ∧ a.2.name = r.ln ∧ attrs ≠ [] ∧
        walk types r.fc (typeOf types (x.2.attribute "lnType")) r.path = some (objects, attrs) := by
  rw [resolve_eq, hpath, hm.fc]
  rcases nodeType_cases hm h with ⟨hlast, hnone⟩ | ⟨a, x, hx, hrel, hlast, hsome, hld, hln⟩
  · refine .inl ⟨by rw [hnone]; rfl, ?_⟩
    rintro ⟨ln, hln, -⟩
    rw [hlast] at hln
    cases hln
  · rw [hsome, Option.bind_some]
    have hnames : ∀ ln, lastNode devices r.ld r.ln = some ln → ln = a.2 := by
      intro ln hln
      rw [hlast] at hln
      exact (Option.some.inj hln).symm
    rcases (hrel.node.defines hpart).1.walk_eq hpart hne r.fc with
      ⟨hw, hnot⟩ | ⟨hw, hobj⟩ | ⟨objects, attrs, hattrs, hw, hres, hobj⟩
    · refine .inl ⟨by rw [hw]; rfl, ?_⟩
      rintro ⟨ln, hln, hres⟩
      rw [hnames ln hln] at hres
      exact hnot hres
    · exact .inr (.inl ⟨by rw [hw]; rfl, ⟨a.2, hlast, .inl hobj⟩, a.2, hlast, hobj⟩)
    · refine .inr (.inr ⟨a, x, objects, attrs, by rw [hw]; rfl, ⟨a.2, hlast, hres⟩, ?_, hx, hrel,
        hld, hln, hattrs, hw⟩)
      rintro ⟨ln, hln, hobj'⟩
      rw [hnames ln hln] at hobj'
      exact hobj hobj'

end Nodes

/-! ## Paths -/

theorem memberRef_path {ref : String} {r : MemberRef} (h : memberRef ref = some r) :
    r.path ≠ [] ∧ ∀ name ∈ r.path, '.' ∉ name.toList := by
  obtain ⟨data, hdata⟩ : ∃ data, r.path = memberPath data := by
    rw [memberRef] at h
    split at h
    · cases h
    · split at h
      · cases h
      · split at h
        · cases h
        · cases h
          exact ⟨_, rfl⟩
  obtain ⟨name, names, hsplit⟩ := List.exists_cons_of_ne_nil (split_ne_nil '.' data)
  have hfree : ∀ part ∈ name :: names, '.' ∉ part.toList := by
    intro part hpart
    rw [← hsplit] at hpart
    exact not_mem_of_mem_split hpart
  rw [hdata, memberPath, hsplit]
  split_ifs
  · exact ⟨by simp, fun part hpart ↦
      hfree part (List.mem_singleton.mp hpart ▸ List.mem_cons_self)⟩
  · exact ⟨by simp, hfree⟩

theorem walk_subset {types : List Element} {fc : String} {d : Element}
    {path objects attrs : List String} (h : walk types fc d path = some (objects, attrs)) :
    objects ⊆ path ∧ attrs ⊆ path := by
  induction path generalizing d objects attrs with
  | nil =>
      cases h
      exact ⟨List.Subset.refl _, List.Subset.refl _⟩
  | cons name names ih =>
      rw [walk] at h
      split at h
      · cases h
      · rename_i child hchild
        dsimp only at h
        split_ifs at h
        · obtain ⟨⟨o, a⟩, hw, he⟩ := Option.map_eq_some_iff.mp h
          cases he
          obtain ⟨ho, ha⟩ := ih hw
          exact ⟨List.cons_subset_cons _ ho, List.subset_cons_of_subset _ ha⟩
        · obtain ⟨⟨o, a⟩, hw, he⟩ := Option.map_eq_some_iff.mp h
          cases he
          obtain ⟨ho, ha⟩ := ih hw
          exact ⟨List.subset_cons_of_subset _ ho, List.cons_subset_cons _ ha⟩
        · obtain ⟨⟨o, a⟩, hw, he⟩ := Option.map_eq_some_iff.mp h
          cases he
          obtain ⟨ho, ha⟩ := ih hw
          exact ⟨List.subset_cons_of_subset _ ho, List.cons_subset_cons _ ha⟩

theorem DefinesNode.objects_ne_nil {types : List Element} {ln : LogicalNode} {lt : Element}
    (h : DefinesNode types ln lt) {fc : String} {path objects attrs : List String}
    (hne : path ≠ []) (hwalk : walk types fc lt path = some (objects, attrs)) : objects ≠ [] := by
  obtain ⟨name, names, rfl⟩ := List.exists_cons_of_ne_nil hne
  rcases h.cases name names with ⟨hnone, -⟩ | ⟨groups, id, -, -, hw, -⟩
  · rw [hnone] at hwalk
    cases hwalk
  · rw [hw] at hwalk
    obtain ⟨_, _, he⟩ := Option.map_eq_some_iff.mp hwalk
    cases he
    simp

end ProcessBus.Scl
