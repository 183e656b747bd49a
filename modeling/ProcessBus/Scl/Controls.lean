import ProcessBus.Scl.GooseImport

/-!
# The control blocks of a document

The loops of `ParseGooseSCL` do three things: they check the logical devices of every access point,
they visit the GOOSE control blocks in the order of the document, and they pass the budget from one
to the next.  Here these are taken apart: the document is accepted or not (`Accepted`), it has a list
of control blocks (`controls`), and its streams are those of the list with one budget
(`parseGooseSCL_eq_ok`).

A control block is found by its path, the positions of the elements around it.
-/

namespace ProcessBus.Scl

open Go.Strconv Lib Metered

/-! ## Logical devices -/

/-- The entry of a logical device. -/
def deviceEntry (iedName : String) (ld : Element) : Device where
  inst := ld.attribute "inst"
  domain :=
    if ld.attribute "ldName" = "" then iedName ++ ld.attribute "inst" else ld.attribute "ldName"
  element := ld

/-- The entries of all logical devices. -/
def deviceTable (iedName : String) (lds : List Element) : List Device :=
  lds.map (deviceEntry iedName)

theorem enterDevices_cons (iedName : String) (devices : List Device) (ld : Element)
    (lds : List Element) :
    enterDevices iedName devices (ld :: lds) =
      if ld.attribute "inst" = "" ∨ domainOf devices (ld.attribute "inst") ≠ "" then
        .error ("missing or duplicate LDevice inst " ++ quote (ld.attribute "inst"))
      else enterDevices iedName (devices ++ [deviceEntry iedName ld]) lds := rfl

/-- If the devices are accepted, each of them has its entry. -/
theorem eq_of_enterDevices {iedName : String} {lds : List Element} {devices table : List Device}
    (h : enterDevices iedName devices lds = .ok table) :
    table = devices ++ deviceTable iedName lds := by
  induction lds generalizing devices with
  | nil =>
      cases h
      rw [deviceTable, List.map_nil, List.append_nil]
  | cons ld lds ih =>
      rw [enterDevices_cons] at h
      split_ifs at h
      rw [ih h, List.append_assoc]
      rfl

/-! ## Paths -/

/-- The place of a control block: the positions of the elements around it, each among those of its
kind. -/
structure ControlPath where
  ied : ℕ
  accessPoint : ℕ
  server : ℕ
  device : ℕ
  node : ℕ
  control : ℕ
deriving DecidableEq, Repr

section Controls

variable (types : TypeTable) (root ied ap : Element) (devices : List Device) (ld : Element)

/-- The control blocks of a logical node. -/
def nodeControls (path : ℕ → ControlPath) (ln : Element) : List (ControlPath × Control) :=
  ((ln.childrenNamed "GSEControl").zipIdx.filter fun e ↦ isGooseControl e.1).map fun e ↦
    (path e.2, control types root ied ap devices ld ln e.1)

/-- The control blocks of a logical device. -/
def deviceControls (path : ℕ → ℕ → ControlPath) (ld : Element) : List (ControlPath × Control) :=
  (ld.children.filter isNode).zipIdx.flatMap fun e ↦
    nodeControls types root ied ap devices ld (path e.2) e.1

/-- The control blocks of an access point, which are those of its first server. -/
def accessPointControls (path : ℕ → ℕ → ℕ → ControlPath) (ap : Element) :
    List (ControlPath × Control) :=
  let lds := (ap.childNamed "Server").childrenNamed "LDevice"
  lds.zipIdx.flatMap fun e ↦
    deviceControls types root ied ap (deviceTable (ied.attribute "name") lds) (path e.2) e.1

/-- The control blocks of an IED. -/
def iedControls (path : ℕ → ℕ → ℕ → ℕ → ControlPath) (ied : Element) :
    List (ControlPath × Control) :=
  (ied.childrenNamed "AccessPoint").zipIdx.flatMap fun e ↦
    accessPointControls types root ied (path e.2) e.1

/-- The control blocks of a document, in its order. -/
def controls : List (ControlPath × Control) :=
  (root.childrenNamed "IED").zipIdx.flatMap fun e ↦
    iedControls types root (fun a l n c ↦ ⟨e.2, a, 0, l, n, c⟩) e.1

end Controls

/-- A control block of a document is made of its element. -/
theorem exists_of_mem_controls {types : TypeTable} {root : Element} {e : ControlPath × Control}
    (h : e ∈ controls types root) :
    ∃ ied ap devices ld ln cb, e.2 = control types root ied ap devices ld ln cb := by
  rw [controls] at h
  obtain ⟨ied, -, h⟩ := List.mem_flatMap.mp h
  obtain ⟨ap, -, h⟩ := List.mem_flatMap.mp h
  obtain ⟨ld, -, h⟩ := List.mem_flatMap.mp h
  obtain ⟨ln, -, h⟩ := List.mem_flatMap.mp h
  obtain ⟨cb, -, rfl⟩ := List.mem_map.mp h
  exact ⟨ied.1, ap.1, _, ld.1, ln.1, cb.1, rfl⟩

/-- The logical devices of every access point are accepted. -/
def Accepted (root : Element) : Prop :=
  ∀ ied ∈ root.childrenNamed "IED", ∀ ap ∈ ied.childrenNamed "AccessPoint",
    ∃ devices, enterDevices (ied.attribute "name") []
      ((ap.childNamed "Server").childrenNamed "LDevice") = .ok devices

/-! ## One budget -/

/-- The streams of control blocks that share a budget. -/
def streams (cs : List Control) (budget : ℤ) : List GooseStream :=
  List.zipWith (fun c r ↦ c.header.resolved r) cs (runAll (cs.map (·.members)) budget)

theorem foldl_parseControl (cs : List Control) (st : ParseState) :
    (cs.foldl parseControl st).2 = st.2 ++ streams cs st.1 := by
  induction cs generalizing st with
  | nil => exact (List.append_nil _).symm
  | cons c cs ih =>
      rw [List.foldl_cons, ih, parseControl, List.append_assoc]
      rfl

/-- The stream of a control block: what it costs to resolve those before it is missing. -/
theorem streams_getElem? (cs : List Control) (budget : ℤ) (k : ℕ) :
    (streams cs budget)[k]? = cs[k]?.map fun c ↦
      c.header.resolved (c.members.within
        (budget.toNat - costs ((cs.map (·.members)).take k))) := by
  rw [streams, List.getElem?_zipWith, runAll_getElem?, List.getElem?_map]
  cases cs[k]? with
  | none => rfl
  | some c => rfl

/-! ## The loops -/

/-- A list by its positions. -/
theorem foldl_zipIdx {α σ : Type} (f : σ → α → σ) (l : List α) (s : σ) (i : ℕ) :
    (l.zipIdx i).foldl (fun s e ↦ f s e.1) s = l.foldl f s := by
  induction l generalizing s i with
  | nil => rfl
  | cons a l ih =>
      rw [List.zipIdx_cons, List.foldl_cons, List.foldl_cons, ih]

/-- A loop whose steps run lists runs all of them. -/
theorem foldl_flatMap_snd {α : Type} {g : α × ℕ → List (ControlPath × Control)}
    {f : ParseState → α → ParseState} {l : List α}
    (h : ∀ (st : ParseState) (e : α × ℕ), f st e.1 = ((g e).map (·.2)).foldl parseControl st)
    (st : ParseState) :
    l.foldl f st = ((l.zipIdx.flatMap g).map (·.2)).foldl parseControl st := by
  rw [← foldl_zipIdx f l st 0]
  generalize l.zipIdx = es
  induction es generalizing st with
  | nil => rfl
  | cons e es ih =>
      rw [List.foldl_cons, h, ih, List.flatMap_cons, List.map_append, List.foldl_append]

section Loops

variable (types : TypeTable) (root ied ap : Element) (devices : List Device) (ld : Element)

theorem parseNode_eq (path : ℕ → ControlPath) (st : ParseState) (ln : Element) :
    parseNode types root ied ap devices ld st ln =
      ((nodeControls types root ied ap devices ld path ln).map (·.2)).foldl parseControl st := by
  have hfilter : ln.children.filter isGooseControl =
      ((ln.childrenNamed "GSEControl").zipIdx.filter fun e ↦ isGooseControl e.1).map (·.1) := by
    have hcomp : (fun e : Element × ℕ ↦ isGooseControl e.1) = isGooseControl ∘ Prod.fst := rfl
    rw [hcomp, ← List.filter_map, List.zipIdx_map_fst, Element.childrenNamed, List.filter_filter]
    refine List.filter_congr fun cb _ ↦ ?_
    rw [isGooseControl]
    cases cb.name == "GSEControl" <;> simp
  rw [parseNode, hfilter, nodeControls, List.map_map, List.foldl_map, List.foldl_map]
  rfl

theorem parseDevice_eq (path : ℕ → ℕ → ControlPath) (st : ParseState) (ld : Element) :
    parseDevice types root ied ap devices st ld =
      ((deviceControls types root ied ap devices path ld).map (·.2)).foldl parseControl st :=
  foldl_flatMap_snd (fun st e ↦ parseNode_eq types root ied ap devices ld (path e.2) st e.1) st

theorem parseAccessPoint_eq_ok (path : ℕ → ℕ → ℕ → ControlPath) {st st' : ParseState}
    (ap : Element) :
    parseAccessPoint types root ied st ap = .ok st' ↔
      (∃ devices, enterDevices (ied.attribute "name") []
        ((ap.childNamed "Server").childrenNamed "LDevice") = .ok devices) ∧
      st' = ((accessPointControls types root ied path ap).map (·.2)).foldl parseControl st := by
  rw [parseAccessPoint, accessPointControls]
  cases h : enterDevices (ied.attribute "name") []
      ((ap.childNamed "Server").childrenNamed "LDevice") with
  | error err =>
      constructor
      · intro hok
        cases hok
      · rintro ⟨⟨devices, hdevices⟩, -⟩
        cases hdevices
  | ok table =>
      have htable := eq_of_enterDevices h
      rw [List.nil_append] at htable
      subst htable
      rw [← foldl_flatMap_snd fun st e ↦ parseDevice_eq types root ied ap _ (path e.2) st e.1]
      constructor
      · intro hok
        cases hok
        exact ⟨⟨_, rfl⟩, rfl⟩
      · rintro ⟨-, rfl⟩
        rfl

/-- A loop whose steps may fail, and run lists otherwise. -/
theorem foldlM_eq_ok {α : Type} {ok : α → Prop} {g : α × ℕ → List (ControlPath × Control)}
    {f : ParseState → α → Except String ParseState} {l : List α}
    (h : ∀ (st st' : ParseState) (e : α × ℕ), f st e.1 = .ok st' ↔
      ok e.1 ∧ st' = ((g e).map (·.2)).foldl parseControl st) {st st' : ParseState} (i : ℕ) :
    l.foldlM f st = .ok st' ↔
      (∀ a ∈ l, ok a) ∧
        st' = (((l.zipIdx i).flatMap g).map (·.2)).foldl parseControl st := by
  induction l generalizing st i with
  | nil =>
      constructor
      · intro hok
        cases hok
        exact ⟨fun a ha ↦ absurd ha List.not_mem_nil, rfl⟩
      · rintro ⟨-, rfl⟩
        rfl
  | cons a l ih =>
      rw [List.foldlM_cons, List.zipIdx_cons, List.flatMap_cons, List.map_append,
        List.foldl_append, List.forall_mem_cons]
      constructor
      · intro hok
        cases hstep : f st a with
        | error err =>
            rw [hstep] at hok
            cases hok
        | ok mid =>
            rw [hstep] at hok
            obtain ⟨hall, hst'⟩ := (ih (i + 1)).mp hok
            obtain ⟨ha, hmid⟩ := (h st mid (a, i)).mp hstep
            rw [hst', hmid]
            exact ⟨⟨ha, hall⟩, rfl⟩
      · rintro ⟨⟨ha, hall⟩, hst'⟩
        have hstep := (h st _ (a, i)).mpr ⟨ha, rfl⟩
        change (f st a >>= fun mid ↦ l.foldlM f mid) = _
        rw [hstep]
        exact (ih (i + 1)).mpr ⟨hall, hst'⟩

theorem parseIED_eq_ok (path : ℕ → ℕ → ℕ → ℕ → ControlPath) {st st' : ParseState}
    (ied : Element) :
    parseIED types root st ied = .ok st' ↔
      (∀ ap ∈ ied.childrenNamed "AccessPoint", ∃ devices,
        enterDevices (ied.attribute "name") []
          ((ap.childNamed "Server").childrenNamed "LDevice") = .ok devices) ∧
      st' = ((iedControls types root path ied).map (·.2)).foldl parseControl st :=
  foldlM_eq_ok (fun _ _ e ↦ parseAccessPoint_eq_ok types root ied (path e.2) e.1) 0

theorem parseIEDs_eq_ok {st st' : ParseState} :
    (root.childrenNamed "IED").foldlM (parseIED types root) st = .ok st' ↔
      Accepted root ∧ st' = ((controls types root).map (·.2)).foldl parseControl st :=
  foldlM_eq_ok
    (fun _ _ e ↦ parseIED_eq_ok types root (fun a l n c ↦ ⟨e.2, a, 0, l, n, c⟩) e.1) 0

end Loops

/-- **What is read of a document**: a document whose types and devices are in order has the streams
of its control blocks, resolved one after another on one budget. -/
theorem parseGooseSCL_eq_ok {root : Element} {gs : List GooseStream} :
    parseGooseSCL root = .ok gs ↔
      ∃ types, typeTable root = .ok types ∧ Accepted root ∧
        gs = streams ((controls types root).map (·.2)) 200000 := by
  rw [parseGooseSCL]
  cases htypes : typeTable root with
  | error err =>
      constructor
      · intro h
        cases h
      · rintro ⟨types, h, -⟩
        cases h
  | ok types =>
      change ((root.childrenNamed "IED").foldlM (parseIED types root) (200000, []) >>=
        fun st ↦ Except.ok st.2) = .ok gs ↔ _
      constructor
      · intro h
        cases hst : (root.childrenNamed "IED").foldlM (parseIED types root) (200000, []) with
        | error err =>
            rw [hst] at h
            cases h
        | ok st =>
            rw [hst] at h
            cases h
            obtain ⟨haccepted, rfl⟩ := (parseIEDs_eq_ok types root).mp hst
            refine ⟨types, rfl, haccepted, ?_⟩
            rw [foldl_parseControl, List.nil_append]
      · rintro ⟨types', heq, haccepted, rfl⟩
        cases heq
        have hst :=
          ((parseIEDs_eq_ok types root).mpr ⟨haccepted, rfl⟩ :
          (root.childrenNamed "IED").foldlM (parseIED types root) (200000, []) = _)
        rw [hst]
        change Except.ok _ = Except.ok _
        rw [foldl_parseControl, List.nil_append]

end ProcessBus.Scl
