import ProcessBus.Scl.Publisher

/-!
# The objects of a data set

Whatever the entries of a publisher's data set are called, the groups get names that differ, that
SCL allows and that no common object has, and the type of a group has the attributes that its
entries refer to (`buildDataset_resolves`).
-/

namespace ProcessBus.Scl.Publisher

open Lib

/-! ## Names -/

/-- ASCII letters and digits, from a letter on. -/
structure ValidDataName (s : String) : Prop where
  first : ∃ c ∈ s.toList.head?, isASCIILetter c = true
  all : ∀ c ∈ s.toList, isASCIILetter c = true ∨ isASCIIDigit c = true

theorem isASCIIDigit_of_isDigit {c : Char} (h : c.isDigit = true) : isASCIIDigit c = true := by
  rw [Char.isDigit, Bool.and_eq_true, decide_eq_true_iff, decide_eq_true_iff] at h
  rw [isASCIIDigit, Bool.and_eq_true, decide_eq_true_iff, decide_eq_true_iff]
  exact h

theorem isASCIIDigit_of_mem_toString {n : ℕ} {c : Char} (h : c ∈ (toString n).toList) :
    isASCIIDigit c = true := by
  rw [Nat.toString_eq_ofList_toDigits, String.toList_ofList] at h
  exact isASCIIDigit_of_isDigit (Nat.isDigit_of_mem_toDigits (by omega) (by omega) h)

theorem ValidDataName.append_toString {s : String} (h : ValidDataName s) (n : ℕ) :
    ValidDataName (s ++ toString n) := by
  obtain ⟨⟨c, hc, hletter⟩, hall⟩ := h
  constructor
  · refine ⟨c, ?_, hletter⟩
    rw [String.toList_append, List.head?_append]
    exact Option.mem_def.mpr (by rw [Option.mem_def.mp hc, Option.some_or])
  · intro d hd
    rw [String.toList_append, List.mem_append] at hd
    rcases hd with hd | hd
    · exact hall d hd
    · exact .inr (isASCIIDigit_of_mem_toString hd)

theorem isASCIILetter_ofNat : ∀ k < 26, isASCIILetter (Char.ofNat (k + 65)) = true := by
  decide

theorem isASCIILetter_capitalize {c : Char} (h : isASCIILetter c = true) :
    isASCIILetter (capitalize c) = true := by
  rw [capitalize]
  split
  · rename_i hlower
    rw [Bool.and_eq_true, decide_eq_true_iff, decide_eq_true_iff] at hlower
    have hlow : 97 ≤ c.toNat := hlower.1
    have hhigh : c.toNat ≤ 122 := hlower.2
    have hcode : c.toNat - ('a'.toNat - 'A'.toNat) = c.toNat - 97 + 65 := by
      change c.toNat - 32 = _
      omega
    rw [hcode]
    exact isASCIILetter_ofNat (c.toNat - 97) (by omega)
  · exact h

theorem signal_letters : ∀ c ∈ "Signal".toList, isASCIILetter c = true :=
  List.forall_iff_forall_mem.mp (by decide)

/-- What the name is made of: some characters, all of them letters and digits. -/
theorem sanitized_chars (value : String) (n : ℕ) :
    ∀ cs, cs = (if (trimSpace value).toList.filter (fun c ↦ isASCIILetter c || isASCIIDigit c) = []
        then ("Signal" ++ toString n).toList
        else (trimSpace value).toList.filter fun c ↦ isASCIILetter c || isASCIIDigit c) →
      cs ≠ [] ∧ ∀ c ∈ cs, isASCIILetter c = true ∨ isASCIIDigit c = true := by
  intro cs hcs
  rw [hcs]
  split
  · rw [String.toList_append]
    constructor
    · exact List.append_ne_nil_of_left_ne_nil (by decide) _
    · intro c hc
      rcases List.mem_append.mp hc with hc | hc
      · exact .inl (signal_letters c hc)
      · exact .inr (isASCIIDigit_of_mem_toString hc)
  · rename_i hkept
    refine ⟨hkept, ?_⟩
    intro c hc
    rw [← Bool.or_eq_true]
    exact (List.mem_filter.mp hc).2

/-- A name made of what is left of any text is valid. -/
theorem sanitizeDataName_valid (value : String) (n : ℕ) :
    ValidDataName (sanitizeDataName value ("Signal" ++ toString n)) := by
  have hchars := sanitized_chars value n _ rfl
  rw [sanitizeDataName]
  split
  · rename_i hnil
    exact absurd hnil hchars.1
  · rename_i first rest hcons
    rw [hcons] at hchars
    have hall := hchars.2
    split
    · rename_i hletter
      constructor
      · refine ⟨capitalize first, ?_, isASCIILetter_capitalize hletter⟩
        rw [String.toList_ofList]
        rfl
      · intro c hc
        rw [String.toList_ofList, List.mem_cons] at hc
        rcases hc with rfl | hc
        · exact .inl (isASCIILetter_capitalize hletter)
        · exact hall c (List.mem_cons_of_mem first hc)
    · constructor
      · refine ⟨'S', ?_, by decide⟩
        rw [String.toList_ofList]
        rfl
      · intro c hc
        rw [String.toList_ofList, List.mem_append] at hc
        rcases hc with hc | hc
        · exact .inl (signal_letters c hc)
        · exact hall c hc
/-- No name comes twice: the numbers are read back from the digits. -/
theorem numbered_injective (base : String) : Function.Injective (numbered base) := by
  have hne : ∀ n : ℕ, base ≠ base ++ toString n := by
    intro n heq
    have hlength := congrArg String.length heq
    rw [String.length_append, Nat.toString_eq_ofList_toDigits, String.length_ofList] at hlength
    have hpos := Nat.length_toDigits_pos (b := 10) (n := n)
    omega
  intro i j heq
  cases i with
  | zero =>
      cases j with
      | zero => rfl
      | succ j => exact absurd heq (hne (j + 2))
  | succ i =>
      cases j with
      | zero => exact absurd heq.symm (hne (i + 2))
      | succ j =>
          have happend := congrArg String.toList heq
          simp only [numbered, String.toList_append, Nat.toString_eq_ofList_toDigits,
            String.toList_ofList, List.append_cancel_left_eq] at happend
          have hvalue := congrArg (fun cs ↦ Nat.ofDigitChars 10 cs 0) happend
          simp only [Nat.ofDigitChars_ten_toDigits] at hvalue
          omega

theorem uniqueDataName_valid {base : String} (h : ValidDataName base) (used : List String) :
    ValidDataName (uniqueDataName base used) := by
  obtain ⟨k, hk⟩ : ∃ k, firstUnused (numbered base) used = numbered base k := firstUnused_eq_name
  rw [uniqueDataName, hk]
  cases k with
  | zero => exact h
  | succ k => exact h.append_toString (k + 2)

theorem uniqueDataName_notMem (base : String) (used : List String) :
    uniqueDataName base used ∉ used :=
  firstUnused_notMem (numbered_injective base)

/-! ## Groups -/

/-- The names are valid and differ, also from those of the common objects; every object has one
group. -/
structure GroupsOk (groups : List DataGroup) : Prop where
  names : (reserved ++ groups.map (·.name)).Nodup
  rawNames : (groups.map (·.rawName)).Nodup
  valid : ∀ g ∈ groups, ValidDataName g.name

theorem GroupsOk.nil : GroupsOk [] := by
  refine ⟨by decide, List.nodup_nil, ?_⟩
  intro g hg
  cases hg

/-- The groups stay, with their kinds once they have one. -/
def Extends (groups groups' : List DataGroup) : Prop :=
  ∀ g ∈ groups, ∃ g' ∈ groups', g'.rawName = g.rawName ∧ (g.kind = none ∨ g'.kind = g.kind)

theorem Extends.trans {a b c : List DataGroup} (h : Extends a b) (h' : Extends b c) :
    Extends a c := by
  intro g hg
  obtain ⟨g', hg', hraw, hkind⟩ := h g hg
  obtain ⟨g'', hg'', hraw', hkind'⟩ := h' g' hg'
  refine ⟨g'', hg'', hraw'.trans hraw, ?_⟩
  rcases hkind with hkind | hkind
  · exact .inl hkind
  · rw [hkind] at hkind'
    exact hkind'

/-- A type goes with a kind if it is that of the values, or of what accompanies any. -/
def Fits (type : String) (kind : Option Kind) : Prop :=
  ∃ k, valueKind type = some k ∧ (k = none ∨ k = kind)

/-- An entry has a group that its type goes with. -/
def Placed (groups : List DataGroup) (e : DatasetEntry) : Prop :=
  ∃ g ∈ groups, g.rawName = datasetObjectName e ∧ Fits e.type g.kind

theorem Placed.extends {groups groups' : List DataGroup} {e : DatasetEntry} (h : Placed groups e)
    (hext : Extends groups groups') : Placed groups' e := by
  obtain ⟨g, hg, hraw, k, hk, hfits⟩ := h
  obtain ⟨g', hg', hraw', hkind⟩ := hext g hg
  refine ⟨g', hg', hraw'.trans hraw, k, hk, ?_⟩
  rcases hfits with hfits | hfits
  · exact .inl hfits
  · rcases hkind with hkind | hkind
    · exact .inl (hfits.trans hkind)
    · exact .inr (hfits.trans hkind.symm)

variable {groups : List DataGroup} {rawName : String}

theorem openGroup_ok (h : GroupsOk groups) (rawName : String) (i : ℕ) :
    GroupsOk (openGroup groups rawName i) := by
  rw [openGroup]
  split
  · exact h
  · rename_i hnew
    have hvalid := uniqueDataName_valid (sanitizeDataName_valid rawName (i + 1))
      (reserved ++ groups.map (·.name))
    have hfresh := uniqueDataName_notMem
      (sanitizeDataName rawName ("Signal" ++ toString (i + 1))) (reserved ++ groups.map (·.name))
    generalize uniqueDataName _ _ = name at hvalid hfresh ⊢
    constructor
    · rw [List.map_append, List.map_singleton, ← List.append_assoc, List.nodup_append_comm,
        List.singleton_append, List.nodup_cons]
      exact ⟨hfresh, h.names⟩
    · rw [List.map_append, List.map_singleton, List.nodup_append_comm, List.singleton_append,
        List.nodup_cons]
      refine ⟨?_, h.rawNames⟩
      intro hmem
      obtain ⟨g, hg, hraw⟩ := List.mem_map.mp hmem
      exact hnew (List.any_eq_true.mpr ⟨g, hg, decide_eq_true hraw⟩)
    · intro g hg
      rcases List.mem_append.mp hg with hg | hg
      · exact h.valid g hg
      · rw [List.mem_singleton.mp hg]
        exact hvalid

theorem openGroup_extends (groups : List DataGroup) (rawName : String) (i : ℕ) :
    Extends groups (openGroup groups rawName i) := by
  intro g hg
  refine ⟨g, ?_, rfl, .inr rfl⟩
  rw [openGroup]
  split
  · exact hg
  · exact List.mem_append_left _ hg

theorem exists_openGroup (groups : List DataGroup) (rawName : String) (i : ℕ) :
    ∃ g ∈ openGroup groups rawName i, g.rawName = rawName := by
  rw [openGroup]
  split
  · rename_i hany
    obtain ⟨g, hg, hraw⟩ := List.any_eq_true.mp hany
    exact ⟨g, hg, of_decide_eq_true hraw⟩
  · exact ⟨_, List.mem_append_right _ (List.mem_singleton_self _), rfl⟩

theorem setKind_ok (h : GroupsOk groups) (rawName : String) (kind : Kind) :
    GroupsOk (setKind groups rawName kind) := by
  have hname : ((·.name) ∘ fun g : DataGroup ↦
      if g.rawName = rawName then { g with kind := some kind } else g) = (·.name) := by
    funext g
    rw [Function.comp_apply]
    split
    · rfl
    · rfl
  have hraw : ((·.rawName) ∘ fun g : DataGroup ↦
      if g.rawName = rawName then { g with kind := some kind } else g) = (·.rawName) := by
    funext g
    rw [Function.comp_apply]
    split
    · rfl
    · rfl
  constructor
  · rw [setKind, List.map_map, hname]
    exact h.names
  · rw [setKind, List.map_map, hraw]
    exact h.rawNames
  · intro g hg
    obtain ⟨g', hg', rfl⟩ := List.mem_map.mp hg
    split
    · exact h.valid g' hg'
    · exact h.valid g' hg'

/-- What is found by a key that differs is the only one. -/
theorem find_of_nodup {α β : Type*} [DecidableEq β] {key : α → β} {l : List α}
    (h : (l.map key).Nodup) {x : α} (hx : x ∈ l) :
    l.find? (fun y ↦ key y = key x) = some x := by
  cases hfind : l.find? (fun y ↦ key y = key x) with
  | none =>
      exact absurd (decide_eq_true rfl) (List.find?_eq_none.mp hfind x hx)
  | some found =>
      have hfound := List.find?_some hfind
      have hkey : key found = key x := of_decide_eq_true hfound
      rw [List.inj_on_of_nodup_map h (List.mem_of_find?_eq_some hfind) hx hkey]

theorem setKind_extends {kind : Kind} (h : (groups.map (·.rawName)).Nodup)
    (hkind : ∀ other, (groups.find? (·.rawName = rawName)).bind (·.kind) = some other →
      other = kind) :
    Extends groups (setKind groups rawName kind) := by
  intro g hg
  refine ⟨_, List.mem_map_of_mem hg, ?_⟩
  split
  · rename_i hraw
    refine ⟨rfl, ?_⟩
    cases hk : g.kind with
    | none => exact .inl rfl
    | some other =>
        right
        rw [hkind other]
        rw [← hraw, find_of_nodup h hg, Option.bind_some]
        exact hk
  · exact ⟨rfl, .inr rfl⟩

/-- One turn of the first loop: the entry gets its place, and those before it keep theirs. -/
theorem addEntry_ok {groups' : List DataGroup} {i : ℕ} {e : DatasetEntry} (h : GroupsOk groups)
    (hadd : addEntry groups i e = .ok groups') :
    GroupsOk groups' ∧ Extends groups groups' ∧ Placed groups' e := by
  have hopen := openGroup_ok h (datasetObjectName e) i
  have hext := openGroup_extends groups (datasetObjectName e) i
  obtain ⟨g, hg, hraw⟩ := exists_openGroup groups (datasetObjectName e) i
  rw [addEntry] at hadd
  dsimp only at hadd
  generalize openGroup groups (datasetObjectName e) i = opened at hadd hopen hext hg
  have hset : ∀ kind, valueKind e.type = some (some kind) →
      (∀ other, (opened.find? (·.rawName = datasetObjectName e)).bind (·.kind) = some other →
        other = kind) →
      GroupsOk (setKind opened (datasetObjectName e) kind) ∧
        Extends groups (setKind opened (datasetObjectName e) kind) ∧
        Placed (setKind opened (datasetObjectName e) kind) e := by
    intro kind htype hkind
    refine ⟨setKind_ok hopen _ kind, hext.trans (setKind_extends hopen.rawNames hkind), ?_⟩
    refine ⟨{ g with kind := some kind }, ?_, hraw, some kind, htype, .inr rfl⟩
    refine List.mem_map.mpr ⟨g, hg, ?_⟩
    rw [if_pos hraw]
  split at hadd
  · cases hadd
  split at hadd
  · cases hadd
  · rename_i htype
    cases hadd
    exact ⟨hopen, hext, g, hg, hraw, none, htype, .inl rfl⟩
  · rename_i kind htype
    split at hadd
    · rename_i hnone
      cases hadd
      refine hset kind htype ?_
      intro other hother
      rw [hnone] at hother
      cases hother
    · rename_i other hother
      split at hadd
      · rename_i heq
        cases hadd
        refine hset kind htype ?_
        intro other' hother'
        rw [hother] at hother'
        exact (Option.some.inj hother').symm.trans heq
      · cases hadd

/-- The first loop. -/
theorem buildGroups_ok {groups' : List DataGroup} {i : ℕ} {entries : List DatasetEntry}
    (h : GroupsOk groups) (hbuild : buildGroups groups i entries = .ok groups') :
    GroupsOk groups' ∧ Extends groups groups' ∧ ∀ e ∈ entries, Placed groups' e := by
  induction entries generalizing groups i with
  | nil =>
      cases hbuild
      refine ⟨h, fun g hg ↦ ⟨g, hg, rfl, .inr rfl⟩, ?_⟩
      intro e he
      cases he
  | cons e rest ih =>
      rw [buildGroups] at hbuild
      cases hadd : addEntry groups i e with
      | error err =>
          rw [hadd] at hbuild
          cases hbuild
      | ok next =>
          rw [hadd] at hbuild
          obtain ⟨hnext, hext, hplaced⟩ := addEntry_ok h hadd
          obtain ⟨hgroups, hext', hrest⟩ := ih hnext hbuild
          refine ⟨hgroups, hext.trans hext', ?_⟩
          intro e' he'
          rcases List.mem_cons.mp he' with rfl | he'
          · exact hplaced.extends hext'
          · exact hrest e' he'

/-! ## References -/

/-- An entry becomes a reference to an attribute of its object. -/
def RefersTo (groups : List DataGroup) (e : DatasetEntry) (f : FCDA) : Prop :=
  ∃ g ∈ groups, g.rawName = datasetObjectName e ∧ Fits e.type g.kind ∧
    dataAttributeName e.type = some f.daName ∧
      f = ⟨"LD0", "GGIO", "1", g.name, f.daName, g.fc⟩

theorem groupOf_eq (h : (groups.map (·.rawName)).Nodup) {g : DataGroup} (hg : g ∈ groups) :
    groupOf groups g.rawName = g := by
  rw [groupOf, find_of_nodup h hg, Option.some_or, Option.getD_some]

/-- The key of a reference. -/
def FCDA.key (f : FCDA) : String := f.doName ++ "." ++ f.daName

/-- The second loop: the references come in the order of the entries, and no key comes twice. -/
theorem buildReferences_ok {seen : List String} {i : ℕ} {entries : List DatasetEntry}
    {fcdas : List FCDA} (h : GroupsOk groups) (hplaced : ∀ e ∈ entries, Placed groups e)
    (hbuild : buildReferences groups seen i entries = .ok fcdas) :
    List.Forall₂ (RefersTo groups) entries fcdas ∧ (fcdas.map FCDA.key).Nodup ∧
      ∀ f ∈ fcdas, f.key ∉ seen := by
  induction entries generalizing seen i fcdas with
  | nil =>
      cases hbuild
      refine ⟨.nil, List.nodup_nil, ?_⟩
      intro f hf
      cases hf
  | cons e rest ih =>
      obtain ⟨g, hg, hraw, hfits⟩ := hplaced e List.mem_cons_self
      rw [buildReferences, ← hraw, groupOf_eq h.rawNames hg] at hbuild
      dsimp only at hbuild
      split at hbuild
      · cases hbuild
      rename_i daName hda
      split at hbuild
      · cases hbuild
      rename_i hkey
      cases hrest : buildReferences groups ((g.name ++ "." ++ daName) :: seen) (i + 1) rest with
      | error err =>
          rw [hrest] at hbuild
          cases hbuild
      | ok fcdas' =>
          rw [hrest] at hbuild
          cases hbuild
          obtain ⟨hall, hnodup, hnew⟩ :=
            ih (fun e' he' ↦ hplaced e' (List.mem_cons_of_mem e he')) hrest
          refine ⟨.cons ⟨g, hg, hraw, hfits, hda, rfl⟩ hall, ?_, ?_⟩
          · rw [List.map_cons, List.nodup_cons]
            refine ⟨?_, hnodup⟩
            intro hmem
            obtain ⟨f, hf, hfkey⟩ := List.mem_map.mp hmem
            refine hnew f hf ?_
            rw [hfkey]
            exact List.mem_cons_self
          · intro f hf
            rcases List.mem_cons.mp hf with rfl | hf
            · exact hkey
            · exact fun hseen ↦ hnew f hf (List.mem_cons_of_mem _ hseen)

/-! ## Types of objects -/

/-- The type that the objects of a kind have. -/
def doTypeOf : Option Kind → DataObjectType
  | some .int => statusDOType "PBMT_INS" "INS" "INT32" "ST"
  | some .uint => statusDOType "PBMT_INSU" "INS" "INT32U" "ST"
  | some .float => {
      id := "PBMT_MV"
      cdc := "MV"
      das := [
        { name := "mag", bType := "Struct", type := "PBMT_AnalogueValue", fc := "MX",
          dchg := true },
        { name := "q", bType := "Quality", fc := "MX", qchg := true },
        { name := "t", bType := "Timestamp", fc := "MX" }] }
  | some .string => statusDOType "PBMT_VSS" "VSS" "VisString255" "ST"
  | _ => statusDOType "PBMT_SPS" "SPS" "BOOLEAN" "ST"

theorem id_doTypeOf (kind : Option Kind) : (doTypeOf kind).id = typeIDOf kind := by
  rcases kind with - | kind
  · rfl
  · cases kind <;> rfl

theorem doTypeOf_congr {kind kind' : Option Kind} (h : typeIDOf kind = typeIDOf kind') :
    doTypeOf kind = doTypeOf kind' := by
  rcases kind with - | kind
  · rcases kind' with - | kind'
    · rfl
    · cases kind' <;> first | rfl | exact absurd h (by decide)
  · rcases kind' with - | kind'
    · cases kind <;> first | rfl | exact absurd h (by decide)
    · cases kind <;> cases kind' <;> first | rfl | exact absurd h (by decide)

/-- The types that were collected have the identifiers in use, each once, and are those of the
kinds. -/
structure TypesOk (used : List String) (result : List DataObjectType) : Prop where
  used_iff : ∀ id, id ∈ used ↔ id ∈ result.map (·.id)
  nodup : (result.map (·.id)).Nodup
  typed : ∀ t ∈ result, ∀ kind, t.id = typeIDOf kind → t = doTypeOf kind
  status : "PBMT_SPS" ∈ used

/-- The types that every document has. -/
theorem commonDOTypes_typed (t : DataObjectType) (ht : t ∈ commonDOTypes) (kind : Option Kind)
    (hid : t.id = typeIDOf kind) : t = doTypeOf kind := by
  have hkind : t = doTypeOf (some .int) ∨ t = doTypeOf none ∨
      t.id ∈ ["PBMT_INC_Mod", "PBMT_LPL", "PBMT_DPL"] := by
    rw [commonDOTypes] at ht
    simp only [List.mem_cons, List.not_mem_nil, or_false] at ht
    rcases ht with rfl | rfl | rfl | rfl | rfl
    · exact .inr (.inr (by decide))
    · exact .inl rfl
    · exact .inr (.inr (by decide))
    · exact .inr (.inr (by decide))
    · exact .inr (.inl rfl)
  rcases hkind with rfl | rfl | hother
  · exact doTypeOf_congr ((id_doTypeOf _).symm.trans hid)
  · exact doTypeOf_congr ((id_doTypeOf _).symm.trans hid)
  · rw [hid] at hother
    rcases kind with - | kind
    · exact absurd hother (by decide)
    · cases kind <;> exact absurd hother (by decide)

theorem TypesOk.common :
    TypesOk ["PBMT_INC_Mod", "PBMT_INS", "PBMT_LPL", "PBMT_DPL", "PBMT_SPS"] commonDOTypes :=
  ⟨fun _ ↦ .rfl, by decide, commonDOTypes_typed, by decide⟩

theorem extraDOType_eq (kind : Option Kind) (h : typeIDOf kind ≠ "PBMT_SPS") :
    extraDOType (typeIDOf kind) kind = [doTypeOf kind] := by
  rcases kind with - | kind
  · exact absurd rfl h
  · cases kind with
    | bool => exact absurd rfl h
    | int | uint | float | string => rfl

variable {used : List String} {result : List DataObjectType}

theorem TypesOk.extend (h : TypesOk used result) {kind : Option Kind}
    (hnew : typeIDOf kind ∉ used) :
    TypesOk (typeIDOf kind :: used) (result ++ extraDOType (typeIDOf kind) kind) := by
  have hne : typeIDOf kind ≠ "PBMT_SPS" := fun heq ↦ hnew (heq ▸ h.status)
  rw [extraDOType_eq kind hne]
  constructor
  · intro id
    rw [List.mem_cons, List.map_append, List.mem_append, List.map_singleton, List.mem_singleton,
      id_doTypeOf, h.used_iff, or_comm]
  · rw [List.map_append, List.map_singleton, id_doTypeOf, List.nodup_append_comm,
      List.singleton_append, List.nodup_cons, ← h.used_iff]
    exact ⟨hnew, h.nodup⟩
  · intro t ht kind' hid
    rcases List.mem_append.mp ht with ht | ht
    · exact h.typed t ht kind' hid
    · obtain rfl := List.mem_singleton.mp ht
      rw [id_doTypeOf] at hid
      exact doTypeOf_congr hid
  · exact List.mem_cons_of_mem _ h.status

/-- The loop collects the types of the groups. -/
theorem buildDOTypes_loop_ok (groups : List DataGroup) (h : TypesOk used result) :
    ∃ used', TypesOk used' (buildDOTypes.loop used result groups) ∧ used ⊆ used' ∧
      ∀ g ∈ groups, g.typeID ∈ used' := by
  induction groups generalizing used result with
  | nil =>
      refine ⟨used, h, List.Subset.refl used, ?_⟩
      intro g hg
      cases hg
  | cons g rest ih =>
      rw [buildDOTypes.loop]
      split
      · rename_i hin
        obtain ⟨used', hok, hsub, hall⟩ := ih h
        refine ⟨used', hok, hsub, ?_⟩
        intro g' hg'
        rcases List.mem_cons.mp hg' with rfl | hg'
        · exact hsub hin
        · exact hall g' hg'
      · rename_i hnew
        obtain ⟨used', hok, hsub, hall⟩ := ih (h.extend hnew)
        refine ⟨used', hok, fun id hid ↦ hsub (List.mem_cons_of_mem _ hid), ?_⟩
        intro g' hg'
        rcases List.mem_cons.mp hg' with rfl | hg'
        · exact hsub List.mem_cons_self
        · exact hall g' hg'

/-- **The type of a group is among those written, and the only one with its identifier.** -/
theorem find_buildDOTypes {groups : List DataGroup} {g : DataGroup} (hg : g ∈ groups) :
    (buildDOTypes groups).find? (·.id = g.typeID) = some (doTypeOf g.kind) := by
  obtain ⟨used', hok, -, hall⟩ := buildDOTypes_loop_ok groups .common
  obtain ⟨t, ht, hid⟩ := List.mem_map.mp ((hok.used_iff _).mp (hall g hg))
  have heq := hok.typed t ht g.kind hid
  have hfind := find_of_nodup hok.nodup ht
  rw [hid] at hfind
  rw [← heq]
  exact hfind

/-- An attribute that is no part of another is found by its name. -/
theorem attributeType_plain (t : DataObjectType) (daTypes : List DataAttributeType)
    {daName : String} (fc : String) (h : cut '.' daName = none) :
    t.attributeType daTypes daName fc =
      (t.das.find? fun da ↦ da.name = daName ∧ da.fc = fc).map (·.bType) := by
  rw [DataObjectType.attributeType, h]

/-- The type of a kind has a quality and a time, whatever the kind. -/
theorem attributeType_quality (kind : Option Kind) (daTypes : List DataAttributeType) :
    (doTypeOf kind).attributeType daTypes "q" (fcOf kind) = some "Quality" := by
  rw [attributeType_plain _ _ _ (by decide)]
  rcases kind with - | kind
  · decide
  · cases kind <;> decide

theorem attributeType_time (kind : Option Kind) (daTypes : List DataAttributeType) :
    (doTypeOf kind).attributeType daTypes "t" (fcOf kind) = some "Timestamp" := by
  rw [attributeType_plain _ _ _ (by decide)]
  rcases kind with - | kind
  · decide
  · cases kind <;> decide

/-- It has a status value of the kind. -/
theorem attributeType_status {kind : Kind} (h : kind ≠ .float)
    (daTypes : List DataAttributeType) :
    (doTypeOf (some kind)).attributeType daTypes "stVal" (fcOf (some kind)) =
      some (kind.basicType) := by
  rw [attributeType_plain _ _ _ (by decide)]
  cases kind with
  | float => exact absurd rfl h
  | bool | int | uint | string => decide

/-- Or a measured value, in a structure. -/
theorem attributeType_measured :
    (doTypeOf (some .float)).attributeType [⟨"PBMT_AnalogueValue", [("f", "FLOAT32")]⟩] "mag.f"
      (fcOf (some .float)) = some Kind.float.basicType := by
  decide

/-- An entry that goes with a kind has its attribute in the type of the kind. -/
theorem attributeType_doTypeOf {type daName : String} {kind : Option Kind}
    {daTypes : List DataAttributeType} (hfits : Fits type kind)
    (hda : dataAttributeName type = some daName)
    (hfloat : kind = some .float → daTypes = [⟨"PBMT_AnalogueValue", [("f", "FLOAT32")]⟩]) :
    ∃ b, basicTypeOf type = some b ∧
      (doTypeOf kind).attributeType daTypes daName (fcOf kind) = some b := by
  obtain ⟨k, hk, hkind⟩ := hfits
  unfold valueKind at hk
  split at hk <;> cases hk
  · obtain rfl := hkind.resolve_left (Option.some_ne_none _)
    cases hda
    exact ⟨_, rfl, attributeType_status (by decide) daTypes⟩
  · obtain rfl := hkind.resolve_left (Option.some_ne_none _)
    cases hda
    exact ⟨_, rfl, attributeType_status (by decide) daTypes⟩
  · obtain rfl := hkind.resolve_left (Option.some_ne_none _)
    cases hda
    exact ⟨_, rfl, attributeType_status (by decide) daTypes⟩
  · obtain rfl := hkind.resolve_left (Option.some_ne_none _)
    cases hda
    rw [hfloat rfl]
    exact ⟨_, rfl, attributeType_measured⟩
  · obtain rfl := hkind.resolve_left (Option.some_ne_none _)
    cases hda
    exact ⟨_, rfl, attributeType_status (by decide) daTypes⟩
  · cases hda
    exact ⟨_, rfl, attributeType_quality kind daTypes⟩
  · cases hda
    exact ⟨_, rfl, attributeType_time kind daTypes⟩

/-- A group is found by its name, among the common objects too. -/
theorem find_logicalNodeDOs (h : GroupsOk groups) {g : DataGroup} (hg : g ∈ groups) :
    (logicalNodeDOs groups).find? (·.1 = g.name) = some (g.name, g.typeID) := by
  have hnames : (logicalNodeDOs groups).map (·.1) = reserved ++ groups.map (·.name) := by
    rw [logicalNodeDOs, List.map_append, List.map_map]
    rfl
  have hnodup : ((logicalNodeDOs groups).map (·.1)).Nodup := by
    rw [hnames]
    exact h.names
  have hmem : (g.name, g.typeID) ∈ logicalNodeDOs groups :=
    List.mem_append_right _ (List.mem_map_of_mem (f := fun g ↦ (g.name, g.typeID)) hg)
  exact find_of_nodup hnodup hmem

/-- A reference of an entry names an attribute of the entry's type. -/
theorem RefersTo.resolves (h : GroupsOk groups) {e : DatasetEntry} {f : FCDA}
    (hf : RefersTo groups e f) :
    ∃ b, basicTypeOf e.type = some b ∧
      attributeType groups f.doName f.daName f.fc = some b := by
  obtain ⟨g, hg, -, hfits, hda, heq⟩ := hf
  have hfloat : g.kind = some .float →
      buildDATypes groups = [⟨"PBMT_AnalogueValue", [("f", "FLOAT32")]⟩] := by
    intro hkind
    exact if_pos (List.any_eq_true.mpr ⟨g, hg, decide_eq_true hkind⟩)
  obtain ⟨b, hb, hattribute⟩ := attributeType_doTypeOf hfits hda hfloat
  refine ⟨b, hb, ?_⟩
  rw [heq, attributeType, find_logicalNodeDOs h hg]
  dsimp only
  rw [Option.bind_eq_bind, Option.bind_some, find_buildDOTypes hg, Option.bind_eq_bind,
    Option.bind_some]
  exact hattribute

/-! ## Main result -/

/-- **Every entry of a data set that is accepted becomes a reference that resolves**: the names of
the groups differ from one another and from those of the common objects and are made of ASCII
letters and digits from a letter on; the references are those of the entries, in their order; they
differ; and each names an attribute, of the type of its entry, that is declared in the types
written for the groups. -/
theorem buildDataset_resolves {entries : List DatasetEntry} {groups : List DataGroup}
    {fcdas : List FCDA} (h : buildDataset entries = .ok (groups, fcdas)) :
    (groups.map (·.name)).Nodup ∧
      (∀ g ∈ groups, g.name ∉ ["Mod", "Beh", "Health", "NamPlt"] ∧ ValidDataName g.name) ∧
      fcdas.length = entries.length ∧
      List.Forall₂ (fun e f ↦ RefersTo groups e f ∧ ∃ b, basicTypeOf e.type = some b ∧
        attributeType groups f.doName f.daName f.fc = some b) entries fcdas ∧
      (fcdas.map fun f ↦ (f.doName, f.daName)).Nodup := by
  rw [buildDataset] at h
  cases hgroups : buildGroups [] 0 entries with
  | error err =>
      rw [hgroups] at h
      cases h
  | ok built =>
      cases hrefs : buildReferences built [] 0 entries with
      | error err =>
          rw [hgroups] at h
          change (buildReferences built [] 0 entries >>= _) = _ at h
          rw [hrefs] at h
          cases h
      | ok refs =>
          rw [hgroups] at h
          change (buildReferences built [] 0 entries >>= _) = _ at h
          rw [hrefs] at h
          cases h
          obtain ⟨hok, -, hplaced⟩ := buildGroups_ok .nil hgroups
          obtain ⟨hall, hkeys, -⟩ := buildReferences_ok hok hplaced hrefs
          have hnames := List.nodup_append.mp hok.names
          refine ⟨hnames.2.1, ?_, hall.length_eq.symm, ?_, ?_⟩
          · intro g hg
            refine ⟨?_, hok.valid g hg⟩
            intro hreserved
            exact hnames.2.2 g.name hreserved g.name (List.mem_map_of_mem hg) rfl
          · exact hall.imp fun e f hef ↦ ⟨hef, hef.resolves hok⟩
          · have hkeyed : fcdas.map FCDA.key =
                (fcdas.map fun f ↦ (f.doName, f.daName)).map fun p ↦ p.1 ++ "." ++ p.2 := by
              rw [List.map_map]
              rfl
            rw [hkeyed] at hkeys
            exact hkeys.of_map _

/-- Names that are the same once they are made valid, and one that is taken by a number. -/
def collidingEntries : List DatasetEntry := [
  ⟨"ind 1.stVal", "bool"⟩, ⟨"Ind1.stVal", "int"⟩, ⟨"ind 1.q", "quality"⟩, ⟨" µ.mag.f", "float"⟩,
  ⟨"Ind12.t", "utc_time"⟩]

theorem buildDataset_resolves_colliding :
    ∃ groups fcdas, buildDataset collidingEntries = .ok (groups, fcdas) ∧
      groups.map (·.name) = ["Ind1", "Ind12", "Signal4", "Ind122"] ∧
      fcdas.length = 5 ∧ (fcdas.map fun f ↦ (f.doName, f.daName)).Nodup := by
  have hnames : (buildDataset collidingEntries).toOption.map (fun r ↦ r.1.map (·.name)) =
      some ["Ind1", "Ind12", "Signal4", "Ind122"] := by
    decide +kernel
  cases hbuild : buildDataset collidingEntries with
  | error err =>
      rw [hbuild] at hnames
      cases hnames
  | ok r =>
      obtain ⟨groups, fcdas⟩ := r
      rw [hbuild] at hnames
      obtain ⟨-, -, hlength, -, hnodup⟩ := buildDataset_resolves hbuild
      exact ⟨groups, fcdas, rfl, Option.some.inj hnames, hlength, hnodup⟩

end ProcessBus.Scl.Publisher
