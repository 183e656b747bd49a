import ProcessBus.Lib.Definitions
import ProcessBus.Scl.Export

/-!
# Converting attributes and objects

The definitions of types form a table with references: the children of a definition name others by
kind and identifier.  What the conversion of an attribute or of an object adds to the builder is a
part of such a table, closed and with nothing that is not reached from its result; a conversion that
fails has only appended, so that cutting the lists restores them.

What was added describes what was converted (`Describes`, `DescribesObject`), and which objects can
be converted depends on them alone (`Representable`).
-/

namespace ProcessBus.Scl

open Definitions

/-! ## Definitions and references -/

/-- The kind of definition that an element of this name refers to. -/
def refKind (tag : String) : String :=
  if tag = "DO" ∨ tag = "SDO" then "DOType"
  else if tag = "LN" ∨ tag = "LN0" then "LNodeType"
  else "DAType"

/-- The kind and the identifier of a definition. -/
def identity (x : Element) : String × String := (x.name, x.attribute "id")

/-- The reference of a child of a definition. -/
def reference (x : Element) : Option (String × String) :=
  (x.attrs.lookup "type").map (refKind x.name, ·)

/-- The references of a definition. -/
def references (x : Element) : List (String × String) := x.children.filterMap reference

/-- The reference of a logical node. -/
def nodeReference (ln : Element) : String × String := (refKind ln.name, ln.attribute "lnType")

theorem typeID_injective : Function.Injective typeID := by
  intro m n h
  rw [typeID, typeID, ← String.toList_inj] at h
  simp only [String.toList_append, List.append_cancel_left_eq] at h
  rw [Nat.toString_eq_repr, Nat.toString_eq_repr, Nat.toList_repr, Nat.toList_repr] at h
  rw [← Nat.ofDigitChars_ten_toDigits (n := m), h, Nat.ofDigitChars_ten_toDigits]

/-- The identifiers with numbers after `lo` and up to `hi`. -/
def ids (lo hi : ℕ) : Set String := {id | ∃ n, lo < n ∧ n ≤ hi ∧ id = typeID n}

theorem ids_disjoint {lo mid hi : ℕ} : Disjoint (ids lo mid) (ids mid hi) := by
  rw [Set.disjoint_left]
  rintro _ ⟨m, -, hm, rfl⟩ ⟨n, hn, -, he⟩
  rw [typeID_injective he] at hm
  omega

theorem ids_union {lo mid hi : ℕ} (h : lo ≤ mid) (h' : mid ≤ hi) :
    ids lo mid ∪ ids mid hi = ids lo hi := by
  ext id
  constructor
  · rintro (⟨n, hlo, hhi, rfl⟩ | ⟨n, hlo, hhi, rfl⟩)
    · exact ⟨n, hlo, hhi.trans h', rfl⟩
    · exact ⟨n, h.trans_lt hlo, hhi, rfl⟩
  · rintro ⟨n, hlo, hhi, rfl⟩
    rcases Nat.lt_or_ge mid n with hn | hn
    · exact .inr ⟨n, hn, hhi, rfl⟩
    · exact .inl ⟨n, hlo, hn, rfl⟩

theorem insert_ids {lo hi : ℕ} (h : lo + 1 ≤ hi) :
    insert (typeID (lo + 1)) (ids (lo + 1) hi) = ids lo hi := by
  ext id
  constructor
  · rintro (rfl | ⟨n, hlo, hhi, rfl⟩)
    · exact ⟨lo + 1, Nat.lt_succ_self _, h, rfl⟩
    · exact ⟨n, Nat.lt_of_succ_lt hlo, hhi, rfl⟩
  · rintro ⟨n, hlo, hhi, rfl⟩
    rcases Nat.eq_or_lt_of_le hlo with rfl | hn
    · exact .inl rfl
    · exact .inr ⟨n, hn, hhi, rfl⟩

theorem not_mem_ids {lo hi : ℕ} : typeID lo ∉ ids lo hi := by
  rintro ⟨n, hlo, -, he⟩
  rw [typeID_injective he] at hlo
  omega

/-- A part of the templates, with its references and its numbers. -/
abbrev Templates (types : List Element) (roots : List (String × String)) (lo hi : ℕ) : Prop :=
  Part identity references types roots (ids lo hi)

/-! ## Steps of the export -/

section Run

variable {α β : Type}

theorem bind_apply (m : Build α) (f : α → Build β) (b : Builder) :
    (m >>= f) b = match m b with
      | (.ok a, b') => f a b'
      | (.error err, b') => (.error err, b') := by
  change (match m b with | (x, b') => ExceptT.bindCont f x b') = _
  rcases m b with ⟨_ | a, b'⟩ <;> rfl

variable {m : Build α} {f : α → Build β} {b b' : Builder}

theorem bind_ok {a : α} (h : m b = (.ok a, b')) : (m >>= f) b = f a b' := by
  rw [bind_apply, h]

theorem bind_error {err : String} (h : m b = (.error err, b')) :
    (m >>= f) b = (.error err, b') := by
  rw [bind_apply, h]

end Run

/-- What a conversion appends to the builder. -/
structure Extends (b b' : Builder) (dos das : List Element) : Prop where
  lns : b'.lns = b.lns
  dos : b'.dos = b.dos ++ dos
  das : b'.das = b.das ++ das
  serial : b.serial ≤ b'.serial

theorem Extends.trans {b b' b'' : Builder} {dos das dos' das' : List Element}
    (h : Extends b b' dos das) (h' : Extends b' b'' dos' das') :
    Extends b b'' (dos ++ dos') (das ++ das') where
  lns := h'.lns.trans h.lns
  dos := by rw [h'.dos, h.dos, List.append_assoc]
  das := by rw [h'.das, h.das, List.append_assoc]
  serial := h.serial.trans h'.serial

theorem Extends.refl (b : Builder) : Extends b b [] [] := ⟨rfl, by simp, by simp, le_rfl⟩

/-- A step that appends, and whose result hands out a part of the templates for which `post`
holds. -/
def Emits {α : Type} (m : Build α) (roots : α → List (String × String))
    (post : α → List Element → Prop) : Prop :=
  ∀ b, ∃ dos das, Extends b (m b).2 dos das ∧ ∀ a, (m b).1 = .ok a →
    Templates (dos ++ das) (roots a) b.serial (m b).2.serial ∧ post a (dos ++ das)

/-- A property that more definitions do not change. -/
def Stable {α : Type} (post : α → List Element → Prop) : Prop :=
  ∀ a types types', types ⊆ types' → post a types → post a types'

section Rules

variable {α β γ : Type} {roots : α → List (String × String)} {roots' : β → List (String × String)}
  {roots'' : γ → List (String × String)} {post : α → List Element → Prop}
  {post' : β → List Element → Prop} {post'' : γ → List Element → Prop}

theorem Emits.throw (err : String) : Emits (throw err : Build α) roots post := by
  intro b
  refine ⟨[], [], .refl b, ?_⟩
  intro a h
  cases h

theorem Emits.pure (a : α) (hroots : roots a = []) (hpost : post a []) :
    Emits (pure a : Build α) roots post := by
  intro b
  refine ⟨[], [], .refl b, ?_⟩
  rintro _ ⟨⟩
  rw [hroots]
  exact ⟨.nil _, hpost⟩

/-- Two steps after each other. -/
theorem Emits.both {m : Build α} {m' : Build β} {g : α → β → γ} (hm : Emits m roots post)
    (hm' : Emits m' roots' post') (hs : Stable post) (hs' : Stable post')
    (hroots : ∀ a c, roots'' (g a c) = roots a ++ roots' c)
    (hpost : ∀ a c types, post a types → post' c types → post'' (g a c) types) :
    Emits (do let a ← m; let c ← m'; return g a c) roots'' post'' := by
  intro b
  obtain ⟨dos, das, hext, hok⟩ := hm b
  rcases hmb : m b with ⟨err | a, b₁⟩
  · rw [bind_error hmb]
    rw [hmb] at hext
    exact ⟨dos, das, hext, nofun⟩
  · rw [bind_ok hmb]
    rw [hmb] at hext hok
    obtain ⟨hpart, hp⟩ := hok a rfl
    obtain ⟨dos', das', hext', hok'⟩ := hm' b₁
    rcases hmb' : m' b₁ with ⟨err | c, b₂⟩
    · rw [bind_error hmb']
      rw [hmb'] at hext'
      exact ⟨dos ++ dos', das ++ das', hext.trans hext', nofun⟩
    · rw [bind_ok hmb']
      rw [hmb'] at hext' hok'
      obtain ⟨hpart', hp'⟩ := hok' c rfl
      refine ⟨dos ++ dos', das ++ das', hext.trans hext', ?_⟩
      rintro _ ⟨⟩
      have hperm := perm_append_append_comm dos das dos' das'
      constructor
      · have happend := hpart.append hpart' ids_disjoint
        rw [ids_union hext.serial hext'.serial] at happend
        rw [hroots]
        exact happend.perm hperm
      · refine hpost a c _ (hs a _ _ ?_ hp) (hs' c _ _ ?_ hp')
        · exact fun x hx ↦ hperm.subset (List.mem_append_left _ hx)
        · exact fun x hx ↦ hperm.subset (List.mem_append_right _ hx)

/-- A step whose result is changed. -/
theorem Emits.map {m : Build α} {g : α → β} (hm : Emits m roots post)
    (hroots : ∀ a, roots' (g a) = roots a) (hpost : ∀ a types, post a types → post' (g a) types) :
    Emits (do let a ← m; return g a) roots' post' := by
  intro b
  obtain ⟨dos, das, hext, hok⟩ := hm b
  rcases hmb : m b with ⟨err | a, b₁⟩
  · rw [bind_error hmb]
    rw [hmb] at hext
    exact ⟨dos, das, hext, nofun⟩
  · rw [bind_ok hmb]
    rw [hmb] at hext hok
    obtain ⟨hpart, hp⟩ := hok a rfl
    refine ⟨dos, das, hext, ?_⟩
    rintro _ ⟨⟩
    rw [hroots]
    exact ⟨hpart, hpost a _ hp⟩

/-- An action that appends one definition. -/
def Appends (add : Element → Build Unit) : Prop :=
  ∀ x b, ∃ dos das, dos ++ das = [x] ∧ Extends b (add x b).2 dos das ∧
    add x b = (.ok (), (add x b).2) ∧ (add x b).2.serial = b.serial

theorem addDO_appends : Appends addDO := fun x _ ↦
  ⟨[x], [], rfl, ⟨rfl, rfl, (List.append_nil _).symm, le_rfl⟩, rfl, rfl⟩

theorem addDA_appends : Appends addDA := fun x _ ↦
  ⟨[], [x], rfl, ⟨rfl, (List.append_nil _).symm, rfl, le_rfl⟩, rfl, rfl⟩

/-- A definition: its identifier is taken before the children are converted, and it is appended
after them. -/
theorem Emits.define {m : Build (List Element)} {add : Element → Build Unit}
    {d : String → List Element → Element} {g : String → β}
    {post : List Element → List Element → Prop} (kind : String)
    (hm : Emits m (·.filterMap reference) post) (hs : Stable post) (hadd : Appends add)
    (hd : ∀ id xs, identity (d id xs) = (kind, id)) (hchildren : ∀ id xs, (d id xs).children = xs)
    (hroots : ∀ id, roots' (g id) = [(kind, id)])
    (hpost : ∀ id xs types, d id xs ∈ types → post xs types → post' (g id) types) :
    Emits (do let id ← nextID; let xs ← m; add (d id xs); return g id) roots' post' := by
  intro b
  have hnext : nextID b = (.ok (typeID (b.serial + 1)), { b with serial := b.serial + 1 }) := rfl
  rw [bind_ok hnext]
  have hext₀ : Extends b { b with serial := b.serial + 1 } [] [] :=
    ⟨rfl, by simp, by simp, Nat.le_succ _⟩
  obtain ⟨dos, das, hext, hok⟩ := hm { b with serial := b.serial + 1 }
  rcases hmb : m { b with serial := b.serial + 1 } with ⟨err | xs, b₁⟩
  · rw [bind_error hmb]
    rw [hmb] at hext
    exact ⟨_, _, hext₀.trans hext, nofun⟩
  · rw [bind_ok hmb]
    rw [hmb] at hext hok
    obtain ⟨hpart, hp⟩ := hok xs rfl
    obtain ⟨dos', das', hnew, hext', haddb, hserial⟩ := hadd (d (typeID (b.serial + 1)) xs) b₁
    rw [bind_ok haddb]
    refine ⟨_, _, (hext₀.trans hext).trans hext', ?_⟩
    rintro _ ⟨⟩
    set x := d (typeID (b.serial + 1)) xs with hx
    have hperm : ((dos ++ das) ++ [x]).Perm (([] ++ dos ++ dos') ++ ([] ++ das ++ das')) := by
      rw [← hnew, List.nil_append, List.nil_append]
      exact perm_append_append_comm dos das dos' das'
    have hrefs : references x = xs.filterMap reference := by
      rw [references, hx, hchildren]
    have hid : identity x = (kind, typeID (b.serial + 1)) := hd _ _
    constructor
    · have hdefine : Templates ((dos ++ das) ++ [x]) [identity x] b.serial b₁.serial := by
        have hlt : b.serial + 1 ≤ b₁.serial := hext.serial
        have hchild : Templates (dos ++ das) (references x) (b.serial + 1) b₁.serial := by
          rw [hrefs]
          exact hpart
        have hfresh : (identity x).2 ∉ ids (b.serial + 1) b₁.serial := by
          rw [hid]
          exact not_mem_ids
        have hx := hchild.define hfresh
        rw [hid, insert_ids hlt] at hx
        rwa [hid]
      rw [hroots, ← hid]
      change Templates _ _ _ (add x b₁).2.serial
      rw [hserial]
      exact hdefine.perm hperm
    · refine hpost _ xs _ (hperm.subset (by simp [hx])) (hs xs _ _ ?_ hp)
      exact fun y hy ↦ hperm.subset (List.mem_append_left _ hy)

end Rules

/-! ## Attributes -/

/-- What an attribute is made of: the count of an array, and kind, size and children of its elements
or of the attribute itself. -/
structure Shape where
  count : Option ℤ
  kind : String
  size : ℤ
  fields : List Typ

/-- The shape of a type: nothing for an array that cannot be one. -/
def Typ.shape : Typ → Option Shape
  | ⟨_, kind, size, children⟩ =>
      if kind = "ARRAY" then
        match children with
        | [⟨_, kind, elementSize, children⟩] =>
            if size < 1 then none else some ⟨some size, kind, elementSize, children⟩
        | _ => none
      else some ⟨none, kind, size, children⟩

theorem sizeOf_lt_of_shape {t f : Typ} {s : Shape} (h : t.shape = some s) (hf : f ∈ s.fields) :
    sizeOf f < sizeOf t := by
  obtain ⟨name, kind, size, children⟩ := t
  unfold Typ.shape at h
  dsimp only at h
  by_cases hk : kind = "ARRAY"
  · rw [if_pos hk] at h
    match children with
    | [⟨_, _, _, fields⟩] =>
        dsimp only at h
        split_ifs at h
        cases h
        have := List.sizeOf_lt_of_mem hf
        simp only [Typ.mk.sizeOf_spec, List.cons.sizeOf_spec] at this ⊢
        omega
    | [] => cases h
    | ⟨_, _, _, _⟩ :: _ :: _ => cases h
  · rw [if_neg hk] at h
    cases h
    have := List.sizeOf_lt_of_mem hf
    simp only [Typ.mk.sizeOf_spec] at this ⊢
    omega

/-- Induction over attributes: the fields of a shape come first. -/
theorem Typ.shape_induction {P : Typ → Prop}
    (h : ∀ t : Typ, (∀ s : Shape, t.shape = some s → ∀ f ∈ s.fields, P f) → P t) (t : Typ) : P t :=
  h t fun _ hs f hf ↦
    have := sizeOf_lt_of_shape hs hf
    Typ.shape_induction h f
termination_by sizeOf t

theorem attribute_eq (t : Typ) (tag : String) :
    Builder.attribute t tag = match t.shape with
      | none => throw s!"invalid array {t.name}"
      | some s => typed tag t.name s.count s.kind s.size (Builder.attributes s.fields) := by
  obtain ⟨name, kind, size, children⟩ := t
  unfold Builder.attribute Typ.shape
  dsimp only
  by_cases hk : kind = "ARRAY"
  · rw [if_pos hk, if_pos hk]
    match children with
    | [⟨_, _, _, _⟩] =>
        dsimp only
        split_ifs <;> rfl
    | [] => rfl
    | ⟨_, _, _, _⟩ :: _ :: _ => rfl
  · rw [if_neg hk, if_neg hk]

/-- An element describes an attribute, with the definitions of a table. -/
inductive Describes (types : List Element) : Typ → String → Element → Prop
  /-- A value of a basic type. -/
  | basic {t : Typ} {tag : String} {s : Shape} (hshape : t.shape = some s)
      (hkind : s.kind ≠ "STRUCTURE") (hbasic : basicType t.name s.kind s.size ≠ "") :
      Describes types t tag
        (element tag (startAttrs t.name s.count ++ [("bType", basicType t.name s.kind s.size)]))
  /-- A structure, with a definition for its children. -/
  | struct {t : Typ} {tag : String} {s : Shape} {d : Element} (hshape : t.shape = some s)
      (hkind : s.kind = "STRUCTURE") (hd : d ∈ types) (hname : d.name = "DAType")
      (hfields : List.Forall₂ (fun f x ↦ Describes types f "BDA" x) s.fields d.children) :
      Describes types t tag
        (element tag (startAttrs t.name s.count ++
          [("bType", "Struct"), ("type", d.attribute "id")]))

theorem Describes.mono {types types' : List Element} (h : types ⊆ types') {t : Typ} {tag : String}
    {x : Element} (hx : Describes types t tag x) : Describes types' t tag x := by
  induction t using Typ.shape_induction generalizing tag x with
  | h t ih =>
      cases hx with
      | basic hshape hkind hbasic => exact .basic hshape hkind hbasic
      | struct hshape hkind hd hname hfields =>
          refine .struct hshape hkind (h hd) hname ?_
          rw [List.forall₂_iff_zip] at hfields ⊢
          exact ⟨hfields.1, fun hmem ↦ ih _ hshape _ (List.of_mem_zip hmem).1 (hfields.2 hmem)⟩

/-- The reference of an attribute. -/
def attrRef (x : Element) : List (String × String) := (reference x).toList

theorem attrRef_cons (x : Element) (xs : List Element) :
    (x :: xs).filterMap reference = attrRef x ++ xs.filterMap reference := by
  rw [attrRef]
  cases h : reference x <;> simp [h]

theorem startAttrs_lookup_type (name : String) (count : Option ℤ) (rest : List (String × String)) :
    (startAttrs name count ++ rest).lookup "type" = rest.lookup "type" := by
  cases count <;> simp [startAttrs, List.lookup]

theorem attributes_emits {ts : List Typ}
    (h : ∀ t ∈ ts, Emits (Builder.attribute t "BDA") attrRef fun x types ↦
      Describes types t "BDA" x) :
    Emits (Builder.attributes ts) (·.filterMap reference) fun xs types ↦
      List.Forall₂ (fun f x ↦ Describes types f "BDA" x) ts xs := by
  induction ts with
  | nil =>
      unfold Builder.attributes
      exact .pure _ rfl .nil
  | cons t ts ih =>
      unfold Builder.attributes
      refine (h t List.mem_cons_self).both (ih fun t ht ↦ h t (List.mem_cons_of_mem _ ht))
        ?_ ?_ ?_ ?_
      · exact fun _ _ _ hsub hx ↦ hx.mono hsub
      · exact fun _ _ _ hsub hx ↦ hx.imp fun _ _ hf ↦ hf.mono hsub
      · exact attrRef_cons
      · exact fun x xs types hx hxs ↦ .cons hx hxs

/-- The conversion of an attribute describes it. -/
theorem attribute_emits (t : Typ) {tag : String} (htag : refKind tag = "DAType") :
    Emits (Builder.attribute t tag) attrRef fun x types ↦ Describes types t tag x := by
  induction t using Typ.shape_induction generalizing tag with
  | h t ih =>
      rw [attribute_eq]
      cases hs : t.shape with
      | none => exact .throw _
      | some s =>
          dsimp only
          unfold typed
          by_cases hk : s.kind = "STRUCTURE"
          · rw [if_pos hk]
            refine .define "DAType" (attributes_emits fun f hf ↦ ih s hs f hf rfl) ?_ addDA_appends
              ?_ ?_ ?_ ?_
            · exact fun _ _ _ hsub hx ↦ hx.imp fun _ _ hf ↦ hf.mono hsub
            · exact fun _ _ ↦ rfl
            · exact fun _ _ ↦ rfl
            · intro id
              simp [attrRef, reference, element, startAttrs_lookup_type, htag, List.lookup]
            · exact fun id xs types hmem hpost ↦ .struct hs hk hmem rfl hpost
          · rw [if_neg hk]
            by_cases hb : basicType t.name s.kind s.size = ""
            · dsimp only
              rw [if_pos hb]
              exact .throw _
            · dsimp only
              rw [if_neg hb]
              refine .pure _ ?_ (.basic hs hk hb)
              simp [attrRef, reference, element, startAttrs_lookup_type, List.lookup]

/-! ## Parts by name -/

theorem keys_insertPart (part : FcType) (entries : List (String × List FcType)) :
    (insertPart part entries).map (·.1) =
      if part.t.name ∈ entries.map (·.1) then entries.map (·.1)
      else entries.map (·.1) ++ [part.t.name] := by
  induction entries with
  | nil => rfl
  | cons entry entries ih =>
      rw [insertPart]
      by_cases h : entry.1 = part.t.name
      · simp [h]
      · rw [if_neg h, List.map_cons, ih, List.map_cons]
        simp only [List.mem_cons, Ne.symm h, false_or]
        split_ifs <;> rfl

theorem lookup_insertPart (part : FcType) (entries : List (String × List FcType)) (name : String) :
    (insertPart part entries).lookup name =
      if name = part.t.name then some ((entries.lookup name).getD [] ++ [part])
      else entries.lookup name := by
  induction entries with
  | nil =>
      by_cases h : name = part.t.name
      · simp [insertPart, h]
      · simp [insertPart, h, List.lookup, beq_eq_false_iff_ne.mpr h]
  | cons entry entries ih =>
      rw [insertPart]
      by_cases h : entry.1 = part.t.name
      · rw [if_pos h]
        by_cases hn : name = entry.1
        · simp [List.lookup, hn, h]
        · have hn' : ¬name = part.t.name := fun he ↦ hn (he.trans h.symm)
          simp [List.lookup, beq_eq_false_iff_ne.mpr hn, hn']
      · rw [if_neg h]
        by_cases hn : name = entry.1
        · have hn' : ¬name = part.t.name := fun he ↦ h (hn.symm.trans he)
          simp [List.lookup, hn, h]
        · simp only [List.lookup, beq_eq_false_iff_ne.mpr hn, ih]

theorem lookup_of_mem {α : Type} {entries : List (String × α)} {name : String} {value : α}
    (h : (entries.map (·.1)).Nodup) (hmem : (name, value) ∈ entries) :
    entries.lookup name = some value := by
  induction entries with
  | nil => cases hmem
  | cons entry entries ih =>
      rw [List.map_cons, List.nodup_cons] at h
      rcases List.mem_cons.mp hmem with rfl | hmem
      · simp
      · have hne : name ≠ entry.1 := by
          rintro rfl
          exact h.1 (List.mem_map.mpr ⟨_, hmem, rfl⟩)
        simp only [List.lookup, beq_eq_false_iff_ne.mpr hne]
        exact ih h.2 hmem

/-- The parts of one name, and the names. -/
structure Gathered (parts : List FcType) (entries : List (String × List FcType)) : Prop where
  nodup : (entries.map (·.1)).Nodup
  lookup : ∀ name, (entries.lookup name).getD [] = parts.filter fun p ↦ p.t.name == name
  mem : ∀ name, name ∈ entries.map (·.1) ↔ name ∈ parts.map (·.t.name)

theorem gathered (ps : List FcType) :
    Gathered ps (ps.foldl (fun entries part ↦ insertPart part entries) []) := by
  induction ps using List.reverseRecOn with
  | nil => exact ⟨by simp, by simp, by simp⟩
  | append_singleton ps p ih =>
      rw [List.foldl_append, List.foldl_cons, List.foldl_nil]
      refine ⟨?_, ?_, ?_⟩
      · rw [keys_insertPart]
        split_ifs with h
        · exact ih.nodup
        · exact List.nodup_append.mpr ⟨ih.nodup, by simp, by
            rintro a ha _ hb rfl
            exact h (List.mem_singleton.mp hb ▸ ha)⟩
      · intro name
        rw [lookup_insertPart, List.filter_append]
        by_cases h : name = p.t.name
        · subst h
          simp [ih.lookup]
        · simp [h, ih.lookup, Ne.symm h]
      · intro name
        rw [keys_insertPart, List.map_append, List.mem_append, ← ih.mem]
        split_ifs with h
        · simp only [List.map_cons, List.map_nil, List.mem_singleton]
          exact ⟨.inl, fun hn ↦ hn.elim id fun he ↦ he ▸ h⟩
        · simp

/-- The entry of a name has the parts of this name, and there is one. -/
theorem mem_gather {groups : List FcType} {name : String} {values : List FcType}
    (h : (name, values) ∈ gather groups) :
    values = (parts groups).filter (fun p ↦ p.t.name == name) ∧ values ≠ [] := by
  have hg := gathered (parts groups)
  have hlookup := hg.lookup name
  have hv : (gather groups).lookup name = some values := lookup_of_mem hg.nodup h
  rw [gather] at hv
  rw [hv, Option.getD_some] at hlookup
  refine ⟨hlookup, ?_⟩
  rintro rfl
  have hmem := (hg.mem name).mp (List.mem_map.mpr ⟨_, h, rfl⟩)
  obtain ⟨p, hp, hname⟩ := List.mem_map.mp hmem
  have : p ∈ ([] : List FcType) := hlookup ▸ List.mem_filter.mpr ⟨hp, by simp [hname]⟩
  cases this

theorem Typ.depth_le_depths {ts : List Typ} {t : Typ} (h : t ∈ ts) : t.depth ≤ Typ.depths ts := by
  induction ts with
  | nil => cases h
  | cons u us ih =>
      rcases List.mem_cons.mp h with rfl | h
      · exact le_max_left _ _
      · exact (ih h).trans (le_max_right _ _)

theorem depth_lt_of_mem_parts {groups : List FcType} {p : FcType} (h : p ∈ parts groups) :
    p.t.depth < Typ.depths (groups.map (·.t)) := by
  obtain ⟨g, hg, hp⟩ := List.mem_flatMap.mp h
  obtain ⟨c, hc, rfl⟩ := List.mem_map.mp hp
  calc c.depth ≤ Typ.depths g.t.children := Typ.depth_le_depths hc
    _ < g.t.depth := by
      obtain ⟨_, ⟨_, _, _, _⟩⟩ := g
      exact Nat.lt_succ_self _
    _ ≤ _ := Typ.depth_le_depths (List.mem_map.mpr ⟨g, hg, rfl⟩)

theorem depths_lt {ts : List Typ} {n : ℕ} (hn : 0 < n) (h : ∀ t ∈ ts, t.depth < n) :
    Typ.depths ts < n := by
  induction ts with
  | nil => exact hn
  | cons t ts ih =>
      exact max_lt (h t List.mem_cons_self) (ih fun t ht ↦ h t (List.mem_cons_of_mem _ ht))

/-- The parts of one name are nested less deeply. -/
theorem depths_lt_of_mem_gather {groups : List FcType} {name : String} {values : List FcType}
    (h : (name, values) ∈ gather groups) :
    Typ.depths (values.map (·.t)) < Typ.depths (groups.map (·.t)) := by
  obtain ⟨hvalues, hne⟩ := mem_gather h
  have hlt : ∀ p ∈ values, p.t.depth < Typ.depths (groups.map (·.t)) := by
    intro p hp
    rw [hvalues] at hp
    exact depth_lt_of_mem_parts (List.mem_of_mem_filter hp)
  obtain ⟨p, hp⟩ := List.exists_mem_of_ne_nil _ hne
  refine depths_lt (Nat.zero_lt_of_lt (hlt p hp)) ?_
  intro t ht
  obtain ⟨p, hp, rfl⟩ := List.mem_map.mp ht
  exact hlt p hp

/-- Induction over objects: what the groups have under a name comes first. -/
theorem gather_induction {P : List FcType → Prop}
    (h : ∀ groups, (∀ name values, (name, values) ∈ gather groups → P values) → P groups)
    (groups : List FcType) : P groups :=
  h groups fun _ values hmem ↦
    have := depths_lt_of_mem_gather hmem
    gather_induction h values
termination_by Typ.depths (groups.map (·.t))

/-! ## Objects -/

theorem objectMembers_congr {object object' : List FcType → Build String}
    {entries : List (String × List FcType)}
    (h : ∀ name values, (name, values) ∈ entries → object values = object' values) :
    objectMembers object entries = objectMembers object' entries := by
  induction entries with
  | nil => rfl
  | cons entry entries ih =>
      obtain ⟨name, values⟩ := entry
      have hmember : objectMember object name values = objectMember object' name values := by
        unfold objectMember
        rw [h name values List.mem_cons_self]
      rw [objectMembers, objectMembers, hmember,
        ih fun name values hmem ↦ h name values (List.mem_cons_of_mem _ hmem)]

/-- More depth than the groups have makes no difference. -/
theorem objectAt_eq {m n : ℕ} {groups : List FcType} (hm : Typ.depths (groups.map (·.t)) < m)
    (hn : Typ.depths (groups.map (·.t)) < n) :
    Builder.objectAt m groups = Builder.objectAt n groups := by
  induction m generalizing n groups with
  | zero => exact absurd hm (Nat.not_lt_zero _)
  | succ m ih =>
      obtain ⟨n, rfl⟩ : ∃ k, n = k + 1 := ⟨n - 1, by omega⟩
      have hmembers : objectMembers (Builder.objectAt m) (gather groups) =
          objectMembers (Builder.objectAt n) (gather groups) := by
        refine objectMembers_congr ?_
        intro name values hmem
        have hlt := depths_lt_of_mem_gather hmem
        exact ih (by omega) (by omega)
      rw [Builder.objectAt, Builder.objectAt]
      dsimp only
      rw [hmembers]

/-- `object` calls itself for the sub-objects. -/
theorem object_eq (groups : List FcType) :
    Builder.object groups =
      if groups.any fun g ↦ g.t.kind ≠ "STRUCTURE" then throw "non-structure data object"
      else if inferCDC (gather groups) = "" then throw "CDC is not recoverable"
      else do
        let id ← nextID
        let children ← objectMembers Builder.object (gather groups)
        addDO (element "DOType" [("id", id), ("cdc", inferCDC (gather groups))] children)
        return id := by
  have hmembers : objectMembers (Builder.objectAt (Typ.depths (groups.map (·.t)))) (gather groups) =
      objectMembers Builder.object (gather groups) := by
    refine objectMembers_congr ?_
    intro name values hmem
    exact objectAt_eq (depths_lt_of_mem_gather hmem) (Nat.lt_succ_self _)
  rw [Builder.object, Builder.objectAt]
  dsimp only
  rw [hmembers]

mutual

/-- A definition describes a data object, with the definitions of a table. -/
inductive DescribesObject (types : List Element) : List FcType → String → Prop
  | mk {groups : List FcType} {id : String} {d : Element}
      (hkind : ∀ g ∈ groups, g.t.kind = "STRUCTURE") (hcdc : inferCDC (gather groups) ≠ "")
      (hd : d ∈ types) (hid : identity d = ("DOType", id))
      (hmembers : List.Forall₂ (fun entry x ↦ DescribesMember types entry.1 entry.2 x)
        (gather groups) d.children) :
      DescribesObject types groups id

/-- An element describes what the groups have under one name. -/
inductive DescribesMember (types : List Element) : String → List FcType → Element → Prop
  /-- A sub-object. -/
  | sub {name : String} {values : List FcType} {id : String}
      (hsub : (values.any fun part ↦ isSubObject part.t) = true)
      (h : DescribesObject types values id) :
      DescribesMember types name values (element "SDO" [("name", name), ("type", id)])
  /-- An attribute, with its constraint. -/
  | attr {name : String} {v w : FcType} {others : List FcType} {da : Element}
      (hsub : ((v :: others).any fun part ↦ isSubObject part.t) = false)
      (hmerge : mergeParts name v others = .ok w) (hda : Describes types w.t "DA" da) :
      DescribesMember types name (v :: others) { da with attrs := da.attrs ++ [("fc", w.fc)] }

end

theorem DescribesMember.mono {types types' : List Element} (h : types ⊆ types') {name : String}
    {values : List FcType} {x : Element}
    (hobj : ∀ id, DescribesObject types values id → DescribesObject types' values id)
    (hx : DescribesMember types name values x) : DescribesMember types' name values x := by
  cases hx with
  | sub hsub hid => exact .sub hsub (hobj _ hid)
  | attr hsub hmerge hda => exact .attr hsub hmerge (hda.mono h)

theorem DescribesObject.mono {types types' : List Element} (h : types ⊆ types')
    {groups : List FcType} {id : String} (hx : DescribesObject types groups id) :
    DescribesObject types' groups id := by
  induction groups using gather_induction generalizing id with
  | h groups ih =>
      obtain ⟨hkind, hcdc, hd, hid, hmembers⟩ := hx
      refine .mk hkind hcdc (h hd) hid ?_
      rw [List.forall₂_iff_zip] at hmembers ⊢
      refine ⟨hmembers.1, ?_⟩
      intro entry x hmem
      exact (hmembers.2 hmem).mono h fun id ↦ ih _ _ (List.of_mem_zip hmem).1

theorem objectMember_emits {name : String} {values : List FcType}
    (h : Emits (Builder.object values) (fun id ↦ [("DOType", id)]) fun id types ↦
      DescribesObject types values id) :
    Emits (objectMember Builder.object name values) attrRef fun x types ↦
      DescribesMember types name values x := by
  unfold objectMember
  by_cases hsub : (values.any fun part ↦ isSubObject part.t) = true
  · rw [if_pos hsub]
    refine h.map ?_ ?_
    · intro id
      simp [attrRef, reference, element, refKind, List.lookup]
    · exact fun id types hid ↦ .sub hsub hid
  · rw [if_neg hsub]
    match values with
    | [] => exact .throw _
    | v :: others =>
        dsimp only
        cases hmerge : mergeParts name v others with
        | error err => exact .throw _
        | ok w =>
            refine (attribute_emits w.t rfl).map ?_ ?_
            · intro da
              simp only [attrRef, reference, List.lookup_append, List.lookup]
              simp
            · exact fun da types hda ↦ .attr (Bool.eq_false_iff.mpr hsub) hmerge hda

theorem objectMembers_emits {entries : List (String × List FcType)}
    (h : ∀ name values, (name, values) ∈ entries →
      Emits (Builder.object values) (fun id ↦ [("DOType", id)]) fun id types ↦
        DescribesObject types values id) :
    Emits (objectMembers Builder.object entries) (·.filterMap reference) fun xs types ↦
      List.Forall₂ (fun entry x ↦ DescribesMember types entry.1 entry.2 x) entries xs := by
  induction entries with
  | nil => exact .pure _ rfl .nil
  | cons entry entries ih =>
      obtain ⟨name, values⟩ := entry
      refine (objectMember_emits (h name values List.mem_cons_self)).both
        (ih fun name values hmem ↦ h name values (List.mem_cons_of_mem _ hmem)) ?_ ?_ ?_ ?_
      · exact fun _ _ _ hsub hx ↦ hx.mono hsub fun _ ↦ .mono hsub
      · exact fun _ _ _ hsub hx ↦ hx.imp fun _ _ hm ↦ hm.mono hsub fun _ ↦ .mono hsub
      · exact attrRef_cons
      · exact fun x xs types hx hxs ↦ .cons hx hxs

/-- The conversion of an object describes it. -/
theorem object_emits (groups : List FcType) :
    Emits (Builder.object groups) (fun id ↦ [("DOType", id)]) fun id types ↦
      DescribesObject types groups id := by
  induction groups using gather_induction with
  | h groups ih =>
      rw [object_eq]
      by_cases hkind : (groups.any fun g ↦ g.t.kind ≠ "STRUCTURE") = true
      · rw [if_pos hkind]
        exact .throw _
      · rw [if_neg hkind]
        by_cases hcdc : inferCDC (gather groups) = ""
        · rw [if_pos hcdc]
          exact .throw _
        · rw [if_neg hcdc]
          refine .define "DOType" (objectMembers_emits ih) ?_ addDO_appends ?_ ?_ ?_ ?_
          · exact fun _ _ _ hsub hx ↦ hx.imp fun _ _ hm ↦ hm.mono hsub fun _ ↦ .mono hsub
          · exact fun _ _ ↦ rfl
          · exact fun _ _ ↦ rfl
          · exact fun _ ↦ rfl
          · intro id xs types hmem hpost
            refine .mk ?_ hcdc hmem rfl hpost
            simpa using hkind

/-! ## What can be converted -/

/-- An attribute with an SCL type for every value in it. -/
inductive Convertible : Typ → Prop
  /-- A value of a basic type. -/
  | basic {t : Typ} {s : Shape} (hshape : t.shape = some s) (hkind : s.kind ≠ "STRUCTURE")
      (hbasic : basicType t.name s.kind s.size ≠ "") : Convertible t
  /-- A structure. -/
  | struct {t : Typ} {s : Shape} (hshape : t.shape = some s) (hkind : s.kind = "STRUCTURE")
      (hfields : ∀ f ∈ s.fields, Convertible f) : Convertible t

/-- A data object that has a CDC, and whose attributes can be converted. -/
inductive Representable : List FcType → Prop
  | mk {groups : List FcType} (hkind : ∀ g ∈ groups, g.t.kind = "STRUCTURE")
      (hcdc : inferCDC (gather groups) ≠ "")
      (hsub : ∀ name values, (name, values) ∈ gather groups →
        (values.any fun part ↦ isSubObject part.t) = true → Representable values)
      (hattr : ∀ name v others, (name, v :: others) ∈ gather groups →
        ((v :: others).any fun part ↦ isSubObject part.t) = false →
          ∃ w, mergeParts name v others = .ok w ∧ Convertible w.t) :
      Representable groups

/-- A step that does not fail. -/
def Total {α : Type} (m : Build α) : Prop := ∀ b, ∃ a, (m b).1 = .ok a

theorem Total.bind {α β : Type} {m : Build α} {f : α → Build β} (hm : Total m)
    (hf : ∀ a, Total (f a)) : Total (m >>= f) := by
  intro b
  obtain ⟨a, ha⟩ := hm b
  have hb : m b = (.ok a, (m b).2) := Prod.ext ha rfl
  rw [bind_ok hb]
  exact hf a _

theorem Total.pure {α : Type} (a : α) : Total (pure a : Build α) := fun _ ↦ ⟨a, rfl⟩

theorem nextID_total : Total nextID := fun _ ↦ ⟨_, rfl⟩

theorem addDO_total (x : Element) : Total (addDO x) := fun _ ↦ ⟨_, rfl⟩

theorem addDA_total (x : Element) : Total (addDA x) := fun _ ↦ ⟨_, rfl⟩

theorem attributes_total {ts : List Typ} (h : ∀ t ∈ ts, Total (Builder.attribute t "BDA")) :
    Total (Builder.attributes ts) := by
  induction ts with
  | nil =>
      unfold Builder.attributes
      exact .pure _
  | cons t ts ih =>
      unfold Builder.attributes
      refine (h t List.mem_cons_self).bind fun x ↦ ?_
      exact (ih fun t ht ↦ h t (List.mem_cons_of_mem _ ht)).bind fun xs ↦ .pure _

theorem attribute_total {t : Typ} (h : Convertible t) (tag : String) :
    Total (Builder.attribute t tag) := by
  induction h generalizing tag with
  | @basic t s hshape hkind hbasic =>
      rw [attribute_eq, hshape]
      dsimp only
      unfold typed
      dsimp only
      rw [if_neg hkind, if_neg hbasic]
      exact .pure _
  | @struct t s hshape hkind hfields ih =>
      rw [attribute_eq, hshape]
      dsimp only
      unfold typed
      rw [if_pos hkind]
      refine nextID_total.bind fun id ↦ ?_
      refine (attributes_total fun f hf ↦ ih f hf "BDA").bind fun xs ↦ ?_
      exact (addDA_total _).bind fun _ ↦ .pure _

theorem objectMembers_total {entries : List (String × List FcType)}
    (h : ∀ name values, (name, values) ∈ entries →
      Total (objectMember Builder.object name values)) :
    Total (objectMembers Builder.object entries) := by
  induction entries with
  | nil => exact .pure _
  | cons entry entries ih =>
      obtain ⟨name, values⟩ := entry
      refine (h name values List.mem_cons_self).bind fun x ↦ ?_
      exact (ih fun name values hmem ↦ h name values (List.mem_cons_of_mem _ hmem)).bind
        fun xs ↦ .pure _

/-- What is representable is converted. -/
theorem object_total {groups : List FcType} (h : Representable groups) :
    Total (Builder.object groups) := by
  induction h with
  | @mk groups hkind hcdc hsub hattr ih =>
      rw [object_eq]
      have hany : ¬(groups.any fun g ↦ g.t.kind ≠ "STRUCTURE") = true := by simpa using hkind
      rw [if_neg hany, if_neg hcdc]
      refine nextID_total.bind fun id ↦ ?_
      have hmembers : Total (objectMembers Builder.object (gather groups)) := by
        refine objectMembers_total ?_
        intro name values hmem
        unfold objectMember
        by_cases hany : (values.any fun part ↦ isSubObject part.t) = true
        · rw [if_pos hany]
          exact (ih name values hmem hany).bind fun _ ↦ .pure _
        · rw [if_neg hany]
          match values with
          | [] => exact absurd rfl (mem_gather hmem).2
          | v :: others =>
              obtain ⟨w, hmerge, hw⟩ := hattr name v others hmem (Bool.eq_false_iff.mpr hany)
              dsimp only
              rw [hmerge]
              exact (attribute_total hw "DA").bind fun _ ↦ .pure _
      exact hmembers.bind fun xs ↦ (addDO_total _).bind fun _ ↦ .pure _

/-! ## The objects of a node -/

/-- The children of an `LNodeType`: the objects that can be converted, in their order. -/
inductive DescribesObjects (types : List Element) :
    List (String × List FcType) → List Element → Prop
  | nil : DescribesObjects types [] []
  /-- An object that is exported. -/
  | kept {name : String} {groups : List FcType} {id : String}
      {rest : List (String × List FcType)} {xs : List Element}
      (h : DescribesObject types groups id) (hrest : DescribesObjects types rest xs) :
      DescribesObjects types ((name, groups) :: rest)
        (element "DO" [("name", name), ("type", id)] :: xs)
  /-- An object that is left out. -/
  | omitted {name : String} {groups : List FcType} {rest : List (String × List FcType)}
      {xs : List Element} (h : ¬Representable groups) (hrest : DescribesObjects types rest xs) :
      DescribesObjects types ((name, groups) :: rest) xs

theorem DescribesObjects.mono {types types' : List Element} (h : types ⊆ types')
    {entries : List (String × List FcType)} {xs : List Element}
    (hx : DescribesObjects types entries xs) : DescribesObjects types' entries xs := by
  induction hx with
  | nil => exact .nil
  | kept hid _ ih => exact .kept (hid.mono h) ih
  | omitted hnot _ ih => exact .omitted hnot ih

/-- **An object that fails leaves nothing behind.** -/
theorem exportObject_emits (path name : String) (groups : List FcType) :
    Emits (exportObject path name groups) (fun x ↦ x.toList.filterMap reference) fun x types ↦
      match x with
      | some x => ∃ id, DescribesObject types groups id ∧
          x = element "DO" [("name", name), ("type", id)]
      | none => ¬Representable groups := by
  intro b
  obtain ⟨dos, das, hext, hok⟩ := object_emits groups b
  unfold exportObject
  rcases hb : Builder.object groups b with ⟨err | id, b'⟩
  · rw [hb] at hext
    have hdos : b'.dos = b.dos ++ dos := hext.dos
    have hdas : b'.das = b.das ++ das := hext.das
    refine ⟨[], [], ⟨hext.lns, ?_, ?_, hext.serial⟩, ?_⟩
    · simp [hdos]
    · simp [hdas]
    · rintro _ ⟨⟩
      refine ⟨.nil _, ?_⟩
      intro hrep
      obtain ⟨id, hid⟩ := object_total hrep b
      rw [hb] at hid
      cases hid
  · rw [hb] at hext hok
    refine ⟨dos, das, hext, ?_⟩
    rintro _ ⟨⟩
    obtain ⟨hpart, hdesc⟩ := hok id rfl
    exact ⟨hpart, id, hdesc, rfl⟩

theorem exportObjects_emits (path : String) (entries : List (String × List FcType)) :
    Emits (exportObjects path entries) (·.filterMap reference) fun xs types ↦
      DescribesObjects types entries xs := by
  induction entries with
  | nil => exact .pure _ rfl .nil
  | cons entry entries ih =>
      obtain ⟨name, groups⟩ := entry
      refine (exportObject_emits path name groups).both ih ?_ ?_ ?_ ?_
      · intro x types types' hsub hx
        cases x with
        | none => exact hx
        | some x => exact hx.imp fun id h ↦ ⟨h.1.mono hsub, h.2⟩
      · exact fun _ _ _ hsub hx ↦ hx.mono hsub
      · exact fun x xs ↦ List.filterMap_append
      · intro x xs types hx hxs
        cases x with
        | none => exact .omitted hx hxs
        | some x =>
            obtain ⟨id, hid, rfl⟩ := hx
            exact .kept hid hxs

theorem exportObjects_total (path : String) (entries : List (String × List FcType)) :
    Total (exportObjects path entries) := by
  induction entries with
  | nil => exact .pure _
  | cons entry entries ih =>
      obtain ⟨name, groups⟩ := entry
      refine Total.bind ?_ fun x ↦ ih.bind fun xs ↦ .pure _
      intro b
      unfold exportObject
      rcases Builder.object groups b with ⟨_ | _, _⟩
      · exact ⟨_, rfl⟩
      · exact ⟨_, rfl⟩

end ProcessBus.Scl
