import Mathlib

/-!
# Tables of definitions

A definition has a kind and an identifier, and refers to others by these two.  A table is built by
parts: what one part adds is closed if its references lead to definitions of the part, no identifier
stands twice, and every definition is reached from the references that the part hands out.  Parts
with different identifiers make a part again, and so does a definition over the part it refers to.
-/

namespace ProcessBus.Definitions

variable {D κ ι : Type*} (name : D → κ × ι) (refs : D → List (κ × ι))

/-- A definition is reached from references, through the definitions of a table. -/
inductive Reach (defs : List D) (roots : List (κ × ι)) : D → Prop
  /-- A reference leads to it. -/
  | root {d : D} (hd : d ∈ defs) (h : name d ∈ roots) : Reach defs roots d
  /-- A definition that is reached refers to it. -/
  | ref {d d' : D} (h : Reach defs roots d) (hd : d' ∈ defs) (href : name d' ∈ refs d) :
      Reach defs roots d'

/-- A part of a table, with the references it hands out and the identifiers it may use. -/
structure Part (defs : List D) (roots : List (κ × ι)) (ids : Set ι) : Prop where
  fresh : ∀ d ∈ defs, (name d).2 ∈ ids
  nodup : (defs.map fun d ↦ (name d).2).Nodup
  closed : ∀ d ∈ defs, ∀ r ∈ refs d, ∃ d' ∈ defs, name d' = r
  rooted : ∀ r ∈ roots, ∃ d ∈ defs, name d = r
  reach : ∀ d ∈ defs, Reach name refs defs roots d

variable {name refs} {defs defs' : List D} {roots roots' : List (κ × ι)} {ids ids' : Set ι}

theorem Reach.mono (hdefs : defs ⊆ defs') (hroots : roots ⊆ roots') {d : D}
    (h : Reach name refs defs roots d) : Reach name refs defs' roots' d := by
  induction h with
  | root hd h => exact .root (hdefs hd) (hroots h)
  | ref _ hd href ih => exact .ref ih (hdefs hd) href

/-- Reached from a reference of a definition that is reached itself. -/
theorem Reach.trans {d d' : D} (hd : Reach name refs defs' roots' d) (hdefs : defs ⊆ defs')
    (h : Reach name refs defs (refs d) d') : Reach name refs defs' roots' d' := by
  induction h with
  | root hmem href => exact .ref hd (hdefs hmem) href
  | ref _ hmem href ih => exact .ref ih (hdefs hmem) href

theorem Part.nil (ids : Set ι) : Part name refs [] [] ids where
  fresh := by simp
  nodup := by simp
  closed := by simp
  rooted := by simp
  reach := by simp

theorem Part.mono (h : Part name refs defs roots ids) (hids : ids ⊆ ids') :
    Part name refs defs roots ids' :=
  { h with fresh := fun d hd ↦ hids (h.fresh d hd) }

theorem Part.perm (h : Part name refs defs roots ids) (hp : defs.Perm defs') :
    Part name refs defs' roots ids where
  fresh d hd := h.fresh d (hp.mem_iff.mpr hd)
  nodup := (hp.map _).nodup_iff.mp h.nodup
  closed d hd r hr := by
    obtain ⟨d', hd', he⟩ := h.closed d (hp.mem_iff.mpr hd) r hr
    exact ⟨d', hp.mem_iff.mp hd', he⟩
  rooted r hr := by
    obtain ⟨d, hd, he⟩ := h.rooted r hr
    exact ⟨d, hp.mem_iff.mp hd, he⟩
  reach d hd := (h.reach d (hp.mem_iff.mpr hd)).mono (fun _ ↦ hp.mem_iff.mp) (List.Subset.refl _)

/-- Two parts with different identifiers are a part. -/
theorem Part.append (h : Part name refs defs roots ids) (h' : Part name refs defs' roots' ids')
    (hdisj : Disjoint ids ids') : Part name refs (defs ++ defs') (roots ++ roots') (ids ∪ ids') where
  fresh d hd := by
    rcases List.mem_append.mp hd with hd | hd
    · exact .inl (h.fresh d hd)
    · exact .inr (h'.fresh d hd)
  nodup := by
    rw [List.map_append, List.nodup_append]
    refine ⟨h.nodup, h'.nodup, ?_⟩
    rintro _ hi _ hj rfl
    obtain ⟨d, hd, rfl⟩ := List.mem_map.mp hi
    obtain ⟨d', hd', he⟩ := List.mem_map.mp hj
    exact Set.disjoint_left.mp hdisj (h.fresh d hd) (he ▸ h'.fresh d' hd')
  closed d hd r hr := by
    rcases List.mem_append.mp hd with hd | hd
    · obtain ⟨d', hd', he⟩ := h.closed d hd r hr
      exact ⟨d', List.mem_append_left _ hd', he⟩
    · obtain ⟨d', hd', he⟩ := h'.closed d hd r hr
      exact ⟨d', List.mem_append_right _ hd', he⟩
  rooted r hr := by
    rcases List.mem_append.mp hr with hr | hr
    · obtain ⟨d, hd, he⟩ := h.rooted r hr
      exact ⟨d, List.mem_append_left _ hd, he⟩
    · obtain ⟨d, hd, he⟩ := h'.rooted r hr
      exact ⟨d, List.mem_append_right _ hd, he⟩
  reach d hd := by
    rcases List.mem_append.mp hd with hd | hd
    · exact (h.reach d hd).mono (List.subset_append_left _ _) (List.subset_append_left _ _)
    · exact (h'.reach d hd).mono (List.subset_append_right _ _) (List.subset_append_right _ _)

/-- A definition over the part it refers to is a part, which hands out the definition. -/
theorem Part.define {d : D} (h : Part name refs defs (refs d) ids) (hd : (name d).2 ∉ ids) :
    Part name refs (defs ++ [d]) [name d] (insert (name d).2 ids) where
  fresh d' hd' := by
    rcases List.mem_append.mp hd' with hd' | hd'
    · exact .inr (h.fresh d' hd')
    · exact .inl (by rw [List.mem_singleton.mp hd'])
  nodup := by
    rw [List.map_append, List.nodup_append]
    refine ⟨h.nodup, by simp, ?_⟩
    rintro _ hi _ hj rfl
    obtain ⟨d', hd', rfl⟩ := List.mem_map.mp hi
    rw [List.map_singleton, List.mem_singleton] at hj
    exact hd (hj ▸ h.fresh d' hd')
  closed d' hd' r hr := by
    rcases List.mem_append.mp hd' with hd' | hd'
    · obtain ⟨d'', hmem, he⟩ := h.closed d' hd' r hr
      exact ⟨d'', List.mem_append_left _ hmem, he⟩
    · rw [List.mem_singleton.mp hd'] at hr
      obtain ⟨d'', hmem, he⟩ := h.rooted r hr
      exact ⟨d'', List.mem_append_left _ hmem, he⟩
  rooted r hr := ⟨d, by simp, (List.mem_singleton.mp hr).symm⟩
  reach d' hd' := by
    have hroot : Reach name refs (defs ++ [d]) [name d] d := .root (by simp) (by simp)
    rcases List.mem_append.mp hd' with hd' | hd'
    · exact hroot.trans (List.subset_append_left _ _) (h.reach d' hd')
    · rw [List.mem_singleton.mp hd']
      exact hroot

/-- Two parts of two lists each, by their lists. -/
theorem perm_append_append_comm (xs ys xs' ys' : List D) :
    ((xs ++ ys) ++ (xs' ++ ys')).Perm ((xs ++ xs') ++ (ys ++ ys')) := by
  rw [List.append_assoc, List.append_assoc]
  refine .append_left xs ?_
  rw [← List.append_assoc, ← List.append_assoc]
  exact List.perm_append_comm.append_right ys'

/-- An identifier determines its definition. -/
theorem Part.unique (h : Part name refs defs roots ids) {d d' : D} (hd : d ∈ defs) (hd' : d' ∈ defs)
    (he : (name d).2 = (name d').2) : d = d' :=
  List.inj_on_of_nodup_map h.nodup hd hd' he

end ProcessBus.Definitions
