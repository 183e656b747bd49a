import Mathlib.Data.List.Nodup

/-!
# Lists arranged by keys

A list is arranged by a list of keys if its elements are put in the order of their keys.  If no two
elements and no two keys are equal, this is the list itself exactly if its keys come in the order of
the list of keys (`arrange_eq_iff`).
-/

namespace ProcessBus.Lib

variable {α κ : Type} [DecidableEq κ]

/-- The elements of a list in the order of a list of keys. -/
def arrange (key : α → κ) (keys : List κ) (xs : List α) : List α :=
  keys.flatMap fun k ↦ xs.filter (key · == k)

theorem filter_key_of_notMem {key : α → κ} {k : κ} {xs : List α} (h : k ∉ xs.map key) :
    xs.filter (key · == k) = [] := by
  rw [List.filter_eq_nil_iff]
  intro x hx hk
  exact h (List.mem_map.mpr ⟨x, hx, beq_iff_eq.mp hk⟩)

/-- A key selects one element at most. -/
theorem filter_key_eq {key : α → κ} {xs : List α} (h : (xs.map key).Nodup) {x : α} (hx : x ∈ xs) :
    xs.filter (key · == key x) = [x] := by
  induction xs with
  | nil => cases hx
  | cons y ys ih =>
      rw [List.map_cons, List.nodup_cons] at h
      rcases List.mem_cons.mp hx with rfl | hx
      · rw [List.filter_cons_of_pos (p := (key · == key x)) (beq_self_eq_true _),
          filter_key_of_notMem h.1]
      · have hne : ¬(key y == key x) = true := by
          intro he
          exact h.1 (beq_iff_eq.mp he ▸ List.mem_map.mpr ⟨x, hx, rfl⟩)
        rw [List.filter_cons_of_neg (p := (key · == key x)) hne, ih h.2 hx]

theorem arrange_cons_of_notMem {key : α → κ} {k : κ} {keys : List κ} {xs : List α}
    (h : k ∉ xs.map key) : arrange key (k :: keys) xs = arrange key keys xs := by
  rw [arrange, List.flatMap_cons, filter_key_of_notMem h, List.nil_append]
  rfl

theorem arrange_cons_cons {key : α → κ} {x : α} {keys : List κ} {xs : List α}
    (hkeys : key x ∉ keys) (hxs : key x ∉ xs.map key) :
    arrange key (key x :: keys) (x :: xs) = x :: arrange key keys xs := by
  rw [arrange, List.flatMap_cons,
    List.filter_cons_of_pos (p := (key · == key x)) (beq_self_eq_true _),
    filter_key_of_notMem hxs, arrange, List.cons_append, List.nil_append]
  refine congrArg (x :: ·) (List.flatMap_congr fun k hk ↦ ?_)
  have hne : ¬(key x == k) = true := by
    intro he
    exact hkeys (beq_iff_eq.mp he ▸ hk)
  exact List.filter_cons_of_neg hne

theorem map_key_arrange (key : α → κ) (keys : List κ) {xs : List α} (h : (xs.map key).Nodup) :
    ((arrange key keys xs).map key).Sublist keys := by
  induction keys with
  | nil => exact .slnil
  | cons k keys ih =>
      by_cases hk : k ∈ xs.map key
      · obtain ⟨x, hx, rfl⟩ := List.mem_map.mp hk
        rw [arrange, List.flatMap_cons, filter_key_eq h hx]
        exact ih.cons_cons _
      · rw [arrange_cons_of_notMem hk]
        exact ih.cons _

theorem arrange_of_sublist {key : α → κ} {keys : List κ} {xs : List α} (hkeys : keys.Nodup)
    (h : (xs.map key).Sublist keys) : arrange key keys xs = xs := by
  induction keys generalizing xs with
  | nil =>
      rw [List.sublist_nil, List.map_eq_nil_iff] at h
      rw [h]
      rfl
  | cons k keys ih =>
      rw [List.nodup_cons] at hkeys
      rcases List.sublist_cons_iff.mp h with h | ⟨names, hnames, h⟩
      · rw [arrange_cons_of_notMem fun hk ↦ hkeys.1 (h.subset hk), ih hkeys.2 h]
      · obtain ⟨x, xs, rfl, rfl, rfl⟩ := List.map_eq_cons_iff.mp hnames
        rw [arrange_cons_cons hkeys.1 fun hk ↦ hkeys.1 (h.subset hk), ih hkeys.2 h]

/-- A list is arranged by keys as it stands exactly if its own keys come in their order. -/
theorem arrange_eq_iff {key : α → κ} {keys : List κ} {xs : List α} (hkeys : keys.Nodup)
    (hxs : (xs.map key).Nodup) : arrange key keys xs = xs ↔ (xs.map key).Sublist keys := by
  constructor
  · intro h
    have hsublist := map_key_arrange key keys hxs
    rwa [h] at hsublist
  · exact arrange_of_sublist hkeys

omit [DecidableEq κ] in
/-- The keys of a list that was made key by key, with one element for a key at most. -/
theorem map_key_flatMap {ι : Type} {key : α → κ} {g : ι → κ} {entries : List ι}
    {f : ι → List α} (hf : ∀ e ∈ entries, ((f e).map key).Sublist [g e]) :
    ((entries.flatMap f).map key).Sublist (entries.map g) := by
  induction entries with
  | nil => exact .slnil
  | cons e entries ih =>
      obtain ⟨hhead, hrest⟩ := List.forall_mem_cons.mp hf
      rw [List.flatMap_cons, List.map_append, List.map_cons]
      exact hhead.append (ih hrest)

/-- What stands under one key in a list that was made key by key. -/
theorem filter_flatMap_key {ι : Type} {key : α → κ} {g : ι → κ} {entries : List ι}
    {f : ι → List α} (hnodup : (entries.map g).Nodup)
    (hf : ∀ e ∈ entries, ∀ x ∈ f e, key x = g e) {e : ι} (he : e ∈ entries) :
    (entries.flatMap f).filter (key · == g e) = f e := by
  induction entries with
  | nil => cases he
  | cons e' entries ih =>
      obtain ⟨hhead, hrest⟩ := List.forall_mem_cons.mp hf
      rw [List.map_cons, List.nodup_cons] at hnodup
      rw [List.flatMap_cons, List.filter_append]
      rcases List.mem_cons.mp he with rfl | he
      · rw [List.filter_eq_self.mpr fun x hx ↦ beq_iff_eq.mpr (hhead x hx),
          List.filter_eq_nil_iff.mpr, List.append_nil]
        intro x hx hk
        obtain ⟨e', he', hx⟩ := List.mem_flatMap.mp hx
        have hg : g e' = g e := (hrest e' he' x hx).symm.trans (beq_iff_eq.mp hk)
        exact hnodup.1 (hg ▸ List.mem_map.mpr ⟨e', he', rfl⟩)
      · rw [ih hnodup.2 hrest he, List.filter_eq_nil_iff.mpr, List.nil_append]
        intro x hx hk
        have hg : g e' = g e := (hhead x hx).symm.trans (beq_iff_eq.mp hk)
        exact hnodup.1 (hg ▸ List.mem_map.mpr ⟨e, he, rfl⟩)

omit [DecidableEq κ] in
/-- What is made of a list if one key makes something only. -/
theorem flatMap_eq_of_key {β : Type} {key : α → κ} {xs : List α} (hnodup : (xs.map key).Nodup)
    {x : α} (hx : x ∈ xs) {f : α → List β} (hf : ∀ y ∈ xs, key y ≠ key x → f y = []) :
    xs.flatMap f = f x := by
  induction xs with
  | nil => cases hx
  | cons y ys ih =>
      obtain ⟨hhead, hrest⟩ := List.forall_mem_cons.mp hf
      rw [List.map_cons, List.nodup_cons] at hnodup
      rw [List.flatMap_cons]
      rcases List.mem_cons.mp hx with rfl | hx
      · have hnil : ys.flatMap f = [] := by
          rw [List.flatMap_eq_nil_iff]
          intro y hy
          refine hrest y hy fun he ↦ hnodup.1 ?_
          exact he ▸ List.mem_map.mpr ⟨y, hy, rfl⟩
        rw [hnil, List.append_nil]
      · have hne : key y ≠ key x := by
          intro he
          exact hnodup.1 (he ▸ List.mem_map.mpr ⟨x, hx, rfl⟩)
        rw [hhead hne, ih hnodup.2 hx hrest, List.nil_append]

end ProcessBus.Lib
