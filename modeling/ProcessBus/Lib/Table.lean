import Mathlib.Data.List.AList

/-!
# Finite tables

A Go map is an association list without repeated keys, `AList` of Mathlib.  Two more
operations are needed than Mathlib has: updating every value in place, and keeping the entries
that pass a test.  Both are characterised by what `lookup` finds afterwards.  The order of the
entries stands for nothing; whoever iterates over a table must say in which order.
-/

namespace ProcessBus.Lib

/-- A finite map from `κ` to `ν`. -/
abbrev Table (κ ν : Type) := AList fun _ : κ ↦ ν

namespace Table

variable {κ ν : Type}

/-- Update every value. -/
def mapVal (f : κ → ν → ν) (t : Table κ ν) : Table κ ν :=
  ⟨t.entries.map fun e ↦ ⟨e.1, f e.1 e.2⟩, t.nodupKeys.map₂ f⟩

/-- Keep the entries that pass a test. -/
def filter (p : κ → ν → Bool) (t : Table κ ν) : Table κ ν :=
  ⟨t.entries.filter fun e ↦ p e.1 e.2, t.nodupKeys.sublist List.filter_sublist⟩

/-- The values, in the order of the entries. -/
def vals (t : Table κ ν) : List ν := t.entries.map Sigma.snd

variable [DecidableEq κ]

theorem lookup_mapVal (f : κ → ν → ν) (t : Table κ ν) (k : κ) :
    (mapVal f t).lookup k = (t.lookup k).map (f k) :=
  List.dlookup_map₂ k

theorem mem_entries_iff {t : Table κ ν} {k : κ} {v : ν} :
    ⟨k, v⟩ ∈ t.entries ↔ t.lookup k = some v :=
  (List.mem_dlookup_iff t.nodupKeys).symm

theorem mem_vals_iff {t : Table κ ν} {v : ν} : v ∈ t.vals ↔ ∃ k, t.lookup k = some v := by
  simp only [vals, List.mem_map, Sigma.exists, exists_eq_right, mem_entries_iff]

/-- A lookup in the kept entries finds what was there and passes the test. -/
theorem lookup_filter_eq_some {p : κ → ν → Bool} {t : Table κ ν} {k : κ} {v : ν} :
    (filter p t).lookup k = some v ↔ t.lookup k = some v ∧ p k v = true := by
  rw [← mem_entries_iff, ← mem_entries_iff]
  exact List.mem_filter

/-- A lookup after an insertion. -/
theorem lookup_insert_eq_some {t : Table κ ν} {k k' : κ} {v w : ν} :
    (t.insert k' w).lookup k = some v ↔ k = k' ∧ v = w ∨ k ≠ k' ∧ t.lookup k = some v := by
  by_cases h : k = k'
  · subst h
    simp [AList.lookup_insert, eq_comm]
  · simp [AList.lookup_insert_ne h, h]

/-- A lookup after a deletion. -/
theorem lookup_erase_eq_some {t : Table κ ν} {k k' : κ} {v : ν} :
    (t.erase k').lookup k = some v ↔ k ≠ k' ∧ t.lookup k = some v := by
  by_cases h : k = k'
  · subst h
    simp [AList.lookup_erase]
  · simp [AList.lookup_erase_ne h, h]

/-- What is selected from the values, when only the entry of `k` is ever selected. -/
theorem filterMap_vals {β : Type*} {t : Table κ ν} {k : κ} {f : ν → Option β}
    (h : ∀ k' v, t.lookup k' = some v → k' ≠ k → f v = none) :
    t.vals.filterMap f = ((t.lookup k).bind f).toList := by
  have hentries : ∀ e ∈ t.entries, e.1 ≠ k → f e.2 = none := fun e he ↦
    h e.1 e.2 (mem_entries_iff.mp he)
  rw [vals, AList.lookup]
  have hnodup := t.nodupKeys
  generalize t.entries = l at hentries hnodup
  induction l with
  | nil => rfl
  | cons e l ih =>
      obtain ⟨k', v⟩ := e
      obtain ⟨hk', hl⟩ := List.nodupKeys_cons.mp hnodup
      have ih := ih (fun e he ↦ hentries e (List.mem_cons_of_mem _ he)) hl
      by_cases hkk : k' = k
      · subst hkk
        rw [List.dlookup_eq_none.mpr hk'] at ih
        rw [List.dlookup_cons_eq, Option.bind_some]
        cases hv : f v with
        | none => simpa [hv] using ih
        | some b => simpa [hv] using ih
      · have hv : f v = none := hentries ⟨k', v⟩ List.mem_cons_self hkk
        rw [List.dlookup_cons_ne _ _ (Ne.symm hkk), ← ih, List.map_cons,
          List.filterMap_cons_none hv]

end Table

end ProcessBus.Lib
