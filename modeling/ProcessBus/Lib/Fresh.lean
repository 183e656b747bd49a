import Mathlib.Data.Fintype.Card

/-!
# Fresh names by numbering

The first of a numbered sequence of names that is not in use.  If no name comes twice, it is found
among one more names than are in use.
-/

namespace ProcessBus.Lib

variable {α : Type*} [DecidableEq α] (name : ℕ → α) (used : List α)

/-- The search from number `n` on, for at most `fuel` steps. -/
def firstUnused.search : ℕ → ℕ → α
  | 0, n => name n
  | fuel + 1, n => if name n ∈ used then search fuel (n + 1) else name n

/-- The first name that is not in use. -/
def firstUnused : α := firstUnused.search name used used.length 0

variable {name used}

theorem search_eq_name (fuel n : ℕ) : ∃ k, firstUnused.search name used fuel n = name k := by
  induction fuel generalizing n with
  | zero => exact ⟨n, rfl⟩
  | succ fuel ih =>
      rw [firstUnused.search]
      split
      · exact ih (n + 1)
      · exact ⟨n, rfl⟩

/-- If the search ends with a name in use, all that it tried are. -/
theorem mem_of_search_mem {fuel n : ℕ} (h : firstUnused.search name used fuel n ∈ used) :
    ∀ k ≤ fuel, name (n + k) ∈ used := by
  induction fuel generalizing n with
  | zero =>
      intro k hk
      obtain rfl := Nat.le_zero.mp hk
      exact h
  | succ fuel ih =>
      rw [firstUnused.search] at h
      split at h
      · rename_i hused
        intro k hk
        cases k with
        | zero => exact hused
        | succ k =>
            rw [← Nat.add_assoc, Nat.add_right_comm]
            exact ih h k (Nat.le_of_succ_le_succ hk)
      · rename_i hused
        exact absurd h hused

/-- **The name found is not in use.** -/
theorem firstUnused_notMem (hname : Function.Injective name) : firstUnused name used ∉ used := by
  intro h
  have hall := mem_of_search_mem h
  have hsub : (List.range (used.length + 1)).map name ⊆ used := by
    intro x hx
    obtain ⟨k, hk, rfl⟩ := List.mem_map.mp hx
    have hused := hall k (Nat.le_of_lt_succ (List.mem_range.mp hk))
    rwa [Nat.zero_add] at hused
  have hnodup : ((List.range (used.length + 1)).map name).Nodup :=
    List.nodup_range.map hname
  have hlength := (hnodup.subperm hsub).length_le
  rw [List.length_map, List.length_range] at hlength
  exact Nat.not_succ_le_self _ hlength

theorem firstUnused_eq_name : ∃ k, firstUnused name used = name k := search_eq_name _ _

end ProcessBus.Lib
