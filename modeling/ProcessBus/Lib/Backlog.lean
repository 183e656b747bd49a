import Mathlib.Data.List.Nodup

/-!
# Backlogs

A short list of items that wait for something with the same key.  Storing an item replaces the one
with its key, which keeps its place; if there is none, the item is put at the end, and the first one
has to go once there are `limit` of them.  No key waits twice, and no more than `limit` items wait
(`Wf`).
-/

namespace ProcessBus.Lib.Backlog

variable {α κ : Type*}

/-- What is left of a list after room was made for one more item. -/
def makeRoom (limit : ℕ) (items : List α) : List α :=
  if items.length = limit then items.tail else items

section Operations

variable [DecidableEq κ] (key : α → κ) (limit : ℕ)

/-- Replaces the item with the same key, or appends and drops the first item of a full list. -/
def store (items : List α) (x : α) : List α :=
  if items.any (fun y ↦ decide (key y = key x)) then
    items.set (items.findIdx fun y ↦ decide (key y = key x)) x
  else if items.length = limit then items.tail ++ [x]
  else items ++ [x]

/-- The first item with this key, and the others. -/
def take (items : List α) (k : κ) : Option (α × List α) :=
  (items.find? fun y ↦ decide (key y = k)).map fun x ↦
    (x, items.eraseP fun y ↦ decide (key y = k))

end Operations

/-- At most `limit` items, all with different keys. -/
structure Wf (key : α → κ) (limit : ℕ) (items : List α) : Prop where
  length_le : items.length ≤ limit
  nodup : (items.map key).Nodup

variable {key : α → κ} {limit : ℕ} {items rest : List α} {x : α} {k : κ}

theorem Wf.nil : Wf key limit ([] : List α) := ⟨Nat.zero_le _, List.nodup_nil⟩

theorem Wf.sublist (h : Wf key limit items) (hsub : rest.Sublist items) : Wf key limit rest :=
  ⟨Nat.le_trans hsub.length_le h.length_le, h.nodup.sublist (hsub.map key)⟩

theorem makeRoom_sublist (items : List α) : (makeRoom limit items).Sublist items := by
  unfold makeRoom
  split
  · exact List.tail_sublist items
  · exact .refl items

variable [DecidableEq κ]

/-- A new key goes to the end. -/
theorem store_of_notMem (h : key x ∉ items.map key) :
    store key limit items x = makeRoom limit items ++ [x] := by
  have hany : ¬ (items.any fun y ↦ decide (key y = key x)) = true := by
    intro hany
    obtain ⟨y, hy, he⟩ := List.any_eq_true.mp hany
    exact h (List.mem_map.mpr ⟨y, hy, of_decide_eq_true he⟩)
  unfold store makeRoom
  rw [if_neg hany]
  split <;> rfl

/-- A key that waits already stays where it is. -/
theorem map_key_store_of_mem (h : key x ∈ items.map key) :
    (store key limit items x).map key = items.map key := by
  obtain ⟨y, hy, he⟩ := List.mem_map.mp h
  have hany : (items.any fun y ↦ decide (key y = key x)) = true :=
    List.any_eq_true.mpr ⟨y, hy, decide_eq_true he⟩
  have hlt : (items.findIdx fun y ↦ decide (key y = key x)) < items.length :=
    List.findIdx_lt_length_of_exists ⟨y, hy, decide_eq_true he⟩
  have hkey := of_decide_eq_true (List.findIdx_getElem (w := hlt))
  unfold store
  rw [if_pos hany, List.map_set]
  generalize (items.findIdx fun y ↦ decide (key y = key x)) = i at hlt hkey
  have hlt' : i < (items.map key).length := by rwa [List.length_map]
  rw [← hkey, ← List.getElem_map key (h := hlt')]
  exact List.set_getElem_self hlt'

/-- Storing keeps the list in order. -/
theorem Wf.store (h : Wf key limit items) (hlimit : 0 < limit) (x : α) :
    Wf key limit (store key limit items x) := by
  by_cases hmem : key x ∈ items.map key
  · have hkeys : (Backlog.store key limit items x).map key = items.map key :=
      map_key_store_of_mem hmem
    constructor
    · rw [← List.length_map (f := key), hkeys, List.length_map]
      exact h.length_le
    · rw [hkeys]
      exact h.nodup
  · have hroom : (makeRoom limit items).length < limit := by
      unfold makeRoom
      split
      · rw [List.length_tail]
        omega
      · exact Nat.lt_of_le_of_ne h.length_le ‹_›
    have hsub : (makeRoom limit items).Sublist items := makeRoom_sublist items
    rw [store_of_notMem hmem]
    constructor
    · rw [List.length_append]
      exact hroom
    · rw [List.map_append, List.map_singleton, List.nodup_append']
      refine ⟨h.nodup.sublist (hsub.map key), List.nodup_singleton _, ?_⟩
      rw [List.disjoint_singleton]
      exact fun hx ↦ hmem ((hsub.map key).subset hx)

theorem take_eq_none (h : k ∉ items.map key) : take key items k = none := by
  unfold take
  rw [List.find?_eq_none.mpr, Option.map_none]
  intro y hy he
  exact h (List.mem_map.mpr ⟨y, hy, of_decide_eq_true he⟩)

/-- Taking leaves the other items in their places. -/
theorem sublist_of_take (h : take key items k = some (x, rest)) : rest.Sublist items := by
  obtain ⟨y, -, he⟩ := Option.map_eq_some_iff.mp h
  obtain ⟨-, rfl⟩ := Prod.mk.inj he
  exact List.eraseP_sublist

/-- **What was stored under a new key can be taken**, and what is left is what had room. -/
theorem take_store (h : key x ∉ items.map key) :
    take key (store key limit items x) (key x) = some (x, makeRoom limit items) := by
  have hnone : ∀ y ∈ makeRoom limit items, ¬ decide (key y = key x) = true := by
    intro y hy he
    exact h (List.mem_map.mpr ⟨y, (makeRoom_sublist items).subset hy, of_decide_eq_true he⟩)
  rw [store_of_notMem h, take, List.find?_append, List.find?_eq_none.mpr hnone, Option.none_or,
    List.eraseP_append_right _ hnone]
  simp

end ProcessBus.Lib.Backlog
