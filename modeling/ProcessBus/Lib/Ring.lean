import Mathlib.Algebra.Group.Nat.Defs
import Mathlib.Data.List.DropRight
import Mathlib.Data.List.OfFn
import Mathlib.Logic.Function.Basic

/-!
# Rings

A ring of `size` cells that is written in place: each item goes to the slot at `pos`, which then
moves on and wraps.  The ring fills up from the first slot, so that before it is full the position
is the number of the items.  Read from the oldest slot it holds the last `size` items that were
put in (`contents_push`).
-/

namespace ProcessBus.Lib

/-- A ring of the items that were put in last. -/
@[ext]
structure RingBuffer (α : Type*) (size : ℕ) where
  cells : Fin size → α
  pos : ℕ
  count : ℕ
  pos_lt : 0 < size → pos < size
  count_le : count ≤ size
  filling : count < size → pos = count

namespace RingBuffer

variable {α : Type*} {size : ℕ}

/-- The slot of the oldest item: the one to be written next, once the ring is full. -/
def oldest (r : RingBuffer α size) : ℕ := if r.count = size then r.pos else 0

/-- The slot of the item with `i` older ones. -/
def slot (r : RingBuffer α size) (hsize : 0 < size) (i : ℕ) : Fin size :=
  ⟨(r.oldest + i) % size, Nat.mod_lt _ hsize⟩

/-- The items from the oldest one on. -/
def contents (r : RingBuffer α size) : List α :=
  List.ofFn fun i : Fin r.count ↦ r.cells (r.slot (i.pos.trans_le r.count_le) i)

/-- Puts an item in, over the oldest one if the ring is full. -/
def push (r : RingBuffer α size) (hsize : 0 < size) (x : α) : RingBuffer α size where
  cells := Function.update r.cells ⟨r.pos, r.pos_lt hsize⟩ x
  pos := (r.pos + 1) % size
  count := if r.count < size then r.count + 1 else r.count
  pos_lt := Nat.mod_lt _
  count_le := by
    have h := r.count_le
    split
    · omega
    · exact h
  filling := by
    intro h
    split at h
    · rename_i hcount
      rw [if_pos hcount, r.filling hcount, Nat.mod_eq_of_lt h]
    · rename_i hcount
      exact absurd h hcount

variable (r : RingBuffer α size) (hsize : 0 < size) (x : α)

@[simp] theorem length_contents : r.contents.length = r.count := List.length_ofFn

theorem getElem_contents (i : ℕ) (hi : i < r.contents.length) :
    r.contents[i] = r.cells (r.slot ((Nat.zero_le i).trans_lt
      (hi.trans_le (r.length_contents.trans_le r.count_le))) i) := by
  exact List.getElem_ofFn hi

/-- Less than a turn away is another slot. -/
theorem mod_ne_of_lt {pos i : ℕ} (hpos : pos < size) (hi : 0 < i) (hlt : i < size) :
    (pos + i) % size ≠ pos := by
  rcases Nat.lt_or_ge (pos + i) size with hsum | hsum
  · rw [Nat.mod_eq_of_lt hsum]
    omega
  · rw [Nat.mod_eq_sub_mod hsum, Nat.mod_eq_of_lt (by omega)]
    omega

/-- While the ring fills up, an item goes to the slot after the others. -/
theorem contents_push_of_lt (h : r.count < size) :
    (r.push hsize x).contents = r.contents ++ [x] := by
  have hcount : (r.push hsize x).count = r.count + 1 := if_pos h
  have holdest : (r.push hsize x).oldest = 0 := by
    rw [oldest, hcount]
    split
    · rename_i hfull
      change (r.pos + 1) % size = 0
      rw [r.filling h, hfull, Nat.mod_self]
    · rfl
  refine List.ext_getElem ?_ fun i hi hi' ↦ ?_
  · rw [length_contents, hcount, List.length_append, length_contents, List.length_singleton]
  · rw [length_contents, hcount] at hi
    have hslot : (r.push hsize x).slot hsize i = ⟨i, by omega⟩ := by
      rw [slot, Fin.mk.injEq, holdest, zero_add, Nat.mod_eq_of_lt (by omega)]
    rw [getElem_contents, hslot]
    change Function.update r.cells ⟨r.pos, _⟩ x ⟨i, _⟩ = _
    rcases Nat.lt_succ_iff_lt_or_eq.mp hi with hlt | rfl
    · have hne : (⟨i, by omega⟩ : Fin size) ≠ ⟨r.pos, r.pos_lt hsize⟩ := by
        rw [Ne, Fin.mk.injEq, r.filling h]
        exact hlt.ne
      have hold : r.slot hsize i = ⟨i, by omega⟩ := by
        rw [slot, Fin.mk.injEq, oldest, if_neg h.ne, zero_add, Nat.mod_eq_of_lt (by omega)]
      rw [Function.update_of_ne hne, List.getElem_append_left (by rw [length_contents]; exact hlt),
        getElem_contents, hold]
    · have heq : (⟨r.count, by omega⟩ : Fin size) = ⟨r.pos, r.pos_lt hsize⟩ := by
        rw [Fin.mk.injEq, r.filling h]
      rw [heq, Function.update_self, List.getElem_append_right (by rw [length_contents]),
        List.getElem_singleton]

/-- A full ring reads from the slot that is written next. -/
theorem contents_eq_cons (h : r.count = size) :
    r.contents = r.cells ⟨r.pos, r.pos_lt hsize⟩ :: r.contents.tail := by
  have hlength : 0 < r.contents.length := by
    rw [length_contents, h]
    exact hsize
  have hslot : r.slot hsize 0 = ⟨r.pos, r.pos_lt hsize⟩ := by
    rw [slot, Fin.mk.injEq, oldest, if_pos h, Nat.add_zero, Nat.mod_eq_of_lt (r.pos_lt hsize)]
  rw [← hslot, ← getElem_contents r 0 hlength, ← List.head_eq_getElem
    (List.ne_nil_of_length_pos hlength), List.cons_head_tail]

/-- In a full ring an item goes over the oldest one, and the next one is the oldest. -/
theorem contents_push_of_eq (h : r.count = size) :
    (r.push hsize x).contents = r.contents.tail ++ [x] := by
  have hpos := r.pos_lt hsize
  have hcount : (r.push hsize x).count = size := (if_neg h.not_lt).trans h
  have holdest : (r.push hsize x).oldest = (r.pos + 1) % size := if_pos hcount
  refine List.ext_getElem ?_ fun i hi hi' ↦ ?_
  · rw [length_contents, hcount, List.length_append, List.length_tail, length_contents, h,
      List.length_singleton]
    omega
  · rw [length_contents, hcount] at hi
    have hslot : (r.push hsize x).slot hsize i =
        ⟨(r.pos + (i + 1)) % size, Nat.mod_lt _ hsize⟩ := by
      rw [slot, Fin.mk.injEq, holdest, Nat.mod_add_mod, add_assoc, add_comm 1 i]
    rw [getElem_contents, hslot]
    change Function.update r.cells ⟨r.pos, _⟩ x ⟨(r.pos + (i + 1)) % size, _⟩ = _
    rcases (show i + 1 ≤ size from hi).lt_or_eq with hlt | heq
    · have hne : (⟨(r.pos + (i + 1)) % size, Nat.mod_lt _ hsize⟩ : Fin size) ≠ ⟨r.pos, hpos⟩ := by
        rw [Ne, Fin.mk.injEq]
        exact mod_ne_of_lt hpos (Nat.succ_pos i) hlt
      have hold : r.slot hsize (i + 1) = ⟨(r.pos + (i + 1)) % size, Nat.mod_lt _ hsize⟩ := by
        rw [slot, Fin.mk.injEq, oldest, if_pos h]
      rw [Function.update_of_ne hne, List.getElem_append_left (by
        rw [List.length_tail, length_contents]; omega), List.getElem_tail, getElem_contents, hold]
    · have hself : (⟨(r.pos + (i + 1)) % size, Nat.mod_lt _ hsize⟩ : Fin size) = ⟨r.pos, hpos⟩ := by
        rw [Fin.mk.injEq, heq, Nat.add_mod_right, Nat.mod_eq_of_lt hpos]
      rw [hself, Function.update_self, List.getElem_append_right (by
        rw [List.length_tail, length_contents]; omega), List.getElem_singleton]

/-- **A ring retains the last items**: if it holds the last of `items`, it holds the last of them
and `x` once `x` is put in. -/
theorem contents_push {items : List α} (h : r.contents = items.rtake size) :
    (r.push hsize x).contents = (items ++ [x]).rtake size := by
  have hcount : r.count = min size items.length := by
    rw [← r.length_contents, h, List.rtake, List.length_drop]
    omega
  have hrtake : (items ++ [x]).rtake size = items.rtake (size - 1) ++ [x] := by
    rw [← List.rtake_concat_succ, Nat.sub_add_cancel hsize]
  rw [hrtake]
  rcases r.count_le.lt_or_eq with hlt | heq
  · rw [contents_push_of_lt r hsize x hlt, h, List.rtake, List.rtake]
    rw [Nat.sub_eq_zero_of_le (by omega), Nat.sub_eq_zero_of_le (by omega)]
  · rw [contents_push_of_eq r hsize x heq, h, List.rtake, List.rtake, List.tail_drop]
    congr 2
    omega

end RingBuffer

end ProcessBus.Lib
