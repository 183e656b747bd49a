import ProcessBus.Lib.Ber

/-!
# Buffers that agree up to an offset

A reader is handed a whole buffer and an offset up to which it may look.  `Agree n data data'` says
that two buffers reach that far and are the same up to there; what a reader does below `n` it does
on both.  A length field is the exception to "below": it may stand at the end of what is enclosed
and be read from behind it, so `Agree.readLength` asks where the field ended.
-/

namespace ProcessBus.Lib.Ber

open Go Checked

/-- Both buffers reach up to `n` and are the same up to there. -/
structure Agree (n : ℕ) (data data' : Bytes) : Prop where
  le_left : n ≤ data.length
  le_right : n ≤ data'.length
  take_eq : data.take n = data'.take n

variable {n : ℕ} {data data' : Bytes} {ε : Type}

theorem Agree.symm (h : Agree n data data') : Agree n data' data :=
  ⟨h.le_right, h.le_left, h.take_eq.symm⟩

/-- A buffer agrees with itself when what stands behind `n` is replaced. -/
theorem agree_take_append (h : n ≤ data.length) (tail : Bytes) :
    Agree n data (data.take n ++ tail) := by
  have hlen : (data.take n).length = n := List.length_take_of_le h
  refine ⟨h, ?_, ?_⟩
  · rw [List.length_append, hlen]
    exact Nat.le_add_right _ _
  · rw [List.take_append_of_le_length hlen.ge, List.take_take, min_self]

theorem Agree.getElem? (h : Agree n data data') {i : ℕ} (hi : i < n) : data[i]? = data'[i]? := by
  rw [← List.getElem?_take_of_lt hi, h.take_eq, List.getElem?_take_of_lt hi]

theorem Agree.slice (h : Agree n data data') {j : ℕ} (hj : j ≤ n) (i : ℕ) :
    slice data i j = slice data' i j := by
  have htake : data.take j = data'.take j := by
    rw [← min_eq_left hj, ← List.take_take, h.take_eq, List.take_take]
  rw [Go.slice, Go.slice, htake]

theorem Agree.index (h : Agree n data data') {i : ℕ} (hi : i < n) :
    (index data i : Checked ε UInt8) = index data' i := by
  rw [Checked.index, Checked.index, h.getElem? hi]

theorem Agree.sub (h : Agree n data data') {i j : ℕ} (hj : j ≤ n) :
    (sub data i j : Checked ε Bytes) = sub data' i j := by
  have hbounds : (i ≤ j ∧ j ≤ data.length) ↔ (i ≤ j ∧ j ≤ data'.length) :=
    and_congr_right fun _ ↦ iff_of_true (hj.trans h.le_left) (hj.trans h.le_right)
  have hslice := h.slice hj i
  rw [Go.slice, Go.slice] at hslice
  simp only [Checked.sub, hbounds, hslice]

/-- A length that ends below `n` is the same in both buffers. -/
theorem Agree.readLength (h : Agree n data data') {max offset l offset' : ℕ} {eof bad : ε}
    (hread : readLength max eof bad data offset = .ok (l, offset')) (hle : offset' ≤ n) :
    readLength max eof bad data' offset = .ok (l, offset') := by
  obtain ⟨octets, rest, hdrop, hlen, rfl⟩ := readLength_eq_ok.mp hread
  refine readLength_eq_ok.mpr ⟨octets, data'.drop (offset + octets.length), ?_, hlen, rfl⟩
  have hoctets : Go.slice data' offset (offset + octets.length) = octets := by
    rw [← h.slice hle, slice_of_drop hdrop rfl]
  rw [slice_append_drop (Nat.le_add_right offset octets.length), hoctets]

/-- A loop over TLVs that stops below `n` does the same on both buffers. -/
theorem Agree.walk {σ : Type} (h : Agree n data data') {max stop fuel fuel' offset : ℕ}
    {eof bad : ε} {overflow : UInt8 → ε} {body : σ → UInt8 → Bytes → Checked ε σ} {s s' : σ}
    (hstop : stop ≤ n) (hfuel : stop - offset < fuel) (hfuel' : stop - offset < fuel') :
    walk (Ber.readLength max eof bad) overflow body data stop fuel offset s = .ok s' ↔
      walk (Ber.readLength max eof bad) overflow body data' stop fuel' offset s = .ok s' := by
  rw [walk_eq_ok (hstop.trans h.le_left) hfuel, walk_eq_ok (hstop.trans h.le_right) hfuel',
    h.slice hstop]

end ProcessBus.Lib.Ber
