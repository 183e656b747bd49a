import Mathlib.Data.List.Basic

/-!
# Filtering a slice over its own backing array

The idiom

```
kept := xs[:0]
for _, x := range xs {
	if keep(x) { kept = append(kept, x) }
}
```

writes to the array it is reading from.  The writes never overtake the reads: element `i` is read
before anything at `i` or behind it is written, so the result is the filtered slice
(`compact_eq_filter`).
-/

namespace ProcessBus.Go

variable {α : Type*} (keep : α → Bool)

/-- One round of the loop at the index `i`: `x.1` is the backing array and `x.2` the length of
`kept`. -/
def compactStep (x : List α × ℕ) (i : ℕ) : List α × ℕ :=
  match x.1[i]? with
  | some a => if keep a then (x.1.set x.2 a, x.2 + 1) else x
  | none => x

/-- The array and the length of `kept` after `n` rounds. -/
def compactLoop (xs : List α) (n : ℕ) : List α × ℕ :=
  (List.range n).foldl (compactStep keep) (xs, 0)

/-- `kept` after the loop. -/
def compact (xs : List α) : List α :=
  (compactLoop keep xs xs.length).1.take (compactLoop keep xs xs.length).2

theorem compactLoop_succ (xs : List α) (n : ℕ) :
    compactLoop keep xs (n + 1) = compactStep keep (compactLoop keep xs n) n := by
  rw [compactLoop, List.range_succ, List.foldl_append]
  rfl

/-- After `n` rounds the first `n` elements are filtered, and the others are still there. -/
theorem compactLoop_spec (xs : List α) {n : ℕ} (hn : n ≤ xs.length) :
    (compactLoop keep xs n).2 ≤ n ∧
      (compactLoop keep xs n).1.length = xs.length ∧
      (compactLoop keep xs n).1.take (compactLoop keep xs n).2 = (xs.take n).filter keep ∧
      (compactLoop keep xs n).1.drop n = xs.drop n := by
  induction n with
  | zero => exact ⟨Nat.le_refl _, rfl, rfl, rfl⟩
  | succ n ih =>
      obtain ⟨hle, hlen, htake, hdrop⟩ := ih (Nat.le_of_succ_le hn)
      have hlt : n < (compactLoop keep xs n).1.length := hlen ▸ hn
      have hget : (compactLoop keep xs n).1[n]? = some (xs[n]) := by
        have h := congrArg (·[0]?) hdrop
        simpa [List.getElem?_drop, List.getElem?_eq_getElem hn] using h
      have hdrop' : (compactLoop keep xs n).1.drop (n + 1) = xs.drop (n + 1) := by
        rw [← List.drop_drop, hdrop, List.drop_drop]
      have hfilter : (xs.take (n + 1)).filter keep =
          (xs.take n).filter keep ++ if keep xs[n] then [xs[n]] else [] := by
        rw [List.take_succ_eq_append_getElem hn, List.filter_append, List.filter_cons,
          List.filter_nil]
      rw [compactLoop_succ, compactStep, hget]
      dsimp only
      rw [hfilter]
      split
      · refine ⟨Nat.succ_le_succ hle, ?_, ?_, ?_⟩
        · rw [List.length_set, hlen]
        · have hk : (compactLoop keep xs n).2 < (compactLoop keep xs n).1.length :=
            Nat.lt_of_le_of_lt hle hlt
          rw [List.set_eq_take_append_cons_drop, if_pos hk, htake]
          have hk' : ((xs.take n).filter keep).length = (compactLoop keep xs n).2 := by
            rw [← htake, List.length_take_of_le (Nat.le_of_lt hk)]
          rw [← hk', List.take_length_add_append]
          rfl
        · rw [List.drop_set_of_lt (Nat.lt_succ_of_le hle), hdrop']
      · rw [List.append_nil]
        exact ⟨Nat.le_succ_of_le hle, hlen, htake, hdrop'⟩

/-- **The loop filters.** -/
theorem compact_eq_filter (xs : List α) : compact keep xs = xs.filter keep := by
  rw [compact, (compactLoop_spec keep xs (Nat.le_refl _)).2.2.1, List.take_length]

end ProcessBus.Go
