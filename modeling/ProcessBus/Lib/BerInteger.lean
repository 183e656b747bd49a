import Mathlib.Data.Nat.Bitwise
import Mathlib.Tactic.Linarith
import ProcessBus.Go.Bytes

/-!
# Integers as content octets

The Basic Encoding Rules write an INTEGER in two's complement (`beInt`), with no octet more than it
needs; a number that is never negative still gets a leading zero octet where the sign bit would be
set (`MinimalUnsigned`).

A writer fills a buffer of fixed width and skips the octets that say nothing.  `skip` is that loop;
what it skips does not change the number (`skip_invariant`), and where it stops is known
(`skip_stop`).
-/

namespace ProcessBus.Lib.Ber

open Go

theorem and_0x80_ne_zero {b : UInt8} : b &&& 0x80 ≠ 0 ↔ 0x80 ≤ b.toNat := by
  have hb := b.toNat_lt
  have hbit : b.toNat &&& 2 ^ 7 = (b.toNat.testBit 7).toNat * 2 ^ 7 := Nat.and_two_pow _ 7
  rw [ne_eq, ← UInt8.toNat_inj, UInt8.toNat_and]
  show ¬ b.toNat &&& 2 ^ 7 = 0 ↔ _
  rw [hbit, Nat.testBit_eq_decide_div_mod_eq]
  by_cases h : b.toNat / 2 ^ 7 % 2 = 1
  · simp only [h, decide_true, Bool.toNat_true]
    omega
  · simp only [h, decide_false, Bool.toNat_false]
    omega

theorem and_0x80_eq_zero {b : UInt8} : b &&& 0x80 = 0 ↔ b.toNat < 0x80 := by
  rw [← not_iff_not, ← ne_eq, and_0x80_ne_zero, not_lt]

/-- The shortest two's-complement form of a number that is not negative. -/
def MinimalUnsigned : Bytes → Prop
  | [] => False
  | [a] => a.toNat < 0x80
  | a :: b :: _ => a.toNat < 0x80 ∧ (a = 0 → 0x80 ≤ b.toNat)

instance : DecidablePred MinimalUnsigned := fun data ↦
  match data with
  | [] => inferInstanceAs (Decidable False)
  | [a] => inferInstanceAs (Decidable (a.toNat < 0x80))
  | a :: b :: _ => inferInstanceAs (Decidable (a.toNat < 0x80 ∧ (a = 0 → 0x80 ≤ b.toNat)))

/-- The number that a byte string spells in two's complement. -/
def beInt : Bytes → ℤ
  | [] => 0
  | a :: rest => (if 0x80 ≤ a.toNat then -256 ^ (rest.length + 1) else 0) + beNat (a :: rest)

/-- Sign extension, then one octet after the other. -/
theorem foldl_beInt (acc : ℤ) (b : Bytes) :
    b.foldl (fun v x ↦ v * 256 + (x.toNat : ℤ)) acc = acc * 256 ^ b.length + beNat b := by
  induction b generalizing acc with
  | nil => simp [beNat]
  | cons x b ih =>
      rw [List.foldl_cons, ih, beNat_cons, List.length_cons]
      push_cast
      ring

/-! ## Skipping octets -/

/-- How many octets the loop `for start < len(buf)-1 && p(buf[start], buf[start+1])` skips. -/
def skip (p : UInt8 → UInt8 → Bool) : Bytes → ℕ
  | a :: b :: rest => if p a b then skip p (b :: rest) + 1 else 0
  | _ => 0

variable {p : UInt8 → UInt8 → Bool}

/-- What no skipped octet changes is the same after the loop, and at every step of it. -/
theorem skip_invariant {α : Type*} {f : Bytes → α}
    (h : ∀ a b rest, p a b = true → f (a :: b :: rest) = f (b :: rest)) {data : Bytes} {n : ℕ}
    (hn : n ≤ skip p data) : f (data.drop n) = f data := by
  induction data generalizing n with
  | nil => rw [List.drop_nil]
  | cons a data ih =>
      cases n with
      | zero => rfl
      | succ n =>
          cases data with
          | nil => exact absurd hn (Nat.not_succ_le_zero n)
          | cons b rest =>
              rw [skip] at hn
              split at hn
              · rename_i hp
                rw [List.drop_succ_cons, ih (Nat.le_of_succ_le_succ hn), h a b rest hp]
              · exact absurd hn (Nat.not_succ_le_zero n)

/-- The loop stops at an octet that it must not skip, or at the last one. -/
theorem skip_stop {data : Bytes} (hne : data ≠ []) :
    ∃ a rest, data.drop (skip p data) = a :: rest ∧ ∀ b r, rest = b :: r → p a b = false := by
  induction data with
  | nil => exact absurd rfl hne
  | cons a data ih =>
      cases data with
      | nil => exact ⟨a, [], rfl, nofun⟩
      | cons b rest =>
          rw [skip]
          split
          · exact ih (List.cons_ne_nil b rest)
          · rename_i hp
            refine ⟨a, b :: rest, rfl, ?_⟩
            rintro _ _ ⟨⟩
            exact Bool.eq_false_of_not_eq_true hp

/-- Leading zero octets do not count. -/
theorem beNat_drop_skip {data : Bytes} {n : ℕ} (hn : n ≤ skip (fun a _ ↦ a == 0) data) :
    beNat (data.drop n) = beNat data := by
  refine skip_invariant (fun a b rest ha ↦ ?_) hn
  rw [beq_iff_eq.mp ha, beNat_cons]
  simp

/-- Neither do leading sign octets. -/
theorem beInt_drop_skip {data : Bytes} :
    beInt (data.drop (skip (fun a b ↦ a == 0xFF && b &&& 0x80 != 0) data)) = beInt data := by
  refine skip_invariant (fun a b rest h ↦ ?_) le_rfl
  simp only [Bool.and_eq_true, beq_iff_eq, bne_iff_ne, and_0x80_ne_zero] at h
  obtain ⟨rfl, hb⟩ := h
  have hFF : (0xFF : UInt8).toNat = 255 := rfl
  rw [beInt, beInt, beNat_cons 0xFF, if_pos (by rw [hFF]; decide), if_pos hb, hFF]
  push_cast
  rw [List.length_cons]
  ring

end ProcessBus.Lib.Ber
