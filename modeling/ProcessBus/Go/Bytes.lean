import Mathlib.Data.List.Basic
import Mathlib.Data.List.Induction
import Mathlib.Tactic.Linarith
import Mathlib.Tactic.Ring

/-!
# Go's `bytes` and `encoding/binary`

A `[]byte` is a list of `UInt8`, and so is a Go `string`.  The readers below index with a
default, because every caller in the program checks the length first.  Integers travel in
network order: `beNat` reads a whole byte string as one number and `beBytes` writes a number
into a given number of bytes.
-/

namespace ProcessBus.Go

abbrev Bytes := List UInt8

/-- `b[i]`. -/
def byteAt (b : Bytes) (i : ℕ) : UInt8 := b.getD i 0

/-- `b[lo:hi]`. -/
def slice (b : Bytes) (lo hi : ℕ) : Bytes := (b.take hi).drop lo

/-- The big-endian number that a byte string spells. -/
def beNat (b : Bytes) : ℕ := b.foldl (fun acc x ↦ acc * 256 + x.toNat) 0

/-- The lowest `n` bytes of a number, most significant first. -/
def beBytes : ℕ → ℕ → Bytes
  | 0, _ => []
  | n + 1, x => beBytes n (x / 256) ++ [UInt8.ofNat x]

/-- `binary.BigEndian.Uint16(b[i:i+2])`. -/
def uint16At (b : Bytes) (i : ℕ) : UInt16 := UInt16.ofNat (beNat (slice b i (i + 2)))

/-- `binary.BigEndian.Uint32(b[i:i+4])`. -/
def uint32At (b : Bytes) (i : ℕ) : UInt32 := UInt32.ofNat (beNat (slice b i (i + 4)))

/-- `binary.BigEndian.Uint64(b[i:i+8])`. -/
def uint64At (b : Bytes) (i : ℕ) : UInt64 := UInt64.ofNat (beNat (slice b i (i + 8)))

/-! ## Reading back what was written -/

@[simp] theorem length_beBytes (n x : ℕ) : (beBytes n x).length = n := by
  induction n generalizing x with
  | zero => rfl
  | succ n ih => simp [beBytes, ih]

@[simp] theorem beNat_append_singleton (b : Bytes) (x : UInt8) :
    beNat (b ++ [x]) = beNat b * 256 + x.toNat := by
  simp [beNat]

theorem foldl_beNat (acc : ℕ) (b : Bytes) :
    b.foldl (fun acc x ↦ acc * 256 + x.toNat) acc = acc * 256 ^ b.length + beNat b := by
  induction b using List.reverseRecOn with
  | nil => simp [beNat]
  | append_singleton b x ih =>
      rw [List.foldl_append, ih, beNat_append_singleton, List.length_append, List.length_singleton,
        pow_succ]
      simp only [List.foldl_cons, List.foldl_nil]
      ring

/-- The most significant byte, split off. -/
theorem beNat_cons (x : UInt8) (b : Bytes) :
    beNat (x :: b) = x.toNat * 256 ^ b.length + beNat b := by
  rw [beNat, List.foldl_cons, foldl_beNat, Nat.zero_mul, Nat.zero_add]

theorem beNat_lt (b : Bytes) : beNat b < 256 ^ b.length := by
  induction b with
  | nil => exact Nat.one_pos
  | cons x b ih =>
      have hx := x.toNat_lt
      rw [beNat_cons, List.length_cons, pow_succ']
      nlinarith

/-- Writing keeps the number modulo the room there is. -/
theorem beNat_beBytes (n x : ℕ) : beNat (beBytes n x) = x % 256 ^ n := by
  induction n generalizing x with
  | zero => simp [beBytes, beNat, Nat.mod_one]
  | succ n ih =>
      have h : x % 256 ^ (n + 1) = x % 256 + 256 * (x / 256 % 256 ^ n) := by
        rw [pow_succ', Nat.mod_mul]
      rw [beBytes, beNat_append_singleton, ih, UInt8.toNat_ofNat', h]
      omega

/-- Reading loses nothing but the length. -/
theorem beBytes_beNat (b : Bytes) : beBytes b.length (beNat b) = b := by
  induction b using List.reverseRecOn with
  | nil => rfl
  | append_singleton b x ih =>
      have hx := x.toNat_lt
      have hdiv : (beNat b * 256 + x.toNat) / 256 = beNat b := by omega
      have hlast : UInt8.ofNat (beNat b * 256 + x.toNat) = x := by
        rw [← UInt8.toNat_inj, UInt8.toNat_ofNat']
        omega
      rw [List.length_append, List.length_singleton, beBytes, beNat_append_singleton, hdiv, hlast,
        ih]

/-- A slice cut out along the seams of a concatenation. -/
theorem slice_append {a b c : Bytes} {lo hi : ℕ} (hlo : a.length = lo)
    (hhi : lo + b.length = hi) : slice (a ++ (b ++ c)) lo hi = b := by
  subst hlo
  subst hhi
  simp [slice, List.take_append]

/-! ## Comparison -/

/-- `bytes.Compare`: lexicographic, with result `-1`, `0` or `1`. -/
def bytesCompare : Bytes → Bytes → ℤ
  | [], [] => 0
  | [], _ :: _ => -1
  | _ :: _, [] => 1
  | a :: as, b :: bs => if a < b then -1 else if b < a then 1 else bytesCompare as bs

/-- Swapping the arguments flips the sign. -/
theorem bytesCompare_swap (a b : Bytes) : bytesCompare b a = -bytesCompare a b := by
  induction a generalizing b with
  | nil => cases b <;> rfl
  | cons x a ih =>
      cases b with
      | nil => rfl
      | cons y b =>
          simp only [bytesCompare, UInt8.lt_iff_toNat_lt]
          split_ifs with h₁ h₂
          · exact absurd h₁ (by omega)
          · rfl
          · rfl
          · exact ih b

/-- Only equal byte strings compare as equal. -/
theorem bytesCompare_eq_zero {a b : Bytes} : bytesCompare a b = 0 ↔ a = b := by
  induction a generalizing b with
  | nil => cases b <;> simp [bytesCompare]
  | cons x a ih =>
      cases b with
      | nil => simp [bytesCompare]
      | cons y b =>
          simp only [bytesCompare, UInt8.lt_iff_toNat_lt, List.cons.injEq]
          split_ifs with h₁ h₂
          · simp [show x ≠ y from fun e ↦ by simp [e] at h₁]
          · simp [show x ≠ y from fun e ↦ by simp [e] at h₂]
          · have hxy : x = y := UInt8.toNat_inj.mp (by omega)
            simp [hxy, ih]

theorem bytesCompare_cons_neg {x y : UInt8} {a b : Bytes} :
    bytesCompare (x :: a) (y :: b) < 0 ↔
      x.toNat < y.toNat ∨ x.toNat = y.toNat ∧ bytesCompare a b < 0 := by
  simp only [bytesCompare, UInt8.lt_iff_toNat_lt]
  split_ifs <;> constructor <;> intro h <;> omega

/-- The lexicographic order is transitive. -/
theorem bytesCompare_trans {a b c : Bytes} (hab : bytesCompare a b < 0)
    (hbc : bytesCompare b c < 0) : bytesCompare a c < 0 := by
  induction a generalizing b c with
  | nil =>
      cases c with
      | nil => cases b <;> simp [bytesCompare] at hab hbc
      | cons z c => simp [bytesCompare]
  | cons x a ih =>
      cases b with
      | nil => simp [bytesCompare] at hab
      | cons y b =>
          cases c with
          | nil => simp [bytesCompare] at hbc
          | cons z c =>
              rw [bytesCompare_cons_neg] at hab hbc ⊢
              rcases hab with h | ⟨h, hab⟩ <;> rcases hbc with h' | ⟨h', hbc⟩
              · exact .inl (by omega)
              · exact .inl (by omega)
              · exact .inl (by omega)
              · exact .inr ⟨by omega, ih hab hbc⟩

end ProcessBus.Go
