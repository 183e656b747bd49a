import Mathlib.Data.Nat.Size
import ProcessBus.Lib.Ber
import ProcessBus.Lib.BerInteger

/-!
# Trees of TLVs

A message of nested TLVs without its lengths is a `Tree`; bytes spell it if every length octet says
how many bytes of content follow (`Spells`).  A writer puts the lengths in from the inside out
(`Tree.write`), in as many octets as `lengthOctets` has room for: what it writes has a known size
(`length_write`) and spells the tree as long as that size is below the limit (`spells_write`).

The sizes of integers are those of their shortest two's-complement form, which is the number of bits
of the magnitude (`octetsOf`).
-/

namespace ProcessBus.Lib.Ber

open Go

/-- Tags and contents, without lengths. -/
inductive Tree
  | leaf (tag : UInt8) (content : Bytes)
  | node (tag : UInt8) (children : List Tree)

mutual

/-- The bytes are the tree, with lengths of at most `max` octets. -/
inductive Spells (max : ℕ) : Tree → Bytes → Prop
  | leaf {tag : UInt8} {content octets : Bytes} (h : LengthOf max content.length octets) :
      Spells max (.leaf tag content) (tag :: (octets ++ content))
  | node {tag : UInt8} {children : List Tree} {content octets : Bytes}
      (h : LengthOf max content.length octets) (hchildren : SpellsAll max children content) :
      Spells max (.node tag children) (tag :: (octets ++ content))

/-- The bytes are the trees, one after the other. -/
inductive SpellsAll (max : ℕ) : List Tree → Bytes → Prop
  | nil : SpellsAll max [] []
  | cons {t : Tree} {ts : List Tree} {data rest : Bytes} (h : Spells max t data)
      (hrest : SpellsAll max ts rest) : SpellsAll max (t :: ts) (data ++ rest)

end

mutual

/-- Tag, length and content, from the inside out. -/
def Tree.write : Tree → Bytes
  | .leaf tag content => tlv tag content
  | .node tag children => tlv tag (writeAll children)

def writeAll : List Tree → Bytes
  | [] => []
  | t :: ts => t.write ++ writeAll ts

end

/-- The number of length octets before a content. -/
def lengthSize (n : ℕ) : ℕ :=
  if n < 0x80 then 1 else if n ≤ 0xFF then 2 else if n ≤ 0xFFFF then 3 else 4

/-- The size of a TLV. -/
def tlvSize (n : ℕ) : ℕ := 1 + lengthSize n + n

mutual

def Tree.size : Tree → ℕ
  | .leaf _ content => tlvSize content.length
  | .node _ children => tlvSize (sizeAll children)

def sizeAll : List Tree → ℕ
  | [] => 0
  | t :: ts => t.size + sizeAll ts

end

theorem length_lengthOctets (n : ℕ) : (lengthOctets n).length = lengthSize n := by
  unfold lengthOctets lengthSize
  split_ifs <;> rfl

theorem length_tlv_eq (tag : UInt8) (content : Bytes) :
    (tlv tag content).length = tlvSize content.length := by
  rw [tlv, List.length_cons, List.length_append, length_lengthOctets, tlvSize]
  omega

theorem lt_tlvSize (n : ℕ) : n < tlvSize n := by
  unfold tlvSize
  omega

/-- A longer content makes a longer TLV, also where the length octets grow. -/
@[gcongr]
theorem tlvSize_mono {m n : ℕ} (h : m ≤ n) : tlvSize m ≤ tlvSize n := by
  have hoctets : lengthSize m ≤ lengthSize n := by
    unfold lengthSize
    split_ifs <;> omega
  exact Nat.add_le_add (Nat.add_le_add_left hoctets 1) h

mutual

theorem length_write : (t : Tree) → t.write.length = t.size
  | .leaf tag content => by
      rw [Tree.write, Tree.size, length_tlv_eq]
  | .node tag children => by
      rw [Tree.write, Tree.size, length_tlv_eq, length_writeAll children]

theorem length_writeAll : (ts : List Tree) → (writeAll ts).length = sizeAll ts
  | [] => rfl
  | t :: ts => by
      rw [writeAll, sizeAll, List.length_append, length_write t, length_writeAll ts]

end

mutual

/-- **What is written spells the tree**, if its size leaves room for the lengths. -/
theorem spells_write {max : ℕ} (hmax : 3 ≤ max) : (t : Tree) → t.size < 2 ^ 24 →
    Spells max t t.write
  | .leaf tag content, h => by
      rw [Tree.size] at h
      exact .leaf (lengthOf_lengthOctets hmax ((lt_tlvSize _).trans h))
  | .node tag children, h => by
      rw [Tree.size] at h
      have hsize : sizeAll children < 2 ^ 24 := (lt_tlvSize _).trans h
      refine .node ?_ (spells_writeAll hmax children hsize)
      exact lengthOf_lengthOctets hmax (by rw [length_writeAll]; exact hsize)

theorem spells_writeAll {max : ℕ} (hmax : 3 ≤ max) : (ts : List Tree) → sizeAll ts < 2 ^ 24 →
    SpellsAll max ts (writeAll ts)
  | [], _ => .nil
  | t :: ts, h => by
      rw [sizeAll] at h
      exact .cons (spells_write hmax t (by omega)) (spells_writeAll hmax ts (by omega))

end

/-! ## Integers -/

/-- The octets of the shortest two's-complement form of a number with this magnitude: as many bits
as the magnitude has, and one for the sign. -/
def octetsOf (magnitude : ℕ) : ℕ := magnitude.size / 8 + 1

/-- The magnitude that decides on the length. -/
def magnitude (v : ℤ) : ℕ := if v < 0 then (-v - 1).toNat else v.toNat

theorem octetsOf_eq {m n : ℕ} (hlt : m < 128 * 256 ^ n)
    (hle : n = 0 ∨ 256 ^ n ≤ 2 * m) : octetsOf m = n + 1 := by
  have hpow : 256 ^ n = 2 ^ (8 * n) := (pow_mul 2 8 n).symm
  rw [hpow] at hlt hle
  have hupper : m.size ≤ 8 * n + 7 := by
    rw [Nat.size_le, pow_add]
    omega
  rw [octetsOf]
  rcases hle with rfl | hle
  · omega
  · have hlower : 8 * n ≤ m.size := by
      by_contra hlt'
      obtain ⟨k, hk⟩ : ∃ k, 8 * n = k + 1 := ⟨8 * n - 1, by omega⟩
      have hsmall : m < 2 ^ k := Nat.size_le.mp (by omega)
      rw [hk, pow_succ] at hle
      omega
    omega

@[gcongr]
theorem octetsOf_mono {m n : ℕ} (h : m ≤ n) : octetsOf m ≤ octetsOf n :=
  Nat.succ_le_succ (Nat.div_le_div_right (Nat.size_le_size h))

/-- The shortest form of a number that is not negative. -/
theorem MinimalUnsigned.length_eq {data : Bytes} (h : MinimalUnsigned data) :
    data.length = octetsOf (beNat data) := by
  match data, h with
  | [a], h =>
      have hval : beNat [a] = a.toNat := by
        rw [beNat_cons]
        simp [beNat]
      refine (octetsOf_eq (n := 0) ?_ (.inl rfl)).symm
      rw [hval]
      exact Nat.lt_of_lt_of_le h (by decide)
  | a :: b :: rest, ⟨ha, hb⟩ =>
      have hrest := beNat_lt (b :: rest)
      have hsplit := beNat_cons a (b :: rest)
      have hsplit' := beNat_cons b rest
      rw [List.length_cons] at hrest hsplit
      have hpos : 0 < 256 ^ rest.length := by positivity
      have hpow : 256 ^ (rest.length + 1) = 256 * 256 ^ rest.length := by ring
      refine (octetsOf_eq (n := rest.length + 1) ?_ (.inr ?_)).symm
      · nlinarith
      · rcases Nat.eq_zero_or_pos a.toNat with hzero | hpos'
        · have := hb (UInt8.toNat_inj.mp hzero)
          nlinarith
        · nlinarith

/-- The shortest form of a negative number: the first octet has the sign, and is not followed by
another one that could be dropped. -/
theorem length_eq_of_negative {a : UInt8} {rest : Bytes} (ha : 0x80 ≤ a.toNat)
    (hstop : ∀ b r, rest = b :: r → ¬ (a = 0xFF ∧ 0x80 ≤ b.toNat)) :
    (a :: rest).length = octetsOf (magnitude (beInt (a :: rest))) := by
  have hrest := beNat_lt rest
  have hsplit := beNat_cons a rest
  have halt := a.toNat_lt
  have hpos : 0 < 256 ^ rest.length := by positivity
  have hpow : 256 ^ (rest.length + 1) = 256 * 256 ^ rest.length := by ring
  have hval : magnitude (beInt (a :: rest)) = 256 * 256 ^ rest.length - 1 - beNat (a :: rest) := by
    have hlt : beNat (a :: rest) < 256 * 256 ^ rest.length := by nlinarith
    have hint : beInt (a :: rest) = -((256 * 256 ^ rest.length : ℕ) : ℤ) + beNat (a :: rest) := by
      rw [beInt, if_pos ha]
      push_cast
      ring
    rw [magnitude, hint, if_pos (by omega)]
    omega
  rw [hval, List.length_cons]
  refine (octetsOf_eq ?_ ?_).symm
  · have : 128 * 256 ^ rest.length ≤ beNat (a :: rest) := by nlinarith
    omega
  · cases rest with
    | nil => exact .inl rfl
    | cons b r =>
        refine .inr ?_
        have hnot := hstop b r rfl
        have hsplit' := beNat_cons b r
        have hr := beNat_lt r
        have hpos' : 0 < 256 ^ r.length := by positivity
        have hpow' : 256 ^ (b :: r).length = 256 * 256 ^ r.length := by
          rw [List.length_cons]
          ring
        rw [hpow'] at hrest hsplit ⊢
        rcases Nat.lt_or_ge a.toNat 255 with hlt | hge
        · have : beNat (a :: b :: r) < 255 * (256 * 256 ^ r.length) := by nlinarith
          omega
        · have hFF : a = 0xFF := UInt8.toNat_inj.mp (by show a.toNat = 255; omega)
          have hb : b.toNat < 0x80 := by
            by_contra hb
            exact hnot ⟨hFF, not_lt.mp hb⟩
          have : beNat (a :: b :: r) < 255 * (256 * 256 ^ r.length) + 128 * 256 ^ r.length := by
            have ha255 : a.toNat = 255 := by omega
            rw [ha255] at hsplit
            nlinarith
          omega

/-! ## One number, one shortest form -/

/-- Byte strings of one length are told apart by their numbers. -/
theorem eq_of_beNat_eq {d e : Bytes} (hlength : d.length = e.length) (h : beNat d = beNat e) :
    d = e := by
  rw [← beBytes_beNat d, ← beBytes_beNat e, hlength, h]

/-- A number has one shortest form. -/
theorem MinimalUnsigned.eq {d e : Bytes} (hd : MinimalUnsigned d) (he : MinimalUnsigned e)
    (h : beNat d = beNat e) : d = e :=
  eq_of_beNat_eq (by rw [hd.length_eq, he.length_eq, h]) h

/-- In two's complement they are told apart as well. -/
theorem eq_of_beInt_eq {d e : Bytes} (hlength : d.length = e.length) (h : beInt d = beInt e) :
    d = e := by
  refine eq_of_beNat_eq hlength ?_
  cases d with
  | nil => rw [List.eq_nil_of_length_eq_zero hlength.symm]
  | cons a d =>
      cases e with
      | nil => cases hlength
      | cons b e =>
          have hd := beNat_lt (a :: d)
          have he := beNat_lt (b :: e)
          rw [hlength] at hd
          rw [beInt, beInt, Nat.succ.inj hlength] at h
          rw [List.length_cons] at hd he
          have hpow : ((256 ^ (e.length + 1) : ℕ) : ℤ) = 256 ^ (e.length + 1) := by push_cast; rfl
          split at h <;> split at h <;> omega

/-- No form of a number in two's complement has fewer octets than its magnitude needs. -/
theorem octetsOf_magnitude_le {d : Bytes} (hd : d ≠ []) :
    octetsOf (magnitude (beInt d)) ≤ d.length := by
  cases d with
  | nil => exact absurd rfl hd
  | cons a d =>
      have hrest := beNat_lt d
      have hsplit := beNat_cons a d
      have ha := a.toNat_lt
      have hpow : (256 ^ (d.length + 1) : ℤ) = ((256 * 256 ^ d.length : ℕ) : ℤ) := by
        push_cast
        ring
      have hlow : a.toNat < 128 → beNat (a :: d) < 128 * 256 ^ d.length := by
        intro hlt
        nlinarith
      have hhigh : 128 ≤ a.toNat → 128 * 256 ^ d.length ≤ beNat (a :: d) := by
        intro hle
        nlinarith
      have hupper : beNat (a :: d) < 256 * 256 ^ d.length := by nlinarith
      have hlt : magnitude (beInt (a :: d)) < 128 * 256 ^ d.length := by
        rw [magnitude, beInt, hpow]
        split <;> split <;> omega
      rw [octetsOf, List.length_cons]
      have hbits : 2 ^ (8 * d.length + 7) = 128 * 256 ^ d.length := by
        rw [pow_add, pow_mul, mul_comm]
        rfl
      have hsize : (magnitude (beInt (a :: d))).size ≤ 8 * d.length + 7 := by
        rw [Nat.size_le, hbits]
        exact hlt
      omega

end ProcessBus.Lib.Ber
