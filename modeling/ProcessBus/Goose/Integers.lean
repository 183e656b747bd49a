import ProcessBus.Goose.Lengths
import ProcessBus.Goose.RoundTrip

/-!
# One number, one encoding

The integers of a GOOSE message have one encoding each: what `decodeBERUnsigned` accepts for a
number is what `berEncodeUint64` writes for it, and what `berEncodeInt` writes for a number is its
shortest form in two's complement.
-/

namespace ProcessBus.Goose

open Go Lib.Ber

/-- The decoder accepts the encoding of a number that fits, and nothing else. -/
theorem decodeBERUnsigned_iff {k : ℕ} (hpos : 0 < k) (hle : k ≤ 8) {d : Bytes} {v : UInt64} :
    decodeBERUnsigned d k = .ok v ↔ d = berEncodeUint64 v ∧ v.toNat < 2 ^ (8 * k) := by
  obtain ⟨hmin, hval⟩ := berEncodeUint64_spec v
  have hpow : 256 ^ k = 2 ^ (8 * k) := (pow_mul 2 8 k).symm
  have hfits : 2 ^ (8 * k) ≤ 2 ^ 64 := Nat.pow_le_pow_right (by decide) (by omega)
  rw [decodeBERUnsigned_eq_ok hpos, hpow]
  constructor
  · rintro ⟨hd, hlt, rfl⟩
    have hnat : (UInt64.ofNat (beNat d)).toNat = beNat d :=
      UInt64.toNat_ofNat_of_lt' (hlt.trans_le hfits)
    rw [hnat] at hval ⊢
    exact ⟨hd.eq hmin hval.symm, hlt⟩
  · rintro ⟨rfl, hlt⟩
    rw [hval]
    exact ⟨hmin, hlt, UInt64.ofNat_toNat.symm⟩

/-- No other octets that spell the number are as short. -/
theorem berEncodeInt_shortest {v : Int64} {d : Bytes} (hne : d ≠ []) (h : beInt d = v.toInt) :
    (berEncodeInt v).length ≤ d.length ∧
      (d.length = (berEncodeInt v).length → d = berEncodeInt v) := by
  constructor
  · rw [length_berEncodeInt, ← h]
    exact octetsOf_magnitude_le hne
  · intro hlength
    exact eq_of_beInt_eq hlength (h.trans (berEncodeInt_spec v).2.symm)

/-- **The encodings of integers are canonical.** -/
theorem integers_canonical :
    (∀ (d : Bytes), ∀ k ∈ [4, 8], ∀ v : UInt64,
      decodeBERUnsigned d k = .ok v ↔ d = berEncodeUint64 v ∧ v.toNat < 2 ^ (8 * k)) ∧
    ∀ v : Int64,
      (berEncodeInt v ≠ [] ∧ beInt (berEncodeInt v) = v.toInt ∧
        ∀ d, d ≠ [] → beInt d = v.toInt →
          (berEncodeInt v).length ≤ d.length ∧
            (d.length = (berEncodeInt v).length → d = berEncodeInt v)) ∧
      berInt (berEncodeInt v) = .ok v := by
  constructor
  · intro d k hk v
    rcases List.mem_pair.mp hk with rfl | rfl
    · exact decodeBERUnsigned_iff (by decide) (by decide)
    · exact decodeBERUnsigned_iff (by decide) (by decide)
  · intro v
    have hnonempty : berEncodeInt v ≠ [] := by
      rw [← List.length_pos_iff, length_berEncodeInt]
      exact Nat.succ_pos _
    exact ⟨⟨hnonempty, (berEncodeInt_spec v).2, fun d ↦ berEncodeInt_shortest⟩,
      berInt_berEncodeInt v⟩

end ProcessBus.Goose
