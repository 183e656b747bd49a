import Mathlib.Data.List.Nodup
import ProcessBus.Goose.Decoder

/-!
# The grammar of GOOSE frames

What a GOOSE frame is, without a decoder: an Ethernet header with at most one 802.1Q tag, an APDU
header whose length lies within the frame, one TLV that fills the APDU, tiled by fields, with a
tree of values in the last of them (`IsGoose`).  The grammar has a parameter, the number of octets
that a length may have after its first.

`decode` accepts the frames of this grammar with at most four such octets and no others
(`decode_accepts_iff`), and ends with a message or an error of its own on every byte string.
-/

namespace ProcessBus.Goose

open Go Ethernet Lib Lib.Checked Lib.Ber

/-! ## Values -/

/-- The type that a tag says its value has. -/
def typeOf (tag : UInt8) : DataType := .ofNumber (tag &&& 0x1F)

/-- The content of a value with this tag is legal. -/
inductive IsData (max : ℕ) : UInt8 → Bytes → Prop
  | constructed {tag : UInt8} {items : List (UInt8 × Bytes)} {content : Bytes}
      (htype : typeOf tag ∈ [.array, .struct]) (htag : tag &&& 0x20 ≠ 0)
      (htiles : Tiles max items content) (h : ∀ x ∈ items, IsData max x.1 x.2) :
      IsData max tag content
  | bitString {tag : UInt8} {content : Bytes} (htype : typeOf tag ∈ [.bitString, .booleanArray])
      (h : LegalBitString content) : IsData max tag content
  | integer {tag : UInt8} {content : Bytes} (htype : typeOf tag ∈ [.integer, .bcd])
      (h : content.length ≤ 8) : IsData max tag content
  | unsigned {tag : UInt8} {content : Bytes} (htype : typeOf tag = .unsigned)
      (hmin : MinimalUnsigned content) (h : beNat content < 2 ^ 64) : IsData max tag content
  | any {tag : UInt8} {content : Bytes}
      (htype : typeOf tag ∈ [.boolean, .floatingPoint, .real, .octetString, .visibleString,
        .binaryTime, .utcTime, .unknown]) : IsData max tag content

/-- The bytes are tiled by `n` values. -/
def IsDataSeq (max n : ℕ) (data : Bytes) : Prop :=
  ∃ items, Tiles max items data ∧ items.length = n ∧ ∀ x ∈ items, IsData max x.1 x.2

/-! ## Fields -/

/-- The tags of the fields that hold an unsigned number. -/
def numberTags : List UInt8 := [0x81, 0x85, 0x86, 0x88, 0x8A]

/-- The tags of the known fields. -/
def knownTags : List UInt8 :=
  [0x80, 0x81, 0x82, 0x83, 0x84, 0x85, 0x86, 0x87, 0x88, 0x89, 0x8A, 0xAB]

/-- The content of a field with this tag is legal; any content is, of an unknown field. -/
structure IsField (max : ℕ) (tag : UInt8) (data : Bytes) : Prop where
  number : tag ∈ numberTags → MinimalUnsigned data ∧ beNat data < 2 ^ 32
  time : tag = 0x84 → data.length = 8
  bool : tag ∈ [0x87, 0x89] → data.length = 1
  allData : tag = 0xAB → ∃ n, IsDataSeq max n data

/-- The fields of a message. -/
structure IsFields (max : ℕ) (items : List (UInt8 × Bytes)) : Prop where
  fields : ∀ x ∈ items, IsField max x.1 x.2
  once : (items.map Prod.fst).Pairwise fun a b ↦ a ∈ knownTags → a ≠ b
  required : ∀ tag ∈ requiredGOOSEFieldTags, tag ∈ items.map Prod.fst
  count : ∀ num data, (0x8A, num) ∈ items → (0xAB, data) ∈ items → IsDataSeq max (beNat num) data

/-! ## Frames -/

/-- A frame: header, APDU header, one TLV with tag `0x61` that fills the APDU, and padding. -/
inductive IsGoose (max : ℕ) : Bytes → Prop
  | mk {header appID reserved octets inner padding : Bytes} {h : Header}
      {items : List (UInt8 × Bytes)} (hheader : IsHeader header h) (htype : h.etherType = etherType)
      (happID : appID.length = 2) (hreserved : reserved.length = 4)
      (hlength : 8 + (1 + (octets.length + inner.length)) < 2 ^ 16)
      (hoctets : LengthOf max inner.length octets) (htiles : Tiles max items inner)
      (hfields : IsFields max items) :
      IsGoose max (header ++ (appID ++ (beBytes 2 (8 + (1 + (octets.length + inner.length))) ++
        (reserved ++ (0x61 :: (octets ++ inner) ++ padding)))))

/-! ## Decoding values -/

section Values

variable {depth : ℕ}

/-- What a legal content is, type by type. -/
theorem isData_iff {max : ℕ} {tag : UInt8} {content : Bytes} :
    IsData max tag content ↔
      match typeOf tag with
      | .array | .struct => tag &&& 0x20 ≠ 0 ∧ ∃ n, IsDataSeq max n content
      | .bitString | .booleanArray => LegalBitString content
      | .integer | .bcd => content.length ≤ 8
      | .unsigned => MinimalUnsigned content ∧ beNat content < 2 ^ 64
      | _ => True := by
  constructor
  · intro h
    cases h with
    | constructed htype htag htiles h =>
        have hseq : tag &&& 0x20 ≠ 0 ∧ ∃ n, IsDataSeq max n content :=
          ⟨htag, _, _, htiles, rfl, h⟩
        rcases List.mem_pair.mp htype with htype | htype <;> rw [htype] <;> exact hseq
    | bitString htype h =>
        rcases List.mem_pair.mp htype with htype | htype <;> rw [htype] <;> exact h
    | integer htype h =>
        rcases List.mem_pair.mp htype with htype | htype <;> rw [htype] <;> exact h
    | unsigned htype hmin h =>
        rw [htype]
        exact ⟨hmin, h⟩
    | any htype =>
        revert htype
        cases typeOf tag <;> simp
  · intro h
    cases htype : typeOf tag <;> rw [htype] at h
    case array | struct =>
      obtain ⟨htag, n, items, htiles, -, hitems⟩ := h
      exact .constructed (by simp [htype]) htag htiles hitems
    case bitString | booleanArray => exact .bitString (by simp [htype]) h
    case integer | bcd => exact .integer (by simp [htype]) h
    case unsigned => exact .unsigned htype h.1 h.2
    all_goals exact .any (by simp [htype])

/-- The decoder of one value accepts what the grammar does, if the decoder of its children does. -/
theorem decodeDataValue_accepts {seq : Bytes → Checked BerError (List DataValue)} {tag : UInt8}
    {val : Bytes} (hseq : (∃ vs, seq val = .ok vs) ↔ ∃ n, IsDataSeq 4 n val) :
    (∃ dv, decodeDataValue seq tag val = .ok dv) ↔ IsData 4 tag val := by
  have htypeOf : DataType.ofNumber (tag &&& 0x1F) = typeOf tag := rfl
  rw [isData_iff]
  unfold decodeDataValue
  rw [htypeOf]
  cases typeOf tag
  case array | struct =>
    rw [exists_guard_eq_ok, exists_bind_ok, hseq]
  case bitString | booleanArray =>
    simp only [exists_bind_ok (f := fun p : Bytes × ℤ ↦ _), Prod.exists, decodeBitString_eq_ok]
    constructor
    · rintro ⟨bytes, n, h, -⟩
      exact h
    · intro h
      cases val with
      | nil => exact h.elim
      | cons unused payload => exact ⟨payload, _, h, unused, rfl, rfl⟩
  case integer | bcd =>
    rw [exists_guard_eq_ok, exists_bind_ok, berInt_eq, not_lt]
    exact and_iff_left ⟨_, rfl⟩
  case unsigned =>
    rw [exists_bind_ok]
    simp only [berUint64, decodeBERUnsigned_eq_ok (show 0 < 8 by decide)]
    constructor
    · rintro ⟨v, hmin, hlt, -⟩
      exact ⟨hmin, hlt⟩
    · rintro ⟨hmin, hlt⟩
      exact ⟨_, hmin, hlt, rfl⟩
  case boolean =>
    refine iff_of_true ?_ trivial
    cases val with
    | nil => exact ⟨_, rfl⟩
    | cons b rest => exact ⟨_, rfl⟩
  case floatingPoint | real =>
    obtain ⟨f, hf⟩ := exists_decodeFloat val
    rw [hf]
    exact iff_of_true ⟨_, rfl⟩ trivial
  case utcTime =>
    rw [readUtcTime_eq]
    exact iff_of_true ⟨_, rfl⟩ trivial
  all_goals exact iff_of_true ⟨_, rfl⟩ trivial

/-- **The tree of values is accepted exactly if it is legal**, with as many values as it has tiles.
-/
theorem decodeDataSeq_accepts {data : Bytes} (h : data.length < depth) {n : ℕ} :
    (∃ vs, decodeDataSeq depth data = .ok vs ∧ vs.length = n) ↔ IsDataSeq 4 n data := by
  induction depth generalizing data n with
  | zero => exact absurd h (Nat.not_lt_zero _)
  | succ depth ih =>
      have hseq {val : Bytes} (hval : val.length < depth) :
          (∃ vs, decodeDataSeq depth val = .ok vs) ↔ ∃ n, IsDataSeq 4 n val := by
        simp only [← ih hval]
        constructor
        · rintro ⟨vs, hvs⟩
          exact ⟨_, vs, hvs, rfl⟩
        · rintro ⟨n, vs, hvs, -⟩
          exact ⟨vs, hvs⟩
      have hslice : slice data 0 data.length = data := by
        rw [slice, List.take_length, List.drop_zero]
      have hwalk (vs : List DataValue) : decodeDataSeq (depth + 1) data = .ok vs ↔
          ∃ items, Tiles 4 items data ∧ items.foldlM (fun out x ↦
            decodeDataValue (decodeDataSeq depth) x.1 x.2 >>= fun dv ↦ .ok (out ++ [dv])) [] =
              .ok vs := by
        refine (walk_eq_ok le_rfl (Nat.lt_succ_of_le (Nat.sub_le _ 0))).trans ?_
        rw [hslice]
      constructor
      · rintro ⟨vs, hvs, hn⟩
        obtain ⟨items, htiles, hfold⟩ := (hwalk vs).mp hvs
        obtain ⟨hlen, hitems⟩ := exists_foldlM_collect.mp ⟨vs, hfold, hn⟩
        refine ⟨items, htiles, hlen, fun x hx ↦ ?_⟩
        have hshort := htiles.length_lt x hx
        exact (decodeDataValue_accepts (hseq (by omega))).mp (hitems x hx)
      · rintro ⟨items, htiles, hlen, hitems⟩
        have hok : ∀ x ∈ items, ∃ dv, decodeDataValue (decodeDataSeq depth) x.1 x.2 = .ok dv := by
          intro x hx
          have hshort := htiles.length_lt x hx
          exact (decodeDataValue_accepts (hseq (by omega))).mpr (hitems x hx)
        obtain ⟨vs, hfold, hn⟩ := exists_foldlM_collect.mpr ⟨hlen, hok⟩
        exact ⟨vs, (hwalk vs).mpr ⟨items, htiles, hfold⟩, hn⟩

theorem safe_decodeDataValue {seq : Bytes → Checked BerError (List DataValue)} {tag : UInt8}
    {val : Bytes} (hseq : Safe (seq val)) : Safe (decodeDataValue seq tag val) := by
  unfold decodeDataValue
  cases DataType.ofNumber (tag &&& 0x1F)
  case array | struct => exact Safe.guard fun _ ↦ Safe.bind hseq fun _ _ ↦ safe_ok
  case boolean =>
    cases val with
    | nil => exact safe_ok
    | cons b rest => exact safe_ok
  case bitString | booleanArray =>
    exact Safe.bind (safe_decodeBitString val) fun _ _ ↦ safe_ok
  case integer | bcd =>
    rw [berInt_eq]
    exact Safe.guard fun _ ↦ safe_ok
  case unsigned =>
    exact Safe.bind (safe_decodeBERUnsigned (by decide)) fun _ _ ↦ safe_ok
  case floatingPoint | real =>
    obtain ⟨f, hf⟩ := exists_decodeFloat val
    rw [hf]
    exact safe_ok
  case utcTime =>
    rw [readUtcTime_eq]
    exact safe_ok
  all_goals exact safe_ok

/-- The tree of values is decoded without a panic and within the given depth. -/
theorem safe_decodeDataSeq {data : Bytes} (h : data.length < depth) :
    Safe (decodeDataSeq depth data) := by
  induction depth generalizing data with
  | zero => exact absurd h (Nat.not_lt_zero _)
  | succ depth ih =>
      refine safe_walk le_rfl (Nat.lt_succ_of_le (Nat.sub_le _ _)) (Nat.sub_le _ _)
        (fun out tag val hval ↦ ?_) []
      exact Safe.bind (safe_decodeDataValue (ih (by omega))) fun _ _ ↦ safe_ok

end Values

/-! ## The fields that were seen -/

/-- The bit of a known field. -/
def fieldBit (tag : UInt8) : ℕ := if tag = 0xAB then 11 else tag.toNat - 0x80

theorem gooseField_of_known : ∀ tag ∈ knownTags,
    gooseField tag = ⟨BitVec.twoPow 16 (fieldBit tag)⟩ :=
  List.forall_iff_forall_mem.mp (by decide)

theorem gooseField_of_unknown {tag : UInt8} (h : tag ∉ knownTags) : gooseField tag = 0 := by
  have hall : ∀ k : Fin 256, UInt8.ofNat k ∈ knownTags ∨ gooseField (UInt8.ofNat k) = 0 := by
    decide +kernel
  have htag := hall ⟨tag.toNat, tag.toNat_lt⟩
  simp only [UInt8.ofNat_toNat] at htag
  exact htag.resolve_left h

/-- The field with this tag is in the mask. -/
def Seen (m : UInt16) (tag : UInt8) : Prop := m &&& gooseField tag ≠ 0

theorem fieldBit_lt : ∀ tag ∈ knownTags, fieldBit tag < 16 :=
  List.forall_iff_forall_mem.mp (by decide)

theorem fieldBit_inj : ∀ tag ∈ knownTags, ∀ u ∈ knownTags, fieldBit u = fieldBit tag → u = tag := by
  have hnodup : (knownTags.map fieldBit).Nodup := by decide
  intro tag htag u hu h
  exact List.inj_on_of_nodup_map hnodup hu htag h

theorem seen_iff {m : UInt16} {tag : UInt8} (h : tag ∈ knownTags) :
    Seen m tag ↔ m.toBitVec.getLsbD (fieldBit tag) = true := by
  have hne : BitVec.twoPow 16 (fieldBit tag) ≠ 0#16 := by
    intro hzero
    have := congrArg (BitVec.getLsbD · (fieldBit tag)) hzero
    simp [fieldBit_lt tag h] at this
  rw [Seen, ne_eq, ← UInt16.toBitVec_inj, UInt16.toBitVec_and, gooseField_of_known tag h]
  show ¬ m.toBitVec &&& BitVec.twoPow 16 (fieldBit tag) = 0#16 ↔ _
  rw [BitVec.and_twoPow]
  split
  · rename_i hbit
    exact iff_of_true hne hbit
  · rename_i hbit
    exact iff_of_false (not_not.mpr rfl) hbit

theorem not_seen_zero (tag : UInt8) : ¬ Seen 0 tag := by
  rw [Seen, not_not]
  exact UInt16.zero_and

/-- A field is seen after one more was read if it was before, or is that one. -/
theorem seen_or {m : UInt16} {u tag : UInt8} (h : tag ∈ knownTags) :
    Seen (m ||| gooseField u) tag ↔ Seen m tag ∨ u = tag := by
  rw [seen_iff h, seen_iff h, UInt16.toBitVec_or, BitVec.getLsbD_or, Bool.or_eq_true]
  refine or_congr_right ?_
  by_cases hu : u ∈ knownTags
  · rw [gooseField_of_known u hu]
    show (BitVec.twoPow 16 (fieldBit u)).getLsbD (fieldBit tag) = true ↔ _
    rw [BitVec.getLsbD_twoPow, decide_eq_true (fieldBit_lt u hu), Bool.true_and, decide_eq_true_iff]
    constructor
    · exact fieldBit_inj tag h u hu
    · rintro rfl
      rfl
  · rw [gooseField_of_unknown hu]
    refine iff_of_false (by simp) ?_
    rintro rfl
    exact hu h

theorem not_seen_of_unknown {m : UInt16} {tag : UInt8} (h : tag ∉ knownTags) : ¬ Seen m tag := by
  rw [Seen, not_not, gooseField_of_unknown h]
  exact UInt16.and_zero

theorem not_seen_or {m : UInt16} {u tag : UInt8} :
    ¬ Seen (m ||| gooseField u) tag ↔ ¬ Seen m tag ∧ (u ∈ knownTags → u ≠ tag) := by
  by_cases h : tag ∈ knownTags
  · rw [seen_or h, not_or]
    refine and_congr_right fun _ ↦ ?_
    constructor
    · exact fun hne _ ↦ hne
    · rintro hne rfl
      exact hne h rfl
  · refine iff_of_true (not_seen_of_unknown h) ⟨not_seen_of_unknown h, ?_⟩
    rintro hu rfl
    exact h hu

theorem mem_knownTags_of_required : ∀ tag ∈ requiredGOOSEFieldTags, tag ∈ knownTags :=
  List.forall_iff_forall_mem.mp (by decide)

/-- A required field is missing if it was not seen. -/
theorem seen_missing {m : UInt16} {tag : UInt8} (h : tag ∈ requiredGOOSEFieldTags) :
    Seen (requiredGOOSEFields &&& ~~~m) tag ↔ ¬ Seen m tag := by
  have hreq : ∀ tag ∈ requiredGOOSEFieldTags,
      requiredGOOSEFields.toBitVec.getLsbD (fieldBit tag) = true :=
    List.forall_iff_forall_mem.mp (by decide)
  have hknown := mem_knownTags_of_required tag h
  rw [seen_iff hknown, seen_iff hknown, UInt16.toBitVec_and, BitVec.getLsbD_and, hreq tag h,
    Bool.true_and, UInt16.toBitVec_not, BitVec.getLsbD_not, decide_eq_true (fieldBit_lt tag hknown),
    Bool.true_and, Bool.not_eq_true', Bool.not_eq_true]

/-- The check at the end: no required field is missing, and the values are as many as declared. -/
theorem validateGOOSEFields_eq_ok {pdu : PDU} {m : UInt16} :
    validateGOOSEFields pdu m = .ok () ↔
      (∀ tag ∈ requiredGOOSEFieldTags, Seen m tag) ∧
        pdu.numDatSetEntries.toNat = pdu.allData.length := by
  have hfind : (if requiredGOOSEFields &&& ~~~m ≠ 0 then requiredGOOSEFieldTags.find?
      (fun tag ↦ requiredGOOSEFields &&& ~~~m &&& gooseField tag ≠ 0) else none) = none ↔
        ∀ tag ∈ requiredGOOSEFieldTags, Seen m tag := by
    have hseen : (∀ tag ∈ requiredGOOSEFieldTags, Seen m tag) ↔
        ∀ tag ∈ requiredGOOSEFieldTags, ¬ Seen (requiredGOOSEFields &&& ~~~m) tag :=
      forall₂_congr fun tag h ↦ by rw [seen_missing h, not_not]
    rw [hseen]
    split
    · rw [List.find?_eq_none]
      simp only [decide_eq_true_eq]
      rfl
    · rename_i hzero
      rw [not_not.mp hzero]
      exact iff_of_true rfl fun tag _ ↦ not_seen_zero tag
  unfold validateGOOSEFields
  rw [← hfind]
  dsimp only
  split
  · rename_i hsome
    rw [hsome]
    exact iff_of_false fail_ne_ok nofun
  · rename_i hnone
    rw [hnone, guard_eq_ok, ne_eq, not_not]
    simp

/-! ## Decoding fields -/

theorem berUint32_eq_ok {data : Bytes} {v : UInt32} :
    berUint32 data = .ok v ↔
      MinimalUnsigned data ∧ beNat data < 2 ^ 32 ∧ v = UInt32.ofNat (beNat data) := by
  simp only [berUint32, bind_eq_ok, decodeBERUnsigned_eq_ok (show 0 < 4 by decide), Except.ok.injEq]
  constructor
  · rintro ⟨v, ⟨hmin, hlt, rfl⟩, rfl⟩
    exact ⟨hmin, hlt, UInt64.toUInt32_ofNat' _⟩
  · rintro ⟨hmin, hlt, rfl⟩
    exact ⟨_, ⟨hmin, hlt, rfl⟩, UInt64.toUInt32_ofNat' _⟩

theorem isField_number {max : ℕ} {tag : UInt8} {data : Bytes} (h : tag ∈ numberTags) :
    IsField max tag data ↔ MinimalUnsigned data ∧ beNat data < 2 ^ 32 := by
  have hother : ∀ tag ∈ numberTags, tag ≠ 0x84 ∧ tag ∉ [0x87, 0x89] ∧ tag ≠ 0xAB :=
    List.forall_iff_forall_mem.mp (by decide)
  obtain ⟨ht, hb, hd⟩ := hother tag h
  constructor
  · intro hf
    exact hf.number h
  · intro hn
    exact ⟨fun _ ↦ hn, fun h ↦ absurd h ht, fun h ↦ absurd h hb, fun h ↦ absurd h hd⟩

theorem isField_time {max : ℕ} {data : Bytes} : IsField max 0x84 data ↔ data.length = 8 := by
  constructor
  · intro hf
    exact hf.time rfl
  · intro h
    exact ⟨fun h ↦ absurd h (by decide), fun _ ↦ h, fun h ↦ absurd h (by decide),
      fun h ↦ absurd h (by decide)⟩

theorem isField_bool {max : ℕ} {tag : UInt8} {data : Bytes} (h : tag ∈ [0x87, 0x89]) :
    IsField max tag data ↔ data.length = 1 := by
  have hother : ∀ tag ∈ [0x87, 0x89], tag ∉ numberTags ∧ tag ≠ 0x84 ∧ tag ≠ 0xAB :=
    List.forall_iff_forall_mem.mp (by decide)
  obtain ⟨hn, ht, hd⟩ := hother tag h
  constructor
  · intro hf
    exact hf.bool h
  · intro hlen
    exact ⟨fun h ↦ absurd h hn, fun h ↦ absurd h ht, fun _ ↦ hlen, fun h ↦ absurd h hd⟩

theorem isField_allData {max : ℕ} {data : Bytes} :
    IsField max 0xAB data ↔ ∃ n, IsDataSeq max n data := by
  constructor
  · intro hf
    exact hf.allData rfl
  · intro h
    exact ⟨fun h ↦ absurd h (by decide), fun h ↦ absurd h (by decide), fun h ↦ absurd h (by decide),
      fun _ ↦ h⟩

/-- Any content is legal in a string or in an unknown field. -/
theorem isField_any {max : ℕ} {tag : UInt8} {data : Bytes}
    (h : tag ∉ knownTags ∨ tag ∈ [0x80, 0x82, 0x83]) : IsField max tag data := by
  have hother : tag ∉ numberTags ∧ tag ≠ 0x84 ∧ tag ∉ [0x87, 0x89] ∧ tag ≠ 0xAB := by
    rcases h with h | h
    · simp only [knownTags, numberTags, List.mem_cons, List.not_mem_nil, or_false] at h ⊢
      tauto
    · have hnone : ∀ tag ∈ ([0x80, 0x82, 0x83] : List UInt8),
          tag ∉ numberTags ∧ tag ≠ 0x84 ∧ tag ∉ [0x87, 0x89] ∧ tag ≠ 0xAB :=
        List.forall_iff_forall_mem.mp (by decide)
      exact hnone tag h
  obtain ⟨hn, ht, hb, hd⟩ := hother
  exact ⟨fun h ↦ absurd h hn, fun h ↦ absurd h ht, fun h ↦ absurd h hb, fun h ↦ absurd h hd⟩

theorem decodeField_unknown {pdu : PDU} {tag : UInt8} {data : Bytes} (h : tag ∉ knownTags) :
    decodeField pdu tag data = .ok pdu := by
  simp only [knownTags, List.mem_cons, List.not_mem_nil, or_false, not_or] at h
  simp only [decodeField, h, if_false]

/-- A field is accepted exactly if its content is legal. -/
theorem decodeField_accepts (pdu : PDU) {tag : UInt8} {data : Bytes} :
    (∃ pdu', decodeField pdu tag data = .ok pdu') ↔ IsField 4 tag data := by
  have hnumber (set : UInt32 → PDU) (htag : tag ∈ numberTags) :
      (∃ pdu', wrap (DecodeError.badField tag) (berUint32 data) >>= (fun v ↦ .ok (set v)) =
        .ok pdu') ↔ IsField 4 tag data := by
    rw [exists_bind_ok, isField_number htag]
    simp only [wrap_eq_ok, berUint32_eq_ok]
    constructor
    · rintro ⟨v, hmin, hlt, -⟩
      exact ⟨hmin, hlt⟩
    · rintro ⟨hmin, hlt⟩
      exact ⟨_, hmin, hlt, rfl⟩
  have hbool (set : Bool → PDU) (e : BerError) (htag : tag ∈ [0x87, 0x89]) :
      (∃ pdu', (if data.length ≠ 1 then fail (DecodeError.badField tag e) else
        index data 0 >>= fun b ↦ .ok (set (b != 0))) = .ok pdu') ↔ IsField 4 tag data := by
    rw [exists_guard_eq_ok, not_not, isField_bool htag]
    refine and_iff_left_of_imp fun hlen ↦ ?_
    obtain ⟨b, rfl⟩ := List.length_eq_one_iff.mp hlen
    exact ⟨_, rfl⟩
  by_cases hknown : tag ∈ knownTags
  · simp only [knownTags, List.mem_cons, List.not_mem_nil, or_false] at hknown
    rcases hknown with rfl | rfl | rfl | rfl | rfl | rfl | rfl | rfl | rfl | rfl | rfl | rfl
    · exact iff_of_true ⟨_, rfl⟩ (isField_any (.inr (by decide)))
    · exact hnumber _ (by decide)
    · exact iff_of_true ⟨_, rfl⟩ (isField_any (.inr (by decide)))
    · exact iff_of_true ⟨_, rfl⟩ (isField_any (.inr (by decide)))
    · rw [isField_time]
      show (∃ pdu', (if data.length ≠ 8 then fail _ else wrap _ (readUtcTime data) >>= _) = _) ↔ _
      rw [exists_guard_eq_ok, not_not, readUtcTime_eq]
      exact and_iff_left ⟨_, rfl⟩
    · exact hnumber _ (by decide)
    · exact hnumber _ (by decide)
    · exact hbool (fun b ↦ { pdu with test := b }) (.testLength data.length) (by decide)
    · exact hnumber _ (by decide)
    · exact hbool (fun b ↦ { pdu with ndsCom := b }) (.ndsComLength data.length) (by decide)
    · exact hnumber _ (by decide)
    · rw [isField_allData]
      show (∃ pdu', wrap _ (decodeDataSeq _ data) >>= _ = _) ↔ _
      rw [exists_bind_ok]
      simp only [wrap_eq_ok, ← decodeDataSeq_accepts (Nat.lt_succ_self data.length)]
      constructor
      · rintro ⟨vs, hvs⟩
        exact ⟨_, vs, hvs, rfl⟩
      · rintro ⟨n, vs, hvs, -⟩
        exact ⟨vs, hvs⟩
  · rw [decodeField_unknown hknown]
    exact iff_of_true ⟨_, rfl⟩ (isField_any (.inl hknown))

/-- Only its own field sets the number of entries, the values or the time. -/
theorem decodeField_effect {pdu pdu' : PDU} {tag : UInt8} {data : Bytes}
    (h : decodeField pdu tag data = .ok pdu') :
    (if tag = 0x8A then pdu'.numDatSetEntries = UInt32.ofNat (beNat data)
      else pdu'.numDatSetEntries = pdu.numDatSetEntries) ∧
    (if tag = 0xAB then decodeDataSeq (data.length + 1) data = .ok pdu'.allData
      else pdu'.allData = pdu.allData) ∧
    (if tag = 0x84 then data.length = 8 ∧ pdu'.timestamp = (decodeUtcTime data).1
      else pdu'.timestamp = pdu.timestamp) := by
  have hset {α : Type} {x : Checked DecodeError α} {set : α → PDU}
      (hx : x >>= (fun v ↦ .ok (set v)) = .ok pdu') : ∃ v, x = .ok v ∧ set v = pdu' := by
    obtain ⟨v, hv, hset⟩ := bind_eq_ok.mp hx
    cases hset
    exact ⟨v, hv, rfl⟩
  have hne {t : UInt8} (ht : t ∈ knownTags) (hknown : tag ∉ knownTags) : tag ≠ t :=
    fun h ↦ hknown (h ▸ ht)
  by_cases hknown : tag ∈ knownTags
  · simp only [knownTags, List.mem_cons, List.not_mem_nil, or_false] at hknown
    rcases hknown with rfl | rfl | rfl | rfl | rfl | rfl | rfl | rfl | rfl | rfl | rfl | rfl
    case inr.inr.inr.inr.inl =>
      obtain ⟨hlen, h⟩ := guard_eq_ok.mp h
      rw [readUtcTime_eq] at h
      cases h
      exact ⟨rfl, rfl, not_not.mp hlen, rfl⟩
    case inr.inr.inr.inr.inr.inr.inr.inr.inr.inr.inl =>
      obtain ⟨v, hv, rfl⟩ := hset h
      exact ⟨(berUint32_eq_ok.mp (wrap_eq_ok.mp hv)).2.2, rfl, rfl⟩
    case inr.inr.inr.inr.inr.inr.inr.inr.inr.inr.inr =>
      obtain ⟨v, hv, rfl⟩ := hset h
      exact ⟨rfl, wrap_eq_ok.mp hv, rfl⟩
    -- Strings, numbers and guarded fields.
    all_goals first
      | cases h; exact ⟨rfl, rfl, rfl⟩
      | obtain ⟨v, -, rfl⟩ := hset h; exact ⟨rfl, rfl, rfl⟩
      | obtain ⟨v, -, rfl⟩ := hset (guard_eq_ok.mp h).2; exact ⟨rfl, rfl, rfl⟩
  · rw [decodeField_unknown hknown] at h
    cases h
    rw [if_neg (hne (by decide) hknown), if_neg (hne (by decide) hknown),
      if_neg (hne (by decide) hknown)]
    exact ⟨rfl, rfl, rfl⟩

/-- The field loop, over fields that are cut out already. -/
def readFields (items : List (UInt8 × Bytes)) (s : Fields) : Checked DecodeError Fields :=
  items.foldlM (fun s x ↦ s.read x.1 x.2) s

section Fields

variable {s s' : Fields} {items : List (UInt8 × Bytes)}

theorem read_eq_ok {tag : UInt8} {data : Bytes} :
    s.read tag data = .ok s' ↔ ¬ Seen s.seenFields tag ∧
      ∃ pdu, decodeField s.pdu tag data = .ok pdu ∧ s' = ⟨pdu, s.seenFields ||| gooseField tag⟩ := by
  have hseen : gooseField tag ≠ 0 ∧ s.seenFields &&& gooseField tag ≠ 0 ↔ Seen s.seenFields tag := by
    refine and_iff_right_of_imp fun h hzero ↦ h ?_
    rw [hzero]
    exact UInt16.and_zero
  unfold Fields.read
  dsimp only
  rw [guard_eq_ok, hseen, bind_eq_ok]
  simp only [Except.ok.injEq, eq_comm]

/-- **The loop over the fields**: it succeeds exactly if every field is legal and no known one
occurs twice or has been seen before. -/
theorem readFields_accepts :
    (∃ s', readFields items s = .ok s') ↔
      (∀ x ∈ items, IsField 4 x.1 x.2) ∧
        ((items.map Prod.fst).Pairwise fun a b ↦ a ∈ knownTags → a ≠ b) ∧
          ∀ tag ∈ items.map Prod.fst, ¬ Seen s.seenFields tag := by
  induction items generalizing s with
  | nil => exact iff_of_true ⟨s, rfl⟩ ⟨nofun, .nil, nofun⟩
  | cons x items ih =>
      have hstep : (∃ s', readFields (x :: items) s = .ok s') ↔
          ¬ Seen s.seenFields x.1 ∧ ∃ pdu, decodeField s.pdu x.1 x.2 = .ok pdu ∧
            ∃ s', readFields items ⟨pdu, s.seenFields ||| gooseField x.1⟩ = .ok s' := by
        simp only [readFields, List.foldlM_cons, bind_eq_ok, read_eq_ok]
        constructor
        · rintro ⟨s', _, ⟨hseen, pdu, hpdu, rfl⟩, hs'⟩
          exact ⟨hseen, pdu, hpdu, s', hs'⟩
        · rintro ⟨hseen, pdu, hpdu, s', hs'⟩
          exact ⟨s', _, ⟨hseen, pdu, hpdu, rfl⟩, hs'⟩
      simp only [hstep, ih, not_seen_or, List.map_cons, List.forall_mem_cons, List.pairwise_cons,
        ← decodeField_accepts s.pdu]
      constructor
      · rintro ⟨hseen, pdu, hpdu, hfields, honce, hnew⟩
        exact ⟨⟨⟨pdu, hpdu⟩, hfields⟩, ⟨fun t ht ↦ (hnew t ht).2, honce⟩, hseen,
          fun t ht ↦ (hnew t ht).1⟩
      · rintro ⟨⟨⟨pdu, hpdu⟩, hfields⟩, ⟨hne, honce⟩, hseen, hnew⟩
        exact ⟨hseen, pdu, hpdu, hfields, honce, fun t ht ↦ ⟨hnew t ht, hne t ht⟩⟩

/-- What the loop leaves behind. -/
theorem readFields_effect (h : readFields items s = .ok s') :
    (∀ tag ∈ knownTags, Seen s'.seenFields tag ↔
        Seen s.seenFields tag ∨ tag ∈ items.map Prod.fst) ∧
      (∀ num, (0x8A, num) ∈ items → s'.pdu.numDatSetEntries = UInt32.ofNat (beNat num)) ∧
      (∀ data, (0xAB, data) ∈ items →
        decodeDataSeq (data.length + 1) data = .ok s'.pdu.allData) ∧
      (0x8A ∉ items.map Prod.fst → s'.pdu.numDatSetEntries = s.pdu.numDatSetEntries) ∧
      (0xAB ∉ items.map Prod.fst → s'.pdu.allData = s.pdu.allData) := by
  induction items generalizing s with
  | nil =>
      cases h
      exact ⟨fun tag _ ↦ by simp, nofun, nofun, fun _ ↦ rfl, fun _ ↦ rfl⟩
  | cons x items ih =>
      rw [readFields, List.foldlM_cons, bind_eq_ok] at h
      obtain ⟨s₁, h₁, h⟩ := h
      obtain ⟨hseen, pdu, hpdu, rfl⟩ := read_eq_ok.mp h₁
      obtain ⟨-, -, hnew⟩ := readFields_accepts.mp ⟨s', h⟩
      obtain ⟨hmask, hnum, hdata, hnum', hdata'⟩ := ih h
      obtain ⟨hn, hd, -⟩ := decodeField_effect hpdu
      -- The field just read does not come again.
      have hlast {t : UInt8} (ht : t ∈ knownTags) (hx : x.1 = t) : t ∉ items.map Prod.fst := by
        intro hmem
        exact (not_seen_or.mp (hnew t hmem)).2 (hx ▸ ht) hx
      refine ⟨?_, ?_, ?_, ?_, ?_⟩
      · intro tag htag
        rw [hmask tag htag, seen_or htag, List.map_cons, List.mem_cons, or_assoc, eq_comm]
      · intro num hmem
        rcases List.mem_cons.mp hmem with rfl | hmem
        · rw [hnum' (hlast (by decide) rfl)]
          exact hn
        · exact hnum num hmem
      · intro data hmem
        rcases List.mem_cons.mp hmem with rfl | hmem
        · rw [hdata' (hlast (by decide) rfl)]
          exact hd
        · exact hdata data hmem
      · intro hmem
        rw [List.map_cons, List.mem_cons, not_or] at hmem
        rw [if_neg (Ne.symm hmem.1)] at hn
        rw [hnum' hmem.2, hn]
      · intro hmem
        rw [List.map_cons, List.mem_cons, not_or] at hmem
        rw [if_neg (Ne.symm hmem.1)] at hd
        rw [hdata' hmem.2, hd]

end Fields

/-! ## Decoding frames -/

theorem decodeAPDU_eq_ok {frame : Bytes} {offset pduEnd : ℕ} {pdu₀ pdu : PDU}
    (hend : pduEnd ≤ frame.length) (hoffset : offset < pduEnd) :
    decodeAPDU frame offset pduEnd pdu₀ = .ok pdu ↔
      ∃ octets inner items s, slice frame offset pduEnd = 0x61 :: (octets ++ inner) ∧
        LengthOf 4 inner.length octets ∧ Tiles 4 items inner ∧
          readFields items ⟨pdu₀, 0⟩ = .ok s ∧
            validateGOOSEFields s.pdu s.seenFields = .ok () ∧ s.pdu = pdu := by
  unfold decodeAPDU
  simp only [bind_eq_ok, guard_eq_ok, index_eq_ok, Prod.exists, berLength, readLength_eq_ok,
    Except.ok.injEq, ne_eq, not_not, not_lt]
  constructor
  · rintro ⟨tag, htag, rfl, innerLen, offset', ⟨octets, rest, hdrop, hlen, rfl⟩, hcross, hexceed,
      hmatch, s, hwalk, ⟨⟩, hvalid, hpdu⟩
    obtain ⟨items, htiles, hread⟩ := (walk_eq_ok hend (by omega)).mp hwalk
    refine ⟨octets, _, items, s, ?_, ?_, htiles, hread, hvalid, hpdu⟩
    · rw [slice_cons htag hoffset, slice_split (j := offset + 1 + octets.length) (by omega) hcross,
        slice_of_drop hdrop rfl]
    · rw [length_slice hend]
      rwa [show pduEnd - (offset + 1 + octets.length) = innerLen by omega]
  · rintro ⟨octets, inner, items, s, hslice, hlen, htiles, hread, hvalid, hpdu⟩
    have hslice' : slice frame offset pduEnd = 0x61 :: (octets ++ (inner ++ [])) := by
      rw [List.append_nil]
      exact hslice
    obtain ⟨htag, ⟨rest, hdrop⟩, hroom, hinner, hrest⟩ := of_slice_tlv hend hslice'
    have hempty : pduEnd - (offset + 1 + octets.length + inner.length) = 0 := by
      rw [← length_slice hend, hrest]
      rfl
    have hsum : offset + 1 + octets.length + inner.length = pduEnd := by omega
    refine ⟨_, htag, rfl, inner.length, _, ⟨octets, rest, hdrop, hlen, rfl⟩, by omega, by omega,
      by omega, s, (walk_eq_ok hend (by omega)).mpr ⟨items, ?_, hread⟩, (), hvalid, hpdu⟩
    rw [← hsum, hinner]
    exact htiles

/-- A frame, cut into its parts, and the message that the decoder reads out of them. -/
inductive Decodes : Bytes → PDU → Prop
  | mk {header reserved2 octets inner padding : Bytes} {h : Header} {a : ApduHeader}
      {items : List (UInt8 × Bytes)} {s : Fields} (hheader : IsHeader header h)
      (htype : h.etherType = etherType) (hreserved : reserved2.length = 2)
      (hlength : a.length = 8 + (1 + (octets.length + inner.length))) (hlt : a.length < 2 ^ 16)
      (hoctets : LengthOf 4 inner.length octets) (htiles : Tiles 4 items inner)
      (hread : readFields items ⟨.ofHeaders h a, 0⟩ = .ok s)
      (hvalid : validateGOOSEFields s.pdu s.seenFields = .ok ()) :
      Decodes (header ++ (beBytes 2 a.appID.toNat ++ (beBytes 2 a.length ++
        (beBytes 2 a.reserved1.toNat ++ (reserved2 ++ (0x61 :: (octets ++ inner) ++ padding))))))
        s.pdu

/-- **What the decoder returns**, and for which frames. -/
theorem decode_eq_ok {frame : Bytes} {pdu : PDU} : decode frame = .ok pdu ↔ Decodes frame pdu := by
  unfold decode
  simp only [bind_eq_ok, guard_eq_ok, readHeader_eq_ok, readApduHeader_eq_ok, ne_eq, not_not, not_lt]
  constructor
  · rintro ⟨h, ⟨bytes, rest, hframe, hheader⟩, htype, a, ⟨hlt, reserved2, rest', hreserved, hdrop⟩,
      h8, hroom, hpos, hapdu⟩
    have hrest : frame.drop h.offset = rest := by
      rw [hframe, ← hheader.length_eq, List.drop_left']
      rfl
    have hpayload : frame.drop (h.offset + 8) = rest' := drop_apduHeader hreserved hdrop
    obtain rfl := hrest.symm.trans hdrop
    have hlen : frame.length = h.offset + 8 + rest'.length := by
      rw [hframe]
      simp only [List.length_append, hheader.length_eq, length_beBytes, hreserved]
      omega
    obtain ⟨octets, inner, items, s, hslice, hoctets, htiles, hread, hvalid, rfl⟩ :=
      (decodeAPDU_eq_ok (by omega) (by omega)).mp hapdu
    have hsize := congrArg List.length hslice
    rw [length_slice (by omega), List.length_cons, List.length_append] at hsize
    rw [slice_append_drop (j := h.offset + 8 + (a.length - 8)) (by omega), hslice] at hpayload
    rw [hframe, ← hpayload]
    exact .mk hheader htype hreserved (by omega) hlt hoctets htiles hread hvalid
  · intro hd
    cases hd with
    | @mk header reserved2 octets inner padding h a items s hheader htype hreserved hlength hlt
        hoctets htiles hread hvalid =>
      have hoffset := hheader.length_eq
      generalize hframe : header ++ _ = frame
      have hdrop := drop_of_drop (i := 0) (j := h.offset) hframe.symm (by omega)
      have hpayload := drop_apduHeader hreserved hdrop
      have hlen : frame.length = h.offset + a.length + padding.length := by
        rw [← hframe]
        simp only [List.length_append, List.length_cons, length_beBytes, hreserved, hoffset]
        omega
      refine ⟨h, ⟨_, _, hframe.symm, hheader⟩, htype, a, ⟨hlt, reserved2, _, hreserved, hdrop⟩,
        by omega, by omega, by omega, ?_⟩
      refine (decodeAPDU_eq_ok (by omega) (by omega)).mpr
        ⟨octets, inner, items, s, slice_of_drop hpayload ?_, hoctets, htiles, hread, hvalid, rfl⟩
      rw [List.length_cons, List.length_append]
      omega

/-! ## The grammar and the decoder -/

/-- The fields pass the loop and the check after it exactly if they are those of a message. -/
theorem isFields_iff {items : List (UInt8 × Bytes)} {pdu : PDU} :
    (∃ s, readFields items ⟨pdu, 0⟩ = .ok s ∧ validateGOOSEFields s.pdu s.seenFields = .ok ()) ↔
      IsFields 4 items := by
  have hcount {num data : Bytes} {s : Fields} (hread : readFields items ⟨pdu, 0⟩ = .ok s)
      (hnum : (0x8A, num) ∈ items) (hdata : (0xAB, data) ∈ items) :
      s.pdu.numDatSetEntries.toNat = beNat num ∧
        decodeDataSeq (data.length + 1) data = .ok s.pdu.allData := by
    obtain ⟨-, hn, hd, -⟩ := readFields_effect hread
    have hlt := ((readFields_accepts.mp ⟨s, hread⟩).1 _ hnum).number (show 0x8A ∈ _ by decide)
    refine ⟨?_, hd data hdata⟩
    rw [hn num hnum, UInt32.toNat_ofNat', Nat.mod_eq_of_lt hlt.2]
  constructor
  · rintro ⟨s, hread, hvalid⟩
    obtain ⟨hfields, honce, -⟩ := readFields_accepts.mp ⟨s, hread⟩
    obtain ⟨hmask, -⟩ := readFields_effect hread
    obtain ⟨hseen, hentries⟩ := validateGOOSEFields_eq_ok.mp hvalid
    refine ⟨hfields, honce, fun tag htag ↦ ?_, fun num data hnum hdata ↦ ?_⟩
    · have h := (hmask tag (mem_knownTags_of_required tag htag)).mp (hseen tag htag)
      exact h.resolve_left (not_seen_zero tag)
    · obtain ⟨hn, hd⟩ := hcount hread hnum hdata
      exact (decodeDataSeq_accepts (Nat.lt_succ_self _)).mp ⟨_, hd, by omega⟩
  · rintro ⟨hfields, honce, hrequired, hseq⟩
    obtain ⟨s, hread⟩ : ∃ s, readFields items ⟨pdu, 0⟩ = .ok s :=
      readFields_accepts.mpr ⟨hfields, honce, fun tag _ ↦ not_seen_zero tag⟩
    obtain ⟨hmask, -⟩ := readFields_effect hread
    refine ⟨s, hread, validateGOOSEFields_eq_ok.mpr ⟨fun tag htag ↦ ?_, ?_⟩⟩
    · exact (hmask tag (mem_knownTags_of_required tag htag)).mpr (.inr (hrequired tag htag))
    · obtain ⟨⟨_, num⟩, hnum, rfl⟩ := List.mem_map.mp (hrequired 0x8A (by decide))
      obtain ⟨⟨_, data⟩, hdata, rfl⟩ := List.mem_map.mp (hrequired 0xAB (by decide))
      obtain ⟨hn, hd⟩ := hcount hread hnum hdata
      obtain ⟨vs, hvs, hlen⟩ :=
        (decodeDataSeq_accepts (Nat.lt_succ_self _)).mpr (hseq num data hnum hdata)
      cases hd.symm.trans hvs
      rw [hn, hlen]

/-- A frame decodes to some message exactly if it is one of the grammar. -/
theorem exists_decodes_iff {frame : Bytes} : (∃ pdu, Decodes frame pdu) ↔ IsGoose 4 frame := by
  constructor
  · rintro ⟨pdu, hd⟩
    cases hd with
    | @mk header reserved2 octets inner padding h a items s hheader htype hreserved hlength hlt
        hoctets htiles hread hvalid =>
      have hg : IsGoose 4 (header ++ (beBytes 2 a.appID.toNat ++
          (beBytes 2 (8 + (1 + (octets.length + inner.length))) ++
            ((beBytes 2 a.reserved1.toNat ++ reserved2) ++
              (0x61 :: (octets ++ inner) ++ padding))))) :=
        .mk hheader htype (length_beBytes 2 _)
          (by rw [List.length_append, length_beBytes, hreserved]) (by omega) hoctets htiles
          (isFields_iff.mp ⟨s, hread, hvalid⟩)
      rwa [← hlength, List.append_assoc] at hg
  · intro hg
    cases hg with
    | @mk header appID reserved octets inner padding h items hheader htype happID hreserved hlength
        hoctets htiles hfields =>
      let a : ApduHeader := ⟨UInt16.ofNat (beNat appID), 8 + (1 + (octets.length + inner.length)),
        UInt16.ofNat (beNat (reserved.take 2))⟩
      have hid : appID = beBytes 2 a.appID.toNat := (ofNat_beNat_eq_iff happID).mp rfl
      have hword : reserved.take 2 = beBytes 2 a.reserved1.toNat :=
        (ofNat_beNat_eq_iff (by rw [List.length_take, hreserved]; rfl)).mp rfl
      have hres : reserved = beBytes 2 a.reserved1.toNat ++ reserved.drop 2 := by
        rw [← hword, List.take_append_drop]
      obtain ⟨s, hread, hvalid⟩ := isFields_iff.mpr hfields
      refine ⟨s.pdu, ?_⟩
      rw [hid, hres, List.append_assoc]
      exact .mk (a := a) hheader htype (by rw [List.length_drop, hreserved]) rfl hlength hoctets
        htiles hread hvalid

theorem safe_decodeField {pdu : PDU} {tag : UInt8} {data : Bytes} :
    Safe (decodeField pdu tag data) := by
  have hnumber (set : UInt32 → PDU) :
      Safe (wrap (DecodeError.badField tag) (berUint32 data) >>= fun v ↦ .ok (set v)) := by
    refine Safe.bind (Safe.wrap ?_) fun _ _ ↦ safe_ok
    exact Safe.bind (safe_decodeBERUnsigned (by decide)) fun _ _ ↦ safe_ok
  have hbool (set : UInt8 → PDU) (e : DecodeError) :
      Safe (if data.length ≠ 1 then fail e else index data 0 >>= fun b ↦ .ok (set b)) :=
    Safe.guard fun hlen ↦ Safe.bind (safe_index (by omega)) fun _ _ ↦ safe_ok
  by_cases hknown : tag ∈ knownTags
  · simp only [knownTags, List.mem_cons, List.not_mem_nil, or_false] at hknown
    rcases hknown with rfl | rfl | rfl | rfl | rfl | rfl | rfl | rfl | rfl | rfl | rfl | rfl
    · exact safe_ok
    · exact hnumber _
    · exact safe_ok
    · exact safe_ok
    · refine Safe.guard fun _ ↦ Safe.bind (Safe.wrap ?_) fun _ _ ↦ safe_ok
      rw [readUtcTime_eq]
      exact safe_ok
    · exact hnumber _
    · exact hnumber _
    · exact hbool _ _
    · exact hnumber _
    · exact hbool _ _
    · exact hnumber _
    · refine Safe.bind (Safe.wrap ?_) fun _ _ ↦ safe_ok
      exact safe_decodeDataSeq (Nat.lt_succ_self _)
  · rw [decodeField_unknown hknown]
    exact safe_ok

theorem safe_decodeAPDU {frame : Bytes} {offset pduEnd : ℕ} {pdu : PDU}
    (hend : pduEnd ≤ frame.length) (hoffset : offset < pduEnd) :
    Safe (decodeAPDU frame offset pduEnd pdu) := by
  refine Safe.bind (safe_index (by omega)) fun tag _ ↦ Safe.guard fun _ ↦ ?_
  refine Safe.bind (safe_readLength frame (offset + 1)) fun p hp ↦ ?_
  refine Safe.guard fun _ ↦ Safe.guard fun _ ↦ Safe.guard fun _ ↦ ?_
  refine Safe.bind (safe_walk hend (by omega) le_rfl (fun s tag data _ ↦ ?_) _) fun s _ ↦ ?_
  · exact Safe.guard fun _ ↦ Safe.bind safe_decodeField fun _ _ ↦ safe_ok
  · refine Safe.bind ?_ fun _ _ ↦ safe_ok
    unfold validateGOOSEFields
    dsimp only
    split
    · exact safe_fail
    · exact Safe.guard fun _ ↦ safe_ok

/-- **The decoder accepts exactly its grammar**, and on every byte string it ends with a message or
an error of its own: it neither indexes outside the frame nor runs on. -/
theorem decode_accepts_iff (frame : Bytes) :
    ((∃ pdu, decode frame = .ok pdu) ↔ IsGoose 4 frame) ∧ Safe (decode frame) := by
  constructor
  · simp only [decode_eq_ok, exists_decodes_iff]
  · refine Safe.bind safe_readHeader fun h hh ↦ Safe.guard fun _ ↦ ?_
    refine Safe.bind safe_readApduHeader fun a ha ↦ Safe.guard fun h8 ↦ ?_
    refine Safe.guard fun hroom ↦ Safe.guard fun hpos ↦ ?_
    obtain ⟨-, reserved2, rest, hreserved, hdrop⟩ := readApduHeader_eq_ok.mp ha
    have hlen := congrArg List.length hdrop
    simp only [List.length_drop, List.length_append, length_beBytes, hreserved] at hlen
    exact safe_decodeAPDU (by omega) (by omega)

/-- The required fields of a message with an empty dataset. -/
def exampleFields : List (UInt8 × Bytes) :=
  [(0x80, []), (0x81, [0]), (0x82, []), (0x84, [0, 0, 0, 0, 0, 0, 0, 0]), (0x85, [0]), (0x86, [0]),
    (0x88, [0]), (0x8A, [0]), (0xAB, [])]

def exampleInner : Bytes := exampleFields.flatMap fun x ↦ tlv x.1 x.2

/-- A frame whose outermost length is written with five octets after the first. -/
def longLengthFrame : Bytes :=
  [1, 0x0C, 0xCD, 1, 0, 1] ++ ([2, 0, 0, 0, 0, 1] ++ ([0x88, 0xB8] ++ ([0, 1] ++ ([0, 46] ++
    ([0, 0, 0, 0] ++ (0x61 :: ([0x85, 0, 0, 0, 0, 31] ++ exampleInner) ++ []))))))

theorem isFields_exampleFields : IsFields 126 exampleFields where
  fields := by
    have hempty : IsDataSeq 126 0 [] := ⟨[], .nil, rfl, nofun⟩
    have hzero {tag : UInt8} (h : tag ∈ numberTags) : IsField 126 tag [0] :=
      (isField_number h).mpr (by decide)
    simp only [exampleFields, List.forall_mem_cons]
    exact ⟨isField_any (.inr (by decide)), hzero (by decide), isField_any (.inr (by decide)),
      isField_time.mpr rfl, hzero (by decide), hzero (by decide), hzero (by decide),
      hzero (by decide), isField_allData.mpr ⟨0, hempty⟩, nofun⟩
  once := by decide
  required :=
    List.forall_iff_forall_mem.mp (by decide)
  count := by
    intro num data hnum hdata
    have hnum' : ∀ x ∈ exampleFields, x.1 = 0x8A → x.2 = [0] := by decide
    have hdata' : ∀ x ∈ exampleFields, x.1 = 0xAB → x.2 = [] := by decide
    obtain rfl : num = [0] := hnum' _ hnum rfl
    obtain rfl : data = [] := hdata' _ hdata rfl
    exact ⟨[], .nil, rfl, nofun⟩

/-- **A length of five octets is definite, but the decoder does not take it.** -/
theorem long_length_rejected :
    IsGoose 126 longLengthFrame ∧ ¬ ∃ pdu, decode longLengthFrame = .ok pdu := by
  constructor
  · have hlen : LengthOf 126 exampleInner.length [0x85, 0, 0, 0, 0, 31] :=
      .long 0x85 [0, 0, 0, 0, 31] (by decide) (by decide) rfl
    have htiles : Tiles 126 exampleFields exampleInner :=
      tiles_flatMap_tlv (by decide) (by decide)
    have hheader : IsHeader ([1, 0x0C, 0xCD, 1, 0, 1] ++ ([2, 0, 0, 0, 0, 1] ++
        beBytes 2 etherType.toNat)) ⟨_, _, none, etherType, 14⟩ := .untagged rfl rfl (by decide)
    exact @IsGoose.mk 126 _ [0, 1] [0, 0, 0, 0] _ _ [] _ _ hheader rfl rfl rfl (by decide) hlen
      htiles isFields_exampleFields
  · have h : decode longLengthFrame = .error (.err (.pduLength .badLongForm)) := rfl
    rintro ⟨pdu, hpdu⟩
    rw [h] at hpdu
    cases hpdu

end ProcessBus.Goose
