import ProcessBus.Goose.Encoder
import ProcessBus.Lib.TlvTree

/-!
# The lengths in a GOOSE frame

A frame has two kinds of lengths: the 16-bit length of the APDU, and the length octets of every TLV
inside it.  `LengthsHold` says that all of them are right.

`PDU.wireSize` is the size of the APDU, computed from the lengths of the strings, the bits of the
numbers and the shape of the dataset.  The encoder does not look at it: where it exceeds what the
16-bit field can say, the field holds the size modulo `2 ^ 16` (`encode_lengths`).
-/

namespace ProcessBus.Goose

open Go Ethernet Lib Lib.Ber

/-! ## A message as a tree -/

mutual

/-- The TLVs of a value. -/
def DataValue.tree : DataValue → Tree
  | ⟨type, bool, int, uint, float, bytes, bitLength, string, time, timeQuality, children⟩ =>
      let tag := type.number ||| 0x80
      match type with
      | .array | .struct => .node (tag ||| 0x20) (trees children)
      | .boolean => .leaf tag (berEncodeBool bool)
      | .bitString | .booleanArray => .leaf tag (encodeBitString bytes bitLength)
      | .octetString | .binaryTime => .leaf tag bytes
      | .integer | .bcd => .leaf tag (berEncodeInt int)
      | .unsigned => .leaf tag (berEncodeUint64 uint)
      | .floatingPoint | .real => .leaf tag (encodeFloat float)
      | .visibleString => .leaf tag string
      | .utcTime => .leaf tag (encodeUtcTime time timeQuality)
      | .unknown => .leaf tag bytes

def trees : List DataValue → List Tree
  | [] => []
  | dv :: values => dv.tree :: trees values

end

/-- The TLVs of a message. -/
def PDU.tree (pdu : PDU) : Tree :=
  .node 0x61
    [.leaf 0x80 pdu.gocbRef,
      .leaf 0x81 (berEncodeUint pdu.timeAllowedToLiveMs),
      .leaf 0x82 pdu.datSet,
      .leaf 0x83 pdu.goID,
      .leaf 0x84 (encodeUtcTime pdu.timestamp pdu.timeQuality),
      .leaf 0x85 (berEncodeUint pdu.stNum),
      .leaf 0x86 (berEncodeUint pdu.sqNum),
      .leaf 0x87 (berEncodeBool pdu.test),
      .leaf 0x88 (berEncodeUint pdu.confRev),
      .leaf 0x89 (berEncodeBool pdu.ndsCom),
      .leaf 0x8A (berEncodeUint pdu.numDatSetEntries),
      .node 0xAB (trees pdu.allData)]

mutual

/-- The encoder writes the tree. -/
theorem encodeDataValue_eq_write : (dv : DataValue) → encodeDataValue dv = dv.tree.write
  | ⟨type, bool, int, uint, float, bytes, bitLength, string, time, timeQuality, children⟩ => by
      cases type with
      | array =>
          show berTLV _ (encodeDataSeq children) = tlv _ (writeAll (trees children))
          rw [encodeDataSeq_eq_write children]
          rfl
      | struct =>
          show berTLV _ (encodeDataSeq children) = tlv _ (writeAll (trees children))
          rw [encodeDataSeq_eq_write children]
          rfl
      | _ => rfl

theorem encodeDataSeq_eq_write : (values : List DataValue) →
    encodeDataSeq values = writeAll (trees values)
  | [] => rfl
  | dv :: values => by
      rw [encodeDataSeq, trees, writeAll, encodeDataValue_eq_write dv, encodeDataSeq_eq_write values]

end

theorem berWrap_eq (pdu : PDU) : berWrap 0x61 (encodeGoosePDUFields pdu) = pdu.tree.write := by
  have hfields : encodeGoosePDUFields pdu = writeAll
      [.leaf 0x80 pdu.gocbRef, .leaf 0x81 (berEncodeUint pdu.timeAllowedToLiveMs),
        .leaf 0x82 pdu.datSet, .leaf 0x83 pdu.goID,
        .leaf 0x84 (encodeUtcTime pdu.timestamp pdu.timeQuality),
        .leaf 0x85 (berEncodeUint pdu.stNum), .leaf 0x86 (berEncodeUint pdu.sqNum),
        .leaf 0x87 (berEncodeBool pdu.test), .leaf 0x88 (berEncodeUint pdu.confRev),
        .leaf 0x89 (berEncodeBool pdu.ndsCom), .leaf 0x8A (berEncodeUint pdu.numDatSetEntries),
        .node 0xAB (trees pdu.allData)] := by
    unfold encodeGoosePDUFields pduFields
    simp only [List.flatMap_cons, List.flatMap_nil, writeAll, Tree.write, berTLV, encodeDataSeq_eq_write]
  rw [berWrap, hfields, PDU.tree, Tree.write]
  rfl

/-! ## Sizes -/

mutual

/-- The number of content octets of a value. -/
def DataValue.contentSize : DataValue → ℕ
  | ⟨type, _, int, uint, _, bytes, bitLength, string, _, _, children⟩ =>
      match type with
      | .array | .struct => wireSizes children
      | .boolean => 1
      | .bitString | .booleanArray => 1 + (significantBits bytes bitLength + 7) / 8
      | .octetString | .binaryTime | .unknown => bytes.length
      | .integer | .bcd => octetsOf (magnitude int.toInt)
      | .unsigned => octetsOf uint.toNat
      | .floatingPoint | .real => 5
      | .visibleString => string.length
      | .utcTime => 8

/-- The size of a dataset. -/
def wireSizes : List DataValue → ℕ
  | [] => 0
  | dv :: values => tlvSize dv.contentSize + wireSizes values

end

/-- The size of the APDU with its header of eight bytes. -/
def PDU.wireSize (pdu : PDU) : ℕ :=
  8 + tlvSize (tlvSize pdu.gocbRef.length + tlvSize (octetsOf pdu.timeAllowedToLiveMs.toNat) +
    tlvSize pdu.datSet.length + tlvSize pdu.goID.length + tlvSize 8 +
    tlvSize (octetsOf pdu.stNum.toNat) + tlvSize (octetsOf pdu.sqNum.toNat) + tlvSize 1 +
    tlvSize (octetsOf pdu.confRev.toNat) + tlvSize 1 +
    tlvSize (octetsOf pdu.numDatSetEntries.toNat) + tlvSize (wireSizes pdu.allData))

theorem length_berEncodeUint64 (v : UInt64) : (berEncodeUint64 v).length = octetsOf v.toNat := by
  obtain ⟨hmin, hval⟩ := berEncodeUint64_spec v
  rw [hmin.length_eq, hval]

theorem length_berEncodeUint (v : UInt32) : (berEncodeUint v).length = octetsOf v.toNat := by
  rw [berEncodeUint, length_berEncodeUint64, UInt32.toNat_toUInt64]

theorem toNat_of_nonneg {v : Int64} (h : 0 ≤ v.toInt) :
    v.toUInt64.toNat < 2 ^ 63 ∧ (v.toUInt64.toNat : ℤ) = v.toInt := by
  have hlt := v.toUInt64.toNat_lt
  have heq := toInt_eq v
  split at heq <;> omega

/-- A positive number is written as an unsigned one. -/
theorem berEncodeInt_of_pos {v : Int64} (h : 0 < v) :
    berEncodeInt v = berEncodeUint64 v.toUInt64 := by
  have hpos : 0 < v.toInt := Int64.lt_iff_toInt_lt.mp h
  obtain ⟨hsmall, hnat⟩ := toNat_of_nonneg hpos.le
  have hne : v ≠ 0 := by
    rintro rfl
    exact absurd h (by decide)
  have hne' : v.toUInt64 ≠ 0 := by
    intro hzero
    rw [hzero] at hnat
    exact absurd hnat (ne_of_lt hpos)
  obtain ⟨a, rest, hdrop, -, -⟩ := magnitude_cases (n := 7) (x := v.toUInt64.toNat) (by omega)
    v.toUInt64.toNat_lt
  have hhead : byteAt (a :: rest) 0 = a := rfl
  rw [berEncodeInt, berEncodeUint64, if_neg hne, if_neg hne', if_pos h]
  dsimp only
  rw [byteAt_of_drop hdrop, hdrop, hhead]
  split
  · rename_i hbit
    exact drop_keep_sign rfl hdrop (and_0x80_ne_zero.mp hbit) hsmall
  · exact hdrop

/-- A negative number is written without superfluous sign octets. -/
theorem length_berEncodeInt_of_neg {v : Int64} (h : v.toInt < 0) :
    (berEncodeInt v).length = octetsOf (magnitude v.toInt) := by
  have hspec := (berEncodeInt_spec v).2
  have hne : v ≠ 0 := by
    rintro rfl
    exact absurd h (by decide)
  have hnpos : ¬ 0 < v := by
    rw [Int64.lt_iff_toInt_lt, not_lt]
    exact h.le
  rw [berEncodeInt, if_neg hne] at hspec ⊢
  dsimp only at hspec ⊢
  rw [if_neg hnpos] at hspec ⊢
  obtain ⟨a, rest, hdrop, hstop⟩ := skip_stop (p := fun a b ↦ a == 0xFF && b &&& 0x80 != 0)
    (beBytes_succ_ne_nil 7 v.toUInt64.toNat)
  rw [hdrop] at hspec ⊢
  have hsign : 0x80 ≤ a.toNat := by
    by_contra hlt
    rw [beInt_of_lt (not_le.mp hlt)] at hspec
    omega
  rw [length_eq_of_negative hsign, hspec]
  rintro b r hrest ⟨rfl, hb⟩
  have hp := hstop b r hrest
  rw [Bool.and_eq_false_iff] at hp
  rcases hp with hp | hp
  · exact absurd hp (by decide)
  · exact and_0x80_ne_zero.mpr hb (by simpa using hp)

theorem length_berEncodeInt (v : Int64) :
    (berEncodeInt v).length = octetsOf (magnitude v.toInt) := by
  rcases lt_trichotomy v.toInt 0 with hneg | hzero | hpos
  · exact length_berEncodeInt_of_neg hneg
  · obtain rfl : v = 0 := Int64.toInt_inj.mp hzero
    decide
  · obtain ⟨-, hnat⟩ := toNat_of_nonneg hpos.le
    rw [berEncodeInt_of_pos (Int64.lt_iff_toInt_lt.mpr hpos), length_berEncodeUint64, magnitude,
      if_neg hpos.le.not_gt, ← hnat, Int.toNat_natCast]

theorem length_encodeBitString (bytes : Bytes) (bitLength : ℤ) :
    (encodeBitString bytes bitLength).length = 1 + (significantBits bytes bitLength + 7) / 8 := by
  rw [encodeBitString_eq, List.length_cons, length_cutBits (significantBits_le bytes bitLength)]
  omega

mutual

theorem size_tree : (dv : DataValue) → dv.tree.size = tlvSize dv.contentSize
  | ⟨type, bool, int, uint, float, bytes, bitLength, string, time, timeQuality, children⟩ => by
      cases type with
      | array => exact congrArg tlvSize (sizeAll_trees children)
      | struct => exact congrArg tlvSize (sizeAll_trees children)
      | boolean => cases bool <;> rfl
      | bitString => exact congrArg tlvSize (length_encodeBitString bytes bitLength)
      | booleanArray => exact congrArg tlvSize (length_encodeBitString bytes bitLength)
      | integer => exact congrArg tlvSize (length_berEncodeInt int)
      | bcd => exact congrArg tlvSize (length_berEncodeInt int)
      | unsigned => exact congrArg tlvSize (length_berEncodeUint64 uint)
      | _ => rfl

theorem sizeAll_trees : (values : List DataValue) → sizeAll (trees values) = wireSizes values
  | [] => rfl
  | dv :: values => by
      rw [trees, sizeAll, wireSizes, size_tree dv, sizeAll_trees values]

end

/-- **The size of the APDU**, from the parts of the message. -/
theorem wireSize_eq (pdu : PDU) : pdu.wireSize = 8 + pdu.tree.size := by
  have hbool (b : Bool) : (berEncodeBool b).length = 1 := by cases b <;> rfl
  have htime : (encodeUtcTime pdu.timestamp pdu.timeQuality).length = 8 := rfl
  simp only [PDU.wireSize, PDU.tree, Tree.size, sizeAll, sizeAll_trees, length_berEncodeUint, hbool,
    htime, Nat.add_zero, Nat.add_assoc]

/-! ## Frames -/

/-- Where the APDU begins. -/
def headerLength (vlan : Option VLANTag) : ℕ := if vlan.isSome then 18 else 14

/-- Every length in the frame of a message is right. -/
structure LengthsHold (pdu : PDU) (frame : Bytes) : Prop where
  /-- The length field of the APDU. -/
  apdu : (uint16At frame (headerLength pdu.vlan + 2)).toNat = frame.length - headerLength pdu.vlan
  /-- The lengths of the TLVs. -/
  nested : Spells 3 pdu.tree (frame.drop (headerLength pdu.vlan + 8))

theorem length_writeEthernetHeader (dst src : Bytes) (vlan : Option VLANTag) (etherType : UInt16) :
    (writeEthernetHeader dst src vlan etherType).length = headerLength vlan := by
  have hcopied (b : Bytes) : (copied 6 b).length = 6 := by
    rw [copied, List.length_take, List.length_append, List.length_replicate]
    omega
  unfold writeEthernetHeader
  cases vlan with
  | none => simp [hcopied, headerLength]
  | some v => simp [hcopied, headerLength]

/-- What stands in the frame behind the Ethernet header. -/
theorem drop_encode (pdu : PDU) :
    (encode pdu).drop (headerLength pdu.vlan) =
      beBytes 2 pdu.appID.toNat ++ (beBytes 2 (8 + pdu.tree.size) ++
        (beBytes 2 (if pdu.simulation then 0x8000 else 0) ++ (beBytes 2 0 ++ pdu.tree.write))) := by
  rw [encode, berWrap_eq, length_write, List.drop_left' (length_writeEthernetHeader _ _ _ _),
    apduHeader]
  simp only [List.append_assoc]

/-- The length field holds the size modulo `2 ^ 16`. -/
theorem uint16At_encode (pdu : PDU) :
    (uint16At (encode pdu) (headerLength pdu.vlan + 2)).toNat = (8 + pdu.tree.size) % 2 ^ 16 := by
  have hdrop := drop_of_drop (drop_encode pdu) (j := headerLength pdu.vlan + 2) rfl
  have hslice : slice (encode pdu) (headerLength pdu.vlan + 2) (headerLength pdu.vlan + 2 + 2) =
      beBytes 2 (8 + pdu.tree.size) := slice_of_drop hdrop (by rw [length_beBytes])
  rw [uint16At, hslice, beNat_beBytes, UInt16.toNat_ofNat']
  exact Nat.mod_mod _ _

theorem length_encode (pdu : PDU) :
    (encode pdu).length = headerLength pdu.vlan + (8 + pdu.tree.size) := by
  rw [encode, berWrap_eq, List.length_append, List.length_append, length_writeEthernetHeader,
    length_write]
  simp only [apduHeader, List.length_append, length_beBytes]

/-- **The lengths of a frame are right iff the APDU fits its length field.** -/
theorem encode_lengths (pdu : PDU) : LengthsHold pdu (encode pdu) ↔ pdu.wireSize ≤ 65535 := by
  rw [wireSize_eq]
  constructor
  · rintro ⟨hapdu, -⟩
    rw [uint16At_encode, length_encode, Nat.add_sub_cancel_left] at hapdu
    omega
  · intro hfits
    constructor
    · rw [uint16At_encode, length_encode, Nat.add_sub_cancel_left]
      omega
    · rw [drop_apduHeader (length_beBytes 2 0) (drop_encode pdu)]
      exact spells_write le_rfl pdu.tree (by omega)

/-- A message with one string of this length. -/
def exampleString (n : ℕ) : PDU where
  dstMAC := [1, 0x0C, 0xCD, 1, 0, 1]
  srcMAC := [2, 0, 0, 0, 0, 1]
  vlan := none
  appID := 1
  simulation := false
  gocbRef := [0x67]
  timeAllowedToLiveMs := 1000
  datSet := [0x64]
  goID := []
  timestamp := .ofUnix 1 0
  timeQuality := {}
  stNum := 1
  sqNum := 0
  test := false
  confRev := 1
  ndsCom := false
  numDatSetEntries := 1
  allData := [{ type := .visibleString, string := .replicate n 0x41 }]

theorem wireSize_exampleString (n : ℕ) :
    (exampleString n).wireSize = 8 + tlvSize (40 + tlvSize (tlvSize n)) := by
  have h1000 : octetsOf 1000 = 2 := octetsOf_eq (n := 1) (by decide) (by decide)
  have h1 : octetsOf 1 = 1 := octetsOf_eq (n := 0) (by decide) (by decide)
  have h0 : octetsOf 0 = 1 := octetsOf_eq (n := 0) (by decide) (by decide)
  have hdata : wireSizes (exampleString n).allData = tlvSize n := by
    show tlvSize (List.replicate n 0x41).length + 0 = _
    rw [List.length_replicate, Nat.add_zero]
  rw [PDU.wireSize, hdata]
  show 8 + tlvSize (tlvSize 1 + tlvSize (octetsOf 1000) + tlvSize 1 + tlvSize 0 + tlvSize 8 +
    tlvSize (octetsOf 1) + tlvSize (octetsOf 0) + tlvSize 1 + tlvSize (octetsOf 1) + tlvSize 1 +
    tlvSize (octetsOf 1) + tlvSize (tlvSize n)) = _
  rw [h1000, h1, h0]
  rfl

/-- **A string of 65536 bytes** makes an APDU of 65599 bytes whose length field says 63. -/
theorem encode_length_wraps :
    (encode (exampleString 65536)).length = 14 + 65599 ∧
      (uint16At (encode (exampleString 65536)) 16).toNat = 63 ∧
      ¬ LengthsHold (exampleString 65536) (encode (exampleString 65536)) := by
  have htree : 8 + (exampleString 65536).tree.size = 65599 := by
    rw [← wireSize_eq, wireSize_exampleString]
    decide
  refine ⟨?_, ?_, fun h ↦ ?_⟩
  · rw [length_encode, htree]
    rfl
  · have hfield := uint16At_encode (exampleString 65536)
    rw [htree] at hfield
    exact hfield
  · have hapdu := h.apdu
    rw [uint16At_encode, length_encode, htree, Nat.add_sub_cancel_left] at hapdu
    exact absurd hapdu (by decide)

end ProcessBus.Goose
