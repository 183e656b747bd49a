import ProcessBus.Goose.Grammar

/-!
# GOOSE messages over the wire

Decoding an encoded message gives the message back, up to its normal form: a bit string is cut to
its significant bits and its padding cleared, a time is rounded down to what 24 bits of fraction can
say, and of each value only the field is kept that its type selects (`decode_encode`).

The values are a tree, so the proof is an induction over it; its leaves are the round trips of the
content octets.
-/

namespace ProcessBus.Goose

open Go Ethernet Lib Lib.Checked Lib.Ber

/-! ## Normal forms -/

/-- A time, rounded down to the 24 bits of fraction of a `UtcTime`. -/
def truncTime (t : Time) : Time := .ofUnix t.unix (utcFraction t * 1000000000 / 2 ^ 24 : ℕ)

/-- The time is not later than before, and by less than 61 nanoseconds earlier. -/
theorem truncTime_spec (t : Time) : truncTime t ≤ t ∧ t.ns < (truncTime t).ns + 61 := by
  have hn := t.nanosecond_nonneg
  have hns : t.ns = unixEpoch + t.unix * 1000000000 + t.nanosecond := by
    unfold Time.unix Time.nanosecond
    omega
  rw [Time.le_def]
  unfold truncTime Time.ofUnix utcFraction
  dsimp only
  omega

mutual

/-- The value that the type selects, and nothing else. -/
def DataValue.normal : DataValue → DataValue
  | ⟨type, bool, int, uint, float, bytes, bitLength, string, time, timeQuality, children⟩ =>
      match type with
      | .array | .struct => { type, children := normalAll children }
      | .boolean => { type, bool }
      | .bitString | .booleanArray =>
          { type
            bytes := cutBits (significantBits bytes bitLength) bytes
            bitLength := significantBits bytes bitLength }
      | .integer | .bcd => { type, int }
      | .unsigned => { type, uint }
      | .floatingPoint | .real => { type, float }
      | .visibleString => { type, string }
      | .utcTime => { type, time := truncTime time, timeQuality }
      | .octetString | .binaryTime | .unknown => { type, bytes }

def normalAll : List DataValue → List DataValue
  | [] => []
  | dv :: values => dv.normal :: normalAll values

end

def PDU.normal (pdu : PDU) : PDU :=
  { pdu with timestamp := truncTime pdu.timestamp, allData := normalAll pdu.allData }

/-! ## What fits the format -/

/-- An accuracy within its five bits. -/
def TimeQuality.Fits (q : TimeQuality) : Prop := q.accuracy.toNat ≤ 31

instance (q : TimeQuality) : Decidable q.Fits := inferInstanceAs (Decidable (_ ≤ _))

instance (t : Time) : Decidable (InUtcRange t) := inferInstanceAs (Decidable (_ ∧ _))

mutual

/-- Times have 32 bits of seconds, and floating-point numbers are binary32 ones. -/
def DataValue.Fits : DataValue → Prop
  | ⟨type, _, _, _, float, _, _, _, time, timeQuality, children⟩ =>
      match type with
      | .array | .struct => AllFit children
      | .floatingPoint | .real => ∃ b, float = Binary.widen b
      | .utcTime => InUtcRange time ∧ timeQuality.Fits
      | _ => True

def AllFit : List DataValue → Prop
  | [] => True
  | dv :: values => dv.Fits ∧ AllFit values

end

/-- A message that the format can carry. -/
structure PDU.Fits (pdu : PDU) : Prop where
  dstMAC : pdu.dstMAC.length = 6
  srcMAC : pdu.srcMAC.length = 6
  vlan : ∀ v ∈ pdu.vlan, VLANFits v
  timestamp : InUtcRange pdu.timestamp
  timeQuality : pdu.timeQuality.Fits
  entries : pdu.numDatSetEntries.toNat = pdu.allData.length
  allData : AllFit pdu.allData
  apdu : 8 + (berWrap 0x61 (encodeGoosePDUFields pdu)).length ≤ 65535

/-! ## Content octets -/

theorem berUint64_berEncodeUint64 (v : UInt64) : berUint64 (berEncodeUint64 v) = .ok v := by
  obtain ⟨hmin, hval⟩ := berEncodeUint64_spec v
  refine (decodeBERUnsigned_eq_ok (by decide)).mpr ⟨hmin, ?_, ?_⟩
  · rw [hval]
    exact v.toNat_lt
  · rw [hval, UInt64.ofNat_toNat]

theorem berUint32_berEncodeUint (v : UInt32) : berUint32 (berEncodeUint v) = .ok v := by
  obtain ⟨hmin, hval⟩ := berEncodeUint64_spec v.toUInt64
  rw [UInt32.toNat_toUInt64] at hval
  refine berUint32_eq_ok.mpr ⟨hmin, ?_, ?_⟩
  · rw [berEncodeUint, hval]
    exact v.toNat_lt
  · rw [berEncodeUint, hval, UInt32.ofNat_toNat]

theorem berInt_berEncodeInt (v : Int64) : berInt (berEncodeInt v) = .ok v := by
  rw [berInt_eq, (berEncodeInt_spec v).2, Int64.ofInt_toInt]

theorem decodeFloat_encodeFloat (b : UInt32) :
    decodeFloat (encodeFloat (Binary.widen b)) = .ok (Binary.widen b) := by
  have hlen : (encodeFloat (Binary.widen b)).length = 5 := rfl
  have hbits : (sub (encodeFloat (Binary.widen b)) 1 5 : Checked BerError Bytes) =
      .ok (beBytes 4 (Binary.narrow (Binary.widen b)).toNat) := rfl
  have hfirst : (index (encodeFloat (Binary.widen b)) 0 : Checked BerError UInt8) = .ok 8 := rfl
  have hval : beNat (beBytes 4 (Binary.narrow (Binary.widen b)).toNat) =
      (Binary.narrow (Binary.widen b)).toNat := by
    rw [beNat_beBytes]
    exact Nat.mod_eq_of_lt (UInt32.toNat_lt _)
  unfold decodeFloat
  rw [if_neg (by rw [hlen]; decide), hfirst, ok_bind, if_pos ⟨rfl, by rw [hlen]⟩, hbits, ok_bind,
    hval, UInt32.ofNat_toNat, Binary.widen_narrow_widen]

/-- Clearing the padding leaves none of it. -/
theorem padding_cleared {u : ℕ} (hu : u < 8) (b : UInt8) :
    (b &&& 0xFF <<< UInt8.ofNat u).toNat % 2 ^ u = 0 := by
  have hu' : (UInt8.ofNat u).toNat = u := by
    rw [UInt8.toNat_ofNat']
    omega
  have hmask : ∀ k : Fin 8, (0xFF <<< UInt8.ofNat k : UInt8) &&& (1 <<< UInt8.ofNat k - 1) = 0 := by
    decide
  have h : b &&& 0xFF <<< UInt8.ofNat u &&& (1 <<< UInt8.ofNat u - 1) = 0 := by
    rw [UInt8.and_assoc, hmask ⟨u, hu⟩, UInt8.and_zero]
  rw [and_mask_eq_zero (by omega), hu'] at h
  exact h

theorem decodeBitString_encodeBitString (bytes : Bytes) (bitLength : ℤ) :
    decodeBitString (encodeBitString bytes bitLength) =
      .ok (cutBits (significantBits bytes bitLength) bytes,
        (significantBits bytes bitLength : ℤ)) := by
  have hlen := length_cutBits (significantBits_le bytes bitLength)
  rw [encodeBitString_eq]
  generalize significantBits bytes bitLength = n at hlen
  have hu : (UInt8.ofNat ((8 - n % 8) % 8)).toNat = (8 - n % 8) % 8 := by
    rw [UInt8.toNat_ofNat']
    omega
  refine decodeBitString_eq_ok.mpr ⟨⟨by omega, ?_, ?_⟩, _, rfl, by omega⟩
  · intro hempty
    rw [hempty, List.length_nil] at hlen
    rw [show (8 - n % 8) % 8 = 0 by omega]
    rfl
  · intro last hlast
    rw [hu]
    unfold cutBits at hlast
    split at hlast
    · rename_i h
      rw [h]
      exact Nat.mod_one _
    · rw [List.getLast?_append, List.getLast?_singleton] at hlast
      cases hlast
      rw [show (8 - n % 8) % 8 = 8 - n % 8 by omega]
      exact padding_cleared (by omega) _

theorem wireTime_eq_truncTime {t : Time} (ht : InUtcRange t) : wireTime t = truncTime t := by
  rw [wireTime, truncTime, Int.emod_eq_of_lt ht.1 ht.2]

/-- The flags and the accuracy stand in bits of their own. -/
theorem timeQuality_bits : ∀ (l f n : Bool) (a : Fin 32),
    let b := encodeTimeQuality ⟨l, f, n, UInt8.ofNat a⟩
    (b &&& 0x80 != 0) = l ∧ (b &&& 0x40 != 0) = f ∧ (b &&& 0x20 != 0) = n ∧
      b &&& 0x1F = UInt8.ofNat a := by
  decide

/-- The quality survives the trip. -/
theorem decodeUtcTime_quality {q : TimeQuality} (hq : q.Fits) (t : Time) :
    (decodeUtcTime (encodeUtcTime t q)).2 = q := by
  have hlast : byteAt (encodeUtcTime t q) 7 = encodeTimeQuality q := rfl
  have hlen : ¬ (encodeUtcTime t q).length < 8 := by simp [encodeUtcTime]
  obtain ⟨l, f, n, a⟩ := q
  have hbits := timeQuality_bits l f n ⟨a.toNat, Nat.lt_succ_of_le hq⟩
  rw [UInt8.ofNat_toNat] at hbits
  obtain ⟨h₁, h₂, h₃, h₄⟩ := hbits
  simp only [decodeUtcTime, if_neg hlen, hlast, h₁, h₂, h₃, h₄]

theorem readUtcTime_encodeUtcTime {ε : Type} {t : Time} {q : TimeQuality} (ht : InUtcRange t)
    (hq : q.Fits) :
    (readUtcTime (encodeUtcTime t q) : Checked ε (Time × TimeQuality)) = .ok (truncTime t, q) := by
  rw [readUtcTime_eq, ← wireTime_eq_truncTime ht, ← decodeUtcTime_encodeUtcTime t q]
  exact congrArg _ (Prod.ext rfl (decodeUtcTime_quality hq t))

/-! ## Values -/

/-- The tag that a value of this type gets. -/
def dataTag : DataType → UInt8
  | .array => 0xA1
  | .struct => 0xA2
  | type => type.number ||| 0x80

/-- The content octets of a value. -/
def dataContent (dv : DataValue) : Bytes :=
  match dv.type with
  | .array | .struct => encodeDataSeq dv.children
  | .boolean => berEncodeBool dv.bool
  | .bitString | .booleanArray => encodeBitString dv.bytes dv.bitLength
  | .integer | .bcd => berEncodeInt dv.int
  | .unsigned => berEncodeUint64 dv.uint
  | .floatingPoint | .real => encodeFloat dv.float
  | .visibleString => dv.string
  | .utcTime => encodeUtcTime dv.time dv.timeQuality
  | .octetString | .binaryTime | .unknown => dv.bytes

theorem encodeDataValue_eq (dv : DataValue) :
    encodeDataValue dv = tlv (dataTag dv.type) (dataContent dv) := by
  obtain ⟨type, bool, int, uint, float, bytes, bitLength, string, time, timeQuality, children⟩ := dv
  cases type <;> rfl

/-- A sequence of values is written as the TLVs of its values. -/
theorem encodeDataSeq_eq (values : List DataValue) :
    encodeDataSeq values =
      (values.map fun dv ↦ (dataTag dv.type, dataContent dv)).flatMap fun x ↦ tlv x.1 x.2 := by
  induction values with
  | nil => rfl
  | cons dv values ih =>
      rw [encodeDataSeq, encodeDataValue_eq, ih]
      rfl

theorem typeOf_dataTag (type : DataType) : typeOf (dataTag type) = type := by
  cases type <;> decide

theorem normalAll_eq_map (values : List DataValue) : normalAll values = values.map .normal := by
  induction values with
  | nil => rfl
  | cons dv values ih => rw [normalAll, ih, List.map_cons]

theorem allFit_iff {values : List DataValue} : AllFit values ↔ ∀ dv ∈ values, dv.Fits := by
  induction values with
  | nil => exact iff_of_true trivial nofun
  | cons dv values ih => rw [AllFit, ih, List.forall_mem_cons]

/-- One value comes back in its normal form, if its children do. -/
theorem decodeDataValue_dataContent {seq : Bytes → Checked BerError (List DataValue)}
    {dv : DataValue} (hfits : dv.Fits)
    (hseq : dv.type ∈ [.array, .struct] →
      AllFit dv.children → seq (encodeDataSeq dv.children) = .ok (normalAll dv.children)) :
    decodeDataValue seq (dataTag dv.type) (dataContent dv) = .ok dv.normal := by
  have htype : DataType.ofNumber (dataTag dv.type &&& 0x1F) = dv.type := typeOf_dataTag dv.type
  have hconstructed : ∀ type ∈ [DataType.array, .struct], dataTag type &&& 0x20 ≠ 0 := by decide
  obtain ⟨type, bool, int, uint, float, bytes, bitLength, string, time, timeQuality, children⟩ := dv
  unfold decodeDataValue
  rw [htype]
  cases type
  case array | struct =>
    have hchildren := hseq (by simp) hfits
    show (if dataTag _ &&& 0x20 = 0 then _ else seq (encodeDataSeq children) >>= _) = _
    rw [if_neg (hconstructed _ (by simp)), hchildren]
    rfl
  case boolean => cases bool <;> rfl
  case bitString | booleanArray =>
    show decodeBitString (encodeBitString bytes bitLength) >>= _ = _
    rw [decodeBitString_encodeBitString]
    rfl
  case integer | bcd =>
    show (if 8 < (berEncodeInt int).length then _ else berInt (berEncodeInt int) >>= _) = _
    rw [if_neg (not_lt.mpr (berEncodeInt_spec int).1), berInt_berEncodeInt]
    rfl
  case unsigned =>
    show berUint64 (berEncodeUint64 uint) >>= _ = _
    rw [berUint64_berEncodeUint64]
    rfl
  case floatingPoint | real =>
    obtain ⟨b, rfl⟩ : ∃ b, float = Binary.widen b := hfits
    show decodeFloat (encodeFloat (Binary.widen b)) >>= _ = _
    rw [decodeFloat_encodeFloat]
    rfl
  case utcTime =>
    show readUtcTime (encodeUtcTime time timeQuality) >>= _ = _
    rw [readUtcTime_encodeUtcTime hfits.1 hfits.2]
    rfl
  all_goals rfl

/-- **A tree of values comes back in its normal form**, however deep it is. -/
theorem decodeDataSeq_encodeDataSeq {depth : ℕ} {values : List DataValue} (hfits : AllFit values)
    (hdepth : (encodeDataSeq values).length < depth) (hlen : (encodeDataSeq values).length < 2 ^ 24) :
    decodeDataSeq depth (encodeDataSeq values) = .ok (normalAll values) := by
  induction depth generalizing values with
  | zero => exact absurd hdepth (Nat.not_lt_zero _)
  | succ depth ih =>
      have hshort : ∀ dv ∈ values, (dataContent dv).length + 2 ≤ (encodeDataSeq values).length := by
        intro dv hdv
        rw [encodeDataSeq_eq]
        exact length_le_flatMap_tlv (x := (_, dataContent dv)) (List.mem_map.mpr ⟨dv, hdv, rfl⟩)
      have hslice : slice (encodeDataSeq values) 0 (encodeDataSeq values).length =
          encodeDataSeq values := by
        rw [slice, List.take_length, List.drop_zero]
      refine (walk_eq_ok le_rfl (Nat.lt_succ_of_le (Nat.sub_le _ 0))).mpr
        ⟨values.map fun dv ↦ (dataTag dv.type, dataContent dv), ?_, foldlM_collect.mpr ⟨_, rfl, ?_⟩⟩
      · rw [encodeDataSeq_eq] at hlen
        rw [hslice, encodeDataSeq_eq]
        exact tiles_flatMap_tlv (by decide) hlen
      · rw [normalAll_eq_map, List.forall₂_map_left_iff, List.forall₂_map_right_iff,
          List.forall₂_same]
        intro dv hdv
        refine decodeDataValue_dataContent (allFit_iff.mp hfits dv hdv) fun htype hchildren ↦ ?_
        have hcontent : dataContent dv = encodeDataSeq dv.children := by
          rcases List.mem_pair.mp htype with htype | htype <;> rw [dataContent, htype]
        have := hshort dv hdv
        rw [hcontent] at this
        exact ih hchildren (by omega) (by omega)

/-! ## Messages -/

instance (m : UInt16) (tag : UInt8) : Decidable (Seen m tag) := inferInstanceAs (Decidable (_ ≠ _))

section Fields

variable {p pdu : PDU} {m : UInt16}

/-- One field, and the mask after it. -/
theorem readFields_cons {tag : UInt8} {data : Bytes} {items : List (UInt8 × Bytes)} {s : Fields}
    (m' : UInt16) (hseen : ¬ Seen m tag) (hm' : m ||| gooseField tag = m')
    (hfield : decodeField p tag data = .ok pdu) (h : readFields items ⟨pdu, m'⟩ = .ok s) :
    readFields ((tag, data) :: items) ⟨p, m⟩ = .ok s := by
  subst hm'
  exact bind_eq_ok.mpr ⟨_, read_eq_ok.mpr ⟨hseen, pdu, hfield, rfl⟩, h⟩

/-- A number field. -/
theorem wrap_berUint32 {set : UInt32 → PDU} {e : BerError → DecodeError} (v : UInt32) :
    wrap e (berUint32 (berEncodeUint v)) >>= (fun v ↦ .ok (set v)) = .ok (set v) := by
  rw [berUint32_berEncodeUint]
  rfl

end Fields

/-- The fields of a message are read back into it. -/
theorem readFields_pduFields {pdu : PDU} (hfits : pdu.Fits)
    (hlen : (encodeDataSeq pdu.allData).length < 2 ^ 24) {p : PDU} :
    readFields (pduFields pdu) ⟨p, 0⟩ =
      .ok ⟨{ pdu.normal with dstMAC := p.dstMAC, srcMAC := p.srcMAC, vlan := p.vlan,
                             appID := p.appID, simulation := p.simulation }, 0xFFF⟩ := by
  have htime (p : PDU) : decodeField p 0x84 (encodeUtcTime pdu.timestamp pdu.timeQuality) =
      .ok { p with timestamp := truncTime pdu.timestamp, timeQuality := pdu.timeQuality } := by
    show wrap (DecodeError.badField 0x84)
      (readUtcTime (encodeUtcTime pdu.timestamp pdu.timeQuality)) >>= _ = _
    rw [readUtcTime_encodeUtcTime hfits.timestamp hfits.timeQuality]
    rfl
  have htest (p : PDU) : decodeField p 0x87 (berEncodeBool pdu.test) =
      .ok { p with test := pdu.test } := by
    cases pdu.test <;> rfl
  have hndsCom (p : PDU) : decodeField p 0x89 (berEncodeBool pdu.ndsCom) =
      .ok { p with ndsCom := pdu.ndsCom } := by
    cases pdu.ndsCom <;> rfl
  have hallData (p : PDU) : decodeField p 0xAB (encodeDataSeq pdu.allData) =
      .ok { p with allData := normalAll pdu.allData } := by
    show wrap _ (decodeDataSeq _ (encodeDataSeq pdu.allData)) >>= _ = _
    rw [decodeDataSeq_encodeDataSeq hfits.allData (Nat.lt_succ_self _) hlen]
    rfl
  refine readFields_cons 0x1 (by decide) (by decide) rfl ?_
  refine readFields_cons 0x3 (by decide) (by decide) (wrap_berUint32 _) ?_
  refine readFields_cons 0x7 (by decide) (by decide) rfl ?_
  refine readFields_cons 0xF (by decide) (by decide) rfl ?_
  refine readFields_cons 0x1F (by decide) (by decide) (htime _) ?_
  refine readFields_cons 0x3F (by decide) (by decide) (wrap_berUint32 _) ?_
  refine readFields_cons 0x7F (by decide) (by decide) (wrap_berUint32 _) ?_
  refine readFields_cons 0xFF (by decide) (by decide) (htest _) ?_
  refine readFields_cons 0x1FF (by decide) (by decide) (wrap_berUint32 _) ?_
  refine readFields_cons 0x3FF (by decide) (by decide) (hndsCom _) ?_
  refine readFields_cons 0x7FF (by decide) (by decide) (wrap_berUint32 _) ?_
  refine readFields_cons 0xFFF (by decide) (by decide) (hallData _) ?_
  rfl

theorem length_encodeDataSeq_le (pdu : PDU) :
    (encodeDataSeq pdu.allData).length ≤ (encodeGoosePDUFields pdu).length := by
  have hmem : (0xAB, encodeDataSeq pdu.allData) ∈ pduFields pdu := by simp [pduFields]
  exact Nat.le_of_add_right_le (length_le_flatMap_tlv hmem)

/-- **A message survives the way over the wire**, up to its normal form. -/
theorem decode_encode {pdu : PDU} (hfits : pdu.Fits) : decode (encode pdu) = .ok pdu.normal := by
  have hinner := length_encodeDataSeq_le pdu
  have hapdu := hfits.apdu
  rw [berWrap, berTLV, tlv, List.length_cons, List.length_append] at hapdu
  generalize hoctets : lengthOctets (encodeGoosePDUFields pdu).length = octets at hapdu
  obtain ⟨offset, hheader⟩ := isHeader_writeEthernetHeader hfits.dstMAC hfits.srcMAC hfits.vlan
    (show etherType ≠ etherTypeVLAN by decide)
  let a : ApduHeader := ⟨pdu.appID, 8 + (1 + (octets.length + (encodeGoosePDUFields pdu).length)),
    if pdu.simulation then 0x8000 else 0⟩
  have hsim : (a.reserved1 &&& 0x8000 != 0) = pdu.simulation := by
    show ((if pdu.simulation then 0x8000 else 0 : UInt16) &&& 0x8000 != 0) = _
    cases pdu.simulation <;> rfl
  have hres : a.reserved1.toNat = if pdu.simulation then 0x8000 else 0 := by
    show (if pdu.simulation then 0x8000 else 0 : UInt16).toNat = _
    cases pdu.simulation <;> rfl
  have htiles : Tiles 4 (pduFields pdu) (encodeGoosePDUFields pdu) :=
    tiles_flatMap_tlv (by decide) (show (encodeGoosePDUFields pdu).length < 2 ^ 24 by omega)
  have hlength : LengthOf 4 (encodeGoosePDUFields pdu).length octets := by
    rw [← hoctets]
    exact lengthOf_lengthOctets (by decide) (by omega)
  have hvalid : validateGOOSEFields pdu.normal 0xFFF = .ok () := by
    refine validateGOOSEFields_eq_ok.mpr ⟨List.forall_iff_forall_mem.mp (by decide), ?_⟩
    rw [PDU.normal, normalAll_eq_map, List.length_map]
    exact hfits.entries
  have hread : readFields (pduFields pdu)
      ⟨.ofHeaders ⟨pdu.dstMAC, pdu.srcMAC, pdu.vlan, etherType, offset⟩ a, 0⟩ =
        .ok ⟨pdu.normal, 0xFFF⟩ := by
    rw [readFields_pduFields hfits (by omega)]
    show Except.ok (Fields.mk { pdu.normal with simulation := a.reserved1 &&& 0x8000 != 0 } _) = _
    rw [hsim]
    rfl
  have hframe : encode pdu = writeEthernetHeader pdu.dstMAC pdu.srcMAC pdu.vlan etherType ++
      (beBytes 2 a.appID.toNat ++ (beBytes 2 a.length ++ (beBytes 2 a.reserved1.toNat ++
        (beBytes 2 0 ++ (0x61 :: (octets ++ encodeGoosePDUFields pdu) ++ []))))) := by
    simp only [encode, berWrap, berTLV, tlv, apduHeader, hoctets, hres, List.length_cons,
      List.length_append, List.append_assoc, List.append_nil]
    rw [Nat.add_comm (octets.length + _) 1]
  rw [decode_eq_ok, hframe]
  exact .mk hheader rfl rfl rfl (show 8 + _ < 2 ^ 16 by omega) hlength htiles hread hvalid

/-- A tagged message with a structure of an integer, five bits, a number and a time. -/
def examplePdu : PDU where
  dstMAC := [1, 0x0C, 0xCD, 1, 0, 1]
  srcMAC := [2, 0, 0, 0, 0, 1]
  vlan := some ⟨4, false, 7⟩
  appID := 1
  simulation := true
  gocbRef := [0x67]
  timeAllowedToLiveMs := 2000
  datSet := [0x64]
  goID := []
  timestamp := .ofUnix 1 5
  timeQuality := { accuracy := 10 }
  stNum := 1
  sqNum := 200
  test := false
  confRev := 1
  ndsCom := false
  numDatSetEntries := 1
  allData :=
    [{ type := .struct
       children :=
        [{ type := .integer, int := -129 }, { type := .bitString, bytes := [0xFF], bitLength := 5 },
          { type := .floatingPoint, float := Binary.widen 0x3FC00000 },
          { type := .utcTime, time := .ofUnix 2 7 }] }]

theorem decode_encode_structure : decode (encode examplePdu) = .ok examplePdu.normal :=
  decode_encode
    { dstMAC := rfl
      srcMAC := rfl
      vlan := by
        rintro v ⟨⟩
        exact ⟨by decide, by decide⟩
      timestamp := by decide
      timeQuality := by decide
      entries := rfl
      allData := ⟨⟨trivial, trivial, ⟨_, rfl⟩, ⟨by decide, by decide⟩, trivial⟩, trivial⟩
      apdu := by decide }

end ProcessBus.Goose
