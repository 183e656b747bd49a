import ProcessBus.Ethernet.Frame
import ProcessBus.Sv.Measurement

/-!
# The Sampled Values encoder

`internal/domain/sv/encoder.go`.  The sizes of all containers are computed before anything is
written (`encodedASDUInnerLen` and what it calls), and the containers' length octets come from these
sizes; only the length in the APDU header is taken from what was written.

`appendASDU_eq` and `appendSavPDU_eq` say that the two agree: what is written is the nesting of TLVs
whose lengths are those of their contents.
-/

namespace ProcessBus.Sv.Wire

open Go Goose Ethernet Lib Lib.Ber

/-- `sv.ASDU`. -/
structure ASDU where
  dstMAC : Bytes := []
  srcMAC : Bytes := []
  vlan : Option VLANTag := none
  appID : UInt16 := 0
  apduLength : ℕ := 0
  reserved1 : UInt16 := 0
  reserved2 : UInt16 := 0
  simulation : Bool := false
  svID : Bytes := []
  datSet : Bytes := []
  smpCnt : UInt16 := 0
  confRev : UInt32 := 0
  refrTm : Time := .zero
  refrTmQ : TimeQuality := {}
  smpSynch : UInt8 := 0
  smpRate : UInt16 := 0
  smpMod : UInt8 := 0
  channels : Channels Int32 := .replicate numChannels 0
  quality : Channels UInt32 := .replicate numChannels 0
  seqData : Bytes := []
  hasSvID : Bool := false
  hasSmpCnt : Bool := false
  hasConfRev : Bool := false
  hasSmpSynch : Bool := false
  hasSeqData : Bool := false
  hasRefrTm : Bool := false
  hasSmpRate : Bool := false
  hasSmpMod : Bool := false

/-- `sv.EtherType`. -/
def etherType : UInt16 := 0x88BA

/-- `seqDataLen`. -/
def seqDataLen : ℕ := numChannels * 8

/-- `SmpModSamplesPerPeriod`. -/
def smpModSamplesPerPeriod : UInt8 := 0

/-! ## Sizes -/

def berLengthSize (length : ℕ) : ℕ :=
  if length < 0x80 then 1 else if length ≤ 0xFF then 2 else if length ≤ 0xFFFF then 3 else 4

def berTLVSize (valueLen : ℕ) : ℕ := 1 + berLengthSize valueLen + valueLen

def berUintSize (value : UInt32) : ℕ :=
  if value ≤ 0xFF then 1 else if value ≤ 0xFFFF then 2 else if value ≤ 0xFFFFFF then 3 else 4

def encodedASDUInnerLen (a : ASDU) : ℕ :=
  berTLVSize a.svID.length +
    (if a.datSet ≠ [] then berTLVSize a.datSet.length else 0) +
    berTLVSize 2 +
    berTLVSize 4 +
    (if !a.refrTm.isZero then berTLVSize 8 else 0) +
    berTLVSize 1 +
    (if 0 < a.smpRate then berTLVSize 2 else 0) +
    berTLVSize seqDataLen +
    (if a.smpMod ≠ smpModSamplesPerPeriod then berTLVSize 2 else 0)

def encodedASDULen (a : ASDU) : ℕ := berTLVSize (encodedASDUInnerLen a)

/-! ## Writing -/

/-- `appendBERHeader`, with `appendBERLength`. -/
def appendBERHeader (tag : UInt8) (length : ℕ) : Bytes := tag :: lengthOctets length

def appendTLVBytes (tag : UInt8) (value : Bytes) : Bytes :=
  appendBERHeader tag value.length ++ value

def appendTLVUint16 (tag : UInt8) (value : UInt16) : Bytes :=
  appendBERHeader tag 2 ++ beBytes 2 value.toNat

def appendTLVUint (tag : UInt8) (value : UInt32) : Bytes :=
  appendBERHeader tag (berUintSize value) ++
    if value = 0 then [0]
    else if value ≤ 0xFF then beBytes 1 value.toNat
    else if value ≤ 0xFFFF then beBytes 2 value.toNat
    else if value ≤ 0xFFFFFF then beBytes 3 value.toNat
    else beBytes 4 value.toNat

/-- The samples and their quality, channel by channel. -/
def sampleBytes (a : ASDU) : Bytes :=
  (List.finRange numChannels).flatMap fun ch ↦
    beBytes 4 (a.channels.get ch).toUInt32.toNat ++ beBytes 4 (a.quality.get ch).toNat

def appendASDU (a : ASDU) : Bytes :=
  appendBERHeader 0x30 (encodedASDUInnerLen a) ++
    (appendTLVBytes 0x80 a.svID ++
    ((if a.datSet ≠ [] then appendTLVBytes 0x81 a.datSet else []) ++
    (appendTLVUint16 0x82 a.smpCnt ++
    (appendBERHeader 0x83 4 ++ beBytes 4 a.confRev.toNat ++
    ((if !a.refrTm.isZero then appendBERHeader 0x84 8 ++ encodeUtcTime a.refrTm a.refrTmQ else []) ++
    (appendBERHeader 0x85 1 ++ [a.smpSynch] ++
    ((if 0 < a.smpRate then appendTLVUint16 0x86 a.smpRate else []) ++
    (appendBERHeader 0x87 seqDataLen ++ sampleBytes a ++
      (if a.smpMod ≠ smpModSamplesPerPeriod then appendTLVUint16 0x88 a.smpMod.toUInt16 else [])))))))))

/-- What `Encode` writes behind the APDU header. -/
def appendSavPDU (asdus : List ASDU) : Bytes :=
  let seqASDULen := (asdus.map encodedASDULen).sum
  let noASDUValueLen := berUintSize (UInt32.ofNat asdus.length)
  let savInnerLen := berTLVSize noASDUValueLen + berTLVSize seqASDULen
  appendBERHeader 0x60 savInnerLen ++
    (appendTLVUint 0x80 (UInt32.ofNat asdus.length) ++
    (appendBERHeader 0xA2 seqASDULen ++ asdus.flatMap appendASDU))

/-- `Encode`; `none` is Go's `nil`. -/
def encode (asdus : List ASDU) : Option Bytes :=
  match asdus with
  | [] => none
  | first :: _ =>
      let payload := appendSavPDU asdus
      let apduLen := 8 + payload.length
      if 65535 < apduLen then none
      else some (writeEthernetHeader first.dstMAC first.srcMAC first.vlan etherType ++
        (apduHeader first.appID apduLen first.simulation ++ payload))

/-! ## Containers -/

/-- The fields of an ASDU with their tags. -/
def asduFields (a : ASDU) : List (UInt8 × Bytes) :=
  [(0x80, a.svID)] ++
    ((if a.datSet ≠ [] then [(0x81, a.datSet)] else []) ++
    ([(0x82, beBytes 2 a.smpCnt.toNat), (0x83, beBytes 4 a.confRev.toNat)] ++
    ((if !a.refrTm.isZero then [(0x84, encodeUtcTime a.refrTm a.refrTmQ)] else []) ++
    ([(0x85, [a.smpSynch])] ++
    ((if 0 < a.smpRate then [(0x86, beBytes 2 a.smpRate.toNat)] else []) ++
    ([(0x87, sampleBytes a)] ++
      (if a.smpMod ≠ smpModSamplesPerPeriod then [(0x88, beBytes 2 a.smpMod.toNat)] else [])))))))

/-- The content of an ASDU. -/
def asduContent (a : ASDU) : Bytes := (asduFields a).flatMap fun x ↦ tlv x.1 x.2

/-- The shortest big-endian octets of a number, at least one. -/
def countOctets (n : UInt32) : Bytes := beBytes (berUintSize n) n.toNat

/-- The savPDU, with the lengths of its containers. -/
def savPDU (asdus : List ASDU) : Bytes :=
  tlv 0x60 (tlv 0x80 (countOctets (UInt32.ofNat asdus.length)) ++
    tlv 0xA2 (asdus.flatMap fun a ↦ tlv 0x30 (asduContent a)))

theorem length_lengthOctets (n : ℕ) : (lengthOctets n).length = berLengthSize n := by
  unfold lengthOctets berLengthSize
  split_ifs <;> rfl

theorem length_tlv_eq (tag : UInt8) (content : Bytes) :
    (tlv tag content).length = berTLVSize content.length := by
  rw [tlv, List.length_cons, List.length_append, length_lengthOctets, berTLVSize]
  omega

theorem length_sampleBytes (a : ASDU) : (sampleBytes a).length = seqDataLen := by
  rw [sampleBytes, List.length_flatMap]
  simp only [List.length_append, length_beBytes]
  rfl

/-- The TLV of an optional field. -/
theorem flatMap_ite {c : Prop} [Decidable c] (x : UInt8 × Bytes) :
    (if c then [x] else []).flatMap (fun x ↦ tlv x.1 x.2) = if c then tlv x.1 x.2 else [] := by
  split <;> simp

theorem length_ite_tlv {c : Prop} [Decidable c] (tag : UInt8) (content : Bytes) :
    (if c then tlv tag content else []).length = if c then berTLVSize content.length else 0 := by
  split
  · exact length_tlv_eq tag content
  · rfl

/-- The content of an ASDU, field by field. -/
theorem asduContent_eq (a : ASDU) :
    asduContent a = tlv 0x80 a.svID ++
      ((if a.datSet ≠ [] then tlv 0x81 a.datSet else []) ++
      (tlv 0x82 (beBytes 2 a.smpCnt.toNat) ++ (tlv 0x83 (beBytes 4 a.confRev.toNat) ++
      ((if !a.refrTm.isZero then tlv 0x84 (encodeUtcTime a.refrTm a.refrTmQ) else []) ++
      (tlv 0x85 [a.smpSynch] ++
      ((if 0 < a.smpRate then tlv 0x86 (beBytes 2 a.smpRate.toNat) else []) ++
      (tlv 0x87 (sampleBytes a) ++
        (if a.smpMod ≠ smpModSamplesPerPeriod then tlv 0x88 (beBytes 2 a.smpMod.toNat)
          else [])))))))) := by
  simp only [asduContent, asduFields, List.flatMap_append, flatMap_ite, List.flatMap_cons,
    List.flatMap_nil, List.append_nil, List.append_assoc]

/-- **The size computed beforehand is the size of what is written.** -/
theorem encodedASDUInnerLen_eq (a : ASDU) : encodedASDUInnerLen a = (asduContent a).length := by
  have htime : (encodeUtcTime a.refrTm a.refrTmQ).length = 8 := by simp [encodeUtcTime]
  rw [asduContent_eq]
  simp only [List.length_append, length_ite_tlv, length_tlv_eq, length_beBytes, length_sampleBytes,
    htime, List.length_singleton, encodedASDUInnerLen, Nat.add_assoc]

/-- A header with the right length makes a TLV. -/
theorem appendBERHeader_append (tag : UInt8) {content : Bytes} {n : ℕ} (h : content.length = n) :
    appendBERHeader tag n ++ content = tlv tag content := by
  rw [← h]
  rfl

/-- **An ASDU is written as the TLV of its content.** -/
theorem appendASDU_eq (a : ASDU) : appendASDU a = tlv 0x30 (asduContent a) := by
  have htime : (encodeUtcTime a.refrTm a.refrTmQ).length = 8 := by simp [encodeUtcTime]
  have hword (tag : UInt8) (v : UInt16) : appendTLVUint16 tag v = tlv tag (beBytes 2 v.toNat) := rfl
  have hbytes (tag : UInt8) (v : Bytes) : appendTLVBytes tag v = tlv tag v := rfl
  have hconf := appendBERHeader_append 0x83 (length_beBytes 4 a.confRev.toNat)
  rw [← appendBERHeader_append 0x30 (encodedASDUInnerLen_eq a).symm, asduContent_eq]
  simp only [appendASDU, hword, hbytes, hconf, appendBERHeader_append 0x84 htime,
    appendBERHeader_append 0x87 (length_sampleBytes a), UInt8.toNat_toUInt16,
    appendBERHeader_append 0x85 (List.length_singleton (a := a.smpSynch))]

theorem appendTLVUint_eq (tag : UInt8) (value : UInt32) :
    appendTLVUint tag value = tlv tag (countOctets value) := by
  have hcontent : (if value = 0 then [0] else if value ≤ 0xFF then beBytes 1 value.toNat
      else if value ≤ 0xFFFF then beBytes 2 value.toNat
      else if value ≤ 0xFFFFFF then beBytes 3 value.toNat else beBytes 4 value.toNat) =
        countOctets value := by
    unfold countOctets berUintSize
    split
    · rename_i h
      subst h
      rfl
    · split_ifs <;> rfl
  rw [appendTLVUint, hcontent]
  exact appendBERHeader_append tag (length_beBytes _ _)

theorem sum_encodedASDULen (asdus : List ASDU) :
    (asdus.map encodedASDULen).sum = (asdus.flatMap fun a ↦ tlv 0x30 (asduContent a)).length := by
  rw [List.length_flatMap]
  congr 1
  refine List.map_congr_left fun a _ ↦ ?_
  rw [length_tlv_eq, ← encodedASDUInnerLen_eq, encodedASDULen]

/-- **Every length written from the sizes computed beforehand is that of the container's content.**
-/
theorem appendSavPDU_eq (asdus : List ASDU) : appendSavPDU asdus = savPDU asdus := by
  have hasdus : asdus.flatMap appendASDU = asdus.flatMap fun a ↦ tlv 0x30 (asduContent a) :=
    List.flatMap_congr fun a _ ↦ appendASDU_eq a
  have hcount : berUintSize (UInt32.ofNat asdus.length) =
      (countOctets (UInt32.ofNat asdus.length)).length := (length_beBytes _ _).symm
  have hseq := appendBERHeader_append 0xA2 (sum_encodedASDULen asdus).symm
  unfold appendSavPDU savPDU
  dsimp only
  rw [hasdus, appendTLVUint_eq, hseq]
  refine appendBERHeader_append 0x60 ?_
  rw [List.length_append, length_tlv_eq, length_tlv_eq, ← hcount, sum_encodedASDULen]

end ProcessBus.Sv.Wire
