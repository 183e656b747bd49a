import Mathlib.Data.Fintype.Basic
import Mathlib.Tactic.FinCases
import ProcessBus.Goose.UtcTime
import ProcessBus.Sv.Decoder

/-!
# Sampled Values over the wire

What `encode` writes, `decode` reads back: the ASDUs in their order, each up to what the format
keeps of it (`ASDU.decoded`), and without a warning (`decode_encode`).

The containers are taken apart from the outside in.  The ASDUs of one frame are an induction over
their list, and the fields of an ASDU are read one after the other (`readFields_asduFields`).
-/

namespace ProcessBus.Sv.Wire

open Go Goose Ethernet Lib Lib.Checked Lib.Ber

/-! ## What the format keeps -/

/-- The five bits that the format has for the accuracy. -/
def maskAccuracy (q : TimeQuality) : TimeQuality := { q with accuracy := q.accuracy &&& 0x1F }

/-- The fields of an ASDU as they come back: a time is rounded down to 24 bits of fraction and has a
quality only if it is there, and the decoder notes which fields it has seen. -/
def ASDU.content (a : ASDU) : ASDU where
  svID := a.svID
  datSet := a.datSet
  smpCnt := a.smpCnt
  confRev := a.confRev
  refrTm := if a.refrTm.isZero then .zero else truncTime a.refrTm
  refrTmQ := if a.refrTm.isZero then {} else maskAccuracy a.refrTmQ
  smpSynch := a.smpSynch
  smpRate := a.smpRate
  smpMod := a.smpMod
  channels := a.channels
  quality := a.quality
  seqData := sampleBytes a
  hasSvID := true
  hasSmpCnt := true
  hasConfRev := true
  hasSmpSynch := true
  hasSeqData := true
  hasRefrTm := !a.refrTm.isZero
  hasSmpRate := 0 < a.smpRate
  hasSmpMod := a.smpMod ≠ smpModSamplesPerPeriod

/-- An ASDU as it comes back out of a frame whose APDU has this length. -/
def ASDU.decoded (apduLength : ℕ) (a : ASDU) : ASDU :=
  { a.content with
    dstMAC := a.dstMAC
    srcMAC := a.srcMAC
    vlan := a.vlan
    appID := a.appID
    apduLength
    reserved1 := if a.simulation then 0x8000 else 0
    reserved2 := 0
    simulation := a.simulation }

/-- An ASDU that the format can carry. -/
structure ASDU.Fits (a : ASDU) : Prop where
  svID : a.svID ≠ []
  refrTm : a.refrTm.isZero ∨ InUtcRange a.refrTm
  smpSynch : a.smpSynch ≤ 2
  smpMod : a.smpMod ≤ 2

/-- Two ASDUs for one frame. -/
structure SameHeader (a b : ASDU) : Prop where
  dstMAC : a.dstMAC = b.dstMAC
  srcMAC : a.srcMAC = b.srcMAC
  vlan : a.vlan = b.vlan
  appID : a.appID = b.appID
  simulation : a.simulation = b.simulation

/-- ASDUs for one frame. -/
structure FrameFits (first : ASDU) (rest : List ASDU) : Prop where
  dstMAC : first.dstMAC.length = 6
  srcMAC : first.srcMAC.length = 6
  vlan : ∀ v ∈ first.vlan, VLANFits v
  shared : ∀ a ∈ first :: rest, SameHeader a first
  asdus : ∀ a ∈ first :: rest, a.Fits

/-! ## Content octets -/

/-- Only five bits of the accuracy are written. -/
theorem encodeUtcTime_maskAccuracy (t : Time) (q : TimeQuality) :
    encodeUtcTime t (maskAccuracy q) = encodeUtcTime t q := by
  have h : encodeTimeQuality (maskAccuracy q) = encodeTimeQuality q := by
    unfold encodeTimeQuality maskAccuracy
    rw [UInt8.and_assoc, UInt8.and_self]
  rw [encodeUtcTime, encodeUtcTime, h]

theorem maskAccuracy_fits (q : TimeQuality) : (maskAccuracy q).Fits := by
  show (q.accuracy &&& 0x1F).toNat ≤ 31
  rw [UInt8.toNat_and]
  exact Nat.and_le_right

theorem readUtcTime_refrTm {a : ASDU} (ht : InUtcRange a.refrTm) :
    (readUtcTime (encodeUtcTime a.refrTm a.refrTmQ) : Result (Time × TimeQuality)) =
      .ok (truncTime a.refrTm, maskAccuracy a.refrTmQ) := by
  rw [← encodeUtcTime_maskAccuracy]
  exact readUtcTime_encodeUtcTime ht (maskAccuracy_fits _)

/-- A 16-bit number of two octets. -/
theorem berUint_word (v : UInt16) : (berUint (beBytes 2 v.toNat)).toUInt16 = v := by
  have hlt := v.toNat_lt
  rw [← UInt16.toNat_inj, berUint, beNat_beBytes, UInt32.toNat_toUInt16, UInt32.toNat_ofNat']
  omega

/-- The count of ASDUs. -/
theorem berUint_countOctets (n : UInt32) : berUint (countOctets n) = n := by
  have hlt : n.toNat < 256 ^ berUintSize n := by
    unfold berUintSize
    simp only [UInt32.le_iff_toNat_le]
    split_ifs with h₁ h₂ h₃
    · exact Nat.lt_succ_of_le h₁
    · exact Nat.lt_succ_of_le h₂
    · exact Nat.lt_succ_of_le h₃
    · exact n.toNat_lt
  rw [berUint, countOctets, beNat_beBytes, Nat.mod_eq_of_lt hlt, UInt32.ofNat_toNat]

/-- A number of four octets. -/
theorem uint32At_of_slice {data : Bytes} {i : ℕ} {v : UInt32}
    (h : slice data i (i + 4) = beBytes 4 v.toNat) : uint32At data i = v := by
  have hlt : v.toNat < 256 ^ 4 := v.toNat_lt
  rw [uint32At, h, beNat_beBytes, Nat.mod_eq_of_lt hlt, UInt32.ofNat_toNat]

/-- The samples stand where the decoder looks for them. -/
theorem slice_sampleBytes (a : ASDU) (ch : Fin numChannels) :
    slice (sampleBytes a) (ch * 8) (ch * 8 + 4) = beBytes 4 (a.channels.get ch).toUInt32.toNat ∧
      slice (sampleBytes a) (ch * 8 + 4) (ch * 8 + 8) = beBytes 4 (a.quality.get ch).toNat := by
  fin_cases ch <;> exact ⟨rfl, rfl⟩

theorem channels_sampleBytes (a : ASDU) :
    .ofFn (fun ch : Fin numChannels ↦ channelAt (sampleBytes a) ch) = a.channels := by
  refine Vector.ext fun i hi ↦ ?_
  rw [Vector.getElem_ofFn, channelAt, uint32At_of_slice (slice_sampleBytes a ⟨i, hi⟩).1]
  exact Int32.toInt32_toUInt32 _

theorem quality_sampleBytes (a : ASDU) :
    .ofFn (fun ch : Fin numChannels ↦ qualityAt (sampleBytes a) ch) = a.quality := by
  refine Vector.ext fun i hi ↦ ?_
  rw [Vector.getElem_ofFn, qualityAt, uint32At_of_slice (slice_sampleBytes a ⟨i, hi⟩).2]
  rfl

/-! ## ASDUs -/

/-- The fields of an ASDU, one after the other. -/
def readFields (fields : List (UInt8 × Bytes)) (s : ASDU × List DecodeWarning) :
    Result (ASDU × List DecodeWarning) :=
  fields.foldlM (fun s x ↦ decodeField s x.1 x.2) s

section Fields

variable {s s' s'' : ASDU × List DecodeWarning} {xs ys : List (UInt8 × Bytes)}

theorem readFields_append (hx : readFields xs s = .ok s') (hy : readFields ys s' = .ok s'') :
    readFields (xs ++ ys) s = .ok s'' := by
  unfold readFields at *
  rw [List.foldlM_append, hx]
  exact hy

theorem readFields_singleton {tag : UInt8} {data : Bytes} (h : decodeField s tag data = .ok s') :
    readFields [(tag, data)] s = .ok s' := by
  unfold readFields
  rw [List.foldlM_cons, h]
  rfl

/-- An optional field, read into a state that is right without it. -/
theorem readFields_ite {c : Prop} [Decidable c] {tag : UInt8} {data : Bytes}
    (h : c → decodeField s tag data = .ok s') (hn : ¬ c → s = s') :
    readFields (if c then [(tag, data)] else []) s = .ok s' := by
  split
  · rename_i hc
    exact readFields_singleton (h hc)
  · rename_i hc
    rw [← hn hc]
    rfl

end Fields

section Asdu

variable {a : ASDU} (hfits : a.Fits) (p : ASDU)

include hfits

theorem readFields_svID :
    readFields [(0x80, a.svID)] (p, []) = .ok ({ p with svID := a.svID, hasSvID := true }, []) := by
  refine readFields_singleton ?_
  have hne : a.svID.length ≠ 0 := fun h ↦ hfits.svID (List.length_eq_zero_iff.mp h)
  show Except.ok (_, [] ++ if a.svID.length = 0 then _ else []) = _
  rw [if_neg hne]
  rfl

omit hfits in
theorem readFields_datSet (hp : p.datSet = []) :
    readFields (if a.datSet ≠ [] then [(0x81, a.datSet)] else []) (p, []) =
      .ok ({ p with datSet := a.datSet }, []) := by
  refine readFields_ite (fun _ ↦ rfl) fun h ↦ ?_
  rw [not_not.mp h, ← hp]

omit hfits in
theorem readFields_smpCnt :
    readFields [(0x82, beBytes 2 a.smpCnt.toNat)] (p, []) =
      .ok ({ p with smpCnt := a.smpCnt, hasSmpCnt := true }, []) := by
  refine readFields_singleton ?_
  show Except.ok ({ p with smpCnt := (berUint _).toUInt16, hasSmpCnt := true }, [] ++ []) = _
  rw [berUint_word]
  rfl

omit hfits in
theorem readFields_confRev :
    readFields [(0x83, beBytes 4 a.confRev.toNat)] (p, []) =
      .ok ({ p with confRev := a.confRev, hasConfRev := true }, []) := by
  refine readFields_singleton ?_
  show Except.ok ({ p with confRev := uint32At (beBytes 4 _) 0, hasConfRev := true }, []) = _
  rw [uint32At_of_slice (v := a.confRev) rfl]

theorem readFields_refrTm (hp : p.refrTm = .zero) (hq : p.refrTmQ = {}) (hh : p.hasRefrTm = false) :
    readFields (if !a.refrTm.isZero then [(0x84, encodeUtcTime a.refrTm a.refrTmQ)] else []) (p, [])
      = .ok ({ p with
          refrTm := a.content.refrTm
          refrTmQ := a.content.refrTmQ
          hasRefrTm := a.content.hasRefrTm }, []) := by
  unfold ASDU.content
  dsimp only
  refine readFields_ite (fun h ↦ ?_) fun h ↦ ?_
  · have hz : a.refrTm.isZero = false := by simpa using h
    have hrange : InUtcRange a.refrTm := hfits.refrTm.resolve_left (by rw [hz]; exact nofun)
    show readUtcTime _ >>= _ = _
    rw [readUtcTime_refrTm hrange, hz]
    rfl
  · have hz : a.refrTm.isZero = true := by simpa using h
    rw [hz, if_pos rfl, if_pos rfl, ← hp, ← hq]
    show _ = ({ p with hasRefrTm := false }, [])
    rw [← hh]

theorem readFields_smpSynch :
    readFields [(0x85, [a.smpSynch])] (p, []) =
      .ok ({ p with smpSynch := a.smpSynch, hasSmpSynch := true }, []) := by
  have hlegal : ¬ 2 < a.smpSynch := by
    rw [UInt8.lt_iff_toNat_lt, not_lt]
    exact UInt8.le_iff_toNat_le.mp hfits.smpSynch
  refine readFields_singleton ?_
  show Except.ok (_, [] ++ [] ++ if 2 < a.smpSynch then _ else []) = _
  rw [if_neg hlegal]
  rfl

omit hfits in
theorem readFields_smpRate (hp : p.smpRate = 0) (hh : p.hasSmpRate = false) :
    readFields (if 0 < a.smpRate then [(0x86, beBytes 2 a.smpRate.toNat)] else []) (p, []) =
      .ok ({ p with smpRate := a.smpRate, hasSmpRate := a.content.hasSmpRate }, []) := by
  unfold ASDU.content
  dsimp only
  refine readFields_ite (fun h ↦ ?_) fun h ↦ ?_
  · show Except.ok ({ p with smpRate := (berUint _).toUInt16, hasSmpRate := true }, [] ++ []) = _
    rw [berUint_word, decide_eq_true h]
    rfl
  · have hz : a.smpRate = 0 := by
      rw [← UInt16.toNat_inj]
      rw [UInt16.lt_iff_toNat_lt, not_lt] at h
      exact Nat.le_zero.mp h
    rw [decide_eq_false h, hz, ← hp, ← hh]

omit hfits in
theorem readFields_seqData :
    readFields [(0x87, sampleBytes a)] (p, []) =
      .ok ({ p with
        hasSeqData := true
        seqData := sampleBytes a
        channels := a.channels
        quality := a.quality }, []) := by
  refine readFields_singleton ?_
  show Except.ok ({ p with
    hasSeqData := true
    seqData := sampleBytes a
    channels := .ofFn fun ch : Fin numChannels ↦ channelAt (sampleBytes a) ch
    quality := .ofFn fun ch : Fin numChannels ↦ qualityAt (sampleBytes a) ch }, []) = _
  rw [channels_sampleBytes, quality_sampleBytes]

theorem readFields_smpMod (hp : p.smpMod = 0) (hh : p.hasSmpMod = false) :
    readFields (if a.smpMod ≠ smpModSamplesPerPeriod then [(0x88, beBytes 2 a.smpMod.toNat)] else [])
      (p, []) = .ok ({ p with smpMod := a.smpMod, hasSmpMod := a.content.hasSmpMod }, []) := by
  unfold ASDU.content
  dsimp only
  refine readFields_ite (fun h ↦ ?_) fun h ↦ ?_
  · have hle : a.smpMod.toNat ≤ 2 := UInt8.le_iff_toNat_le.mp hfits.smpMod
    have hval : uint16At (beBytes 2 a.smpMod.toNat) 0 = a.smpMod.toUInt16 := by
      have hslice : slice (beBytes 2 a.smpMod.toNat) 0 2 = beBytes 2 a.smpMod.toNat := rfl
      rw [uint16At, hslice, beNat_beBytes, ← UInt16.toNat_inj, UInt16.toNat_ofNat',
        UInt8.toNat_toUInt16]
      omega
    have hlegal : ¬ 2 < a.smpMod.toUInt16 := by
      rw [UInt16.lt_iff_toNat_lt, UInt8.toNat_toUInt16, not_lt]
      exact hle
    show (if 2 < uint16At _ 0 then _ else _) = _
    rw [hval, if_neg hlegal, UInt8.toUInt8_toUInt16, decide_eq_true h]
  · rw [decide_eq_false h, not_not.mp h, ← hh]
    show _ = ({ p with smpMod := 0 }, [])
    rw [← hp]

/-- **The fields of an ASDU are read back without a warning.** -/
theorem readFields_asduFields : readFields (asduFields a) ({}, []) = .ok (a.content, []) :=
  readFields_append (readFields_svID hfits _) <|
    readFields_append (readFields_datSet _ rfl) <|
    readFields_append (readFields_append (readFields_smpCnt _) (readFields_confRev _)) <|
    readFields_append (readFields_refrTm hfits _ rfl rfl rfl) <|
    readFields_append (readFields_smpSynch hfits _) <|
    readFields_append (readFields_smpRate _ rfl rfl) <|
    readFields_append (readFields_seqData _) <|
    readFields_smpMod hfits _ rfl rfl

theorem decodeASDU_content {frame : Bytes} {offset stop : ℕ} (hstop : stop ≤ frame.length)
    (hshort : stop < 2 ^ 24) (hslice : slice frame offset stop = asduContent a) :
    decodeASDU frame offset stop = .ok (a.content, []) := by
  have hlen : (asduContent a).length < 2 ^ 24 := by
    rw [← hslice, length_slice hstop]
    omega
  refine bind_eq_ok.mpr ⟨(a.content, []), ?_, rfl⟩
  refine (walk_eq_ok hstop (by omega)).mpr ⟨asduFields a, ?_, readFields_asduFields hfits⟩
  rw [hslice]
  exact tiles_flatMap_tlv (by decide) hlen

end Asdu

/-! ## Frames -/

section Frames

variable {h : Headers} {frame : Bytes} {asdus : List ASDU} (hshort : frame.length < 2 ^ 24)

include hshort

/-- A container of the frame. -/
theorem berLength_tlv {stop offset : ℕ} {tag : UInt8} {content rest : Bytes}
    (hstop : stop ≤ frame.length) (hslice : slice frame offset stop = tlv tag content ++ rest) :
    frame[offset]? = some tag ∧ ∃ offset', offset < offset' ∧
      berLength frame (offset + 1) = .ok (content.length, offset') ∧
      offset' + content.length ≤ stop ∧
      slice frame offset' (offset' + content.length) = content ∧
      slice frame (offset' + content.length) stop = rest := by
  have hlen : content.length < 2 ^ 24 := by
    have hle := length_tlv tag content
    have hall := length_slice (i := offset) hstop
    rw [hslice, List.length_append] at hall
    omega
  exact readLength_tlv (by decide) hstop hlen hslice

/-- **The loop over the ASDUs returns them in order**, by induction over their list. -/
theorem decodeASDUs_eq {seqEnd fuel offset : ℕ} {out : DecodedFrame} (hend : seqEnd ≤ frame.length)
    (hfuel : seqEnd - offset < fuel) (hfits : ∀ a ∈ asdus, a.Fits)
    (hslice : slice frame offset seqEnd = asdus.flatMap fun a ↦ tlv 0x30 (asduContent a)) :
    decodeASDUs h frame seqEnd fuel offset out =
      .ok { out with asdus := out.asdus ++ asdus.map fun a ↦ a.content.withHeaders h } := by
  induction asdus generalizing fuel offset out with
  | nil =>
      obtain ⟨fuel, rfl⟩ := Nat.exists_eq_add_one_of_ne_zero (Nat.ne_zero_of_lt hfuel)
      have hdone : ¬ offset < seqEnd := by
        have hlen := length_slice (i := offset) hend
        rw [hslice, List.flatMap_nil, List.length_nil] at hlen
        omega
      rw [decodeASDUs, if_neg hdone, List.map_nil, List.append_nil]
  | cons a asdus ih =>
      obtain ⟨fuel, rfl⟩ := Nat.exists_eq_add_one_of_ne_zero (Nat.ne_zero_of_lt hfuel)
      rw [List.forall_mem_cons] at hfits
      obtain ⟨htag, offset', hlt, hread, hroom, hcontent, hrest⟩ := berLength_tlv hshort hend hslice
      have hasdu := decodeASDU_content hfits.1 (show offset' + (asduContent a).length ≤ frame.length
        by omega) (by omega) hcontent
      have hexceeds : ¬ seqEnd < offset' + (asduContent a).length := not_lt.mpr hroom
      rw [decodeASDUs, if_pos (by omega), index_eq_ok.mpr htag, ok_bind, if_neg (by decide),
        hread, ok_bind]
      dsimp only
      rw [if_neg hexceeds, if_neg hexceeds, hasdu, ok_bind]
      dsimp only
      rw [ih (by omega) hfits.2 hrest]
      simp only [List.map_nil, List.append_nil, List.map_cons, List.append_assoc,
        List.singleton_append]

theorem readNoASDU_eq {offset savEnd : ℕ} {rest : Bytes} {n : UInt32} (hend : savEnd ≤ frame.length)
    (hslice : slice frame offset savEnd = tlv 0x80 (countOctets n) ++ rest) :
    ∃ offset', readNoASDU frame offset savEnd = .ok (n.toNat, offset', []) ∧ offset < offset' ∧
      slice frame offset' savEnd = rest := by
  have hpos : 0 < (countOctets n).length := by
    rw [countOctets, length_beBytes, berUintSize]
    split_ifs <;> decide
  obtain ⟨htag, offset', hlt, hread, hroom, hcontent, hrest⟩ := berLength_tlv hshort hend hslice
  have hsub : (sub frame offset' (offset' + (countOctets n).length) : Result Bytes) =
      .ok (countOctets n) := sub_eq_ok.mpr ⟨by omega, hcontent⟩
  refine ⟨offset' + (countOctets n).length, ?_, by omega, hrest⟩
  unfold readNoASDU
  rw [if_pos (by omega), index_eq_ok.mpr htag, ok_bind, ok_bind]
  dsimp only
  rw [if_pos (by decide), hread, ok_bind]
  dsimp only
  rw [if_neg (not_lt.mpr hroom), hsub, ok_bind, if_pos hpos, berUint_countOctets]

/-- What is inside the savPDU. -/
theorem decodeSavPDU_eq {offset savEnd : ℕ} {out : DecodedFrame} (hend : savEnd ≤ frame.length)
    (hcount : asdus.length < 2 ^ 32) (hfits : ∀ a ∈ asdus, a.Fits) (hout : out.asdus = [])
    (hslice : slice frame offset savEnd = tlv 0x80 (countOctets (UInt32.ofNat asdus.length)) ++
      tlv 0xA2 (asdus.flatMap fun a ↦ tlv 0x30 (asduContent a))) :
    decodeSavPDU h frame offset savEnd out = .ok { out with
      asdus := asdus.map fun a ↦ a.content.withHeaders h
      declaredASDU := asdus.length
      actualASDUs := asdus.length } := by
  have hn : (UInt32.ofNat asdus.length).toNat = asdus.length := by
    rw [UInt32.toNat_ofNat', Nat.mod_eq_of_lt hcount]
  obtain ⟨offset₁, hnoASDU, -, hslice₁⟩ := readNoASDU_eq hshort hend hslice
  rw [← List.append_nil (tlv 0xA2 _)] at hslice₁
  obtain ⟨htag, offset₂, hlt, hread, hroom, hcontent, -⟩ := berLength_tlv hshort hend hslice₁
  generalize hseq : (asdus.flatMap fun a ↦ tlv 0x30 (asduContent a)).length = seqLen at *
  have hexceeds : ¬ savEnd < offset₂ + seqLen := not_lt.mpr hroom
  have hasdus : decodeASDUs h frame (offset₂ + seqLen) (frame.length + 1) offset₂
      { out with declaredASDU := asdus.length } = _ :=
    decodeASDUs_eq hshort (by omega) (by omega) hfits hcontent
  unfold decodeSavPDU
  rw [hnoASDU, ok_bind]
  dsimp only
  rw [hn, if_neg (by omega), index_eq_ok.mpr htag, ok_bind, if_neg (by decide), hread, ok_bind]
  dsimp only
  rw [if_neg hexceeds, if_neg hexceeds, List.append_nil, List.append_nil, hasdus, ok_bind]
  simp only [hout, List.nil_append, List.length_map, ne_eq, not_true_eq_false, if_false,
    List.append_nil]

end Frames

/-- An ASDU that comes back inside the headers of its frame. -/
theorem content_withHeaders {a first : ASDU} (ha : SameHeader a first) {apduLength offset : ℕ} :
    a.content.withHeaders ⟨⟨first.dstMAC, first.srcMAC, first.vlan, etherType, offset⟩,
      ⟨first.appID, apduLength, if first.simulation then 0x8000 else 0⟩, 0⟩ =
      a.decoded apduLength := by
  have hsim : ((if first.simulation then 0x8000 else 0 : UInt16) &&& 0x8000 != 0) =
      first.simulation := by
    cases first.simulation <;> rfl
  unfold ASDU.withHeaders ASDU.decoded
  dsimp only
  rw [hsim, ha.dstMAC, ha.srcMAC, ha.vlan, ha.appID, ha.simulation]

theorem length_le_savPDU (asdus : List ASDU) : asdus.length ≤ (savPDU asdus).length := by
  have hseq : asdus.length ≤ (asdus.flatMap fun a ↦ tlv 0x30 (asduContent a)).length := by
    induction asdus with
    | nil => exact le_rfl
    | cons a asdus ih =>
        have := length_tlv 0x30 (asduContent a)
        rw [List.length_cons, List.flatMap_cons, List.length_append]
        omega
  have hinner := length_tlv 0xA2 (asdus.flatMap fun a ↦ tlv 0x30 (asduContent a))
  have houter := length_tlv 0x60 (tlv 0x80 (countOctets (UInt32.ofNat asdus.length)) ++
    tlv 0xA2 (asdus.flatMap fun a ↦ tlv 0x30 (asduContent a)))
  rw [List.length_append] at houter
  unfold savPDU
  omega

/-- The frame around a savPDU. -/
def frameOf (first : ASDU) (payload : Bytes) : Bytes :=
  writeEthernetHeader first.dstMAC first.srcMAC first.vlan etherType ++
    (apduHeader first.appID (8 + payload.length) first.simulation ++ payload)

/-- The headers that the decoder finds in the frame. -/
abbrev headersOf (first : ASDU) (apduLength offset : ℕ) : Headers where
  header := ⟨first.dstMAC, first.srcMAC, first.vlan, etherType, offset⟩
  apdu := ⟨first.appID, apduLength, if first.simulation then 0x8000 else 0⟩
  reserved2 := 0

/-- The headers of a frame are read back, and behind them stands its payload. -/
theorem readHeaders_frameOf {first : ASDU} {rest : List ASDU} (hfits : FrameFits first rest)
    {payload : Bytes} (hlen : 8 + payload.length ≤ 65535) :
    ∃ offset, (∀ short truncated : DecodeError Message,
        readHeader short truncated (frameOf first payload) =
          .ok (headersOf first (8 + payload.length) offset).header) ∧
      (∀ short : DecodeError Message, readApduHeader short (frameOf first payload) offset =
        .ok (headersOf first (8 + payload.length) offset).apdu) ∧
      (readUint16 (frameOf first payload) (offset + 6) : Result UInt16) = .ok 0 ∧
      (frameOf first payload).length = offset + 8 + payload.length ∧ offset ≤ 18 ∧
      (frameOf first payload).drop (offset + 8) = payload := by
  obtain ⟨offset, hheader⟩ := isHeader_writeEthernetHeader hfits.dstMAC hfits.srcMAC hfits.vlan
    (show etherType ≠ etherTypeVLAN by decide)
  have hreserved : (if first.simulation then 0x8000 else 0 : UInt16).toNat =
      if first.simulation then 0x8000 else 0 := by
    cases first.simulation <;> rfl
  have hdrop : (frameOf first payload).drop offset = beBytes 2 first.appID.toNat ++
      (beBytes 2 (8 + payload.length) ++
        (beBytes 2 (if first.simulation then 0x8000 else 0 : UInt16).toNat ++
          (beBytes 2 0 ++ payload))) := by
    rw [hreserved, frameOf, List.drop_left' hheader.length_eq, apduHeader]
    simp only [List.append_assoc]
  have hdrop₂ := drop_of_drop hdrop (j := offset + 2) rfl
  have hdrop₄ := drop_of_drop hdrop₂ (j := offset + 4) rfl
  have hdrop₆ := drop_of_drop hdrop₄ (j := offset + 6) rfl
  refine ⟨offset, fun _ _ ↦ readHeader_eq_ok.mpr ⟨_, _, rfl, hheader⟩, fun _ ↦ ?_,
    readUint16_eq_ok.mpr ⟨payload, hdrop₆⟩, ?_, hheader.offset_le, drop_of_drop hdrop₆ rfl⟩
  · exact readApduHeader_eq_ok.mpr ⟨Nat.lt_succ_of_le hlen, beBytes 2 0, payload, rfl, hdrop⟩
  · rw [frameOf, List.length_append, hheader.length_eq]
    simp only [apduHeader, List.length_append, length_beBytes]
    omega

/-- **A frame that was written is decoded to its ASDUs, without a warning.** -/
theorem decodeFrame_frameOf {first : ASDU} {rest : List ASDU} (hfits : FrameFits first rest)
    (hlen : 8 + (savPDU (first :: rest)).length ≤ 65535) :
    decodeFrame (frameOf first (savPDU (first :: rest))) =
      .ok
        { asdus := (first :: rest).map (.decoded (8 + (savPDU (first :: rest)).length))
          etherType
          declaredASDU := (first :: rest).length
          actualASDUs := (first :: rest).length } := by
  have hcount := length_le_savPDU (first :: rest)
  have hdecoded (offset : ℕ) : ((first :: rest).map fun a ↦ a.content.withHeaders
      (headersOf first (8 + (savPDU (first :: rest)).length) offset)) =
      (first :: rest).map (.decoded (8 + (savPDU (first :: rest)).length)) :=
    List.map_congr_left fun a ha ↦ content_withHeaders (hfits.shared a ha)
  obtain ⟨offset, hheader, hapdu, hreserved2, hframe, hle, hdrop⟩ := readHeaders_frameOf hfits hlen
  have hslice : slice (frameOf first (savPDU (first :: rest))) (offset + 8)
      (frameOf first (savPDU (first :: rest))).length = savPDU (first :: rest) ++ [] := by
    rw [slice, List.take_length, hdrop, List.append_nil]
  generalize hfr : frameOf first (savPDU (first :: rest)) = frame at *
  have hshort : frame.length < 2 ^ 24 := by omega
  obtain ⟨htag, offset', hlt, hread, hroom, hcontent, -⟩ := berLength_tlv hshort le_rfl hslice
  have hpos := length_tlv 0x60 (tlv 0x80 (countOctets (UInt32.ofNat (first :: rest).length)) ++
    tlv 0xA2 ((first :: rest).flatMap fun a ↦ tlv 0x30 (asduContent a)))
  rw [← savPDU] at hpos
  have hsav {out : DecodedFrame} (hout : out.asdus = []) := decodeSavPDU_eq
    (h := headersOf first (8 + (savPDU (first :: rest)).length) offset) hshort hroom (by omega)
    hfits.asdus hout hcontent
  have hend : offset + 8 + (8 + (savPDU (first :: rest)).length) - 8 = frame.length := by omega
  unfold decodeFrame
  rw [hheader, ok_bind]
  dsimp only [headersOf] at hapdu ⊢
  rw [if_neg (show ¬ etherType ≠ etherType from fun h ↦ h rfl), hapdu, ok_bind, hreserved2, ok_bind]
  dsimp only
  rw [if_neg (by omega), hend, if_neg (lt_irrefl _), if_neg (lt_irrefl _), if_neg (by omega),
    index_eq_ok.mpr htag, ok_bind, if_neg (by decide), hread, ok_bind]
  dsimp only
  rw [if_neg (not_lt.mpr hroom), if_neg (not_lt.mpr hroom)]
  refine (hsav rfl).trans ?_
  rw [hdecoded]
  rfl

/-- The live decoder takes such a frame. -/
theorem decode_frameOf {first : ASDU} {rest : List ASDU} (hfits : FrameFits first rest)
    (hlen : 8 + (savPDU (first :: rest)).length ≤ 65535) :
    decode (frameOf first (savPDU (first :: rest))) =
      .ok ((first :: rest).map (.decoded (8 + (savPDU (first :: rest)).length))) := by
  unfold decode
  rw [decodeFrame_frameOf hfits hlen, ok_bind, if_neg nofun, if_neg nofun]
  rfl

theorem encode_eq (first : ASDU) (rest : List ASDU) :
    encode (first :: rest) = if 65535 < 8 + (savPDU (first :: rest)).length then none
      else some (frameOf first (savPDU (first :: rest))) := by
  unfold encode frameOf
  dsimp only
  rw [appendSavPDU_eq]

/-- **Sampled Values survive the way over the wire**: `encode` refuses exactly the ASDUs that do not
fit an APDU; otherwise every container has the length of what it contains, and the live decoder
returns the ASDUs in order, up to what the format keeps of them. -/
theorem decode_encode_asdus {first : ASDU} {rest : List ASDU} (hfits : FrameFits first rest) :
    (encode (first :: rest) = none ↔ 65535 < 8 + (savPDU (first :: rest)).length) ∧
      ∀ frame, encode (first :: rest) = some frame →
        frame = frameOf first (savPDU (first :: rest)) ∧
        decode frame = .ok ((first :: rest).map
          (.decoded (8 + (savPDU (first :: rest)).length))) := by
  rw [encode_eq]
  split
  · rename_i hlong
    exact ⟨iff_of_true rfl hlong, nofun⟩
  · rename_i hlen
    refine ⟨iff_of_false nofun hlen, ?_⟩
    rintro frame ⟨⟩
    exact ⟨rfl, decode_frameOf hfits (not_lt.mp hlen)⟩

/-- An ASDU with all optional fields and an accuracy of six bits. -/
def exampleASDU : ASDU where
  dstMAC := [1, 0x0C, 0xCD, 4, 0, 1]
  srcMAC := [2, 0, 0, 0, 0, 1]
  vlan := some ⟨4, false, 7⟩
  appID := 0x4000
  svID := [0x4D, 0x55]
  datSet := [0x64]
  refrTm := .ofUnix 1 5
  refrTmQ := { accuracy := 32 }
  smpSynch := 2
  smpRate := 4000
  smpMod := 1
  channels := .ofFn fun ch ↦ -1 - .ofNat ch

/-- The same with nothing optional. -/
def plainASDU : ASDU :=
  { exampleASDU with datSet := [], refrTm := .zero, refrTmQ := {}, smpRate := 0, smpMod := 0 }

theorem exampleASDU_fits : FrameFits exampleASDU [plainASDU] where
  dstMAC := rfl
  srcMAC := rfl
  vlan := by
    rintro v ⟨⟩
    exact ⟨by decide, by decide⟩
  shared := by
    intro a ha
    rcases List.mem_pair.mp ha with rfl | rfl <;> exact ⟨rfl, rfl, rfl, rfl, rfl⟩
  asdus := by
    intro a ha
    rcases List.mem_pair.mp ha with rfl | rfl
    · exact ⟨by decide, .inr (by decide), by decide, by decide⟩
    · exact ⟨by decide, .inl rfl, by decide, by decide⟩

theorem decode_encode_asdus_two :
    (encode [exampleASDU, plainASDU]).isSome ∧
      (encode [exampleASDU, plainASDU]).map decode =
        some (.ok ([exampleASDU, plainASDU].map
          (.decoded (8 + (savPDU [exampleASDU, plainASDU]).length)))) := by
  obtain ⟨hnone, hsome⟩ := decode_encode_asdus exampleASDU_fits
  have hlen : ¬ 65535 < 8 + (savPDU [exampleASDU, plainASDU]).length := by decide +kernel
  obtain ⟨frame, hframe⟩ := Option.ne_none_iff_exists'.mp (mt hnone.mp hlen)
  rw [hframe]
  exact ⟨rfl, congrArg some (hsome frame hframe).2⟩

/-- Of the accuracy only five bits come back. -/
theorem accuracy_masked :
    FrameFits exampleASDU [plainASDU] ∧ exampleASDU.refrTmQ.accuracy = 32 ∧
      ∃ frame a b, encode [exampleASDU, plainASDU] = some frame ∧ decode frame = .ok [a, b] ∧
        a.refrTmQ.accuracy = 0 := by
  have hlen : 8 + (savPDU [exampleASDU, plainASDU]).length ≤ 65535 := by decide +kernel
  refine ⟨exampleASDU_fits, rfl, _, _, _, ?_, decode_frameOf exampleASDU_fits hlen, rfl⟩
  rw [encode_eq, if_neg (not_lt.mpr hlen)]

/-! ## Times from the wire and back -/

/-- `appendUtcTime`: the array `encoded` is filled as `encodeUtcTime` of the GOOSE codec fills its
buffer.  `decodeUtcTime` has one body in both packages. -/
def appendUtcTime (dst : Bytes) (t : Time) (q : TimeQuality) : Bytes := dst ++ encodeUtcTime t q

/-- A `refrTm` that is decoded and encoded again. -/
def recodeRefrTm (b : Bytes) : Bytes := appendUtcTime [] (decodeUtcTime b).1 (decodeUtcTime b).2

theorem recodeRefrTm_eq : recodeRefrTm = recodeUtcTime := rfl

/-- **In both codecs a time survives decoding and encoding, once and any number of times, exactly if
its fraction is a multiple of 2¹⁵**, that is, if the instant is a whole number of nanoseconds. -/
theorem utcTime_stable_iff {b : Bytes} (h : b.length = 8) :
    (recodeUtcTime b = b ∧ (∀ k, recodeUtcTime^[k] b = b) ↔ beNat (slice b 4 7) % 2 ^ 15 = 0) ∧
      ((∀ dst, appendUtcTime dst (decodeUtcTime b).1 (decodeUtcTime b).2 = dst ++ b) ∧
        (∀ k, recodeRefrTm^[k] b = b) ↔ beNat (slice b 4 7) % 2 ^ 15 = 0) := by
  obtain ⟨hone, hall⟩ := recodeUtcTime_eq_iff h
  rw [recodeRefrTm_eq]
  constructor
  · exact ⟨fun hstable ↦ hone.mp hstable.1, fun hfrac ↦ ⟨hone.mpr hfrac, hall.mpr hfrac⟩⟩
  · refine ⟨fun hstable ↦ hall.mp hstable.2, fun hfrac ↦ ⟨fun dst ↦ ?_, hall.mpr hfrac⟩⟩
    exact congrArg (dst ++ ·) (hone.mpr hfrac)

/-- Half a second after midnight. -/
theorem utcTime_stable_half :
    recodeUtcTime [0, 0, 0, 0, 0x80, 0, 0, 0x2A] = [0, 0, 0, 0, 0x80, 0, 0, 0x2A] ∧
      ∀ k, recodeRefrTm^[k] [0, 0, 0, 0, 0x80, 0, 0, 0x2A] = [0, 0, 0, 0, 0x80, 0, 0, 0x2A] := by
  have hlen : ([0, 0, 0, 0, 0x80, 0, 0, 0x2A] : Bytes).length = 8 := rfl
  obtain ⟨hgoose, hsv⟩ := utcTime_stable_iff hlen
  exact ⟨(hgoose.mpr (by decide)).1, (hsv.mpr (by decide)).2⟩

/-- The smallest fraction is 59 ns to the decoder, and 59 ns are nothing to the encoder. -/
theorem utcTime_drifts :
    recodeUtcTime [0, 0, 0, 0, 0, 0, 1, 0] = [0, 0, 0, 0, 0, 0, 0, 0] ∧
      recodeRefrTm [0, 0, 0, 0, 0, 0, 1, 0] = [0, 0, 0, 0, 0, 0, 0, 0] ∧
      ¬ ∀ b : Bytes, b.length = 8 → recodeUtcTime b = b := by
  have hzero : recodeUtcTime [0, 0, 0, 0, 0, 0, 1, 0] = [0, 0, 0, 0, 0, 0, 0, 0] := by
    decide +kernel
  refine ⟨hzero, by rw [recodeRefrTm_eq, hzero], fun hall ↦ ?_⟩
  have hsame := hall [0, 0, 0, 0, 0, 0, 1, 0] rfl
  rw [hzero] at hsame
  exact absurd hsame (by decide)

end ProcessBus.Sv.Wire
