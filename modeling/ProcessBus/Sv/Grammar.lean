import ProcessBus.Sv.Padding
import ProcessBus.Sv.RoundTrip

/-!
# What the live decoder accepts

The offline decoder shows as much of a damaged frame as it can: it clamps a container that is too
long, and notes a field that is missing or has the wrong length.  Each of these leaves a warning
that keeps the frame from the live path, so a frame that `decode` accepts is what `Accepted` says:
an APDU that lies within the frame, one savPDU inside it, a noASDU field and a sequence of ASDUs
inside that, the ASDUs tiling the sequence and their fields tiling them.

`Effect` says once what a field does that leaves no warning; what the fields of an ASDU have
determined together is `Filled`, an invariant of the loop over them.

The exception is the number of ASDUs: a noASDU field without content counts as one, and of a long
one only the low 32 bits are read (`declared_count`).
-/

namespace ProcessBus.Sv.Wire

open Go Goose Ethernet Lib Lib.Checked Lib.Ber

/-! ## Fields -/

/-- What a field without a warning does to the ASDU. -/
inductive Effect (a : ASDU) : UInt8 → Bytes → ASDU → Prop
  | svID {data : Bytes} (h : data ≠ []) :
      Effect a 0x80 data { a with svID := data, hasSvID := true }
  | datSet {data : Bytes} : Effect a 0x81 data { a with datSet := data }
  | smpCnt {data : Bytes} (h : data.length = 2) :
      Effect a 0x82 data { a with smpCnt := (berUint data).toUInt16, hasSmpCnt := true }
  | confRev {data : Bytes} (h : data.length = 4) :
      Effect a 0x83 data { a with confRev := uint32At data 0, hasConfRev := true }
  | refrTm {data : Bytes} (h : data.length = 8) :
      Effect a 0x84 data { a with
        refrTm := (decodeUtcTime data).1
        refrTmQ := (decodeUtcTime data).2
        hasRefrTm := true }
  | smpSynch {value : UInt8} (h : value ≤ 2) :
      Effect a 0x85 [value] { a with smpSynch := value, hasSmpSynch := true }
  | smpRate {data : Bytes} (h : data.length = 2) :
      Effect a 0x86 data { a with smpRate := (berUint data).toUInt16, hasSmpRate := true }
  | seqData {data : Bytes} (h : data.length = seqDataLen) :
      Effect a 0x87 data { a with
        hasSeqData := true
        seqData := data
        channels := .ofFn (channelAt data ·)
        quality := .ofFn (qualityAt data ·) }
  | smpMod {data : Bytes} (h : data.length = 2) (hle : uint16At data 0 ≤ 2) :
      Effect a 0x88 data { a with smpMod := (uint16At data 0).toUInt8, hasSmpMod := true }
  | unknown {tag : UInt8} {data : Bytes}
      (h : tag ∉ [0x80, 0x81, 0x82, 0x83, 0x84, 0x85, 0x86, 0x87, 0x88]) : Effect a tag data a

variable {a a' : ASDU} {ws ws' : List DecodeWarning} {tag : UInt8} {data : Bytes}

theorem quiet_checkLength {expected : ℕ} (h : Quiet (checkLength tag data expected)) :
    data.length = expected := by
  unfold checkLength at h
  exact not_not.mp (not_of_quiet_ite h)

/-- A field adds to the warnings; if they stay quiet, its effect is the one above. -/
theorem decodeField_quiet (h : decodeField (a, ws) tag data = .ok (a', ws')) (hq : Quiet ws') :
    Quiet ws ∧ Effect a tag data a' := by
  unfold decodeField at h
  dsimp only at h
  by_cases h80 : tag = 0x80
  · rw [if_pos h80] at h
    cases h
    rw [quiet_append] at hq
    subst h80
    exact ⟨hq.1, .svID fun hnil ↦ not_of_quiet_ite hq.2 (by rw [hnil]; rfl)⟩
  rw [if_neg h80] at h
  by_cases h81 : tag = 0x81
  · rw [if_pos h81] at h
    cases h
    subst h81
    exact ⟨hq, .datSet⟩
  rw [if_neg h81] at h
  by_cases h82 : tag = 0x82
  · rw [if_pos h82] at h
    cases h
    rw [quiet_append] at hq
    subst h82
    exact ⟨hq.1, .smpCnt (quiet_checkLength hq.2)⟩
  rw [if_neg h82] at h
  by_cases h83 : tag = 0x83
  · rw [if_pos h83, guard_eq_ok] at h
    obtain ⟨hlen, h⟩ := h
    cases h
    subst h83
    exact ⟨hq, .confRev (not_not.mp hlen)⟩
  rw [if_neg h83] at h
  by_cases h84 : tag = 0x84
  · rw [if_pos h84, readUtcTime_eq, ok_bind] at h
    cases h
    rw [quiet_append] at hq
    subst h84
    exact ⟨hq.1, .refrTm (quiet_checkLength hq.2)⟩
  rw [if_neg h84] at h
  by_cases h85 : tag = 0x85
  · rw [if_pos h85] at h
    subst h85
    split at h
    · rw [bind_eq_ok] at h
      obtain ⟨value, hvalue, h⟩ := h
      cases h
      rw [quiet_append, quiet_append] at hq
      obtain ⟨b, rfl⟩ := List.length_eq_one_iff.mp (quiet_checkLength hq.1.2)
      obtain rfl : b = value := Option.some.inj (index_eq_ok.mp hvalue)
      exact ⟨hq.1.1, .smpSynch (UInt8.not_lt.mp (not_of_quiet_ite hq.2))⟩
    · rename_i hpos
      cases h
      rw [quiet_append] at hq
      have := quiet_checkLength hq.2
      omega
  rw [if_neg h85] at h
  by_cases h86 : tag = 0x86
  · rw [if_pos h86] at h
    cases h
    rw [quiet_append] at hq
    subst h86
    exact ⟨hq.1, .smpRate (quiet_checkLength hq.2)⟩
  rw [if_neg h86] at h
  by_cases h87 : tag = 0x87
  · rw [if_pos h87] at h
    subst h87
    split at h
    · cases h
      rw [quiet_append] at hq
      exact ⟨hq.1, .seqData (quiet_checkLength hq.2)⟩
    · rename_i hshort
      cases h
      rw [quiet_append] at hq
      have := quiet_checkLength hq.2
      omega
  rw [if_neg h87] at h
  by_cases h88 : tag = 0x88
  · rw [if_pos h88, guard_eq_ok, guard_eq_ok] at h
    obtain ⟨hlen, hle, h⟩ := h
    cases h
    subst h88
    exact ⟨hq, .smpMod (not_not.mp hlen) (UInt16.not_lt.mp hle)⟩
  rw [if_neg h88] at h
  cases h
  rw [quiet_append] at hq
  exact ⟨hq.1, .unknown (by simp [h80, h81, h82, h83, h84, h85, h86, h87, h88])⟩

/-- The content of the last field with a tag. -/
def lastField (items : List (UInt8 × Bytes)) (tag : UInt8) : Option Bytes :=
  items.reverse.lookup tag

theorem lastField_concat_self (items : List (UInt8 × Bytes)) (tag : UInt8) (data : Bytes) :
    lastField (items ++ [(tag, data)]) tag = some data := by
  rw [lastField, List.reverse_append]
  exact List.lookup_cons_self

theorem lastField_concat_ne (items : List (UInt8 × Bytes)) {tag tag' : UInt8} (data : Bytes)
    (h : tag' ≠ tag) : lastField (items ++ [(tag, data)]) tag' = lastField items tag' := by
  rw [lastField, List.reverse_append]
  show List.lookup tag' ((tag, data) :: items.reverse) = _
  rw [List.lookup_cons, beq_false_of_ne h]
  rfl

/-- A field is either absent and not noted, or present and noted with what `ok` says of it. -/
def Noted (content : Option Bytes) (seen : Bool) (ok : Bytes → Prop) : Prop :=
  (seen = false ∧ content = none) ∨ (seen = true ∧ ∃ data, content = some data ∧ ok data)

/-- What the fields read so far have determined. -/
structure Filled (items : List (UInt8 × Bytes)) (a : ASDU) : Prop where
  svID : Noted (lastField items 0x80) a.hasSvID fun data ↦ data ≠ [] ∧ a.svID = data
  smpCnt : Noted (lastField items 0x82) a.hasSmpCnt fun data ↦
    data.length = 2 ∧ a.smpCnt.toNat = beNat data
  confRev : Noted (lastField items 0x83) a.hasConfRev fun data ↦
    data.length = 4 ∧ a.confRev.toNat = beNat data
  refrTm : Noted (lastField items 0x84) a.hasRefrTm fun data ↦
    data.length = 8 ∧ (a.refrTm, a.refrTmQ) = decodeUtcTime data
  smpSynch : Noted (lastField items 0x85) a.hasSmpSynch fun data ↦
    data = [a.smpSynch] ∧ a.smpSynch ≤ 2
  seqData : Noted (lastField items 0x87) a.hasSeqData fun data ↦
    data.length = 64 ∧ a.seqData = data ∧ ∀ ch : Fin numChannels,
      (a.channels.get ch).toUInt32.toNat = beNat (slice data (ch * 8) (ch * 8 + 4)) ∧
        (a.quality.get ch).toNat = beNat (slice data (ch * 8 + 4) (ch * 8 + 8))
  smpMod : Noted (lastField items 0x88) a.hasSmpMod fun data ↦
    data.length = 2 ∧ a.smpMod.toNat = beNat data ∧ a.smpMod ≤ 2

theorem toNat_uint32At {i : ℕ} (h : i + 4 ≤ data.length) :
    (uint32At data i).toNat = beNat (slice data i (i + 4)) := by
  have hlt := beNat_lt (slice data i (i + 4))
  rw [length_slice h, Nat.add_sub_cancel_left] at hlt
  rw [uint32At, UInt32.toNat_ofNat']
  exact Nat.mod_eq_of_lt hlt

theorem toNat_uint16At (h : data.length = 2) : (uint16At data 0).toNat = beNat data := by
  have hlt := beNat_lt data
  have hall : slice data 0 2 = data := by
    rw [slice, ← h, List.take_length, List.drop_zero]
  rw [h] at hlt
  rw [uint16At, hall, UInt16.toNat_ofNat']
  exact Nat.mod_eq_of_lt hlt

theorem toNat_berUint_word (h : data.length = 2) :
    (berUint data).toUInt16.toNat = beNat data := by
  have hlt := beNat_lt data
  rw [h] at hlt
  rw [berUint, UInt32.toNat_toUInt16, UInt32.toNat_ofNat']
  omega

theorem filled_nil : Filled [] {} := by
  constructor <;> exact .inl ⟨rfl, rfl⟩

section Noted

variable {items : List (UInt8 × Bytes)} {seen : Bool} {ok : Bytes → Prop}

/-- A field is noted with its content. -/
theorem noted_concat (h : ok data) : Noted (lastField (items ++ [(tag, data)]) tag) true ok :=
  .inr ⟨rfl, data, lastField_concat_self items tag data, h⟩

/-- A field with another tag changes nothing. -/
theorem Noted.skip {tag' : UInt8} (h : Noted (lastField items tag') seen ok)
    (hne : tag' ≠ tag := by decide) :
    Noted (lastField (items ++ [(tag, data)]) tag') seen ok := by
  rw [lastField_concat_ne items data hne]
  exact h

/-- A field that has been noted is there. -/
theorem Noted.exists_of_seen {content : Option Bytes} (h : Noted content seen ok)
    (hseen : seen = true) : ∃ data, content = some data ∧ ok data := by
  rcases h with ⟨hfalse, -⟩ | ⟨-, hdata⟩
  · rw [hfalse] at hseen
    cases hseen
  · exact hdata

end Noted

theorem filled_seqData (hlen : data.length = seqDataLen) (ch : Fin numChannels) :
    ((Vector.ofFn (channelAt data ·) : Channels Int32).get ch).toUInt32.toNat =
        beNat (slice data (ch * 8) (ch * 8 + 4)) ∧
      ((Vector.ofFn (qualityAt data ·) : Channels UInt32).get ch).toNat =
        beNat (slice data (ch * 8 + 4) (ch * 8 + 8)) := by
  have hroom : ch * 8 + 8 ≤ data.length := by
    have := ch.isLt
    rw [hlen, seqDataLen]
    omega
  have hget {α : Type} (f : Fin numChannels → α) : (Vector.ofFn f).get ch = f ch := by
    show (Vector.ofFn f)[ch.1] = f ch
    rw [Vector.getElem_ofFn]
  rw [hget, hget, channelAt, qualityAt]
  constructor
  · rw [UInt32.toUInt32_toInt32]
    exact toNat_uint32At (by omega)
  · exact toNat_uint32At (by omega)

/-- **One field** more. -/
theorem Filled.effect {items : List (UInt8 × Bytes)} (h : Filled items a)
    (he : Effect a tag data a') : Filled (items ++ [(tag, data)]) a' := by
  cases he with
  | svID hne =>
      exact ⟨noted_concat ⟨hne, rfl⟩, h.smpCnt.skip, h.confRev.skip, h.refrTm.skip, h.smpSynch.skip,
        h.seqData.skip, h.smpMod.skip⟩
  | datSet =>
      exact ⟨h.svID.skip, h.smpCnt.skip, h.confRev.skip, h.refrTm.skip, h.smpSynch.skip,
        h.seqData.skip, h.smpMod.skip⟩
  | smpCnt hlen =>
      exact ⟨h.svID.skip, noted_concat ⟨hlen, toNat_berUint_word hlen⟩, h.confRev.skip,
        h.refrTm.skip, h.smpSynch.skip, h.seqData.skip, h.smpMod.skip⟩
  | confRev hlen =>
      have hvalue : (uint32At data 0).toNat = beNat data := by
        rw [toNat_uint32At (by omega), slice, ← hlen, Nat.zero_add, List.take_length,
          List.drop_zero]
      exact ⟨h.svID.skip, h.smpCnt.skip, noted_concat ⟨hlen, hvalue⟩, h.refrTm.skip,
        h.smpSynch.skip, h.seqData.skip, h.smpMod.skip⟩
  | refrTm hlen =>
      exact ⟨h.svID.skip, h.smpCnt.skip, h.confRev.skip, noted_concat ⟨hlen, rfl⟩, h.smpSynch.skip,
        h.seqData.skip, h.smpMod.skip⟩
  | smpSynch hle =>
      exact ⟨h.svID.skip, h.smpCnt.skip, h.confRev.skip, h.refrTm.skip, noted_concat ⟨rfl, hle⟩,
        h.seqData.skip, h.smpMod.skip⟩
  | smpRate hlen =>
      exact ⟨h.svID.skip, h.smpCnt.skip, h.confRev.skip, h.refrTm.skip, h.smpSynch.skip,
        h.seqData.skip, h.smpMod.skip⟩
  | seqData hlen =>
      exact ⟨h.svID.skip, h.smpCnt.skip, h.confRev.skip, h.refrTm.skip, h.smpSynch.skip,
        noted_concat ⟨hlen, rfl, filled_seqData hlen⟩, h.smpMod.skip⟩
  | smpMod hlen hle =>
      have hword : (uint16At data 0).toNat ≤ 2 := UInt16.le_iff_toNat_le.mp hle
      have hbyte : (uint16At data 0).toUInt8.toNat = (uint16At data 0).toNat := by
        rw [UInt16.toNat_toUInt8]
        omega
      have hvalue : (uint16At data 0).toUInt8.toNat = beNat data := by
        rw [hbyte, toNat_uint16At hlen]
      have hlegal : (uint16At data 0).toUInt8 ≤ 2 := by
        rw [UInt8.le_iff_toNat_le, hbyte]
        exact hword
      exact ⟨h.svID.skip, h.smpCnt.skip, h.confRev.skip, h.refrTm.skip, h.smpSynch.skip,
        h.seqData.skip, noted_concat ⟨hlen, hvalue, hlegal⟩⟩
  | unknown hno =>
      have hne {tag' : UInt8}
          (h' : tag' ∈ [0x80, 0x81, 0x82, 0x83, 0x84, 0x85, 0x86, 0x87, 0x88]) : tag' ≠ tag := by
        rintro rfl
        exact hno h'
      exact ⟨h.svID.skip (hne (by decide)), h.smpCnt.skip (hne (by decide)),
        h.confRev.skip (hne (by decide)), h.refrTm.skip (hne (by decide)),
        h.smpSynch.skip (hne (by decide)), h.seqData.skip (hne (by decide)),
        h.smpMod.skip (hne (by decide))⟩

/-- **The loop over the fields**, from the last one backwards. -/
theorem filled_readFields {items : List (UInt8 × Bytes)}
    (h : readFields items ({}, []) = .ok (a, ws)) (hq : Quiet ws) : Filled items a := by
  induction items using List.reverseRecOn generalizing a ws with
  | nil =>
      cases h
      exact filled_nil
  | append_singleton items x ih =>
      unfold readFields at h
      rw [List.foldlM_append, bind_eq_ok] at h
      obtain ⟨⟨a₁, ws₁⟩, h₁, h⟩ := h
      rw [List.foldlM_cons, bind_eq_ok] at h
      obtain ⟨s₂, h₂, h⟩ := h
      cases h
      obtain ⟨hq₁, he⟩ := decodeField_quiet h₂ hq
      exact (ih h₁ hq₁).effect he

/-! ## ASDUs -/

/-- What the live path relies on: the mandatory fields are there, and each field is what was read
from the content of the last one with its tag. -/
structure Sound (items : List (UInt8 × Bytes)) (a : ASDU) : Prop where
  svID : ∃ data, lastField items 0x80 = some data ∧ data ≠ [] ∧ a.svID = data
  smpCnt : ∃ data, lastField items 0x82 = some data ∧ data.length = 2 ∧ a.smpCnt.toNat = beNat data
  confRev : ∃ data, lastField items 0x83 = some data ∧ data.length = 4 ∧
    a.confRev.toNat = beNat data
  smpSynch : ∃ data, lastField items 0x85 = some data ∧ data = [a.smpSynch] ∧ a.smpSynch ≤ 2
  seqData : ∃ data, lastField items 0x87 = some data ∧ data.length = 64 ∧ a.seqData = data ∧
    ∀ ch : Fin numChannels,
      (a.channels.get ch).toUInt32.toNat = beNat (slice data (ch * 8) (ch * 8 + 4)) ∧
        (a.quality.get ch).toNat = beNat (slice data (ch * 8 + 4) (ch * 8 + 8))
  /-- Optional. -/
  refrTm : Noted (lastField items 0x84) a.hasRefrTm fun data ↦
    data.length = 8 ∧ (a.refrTm, a.refrTmQ) = decodeUtcTime data
  /-- Optional. -/
  smpMod : Noted (lastField items 0x88) a.hasSmpMod fun data ↦
    data.length = 2 ∧ a.smpMod.toNat = beNat data ∧ a.smpMod ≤ 2

/-- The headers of the frame are not among these fields. -/
theorem Sound.withHeaders {items : List (UInt8 × Bytes)} (h : Sound items a) (hs : Headers) :
    Sound items (a.withHeaders hs) := by
  obtain ⟨h0, h2, h3, h5, h7, h4, h8⟩ := h
  exact ⟨h0, h2, h3, h5, h7, h4, h8⟩

/-- The content of an ASDU container and the ASDU returned for it. -/
def IsASDU (content : Bytes) (a : ASDU) : Prop := ∃ items, Tiles 4 items content ∧ Sound items a

theorem seen_of_quiet {seen : Bool} {m : Message}
    (hq : Quiet (if !seen then [liveWarning m] else [])) : seen = true := by
  have h := not_of_quiet_ite hq
  simpa using h

variable {frame : Bytes} {hs : Headers}

theorem decodeASDU_sound {offset stop : ℕ} (hstop : stop ≤ frame.length)
    (h : decodeASDU frame offset stop = .ok (a, ws)) (hq : Quiet ws) :
    IsASDU (slice frame offset stop) a := by
  rw [decodeASDU, bind_eq_ok] at h
  obtain ⟨⟨a₁, ws₁⟩, hwalk, h⟩ := h
  cases h
  rw [quiet_append] at hq
  obtain ⟨hq₁, hmissing⟩ := hq
  obtain ⟨items, htiles, hread⟩ := (walk_eq_ok hstop (by omega)).mp hwalk
  have hf := filled_readFields hread hq₁
  simp only [missingFields, quiet_append] at hmissing
  obtain ⟨⟨⟨⟨m0, m2⟩, m3⟩, m5⟩, m7⟩ := hmissing
  exact ⟨items, htiles, hf.svID.exists_of_seen (seen_of_quiet m0),
    hf.smpCnt.exists_of_seen (seen_of_quiet m2), hf.confRev.exists_of_seen (seen_of_quiet m3),
    hf.smpSynch.exists_of_seen (seen_of_quiet m5), hf.seqData.exists_of_seen (seen_of_quiet m7),
    hf.refrTm, hf.smpMod⟩

/-- The warnings of an ASDU, placed in the frame, say the same about the live path. -/
theorem quiet_scoped {n : ℕ}
    (hq : Quiet (ws.map fun w ↦ { w with asduScoped := true, asduIndex := n })) : Quiet ws := by
  intro w hw
  exact hq { w with asduScoped := true, asduIndex := n } (List.mem_map.mpr ⟨w, hw, rfl⟩)

/-- **The loop over the ASDUs**: without a live warning their containers tile the sequence. -/
theorem decodeASDUs_sound {seqEnd fuel offset : ℕ} {out r : DecodedFrame}
    (hend : seqEnd ≤ frame.length) (h : decodeASDUs hs frame seqEnd fuel offset out = .ok r)
    (hq : Quiet r.warnings) :
    ∃ contents asdus,
      Tiles 4 (contents.map fun c ↦ ((0x30 : UInt8), c)) (slice frame offset seqEnd) ∧
      List.Forall₂ IsASDU contents asdus ∧ r.asdus = out.asdus ++ asdus := by
  induction fuel generalizing offset out with
  | zero => exact absurd h nofun
  | succ fuel ih =>
      rw [decodeASDUs] at h
      split at h
      · rename_i hlt
        simp only [bind_eq_ok, guard_eq_ok] at h
        obtain ⟨tag, htag, h30, ⟨asduLen, offset'⟩, hlen, ⟨a, ws⟩, hasdu, hrest⟩ := h
        dsimp only at hasdu hrest
        obtain ⟨contents, asdus, htiles, hall, hr⟩ := ih hrest
        obtain ⟨later, hlater⟩ := decodeASDUs_warnings hrest
        rw [hlater, quiet_append, quiet_append, quiet_append] at hq
        have hfits := not_of_quiet_ite hq.1.2.1
        rw [if_neg hfits] at hasdu htiles
        obtain ⟨octets, rest, hdrop, hoctets, rfl⟩ := readLength_eq_ok.mp hlen
        have hcontent := decodeASDU_sound (by omega) hasdu (quiet_scoped hq.1.2.2)
        have hsize : (slice frame (offset + 1 + octets.length)
            (offset + 1 + octets.length + asduLen)).length = asduLen := by
          rw [length_slice (by omega), Nat.add_sub_cancel_left]
        refine ⟨slice frame (offset + 1 + octets.length) (offset + 1 + octets.length + asduLen) ::
          contents, a.withHeaders hs :: asdus, ?_, .cons ?_ hall, ?_⟩
        · rw [slice_tlv (index_eq_ok.mp htag) hdrop (not_lt.mp hfits), not_not.mp h30]
          refine .cons ?_ htiles
          rw [hsize]
          exact hoctets
        · obtain ⟨items, hitems, hsound⟩ := hcontent
          exact ⟨items, hitems, hsound.withHeaders hs⟩
        · rw [hr]
          simp only [List.append_assoc, List.singleton_append]
      · cases h
        have hnil : slice frame offset seqEnd = [] := by
          rw [← List.length_eq_zero_iff, length_slice hend]
          omega
        rw [hnil]
        exact ⟨[], [], .nil, .nil, (List.append_nil _).symm⟩

/-! ## Frames -/

/-- The number of ASDUs that the decoder takes a noASDU field for. -/
def declaredCount (count : Bytes) : ℕ := if 0 < count.length then (berUint count).toNat else 1

/-- The content of a savPDU with the contents of its ASDU containers: the count, and the sequence
that the containers tile; what follows the sequence is not looked at. -/
inductive SavPDU (count : Bytes) (contents : List Bytes) : Bytes → Prop
  | mk {countOctets seqOctets seq trailer : Bytes} (hcount : LengthOf 4 count.length countOctets)
      (hseq : LengthOf 4 seq.length seqOctets)
      (htiles : Tiles 4 (contents.map fun c ↦ ((0x30 : UInt8), c)) seq) :
      SavPDU count contents
        (0x80 :: (countOctets ++ (count ++ 0xA2 :: (seqOctets ++ (seq ++ trailer)))))

/-- A frame of the live path with the ASDUs that are returned for it.  `rest` is what the APDU holds
behind the savPDU, `padding` what the frame holds behind the APDU. -/
inductive Accepted : Bytes → List ASDU → Prop
  | mk {header reserved2 savOctets sav rest padding count : Bytes} {h : Header} {apdu : ApduHeader}
      {contents : List Bytes} {asdus : List ASDU}
      (hheader : IsHeader header h) (htype : h.etherType = etherType)
      (hreserved : reserved2.length = 2)
      (hlength : apdu.length = 8 + (1 + savOctets.length + sav.length + rest.length))
      (hlt : apdu.length < 2 ^ 16)
      (hsavLen : LengthOf 4 sav.length savOctets) (hsav : SavPDU count contents sav)
      (hasdus : List.Forall₂ IsASDU contents asdus) (hne : asdus ≠ [])
      (hcount : declaredCount count = asdus.length) :
      Accepted (header ++ (beBytes 2 apdu.appID.toNat ++ (beBytes 2 apdu.length ++
        (beBytes 2 apdu.reserved1.toNat ++ (reserved2 ++
          (0x60 :: (savOctets ++ (sav ++ (rest ++ padding))))))))) asdus

/-- The content octets of the noASDU field, which is the first element of the savPDU. -/
def noASDUOctets (frame : Bytes) : Option Bytes :=
  Except.toOption (ε := Fault (DecodeError Message)) do
    let h ← readHeader (.frameTooShort frame.length) .truncatedVLAN frame
    let (_, offset) ← berLength frame (h.offset + 9)
    let tag ← index frame offset
    if tag ≠ 0x80 then fail (.unexpectedSavTag tag)
    else do
      let (fieldLen, offset) ← berLength frame (offset + 1)
      sub frame offset (offset + fieldLen)

/-- The field with the content `count` is what is read at an offset. -/
structure CountAt (frame : Bytes) (offset : ℕ) (octets count : Bytes) : Prop where
  tag : frame[offset]? = some 0x80
  length : berLength frame (offset + 1) = .ok (count.length, offset + 1 + octets.length)
  content : sub frame (offset + 1 + octets.length) (offset + 1 + octets.length + count.length) =
    (.ok count : Result Bytes)

/-- The noASDU field, where the decoder takes it for present. -/
theorem readNoASDU_sound {offset savEnd n offset' : ℕ}
    (h : readNoASDU frame offset savEnd = .ok (n, offset', ws)) (hq : Quiet ws) :
    ∃ octets count, CountAt frame offset octets count ∧ LengthOf 4 count.length octets ∧
      slice frame offset savEnd = 0x80 :: (octets ++ (count ++ slice frame offset' savEnd)) ∧
      n = declaredCount count := by
  have hmissing : ¬ Quiet [liveWarning .missingNoASDU] := by
    intro hquiet
    exact absurd (hquiet _ List.mem_cons_self) (by simp [liveWarning])
  by_cases hlt : offset < savEnd
  · simp only [readNoASDU, if_pos hlt, bind_eq_ok, Except.ok.injEq] at h
    obtain ⟨present, ⟨tag, htag, rfl⟩, h⟩ := h
    cases hpresent : tag == 0x80 with
    | false =>
        rw [hpresent] at h
        cases h
        exact absurd hq hmissing
    | true =>
        obtain rfl : tag = 0x80 := by simpa using hpresent
        simp only [hpresent, if_true, bind_eq_ok, guard_eq_ok] at h
        obtain ⟨⟨fieldLen, o⟩, hlen, hroom, count, hcount, h⟩ := h
        dsimp only at hroom hcount h
        obtain ⟨octets, rest, hdrop, hoctets, rfl⟩ := readLength_eq_ok.mp hlen
        obtain ⟨hbounds, hslice⟩ := sub_eq_ok.mp hcount
        have hsize : count.length = fieldLen := by
          rw [← hslice, ← slice, length_slice hbounds.2, Nat.add_sub_cancel_left]
        subst hsize
        cases h
        refine ⟨octets, count, ⟨index_eq_ok.mp htag, hlen, hcount⟩, hoctets, ?_, rfl⟩
        rw [slice_tlv (index_eq_ok.mp htag) hdrop (not_lt.mp hroom)]
        have hcontent : slice frame (offset + 1 + octets.length)
            (offset + 1 + octets.length + count.length) = count := hslice
        rw [hcontent]
  · simp only [readNoASDU, if_neg hlt] at h
    cases h
    exact absurd hq hmissing

/-- What is inside the savPDU, if there is no live warning. -/
theorem decodeSavPDU_sound {offset savEnd : ℕ} {out r : DecodedFrame} (hend : savEnd ≤ frame.length)
    (hout : out.asdus = []) (h : decodeSavPDU hs frame offset savEnd out = .ok r)
    (hq : Quiet r.warnings) :
    ∃ octets count contents, CountAt frame offset octets count ∧
      SavPDU count contents (slice frame offset savEnd) ∧ List.Forall₂ IsASDU contents r.asdus ∧
      declaredCount count = r.asdus.length := by
  simp only [decodeSavPDU, bind_eq_ok, guard_eq_ok] at h
  obtain ⟨⟨n, offset₁, ws₁⟩, hno, hroom, tag, htag, hA2, ⟨seqLen, offset₂⟩, hlen, out', hasdus,
    hr⟩ := h
  dsimp only at hroom htag hlen hasdus hr
  cases hr
  dsimp only at hq ⊢
  rw [quiet_append] at hq
  obtain ⟨later, hlater⟩ := decodeASDUs_warnings hasdus
  have hq' := hq.1
  rw [hlater] at hq'
  dsimp only at hq'
  rw [quiet_append, quiet_append, quiet_append] at hq'
  have hfits := not_of_quiet_ite hq'.1.2
  rw [if_neg hfits] at hasdus
  obtain ⟨octets, count, hfield, hoctets, hslice, hn⟩ := readNoASDU_sound hno hq'.1.1.2
  obtain ⟨seqOctets, rest, hdrop, hseqOctets, rfl⟩ := readLength_eq_ok.mp hlen
  have hsize : (slice frame (offset₁ + 1 + seqOctets.length)
      (offset₁ + 1 + seqOctets.length + seqLen)).length = seqLen := by
    rw [length_slice (by omega), Nat.add_sub_cancel_left]
  obtain ⟨contents, asdus, htiles, hall, hout'⟩ := decodeASDUs_sound (by omega) hasdus hq.1
  dsimp only at hout'
  rw [hout, List.nil_append] at hout'
  rw [hout']
  refine ⟨octets, count, contents, hfield, ?_, hall, ?_⟩
  · rw [hslice, slice_tlv (index_eq_ok.mp htag) hdrop (not_lt.mp hfits), not_not.mp hA2]
    exact .mk hoctets (by rw [hsize]; exact hseqOctets) htiles
  · have hcount := not_of_quiet_ite hq.2
    rw [← hn, not_not.mp hcount, hout']

/-- **A frame that the live path takes is well formed**, and its noASDU field is where
`noASDUOctets` finds it. -/
theorem decode_sound {asdus : List ASDU} (h : decode frame = .ok asdus) :
    Accepted frame asdus ∧
      ∃ count, noASDUOctets frame = some count ∧ declaredCount count = asdus.length := by
  obtain ⟨decoded, hframe, hsv, hne, hquiet, rfl⟩ := decode_eq_ok.mp h
  rw [decodeFrame, bind_eq_ok] at hframe
  obtain ⟨h, hheader, hframe⟩ := hframe
  split at hframe
  · cases hframe
    exact absurd hsv (by simp)
  rename_i htype
  simp only [bind_eq_ok, guard_eq_ok] at hframe
  obtain ⟨a, hapdu, reserved2, -, h8, hpos, tag, htag, h60, ⟨savLen, offset⟩, hlen, hsav⟩ := hframe
  dsimp only at hsav
  -- either clamp would have left a warning
  obtain ⟨hshort, hexceeds⟩ : ¬ frame.length < h.offset + 8 + a.length - 8 ∧
      ¬ h.offset + 8 + a.length - 8 < offset + savLen := by
    obtain ⟨later, hlater⟩ := decodeSavPDU_warnings hsav
    rw [hlater, quiet_append, quiet_append] at hquiet
    have hshort := not_of_quiet_ite hquiet.1.1
    have hexceeds := not_of_quiet_ite hquiet.1.2
    rw [if_neg hshort] at hexceeds
    exact ⟨hshort, hexceeds⟩
  rw [if_neg hshort] at hpos
  simp only [if_neg hshort, if_neg hexceeds] at hsav
  obtain ⟨octets, count, contents, hfield, hpdu, hall, hcount⟩ :=
    decodeSavPDU_sound (by omega) rfl hsav hquiet
  obtain ⟨header, behind, hsplit, hisheader⟩ := readHeader_eq_ok.mp hheader
  obtain ⟨hlt, reserved, body, hreserved, hdrop⟩ := readApduHeader_eq_ok.mp hapdu
  obtain ⟨savOctets, rest, hdropSav, hsavOctets, rfl⟩ := readLength_eq_ok.mp hlen
  constructor
  · have hroom : h.offset + 8 + 1 + savOctets.length + savLen ≤ h.offset + a.length := by omega
    have hbody : body = 0x60 :: (savOctets ++
        (slice frame (h.offset + 8 + 1 + savOctets.length)
          (h.offset + 8 + 1 + savOctets.length + savLen) ++
        (slice frame (h.offset + 8 + 1 + savOctets.length + savLen) (h.offset + a.length) ++
          frame.drop (h.offset + a.length)))) := by
      rw [← drop_apduHeader hreserved hdrop,
        slice_append_drop (j := h.offset + a.length) (by omega),
        slice_tlv (index_eq_ok.mp htag) hdropSav hroom, not_not.mp h60]
      simp only [List.cons_append, List.append_assoc]
    have hsavSize : (slice frame (h.offset + 8 + 1 + savOctets.length)
        (h.offset + 8 + 1 + savOctets.length + savLen)).length = savLen := by
      rw [length_slice (by omega), Nat.add_sub_cancel_left]
    have hrestSize : (slice frame (h.offset + 8 + 1 + savOctets.length + savLen)
        (h.offset + a.length)).length = _ := length_slice (by omega)
    have hwhole : frame = header ++ (beBytes 2 a.appID.toNat ++ (beBytes 2 a.length ++
        (beBytes 2 a.reserved1.toNat ++ (reserved ++ body)))) := by
      rw [← hdrop, ← hisheader.length_eq, hsplit, List.drop_left]
    rw [hwhole, hbody]
    refine .mk hisheader (not_not.mp htype) hreserved ?_ hlt ?_ hpdu hall ?_ hcount
    · rw [hsavSize, hrestSize]
      omega
    · rw [hsavSize]
      exact hsavOctets
    · rintro hnil
      rw [hnil] at hne
      exact hne rfl
  · refine ⟨count, ?_, hcount⟩
    rw [noASDUOctets, hheader]
    show Except.toOption (berLength frame (h.offset + 8 + 1) >>= _) = _
    rw [hlen, ok_bind]
    dsimp only
    rw [index_eq_ok.mpr hfield.tag, ok_bind, if_neg (by decide), hfield.length, ok_bind]
    dsimp only
    rw [hfield.content]
    rfl

/-! ## Every frame -/

theorem safe_decodeField (s : ASDU × List DecodeWarning) (tag : UInt8) (data : Bytes) :
    Safe (decodeField s tag data) := by
  obtain ⟨a, ws⟩ := s
  unfold decodeField
  dsimp only
  rw [readUtcTime_eq, ok_bind]
  refine Safe.ite safe_ok <| Safe.ite safe_ok <| Safe.ite safe_ok <|
    Safe.ite (Safe.guard fun _ ↦ safe_ok) <| Safe.ite safe_ok <| Safe.ite ?_ <|
    Safe.ite safe_ok <| Safe.ite (Safe.ite safe_ok safe_ok) <|
    Safe.ite (Safe.guard fun _ ↦ Safe.guard fun _ ↦ safe_ok) safe_ok
  split
  · exact Safe.bind (safe_index ‹_›) fun _ _ ↦ safe_ok
  · exact safe_ok

theorem safe_decodeASDU {offset stop : ℕ} (hstop : stop ≤ frame.length) :
    Safe (decodeASDU frame offset stop) := by
  refine Safe.bind ?_ fun _ _ ↦ safe_ok
  exact safe_walk hstop (by omega) le_rfl (fun s tag data _ ↦ safe_decodeField s tag data) _

/-- The loop over the ASDUs ends: behind a clamped container nothing is left to read. -/
theorem safe_decodeASDUs {seqEnd fuel offset : ℕ} (hend : seqEnd ≤ frame.length)
    (hfuel : seqEnd - offset < fuel) (out : DecodedFrame) :
    Safe (decodeASDUs hs frame seqEnd fuel offset out) := by
  induction fuel generalizing offset out with
  | zero => exact absurd hfuel (Nat.not_lt_zero _)
  | succ fuel ih =>
      rw [decodeASDUs]
      split
      · refine Safe.bind (safe_index (by omega)) fun tag _ ↦ ?_
        refine Safe.guard fun _ ↦ ?_
        refine Safe.bind (safe_readLength frame (offset + 1)) fun x hx ↦ ?_
        obtain ⟨asduLen, offset'⟩ := x
        obtain ⟨octets, rest, -, -, rfl⟩ := readLength_eq_ok.mp hx
        dsimp only
        split
        · refine Safe.bind (safe_decodeASDU hend) fun _ _ ↦ ?_
          exact ih (by omega) _
        · refine Safe.bind (safe_decodeASDU (by omega)) fun _ _ ↦ ?_
          exact ih (by omega) _
      · exact safe_ok

theorem safe_readNoASDU {offset savEnd : ℕ} (hend : savEnd ≤ frame.length) :
    Safe (readNoASDU frame offset savEnd) := by
  by_cases hlt : offset < savEnd
  · simp only [readNoASDU, if_pos hlt]
    refine Safe.bind (Safe.bind (safe_index (by omega)) fun _ _ ↦ safe_ok) fun present _ ↦ ?_
    split
    · refine Safe.bind (safe_readLength frame (offset + 1)) fun x hx ↦ ?_
      obtain ⟨fieldLen, offset'⟩ := x
      refine Safe.guard fun hroom ↦ ?_
      exact Safe.bind (safe_sub ⟨by omega, by omega⟩) fun _ _ ↦ safe_ok
    · exact safe_ok
  · simp only [readNoASDU, if_neg hlt]
    exact safe_ok

theorem safe_decodeSavPDU {offset savEnd : ℕ} (hend : savEnd ≤ frame.length) (out : DecodedFrame) :
    Safe (decodeSavPDU hs frame offset savEnd out) := by
  refine Safe.bind (safe_readNoASDU hend) fun x _ ↦ ?_
  obtain ⟨n, offset₁, ws₁⟩ := x
  refine Safe.guard fun hroom ↦ ?_
  refine Safe.bind (safe_index (by omega)) fun tag _ ↦ ?_
  refine Safe.guard fun _ ↦ ?_
  refine Safe.bind (safe_readLength frame _) fun x _ ↦ ?_
  obtain ⟨seqLen, offset₂⟩ := x
  dsimp only
  refine Safe.bind (safe_decodeASDUs ?_ ?_ _) fun _ _ ↦ safe_ok
  · split <;> omega
  · split <;> omega

/-- **The offline decoder terminates inside the buffer on every input.** -/
theorem safe_decodeFrame (frame : Bytes) : Safe (decodeFrame frame) := by
  refine Safe.bind safe_readHeader fun h _ ↦ ?_
  split
  · exact safe_ok
  refine Safe.bind safe_readApduHeader fun a ha ↦ ?_
  have hlen : h.offset + 8 ≤ frame.length := by
    obtain ⟨-, reserved2, rest, hreserved, hdrop⟩ := readApduHeader_eq_ok.mp ha
    have hsize := congrArg List.length hdrop
    simp only [List.length_drop, List.length_append, length_beBytes, hreserved] at hsize
    omega
  refine Safe.bind (safe_readUint16 (by omega)) fun reserved2 _ ↦ ?_
  refine Safe.guard fun h8 ↦ ?_
  dsimp only
  refine Safe.guard fun hpos ↦ ?_
  refine Safe.bind (safe_index ?_) fun tag _ ↦ ?_
  · split at hpos <;> omega
  refine Safe.guard fun _ ↦ ?_
  refine Safe.bind (safe_readLength frame _) fun x _ ↦ ?_
  obtain ⟨savLen, offset⟩ := x
  refine safe_decodeSavPDU ?_ _
  split_ifs <;> omega

theorem safe_decode (frame : Bytes) : Safe (decode frame) := by
  refine Safe.bind (safe_decodeFrame frame) fun decoded _ ↦ ?_
  refine Safe.guard fun _ ↦ Safe.guard fun _ ↦ ?_
  split
  · exact safe_fail
  · exact safe_ok

/-- **Live decoding is sound.**  The offline decoder neither leaves the buffer nor runs forever on
any byte string, and the live decoder either accepts a well-formed frame or returns an error. -/
theorem live_decode_sound (frame : Bytes) :
    Safe (decodeFrame frame) ∧
      ((∃ asdus, decode frame = .ok asdus ∧ Accepted frame asdus) ∨
        ∃ e, decode frame = .error (.err e)) := by
  refine ⟨safe_decodeFrame frame, ?_⟩
  cases h : decode frame with
  | ok asdus => exact .inl ⟨asdus, rfl, (decode_sound h).1⟩
  | error f =>
      obtain ⟨e, rfl⟩ := safe_decode frame f h
      exact .inr ⟨e, rfl⟩

/-! ## The number of ASDUs -/

/-- **The declared number of ASDUs is the number returned** iff the noASDU field of the frame has
content and its value fits 32 bits. -/
theorem declared_count {asdus : List ASDU} (h : decode frame = .ok asdus) :
    ∃ count, noASDUOctets frame = some count ∧
      (beNat count = asdus.length ↔ count ≠ [] ∧ beNat count < 2 ^ 32) := by
  obtain ⟨count, hcount, hdeclared⟩ := (decode_sound h).2
  refine ⟨count, hcount, ?_⟩
  rw [← hdeclared, declaredCount]
  cases count with
  | nil => exact iff_of_false (by decide) fun hne ↦ hne.1 rfl
  | cons b count =>
      rw [if_pos (List.length_pos_of_ne_nil (List.cons_ne_nil b count)), berUint,
        UInt32.toNat_ofNat', eq_comm, Nat.mod_eq_iff_lt (by decide)]
      exact (and_iff_right (List.cons_ne_nil b count)).symm

/-- A frame with one ASDU and these octets in its noASDU field. -/
def exampleCount (count : Bytes) : Bytes :=
  frameOf plainASDU (tlv 0x60 (tlv 0x80 count ++ tlv 0xA2 (tlv 0x30 (asduContent plainASDU))))

theorem declared_count_one :
    ∃ asdus, decode (exampleCount [1]) = .ok asdus ∧ asdus.length = 1 ∧
      ∃ count, noASDUOctets (exampleCount [1]) = some count ∧
        (beNat count = asdus.length ↔ count ≠ [] ∧ beNat count < 2 ^ 32) := by
  have hok : (decode (exampleCount [1])).toOption.map List.length = some 1 := by decide +kernel
  cases h : decode (exampleCount [1]) with
  | error f =>
      rw [h] at hok
      cases hok
  | ok asdus =>
      rw [h] at hok
      exact ⟨asdus, rfl, Option.some.inj hok, declared_count h⟩

/-- **An empty count stands for one ASDU**, and a count of five octets for what is left of it. -/
theorem declared_count_ignored :
    ((decode (exampleCount [])).toOption.map List.length = some 1 ∧
      noASDUOctets (exampleCount []) = some [] ∧ beNat [] = 0) ∧
    ((decode (exampleCount [1, 0, 0, 0, 1])).toOption.map List.length = some 1 ∧
      noASDUOctets (exampleCount [1, 0, 0, 0, 1]) = some [1, 0, 0, 0, 1] ∧
      beNat [1, 0, 0, 0, 1] = 2 ^ 32 + 1) ∧
    ¬ ∀ frame asdus, decode frame = .ok asdus →
      ∃ count, noASDUOctets frame = some count ∧ beNat count = asdus.length := by
  have hempty : (decode (exampleCount [])).toOption.map List.length = some 1 ∧
      noASDUOctets (exampleCount []) = some [] ∧ beNat [] = 0 := by decide +kernel
  refine ⟨hempty, by decide +kernel, fun hclaim ↦ ?_⟩
  obtain ⟨hok, hcount, hzero⟩ := hempty
  cases h : decode (exampleCount []) with
  | error f =>
      rw [h] at hok
      cases hok
  | ok asdus =>
      rw [h] at hok
      obtain ⟨count, hcount', hvalue⟩ := hclaim _ _ h
      obtain rfl : [] = count := Option.some.inj (hcount.symm.trans hcount')
      have hone : asdus.length = 1 := Option.some.inj hok
      omega

end ProcessBus.Sv.Wire
