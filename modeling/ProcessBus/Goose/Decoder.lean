import ProcessBus.Goose.Encoder

/-!
# The GOOSE decoder

`internal/domain/goose/decoder.go`, with every index and slice expression checked: the result of a
run is a value, an error of the decoder, or a fault (`Lib.Checked`).  The three loops over TLVs are
`Lib.Ber.walk`.  Nested values are decoded to a depth that the caller gives; `decode` gives one that
no content can exceed.

An error is the message's format with its arguments; `goose.ErrBadBER` and the others are what it
wraps.
-/

namespace ProcessBus.Goose

open Go Ethernet Lib Lib.Checked Lib.Ber

/-- Errors in the encoding of a length, an integer or a value. -/
inductive BerError
  | lengthEOF
  | badLongForm
  | emptyUnsigned
  | unsignedExceeds (bits : ℕ)
  | encodedAsNegative
  | nonMinimalUnsigned
  | elementOverflow
  | notConstructed
  | noUnusedBitsOctet
  | invalidUnusedBits (unused : ℕ)
  | nonZeroPadding
  | signedExceeds64
  | utcTimeLength (got : ℕ)
  | testLength (got : ℕ)
  | ndsComLength (got : ℕ)
deriving DecidableEq, Repr

/-- Errors of `Decode`. -/
inductive DecodeError
  | frameTooShort (bytes : ℕ)
  | truncatedVLAN
  | notGOOSE (etherType : UInt16)
  | apduHeaderTooShort
  | apduLength (apduLen : ℕ)
  | apduExceedsFrame (apduLen : ℕ)
  | emptyPayload
  | unexpectedTag (tag : UInt8)
  | pduLength (e : BerError)
  | pduLengthCrossesBoundary
  | pduLengthExceedsPayload (innerLen : ℕ)
  | pduLengthMismatch
  | fieldLength (e : BerError)
  | fieldOverflow (tag : UInt8)
  | duplicateField (tag : UInt8)
  | badField (tag : UInt8) (e : BerError)
  | badAllData (e : BerError)
  | missingField (tag : UInt8)
  | entriesMismatch (numDatSetEntries : UInt32) (entries : ℕ)
deriving DecidableEq, Repr

/-! ## BER helpers -/

/-- `berLength`: at most four octets after the first.  `e` is what the caller makes of an error. -/
def berLength {ε : Type} (e : BerError → ε) : Bytes → ℕ → Checked ε (ℕ × ℕ) :=
  readLength 4 (e .lengthEOF) (e .badLongForm)

/-- `decodeBERUnsigned`. -/
def decodeBERUnsigned (data : Bytes) (magnitudeBytes : ℕ) : Checked BerError UInt64 :=
  if data.length = 0 then fail .emptyUnsigned
  else if magnitudeBytes + 1 < data.length then fail (.unsignedExceeds (magnitudeBytes * 8))
  else do
    let first ← index data 0
    if data.length = magnitudeBytes + 1 then
      if first ≠ 0 then fail (.unsignedExceeds (magnitudeBytes * 8))
      else do
        let second ← index data 1
        if second &&& 0x80 = 0 then fail (.unsignedExceeds (magnitudeBytes * 8))
        else do
          let data ← sub data 1 data.length
          .ok (UInt64.ofNat (beNat data))
    else if first &&& 0x80 ≠ 0 then fail .encodedAsNegative
    else if 1 < data.length ∧ first = 0 then do
      let second ← index data 1
      if second &&& 0x80 = 0 then fail .nonMinimalUnsigned
      else do
        let data ← sub data 1 data.length
        .ok (UInt64.ofNat (beNat data))
    else .ok (UInt64.ofNat (beNat data))

/-- `berUint32`. -/
def berUint32 (data : Bytes) : Checked BerError UInt32 := do
  let value ← decodeBERUnsigned data 4
  .ok value.toUInt32

/-- `berUint64`. -/
def berUint64 (data : Bytes) : Checked BerError UInt64 := decodeBERUnsigned data 8

/-- `berInt`: sign extension, then one octet after the other. -/
def berInt (data : Bytes) : Checked BerError Int64 :=
  if data.length = 0 then .ok 0
  else do
    let first ← index data 0
    let v : ℤ := if first &&& 0x80 ≠ 0 then -1 else 0
    .ok (Int64.ofInt (data.foldl (fun v b ↦ v * 256 + b.toNat) v))

/-- `decodeUtcTime`, with its accesses. -/
def readUtcTime {ε : Type} (data : Bytes) : Checked ε (Time × TimeQuality) :=
  if data.length < 8 then .ok (.zero, { accuracy := accuracyUnspecified })
  else do
    let secs ← sub data 0 4
    let frac ← sub data 4 7
    let q ← index data 7
    .ok (.ofUnix (beNat secs) ((beNat frac * 1000000000 / 2 ^ 24 : ℕ) : ℤ),
      { leapSecondsKnown := q &&& 0x80 != 0
        clockFailure := q &&& 0x40 != 0
        clockNotSynchronized := q &&& 0x20 != 0
        accuracy := q &&& 0x1F })

/-- `decodeFloat`. -/
def decodeFloat (data : Bytes) : Checked BerError UInt64 :=
  if data.length < 5 then .ok 0
  else do
    let expWidth ← index data 0
    if expWidth = 8 ∧ 5 ≤ data.length then do
      let bits ← sub data 1 5
      .ok (Binary.widen (UInt32.ofNat (beNat bits)))
    else if expWidth = 11 ∧ 9 ≤ data.length then do
      let bits ← sub data 1 9
      .ok (UInt64.ofNat (beNat bits))
    else .ok 0

/-! ## Values -/

/-- `DataType(number)`, as the switch of `decodeDataValue` reads it. -/
def DataType.ofNumber (number : UInt8) : DataType :=
  if number = 1 then .array
  else if number = 2 then .struct
  else if number = 3 then .boolean
  else if number = 4 then .bitString
  else if number = 5 then .integer
  else if number = 6 then .unsigned
  else if number = 7 then .floatingPoint
  else if number = 8 then .real
  else if number = 9 then .octetString
  else if number = 10 then .visibleString
  else if number = 12 then .binaryTime
  else if number = 13 then .bcd
  else if number = 14 then .booleanArray
  else if number = 17 then .utcTime
  else .unknown

/-- The content of a BIT STRING: its payload and the number of its bits. -/
def decodeBitString (val : Bytes) : Checked BerError (Bytes × ℤ) :=
  if val.length = 0 then fail .noUnusedBitsOctet
  else do
    let unused ← index val 0
    if 7 < unused ∨ val.length = 1 ∧ unused ≠ 0 then fail (.invalidUnusedBits unused.toNat)
    else do
      let payload ← sub val 1 val.length
      if 0 < unused then do
        let last ← index payload (payload.length - 1)
        if last &&& (1 <<< unused - 1) ≠ 0 then fail .nonZeroPadding
        else .ok (payload, payload.length * 8 - unused.toNat)
      else .ok (payload, payload.length * 8 - unused.toNat)

/-- `decodeDataValue`, with the function that decodes the children. -/
def decodeDataValue (decodeDataSeq : Bytes → Checked BerError (List DataValue)) (tag : UInt8)
    (val : Bytes) : Checked BerError DataValue :=
  let type := DataType.ofNumber (tag &&& 0x1F)
  match type with
  | .array | .struct =>
      if tag &&& 0x20 = 0 then fail .notConstructed
      else do
        let children ← decodeDataSeq val
        .ok { type, children }
  | .boolean =>
      if 0 < val.length then do
        let b ← index val 0
        .ok { type, bool := b != 0 }
      else .ok { type }
  | .bitString | .booleanArray => do
      let (bytes, bitLength) ← decodeBitString val
      .ok { type, bytes, bitLength }
  | .integer | .bcd =>
      if 8 < val.length then fail .signedExceeds64
      else do
        let int ← berInt val
        .ok { type, int }
  | .unsigned => do
      let uint ← berUint64 val
      .ok { type, uint }
  | .floatingPoint | .real => do
      let float ← decodeFloat val
      .ok { type, float }
  | .visibleString => .ok { type, string := val }
  | .utcTime => do
      let (time, timeQuality) ← readUtcTime val
      .ok { type, time, timeQuality }
  | .octetString | .binaryTime | .unknown => .ok { type, bytes := val }

/-- `decodeDataSeq`, for values nested less deep than the first argument. -/
def decodeDataSeq : ℕ → Bytes → Checked BerError (List DataValue)
  | 0, _ => .error .fuel
  | depth + 1, data =>
      walk (berLength id) (fun _ ↦ .elementOverflow)
        (fun out tag val ↦ do
          let dv ← decodeDataValue (decodeDataSeq depth) tag val
          .ok (out ++ [dv]))
        data data.length (data.length + 1) 0 []

/-! ## Messages -/

/-- `gooseField`: the bit of a known field. -/
def gooseField (tag : UInt8) : UInt16 :=
  if 0x80 ≤ tag ∧ tag ≤ 0x8A then 1 <<< (tag - 0x80).toUInt16
  else if tag = 0xAB then 0x800
  else 0

/-- `requiredGOOSEFields`: all but goID, test and ndsCom. -/
def requiredGOOSEFields : UInt16 := 0b110101110111

def requiredGOOSEFieldTags : List UInt8 := [0x80, 0x81, 0x82, 0x84, 0x85, 0x86, 0x88, 0x8A, 0xAB]

/-- `validateGOOSEFields`. -/
def validateGOOSEFields (pdu : PDU) (seenFields : UInt16) : Checked DecodeError Unit :=
  let missing := requiredGOOSEFields &&& ~~~seenFields
  match (if missing ≠ 0 then
      requiredGOOSEFieldTags.find? (fun tag ↦ missing &&& gooseField tag ≠ 0) else none) with
  | some tag => fail (.missingField tag)
  | none =>
      if pdu.numDatSetEntries.toNat ≠ pdu.allData.length then
        fail (.entriesMismatch pdu.numDatSetEntries pdu.allData.length)
      else .ok ()

/-- The switch over the tag of a field in `Decode`. -/
def decodeField (pdu : PDU) (tag : UInt8) (data : Bytes) : Checked DecodeError PDU :=
  let number (set : UInt32 → PDU) : Checked DecodeError PDU := do
    let v ← wrap (.badField tag) (berUint32 data)
    .ok (set v)
  if tag = 0x80 then .ok { pdu with gocbRef := data }
  else if tag = 0x81 then number fun v ↦ { pdu with timeAllowedToLiveMs := v }
  else if tag = 0x82 then .ok { pdu with datSet := data }
  else if tag = 0x83 then .ok { pdu with goID := data }
  else if tag = 0x84 then
    if data.length ≠ 8 then fail (.badField tag (.utcTimeLength data.length))
    else do
      let (timestamp, timeQuality) ← wrap (.badField tag) (readUtcTime data)
      .ok { pdu with timestamp, timeQuality }
  else if tag = 0x85 then number fun v ↦ { pdu with stNum := v }
  else if tag = 0x86 then number fun v ↦ { pdu with sqNum := v }
  else if tag = 0x87 then
    if data.length ≠ 1 then fail (.badField tag (.testLength data.length))
    else do
      let b ← index data 0
      .ok { pdu with test := b != 0 }
  else if tag = 0x88 then number fun v ↦ { pdu with confRev := v }
  else if tag = 0x89 then
    if data.length ≠ 1 then fail (.badField tag (.ndsComLength data.length))
    else do
      let b ← index data 0
      .ok { pdu with ndsCom := b != 0 }
  else if tag = 0x8A then number fun v ↦ { pdu with numDatSetEntries := v }
  else if tag = 0xAB then do
    let values ← wrap .badAllData (decodeDataSeq (data.length + 1) data)
    .ok { pdu with allData := values }
  else .ok pdu

/-- What the field loop of `Decode` carries along. -/
structure Fields where
  pdu : PDU
  seenFields : UInt16

/-- The body of the field loop. -/
def Fields.read (s : Fields) (tag : UInt8) (data : Bytes) : Checked DecodeError Fields :=
  let field := gooseField tag
  if field ≠ 0 ∧ s.seenFields &&& field ≠ 0 then fail (.duplicateField tag)
  else do
    let pdu ← decodeField s.pdu tag data
    .ok ⟨pdu, s.seenFields ||| field⟩

/-- `&PDU{DstMAC: ..., SrcMAC: ...}` with the fields of the frame and APDU headers. -/
def PDU.ofHeaders (h : Header) (a : ApduHeader) : PDU where
  dstMAC := h.dstMAC
  srcMAC := h.srcMAC
  vlan := h.vlan
  appID := a.appID
  simulation := a.reserved1 &&& 0x8000 != 0
  gocbRef := []
  timeAllowedToLiveMs := 0
  datSet := []
  goID := []
  timestamp := .zero
  timeQuality := {}
  stNum := 0
  sqNum := 0
  test := false
  confRev := 0
  ndsCom := false
  numDatSetEntries := 0
  allData := []

/-- The part of `Decode` inside the APDU, which ends at `pduEnd`. -/
def decodeAPDU (frame : Bytes) (offset pduEnd : ℕ) (pdu : PDU) : Checked DecodeError PDU := do
  let tag ← index frame offset
  if tag ≠ 0x61 then fail (.unexpectedTag tag)
  else do
    let (innerLen, offset) ← berLength .pduLength frame (offset + 1)
    if pduEnd < offset then fail .pduLengthCrossesBoundary
    else if pduEnd - offset < innerLen then fail (.pduLengthExceedsPayload innerLen)
    else if offset + innerLen ≠ pduEnd then fail .pduLengthMismatch
    else do
      let s ← walk (berLength .fieldLength) .fieldOverflow Fields.read frame pduEnd
        (frame.length + 1) offset ⟨pdu, 0⟩
      validateGOOSEFields s.pdu s.seenFields
      .ok s.pdu

/-- `Decode`. -/
def decode (frame : Bytes) : Checked DecodeError PDU := do
  let h ← readHeader (.frameTooShort frame.length) .truncatedVLAN frame
  if h.etherType ≠ etherType then fail (.notGOOSE h.etherType)
  else do
    let a ← readApduHeader .apduHeaderTooShort frame h.offset
    let offset := h.offset + 8
    if a.length < 8 then fail (.apduLength a.length)
    else
      let payloadLen := a.length - 8
      if frame.length - offset < payloadLen then fail (.apduExceedsFrame a.length)
      else
        let pduEnd := offset + payloadLen
        if pduEnd = offset then fail .emptyPayload
        else decodeAPDU frame offset pduEnd (.ofHeaders h a)

/-! ## What the helpers accept -/

theorem sub_tail {ε : Type} {a : UInt8} {rest : Bytes} :
    (sub (a :: rest) 1 (a :: rest).length : Checked ε Bytes) = .ok rest := by
  rw [sub_eq_ok]
  refine ⟨⟨by simp, le_rfl⟩, ?_⟩
  rw [List.take_length]
  rfl

/-- The leading octet of a number that fits without it. -/
theorem beNat_cons_lt {a : UInt8} {rest : Bytes} :
    beNat (a :: rest) < 256 ^ rest.length ↔ a = 0 := by
  have hrest := beNat_lt rest
  rw [beNat_cons, ← UInt8.toNat_inj]
  show _ ↔ a.toNat = 0
  constructor
  · intro h
    by_contra hne
    have : 1 * 256 ^ rest.length ≤ a.toNat * 256 ^ rest.length :=
      Nat.mul_le_mul_right _ (Nat.one_le_iff_ne_zero.mpr hne)
    omega
  · intro h
    rw [h, Nat.zero_mul, Nat.zero_add]
    exact hrest

/-- An unsigned integer is accepted in its shortest form, and if it fits. -/
theorem decodeBERUnsigned_eq_ok {data : Bytes} {m : ℕ} (hm : 0 < m) {v : UInt64} :
    decodeBERUnsigned data m = .ok v ↔
      MinimalUnsigned data ∧ beNat data < 256 ^ m ∧ v = UInt64.ofNat (beNat data) := by
  unfold decodeBERUnsigned
  rcases data with _ | ⟨a, _ | ⟨b, rest⟩⟩
  · exact iff_of_false nofun fun h ↦ h.1
  · have ha := a.toNat_lt
    have hval : beNat [a] = a.toNat := by simp [beNat]
    have hfit : a.toNat < 256 ^ m := ha.trans_le (Nat.le_self_pow (by omega) 256)
    have hm' : ¬ m + 1 < 1 := by omega
    have hm'' : ¬ 1 = m + 1 := by omega
    simp only [List.length_singleton, one_ne_zero, if_false, hm', hm'', lt_irrefl, false_and,
      guard_eq_ok, bind_eq_ok, index_eq_ok, List.getElem?_cons_zero, Option.some.injEq,
      exists_eq_left', ne_eq, not_not, and_0x80_eq_zero, Except.ok.injEq, MinimalUnsigned, hval,
      hfit, true_and]
    exact and_congr_right fun _ ↦ eq_comm
  · have hlen : (a :: b :: rest).length = rest.length + 2 := rfl
    have hzero : a = 0 → beNat (a :: b :: rest) = beNat (b :: rest) := by
      rintro rfl
      simp [beNat_cons]
    have hfit : beNat (a :: b :: rest) < 256 ^ (rest.length + 1) ↔ a = 0 :=
      beNat_cons_lt
    have htail : (sub (a :: b :: rest) 1 (rest.length + 2) : Checked BerError Bytes) =
        .ok (b :: rest) := sub_tail
    have hsecond : (index (a :: b :: rest) 1 : Checked BerError UInt8) = .ok b := rfl
    have hne : rest.length + 2 ≠ 0 := by omega
    have hfirst : (index (a :: b :: rest) 0 : Checked BerError UInt8) = .ok a := rfl
    rw [hlen, if_neg hne, htail, hsecond, hfirst]
    simp only [ok_bind]
    rcases lt_trichotomy (m + 1) (rest.length + 2) with h | h | h
    · rw [if_pos h]
      refine iff_of_false fail_ne_ok ?_
      rintro ⟨⟨-, hmin⟩, hlt, -⟩
      have hle : 256 ^ m ≤ 256 ^ rest.length := Nat.pow_le_pow_right (by decide) (by omega)
      have hstep : 256 ^ rest.length ≤ 256 ^ (rest.length + 1) :=
        Nat.pow_le_pow_right (by decide) (by omega)
      have ha : a = 0 := hfit.mp (hlt.trans_le (hle.trans hstep))
      rw [hzero ha] at hlt
      have hb : b = 0 := beNat_cons_lt.mp (hlt.trans_le hle)
      rw [hb] at hmin
      exact absurd (hmin ha) (by decide)
    · rw [if_neg (by omega), if_pos h.symm, show m = rest.length + 1 by omega, hfit, guard_eq_ok,
        guard_eq_ok, and_0x80_eq_zero, not_lt, Except.ok.injEq]
      constructor
      · rintro ⟨ha, hb, rfl⟩
        have ha := not_not.mp ha
        exact ⟨⟨by rw [ha]; decide, fun _ ↦ hb⟩, ha, by rw [hzero ha]⟩
      · rintro ⟨⟨-, hmin⟩, ha, rfl⟩
        exact ⟨not_not.mpr ha, hmin ha, by rw [hzero ha]⟩
    · have hlt : beNat (a :: b :: rest) < 256 ^ m :=
        (beNat_lt _).trans_le (Nat.pow_le_pow_right (by decide) (by rw [hlen]; omega))
      rw [if_neg (by omega), if_neg (by omega), guard_eq_ok, ne_eq, not_not, and_0x80_eq_zero]
      by_cases ha : a = 0
      · rw [if_pos ⟨by omega, ha⟩, guard_eq_ok, and_0x80_eq_zero, not_lt, Except.ok.injEq,
          ← hzero ha]
        constructor
        · rintro ⟨ha', hb, rfl⟩
          exact ⟨⟨ha', fun _ ↦ hb⟩, hlt, rfl⟩
        · rintro ⟨⟨ha', hb⟩, -, rfl⟩
          exact ⟨ha', hb ha, rfl⟩
      · rw [if_neg (fun h₀ ↦ ha h₀.2), Except.ok.injEq]
        constructor
        · rintro ⟨ha', rfl⟩
          exact ⟨⟨ha', fun h₀ ↦ absurd h₀ ha⟩, hlt, rfl⟩
        · rintro ⟨⟨ha', -⟩, -, rfl⟩
          exact ⟨ha', rfl⟩

theorem safe_decodeBERUnsigned {data : Bytes} {m : ℕ} (hm : 0 < m) :
    Safe (decodeBERUnsigned data m) := by
  refine Safe.guard fun hne ↦ Safe.guard fun hle ↦ ?_
  refine Safe.bind (safe_index (by omega)) fun first _ ↦ ?_
  split
  · refine Safe.guard fun _ ↦ Safe.bind (safe_index (by omega)) fun second _ ↦ ?_
    exact Safe.guard fun _ ↦ Safe.bind (safe_sub ⟨by omega, le_rfl⟩) fun _ _ ↦ safe_ok
  · refine Safe.guard fun _ ↦ ?_
    split
    · rename_i h
      refine Safe.bind (safe_index h.1) fun second _ ↦ ?_
      exact Safe.guard fun _ ↦ Safe.bind (safe_sub ⟨by omega, le_rfl⟩) fun _ _ ↦ safe_ok
    · exact safe_ok

theorem berInt_eq (data : Bytes) : berInt data = .ok (Int64.ofInt (beInt data)) := by
  cases data with
  | nil => rfl
  | cons a rest =>
      have hfold := foldl_beInt (if a &&& 0x80 ≠ 0 then -1 else 0) (a :: rest)
      have hint : beInt (a :: rest) =
          (if a &&& 0x80 ≠ 0 then -1 else 0) * 256 ^ (a :: rest).length + beNat (a :: rest) := by
        rw [beInt]
        simp only [and_0x80_ne_zero]
        split <;> simp
      rw [hint, ← hfold]
      rfl

theorem readUtcTime_eq {ε : Type} (data : Bytes) :
    (readUtcTime data : Checked ε (Time × TimeQuality)) = .ok (decodeUtcTime data) := by
  unfold readUtcTime decodeUtcTime
  split
  · rfl
  · rename_i h
    have hsecs : (sub data 0 4 : Checked ε Bytes) = .ok (slice data 0 4) :=
      sub_eq_ok.mpr ⟨⟨by omega, by omega⟩, rfl⟩
    have hfrac : (sub data 4 7 : Checked ε Bytes) = .ok (slice data 4 7) :=
      sub_eq_ok.mpr ⟨⟨by omega, by omega⟩, rfl⟩
    have hq : (index data 7 : Checked ε UInt8) = .ok (byteAt data 7) := by
      rw [index_eq_ok, byteAt, List.getD_eq_getElem _ _ (by omega), List.getElem?_eq_getElem]
    rw [hsecs, hfrac, hq]
    rfl

theorem exists_decodeFloat (data : Bytes) : ∃ f, decodeFloat data = .ok f := by
  unfold decodeFloat
  split
  · exact ⟨0, rfl⟩
  · rename_i h
    have hfirst : (index data 0 : Checked BerError UInt8) = .ok data[0] :=
      index_eq_ok.mpr (List.getElem?_eq_getElem (by omega))
    rw [hfirst]
    show ∃ f, (if data[0] = 8 ∧ 5 ≤ data.length then _ else _) = _
    split
    · rename_i h₈
      exact ⟨_, bind_eq_ok.mpr ⟨slice data 1 5, sub_eq_ok.mpr ⟨⟨by omega, h₈.2⟩, rfl⟩, rfl⟩⟩
    · split
      · rename_i h₁₁
        exact ⟨_, bind_eq_ok.mpr ⟨slice data 1 9, sub_eq_ok.mpr ⟨⟨by omega, h₁₁.2⟩, rfl⟩, rfl⟩⟩
      · exact ⟨0, rfl⟩

/-- The content of a BIT STRING: how many bits of the last octet are unused, and the octets, with
these bits zero. -/
def LegalBitString : Bytes → Prop
  | [] => False
  | unused :: payload => unused.toNat ≤ 7 ∧ (payload = [] → unused = 0) ∧
      ∀ last ∈ payload.getLast?, last.toNat % 2 ^ unused.toNat = 0

theorem and_mask_eq_zero {last unused : UInt8} (h : unused.toNat ≤ 7) :
    last &&& (1 <<< unused - 1) = 0 ↔ last.toNat % 2 ^ unused.toNat = 0 := by
  have hmask : (1 <<< unused - 1 : UInt8).toNat = 2 ^ unused.toNat - 1 := by
    obtain ⟨k, rfl⟩ : ∃ k : Fin 8, unused = UInt8.ofNat k :=
      ⟨⟨unused.toNat, by omega⟩, (UInt8.ofNat_toNat).symm⟩
    revert k
    decide
  rw [← UInt8.toNat_inj, UInt8.toNat_and, hmask, Nat.and_two_pow_sub_one_eq_mod]
  rfl

theorem decodeBitString_eq_ok {val bytes : Bytes} {n : ℤ} :
    decodeBitString val = .ok (bytes, n) ↔
      LegalBitString val ∧ ∃ unused, val = unused :: bytes ∧ n = bytes.length * 8 - unused.toNat := by
  unfold decodeBitString
  cases val with
  | nil => exact iff_of_false nofun fun h ↦ h.1
  | cons unused payload =>
      have hfirst : (index (unused :: payload) 0 : Checked BerError UInt8) = .ok unused := rfl
      have hlen : (unused :: payload).length = 1 ↔ payload = [] := by simp
      have hval : (∃ u, unused :: payload = u :: bytes ∧ n = bytes.length * 8 - u.toNat) ↔
          payload = bytes ∧ n = payload.length * 8 - unused.toNat := by
        simp only [List.cons.injEq]
        constructor
        · rintro ⟨u, ⟨rfl, rfl⟩, rfl⟩
          exact ⟨rfl, rfl⟩
        · rintro ⟨rfl, rfl⟩
          exact ⟨unused, ⟨rfl, rfl⟩, rfl⟩
      have hseven : ¬ 7 < unused ↔ unused.toNat ≤ 7 := by
        rw [UInt8.lt_iff_toNat_lt, not_lt]
        rfl
      rw [if_neg (by simp), hfirst, ok_bind, guard_eq_ok, sub_tail, ok_bind, hval, not_or, hseven,
        hlen, not_and, ne_eq, not_not, LegalBitString, and_assoc, and_assoc, and_assoc]
      refine and_congr_right fun hu ↦ and_congr_right fun hempty ↦ ?_
      split
      · rename_i hpos
        have hne : payload ≠ [] := by
          intro h
          rw [hempty h] at hpos
          exact absurd hpos (by decide)
        have hlast : payload[payload.length - 1]? = some (payload.getLast hne) := by
          rw [← List.getLast?_eq_getElem?, List.getLast?_eq_some_getLast hne]
        rw [index_eq_ok.mpr hlast, ok_bind, guard_eq_ok, ne_eq, not_not, and_mask_eq_zero hu,
          Except.ok.injEq, Prod.mk.injEq, List.getLast?_eq_some_getLast hne]
        simp [eq_comm]
      · rename_i hpos
        have hzero : unused = 0 := by
          rw [UInt8.lt_iff_toNat_lt, not_lt] at hpos
          exact UInt8.toNat_inj.mp (Nat.le_zero.mp hpos)
        subst hzero
        rw [Except.ok.injEq, Prod.mk.injEq]
        simp [Nat.mod_one, eq_comm]

theorem safe_decodeBitString (val : Bytes) : Safe (decodeBitString val) := by
  refine Safe.guard fun hne ↦ ?_
  refine Safe.bind (safe_index (by omega)) fun unused hunused ↦ Safe.guard fun hlegal ↦ ?_
  refine Safe.bind (safe_sub ⟨by omega, le_rfl⟩) fun payload hpayload ↦ ?_
  split
  · rename_i hpos
    refine Safe.bind (safe_index ?_) fun last _ ↦ Safe.guard fun _ ↦ safe_ok
    have hlen : payload.length = val.length - 1 := by
      rw [← (sub_eq_ok.mp hpayload).2]
      exact length_slice le_rfl
    have hone : val.length ≠ 1 := by
      intro h
      refine hlegal (.inr ⟨h, ?_⟩)
      rintro rfl
      exact absurd hpos (by decide)
    omega
  · exact safe_ok

end ProcessBus.Goose
