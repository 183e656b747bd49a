import ProcessBus.Goose.Decoder
import ProcessBus.Sv.Encoder

/-!
# The Sampled Values decoder

`internal/domain/sv/decoder.go`.  `decodeFrame` is tolerant: damage that still leaves something to
show becomes a warning.  `decode`, which the live path uses, takes a frame only if no warning says
that it must not.  A `DecodeWarning` holds the message's format with its arguments; so do the
errors.

An error ends `decodeFrame` with no frame; what the source returns beside the error is left out.
-/

namespace ProcessBus.Sv.Wire

open Go Goose Ethernet Lib Lib.Checked Lib.Ber

/-- Errors of `DecodeFrame` and `Decode`. -/
inductive DecodeError (message : Type)
  | frameTooShort (bytes : ℕ)
  | truncatedVLAN
  | apduHeaderTooShort
  | apduLength (apduLen : ℕ)
  | emptyPayload
  | unexpectedSavTag (tag : UInt8)
  | lengthEOF
  | badLongForm
  | noASDUOverflow
  | expectedSeqASDU
  | unexpectedASDUTag (tag : UInt8)
  | fieldOverflow (tag : UInt8)
  | confRevLength (got : ℕ)
  | smpModLength (got : ℕ)
  | invalidSmpMod (value : UInt16)
  | notSV (etherType : UInt16)
  | noASDU
  | invalidLive (message : message)
deriving DecidableEq, Repr

/-- The messages of the warnings. -/
inductive Message
  | apduLengthExceeds (apduLen remaining : ℕ)
  | savLengthExceeds
  | missingNoASDU
  | seqLengthExceeds
  | asduLengthExceeds
  | countMismatch (noASDU decoded : ℕ)
  | svIDEmpty
  | fieldLength (tag : UInt8) (got expected : ℕ)
  | invalidSmpSynch (value : UInt8)
  | unknownTag (tag : UInt8) (length : ℕ)
  | missingField (tag : UInt8)
deriving DecidableEq, Repr

/-- `DecodeWarning`. -/
structure DecodeWarning where
  message : Message
  asduScoped : Bool := false
  asduIndex : ℕ := 0
  rejectLive : Bool := false
deriving DecidableEq, Repr

/-- `DecodedFrame`. -/
structure DecodedFrame where
  asdus : List ASDU := []
  warnings : List DecodeWarning := []
  nonSV : Bool := false
  etherType : UInt16 := 0
  actualASDUs : ℕ := 0
  declaredASDU : ℕ := 0

abbrev Result (α : Type) := Checked (DecodeError Message) α

/-- `liveFrameWarning` and `liveASDUWarning`. -/
def liveWarning (message : Message) : DecodeWarning := { message, rejectLive := true }

/-- `berLength`. -/
def berLength : Bytes → ℕ → Result (ℕ × ℕ) := readLength 4 .lengthEOF .badLongForm

/-- `berUint`: the low 32 bits of a big-endian number. -/
def berUint (data : Bytes) : UInt32 := UInt32.ofNat (beNat data)

/-! ## ASDUs -/

/-- The sample of a channel; the indices are below the length that the caller has checked. -/
def channelAt (data : Bytes) (ch : ℕ) : Int32 := (uint32At data (ch * 8)).toInt32

def qualityAt (data : Bytes) (ch : ℕ) : UInt32 := uint32At data (ch * 8 + 4)

/-- A warning unless a field has its length. -/
def checkLength (tag : UInt8) (data : Bytes) (expected : ℕ) : List DecodeWarning :=
  if data.length ≠ expected then [liveWarning (.fieldLength tag data.length expected)] else []

/-- The switch of `decodeASDU`. -/
def decodeField (s : ASDU × List DecodeWarning) (tag : UInt8) (data : Bytes) :
    Result (ASDU × List DecodeWarning) :=
  let (a, warnings) := s
  if tag = 0x80 then
    .ok ({ a with svID := data, hasSvID := true },
      warnings ++ if data.length = 0 then [liveWarning .svIDEmpty] else [])
  else if tag = 0x81 then .ok ({ a with datSet := data }, warnings)
  else if tag = 0x82 then
    .ok ({ a with smpCnt := (berUint data).toUInt16, hasSmpCnt := true },
      warnings ++ checkLength tag data 2)
  else if tag = 0x83 then
    if data.length ≠ 4 then fail (.confRevLength data.length)
    else .ok ({ a with confRev := uint32At data 0, hasConfRev := true }, warnings)
  else if tag = 0x84 then do
    let (refrTm, refrTmQ) ← readUtcTime data
    .ok ({ a with refrTm, refrTmQ, hasRefrTm := true }, warnings ++ checkLength tag data 8)
  else if tag = 0x85 then
    let warnings := warnings ++ checkLength tag data 1
    if 0 < data.length then do
      let smpSynch ← index data 0
      .ok ({ a with smpSynch, hasSmpSynch := true },
        warnings ++ if 2 < smpSynch then [liveWarning (.invalidSmpSynch smpSynch)] else [])
    else .ok (a, warnings)
  else if tag = 0x86 then
    .ok ({ a with smpRate := (berUint data).toUInt16, hasSmpRate := true },
      warnings ++ checkLength tag data 2)
  else if tag = 0x87 then
    let a := { a with hasSeqData := true, seqData := data }
    let warnings := warnings ++ checkLength tag data seqDataLen
    if seqDataLen ≤ data.length then
      .ok ({ a with channels := .ofFn (channelAt data ·), quality := .ofFn (qualityAt data ·) },
        warnings)
    else .ok (a, warnings)
  else if tag = 0x88 then
    if data.length ≠ 2 then fail (.smpModLength data.length)
    else
      let smpMod := uint16At data 0
      if 2 < smpMod then fail (.invalidSmpMod smpMod)
      else .ok ({ a with smpMod := smpMod.toUInt8, hasSmpMod := true }, warnings)
  else .ok (a, warnings ++ [{ message := .unknownTag tag data.length }])

/-- The warnings at the end of `decodeASDU`, by the tags of the mandatory fields. -/
def missingFields (a : ASDU) : List DecodeWarning :=
  (if !a.hasSvID then [liveWarning (.missingField 0x80)] else []) ++
    (if !a.hasSmpCnt then [liveWarning (.missingField 0x82)] else []) ++
    (if !a.hasConfRev then [liveWarning (.missingField 0x83)] else []) ++
    (if !a.hasSmpSynch then [liveWarning (.missingField 0x85)] else []) ++
    (if !a.hasSeqData then [liveWarning (.missingField 0x87)] else [])

/-- `decodeASDU`. -/
def decodeASDU (frame : Bytes) (offset stop : ℕ) : Result (ASDU × List DecodeWarning) := do
  let (a, warnings) ← walk berLength .fieldOverflow decodeField frame stop (frame.length + 1) offset
    ({}, [])
  .ok (a, warnings ++ missingFields a)

/-! ## Frames -/

/-- The headers of the frame, as every ASDU of it carries them. -/
structure Headers where
  header : Header
  apdu : ApduHeader
  reserved2 : UInt16

def ASDU.withHeaders (a : ASDU) (h : Headers) : ASDU :=
  { a with
    dstMAC := h.header.dstMAC
    srcMAC := h.header.srcMAC
    vlan := h.header.vlan
    appID := h.apdu.appID
    apduLength := h.apdu.length
    reserved1 := h.apdu.reserved1
    reserved2 := h.reserved2
    simulation := h.apdu.reserved1 &&& 0x8000 != 0 }

/-- The loop over the ASDUs of `DecodeFrame`. -/
def decodeASDUs (h : Headers) (frame : Bytes) (seqEnd : ℕ) :
    ℕ → ℕ → DecodedFrame → Result DecodedFrame
  | 0, _, _ => .error .fuel
  | fuel + 1, offset, out =>
      if offset < seqEnd then do
        let tag ← index frame offset
        if tag ≠ 0x30 then fail (.unexpectedASDUTag tag)
        else do
          let (asduLen, offset) ← berLength frame (offset + 1)
          let exceeds := seqEnd < offset + asduLen
          let asduEnd := if exceeds then seqEnd else offset + asduLen
          let frameWarnings := if exceeds then [liveWarning .asduLengthExceeds] else []
          let (asdu, warnings) ← decodeASDU frame offset asduEnd
          let asduWarnings := warnings.map fun w ↦
            { w with asduScoped := true, asduIndex := out.asdus.length }
          decodeASDUs h frame seqEnd fuel asduEnd
            { out with
              asdus := out.asdus ++ [asdu.withHeaders h]
              warnings := out.warnings ++ (frameWarnings ++ asduWarnings) }
      else .ok out

/-- The optional noASDU field: its value, the offset behind it, and a warning if it is missing. -/
def readNoASDU (frame : Bytes) (offset savEnd : ℕ) : Result (ℕ × ℕ × List DecodeWarning) := do
  let present ← if offset < savEnd then (index frame offset >>= fun tag ↦ .ok (tag == 0x80))
    else .ok false
  if present then do
    let (fieldLen, offset) ← berLength frame (offset + 1)
    if savEnd < offset + fieldLen then fail .noASDUOverflow
    else do
      let data ← sub frame offset (offset + fieldLen)
      .ok (if 0 < fieldLen then (berUint data).toNat else 1, offset + fieldLen, [])
  else .ok (1, offset, [liveWarning .missingNoASDU])

/-- The part of `DecodeFrame` inside the savPDU, which ends at `savEnd`. -/
def decodeSavPDU (h : Headers) (frame : Bytes) (offset savEnd : ℕ) (out : DecodedFrame) :
    Result DecodedFrame := do
  let (noASDU, offset, warnings) ← readNoASDU frame offset savEnd
  let out := { out with warnings := out.warnings ++ warnings, declaredASDU := noASDU }
  if savEnd ≤ offset then fail .expectedSeqASDU
  else do
    let tag ← index frame offset
    if tag ≠ 0xA2 then fail .expectedSeqASDU
    else do
      let (seqLen, offset) ← berLength frame (offset + 1)
      let exceeds := savEnd < offset + seqLen
      let seqEnd := if exceeds then savEnd else offset + seqLen
      let warnings := if exceeds then [liveWarning .seqLengthExceeds] else []
      let out ← decodeASDUs h frame seqEnd (frame.length + 1) offset
        { out with warnings := out.warnings ++ warnings }
      let actual := out.asdus.length
      .ok { out with
        actualASDUs := actual
        warnings := out.warnings ++
          if noASDU ≠ actual then [liveWarning (.countMismatch noASDU actual)] else [] }

/-- `DecodeFrame`. -/
def decodeFrame (frame : Bytes) : Result DecodedFrame := do
  let h ← readHeader (.frameTooShort frame.length) .truncatedVLAN frame
  if h.etherType ≠ etherType then .ok { nonSV := true, etherType := h.etherType }
  else do
    let a ← readApduHeader .apduHeaderTooShort frame h.offset
    let reserved2 ← readUint16 frame (h.offset + 6)
    let offset := h.offset + 8
    if a.length < 8 then fail (.apduLength a.length)
    else
      let exceeds := frame.length < offset + a.length - 8
      let pduEnd := if exceeds then frame.length else offset + a.length - 8
      let warnings := if exceeds then
        [liveWarning (.apduLengthExceeds a.length (frame.length - (offset - 8)))] else []
      if pduEnd ≤ offset then fail .emptyPayload
      else do
        let tag ← index frame offset
        if tag ≠ 0x60 then fail (.unexpectedSavTag tag)
        else do
          let (savLen, offset) ← berLength frame (offset + 1)
          let exceeds := pduEnd < offset + savLen
          let savEnd := if exceeds then pduEnd else offset + savLen
          let warnings := warnings ++ if exceeds then [liveWarning .savLengthExceeds] else []
          decodeSavPDU ⟨h, a, reserved2⟩ frame offset savEnd { warnings, etherType := h.etherType }

/-- `Decode`. -/
def decode (frame : Bytes) : Result (List ASDU) := do
  let decoded ← decodeFrame frame
  if decoded.nonSV then fail (.notSV decoded.etherType)
  else if decoded.asdus.length = 0 then fail .noASDU
  else
    match decoded.warnings.find? (·.rejectLive) with
    | some warning => fail (.invalidLive warning.message)
    | none => .ok decoded.asdus

end ProcessBus.Sv.Wire
