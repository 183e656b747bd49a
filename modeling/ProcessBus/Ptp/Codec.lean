import ProcessBus.Ptp.Types

/-!
# The PTP codec

`internal/domain/ptp/codec.go`.  The encoders of the source write into a buffer of the final
size; here a message is the concatenation of its fields in the same order.  The decoders return
the source's error texts, which the client only logs.
-/

namespace ProcessBus.Ptp

open Go

def timestampSize : ℕ := 10
def portIdentitySize : ℕ := 10
def announceBodySize : ℕ := 30

/-! ## Encoding -/

/-- `EncodeHeader`. -/
def encodeHeader (h : Header) : Bytes :=
  [(h.transportSpecific <<< 4) ||| (h.messageType &&& 0x0F),
    (h.minorSdoId <<< 4) ||| (h.versionPTP &&& 0x0F)] ++
  beBytes 2 h.messageLength.toNat ++ [h.domainNumber, 0] ++ beBytes 2 h.flagField.toNat ++
  beBytes 8 h.correctionField.toUInt64.toNat ++ beBytes 4 h.reserved.toNat ++
  h.sourcePortIdentity.clockIdentity.toList ++ beBytes 2 h.sourcePortIdentity.portNumber.toNat ++
  beBytes 2 h.sequenceID.toNat ++ [h.controlField, h.logMessageInterval.toUInt8]

/-- `encodeTimestamp`: the seconds in 48 bits. -/
def encodeTimestamp (ts : Timestamp) : Bytes :=
  beBytes 2 (ts.seconds.toNat / 2 ^ 32) ++ beBytes 4 ts.seconds.toNat ++
    beBytes 4 ts.nanoseconds.toNat

/-- `encodePortIdentity`. -/
def encodePortIdentity (pi : PortIdentity) : Bytes :=
  pi.clockIdentity.toList ++ beBytes 2 pi.portNumber.toNat

/-- A header with the length of its message, followed by the body. -/
def encodeMessage (h : Header) (body : Bytes) : Bytes :=
  encodeHeader { h with messageLength := UInt16.ofNat (headerSize + body.length) } ++ body

/-- `EncodeSync`, `EncodeFollowUp` and `EncodeDelayReq`. -/
def encodeTimestampMessage (h : Header) (body : TimestampBody) : Bytes :=
  encodeMessage h (encodeTimestamp body.timestamp)

/-- `EncodePDelayReq`: ten reserved bytes follow the timestamp. -/
def encodePDelayReq (h : Header) (body : TimestampBody) : Bytes :=
  encodeMessage h (encodeTimestamp body.timestamp ++ List.replicate 10 0)

/-- `EncodeDelayResp`, `EncodePDelayResp` and `EncodePDelayRespFollowUp`. -/
def encodeResponse (h : Header) (body : ResponseBody) : Bytes :=
  encodeMessage h (encodeTimestamp body.timestamp ++
    encodePortIdentity body.requestingPortIdentity)

/-- `encodeAnnounceBody`. -/
def encodeAnnounceBody (body : AnnounceBody) : Bytes :=
  encodeTimestamp body.originTimestamp ++ beBytes 2 body.currentUtcOffset.toUInt16.toNat ++
    [body.reserved, body.grandmasterPriority1, body.grandmasterClockQuality.clockClass,
      body.grandmasterClockQuality.clockAccuracy] ++
    beBytes 2 body.grandmasterClockQuality.offsetScaledLogVariance.toNat ++
    [body.grandmasterPriority2] ++ body.grandmasterIdentity.toList ++
    beBytes 2 body.stepsRemoved.toNat ++ [body.timeSource]

/-- `EncodeAnnounce`, without TLVs. -/
def encodeAnnounce (h : Header) (body : AnnounceBody) : Bytes :=
  encodeMessage h (encodeAnnounceBody body)

/-! ## Decoding -/

/-- Eight bytes as a clock identity. -/
def clockIdentityAt (b : Bytes) (i : ℕ) : ClockIdentity := .ofFn fun k ↦ byteAt b (i + k)

/-- `DecodeHeader`. -/
def decodeHeader (b : Bytes) : Except String Header :=
  let n := b.length
  if n < headerSize then .error s!"ptp: buffer too short for header ({n} < {headerSize})"
  else
    let messageLength := uint16At b 2
    if messageLength.toNat < headerSize then
      .error s!"ptp: invalid message length {messageLength}"
    else if n < messageLength.toNat then
      .error s!"ptp: truncated message ({n} < {messageLength})"
    else
      .ok
        { transportSpecific := (byteAt b 0 >>> 4) &&& 0x0F
          messageType := byteAt b 0 &&& 0x0F
          minorSdoId := (byteAt b 1 >>> 4) &&& 0x0F
          versionPTP := byteAt b 1 &&& 0x0F
          messageLength := messageLength
          domainNumber := byteAt b 4
          flagField := uint16At b 6
          correctionField := (uint64At b 8).toInt64
          reserved := uint32At b 16
          sourcePortIdentity := ⟨clockIdentityAt b 20, uint16At b 28⟩
          sequenceID := uint16At b 30
          controlField := byteAt b 32
          logMessageInterval := (byteAt b 33).toInt8 }

/-- `DecodeTimestamp`, from the start of `b`. -/
def decodeTimestamp (b : Bytes) : Timestamp :=
  ⟨UInt64.ofNat ((uint16At b 0).toNat * 2 ^ 32 + (uint32At b 2).toNat), uint32At b 6⟩

/-- `decodePortIdentity`. -/
def decodePortIdentity (b : Bytes) : PortIdentity := ⟨clockIdentityAt b 0, uint16At b 8⟩

/-- The decoders of the bodies that hold one timestamp; `name` is the message in the error. -/
def decodeTimestampBody (name : String) (b : Bytes) : Except String TimestampBody :=
  let n := b.length
  if n < timestampSize then
    .error s!"ptp: buffer too short for {name} body ({n} < {timestampSize})"
  else .ok ⟨decodeTimestamp b⟩

def decodeSyncBody : Bytes → Except String TimestampBody := decodeTimestampBody "SYNC"

def decodeFollowUpBody : Bytes → Except String TimestampBody := decodeTimestampBody "FOLLOW_UP"

def decodePDelayReqBody : Bytes → Except String TimestampBody :=
  decodeTimestampBody "PDELAY_REQ"

/-- The decoders of the bodies that hold a timestamp and the requesting port. -/
def decodeResponseBody (name : String) (b : Bytes) : Except String ResponseBody :=
  let n := b.length
  let need := timestampSize + portIdentitySize
  if n < need then .error s!"ptp: buffer too short for {name} body ({n} < {need})"
  else .ok ⟨decodeTimestamp b, decodePortIdentity (b.drop timestampSize)⟩

def decodeDelayRespBody : Bytes → Except String ResponseBody := decodeResponseBody "DELAY_RESP"

def decodePDelayRespBody : Bytes → Except String ResponseBody := decodeResponseBody "PDELAY_RESP"

def decodePDelayRespFollowUpBody : Bytes → Except String ResponseBody :=
  decodeResponseBody "PDELAY_RESP_FOLLOW_UP"

/-- `DecodeAnnounceBody`. -/
def decodeAnnounceBody (b : Bytes) : Except String AnnounceBody :=
  let n := b.length
  if n < announceBodySize then
    .error s!"ptp: buffer too short for ANNOUNCE body ({n} < {announceBodySize})"
  else
    .ok
      { originTimestamp := decodeTimestamp b
        currentUtcOffset := (uint16At b 10).toInt16
        reserved := byteAt b 12
        grandmasterPriority1 := byteAt b 13
        grandmasterClockQuality := ⟨byteAt b 14, byteAt b 15, uint16At b 16⟩
        grandmasterPriority2 := byteAt b 18
        grandmasterIdentity := clockIdentityAt b 19
        stepsRemoved := uint16At b 27
        timeSource := byteAt b 29 }

/-! ## Profile TLVs -/

def tlvOrganizationExtension : UInt16 := 0x0003
def tlvAlternateTimeOffset : UInt16 := 0x0009

/-- `C37238OrgID`. -/
def c37238OrgID : Bytes := [0x1C, 0x12, 0x9D]
def c37238OrgSubType2011 : Bytes := [0x00, 0x00, 0x01]
def c37238OrgSubType2017 : Bytes := [0x00, 0x00, 0x02]

/-- `decodeC37238OrganizationTLV`: foreign organisations and unknown subtypes are ignored. -/
def decodeC37238OrganizationTLV (value : Bytes) (result : AnnounceProfileTLVs) :
    Except String AnnounceProfileTLVs :=
  let n := value.length
  if n < 3 ∨ slice value 0 3 ≠ c37238OrgID then .ok result
  else if n ≠ 18 then .error s!"ptp: invalid C37.238 organization TLV length {n}"
  else if result.c37238Version ≠ .disabled then
    .error "ptp: duplicate C37.238 organization TLV"
  else if slice value 3 6 = c37238OrgSubType2011 then
    .ok { result with
      c37238Version := .version2011
      c372382011 := some
        ⟨uint16At value 6, uint32At value 8, uint32At value 12, uint16At value 16⟩ }
  else if slice value 3 6 = c37238OrgSubType2017 then
    .ok { result with
      c37238Version := .version2017
      c372382017 := some
        ⟨uint16At value 6, uint32At value 8, uint32At value 12, uint16At value 16⟩ }
  else .ok result

/-- `decodeAlternateTimeOffset`. -/
def decodeAlternateTimeOffset (value : Bytes) : Except String AlternateTimeOffsetTLV :=
  let n := value.length
  if n < 16 then
    .error s!"ptp: invalid ALTERNATE_TIME_OFFSET_INDICATOR TLV length {n}"
  else
    let nameLength := (byteAt value 15).toNat
    let expected := 16 + nameLength
    let expectedLength := if expected % 2 ≠ 0 then expected + 1 else expected
    if n ≠ expectedLength then
      .error <| "ptp: invalid ALTERNATE_TIME_OFFSET_INDICATOR display name length " ++
        s!"{nameLength} for TLV length {n}"
    else
      .ok
        { keyField := byteAt value 0
          currentOffset := (uint32At value 1).toInt32
          jumpSeconds := (uint32At value 5).toInt32
          timeOfNextJump := UInt64.ofNat (beNat (slice value 9 15))
          displayName := slice value 16 (16 + nameLength) }

/-- One pass of the loop of `DecodeAnnounceProfileTLVs`, on the value of a TLV. -/
def decodeProfileTLV (tlvType : UInt16) (value : Bytes) (result : AnnounceProfileTLVs) :
    Except String AnnounceProfileTLVs :=
  if tlvType = tlvOrganizationExtension then decodeC37238OrganizationTLV value result
  else if tlvType = tlvAlternateTimeOffset then
    match result.alternateTimeOffset with
    | some _ => .error "ptp: duplicate ALTERNATE_TIME_OFFSET_INDICATOR TLV"
    | none => do
        let alternate ← decodeAlternateTimeOffset value
        return { result with alternateTimeOffset := some alternate }
  else .ok result

/-- The loop of `DecodeAnnounceProfileTLVs`.  Every pass consumes at least the four bytes of a
TLV header, so the length of the rest is enough fuel. -/
def decodeProfileTLVs : ℕ → Bytes → AnnounceProfileTLVs → Except String AnnounceProfileTLVs
  | 0, _, result => .ok result
  | fuel + 1, remaining, result =>
      let n := remaining.length
      if n = 0 then .ok result
      else if n < 4 then .error s!"ptp: truncated TLV header ({n} < 4)"
      else
        let valueLength := (uint16At remaining 2).toNat
        let room := n - 4
        if room < valueLength then
          .error s!"ptp: truncated TLV value ({room} < {valueLength})"
        else do
          let result ← decodeProfileTLV (uint16At remaining 0)
            (slice remaining 4 (4 + valueLength)) result
          decodeProfileTLVs fuel (remaining.drop (4 + valueLength)) result

/-- `DecodeAnnounceProfileTLVs`. -/
def decodeAnnounceProfileTLVs (b : Bytes) : Except String AnnounceProfileTLVs :=
  let n := b.length
  if n < announceBodySize then
    .error s!"ptp: buffer too short for ANNOUNCE body ({n} < {announceBodySize})"
  else decodeProfileTLVs n (b.drop announceBodySize) {}

/-- The fuel of the loop never runs out: with more of it the result is the same. -/
theorem decodeProfileTLVs_fuel {fuel fuel' : ℕ} {b : Bytes} {result : AnnounceProfileTLVs}
    (h : b.length ≤ fuel) (h' : b.length ≤ fuel') :
    decodeProfileTLVs fuel b result = decodeProfileTLVs fuel' b result := by
  induction fuel generalizing fuel' b result with
  | zero =>
      have hb : b = [] := List.length_eq_zero_iff.mp (Nat.le_zero.mp h)
      subst hb
      cases fuel' <;> rfl
  | succ fuel ih =>
      cases fuel' with
      | zero =>
          have hb : b = [] := List.length_eq_zero_iff.mp (Nat.le_zero.mp h')
          subst hb
          rfl
      | succ fuel' =>
          unfold decodeProfileTLVs
          dsimp only
          split
          · rfl
          · split
            · rfl
            · split
              · rfl
              · congr 1
                funext result
                exact ih (by rw [List.length_drop]; omega) (by rw [List.length_drop]; omega)

end ProcessBus.Ptp
