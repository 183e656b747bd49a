import ProcessBus.Go.Int64
import ProcessBus.Ptp.Codec

/-!
# PTP messages over the wire

What the encoders write, the decoders read back, if the numbers fit their fields.  On its way a
message may pass transparent clocks: each adds the time that the message, or the event message that
it belongs to, has spent in it to the `correctionField`, and changes nothing else (`addCorrection`).
-/

namespace ProcessBus.Ptp

open Go

/-! ## Numbers -/

theorem uint16At_eq {b : Bytes} {i : ℕ} {x : UInt16} (h : slice b i (i + 2) = beBytes 2 x.toNat) :
    uint16At b i = x := by
  have hlt : x.toNat < 256 ^ 2 := x.toNat_lt
  rw [uint16At, h, beNat_beBytes, Nat.mod_eq_of_lt hlt, UInt16.ofNat_toNat]

theorem uint32At_eq {b : Bytes} {i : ℕ} {x : UInt32} (h : slice b i (i + 4) = beBytes 4 x.toNat) :
    uint32At b i = x := by
  have hlt : x.toNat < 256 ^ 4 := x.toNat_lt
  rw [uint32At, h, beNat_beBytes, Nat.mod_eq_of_lt hlt, UInt32.ofNat_toNat]

theorem uint64At_eq {b : Bytes} {i : ℕ} {x : UInt64} (h : slice b i (i + 8) = beBytes 8 x.toNat) :
    uint64At b i = x := by
  have hlt : x.toNat < 256 ^ 8 := x.toNat_lt
  rw [uint64At, h, beNat_beBytes, Nat.mod_eq_of_lt hlt, UInt64.ofNat_toNat]

/-! ## Headers -/

/-- The header's half-octets hold what they are given. -/
structure Header.Fits (h : Header) : Prop where
  transportSpecific : h.transportSpecific < 16
  messageType : h.messageType < 16
  minorSdoId : h.minorSdoId < 16
  versionPTP : h.versionPTP < 16

/-- Two half-octets. -/
theorem nibbles {a b : UInt8} (ha : a < 16) (hb : b < 16) :
    (((a <<< 4) ||| (b &&& 0x0F)) >>> 4) &&& 0x0F = a ∧ ((a <<< 4) ||| (b &&& 0x0F)) &&& 0x0F = b := by
  have h : ∀ x y : Fin 16, (((UInt8.ofNat x <<< 4) ||| (UInt8.ofNat y &&& 0x0F)) >>> 4) &&& 0x0F =
      UInt8.ofNat x ∧ ((UInt8.ofNat x <<< 4) ||| (UInt8.ofNat y &&& 0x0F)) &&& 0x0F = UInt8.ofNat y := by
    decide
  have hxy := h ⟨a.toNat, UInt8.lt_iff_toNat_lt.mp ha⟩ ⟨b.toNat, UInt8.lt_iff_toNat_lt.mp hb⟩
  rwa [UInt8.ofNat_toNat, UInt8.ofNat_toNat] at hxy

theorem length_encodeHeader (h : Header) : (encodeHeader h).length = headerSize := by
  simp [encodeHeader, headerSize]

theorem byteAt_drop (b : Bytes) (i j : ℕ) : byteAt b (i + j) = byteAt (b.drop i) j := by
  simp only [byteAt, List.getD_eq_getElem?_getD, List.getElem?_drop]

theorem slice_drop (b : Bytes) (i j k : ℕ) : slice b (i + j) (i + k) = slice (b.drop i) j k := by
  rw [slice, slice, ← List.drop_drop, List.drop_take, Nat.add_sub_cancel_left]

/-- An identity at the head of what follows. -/
theorem clockIdentityAt_of_drop {b rest : Bytes} {i : ℕ} {id : ClockIdentity}
    (h : b.drop i = id.toList ++ rest) : clockIdentityAt b i = id := by
  refine Vector.ext fun k hk ↦ ?_
  have hk' : k < id.toList.length := by
    rw [Vector.length_toList]
    exact hk
  rw [clockIdentityAt, Vector.getElem_ofFn]
  show byteAt b (i + k) = _
  rw [byteAt_drop, h, byteAt, List.getD_eq_getElem?_getD, List.getElem?_append_left hk',
    List.getElem?_eq_getElem hk', Option.getD_some, Vector.getElem_toList]

/-- **A header is read back.** -/
theorem decodeHeader_encodeHeader {h : Header} (hfits : h.Fits) {body : Bytes}
    (hlen : h.messageLength.toNat = headerSize + body.length) :
    decodeHeader (encodeHeader h ++ body) = .ok h := by
  obtain ⟨mt, ts, v, len, dom, sdo, flags, corr, res, ⟨id, port⟩, seq, ctrl, log⟩ := h
  obtain ⟨hts₀, hmt₀⟩ := nibbles hfits.transportSpecific hfits.messageType
  obtain ⟨hsdo₀, hv₀⟩ := nibbles hfits.minorSdoId hfits.versionPTP
  have hlength : (encodeHeader ⟨mt, ts, v, len, dom, sdo, flags, corr, res, ⟨id, port⟩, seq, ctrl,
      log⟩ ++ body).length = headerSize + body.length := by
    rw [List.length_append, length_encodeHeader]
  dsimp only at hlen hts₀ hmt₀ hsdo₀ hv₀
  generalize hdata : encodeHeader ⟨mt, ts, v, len, dom, sdo, flags, corr, res, ⟨id, port⟩, seq, ctrl,
    log⟩ ++ body = data at hlength
  have hdrop₂₀ : data.drop 20 = id.toList ++
      (beBytes 2 port.toNat ++ (beBytes 2 seq.toNat ++ ([ctrl, log.toUInt8] ++ body))) := by
    subst hdata
    simp only [encodeHeader, List.append_assoc]
    rfl
  have hdrop₂₈ : data.drop 28 =
      beBytes 2 port.toNat ++ (beBytes 2 seq.toNat ++ ([ctrl, log.toUInt8] ++ body)) := by
    rw [← List.drop_drop (i := 8), hdrop₂₀, List.drop_left' id.length_toList]
  have h₀ : byteAt data 0 = (ts <<< 4) ||| (mt &&& 0x0F) := by subst hdata; rfl
  have h₁ : byteAt data 1 = (sdo <<< 4) ||| (v &&& 0x0F) := by subst hdata; rfl
  have h₂ : uint16At data 2 = len := uint16At_eq (by subst hdata; rfl)
  have h₄ : byteAt data 4 = dom := by subst hdata; rfl
  have h₆ : uint16At data 6 = flags := uint16At_eq (by subst hdata; rfl)
  have h₈ : uint64At data 8 = corr.toUInt64 := uint64At_eq (by subst hdata; rfl)
  have h₁₆ : uint32At data 16 = res := uint32At_eq (by subst hdata; rfl)
  have h₂₈ : uint16At data 28 = port := uint16At_eq (by rw [slice_drop data 28 0 2, hdrop₂₈]; rfl)
  have h₃₀ : uint16At data 30 = seq := uint16At_eq (by rw [slice_drop data 28 2 4, hdrop₂₈]; rfl)
  have h₃₂ : byteAt data 32 = ctrl := by rw [byteAt_drop data 28 4, hdrop₂₈]; rfl
  have h₃₃ : byteAt data 33 = log.toUInt8 := by rw [byteAt_drop data 28 5, hdrop₂₈]; rfl
  unfold decodeHeader
  dsimp only
  rw [hlength, if_neg (by omega), h₂, if_neg (by omega), if_neg (by omega), h₀, h₁, h₄, h₆, h₈, h₁₆,
    clockIdentityAt_of_drop hdrop₂₀, h₂₈, h₃₀, h₃₂, h₃₃, hts₀, hmt₀, hsdo₀, hv₀]
  rfl

/-! ## Messages -/

/-- The header of a message, with the length that it gets. -/
def Header.withLength (h : Header) (body : Bytes) : Header :=
  { h with messageLength := UInt16.ofNat (headerSize + body.length) }

/-- The length of a message fits its field. -/
theorem toNat_messageLength {body : Bytes} (hlen : body.length < 2 ^ 15) (h : Header) :
    (h.withLength body).messageLength.toNat = headerSize + body.length := by
  show (UInt16.ofNat (headerSize + body.length)).toNat = _
  rw [UInt16.toNat_ofNat', headerSize]
  omega

theorem encodeMessage_eq (h : Header) (body : Bytes) :
    encodeMessage h body = encodeHeader (h.withLength body) ++ body := rfl

theorem decodeHeader_encodeMessage {h : Header} (hfits : h.Fits) {body : Bytes}
    (hlen : body.length < 2 ^ 15) :
    decodeHeader (encodeMessage h body) = .ok (h.withLength body) := by
  have hfits' : (h.withLength body).Fits := ⟨hfits.1, hfits.2, hfits.3, hfits.4⟩
  rw [encodeMessage_eq]
  exact decodeHeader_encodeHeader hfits' (toNat_messageLength hlen h)

theorem length_encodeMessage (h : Header) (body : Bytes) :
    (encodeMessage h body).length = headerSize + body.length := by
  rw [encodeMessage, List.length_append, length_encodeHeader]

/-- The body of a message. -/
theorem slice_encodeMessage (h : Header) {body : Bytes} (hlen : body.length < 2 ^ 15) :
    slice (encodeMessage h body) headerSize (h.withLength body).messageLength.toNat = body := by
  rw [toNat_messageLength hlen, slice, ← length_encodeMessage h, List.take_length,
    encodeMessage_eq]
  exact List.drop_left' (length_encodeHeader _)

/-! ## Transparent clocks -/

/-- What a transparent clock does to a message: the residence time `c`, in units of `2^-16` ns, is
added to the `correctionField`. -/
def addCorrection (c : Int64) (data : Bytes) : Bytes :=
  data.take 8 ++ beBytes 8 ((uint64At data 8).toInt64 + c).toUInt64.toNat ++ data.drop 16

/-- A header whose correction is larger by `c`. -/
def Header.corrected (h : Header) (c : ℤ) : Header :=
  { h with correctionField := h.correctionField + .ofInt c }

theorem Header.Fits.corrected {h : Header} (hfits : h.Fits) (c : ℤ) : (h.corrected c).Fits :=
  ⟨hfits.1, hfits.2, hfits.3, hfits.4⟩

theorem addCorrection_encodeHeader (c : Int64) (h : Header) (body : Bytes) :
    addCorrection c (encodeHeader h ++ body) = encodeHeader (h.corrected c.toInt) ++ body := by
  have hfield : uint64At (encodeHeader h ++ body) 8 = h.correctionField.toUInt64 :=
    uint64At_eq rfl
  rw [addCorrection, hfield, Header.corrected, Int64.ofInt_toInt]
  rfl

/-- The message is the one that would have been sent with the larger correction. -/
theorem addCorrection_encodeMessage (c : Int64) (h : Header) (body : Bytes) :
    addCorrection c (encodeMessage h body) = encodeMessage (h.corrected c.toInt) body :=
  addCorrection_encodeHeader c _ body

/-- The way of a message through transparent clocks, with the time that it spends in each. -/
def transit (residences : List Int64) (data : Bytes) : Bytes :=
  residences.foldl (fun data c ↦ addCorrection c data) data

/-- The time that it spends in all of them. -/
def residence (residences : List Int64) : ℤ := (residences.map Int64.toInt).sum

theorem Header.corrected_corrected (h : Header) (c c' : ℤ) :
    (h.corrected c).corrected c' = h.corrected (c + c') := by
  simp only [corrected, Int64.ofInt_add, Int64.add_assoc]

/-- It does not matter how the residence time is split among the clocks. -/
theorem transit_encodeMessage (residences : List Int64) (h : Header) (body : Bytes) :
    transit residences (encodeMessage h body) =
      encodeMessage (h.corrected (residence residences)) body := by
  induction residences generalizing h with
  | nil =>
      have hzero : h.corrected 0 = h := by
        rw [Header.corrected, show Int64.ofInt 0 = 0 from rfl, Int64.add_zero]
      show encodeMessage h body = encodeMessage (h.corrected 0) body
      rw [hzero]
  | cons c residences ih =>
      rw [transit, List.foldl_cons, addCorrection_encodeMessage]
      refine (ih (h.corrected c.toInt)).trans ?_
      rw [Header.corrected_corrected, residence, residence, List.map_cons, List.sum_cons]

/-- **What is read of a message that has passed transparent clocks.** -/
theorem decodeHeader_transit {h : Header} (hfits : h.Fits) {body : Bytes}
    (hlen : body.length < 2 ^ 15) (residences : List Int64) :
    decodeHeader (transit residences (encodeMessage h body)) =
      .ok ((h.corrected (residence residences)).withLength body) := by
  rw [transit_encodeMessage]
  exact decodeHeader_encodeMessage (hfits.corrected _) hlen

/-! ## Bodies -/

theorem length_encodeTimestamp (ts : Timestamp) : (encodeTimestamp ts).length = timestampSize := by
  simp [encodeTimestamp, timestampSize]

/-- **A timestamp is read back**, if its seconds fit 48 bits. -/
theorem decodeTimestamp_encodeTimestamp {ts : Timestamp} (h : ts.seconds.toNat < 2 ^ 48)
    (rest : Bytes) : decodeTimestamp (encodeTimestamp ts ++ rest) = ts := by
  obtain ⟨sec, ns⟩ := ts
  dsimp only at h
  have hhigh : uint16At (encodeTimestamp ⟨sec, ns⟩ ++ rest) 0 =
      UInt16.ofNat (sec.toNat / 2 ^ 32) := by
    show UInt16.ofNat (beNat (beBytes 2 (sec.toNat / 2 ^ 32))) = _
    rw [beNat_beBytes, Nat.mod_eq_of_lt]
    omega
  have hlow : uint32At (encodeTimestamp ⟨sec, ns⟩ ++ rest) 2 = UInt32.ofNat sec.toNat := by
    show UInt32.ofNat (beNat (beBytes 4 sec.toNat)) = _
    rw [beNat_beBytes, ← UInt32.toNat_inj, UInt32.toNat_ofNat', UInt32.toNat_ofNat']
    omega
  have hns : uint32At (encodeTimestamp ⟨sec, ns⟩ ++ rest) 6 = ns := uint32At_eq rfl
  have hsec : UInt64.ofNat ((UInt16.ofNat (sec.toNat / 2 ^ 32)).toNat * 2 ^ 32 +
      (UInt32.ofNat sec.toNat).toNat) = sec := by
    rw [← UInt64.toNat_inj, UInt64.toNat_ofNat', UInt16.toNat_ofNat', UInt32.toNat_ofNat']
    omega
  rw [decodeTimestamp, hhigh, hlow, hns, hsec]

/-- **So is the body of a Sync or a Follow_Up.** -/
theorem decodeTimestampBody_encode (name : String) {ts : Timestamp}
    (h : ts.seconds.toNat < 2 ^ 48) :
    decodeTimestampBody name (encodeTimestamp ts) = .ok ⟨ts⟩ := by
  have hread := decodeTimestamp_encodeTimestamp h []
  rw [List.append_nil] at hread
  rw [decodeTimestampBody, length_encodeTimestamp, if_neg (lt_irrefl _), hread]

theorem length_encodePortIdentity (pi : PortIdentity) :
    (encodePortIdentity pi).length = portIdentitySize := by
  simp [encodePortIdentity, portIdentitySize]

theorem decodePortIdentity_encodePortIdentity (pi : PortIdentity) :
    decodePortIdentity (encodePortIdentity pi) = pi := by
  obtain ⟨id, port⟩ := pi
  have hport : uint16At (encodePortIdentity ⟨id, port⟩) 8 = port := by
    refine uint16At_eq ?_
    have hseam := slice_append (c := []) (b := beBytes 2 port.toNat) id.length_toList
      (congrArg (8 + ·) (length_beBytes 2 port.toNat))
    rwa [List.append_nil] at hseam
  rw [decodePortIdentity, clockIdentityAt_of_drop rfl, hport]

/-- **So is the body of a response.** -/
theorem decodeResponseBody_encode (name : String) {ts : Timestamp}
    (h : ts.seconds.toNat < 2 ^ 48) (pi : PortIdentity) :
    decodeResponseBody name (encodeTimestamp ts ++ encodePortIdentity pi) = .ok ⟨ts, pi⟩ := by
  have hport : (encodeTimestamp ts ++ encodePortIdentity pi).drop timestampSize =
      encodePortIdentity pi :=
    List.drop_left' (length_encodeTimestamp _)
  rw [decodeResponseBody, List.length_append, length_encodeTimestamp, length_encodePortIdentity,
    if_neg (lt_irrefl _), decodeTimestamp_encodeTimestamp h, hport,
    decodePortIdentity_encodePortIdentity]

/-! ## Time scales -/

/-- The seconds of `t` on the time scale of the master fit the 48 bits of a timestamp. -/
def InRange (utcOffset : Int16) (t : Time) : Prop :=
  0 ≤ t.unix + utcOffset.toInt ∧ t.unix + utcOffset.toInt < 2 ^ 48

instance (utcOffset : Int16) (t : Time) : Decidable (InRange utcOffset t) :=
  inferInstanceAs (Decidable (_ ∧ _))

namespace InRange

variable {utcOffset : Int16} {t : Time}

/-- Go's zero time is long before 1970. -/
theorem isZero (h : InRange utcOffset t) : t.isZero = false := by
  rw [Time.isZero_eq_false]
  intro hzero
  have hoff := utcOffset.toInt_lt
  have hlow := h.1
  rw [Time.unix, hzero, unixEpoch] at hlow
  omega

theorem toNat_seconds (h : InRange utcOffset t) :
    ((Timestamp.fromTimeWithUTCOffset t utcOffset).seconds.toNat : ℤ) =
      t.unix + utcOffset.toInt := by
  obtain ⟨hlow, hhigh⟩ := h
  show ((UInt64.ofInt (t.unix + utcOffset.toInt)).toNat : ℤ) = _
  rw [UInt64.ofInt, UInt64.toNat_ofNat']
  omega

theorem seconds_lt (h : InRange utcOffset t) :
    (Timestamp.fromTimeWithUTCOffset t utcOffset).seconds.toNat < 2 ^ 48 := by
  have hsec := h.toNat_seconds
  have hhigh := h.2
  omega

/-- **UTC to TAI and back**, with the same offset. -/
theorem toTime_fromTime (h : InRange utcOffset t) :
    (Timestamp.fromTimeWithUTCOffset t utcOffset).toTimeWithUTCOffset utcOffset = t := by
  have hsec := h.toNat_seconds
  have hlt := h.seconds_lt
  have hns : ((Timestamp.fromTimeWithUTCOffset t utcOffset).nanoseconds.toNat : ℤ) =
      t.nanosecond := by
    have hlow := t.nanosecond_nonneg
    have hhigh := t.nanosecond_lt
    show ((UInt32.ofInt t.nanosecond).toNat : ℤ) = _
    rw [UInt32.ofInt, UInt32.toNat_ofNat']
    omega
  have hint : (Timestamp.fromTimeWithUTCOffset t utcOffset).seconds.toInt64.toInt =
      t.unix + utcOffset.toInt := by
    generalize (Timestamp.fromTimeWithUTCOffset t utcOffset).seconds = sec at hsec hlt
    rw [← hsec, Int64.toInt, UInt64.toBitVec_toInt64, BitVec.toInt_eq_toNat_of_lt]
    · rfl
    · show 2 * sec.toNat < 2 ^ 64
      omega
  rw [Timestamp.toTimeWithUTCOffset, hint, hns, Time.ofUnix, Time.unix, Time.nanosecond, Time.ext_iff]
  dsimp only
  omega

end InRange

end ProcessBus.Ptp
