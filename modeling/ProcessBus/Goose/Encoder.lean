import ProcessBus.Ethernet.Frame
import ProcessBus.Go.Binary32
import ProcessBus.Lib.BerInteger

/-!
# The GOOSE encoder

`internal/domain/goose/encoder.go`: a message becomes an Ethernet frame, its dataset a tree of
TLVs.  Go's `string` is a byte string; a `float64` is its bit pattern.

After the functions come the facts about the content octets they write: integers are minimal and
spell their number (`minimalUnsigned_berEncodeUint64`, `beInt_berEncodeInt`), and a bit string is
its significant bits with the padding cleared (`encodeBitString_eq`).
-/

namespace ProcessBus.Goose

open Go Ethernet Lib Lib.Ber

/-- `goose.EtherType`. -/
def etherType : UInt16 := 0x88B8

/-! ## BER helpers -/

/-- `berEncodeLength`. -/
def berEncodeLength (l : ℕ) : Bytes := lengthOctets l

/-- `berTLV`. -/
def berTLV (tag : UInt8) (value : Bytes) : Bytes := tlv tag value

/-- `berWrap`. -/
def berWrap (tag : UInt8) (data : Bytes) : Bytes := berTLV tag data

/-- `berEncodeUint64`: the shortest octets, with a zero in front where the sign bit would be. -/
def berEncodeUint64 (v : UInt64) : Bytes :=
  if v = 0 then [0]
  else
    let buf := beBytes 8 v.toNat
    let start := skip (fun a _ ↦ a == 0) buf
    let magnitude := buf.drop start
    if byteAt magnitude 0 &&& 0x80 ≠ 0 then 0 :: magnitude else magnitude

/-- `berEncodeUint`. -/
def berEncodeUint (v : UInt32) : Bytes := berEncodeUint64 v.toUInt64

/-- `berEncodeInt`: the shortest octets in two's complement. -/
def berEncodeInt (v : Int64) : Bytes :=
  if v = 0 then [0]
  else
    let buf := beBytes 8 v.toUInt64.toNat
    if 0 < v then
      let start := skip (fun a _ ↦ a == 0) buf
      -- One of the zeros stays as the sign.
      let start := if byteAt buf start &&& 0x80 ≠ 0 then start - 1 else start
      buf.drop start
    else buf.drop (skip (fun a b ↦ a == 0xFF && b &&& 0x80 != 0) buf)

/-- `berEncodeBool`. -/
def berEncodeBool (b : Bool) : Bytes := if b then [0xFF] else [0x00]

/-- `encodeFloat`: an exponent width of eight bits, and the binary32 pattern. -/
def encodeFloat (f : UInt64) : Bytes := 8 :: beBytes 4 (Binary.narrow f).toNat

/-! ## Values -/

/-- `goose.DataType` as a number. -/
def DataType.number : DataType → UInt8
  | .unknown => 0
  | .array => 1
  | .struct => 2
  | .boolean => 3
  | .bitString => 4
  | .integer => 5
  | .unsigned => 6
  | .floatingPoint => 7
  | .real => 8
  | .octetString => 9
  | .visibleString => 10
  | .binaryTime => 12
  | .bcd => 13
  | .booleanArray => 14
  | .utcTime => 17

/-- The number of bits that `encodeBitString` takes for significant. -/
def significantBits (bytes : Bytes) (bitLength : ℤ) : ℕ :=
  if bitLength ≤ 0 ∨ bytes.length * 8 < bitLength then bytes.length * 8 else bitLength.toNat

/-- `encodeBitString`, of the value's two fields that it reads. -/
def encodeBitString (bytes : Bytes) (bitLength : ℤ) : Bytes :=
  let bitLength := significantBits bytes bitLength
  let payloadLen := (bitLength + 7) / 8
  let unused := payloadLen * 8 - bitLength
  let out := UInt8.ofNat unused :: bytes.take payloadLen
  if 0 < payloadLen ∧ 0 < unused then
    out.modify (out.length - 1) (· &&& 0xFF <<< UInt8.ofNat unused)
  else out

mutual

/-- `encodeDataValue`. -/
def encodeDataValue : DataValue → Bytes
  | ⟨type, bool, int, uint, float, bytes, bitLength, string, time, timeQuality, children⟩ =>
      let tag := type.number ||| 0x80
      match type with
      | .array | .struct => berTLV (tag ||| 0x20) (encodeDataSeq children)
      | .boolean => berTLV tag (berEncodeBool bool)
      | .bitString | .booleanArray => berTLV tag (encodeBitString bytes bitLength)
      | .octetString | .binaryTime => berTLV tag bytes
      | .integer | .bcd => berTLV tag (berEncodeInt int)
      | .unsigned => berTLV tag (berEncodeUint64 uint)
      | .floatingPoint | .real => berTLV tag (encodeFloat float)
      | .visibleString => berTLV tag string
      | .utcTime => berTLV tag (encodeUtcTime time timeQuality)
      | .unknown => berTLV tag bytes

/-- `encodeDataSeq`. -/
def encodeDataSeq : List DataValue → Bytes
  | [] => []
  | dv :: values => encodeDataValue dv ++ encodeDataSeq values

end

/-! ## Messages -/

/-- The fields of a message with their tags, in the order of `encodeGoosePDUFields`. -/
def pduFields (pdu : PDU) : List (UInt8 × Bytes) :=
  [(0x80, pdu.gocbRef),
    (0x81, berEncodeUint pdu.timeAllowedToLiveMs),
    (0x82, pdu.datSet),
    (0x83, pdu.goID),
    (0x84, encodeUtcTime pdu.timestamp pdu.timeQuality),
    (0x85, berEncodeUint pdu.stNum),
    (0x86, berEncodeUint pdu.sqNum),
    (0x87, berEncodeBool pdu.test),
    (0x88, berEncodeUint pdu.confRev),
    (0x89, berEncodeBool pdu.ndsCom),
    (0x8A, berEncodeUint pdu.numDatSetEntries),
    (0xAB, encodeDataSeq pdu.allData)]

/-- `encodeGoosePDUFields`. -/
def encodeGoosePDUFields (pdu : PDU) : Bytes := (pduFields pdu).flatMap fun x ↦ berTLV x.1 x.2

/-- `Encode`. -/
def encode (pdu : PDU) : Bytes :=
  let goosePDU := berWrap 0x61 (encodeGoosePDUFields pdu)
  let apdu := apduHeader pdu.appID (8 + goosePDU.length) pdu.simulation ++ goosePDU
  writeEthernetHeader pdu.dstMAC pdu.srcMAC pdu.vlan etherType ++ apdu

/-! ## Integers -/

theorem beBytes_succ_ne_nil (n x : ℕ) : beBytes (n + 1) x ≠ [] := by
  intro h
  have := length_beBytes (n + 1) x
  rw [h] at this
  cases this

/-- The octets of a number other than zero, without leading zeros. -/
theorem magnitude_cases {n x : ℕ} (hx : 0 < x) (hlt : x < 256 ^ (n + 1)) :
    ∃ a rest, (beBytes (n + 1) x).drop (skip (fun a _ ↦ a == 0) (beBytes (n + 1) x)) = a :: rest ∧
      a ≠ 0 ∧ beNat (a :: rest) = x := by
  obtain ⟨a, rest, hdrop, hstop⟩ := skip_stop (p := fun a _ ↦ a == 0) (beBytes_succ_ne_nil n x)
  have hval : beNat (a :: rest) = x := by
    rw [← hdrop, beNat_drop_skip le_rfl, beNat_beBytes, Nat.mod_eq_of_lt hlt]
  refine ⟨a, rest, hdrop, ?_, hval⟩
  rintro rfl
  cases rest with
  | nil => exact absurd hval (Nat.ne_of_lt hx)
  | cons b r => exact absurd (hstop b r rfl) (by decide)

/-- An unsigned integer is written in the shortest form of its number. -/
theorem berEncodeUint64_spec (v : UInt64) :
    MinimalUnsigned (berEncodeUint64 v) ∧ beNat (berEncodeUint64 v) = v.toNat := by
  unfold berEncodeUint64
  split
  · rename_i h
    subst h
    decide
  · rename_i h
    have hpos : 0 < v.toNat := by
      rw [Nat.pos_iff_ne_zero]
      exact fun h₀ ↦ h (UInt64.toNat_inj.mp h₀)
    obtain ⟨a, rest, hdrop, ha, hval⟩ := magnitude_cases (n := 7) hpos v.toNat_lt
    have hhead : byteAt (a :: rest) 0 = a := rfl
    dsimp only
    rw [hdrop, hhead]
    split
    · rename_i hbit
      rw [and_0x80_ne_zero] at hbit
      refine ⟨⟨by decide, fun _ ↦ hbit⟩, ?_⟩
      rw [beNat_cons, hval]
      simp
    · rename_i hbit
      rw [ne_eq, not_not, and_0x80_eq_zero] at hbit
      refine ⟨?_, hval⟩
      cases rest with
      | nil => exact hbit
      | cons b r => exact ⟨hbit, fun h₀ ↦ absurd h₀ ha⟩

theorem toInt_eq (v : Int64) :
    v.toInt = (if 2 ^ 63 ≤ v.toUInt64.toNat then -2 ^ 64 else 0) + (v.toUInt64.toNat : ℤ) := by
  have h : v.toInt = v.toBitVec.toInt := rfl
  have hnat : v.toUInt64.toNat = v.toBitVec.toNat := rfl
  rw [h, hnat, BitVec.toInt_eq_toNat_cond]
  split <;> split <;> omega

theorem beInt_beBytes (v : Int64) : beInt (beBytes 8 v.toUInt64.toNat) = v.toInt := by
  have hlt := v.toUInt64.toNat_lt
  have hval := beNat_beBytes 8 v.toUInt64.toNat
  have hlen := length_beBytes 8 v.toUInt64.toNat
  rw [Nat.mod_eq_of_lt (by omega)] at hval
  generalize beBytes 8 v.toUInt64.toNat = buf at hval hlen
  rw [toInt_eq]
  cases buf with
  | nil => cases hlen
  | cons a rest =>
      have hrest : rest.length = 7 := Nat.succ.inj hlen
      have hlow := beNat_lt rest
      have hsplit := beNat_cons a rest
      rw [hrest] at hlow hsplit
      rw [beInt, hval, hrest]
      have hsign : 0x80 ≤ a.toNat ↔ 2 ^ 63 ≤ v.toUInt64.toNat := by omega
      simp only [hsign]
      rfl

theorem beInt_of_lt {a : UInt8} {rest : Bytes} (h : a.toNat < 0x80) :
    beInt (a :: rest) = beNat (a :: rest) := by
  rw [beInt, if_neg (not_le.mpr h), zero_add]

theorem byteAt_of_drop {data rest : Bytes} {i : ℕ} {a : UInt8} (h : data.drop i = a :: rest) :
    byteAt data i = a := by
  rw [byteAt, List.getD_eq_getElem?_getD, getElem?_of_drop h]
  rfl

/-- Where the loop over the zeros of a number below `2 ^ 63` stops at a set sign bit, it has skipped
a zero. -/
theorem drop_keep_sign {x start : ℕ} {a : UInt8} {rest : Bytes}
    (hstart : start = skip (fun a _ ↦ a == 0) (beBytes 8 x))
    (hdrop : (beBytes 8 x).drop start = a :: rest) (hbit : 0x80 ≤ a.toNat) (hx : x < 2 ^ 63) :
    (beBytes 8 x).drop (start - 1) = 0 :: a :: rest := by
  have hval (n : ℕ) (hn : n ≤ start) : beNat ((beBytes 8 x).drop n) = x := by
    rw [beNat_drop_skip (hstart ▸ hn), beNat_beBytes, Nat.mod_eq_of_lt (by omega)]
  have hlen := congrArg List.length hdrop
  rw [List.length_drop, length_beBytes, List.length_cons] at hlen
  have hstop := hval start le_rfl
  rw [hdrop, beNat_cons] at hstop
  cases start with
  | zero =>
      have hrest : rest.length = 7 := by omega
      rw [hrest] at hstop
      omega
  | succ n =>
      have hn : n < (beBytes 8 x).length := by
        rw [length_beBytes]
        omega
      have hcons := List.drop_eq_getElem_cons hn
      have hzero := hval n (Nat.le_succ n)
      rw [hcons, hdrop, beNat_cons, beNat_cons, hstop, List.length_cons] at hzero
      have hpos : 0 < 256 ^ (rest.length + 1) := by positivity
      have hfirst : (beBytes 8 x)[n].toNat = (0 : UInt8).toNat := by
        show _ = 0
        nlinarith
      rw [Nat.add_sub_cancel, hcons, hdrop, UInt8.toNat_inj.mp hfirst]

/-- A signed integer is written in at most eight octets that spell its number. -/
theorem berEncodeInt_spec (v : Int64) :
    (berEncodeInt v).length ≤ 8 ∧ beInt (berEncodeInt v) = v.toInt := by
  have hbuf := beInt_beBytes v
  unfold berEncodeInt
  split
  · rename_i h
    subst h
    decide
  · rename_i h
    have hlen (n : ℕ) : ((beBytes 8 v.toUInt64.toNat).drop n).length ≤ 8 := by
      rw [List.length_drop, length_beBytes]
      exact Nat.sub_le _ _
    dsimp only
    split
    · rename_i hpos
      have hpos' : 0 < v.toInt := Int64.lt_iff_toInt_lt.mp hpos
      have hsmall : v.toUInt64.toNat < 2 ^ 63 ∧ (v.toUInt64.toNat : ℤ) = v.toInt := by
        have hlt := v.toUInt64.toNat_lt
        have := toInt_eq v
        split at this <;> omega
      refine ⟨hlen _, ?_⟩
      obtain ⟨a, rest, hdrop, ha, hval⟩ := magnitude_cases (n := 7) (x := v.toUInt64.toNat)
        (by omega) v.toUInt64.toNat_lt
      rw [byteAt_of_drop hdrop, ← hsmall.2]
      split
      · rename_i hbit
        rw [and_0x80_ne_zero] at hbit
        rw [drop_keep_sign rfl hdrop hbit hsmall.1, beInt_of_lt (by decide), beNat_cons, hval]
        simp
      · rename_i hbit
        rw [ne_eq, not_not, and_0x80_eq_zero] at hbit
        rw [hdrop, beInt_of_lt hbit, hval]
    · refine ⟨hlen _, ?_⟩
      rw [beInt_drop_skip, hbuf]

/-! ## Bit strings -/

/-- The first `n` bits of a byte string, with the rest of the last byte cleared. -/
def cutBits (n : ℕ) (bytes : Bytes) : Bytes :=
  if n % 8 = 0 then bytes.take (n / 8)
  else bytes.take (n / 8) ++ [byteAt bytes (n / 8) &&& 0xFF <<< UInt8.ofNat (8 - n % 8)]

theorem modify_take_succ {bytes : Bytes} {k : ℕ} (hk : k < bytes.length) (f : UInt8 → UInt8) :
    (bytes.take (k + 1)).modify k f = bytes.take k ++ [f (byteAt bytes k)] := by
  have hlen : k < (bytes.take (k + 1)).length := by
    rw [List.length_take]
    omega
  rw [List.modify_eq_take_cons_drop hlen, List.take_take, Nat.min_eq_left (Nat.le_succ k),
    List.getElem_take, List.drop_of_length_le (by rw [List.length_take]; omega), byteAt,
    List.getD_eq_getElem _ _ hk]

theorem significantBits_le (bytes : Bytes) (bitLength : ℤ) :
    significantBits bytes bitLength ≤ bytes.length * 8 := by
  unfold significantBits
  split <;> omega

/-- The significant bits of a value, after the number of bits that the last octet has to spare. -/
theorem encodeBitString_eq (bytes : Bytes) (bitLength : ℤ) :
    encodeBitString bytes bitLength =
      UInt8.ofNat ((8 - significantBits bytes bitLength % 8) % 8) ::
        cutBits (significantBits bytes bitLength) bytes := by
  have hle := significantBits_le bytes bitLength
  unfold encodeBitString cutBits
  generalize significantBits bytes bitLength = n at hle
  dsimp only
  by_cases h : n % 8 = 0
  · have hlen : (n + 7) / 8 = n / 8 := by omega
    have hunused : n / 8 * 8 - n = 0 := by omega
    rw [if_pos h, hlen, hunused, h, if_neg (fun h₀ ↦ absurd h₀.2 (lt_irrefl 0))]
  · have hlen : (n + 7) / 8 = n / 8 + 1 := by omega
    have hunused : (n / 8 + 1) * 8 - n = 8 - n % 8 := by omega
    have hmod : (8 - n % 8) % 8 = 8 - n % 8 := by omega
    have htake : (bytes.take (n / 8 + 1)).length = n / 8 + 1 := by
      rw [List.length_take]
      omega
    rw [if_neg h, hlen, hunused, hmod, if_pos (by omega), List.length_cons, htake,
      Nat.add_sub_cancel, List.modify_succ_cons, modify_take_succ (by omega)]

theorem length_cutBits {n : ℕ} {bytes : Bytes} (h : n ≤ bytes.length * 8) :
    (cutBits n bytes).length = (n + 7) / 8 := by
  unfold cutBits
  split
  · rw [List.length_take]
    omega
  · rw [List.length_append, List.length_take, List.length_singleton]
    omega

end ProcessBus.Goose
