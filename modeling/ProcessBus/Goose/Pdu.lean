import ProcessBus.Go.Bytes
import ProcessBus.Go.Time

/-!
# GOOSE messages

The domain types of `internal/domain/goose` and its `UtcTime` codec.  A message's state-change
time `t` crosses the network as 32 bits of seconds and 24 bits of binary fraction, so the
subscriber reads back `wireTime t`, not `t`.  Rounding down is monotone as long as the seconds
fit (`wireTime_mono`), which is what makes `t` usable as an ordering criterion at all.
-/

namespace ProcessBus.Goose

open Go

/-- `goose.TimeQuality`, the eighth byte of a `UtcTime`. -/
structure TimeQuality where
  leapSecondsKnown : Bool := false
  clockFailure : Bool := false
  clockNotSynchronized : Bool := false
  accuracy : UInt8 := 0
deriving DecidableEq, Repr

/-- `goose.AccuracyUnspecified`. -/
def accuracyUnspecified : UInt8 := 31

/-- `goose.DataType`: the context-specific BER tag numbers of the Data CHOICE. -/
inductive DataType
  | unknown | array | struct | boolean | bitString | integer | unsigned | floatingPoint
  | real | octetString | visibleString | binaryTime | bcd | booleanArray | utcTime
deriving DecidableEq, Repr

/-- `goose.DataValue`.  `float` is the bit pattern of the binary64 value. -/
structure DataValue where
  type : DataType
  bool : Bool := false
  int : Int64 := 0
  uint : UInt64 := 0
  float : UInt64 := 0
  bytes : Bytes := []
  bitLength : ℤ := 0
  string : Bytes := []
  time : Time := .zero
  timeQuality : TimeQuality := {}
  children : List DataValue := []

/-- `ethernet.VLANTag`. -/
structure VLANTag where
  priority : UInt8
  dei : Bool
  vid : UInt16
deriving DecidableEq, Repr

/-- `goose.PDU`. -/
structure PDU where
  dstMAC : Bytes
  srcMAC : Bytes
  vlan : Option VLANTag
  appID : UInt16
  simulation : Bool
  gocbRef : Bytes
  timeAllowedToLiveMs : UInt32
  datSet : Bytes
  goID : Bytes
  timestamp : Time
  timeQuality : TimeQuality
  stNum : UInt32
  sqNum : UInt32
  test : Bool
  confRev : UInt32
  ndsCom : Bool
  numDatSetEntries : UInt32
  allData : List DataValue

/-! ## UtcTime -/

/-- The eighth byte of `encodeUtcTime`. -/
def encodeTimeQuality (q : TimeQuality) : UInt8 :=
  (if q.leapSecondsKnown then 0x80 else 0) ||| (if q.clockFailure then 0x40 else 0) |||
    (if q.clockNotSynchronized then 0x20 else 0) ||| (q.accuracy &&& 0x1F)

/-- The 24-bit fraction that `encodeUtcTime` computes from the nanoseconds. -/
def utcFraction (t : Time) : ℕ := (t.nanosecond * 2 ^ 24 / 1000000000).toNat

/-- `encodeUtcTime`: eight bytes. -/
def encodeUtcTime (t : Time) (q : TimeQuality) : Bytes :=
  beBytes 4 (t.unix % 2 ^ 32).toNat ++ (beBytes 3 (utcFraction t) ++ [encodeTimeQuality q])

/-- `decodeUtcTime`. -/
def decodeUtcTime (data : Bytes) : Time × TimeQuality :=
  if data.length < 8 then (.zero, { accuracy := accuracyUnspecified })
  else
    let secs := beNat (slice data 0 4)
    let frac := beNat (slice data 4 7)
    let q := byteAt data 7
    (.ofUnix secs ((frac * 1000000000 / 2 ^ 24 : ℕ) : ℤ),
      { leapSecondsKnown := q &&& 0x80 != 0
        clockFailure := q &&& 0x40 != 0
        clockNotSynchronized := q &&& 0x20 != 0
        accuracy := q &&& 0x1F })

/-- The state-change time as the subscriber sees it after one trip over the wire. -/
def wireTime (t : Time) : Time :=
  .ofUnix (t.unix % 2 ^ 32) (utcFraction t * 1000000000 / 2 ^ 24 : ℕ)

theorem utcFraction_lt (t : Time) : utcFraction t < 2 ^ 24 := by
  have h₀ := t.nanosecond_nonneg
  have h₁ := t.nanosecond_lt
  unfold utcFraction
  omega

/-- Decoding an encoded time gives its wire form, whatever its quality. -/
theorem decodeUtcTime_encodeUtcTime (t : Time) (q : TimeQuality) :
    (decodeUtcTime (encodeUtcTime t q)).1 = wireTime t := by
  have hs : slice (encodeUtcTime t q) 0 4 = beBytes 4 (t.unix % 2 ^ 32).toNat :=
    slice_append (a := []) (b := beBytes 4 _) rfl (by rw [length_beBytes])
  have hf : slice (encodeUtcTime t q) 4 7 = beBytes 3 (utcFraction t) :=
    slice_append (length_beBytes 4 _) (by simp)
  have hlen : ¬ (encodeUtcTime t q).length < 8 := by simp [encodeUtcTime]
  have hsec : ((beNat (beBytes 4 (t.unix % 2 ^ 32).toNat) : ℕ) : ℤ) = t.unix % 2 ^ 32 := by
    rw [beNat_beBytes]
    omega
  have hfrac : beNat (beBytes 3 (utcFraction t)) = utcFraction t := by
    rw [beNat_beBytes]
    exact Nat.mod_eq_of_lt (utcFraction_lt t)
  simp only [decodeUtcTime, if_neg hlen, hs, hf, hsec, hfrac, wireTime]

/-! ## Order on the wire -/

/-- An instant whose seconds fit the 32 bits of a `UtcTime`. -/
def InUtcRange (t : Time) : Prop := 0 ≤ t.unix ∧ t.unix < 2 ^ 32

/-- A decoded time is never Go's zero time. -/
theorem wireTime_ne_zero (t : Time) : (wireTime t).isZero = false := by
  rw [Time.isZero_eq_false]
  have h : 0 ≤ t.unix % 2 ^ 32 := Int.emod_nonneg _ (by decide)
  simp only [wireTime, Time.ofUnix, unixEpoch]
  omega

/-- Within the range of a `UtcTime`, the trip over the wire keeps the order. -/
theorem wireTime_mono {t u : Time} (ht : InUtcRange t) (hu : InUtcRange u) (h : t ≤ u) :
    wireTime t ≤ wireTime u := by
  have htn := t.nanosecond_nonneg
  have hun := u.nanosecond_nonneg
  have htl := utcFraction_lt t
  have hfrac : t.nanosecond ≤ u.nanosecond → utcFraction t ≤ utcFraction u := by
    intro hn
    unfold utcFraction
    omega
  have hsplit : t.unix < u.unix ∨ t.unix = u.unix ∧ t.nanosecond ≤ u.nanosecond := by
    rw [Time.le_def] at h
    unfold Time.unix Time.nanosecond
    omega
  obtain ⟨ht₀, ht₁⟩ := ht
  obtain ⟨hu₀, hu₁⟩ := hu
  rw [Time.le_def]
  simp only [wireTime, Time.ofUnix, Int.emod_eq_of_lt ht₀ ht₁, Int.emod_eq_of_lt hu₀ hu₁]
  rcases hsplit with hlt | ⟨heq, hn⟩
  · omega
  · have := hfrac hn
    omega

end ProcessBus.Goose
