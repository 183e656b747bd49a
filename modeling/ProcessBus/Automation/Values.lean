import ProcessBus.Automation.Requests
import ProcessBus.Go.FloatText
import ProcessBus.Go.Rfc3339

/-!
# Values as JSON

How `internal/application/automation` shows a value of a GOOSE message (`signalValue`) and how it
reads one (`decodeGooseValue`), with the values that a publisher starts from
(`gooseDatasetEntryDefaultValue`) and those that an operator enters.  A text of JSON is its tree;
`encoding/json` reads back the tree it wrote.

`Holds` says which values an entry of a configured type can have, whoever writes it, and such a
value is read back from what is shown of it (`decode_shownValue`).
-/

namespace ProcessBus.Goose

open Go

/-! ## Quality -/

/-- `QualityBitLength`. -/
def qualityBitLength : ℕ := 14

/-- Octet `j` of a quality, whose bits count from the most significant one. -/
def qualityOctet (quality : UInt32) (j : ℕ) : UInt8 :=
  UInt8.ofNat (Nat.ofBits fun i : Fin 8 ↦
    decide (8 * j + (7 - i) < qualityBitLength) && quality.toNat.testBit (8 * j + (7 - i)))

/-- `NewQualityBitString`. -/
def newQualityBitString (quality : UInt32) : DataValue :=
  { type := .bitString
    bytes := (List.range ((qualityBitLength + 7) / 8)).map (qualityOctet quality)
    bitLength := qualityBitLength }

/-- The mask that `signalValue` takes from a quality. -/
def qualityMask (v : DataValue) : UInt32 :=
  UInt32.ofNat (Nat.ofBits fun bit : Fin 32 ↦
    decide ((bit : ℤ) < v.bitLength) &&
      v.bytes[bit.val / 8]?.any (·.toNat.testBit (7 - bit.val % 8)))

end ProcessBus.Goose

namespace ProcessBus.Automation

open Go Goose

/-! ## JSON -/

/-- A value of JSON. -/
inductive Json
  | null
  | bool (value : Bool)
  | number (value : Number)
  | string (value : List Char)
  | array (items : List Json)
  | object (fields : List (String × Json))

/-- The octets of a text. -/
def utf8 (text : List Char) : Bytes := text.flatMap String.utf8EncodeChar

/-- The loop over the runes of a Go string; an octet that is no UTF-8 becomes a replacement
character. -/
def runesFrom : ℕ → Bytes → List Char
  | 0, _ => []
  | _ + 1, [] => []
  | n + 1, b :: bs =>
      match (b :: bs).toByteArray.utf8DecodeChar? 0 with
      | some c => c :: runesFrom n ((b :: bs).drop c.utf8Size)
      | none => '\uFFFD' :: runesFrom n bs

def runes (s : Bytes) : List Char := runesFrom s.length s

theorem runesFrom_utf8 {n : ℕ} {text : List Char} (h : text.length ≤ n) :
    runesFrom n (utf8 text) = text := by
  induction text generalizing n with
  | nil => cases n <;> rfl
  | cons c cs ih =>
      cases n with
      | zero => cases h
      | succ n =>
          have hdecode : (utf8 (c :: cs)).toByteArray.utf8DecodeChar? 0 = some c := by
            rw [utf8, List.flatMap_cons, List.toByteArray_append]
            exact ByteArray.utf8DecodeChar?_utf8EncodeChar_append
          have hdrop : (utf8 (c :: cs)).drop c.utf8Size = utf8 cs := by
            rw [utf8, List.flatMap_cons, ← String.length_utf8EncodeChar, List.drop_left]
            rfl
          have hne : utf8 (c :: cs) ≠ [] := by
            refine List.ne_nil_of_length_pos ?_
            rw [utf8, List.flatMap_cons, List.length_append, String.length_utf8EncodeChar]
            exact Nat.add_pos_left c.utf8Size_pos _
          obtain ⟨b, bs, hcons⟩ := List.exists_cons_of_ne_nil hne
          rw [hcons] at hdecode hdrop ⊢
          rw [runesFrom, hdecode]
          dsimp only
          rw [hdrop, ih (Nat.le_of_succ_le_succ h)]

theorem length_le_utf8 (text : List Char) : text.length ≤ (utf8 text).length := by
  induction text with
  | nil => exact Nat.zero_le _
  | cons c cs ih =>
      have hsize := c.utf8Size_pos
      rw [utf8, List.flatMap_cons, List.length_append, String.length_utf8EncodeChar,
        List.length_cons]
      exact Nat.add_comm 1 _ ▸ Nat.add_le_add hsize ih

/-- A text comes back from its octets. -/
theorem runes_utf8 (text : List Char) : runes (utf8 text) = text :=
  runesFrom_utf8 (length_le_utf8 text)

/-! ## What is shown -/

/-- `hex.EncodeToString`. -/
def hexString (b : Bytes) : List Char :=
  b.flatMap fun x ↦ [Nat.digitChar (x.toNat / 16), Nat.digitChar (x.toNat % 16)]

/-- The number of JSON of what `finite` returns: a NaN and an infinity have none. -/
def finiteNumber (x : UInt64) : Json := if finite64 x then .number (formatFloat x) else .null

/-- `SignalValue`. -/
structure SignalValue where
  id : String
  name : String
  type : String
  value : Json
  children : List SignalValue

/-- The value that `signalValue` shows, of a signal of type `type`. -/
def shownValue (v : DataValue) (type : String) : Json :=
  match v.type with
  | .boolean => .bool v.bool
  | .integer | .bcd => .number (formatInt v.int.toInt)
  | .unsigned => .number (formatInt v.uint.toNat)
  | .floatingPoint | .real => finiteNumber v.float
  | .visibleString => .string (runes v.string)
  | .utcTime | .binaryTime => .string (formatRFC3339Nano v.time)
  | .bitString | .booleanArray | .octetString =>
      if type = "Quality" then .number (formatInt (qualityMask v).toNat)
      else .object [("bit_length", .number (formatInt v.bitLength)),
        ("hex", .string (hexString v.bytes))]
  | .struct | .array | .unknown => .null

mutual

/-- `signalValue`. -/
def signalValue : DataValue → String → Option Signal → SignalValue
  | ⟨type, bool, int, uint, float, bytes, bitLength, string, time, tq, children⟩, name, schema =>
      let shown := (schema.map (·.type)).getD type.string
      { id := (schema.map (·.id)).getD ""
        name := (schema.map (·.name)).getD name
        type := shown
        value := shownValue
          ⟨type, bool, int, uint, float, bytes, bitLength, string, time, tq, children⟩ shown
        children :=
          -- The children of an array schema are templates and no signals.
          if type = .struct ∨ type = .array then
            signalValues children 0
              (if type = .struct then (schema.map (·.children)).getD [] else [])
          else [] }

/-- The children from number `i` on, with the schemas that are left. -/
def signalValues : List DataValue → ℕ → List Signal → List SignalValue
  | [], _, _ => []
  | v :: vs, i, schemas =>
      signalValue v s!"[{i}]" schemas.head? :: signalValues vs (i + 1) schemas.tail

end

/-! ## What is read -/

/-- A `float32` can carry it; the patterns of the infinity and of a NaN are greater. -/
def fitsFloat32 (x : UInt64) : Bool := x.toNat % 2 ^ 63 ≤ 0x47EFFFFFE0000000

/-- `json.Unmarshal` into a `bool`. -/
def unmarshalBool : Json → Option Bool
  | .bool b => some b
  | _ => none

/-- `json.Unmarshal` into a `string`. -/
def unmarshalString : Json → Option (List Char)
  | .string text => some text
  | _ => none

/-- `json.Unmarshal` into a numeric type, whose literals `parse` reads. -/
def unmarshalNumber {α : Type} (parse : Number → Option α) : Json → Option α
  | .number n => parse n
  | _ => none

/-- The error of `decodeGooseValue` for a value of another kind. -/
def mismatch (kind : String) : String := "value does not match " ++ kind

/-- `decodeGooseValue`. -/
def decodeGooseValue (kind : String) (raw : Json) : Except String DataValue :=
  if raw matches .null then .error "value is required and must not be null"
  else if kind = "BOOLEAN" then
    match unmarshalBool raw with
    | some b => .ok { type := .boolean, bool := b }
    | none => .error (mismatch kind)
  else if kind = "INTEGER" then
    match unmarshalNumber (parseInt 64) raw with
    | some x => .ok { type := .integer, int := Int64.ofInt x }
    | none => .error (mismatch kind)
  else if kind = "UNSIGNED" then
    match unmarshalNumber (parseUint 64) raw with
    | some x => .ok { type := .unsigned, uint := UInt64.ofNat x }
    | none => .error (mismatch kind)
  else if kind = "FLOAT" then
    match unmarshalNumber parseFloat raw with
    | some x =>
        if fitsFloat32 x then .ok { type := .floatingPoint, float := x }
        else .error "float must fit a finite float32"
    | none => .error (mismatch kind)
  else if kind = "VISIBLE_STRING" then
    match unmarshalString raw with
    | some text => .ok { type := .visibleString, string := utf8 text }
    | none => .error (mismatch kind)
  else if kind = "UTC_TIME" then
    match (unmarshalString raw).bind parseRFC3339 with
    | some t =>
        if t.unix < 0 ∨ 2 ^ 32 ≤ t.unix then .error "UTC time is outside the protocol range"
        else .ok { type := .utcTime, time := t }
    | none => .error (mismatch kind)
  else if kind = "Quality" then
    match unmarshalNumber (parseUint 32) raw with
    | some mask =>
        if 2 ^ qualityBitLength ≤ mask then .error "quality mask exceeds supported bits"
        else .ok (newQualityBitString (UInt32.ofNat mask))
    | none => .error (mismatch kind)
  else .error "unsupported writable signal type"

/-! ## What is written -/

/-- `gooseDatasetEntryDefaultValue`, of an entry of this type. -/
def gooseDatasetEntryDefaultValue (type : String) : Except String DataValue :=
  if type = "bool" then .ok { type := .boolean }
  else if type = "quality" then .ok (newQualityBitString 0)
  else if type = "int" then .ok { type := .integer }
  else if type = "uint" then .ok { type := .unsigned }
  else if type = "float" then .ok { type := .floatingPoint }
  else if type = "string" then .ok { type := .visibleString }
  else if type = "utc_time" then .ok { type := .utcTime }
  else .error ("unsupported type \"" ++ type ++ "\"")

/-- The types of signals that the catalogue gives to the types of entries. -/
def signalKinds : List (String × String) :=
  [("bool", "BOOLEAN"), ("quality", "Quality"), ("int", "INTEGER"), ("uint", "UNSIGNED"),
    ("float", "FLOAT"), ("string", "VISIBLE_STRING"), ("utc_time", "UTC_TIME")]

/-- The type of the signal of an entry in the catalogue. -/
def signalKind (type : String) : String := (signalKinds.lookup type).getD "UNKNOWN"

/-- What `goosePublisherControlValue` makes of a control for an entry of this type, once its text is
parsed: `shown` is the value it was loaded with. -/
inductive Entered (shown : Option DataValue) : String → DataValue → Prop
  | unchanged {type : String} {v : DataValue} : shown = some v → Entered shown type v
  | bool (checked : Bool) : Entered shown "bool" { type := .boolean, bool := checked }
  | quality (mask : UInt32) : Entered shown "quality" (newQualityBitString mask)
  | int (x : Int64) : Entered shown "int" { type := .integer, int := x }
  | uint (x : UInt64) : Entered shown "uint" { type := .unsigned, uint := x }
  | float (b : UInt32) : (Binary.parts32 b).exp < 255 →
      Entered shown "float" { type := .floatingPoint, float := Binary.widen b }
  | string (text : List Char) :
      Entered shown "string" { type := .visibleString, string := utf8 text }
  | utcTime (t : Time) : Entered shown "utc_time" { type := .utcTime, time := t }
  | now : Entered shown "utc_time" { type := .utcTime }

/-- The values of an entry of a configured type. -/
inductive Holds : String → DataValue → Prop
  | bool (b : Bool) : Holds "bool" { type := .boolean, bool := b }
  | quality (mask : UInt32) : Holds "quality" (newQualityBitString mask)
  | int (x : Int64) : Holds "int" { type := .integer, int := x }
  | uint (x : UInt64) : Holds "uint" { type := .unsigned, uint := x }
  | float (x : UInt64) : fitsFloat32 x → Holds "float" { type := .floatingPoint, float := x }
  | string (text : List Char) : Holds "string" { type := .visibleString, string := utf8 text }
  | utcTime (t : Time) : Holds "utc_time" { type := .utcTime, time := t }

/-! ## Every writer keeps to the type -/

theorem Holds.default {type : String} {v : DataValue}
    (h : gooseDatasetEntryDefaultValue type = .ok v) : Holds type v := by
  unfold gooseDatasetEntryDefaultValue at h
  split_ifs at h with hbool hquality hint huint hfloat hstring htime <;> cases h
  · exact hbool ▸ .bool false
  · exact hquality ▸ .quality 0
  · exact hint ▸ .int 0
  · exact huint ▸ .uint 0
  · exact hfloat ▸ .float 0 (by decide)
  · exact hstring ▸ .string []
  · exact htime ▸ .utcTime .zero

/-- A finite `float32` is not too large for one. -/
theorem fitsFloat32_widen {b : UInt32} (h : (Binary.parts32 b).exp < 255) :
    fitsFloat32 (Binary.widen b) := by
  obtain ⟨hs, he, hf⟩ := Binary.parts32_lt b
  have hbound : (Binary.widenParts (Binary.parts32 b).exp (Binary.parts32 b).frac).1 * 2 ^ 52 +
      (Binary.widenParts (Binary.parts32 b).exp (Binary.parts32 b).frac).2 ≤
        0x47EFFFFFE0000000 := by
    unfold Binary.widenParts
    rw [if_neg (Nat.ne_of_lt h)]
    split_ifs with hsub hzero
    · decide
    · obtain ⟨hk, hlo, hhi⟩ := Binary.normalize_bounds hzero hf
      dsimp only
      omega
    · dsimp only
      omega
  simp only [fitsFloat32, Binary.widen, Binary.pack64, UInt64.toNat_ofNat', decide_eq_true_eq]
  omega

theorem Entered.holds {shown : Option DataValue} {type : String} {v : DataValue}
    (hshown : ∀ w, shown = some w → Holds type w) (h : Entered shown type v) : Holds type v := by
  cases h with
  | unchanged h => exact hshown v h
  | bool checked => exact .bool checked
  | quality mask => exact .quality mask
  | int x => exact .int x
  | uint x => exact .uint x
  | float b hb => exact .float _ (fitsFloat32_widen hb)
  | string text => exact .string text
  | utcTime t => exact .utcTime t
  | now => exact .utcTime .zero

theorem mem_signalKinds {type kind : String} (h : signalKind type = kind) :
    kind = "UNKNOWN" ∨ (type, kind) ∈ signalKinds := by
  unfold signalKind at h
  cases hlookup : signalKinds.lookup type with
  | none => exact .inl (by simpa [hlookup] using h.symm)
  | some k =>
      obtain rfl : k = kind := by simpa [hlookup] using h
      obtain ⟨l₁, l₂, hsplit, -⟩ := List.lookup_eq_some_iff.mp hlookup
      exact .inr (hsplit ▸ List.mem_append_right l₁ List.mem_cons_self)

/-- What `decodeGooseValue` accepts for the signal of an entry. -/
theorem Holds.decoded {type : String} {raw : Json} {v : DataValue}
    (h : decodeGooseValue (signalKind type) raw = .ok v) : Holds type v := by
  generalize hkind : signalKind type = kind at h
  have hmem := mem_signalKinds hkind
  clear hkind
  unfold decodeGooseValue at h
  split_ifs at h with hnull hbool hint huint hfloat hstring htime hquality
  · obtain rfl : type = "bool" := by simpa [hbool, signalKinds] using hmem
    split at h <;> cases h
    exact .bool _
  · obtain rfl : type = "int" := by simpa [hint, signalKinds] using hmem
    split at h <;> cases h
    exact .int _
  · obtain rfl : type = "uint" := by simpa [huint, signalKinds] using hmem
    split at h <;> cases h
    exact .uint _
  · obtain rfl : type = "float" := by simpa [hfloat, signalKinds] using hmem
    split at h
    · split_ifs at h with hfits
      cases h
      exact .float _ hfits
    · cases h
  · obtain rfl : type = "string" := by simpa [hstring, signalKinds] using hmem
    split at h <;> cases h
    exact .string _
  · obtain rfl : type = "utc_time" := by simpa [htime, signalKinds] using hmem
    split at h
    · split_ifs at h
      cases h
      exact .utcTime _
    · cases h
  · obtain rfl : type = "quality" := by simpa [hquality, signalKinds] using hmem
    split at h
    · split_ifs at h
      cases h
      exact .quality _
    · cases h

/-! ## What is shown is read back -/

theorem testBit_qualityOctet (quality : UInt32) (j : ℕ) {i : ℕ} (hi : i < 8) :
    (qualityOctet quality j).toNat.testBit i =
      (decide (8 * j + (7 - i) < qualityBitLength) && quality.toNat.testBit (8 * j + (7 - i))) := by
  rw [qualityOctet, UInt8.toNat_ofNat', Nat.mod_eq_of_lt (Nat.ofBits_lt_two_pow _),
    Nat.testBit_ofBits_lt _ _ hi]

/-- The mask of a quality has the bits that a quality can have. -/
theorem testBit_qualityMask (quality : UInt32) (bit : ℕ) :
    (qualityMask (newQualityBitString quality)).toNat.testBit bit =
      (decide (bit < qualityBitLength) && quality.toNat.testBit bit) := by
  rw [qualityMask, UInt32.toNat_ofNat', Nat.mod_eq_of_lt (Nat.ofBits_lt_two_pow _)]
  by_cases hbit : bit < qualityBitLength
  · have h32 : bit < 32 := Nat.lt_trans hbit (by decide)
    have hoctet : (newQualityBitString quality).bytes[bit / 8]? =
        some (qualityOctet quality (bit / 8)) := by
      have hlt : bit / 8 < (qualityBitLength + 7) / 8 := by
        unfold qualityBitLength at hbit ⊢
        omega
      simp [newQualityBitString, List.getElem?_range hlt]
    have hplace : 8 * (bit / 8) + (7 - (7 - bit % 8)) = bit := by omega
    have hlength : (bit : ℤ) < (newQualityBitString quality).bitLength := Int.ofNat_lt.mpr hbit
    rw [Nat.testBit_ofBits_lt _ _ h32]
    dsimp only
    rw [hoctet, Option.any_some, testBit_qualityOctet _ _ (by omega), hplace,
      decide_eq_true hlength, decide_eq_true hbit, Bool.true_and, Bool.true_and]
  · rw [decide_eq_false hbit, Bool.false_and]
    by_cases h32 : bit < 32
    · have hlength : ¬ (bit : ℤ) < (newQualityBitString quality).bitLength :=
        fun h ↦ hbit (Int.ofNat_lt.mp h)
      rw [Nat.testBit_ofBits_lt _ _ h32]
      dsimp only
      rw [decide_eq_false hlength, Bool.false_and]
    · exact Nat.testBit_ofBits_ge _ _ (Nat.le_of_not_lt h32)

/-- A quality keeps the bits it has. -/
theorem newQualityBitString_qualityMask (quality : UInt32) :
    newQualityBitString (qualityMask (newQualityBitString quality)) =
      newQualityBitString quality := by
  have hoctet : ∀ j, qualityOctet (qualityMask (newQualityBitString quality)) j =
      qualityOctet quality j := by
    intro j
    refine congrArg UInt8.ofNat (congrArg Nat.ofBits ?_)
    funext i
    rw [testBit_qualityMask, ← Bool.and_assoc, Bool.and_self]
  generalize qualityMask (newQualityBitString quality) = mask at hoctet
  simp only [newQualityBitString, funext hoctet]

theorem qualityMask_lt (quality : UInt32) :
    (qualityMask (newQualityBitString quality)).toNat < 2 ^ qualityBitLength := by
  refine Nat.lt_pow_two_of_testBit _ fun bit hbit ↦ ?_
  rw [testBit_qualityMask, decide_eq_false (Nat.not_lt.mpr hbit), Bool.false_and]

/-- **A value is read back from what is shown of it**, a time only if a `UtcTime` can carry it. -/
theorem decode_shownValue {type : String} {v : DataValue} (h : Holds type v)
    (htime : v.type = .utcTime → InUtcRange v.time) :
    decodeGooseValue (signalKind type) (shownValue v (signalKind type)) = .ok v := by
  cases h with
  | bool b => rfl
  | quality quality =>
      have hkind : signalKind "quality" = "Quality" := rfl
      have hread := parseUint_format 32 (qualityMask (newQualityBitString quality)).toNat_lt
      have hlt := qualityMask_lt quality
      rw [hkind]
      change decodeGooseValue "Quality"
        (.number (formatInt (qualityMask (newQualityBitString quality)).toNat)) = _
      simp [decodeGooseValue, unmarshalNumber, hread, not_le.mpr hlt,
        newQualityBitString_qualityMask]
  | int x =>
      have hkind : signalKind "int" = "INTEGER" := rfl
      have hread := parseInt_format 64 x.le_toInt x.toInt_lt
      simp [decodeGooseValue, hkind, shownValue, unmarshalNumber, hread]
  | uint x =>
      have hkind : signalKind "uint" = "UNSIGNED" := rfl
      have hread := parseUint_format 64 x.toNat_lt
      simp [decodeGooseValue, hkind, shownValue, unmarshalNumber, hread]
  | float x hx =>
      have hkind : signalKind "float" = "FLOAT" := rfl
      have hfinite : finite64 x := decide_eq_true
        (Nat.lt_of_le_of_lt (of_decide_eq_true hx) (by decide))
      have hread := parseFloat_format hfinite
      simp [decodeGooseValue, hkind, shownValue, finiteNumber, hfinite, unmarshalNumber, hread, hx]
  | string text =>
      have hkind : signalKind "string" = "VISIBLE_STRING" := rfl
      simp [decodeGooseValue, hkind, shownValue, unmarshalString, runes_utf8]
  | utcTime t =>
      have hkind : signalKind "utc_time" = "UTC_TIME" := rfl
      obtain ⟨h0, h1⟩ : InUtcRange t := htime rfl
      obtain ⟨hy0, hy1⟩ := year_of_unix h0 h1
      have hread := parse_format hy0 hy1
      simp [decodeGooseValue, hkind, shownValue, unmarshalString, hread]
      omega

end ProcessBus.Automation
