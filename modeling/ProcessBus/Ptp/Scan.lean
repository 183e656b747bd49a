import ProcessBus.Lib.Checked
import ProcessBus.Ptp.Wire

/-!
# The TLVs behind an Announce

The loop of `DecodeAnnounceProfileTLVs` over the bytes behind the body of an Announce.  They are a
chain of TLVs (`chain`), and the loop is a fold over it (`scan_chain`); what is left behind the last
complete TLV is an error (`scan_take_chain`).  All that the loop does to a chain follows from what
one pass does to one TLV (`readTLV_reads`).

The loop ends and stays within the bytes it is given, whatever they are
(`checkedAnnounceProfileTLVs_eq`).
-/

namespace ProcessBus.Ptp

open Go

/-! ## Chains of TLVs -/

/-- A type and a value. -/
structure TLV where
  type : UInt16
  value : Bytes

namespace TLV

/-- The value fits the length field. -/
def Wf (t : TLV) : Prop := t.value.length < 2 ^ 16

/-- A TLV on the wire. -/
def bytes (t : TLV) : Bytes :=
  beBytes 2 t.type.toNat ++ (beBytes 2 t.value.length ++ t.value)

theorem length_bytes (t : TLV) : t.bytes.length = 4 + t.value.length := by
  simp only [bytes, List.length_append, length_beBytes]
  omega

/-- The two fields of the header, in any prefix that has them. -/
theorem uint16At_take_bytes {t : TLV} (ht : t.Wf) {n : ℕ} (hn : 4 ≤ n) (rest : Bytes) :
    uint16At ((t.bytes ++ rest).take n) 0 = t.type ∧
      (uint16At ((t.bytes ++ rest).take n) 2).toNat = t.value.length := by
  obtain ⟨m, rfl⟩ := Nat.exists_eq_add_of_le hn
  have htake : (t.bytes ++ rest).take (4 + m) = beBytes 2 t.type.toNat ++
      (beBytes 2 t.value.length ++ (t.value ++ rest).take m) := by
    rw [bytes, List.append_assoc, List.append_assoc, List.take_append, List.take_append,
      List.take_of_length_le (by rw [length_beBytes]; omega),
      List.take_of_length_le (by rw [length_beBytes, length_beBytes]; omega), length_beBytes,
      length_beBytes]
    congr 3
    omega
  rw [htake]
  constructor
  · exact uint16At_eq (slice_append (a := []) (b := beBytes 2 t.type.toNat) rfl
      (by rw [length_beBytes]))
  · have hslice : slice (beBytes 2 t.type.toNat ++ (beBytes 2 t.value.length ++
        (t.value ++ rest).take m)) 2 (2 + 2) = beBytes 2 t.value.length :=
      slice_append (length_beBytes 2 _) (by rw [length_beBytes])
    have hlt : t.value.length < 2 ^ 16 := ht
    rw [uint16At, hslice, beNat_beBytes, UInt16.toNat_ofNat']
    omega

end TLV

/-- TLVs one after the other. -/
def chain (ts : List TLV) : Bytes := ts.flatMap TLV.bytes

@[simp] theorem chain_nil : chain [] = [] := rfl

@[simp] theorem chain_cons (t : TLV) (ts : List TLV) : chain (t :: ts) = t.bytes ++ chain ts := rfl

/-- The loop of `DecodeAnnounceProfileTLVs`, with enough fuel. -/
def scan (b : Bytes) (result : AnnounceProfileTLVs) : Except String AnnounceProfileTLVs :=
  decodeProfileTLVs b.length b result

/-- One pass of the loop. -/
def readTLV (result : AnnounceProfileTLVs) (t : TLV) : Except String AnnounceProfileTLVs :=
  decodeProfileTLV t.type t.value result

@[simp] theorem scan_nil (result : AnnounceProfileTLVs) : scan [] result = .ok result := rfl

theorem decodeAnnounceProfileTLVs_eq {b : Bytes} (h : announceBodySize ≤ b.length) :
    decodeAnnounceProfileTLVs b = scan (b.drop announceBodySize) {} := by
  rw [decodeAnnounceProfileTLVs, if_neg (Nat.not_lt.mpr h)]
  exact decodeProfileTLVs_fuel (by rw [List.length_drop]; omega) le_rfl

/-- One TLV is read, and then the rest. -/
theorem scan_bytes {t : TLV} (ht : t.Wf) (rest : Bytes) (result : AnnounceProfileTLVs) :
    scan (t.bytes ++ rest) result = readTLV result t >>= scan rest := by
  have hlength : (t.bytes ++ rest).length = 4 + t.value.length + rest.length := by
    rw [List.length_append, t.length_bytes]
  obtain ⟨htype, hvalue⟩ := TLV.uint16At_take_bytes ht (n := (t.bytes ++ rest).length)
    (by omega) rest
  rw [List.take_length] at htype hvalue
  have hslice : slice (t.bytes ++ rest) 4 (4 + t.value.length) = t.value := by
    rw [TLV.bytes, List.append_assoc, List.append_assoc, ← List.append_assoc]
    exact slice_append (by simp) rfl
  have hdrop : (t.bytes ++ rest).drop (4 + t.value.length) = rest :=
    List.drop_left' t.length_bytes
  obtain ⟨fuel, hfuel⟩ : ∃ fuel, (t.bytes ++ rest).length = fuel + 1 :=
    ⟨3 + t.value.length + rest.length, by omega⟩
  rw [scan, hfuel, decodeProfileTLVs]
  dsimp only
  rw [if_neg (by omega), if_neg (by omega), htype, hvalue, if_neg (by omega), hslice, hdrop]
  show _ >>= _ = _ >>= _
  congr 1
  funext r
  exact decodeProfileTLVs_fuel (by omega) le_rfl

/-- **The loop is a fold over the chain.** -/
theorem scan_chain {ts : List TLV} (hts : ∀ t ∈ ts, t.Wf) (rest : Bytes)
    (result : AnnounceProfileTLVs) :
    scan (chain ts ++ rest) result = ts.foldlM readTLV result >>= scan rest := by
  induction ts generalizing result with
  | nil => rfl
  | cons t ts ih =>
      rw [chain_cons, List.append_assoc, scan_bytes (hts t List.mem_cons_self), List.foldlM_cons,
        bind_assoc]
      congr 1
      funext r
      exact ih (fun u hu ↦ hts u (List.mem_cons_of_mem t hu)) r

/-- A part of a TLV is an error. -/
theorem scan_truncated {t : TLV} (ht : t.Wf) {n : ℕ} (hpos : 0 < n) (hn : n < t.bytes.length)
    (result : AnnounceProfileTLVs) : ∃ e, scan (t.bytes.take n) result = .error e := by
  have hlength : (t.bytes.take n).length = n := List.length_take_of_le hn.le
  obtain ⟨fuel, rfl⟩ : ∃ fuel, n = fuel + 1 := ⟨n - 1, by omega⟩
  rw [scan, hlength, decodeProfileTLVs]
  dsimp only
  rw [hlength, if_neg (by omega)]
  by_cases hshort : fuel + 1 < 4
  · exact ⟨_, if_pos hshort⟩
  · obtain ⟨-, hvalue⟩ := TLV.uint16At_take_bytes ht (n := fuel + 1) (by omega) []
    rw [List.append_nil] at hvalue
    rw [t.length_bytes] at hn
    rw [if_neg hshort, hvalue, if_pos (by omega)]
    exact ⟨_, rfl⟩

/-- The places between the TLVs of a chain. -/
def IsBoundary (ts : List TLV) (n : ℕ) : Prop := ∃ k, n = (chain (ts.take k)).length

/-- **A chain that is cut inside a TLV is an error.** -/
theorem scan_take_chain {ts : List TLV} (hts : ∀ t ∈ ts, t.Wf) {n : ℕ}
    (hn : n ≤ (chain ts).length) (hcut : ¬ IsBoundary ts n) (result : AnnounceProfileTLVs) :
    ∃ e, scan ((chain ts).take n) result = .error e := by
  induction ts generalizing n result with
  | nil => exact absurd ⟨0, Nat.le_zero.mp hn⟩ hcut
  | cons t ts ih =>
      have hpos : 0 < n := by
        rcases Nat.eq_zero_or_pos n with rfl | hpos
        · exact absurd ⟨0, rfl⟩ hcut
        · exact hpos
      have ht : t.Wf := hts t List.mem_cons_self
      rw [chain_cons, List.length_append] at hn
      rw [chain_cons, List.take_append]
      rcases Nat.lt_or_ge n t.bytes.length with hlt | hge
      · rw [Nat.sub_eq_zero_of_le hlt.le, List.take_zero, List.append_nil]
        exact scan_truncated ht hpos hlt result
      · rw [List.take_of_length_le hge, scan_bytes ht]
        cases readTLV result t with
        | error e => exact ⟨e, rfl⟩
        | ok r =>
            refine ih (fun u hu ↦ hts u (List.mem_cons_of_mem t hu)) (by omega) ?_ r
            rintro ⟨k, hk⟩
            refine hcut ⟨k + 1, ?_⟩
            rw [List.take_succ_cons, chain_cons, List.length_append, ← hk]
            omega

/-! ## What one TLV does -/

/-- A TLV of the C37.238 organisation. -/
def TLV.IsC37238 (t : TLV) : Prop :=
  t.type = tlvOrganizationExtension ∧ 3 ≤ t.value.length ∧ slice t.value 0 3 = c37238OrgID

/-- One of the two profile TLVs of that organisation. -/
def TLV.IsProfile (t : TLV) : Prop :=
  t.IsC37238 ∧ (slice t.value 3 6 = c37238OrgSubType2011 ∨ slice t.value 3 6 = c37238OrgSubType2017)

/-- A TLV of another type or of another organisation. -/
def TLV.IsUnknown (t : TLV) : Prop := t.type ≠ tlvAlternateTimeOffset ∧ ¬ t.IsC37238

instance (t : TLV) : Decidable t.IsC37238 := inferInstanceAs (Decidable (_ ∧ _))

instance (t : TLV) : Decidable t.IsUnknown := inferInstanceAs (Decidable (_ ∧ _))

variable {t : TLV} {result result' : AnnounceProfileTLVs}

/-- What one TLV does to the result. -/
inductive Reads (result : AnnounceProfileTLVs) (t : TLV) : AnnounceProfileTLVs → Prop
  /-- A C37.238 TLV with a subtype that is not known. -/
  | subtype (h : t.IsC37238) (hnone : result.c37238Version = .disabled) (hprofile : ¬ t.IsProfile) :
      Reads result t result
  | v2011 (h : t.IsC37238) (hnone : result.c37238Version = .disabled) (tlv : C37238TLV2011) :
      Reads result t { result with c37238Version := .version2011, c372382011 := some tlv }
  | v2017 (h : t.IsC37238) (hnone : result.c37238Version = .disabled) (tlv : C37238TLV2017) :
      Reads result t { result with c37238Version := .version2017, c372382017 := some tlv }
  | alternate (h : t.type = tlvAlternateTimeOffset) (hnone : result.alternateTimeOffset = none)
      (a : AlternateTimeOffsetTLV) : Reads result t { result with alternateTimeOffset := some a }
  | unknown (h : t.IsUnknown) : Reads result t result

theorem readTLV_unknown (h : t.IsUnknown) : readTLV result t = .ok result := by
  obtain ⟨htype, horg⟩ := h
  rw [readTLV, decodeProfileTLV]
  split
  · rename_i ht
    have hother : t.value.length < 3 ∨ slice t.value 0 3 ≠ c37238OrgID := by
      by_contra hcon
      rw [not_or, not_lt, not_not] at hcon
      exact horg ⟨ht, hcon⟩
    rw [decodeC37238OrganizationTLV, if_pos hother]
  · rfl

theorem decodeC37238OrganizationTLV_reads (ht : t.IsC37238)
    (h : decodeC37238OrganizationTLV t.value result = .ok result') : Reads result t result' := by
  have hour : ¬ (t.value.length < 3 ∨ slice t.value 0 3 ≠ c37238OrgID) :=
    not_or.mpr ⟨Nat.not_lt.mpr ht.2.1, not_not.mpr ht.2.2⟩
  rw [decodeC37238OrganizationTLV, if_neg hour] at h
  split_ifs at h with hsize hdup h11 h17
  · cases h
    exact .v2011 ht (not_not.mp hdup) _
  · cases h
    exact .v2017 ht (not_not.mp hdup) _
  · cases h
    exact .subtype ht (not_not.mp hdup) fun hprofile ↦ hprofile.2.elim h11 h17

/-- **Inversion of one pass.** -/
theorem readTLV_reads (h : readTLV result t = .ok result') : Reads result t result' := by
  by_cases hunknown : t.IsUnknown
  · rw [readTLV_unknown hunknown] at h
    cases h
    exact .unknown hunknown
  rw [readTLV, decodeProfileTLV] at h
  split at h
  · rename_i ht
    have htype : t.type ≠ tlvAlternateTimeOffset := by
      rw [ht]
      decide
    exact decodeC37238OrganizationTLV_reads (not_not.mp fun horg ↦ hunknown ⟨htype, horg⟩) h
  · rename_i ht
    split at h
    · rename_i halt
      split at h
      · cases h
      · rename_i hnone
        cases ha : decodeAlternateTimeOffset t.value with
        | error e => rw [ha] at h; cases h
        | ok a =>
            rw [ha] at h
            cases h
            exact .alternate halt hnone a
    · rename_i halt
      exact absurd ⟨halt, fun horg ↦ ht horg.1⟩ hunknown

/-- TLVs that are not known do not matter. -/
theorem foldlM_known (ts : List TLV) (result : AnnounceProfileTLVs) :
    ts.foldlM readTLV result = (ts.filter fun t ↦ ¬ t.IsUnknown).foldlM readTLV result := by
  induction ts generalizing result with
  | nil => rfl
  | cons t ts ih =>
      by_cases h : t.IsUnknown
      · rw [List.filter_cons_of_neg (by simpa using h), List.foldlM_cons, readTLV_unknown h]
        exact ih result
      · rw [List.filter_cons_of_pos (by simpa using h), List.foldlM_cons, List.foldlM_cons]
        congr 1
        funext r
        exact ih r

/-- After a TLV that leaves its mark on the result, one that the mark forbids is an error. -/
theorem foldlM_second (marked : AnnounceProfileTLVs → Prop) (first second : TLV → Prop)
    (hmark : ∀ {r r' t}, readTLV r t = .ok r' → marked r ∨ first t → marked r')
    (hforbid : ∀ {r r' t}, readTLV r t = .ok r' → marked r → ¬ second t) {a b : TLV}
    (ha : first a) (hb : second b) {ts : List TLV} (hts : [a, b].Sublist ts)
    (result : AnnounceProfileTLVs) : ∃ e, ts.foldlM readTLV result = .error e := by
  have hafter : ∀ {us : List TLV} {r}, marked r → b ∈ us → ∃ e, us.foldlM readTLV r = .error e := by
    intro us
    induction us with
    | nil => nofun
    | cons u us ih =>
        intro r hr hmem
        rw [List.foldlM_cons]
        cases hu : readTLV r u with
        | error e => exact ⟨e, rfl⟩
        | ok r' =>
            rcases List.mem_cons.mp hmem with rfl | hmem
            · exact absurd hb (hforbid hu hr)
            · exact ih (hmark hu (.inl hr)) hmem
  induction ts generalizing result with
  | nil => cases hts
  | cons t ts ih =>
      rw [List.foldlM_cons]
      cases ht : readTLV result t with
      | error e => exact ⟨e, rfl⟩
      | ok r =>
          cases hts with
          | cons _ hts => exact ih hts r
          | cons_cons _ hts =>
              exact hafter (hmark ht (.inr ha)) (List.singleton_sublist.mp hts)

/-- A second TLV of the C37.238 organisation is an error. -/
theorem foldlM_second_profile {a b : TLV} (ha : a.IsProfile) (hb : b.IsC37238) {ts : List TLV}
    (hts : [a, b].Sublist ts) : ∃ e, ts.foldlM readTLV {} = .error e := by
  refine foldlM_second (fun r ↦ r.c37238Version ≠ .disabled) TLV.IsProfile TLV.IsC37238 ?_ ?_ ha hb
    hts {}
  · intro r r' t hread hr
    have horg (hp : t.IsProfile) : t.type ≠ tlvAlternateTimeOffset := by
      rw [hp.1.1]
      decide
    cases readTLV_reads hread with
    | subtype h hnone hprofile => exact hr.elim (absurd hnone) (absurd · hprofile)
    | v2011 => exact C37238Version.noConfusion
    | v2017 => exact C37238Version.noConfusion
    | alternate h => exact hr.elim id fun hp ↦ absurd h (horg hp)
    | unknown h => exact hr.elim id fun hp ↦ absurd hp.1 h.2
  · intro r r' t hread hr horg
    cases readTLV_reads hread with
    | subtype h hnone => exact hr hnone
    | v2011 h hnone => exact hr hnone
    | v2017 h hnone => exact hr hnone
    | alternate h =>
        rw [horg.1] at h
        exact absurd h (by decide)
    | unknown h => exact h.2 horg

/-- So is a second alternate time offset. -/
theorem foldlM_second_alternate {a b : TLV} (ha : a.type = tlvAlternateTimeOffset)
    (hb : b.type = tlvAlternateTimeOffset) {ts : List TLV} (hts : [a, b].Sublist ts) :
    ∃ e, ts.foldlM readTLV {} = .error e := by
  have horg {t : TLV} (ht : t.type = tlvAlternateTimeOffset) : ¬ t.IsC37238 := by
    rintro ⟨htype, -⟩
    rw [ht] at htype
    exact absurd htype (by decide)
  refine foldlM_second (fun r ↦ r.alternateTimeOffset ≠ none)
    (fun t ↦ t.type = tlvAlternateTimeOffset) (fun t ↦ t.type = tlvAlternateTimeOffset) ?_ ?_ ha hb
    hts {}
  · intro r r' t hread hr
    cases readTLV_reads hread with
    | subtype h => exact hr.elim id fun ht ↦ absurd h (horg ht)
    | v2011 h => exact hr.elim id fun ht ↦ absurd h (horg ht)
    | v2017 h => exact hr.elim id fun ht ↦ absurd h (horg ht)
    | alternate => exact Option.some_ne_none _
    | unknown h => exact hr.elim id fun ht ↦ absurd ht h.1
  · intro r r' t hread hr ht
    cases readTLV_reads hread with
    | subtype h => exact horg ht h
    | v2011 h => exact horg ht h
    | v2017 h => exact horg ht h
    | alternate h hnone => exact hr hnone
    | unknown h => exact h.1 ht

/-! ## Bounds

The decoder once more, with every index and every slice checked against the length of what it is
taken from. -/

section Bounds

open Lib Lib.Checked

/-- `binary.BigEndian.Uint16(b[i:i+2])`. -/
def checkedUint16 (b : Bytes) (i : ℕ) : Checked String UInt16 := do
  return UInt16.ofNat (beNat (← sub b i (i + 2)))

/-- `binary.BigEndian.Uint32(b[i:i+4])`. -/
def checkedUint32 (b : Bytes) (i : ℕ) : Checked String UInt32 := do
  return UInt32.ofNat (beNat (← sub b i (i + 4)))

/-- The test of `decodeC37238OrganizationTLV` for the organisation, which takes no slice of a value
that is too short. -/
def checkedForeign (value : Bytes) : Checked String Bool :=
  if value.length < 3 then .ok true else do return decide ((← sub value 0 3) ≠ c37238OrgID)

def checkedOrganizationTLV (value : Bytes) (result : AnnounceProfileTLVs) :
    Checked String AnnounceProfileTLVs := do
  let n := value.length
  if ← checkedForeign value then .ok result
  else if n ≠ 18 then fail s!"ptp: invalid C37.238 organization TLV length {n}"
  else if result.c37238Version ≠ .disabled then fail "ptp: duplicate C37.238 organization TLV"
  else do
    let subtype ← sub value 3 6
    if subtype = c37238OrgSubType2011 then
      return { result with
        c37238Version := .version2011
        c372382011 := some ⟨← checkedUint16 value 6, ← checkedUint32 value 8,
          ← checkedUint32 value 12, ← checkedUint16 value 16⟩ }
    else if subtype = c37238OrgSubType2017 then
      return { result with
        c37238Version := .version2017
        c372382017 := some ⟨← checkedUint16 value 6, ← checkedUint32 value 8,
          ← checkedUint32 value 12, ← checkedUint16 value 16⟩ }
    else .ok result

def checkedAlternateTimeOffset (value : Bytes) : Checked String AlternateTimeOffsetTLV := do
  let n := value.length
  if n < 16 then fail s!"ptp: invalid ALTERNATE_TIME_OFFSET_INDICATOR TLV length {n}"
  else do
    let nameLength := (← index value 15).toNat
    let expected := 16 + nameLength
    let expectedLength := if expected % 2 ≠ 0 then expected + 1 else expected
    if n ≠ expectedLength then
      fail <| "ptp: invalid ALTERNATE_TIME_OFFSET_INDICATOR display name length " ++
        s!"{nameLength} for TLV length {n}"
    else
      let timeOfNextJump := [← index value 9, ← index value 10, ← index value 11, ← index value 12,
        ← index value 13, ← index value 14]
      return {
        keyField := ← index value 0
        currentOffset := (← checkedUint32 value 1).toInt32
        jumpSeconds := (← checkedUint32 value 5).toInt32
        timeOfNextJump := UInt64.ofNat (beNat timeOfNextJump)
        displayName := ← sub value 16 (16 + nameLength) }

def checkedProfileTLV (tlvType : UInt16) (value : Bytes) (result : AnnounceProfileTLVs) :
    Checked String AnnounceProfileTLVs :=
  if tlvType = tlvOrganizationExtension then checkedOrganizationTLV value result
  else if tlvType = tlvAlternateTimeOffset then
    match result.alternateTimeOffset with
    | some _ => fail "ptp: duplicate ALTERNATE_TIME_OFFSET_INDICATOR TLV"
    | none => do
        return { result with alternateTimeOffset := some (← checkedAlternateTimeOffset value) }
  else .ok result

/-- The loop, unrolled as often as `fuel` says. -/
def checkedProfileTLVs : ℕ → Bytes → AnnounceProfileTLVs → Checked String AnnounceProfileTLVs
  | 0, remaining, result => if remaining.length = 0 then .ok result else .error .fuel
  | fuel + 1, remaining, result => do
      let n := remaining.length
      if n = 0 then .ok result
      else if n < 4 then fail s!"ptp: truncated TLV header ({n} < 4)"
      else
        let tlvType ← checkedUint16 remaining 0
        let valueLength := (← checkedUint16 remaining 2).toNat
        let room := n - 4
        if room < valueLength then fail s!"ptp: truncated TLV value ({room} < {valueLength})"
        else do
          let value ← sub remaining 4 (4 + valueLength)
          let result ← checkedProfileTLV tlvType value result
          let remaining ← sub remaining (4 + valueLength) n
          checkedProfileTLVs fuel remaining result

/-- `DecodeAnnounceProfileTLVs`, with its accesses checked. -/
def checkedAnnounceProfileTLVs (b : Bytes) : Checked String AnnounceProfileTLVs := do
  let n := b.length
  if n < announceBodySize then
    fail s!"ptp: buffer too short for ANNOUNCE body ({n} < {announceBodySize})"
  else
    let remaining ← sub b announceBodySize n
    checkedProfileTLVs n remaining {}

theorem sub_of_le {b : Bytes} {i j : ℕ} (hij : i ≤ j) (hj : j ≤ b.length) :
    (sub b i j : Checked String Bytes) = .ok (slice b i j) :=
  if_pos ⟨hij, hj⟩

theorem slice_cons {b : Bytes} {i j : ℕ} (hi : i < b.length) (hij : i < j) :
    slice b i j = byteAt b i :: slice b (i + 1) j := by
  have hlt : i < (b.take j).length := by
    rw [List.length_take]
    omega
  rw [slice, List.drop_eq_getElem_cons hlt, List.getElem_take, byteAt, List.getD_eq_getElem?_getD,
    List.getElem?_eq_getElem hi]
  rfl

theorem index_of_lt {b : Bytes} {i : ℕ} (hi : i < b.length) :
    (index b i : Checked String UInt8) = .ok (byteAt b i) := by
  rw [index, byteAt, List.getD_eq_getElem?_getD, List.getElem?_eq_getElem hi]
  rfl

theorem checkedUint16_of_le {b : Bytes} {i : ℕ} (h : i + 2 ≤ b.length) :
    checkedUint16 b i = .ok (uint16At b i) := by
  rw [checkedUint16, sub_of_le (by omega) h]
  rfl

theorem checkedUint32_of_le {b : Bytes} {i : ℕ} (h : i + 4 ≤ b.length) :
    checkedUint32 b i = .ok (uint32At b i) := by
  rw [checkedUint32, sub_of_le (by omega) h]
  rfl

theorem checkedForeign_eq (value : Bytes) : checkedForeign value =
    .ok (decide (value.length < 3 ∨ slice value 0 3 ≠ c37238OrgID)) := by
  unfold checkedForeign
  split
  · rename_i h
    rw [decide_eq_true (.inl h)]
  · rename_i h
    rw [sub_of_le (by omega) (by omega)]
    simp [h, pure, Except.pure]

theorem checkedOrganizationTLV_eq (value : Bytes) (result : AnnounceProfileTLVs) :
    checkedOrganizationTLV value result =
      (decodeC37238OrganizationTLV value result).mapError .err := by
  unfold checkedOrganizationTLV decodeC37238OrganizationTLV
  simp only [checkedForeign_eq, ok_bind, decide_eq_true_eq]
  split_ifs with hforeign hsize hdup h11 h17
  · rfl
  · rfl
  · rfl
  all_goals
    have hlen : value.length = 18 := not_not.mp hsize
    rw [sub_of_le (by omega) (by omega), ok_bind, checkedUint16_of_le (by omega),
      checkedUint32_of_le (by omega), checkedUint32_of_le (by omega),
      checkedUint16_of_le (by omega)]
  · rw [if_pos h11]
    rfl
  · rw [if_neg h11, if_pos h17]
    rfl
  · rw [if_neg h11, if_neg h17]
    rfl

theorem checkedAlternateTimeOffset_eq (value : Bytes) :
    checkedAlternateTimeOffset value = (decodeAlternateTimeOffset value).mapError .err := by
  unfold checkedAlternateTimeOffset decodeAlternateTimeOffset
  dsimp only
  by_cases hshort : value.length < 16
  · rw [if_pos hshort, if_pos hshort]
    rfl
  rw [if_neg hshort, if_neg hshort, index_of_lt (by omega), ok_bind]
  by_cases hsize : value.length ≠ if (16 + (byteAt value 15).toNat) % 2 ≠ 0 then
      16 + (byteAt value 15).toNat + 1 else 16 + (byteAt value 15).toNat
  · rw [if_pos hsize, if_pos hsize]
    rfl
  have hname : 16 + (byteAt value 15).toNat ≤ value.length := by
    rw [not_not.mp hsize]
    split <;> omega
  have hjump : slice value 9 15 = [byteAt value 9, byteAt value 10, byteAt value 11,
      byteAt value 12, byteAt value 13, byteAt value 14] := by
    have hend : slice value 15 15 = [] := by
      rw [slice, List.drop_take, Nat.sub_self, List.take_zero]
    rw [slice_cons (by omega) (by omega), slice_cons (by omega) (by omega),
      slice_cons (by omega) (by omega), slice_cons (by omega) (by omega),
      slice_cons (by omega) (by omega), slice_cons (by omega) (by omega), hend]
  rw [if_neg hsize, if_neg hsize, hjump]
  simp only [index_of_lt (show 9 < value.length by omega),
    index_of_lt (show 10 < value.length by omega), index_of_lt (show 11 < value.length by omega),
    index_of_lt (show 12 < value.length by omega), index_of_lt (show 13 < value.length by omega),
    index_of_lt (show 14 < value.length by omega), index_of_lt (show 0 < value.length by omega),
    checkedUint32_of_le (show 1 + 4 ≤ value.length by omega),
    checkedUint32_of_le (show 5 + 4 ≤ value.length by omega),
    sub_of_le (Nat.le_add_right 16 _) hname, ok_bind]
  rfl

theorem checkedProfileTLV_eq (tlvType : UInt16) (value : Bytes) (result : AnnounceProfileTLVs) :
    checkedProfileTLV tlvType value result =
      (decodeProfileTLV tlvType value result).mapError .err := by
  unfold checkedProfileTLV decodeProfileTLV
  split
  · exact checkedOrganizationTLV_eq value result
  split
  · cases halt : result.alternateTimeOffset with
    | some a => rfl
    | none =>
        rw [checkedAlternateTimeOffset_eq]
        cases decodeAlternateTimeOffset value with
        | error e => rfl
        | ok a => rfl
  · rfl

theorem checkedProfileTLVs_eq {fuel : ℕ} {b : Bytes} (h : b.length ≤ fuel)
    (result : AnnounceProfileTLVs) :
    checkedProfileTLVs fuel b result = (decodeProfileTLVs fuel b result).mapError .err := by
  induction fuel generalizing b result with
  | zero => exact if_pos (Nat.le_zero.mp h)
  | succ fuel ih =>
      unfold checkedProfileTLVs decodeProfileTLVs
      dsimp only
      split
      · rfl
      split
      · rfl
      rw [checkedUint16_of_le (by omega), checkedUint16_of_le (by omega), ok_bind, ok_bind]
      split
      · rfl
      rw [sub_of_le (by omega) (by omega), ok_bind, checkedProfileTLV_eq]
      have hrest : slice b (4 + (uint16At b 2).toNat) b.length =
          b.drop (4 + (uint16At b 2).toNat) := by
        rw [slice, List.take_length]
      cases decodeProfileTLV (uint16At b 0) (slice b 4 (4 + (uint16At b 2).toNat)) result with
      | error e => rfl
      | ok r =>
          show (do let remaining ← sub b (4 + (uint16At b 2).toNat) b.length
                   checkedProfileTLVs fuel remaining r) = _
          rw [sub_of_le (by omega) le_rfl, ok_bind, hrest]
          exact ih (by rw [List.length_drop]; omega) r

/-- **No access is out of bounds and the loop ends**, on every byte string. -/
theorem checkedAnnounceProfileTLVs_eq (b : Bytes) :
    checkedAnnounceProfileTLVs b = (decodeAnnounceProfileTLVs b).mapError .err := by
  unfold checkedAnnounceProfileTLVs decodeAnnounceProfileTLVs
  dsimp only
  split
  · rfl
  · rename_i h
    have hrest : slice b announceBodySize b.length = b.drop announceBodySize := by
      rw [slice, List.take_length]
    rw [sub_of_le (by omega) le_rfl, ok_bind, hrest]
    exact checkedProfileTLVs_eq (by rw [List.length_drop]; omega) {}

end Bounds

end ProcessBus.Ptp
