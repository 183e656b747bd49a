import ProcessBus.Goose.Pdu
import ProcessBus.Lib.Ber

/-!
# Ethernet and APDU headers

GOOSE and Sampled Values share the outer layers of a frame: two addresses, at most one 802.1Q tag,
an EtherType, and the eight bytes of AppID, length and two reserved words.  Both encoders write
them with the same code and both decoders read them with the same code, so they are modelled once.

The readers are specified by what stands at an offset of the frame (`readUint16_eq_ok`,
`readHeader_eq_ok`, `readApduHeader_eq_ok`), and what was written is read back.
-/

namespace ProcessBus.Ethernet

open Go Goose Lib Lib.Checked Lib.Ber

/-- `ethernet.EtherTypeVLAN`. -/
def etherTypeVLAN : UInt16 := 0x8100

/-! ## Writing -/

/-- `copy(frame[i:i+n], b)` into a frame that is still zero. -/
def copied (n : ℕ) (b : Bytes) : Bytes := (b ++ List.replicate n 0).take n

/-- The tag control information of an 802.1Q tag. -/
def tci (v : VLANTag) : UInt16 :=
  let tci := v.priority.toUInt16 <<< 13 ||| (v.vid &&& 0x0FFF)
  if v.dei then tci ||| 0x1000 else tci

/-- `writeEthernetHeader`, and the header part of `goose.Encode`. -/
def writeEthernetHeader (dst src : Bytes) (vlan : Option VLANTag) (etherType : UInt16) : Bytes :=
  copied 6 dst ++ (copied 6 src ++
    match vlan with
    | none => beBytes 2 etherType.toNat
    | some v =>
        beBytes 2 etherTypeVLAN.toNat ++ (beBytes 2 (tci v).toNat ++ beBytes 2 etherType.toNat))

/-- AppID, length, `Reserved1` with the simulation bit, and `Reserved2`. -/
def apduHeader (appID : UInt16) (length : ℕ) (simulation : Bool) : Bytes :=
  beBytes 2 appID.toNat ++ (beBytes 2 length ++
    (beBytes 2 (if simulation then 0x8000 else 0) ++ beBytes 2 0))

/-! ## Reading -/

variable {ε : Type}

/-- `binary.BigEndian.Uint16(data[i:i+2])`. -/
def readUint16 (data : Bytes) (i : ℕ) : Checked ε UInt16 := do
  let b ← sub data i (i + 2)
  .ok (UInt16.ofNat (beNat b))

/-- What precedes the APDU, and where that begins. -/
structure Header where
  dstMAC : Bytes
  srcMAC : Bytes
  vlan : Option VLANTag
  etherType : UInt16
  offset : ℕ

/-- The tag that a decoder reads out of the control information. -/
def vlanOfTCI (tci : UInt16) : VLANTag where
  priority := (tci >>> 13).toUInt8
  dei := (tci >>> 12) &&& 1 == 1
  vid := tci &&& 0x0FFF

/-- The first part of both decoders. -/
def readHeader (short truncated : ε) (frame : Bytes) : Checked ε Header :=
  if frame.length < 14 then fail short
  else do
    let dstMAC ← sub frame 0 6
    let srcMAC ← sub frame 6 12
    let etherType ← readUint16 frame 12
    if etherType = etherTypeVLAN then
      if frame.length < 18 then fail truncated
      else do
        let tci ← readUint16 frame 14
        let etherType ← readUint16 frame 16
        .ok ⟨dstMAC, srcMAC, some (vlanOfTCI tci), etherType, 18⟩
    else .ok ⟨dstMAC, srcMAC, none, etherType, 14⟩

/-- The part of the APDU header that both decoders read. -/
structure ApduHeader where
  appID : UInt16
  length : ℕ
  reserved1 : UInt16

def readApduHeader (short : ε) (frame : Bytes) (offset : ℕ) : Checked ε ApduHeader :=
  if frame.length < offset + 8 then fail short
  else do
    let appID ← readUint16 frame offset
    let apduLen ← readUint16 frame (offset + 2)
    let reserved1 ← readUint16 frame (offset + 4)
    .ok ⟨appID, apduLen.toNat, reserved1⟩

/-! ## What was read -/

theorem length_of_drop {data a b : Bytes} {i : ℕ} (h : data.drop i = a ++ b) (ha : 0 < a.length) :
    i + a.length ≤ data.length := by
  have hlen := congrArg List.length h
  rw [List.length_drop, List.length_append] at hlen
  omega

theorem drop_of_drop {data a b : Bytes} {i j : ℕ} (h : data.drop i = a ++ b)
    (hj : i + a.length = j) : data.drop j = b := by
  rw [← hj, ← List.drop_drop, h, List.drop_left']
  rfl

/-- A sub-slice is what stands at its offset. -/
theorem sub_eq_ok_iff_drop {data b : Bytes} {i j : ℕ} (hij : i < j) :
    (sub data i j : Checked ε Bytes) = .ok b ↔
      b.length = j - i ∧ ∃ rest, data.drop i = b ++ rest := by
  rw [sub_eq_ok]
  constructor
  · rintro ⟨⟨-, hj⟩, rfl⟩
    exact ⟨length_slice hj, data.drop j, slice_append_drop hij.le⟩
  · rintro ⟨hlen, rest, hdrop⟩
    have hroom := length_of_drop hdrop (by omega)
    exact ⟨⟨hij.le, by omega⟩, slice_of_drop hdrop (by omega)⟩

theorem ofNat_beNat_eq_iff {b : Bytes} (hb : b.length = 2) {x : UInt16} :
    UInt16.ofNat (beNat b) = x ↔ b = beBytes 2 x.toNat := by
  have hlt := beNat_lt b
  rw [hb] at hlt
  constructor
  · rintro rfl
    rw [UInt16.toNat_ofNat', Nat.mod_eq_of_lt (by omega), ← hb, beBytes_beNat]
  · rintro rfl
    rw [beNat_beBytes, Nat.mod_eq_of_lt (by have := x.toNat_lt; omega), UInt16.ofNat_toNat]

/-- A 16-bit word is what stands at its offset. -/
theorem readUint16_eq_ok {data : Bytes} {i : ℕ} {x : UInt16} :
    (readUint16 data i : Checked ε UInt16) = .ok x ↔
      ∃ rest, data.drop i = beBytes 2 x.toNat ++ rest := by
  unfold readUint16
  simp only [bind_eq_ok, sub_eq_ok_iff_drop (show i < i + 2 by omega), Except.ok.injEq]
  constructor
  · rintro ⟨b, ⟨hlen, rest, hdrop⟩, hx⟩
    refine ⟨rest, ?_⟩
    rw [hdrop, (ofNat_beNat_eq_iff (by omega)).mp hx]
  · rintro ⟨rest, hdrop⟩
    exact ⟨_, ⟨by rw [length_beBytes]; omega, rest, hdrop⟩,
      (ofNat_beNat_eq_iff (length_beBytes 2 _)).mpr rfl⟩

theorem safe_readUint16 {data : Bytes} {i : ℕ} (h : i + 2 ≤ data.length) :
    Safe (readUint16 data i : Checked ε UInt16) :=
  Safe.bind (safe_sub ⟨by omega, h⟩) fun _ _ ↦ safe_ok

/-- The bytes of an Ethernet header with at most one 802.1Q tag, and what they say. -/
inductive IsHeader : Bytes → Header → Prop
  | untagged {dst src : Bytes} {etherType : UInt16} (hdst : dst.length = 6) (hsrc : src.length = 6)
      (hne : etherType ≠ etherTypeVLAN) :
      IsHeader (dst ++ (src ++ beBytes 2 etherType.toNat)) ⟨dst, src, none, etherType, 14⟩
  | tagged {dst src : Bytes} {tci etherType : UInt16} (hdst : dst.length = 6)
      (hsrc : src.length = 6) :
      IsHeader (dst ++ (src ++ (beBytes 2 etherTypeVLAN.toNat ++
          (beBytes 2 tci.toNat ++ beBytes 2 etherType.toNat))))
        ⟨dst, src, some (vlanOfTCI tci), etherType, 18⟩

theorem IsHeader.length_eq {bytes : Bytes} {h : Header} (hh : IsHeader bytes h) :
    bytes.length = h.offset := by
  cases hh with
  | untagged hdst hsrc => simp [hdst, hsrc]
  | tagged hdst hsrc => simp [hdst, hsrc]

theorem IsHeader.offset_le {bytes : Bytes} {h : Header} (hh : IsHeader bytes h) : h.offset ≤ 18 := by
  cases hh with
  | untagged => exact (by decide : 14 ≤ 18)
  | tagged => exact le_rfl

/-- The reader accepts a frame exactly if it begins with a header. -/
theorem readHeader_eq_ok {short truncated : ε} {frame : Bytes} {h : Header} :
    readHeader short truncated frame = .ok h ↔
      ∃ bytes rest, frame = bytes ++ rest ∧ IsHeader bytes h := by
  unfold readHeader
  simp only [guard_eq_ok, bind_eq_ok, sub_eq_ok_iff_drop (show 0 < 6 by decide),
    sub_eq_ok_iff_drop (show 6 < 12 by decide), readUint16_eq_ok, List.drop_zero]
  constructor
  · rintro ⟨-, dst, ⟨hdst, rest₁, h₁⟩, src, ⟨hsrc, rest₂, h₂⟩, etherType, ⟨rest₃, h₃⟩, hok⟩
    obtain rfl := (drop_of_drop (i := 0) h₁ (by omega)).symm.trans h₂
    obtain rfl := (drop_of_drop h₂ (by omega)).symm.trans h₃
    have h₄ : frame.drop 14 = rest₃ := drop_of_drop h₃ rfl
    split at hok
    · rename_i htag
      subst htag
      simp only [guard_eq_ok, bind_eq_ok, readUint16_eq_ok, Except.ok.injEq] at hok
      obtain ⟨-, tci, ⟨rest₄, h₅⟩, etherType, ⟨rest₅, h₆⟩, rfl⟩ := hok
      obtain rfl := h₄.symm.trans h₅
      obtain rfl := (drop_of_drop h₅ rfl).symm.trans h₆
      refine ⟨_, rest₅, ?_, .tagged (by omega) (by omega)⟩
      rw [h₁]
      simp only [List.append_assoc]
    · rename_i hne
      cases hok
      refine ⟨_, rest₃, ?_, .untagged (by omega) (by omega) hne⟩
      rw [h₁]
      simp only [List.append_assoc]
  · rintro ⟨bytes, rest, hframe, hbytes⟩
    have hlen : bytes.length ≤ frame.length := by simp [hframe]
    rw [hbytes.length_eq] at hlen
    cases hbytes with
    | @untagged dst src etherType hdst hsrc hne =>
        simp only [List.append_assoc] at hframe
        have h₂ : frame.drop 6 = _ := drop_of_drop (i := 0) hframe (by omega)
        have h₃ : frame.drop 12 = _ := drop_of_drop h₂ (by omega)
        refine ⟨by dsimp only at hlen; omega, dst, ⟨hdst, _, hframe⟩, src, ⟨hsrc, _, h₂⟩, etherType,
          ⟨_, h₃⟩, if_neg hne⟩
    | @tagged dst src tci etherType hdst hsrc =>
        simp only [List.append_assoc] at hframe
        have h₂ : frame.drop 6 = _ := drop_of_drop (i := 0) hframe (by omega)
        have h₃ : frame.drop 12 = _ := drop_of_drop h₂ (by omega)
        have h₄ : frame.drop 14 = _ := drop_of_drop h₃ rfl
        have h₅ : frame.drop 16 = _ := drop_of_drop h₄ rfl
        refine ⟨by dsimp only at hlen; omega, dst, ⟨hdst, _, hframe⟩, src, ⟨hsrc, _, h₂⟩,
          etherTypeVLAN, ⟨_, h₃⟩, ?_⟩
        simp only [if_true, guard_eq_ok, bind_eq_ok, readUint16_eq_ok]
        exact ⟨by dsimp only at hlen; omega, tci, ⟨_, h₄⟩, etherType, ⟨_, h₅⟩, rfl⟩

theorem safe_readHeader {short truncated : ε} {frame : Bytes} :
    Safe (readHeader short truncated frame) := by
  refine Safe.guard fun hlen ↦ ?_
  refine Safe.bind (safe_sub ⟨by omega, by omega⟩) fun dst _ ↦ ?_
  refine Safe.bind (safe_sub ⟨by omega, by omega⟩) fun src _ ↦ ?_
  refine Safe.bind (safe_readUint16 (by omega)) fun etherType _ ↦ ?_
  split
  · refine Safe.guard fun hlen ↦ ?_
    refine Safe.bind (safe_readUint16 (by omega)) fun tci _ ↦ ?_
    exact Safe.bind (safe_readUint16 (by omega)) fun _ _ ↦ safe_ok
  · exact safe_ok

theorem readApduHeader_eq_ok {short : ε} {frame : Bytes} {offset : ℕ} {a : ApduHeader} :
    readApduHeader short frame offset = .ok a ↔
      a.length < 2 ^ 16 ∧ ∃ reserved2 rest, reserved2.length = 2 ∧
        frame.drop offset = beBytes 2 a.appID.toNat ++ (beBytes 2 a.length ++
          (beBytes 2 a.reserved1.toNat ++ (reserved2 ++ rest))) := by
  unfold readApduHeader
  simp only [guard_eq_ok, bind_eq_ok, readUint16_eq_ok, Except.ok.injEq]
  constructor
  · rintro ⟨hlen, appID, ⟨rest₁, h₁⟩, len, ⟨rest₂, h₂⟩, reserved1, ⟨rest₃, h₃⟩, rfl⟩
    obtain rfl := (drop_of_drop h₁ rfl).symm.trans h₂
    obtain rfl := (drop_of_drop h₂ rfl).symm.trans h₃
    have hrest : frame.drop (offset + 6) = rest₃ := drop_of_drop h₃ rfl
    refine ⟨len.toNat_lt, rest₃.take 2, rest₃.drop 2, ?_, ?_⟩
    · rw [← hrest, List.length_take, List.length_drop]
      omega
    · rw [h₁, List.take_append_drop]
  · rintro ⟨hlt, reserved2, rest, hres, h₁⟩
    have hlen : frame.length - offset = 8 + rest.length := by
      rw [← List.length_drop, h₁]
      simp only [List.length_append, length_beBytes, hres]
      omega
    have h₂ := drop_of_drop h₁ (j := offset + 2) rfl
    have h₃ := drop_of_drop h₂ (j := offset + 4) rfl
    have hlen' : (UInt16.ofNat a.length).toNat = a.length := by
      rw [UInt16.toNat_ofNat', Nat.mod_eq_of_lt hlt]
    exact ⟨by omega, a.appID, ⟨_, h₁⟩, UInt16.ofNat a.length, ⟨_, by rw [hlen']; exact h₂⟩,
      a.reserved1, ⟨_, h₃⟩, by rw [hlen']⟩

/-- What stands behind the APDU header. -/
theorem drop_apduHeader {frame reserved2 rest : Bytes} {offset x y z : ℕ}
    (hreserved : reserved2.length = 2)
    (h : frame.drop offset = beBytes 2 x ++ (beBytes 2 y ++ (beBytes 2 z ++ (reserved2 ++ rest)))) :
    frame.drop (offset + 8) = rest := by
  have h₂ := drop_of_drop h (j := offset + 2) rfl
  have h₄ := drop_of_drop h₂ (j := offset + 4) rfl
  have h₆ := drop_of_drop h₄ (j := offset + 6) rfl
  exact drop_of_drop h₆ (by rw [hreserved])

theorem safe_readApduHeader {short : ε} {frame : Bytes} {offset : ℕ} :
    Safe (readApduHeader short frame offset) := by
  refine Safe.guard fun hlen ↦ ?_
  refine Safe.bind (safe_readUint16 (by omega)) fun appID _ ↦ ?_
  refine Safe.bind (safe_readUint16 (by omega)) fun apduLen _ ↦ ?_
  exact Safe.bind (safe_readUint16 (by omega)) fun _ _ ↦ safe_ok

/-! ## What was written is read -/

/-- A tag that fits its bits. -/
structure VLANFits (v : VLANTag) : Prop where
  priority : v.priority ≤ 7
  vid : v.vid ≤ 0x0FFF

/-- The fields of a tag that fits stand next to each other. -/
theorem toNat_tci {v : VLANTag} (hv : VLANFits v) :
    (tci v).toNat = v.priority.toNat * 2 ^ 13 + (if v.dei then 2 ^ 12 else 0) + v.vid.toNat := by
  have hp : v.priority.toNat ≤ 7 := hv.priority
  have hid : v.vid.toNat < 2 ^ 12 := Nat.lt_succ_of_le hv.vid
  have hmask : v.vid.toNat &&& 0x0FFF = v.vid.toNat := by
    rw [Nat.and_two_pow_sub_one_eq_mod v.vid.toNat 12, Nat.mod_eq_of_lt hid]
  have hshift : (v.priority.toUInt16 <<< 13).toNat = v.priority.toNat <<< 13 := by
    rw [UInt16.toNat_shiftLeft, UInt8.toNat_toUInt16]
    show v.priority.toNat <<< 13 % 2 ^ 16 = _
    rw [Nat.shiftLeft_eq]
    omega
  have hdei : v.vid.toNat ||| 2 ^ 12 = 2 ^ 12 + v.vid.toNat := by
    rw [Nat.or_comm, ← Nat.one_shiftLeft, Nat.shiftLeft_add_eq_or_of_lt hid]
  have htci : (v.priority.toUInt16 <<< 13 ||| (v.vid &&& 0x0FFF)).toNat =
      v.priority.toNat <<< 13 ||| v.vid.toNat := by
    rw [UInt16.toNat_or, hshift, UInt16.toNat_and]
    exact congrArg _ hmask
  unfold tci
  dsimp only
  split
  · rw [UInt16.toNat_or, htci]
    show v.priority.toNat <<< 13 ||| v.vid.toNat ||| 2 ^ 12 = _
    rw [Nat.or_assoc, hdei, ← Nat.shiftLeft_add_eq_or_of_lt (by omega), Nat.shiftLeft_eq]
    omega
  · rw [htci, ← Nat.shiftLeft_add_eq_or_of_lt (by omega), Nat.shiftLeft_eq]
    omega

theorem vlanOfTCI_tci {v : VLANTag} (hv : VLANFits v) : vlanOfTCI (tci v) = v := by
  have hp : v.priority.toNat ≤ 7 := hv.priority
  have hid : v.vid.toNat < 2 ^ 12 := Nat.lt_succ_of_le hv.vid
  have h := toNat_tci hv
  obtain ⟨priority, dei, vid⟩ := v
  dsimp only at h hp hid
  simp only [vlanOfTCI, VLANTag.mk.injEq]
  refine ⟨?_, ?_, ?_⟩
  · rw [← UInt8.toNat_inj, UInt16.toNat_toUInt8, UInt16.toNat_shiftRight, h]
    show (priority.toNat * 2 ^ 13 + (if dei then 2 ^ 12 else 0) + vid.toNat) >>> 13 % 2 ^ 8 = _
    rw [Nat.shiftRight_eq_div_pow]
    split <;> omega
  · have hbit : ((tci ⟨priority, dei, vid⟩ >>> 12) &&& 1).toNat = if dei then 1 else 0 := by
      rw [UInt16.toNat_and, UInt16.toNat_shiftRight, h]
      show (priority.toNat * 2 ^ 13 + (if dei then 2 ^ 12 else 0) + vid.toNat) >>> 12 &&& 1 = _
      rw [Nat.shiftRight_eq_div_pow, Nat.and_one_is_mod]
      split <;> omega
    rw [Bool.eq_iff_iff, beq_iff_eq, ← UInt16.toNat_inj, hbit]
    cases dei <;> decide
  · rw [← UInt16.toNat_inj, UInt16.toNat_and, h]
    show (priority.toNat * 2 ^ 13 + (if dei then 2 ^ 12 else 0) + vid.toNat) &&& (2 ^ 12 - 1) = _
    rw [Nat.and_two_pow_sub_one_eq_mod]
    split <;> omega

/-- What is written for six-byte addresses and a tag that fits is a header of the frame. -/
theorem isHeader_writeEthernetHeader {dst src : Bytes} {vlan : Option VLANTag} {etherType : UInt16}
    (hdst : dst.length = 6) (hsrc : src.length = 6) (hvlan : ∀ v ∈ vlan, VLANFits v)
    (hne : etherType ≠ etherTypeVLAN) :
    ∃ offset, IsHeader (writeEthernetHeader dst src vlan etherType)
      ⟨dst, src, vlan, etherType, offset⟩ := by
  have hcopied {b : Bytes} (hb : b.length = 6) : copied 6 b = b := by
    rw [copied, ← hb, List.take_left']
    rfl
  unfold writeEthernetHeader
  rw [hcopied hdst, hcopied hsrc]
  cases vlan with
  | none => exact ⟨14, .untagged hdst hsrc hne⟩
  | some v =>
      have h : IsHeader _ ⟨dst, src, some (vlanOfTCI (tci v)), etherType, 18⟩ :=
        .tagged hdst hsrc
      rw [vlanOfTCI_tci (hvlan v rfl)] at h
      exact ⟨18, h⟩

end ProcessBus.Ethernet
