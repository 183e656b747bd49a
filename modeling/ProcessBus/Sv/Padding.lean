import ProcessBus.Goose.Grammar
import ProcessBus.Lib.Agree
import ProcessBus.Sv.Decoder

/-!
# Padding behind the APDU

A captured frame may be longer than the APDU it declares (Ethernet pads short frames) or, where the
capture was cut, shorter.  Both decoders read lengths out of the whole frame rather than out of the
container they are in, so a length field at the end of a container is read from behind it.  None of
this matters to what they accept: `OnlyAPDU` says that a frame is accepted for the bytes up to its
declared end alone, and not when they are not all there.

GOOSE is read off `Goose.Decodes`.  The Sampled Values decoder clamps a container that is too long
and goes on; there the argument is that a clamp leaves a warning, no later step removes one, and the
live path takes no frame with such a warning.
-/

namespace ProcessBus

open Go Ethernet Lib Lib.Checked Lib.Ber

/-! ## The declared end -/

namespace Ethernet

/-- Where the APDU of a frame ends by its length field, if the frame has one. -/
def declaredEnd (frame : Bytes) : Option ℕ :=
  match (readHeader () () frame : Checked Unit Header) with
  | .error _ => none
  | .ok h =>
      match (readApduHeader () frame h.offset : Checked Unit ApduHeader) with
      | .error _ => none
      | .ok a => some (h.offset + a.length)

theorem declaredEnd_eq_some {frame : Bytes} {n : ℕ} {ε : Type} (short truncated : ε) :
    declaredEnd frame = some n ↔
      ∃ h a, readHeader short truncated frame = .ok h ∧
        readApduHeader short frame h.offset = .ok a ∧ h.offset + a.length = n := by
  have hheader : ∀ h, (readHeader () () frame : Checked Unit Header) = .ok h ↔
      readHeader short truncated frame = .ok h := fun h ↦
    readHeader_eq_ok.trans readHeader_eq_ok.symm
  have hapdu : ∀ o a, (readApduHeader () frame o : Checked Unit ApduHeader) = .ok a ↔
      readApduHeader short frame o = .ok a := fun o a ↦
    readApduHeader_eq_ok.trans readApduHeader_eq_ok.symm
  simp only [← hheader, ← hapdu, declaredEnd]
  cases readHeader () () frame with
  | error e => simp
  | ok h =>
      cases ha : (readApduHeader () frame h.offset : Checked Unit ApduHeader) with
      | error e => simp [ha]
      | ok a => simp [ha]

section Agree

variable {ε : Type} {n : ℕ} {frame frame' : Bytes}

theorem readUint16_of_agree (h : Agree n frame frame') {i : ℕ} (hi : i + 2 ≤ n) :
    (readUint16 frame i : Checked ε UInt16) = readUint16 frame' i := by
  rw [readUint16, readUint16, h.sub hi]

/-- Frames that agree beyond the longest header have the same header. -/
theorem readHeader_of_agree (h : Agree n frame frame') (hn : 18 ≤ n) (short short' truncated : ε) :
    readHeader short truncated frame = readHeader short' truncated frame' := by
  have hl := h.le_left
  have hr := h.le_right
  have hlong : ¬ frame.length < 14 ∧ ¬ frame'.length < 14 := by omega
  have htagged : ¬ frame.length < 18 ∧ ¬ frame'.length < 18 := by omega
  have hdst : (sub frame 0 6 : Checked ε Bytes) = sub frame' 0 6 := h.sub (by omega)
  have hsrc : (sub frame 6 12 : Checked ε Bytes) = sub frame' 6 12 := h.sub (by omega)
  have hword : ∀ i, i ≤ 16 → (readUint16 frame i : Checked ε UInt16) = readUint16 frame' i :=
    fun i hi ↦ readUint16_of_agree h (by omega)
  simp only [readHeader, hlong, htagged, if_false, hdst, hsrc, hword 12 (by decide),
    hword 14 (by decide), hword 16 (by decide)]

theorem readApduHeader_of_agree (h : Agree n frame frame') {offset : ℕ} (hn : offset + 8 ≤ n)
    (short : ε) : readApduHeader short frame offset = readApduHeader short frame' offset := by
  have hl := h.le_left
  have hr := h.le_right
  rw [readApduHeader, readApduHeader, if_neg (by omega), if_neg (by omega),
    readUint16_of_agree h (by omega), readUint16_of_agree h (by omega),
    readUint16_of_agree h (by omega)]

end Agree

/-- What a decoder that is to ignore the padding has to do. -/
structure OnlyAPDU {ε α : Type} (decode : Bytes → Checked ε α) : Prop where
  /-- The bytes behind the declared end may be replaced, extended or removed. -/
  unchanged : ∀ frame x n, decode frame = .ok x → declaredEnd frame = some n →
    ∀ tail, decode (frame.take n ++ tail) = .ok x
  /-- A frame that ends before its declared end is rejected. -/
  truncated : ∀ frame n, declaredEnd frame = some n → frame.length < n →
    ∀ x, decode frame ≠ .ok x
  /-- A frame too short to declare an end is rejected. -/
  undeclared : ∀ frame, declaredEnd frame = none → ∀ x, decode frame ≠ .ok x
  /-- Two frames that are the same up to their declared end are accepted alike. -/
  determined : ∀ frame frame' n, declaredEnd frame = some n → declaredEnd frame' = some n →
    frame.take n = frame'.take n → ∀ x, decode frame = .ok x ↔ decode frame' = .ok x

/-- It is enough that an accepted frame reaches its declared end, and that every frame that agrees
with it up to there is accepted with the same result. -/
theorem onlyAPDU_of_agree {ε α : Type} {decode : Bytes → Checked ε α}
    (h : ∀ frame x, decode frame = .ok x → ∃ n, declaredEnd frame = some n ∧
      n ≤ frame.length ∧ ∀ frame', Agree n frame frame' → decode frame' = .ok x) :
    OnlyAPDU decode := by
  have hhalf : ∀ frame frame' n, declaredEnd frame = some n → frame.take n = frame'.take n →
      ∀ x, decode frame = .ok x → decode frame' = .ok x := by
    intro frame frame' n hn htake x hx
    obtain ⟨m, hm, hle, hagree⟩ := h frame x hx
    obtain rfl : m = n := Option.some.inj (hm.symm.trans hn)
    refine hagree frame' ⟨hle, ?_, htake⟩
    have hlen := congrArg List.length htake
    rw [List.length_take_of_le hle, List.length_take] at hlen
    exact min_eq_left_iff.mp hlen.symm
  refine ⟨fun frame x n hx hn tail ↦ ?_, fun frame n hn hlt x hx ↦ ?_,
    fun frame hn x hx ↦ ?_, fun frame frame' n hn hn' htake x ↦ ?_⟩
  · obtain ⟨m, hm, hle, hagree⟩ := h frame x hx
    obtain rfl : m = n := Option.some.inj (hm.symm.trans hn)
    exact hagree _ (agree_take_append hle tail)
  · obtain ⟨m, hm, hle, -⟩ := h frame x hx
    obtain rfl : m = n := Option.some.inj (hm.symm.trans hn)
    exact absurd hle (not_le.mpr hlt)
  · obtain ⟨m, hm, -⟩ := h frame x hx
    exact absurd (hm.symm.trans hn) (by simp)
  · exact ⟨hhalf frame frame' n hn htake x, hhalf frame' frame n hn' htake.symm x⟩

end Ethernet

/-! ## GOOSE -/

/-- What precedes the padding of an accepted frame ends at its declared end. -/
theorem Goose.decode_onlyAPDU : OnlyAPDU Goose.decode := by
  refine onlyAPDU_of_agree fun frame pdu hok ↦ ?_
  have hd := Goose.decode_eq_ok.mp hok
  cases hd with
  | @mk header reserved2 octets inner padding h a items s hheader htype hreserved hlength hlt
      hoctets htiles hread hvalid =>
    set body : Bytes := 0x61 :: (octets ++ inner) with hbody
    set apdu : Bytes := header ++ (beBytes 2 a.appID.toNat ++ (beBytes 2 a.length ++
      (beBytes 2 a.reserved1.toNat ++ (reserved2 ++ body)))) with hapdu
    have hframe : ∀ rest : Bytes, header ++ (beBytes 2 a.appID.toNat ++ (beBytes 2 a.length ++
        (beBytes 2 a.reserved1.toNat ++ (reserved2 ++ (body ++ rest))))) = apdu ++ rest := by
      intro rest
      rw [hapdu]
      simp only [List.append_assoc]
    have hsize : apdu.length = h.offset + a.length := by
      rw [hapdu, hbody]
      simp only [List.length_append, List.length_cons, length_beBytes, hreserved,
        hheader.length_eq]
      omega
    rw [hframe padding]
    refine ⟨h.offset + a.length, ?_, ?_, fun frame' hagree ↦ ?_⟩
    · have hoffset : (apdu ++ padding).drop h.offset = beBytes 2 a.appID.toNat ++
          (beBytes 2 a.length ++ (beBytes 2 a.reserved1.toNat ++ (reserved2 ++
            (body ++ padding)))) := by
        rw [← hframe padding, ← hheader.length_eq, List.drop_left]
      refine (declaredEnd_eq_some () ()).mpr ⟨h, a, ?_, ?_, rfl⟩
      · exact readHeader_eq_ok.mpr ⟨header, _, (hframe padding).symm, hheader⟩
      · exact readApduHeader_eq_ok.mpr ⟨hlt, reserved2, _, hreserved, hoffset⟩
    · rw [List.length_append, hsize]
      exact Nat.le_add_right _ _
    · have htake : frame'.take (h.offset + a.length) = apdu := by
        rw [← hagree.take_eq, ← hsize, List.take_left]
      have hsplit : frame' = apdu ++ frame'.drop (h.offset + a.length) := by
        rw [← htake, List.take_append_drop]
      rw [hsplit, ← hframe]
      exact Goose.decode_eq_ok.mpr (.mk hheader htype hreserved hlength hlt hoctets htiles hread
        hvalid)

/-! ## Sampled Values -/

namespace Sv.Wire

variable {n : ℕ} {frame frame' : Bytes} {h : Headers}

/-- No warning that keeps the frame from the live path. -/
def Quiet (warnings : List DecodeWarning) : Prop := ∀ w ∈ warnings, w.rejectLive = false

theorem quiet_append {ws ws' : List DecodeWarning} :
    Quiet (ws ++ ws') ↔ Quiet ws ∧ Quiet ws' := by
  simp only [Quiet, List.mem_append, or_imp, forall_and]

/-- A warning that is only given under a condition was not given. -/
theorem not_of_quiet_ite {c : Prop} [Decidable c] {m : Message}
    (hq : Quiet (if c then [liveWarning m] else [])) : ¬ c := by
  intro hc
  rw [if_pos hc] at hq
  exact absurd (hq _ List.mem_cons_self) (by simp [liveWarning])

theorem decodeASDU_of_agree (hagree : Agree n frame frame') {offset stop : ℕ} (hstop : stop ≤ n)
    {x : ASDU × List DecodeWarning} (hok : decodeASDU frame offset stop = .ok x) :
    decodeASDU frame' offset stop = .ok x := by
  have hl := hagree.le_left
  have hr := hagree.le_right
  rw [decodeASDU, bind_eq_ok] at hok ⊢
  obtain ⟨s, hwalk, hs⟩ := hok
  exact ⟨s, (hagree.walk hstop (by omega) (by omega)).mp hwalk, hs⟩

/-- The loop over the ASDUs only adds warnings. -/
theorem decodeASDUs_warnings {seqEnd fuel offset : ℕ} {out r : DecodedFrame}
    (hok : decodeASDUs h frame seqEnd fuel offset out = .ok r) :
    ∃ ws, r.warnings = out.warnings ++ ws := by
  induction fuel generalizing offset out with
  | zero => exact absurd hok nofun
  | succ fuel ih =>
      rw [decodeASDUs] at hok
      split at hok
      · simp only [bind_eq_ok, guard_eq_ok] at hok
        obtain ⟨tag, -, -, ⟨asduLen, offset'⟩, -, ⟨asdu, warnings⟩, -, hrest⟩ := hok
        obtain ⟨ws, hws⟩ := ih hrest
        exact ⟨_, hws.trans (List.append_assoc _ _ _)⟩
      · cases hok
        exact ⟨[], (List.append_nil _).symm⟩

/-- The loop over the ASDUs does the same on both frames, if it ends without a live warning. -/
theorem decodeASDUs_of_agree (hagree : Agree n frame frame') {seqEnd fuel fuel' offset : ℕ}
    (hend : seqEnd ≤ n) (hfuel : seqEnd - offset < fuel') {out r : DecodedFrame}
    (hok : decodeASDUs h frame seqEnd fuel offset out = .ok r) (hquiet : Quiet r.warnings) :
    decodeASDUs h frame' seqEnd fuel' offset out = .ok r := by
  induction fuel generalizing fuel' offset out with
  | zero => exact absurd hok nofun
  | succ fuel ih =>
      obtain ⟨fuel', rfl⟩ : ∃ k, fuel' = k + 1 := ⟨fuel' - 1, by omega⟩
      rw [decodeASDUs] at hok ⊢
      split at hok
      · rename_i hlt
        rw [if_pos hlt]
        simp only [bind_eq_ok, guard_eq_ok] at hok ⊢
        obtain ⟨tag, htag, h30, ⟨asduLen, offset'⟩, hlen, x, hasdu, hrest⟩ := hok
        -- a length that reaches behind the sequence would have left a warning
        have hfits : ¬ seqEnd < offset' + asduLen := by
          obtain ⟨ws, hws⟩ := decodeASDUs_warnings hrest
          rw [hws, quiet_append, quiet_append, quiet_append] at hquiet
          exact not_of_quiet_ite hquiet.1.2.1
        dsimp only at hasdu hrest
        rw [if_neg hfits] at hasdu
        have hoffset : offset + 1 ≤ offset' := by
          obtain ⟨octets, -, -, -, hoff⟩ := readLength_eq_ok.mp hlen
          omega
        refine ⟨tag, (hagree.index (by omega)).symm.trans htag, h30, (asduLen, offset'),
          hagree.readLength hlen (by omega), x, ?_, ?_⟩
        · dsimp only
          rw [if_neg hfits]
          exact decodeASDU_of_agree hagree (by omega) hasdu
        · dsimp only
          refine ih ?_ hrest
          rw [if_neg hfits]
          omega
      · rename_i hge
        rw [if_neg hge]
        exact hok

theorem readNoASDU_of_agree (hagree : Agree n frame frame') {offset savEnd : ℕ}
    (hend : savEnd ≤ n) {x : ℕ × ℕ × List DecodeWarning}
    (hok : readNoASDU frame offset savEnd = .ok x) : readNoASDU frame' offset savEnd = .ok x := by
  by_cases hlt : offset < savEnd
  · simp only [readNoASDU, if_pos hlt, bind_eq_ok, Except.ok.injEq] at hok ⊢
    obtain ⟨present, ⟨tag, htag, rfl⟩, hrest⟩ := hok
    refine ⟨tag == 0x80, ⟨tag, (hagree.index (by omega)).symm.trans htag, rfl⟩, ?_⟩
    cases hpresent : tag == 0x80 with
    | false =>
        rw [hpresent] at hrest
        exact hrest
    | true =>
        simp only [hpresent, if_true, bind_eq_ok, guard_eq_ok] at hrest ⊢
        obtain ⟨⟨fieldLen, offset'⟩, hlen, hroom, data, hdata, hx⟩ := hrest
        dsimp only at hroom hdata
        refine ⟨(fieldLen, offset'), hagree.readLength hlen (by omega), hroom, data, ?_, hx⟩
        exact (hagree.sub (show offset' + fieldLen ≤ n by omega)).symm.trans hdata
  · simp only [readNoASDU, if_neg hlt] at hok ⊢
    exact hok

theorem decodeSavPDU_warnings {offset savEnd : ℕ} {out r : DecodedFrame}
    (hok : decodeSavPDU h frame offset savEnd out = .ok r) :
    ∃ ws, r.warnings = out.warnings ++ ws := by
  simp only [decodeSavPDU, bind_eq_ok, guard_eq_ok] at hok
  obtain ⟨⟨noASDU, offset₁, warnings⟩, -, -, tag, -, -, ⟨seqLen, offset₂⟩, -, out', hasdus, hr⟩ :=
    hok
  obtain ⟨ws, hws⟩ := decodeASDUs_warnings hasdus
  cases hr
  dsimp only at hws ⊢
  rw [hws]
  simp only [List.append_assoc]
  exact ⟨_, rfl⟩

/-- The savPDU is decoded the same on both frames, if it ends without a live warning. -/
theorem decodeSavPDU_of_agree (hagree : Agree n frame frame') {offset savEnd : ℕ}
    (hend : savEnd ≤ n) {out r : DecodedFrame}
    (hok : decodeSavPDU h frame offset savEnd out = .ok r) (hquiet : Quiet r.warnings) :
    decodeSavPDU h frame' offset savEnd out = .ok r := by
  have hr := hagree.le_right
  simp only [decodeSavPDU, bind_eq_ok, guard_eq_ok] at hok ⊢
  obtain ⟨⟨noASDU, offset₁, warnings⟩, hno, hroom, tag, htag, hA2, ⟨seqLen, offset₂⟩, hlen, out',
    hasdus, hr'⟩ := hok
  dsimp only at hroom htag hlen hasdus
  cases hr'
  obtain ⟨ws, hws⟩ := decodeASDUs_warnings hasdus
  dsimp only at hquiet hws
  rw [quiet_append] at hquiet
  have hfits : ¬ savEnd < offset₂ + seqLen := by
    have hq := hquiet.1
    rw [hws, quiet_append, quiet_append] at hq
    exact not_of_quiet_ite hq.1.2
  refine ⟨(noASDU, offset₁, warnings), readNoASDU_of_agree hagree hend hno, hroom, tag,
    (hagree.index (show offset₁ < n by omega)).symm.trans htag, hA2, (seqLen, offset₂),
    hagree.readLength hlen (by omega), out', ?_, rfl⟩
  dsimp only
  rw [if_neg hfits] at hasdus ⊢
  exact decodeASDUs_of_agree hagree (by omega) (by omega) hasdus hquiet.1

/-- The live path takes the ASDUs of a frame without a live warning. -/
theorem decode_eq_ok {asdus : List ASDU} :
    decode frame = .ok asdus ↔ ∃ decoded, decodeFrame frame = .ok decoded ∧
      decoded.nonSV = false ∧ decoded.asdus.length ≠ 0 ∧ Quiet decoded.warnings ∧
        decoded.asdus = asdus := by
  simp only [decode, bind_eq_ok, guard_eq_ok, Bool.not_eq_true]
  refine exists_congr fun decoded ↦ and_congr_right fun _ ↦ and_congr_right fun _ ↦
    and_congr_right fun _ ↦ ?_
  have hquiet : Quiet decoded.warnings ↔ decoded.warnings.find? (·.rejectLive) = none := by
    rw [List.find?_eq_none]
    simp only [Quiet, Bool.not_eq_true]
  rw [hquiet]
  cases decoded.warnings.find? (·.rejectLive) with
  | none => simp
  | some w => simp [fail_ne_ok]

/-- A frame decoded without a live warning reaches its declared end, and a frame that agrees with
it up to there is decoded alike. -/
theorem decodeFrame_of_quiet {r : DecodedFrame} (hok : decodeFrame frame = .ok r)
    (hsv : r.nonSV = false) (hquiet : Quiet r.warnings) :
    ∃ n, declaredEnd frame = some n ∧ n ≤ frame.length ∧
      ∀ frame', Agree n frame frame' → decodeFrame frame' = .ok r := by
  rw [decodeFrame, bind_eq_ok] at hok
  obtain ⟨h, hheader, hok⟩ := hok
  split at hok
  · cases hok
    exact absurd hsv (by simp)
  rename_i htype
  simp only [bind_eq_ok, guard_eq_ok] at hok
  obtain ⟨a, hapdu, reserved2, hreserved, h8, hpos, tag, htag, h60, ⟨savLen, offset⟩, hlen,
    hsav⟩ := hok
  have hoffset : h.offset = 14 ∨ h.offset = 18 := by
    obtain ⟨bytes, -, -, hbytes⟩ := readHeader_eq_ok.mp hheader
    cases hbytes with
    | untagged => exact .inl rfl
    | tagged => exact .inr rfl
  dsimp only at hsav
  -- either clamp would have left a warning
  obtain ⟨hshort, hexceeds⟩ : ¬ frame.length < h.offset + 8 + a.length - 8 ∧
      ¬ h.offset + 8 + a.length - 8 < offset + savLen := by
    obtain ⟨ws, hws⟩ := decodeSavPDU_warnings hsav
    rw [hws, quiet_append, quiet_append] at hquiet
    have hshort := not_of_quiet_ite hquiet.1.1
    refine ⟨hshort, ?_⟩
    have hexceeds := not_of_quiet_ite hquiet.1.2
    rwa [if_neg hshort] at hexceeds
  rw [if_neg hshort] at hpos
  simp only [if_neg hshort, if_neg hexceeds] at hsav
  refine ⟨h.offset + a.length, ?_, by omega, fun frame' hagree ↦ ?_⟩
  · refine (declaredEnd_eq_some () ()).mpr ⟨h, a, ?_, ?_, rfl⟩
    · exact readHeader_eq_ok.mpr (readHeader_eq_ok.mp hheader)
    · exact readApduHeader_eq_ok.mpr (readApduHeader_eq_ok.mp hapdu)
  · have hr := hagree.le_right
    have hshort' : ¬ frame'.length < h.offset + 8 + a.length - 8 := by omega
    rw [decodeFrame, bind_eq_ok]
    refine ⟨h, (readHeader_of_agree hagree (by omega) _ _ _).symm.trans hheader, ?_⟩
    rw [if_neg htype]
    simp only [bind_eq_ok, guard_eq_ok]
    refine ⟨a, (readApduHeader_of_agree hagree (by omega) _).symm.trans hapdu, reserved2,
      (readUint16_of_agree hagree (by omega)).symm.trans hreserved, h8, ?_, tag,
      (hagree.index (by omega)).symm.trans htag, h60, (savLen, offset),
      hagree.readLength hlen (by omega), ?_⟩
    · rw [if_neg hshort']
      exact hpos
    · simp only [if_neg hshort', if_neg hexceeds]
      exact decodeSavPDU_of_agree hagree (by omega) hsav hquiet

theorem decode_onlyAPDU : OnlyAPDU decode := by
  refine onlyAPDU_of_agree fun frame asdus hok ↦ ?_
  obtain ⟨decoded, hframe, hsv, hne, hquiet, rfl⟩ := decode_eq_ok.mp hok
  obtain ⟨n, hn, hle, hagree⟩ := decodeFrame_of_quiet hframe hsv hquiet
  exact ⟨n, hn, hle, fun frame' h ↦
    decode_eq_ok.mpr ⟨decoded, hagree frame' h, hsv, hne, hquiet, rfl⟩⟩

end Sv.Wire

/-- **Padding and truncation.**  Neither decoder accepts a frame that ends before its declared end,
or returns anything else when the bytes behind that end are replaced, extended or removed; whether
it accepts a frame depends on the bytes up to the declared end alone. -/
theorem decoders_ignore_padding : OnlyAPDU Goose.decode ∧ OnlyAPDU Sv.Wire.decode :=
  ⟨Goose.decode_onlyAPDU, Sv.Wire.decode_onlyAPDU⟩

end ProcessBus
