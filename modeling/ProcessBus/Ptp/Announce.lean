import ProcessBus.Ptp.Scan

/-!
# Announce messages with profile TLVs

The encoders of `internal/domain/ptp/codec.go` for an Announce with a C37.238 TLV and an alternate
time offset.  They write into a buffer whose size they have computed before; what stands there is a
body and a chain of TLVs (`encodeAnnounceC37238_eq`), and it is read back (`announce_codec`).
-/

namespace ProcessBus.Ptp

open Go

variable {result : AnnounceProfileTLVs}

/-! ## Encoders -/

/-- `make([]byte, total)`, with the fields written into it one after the other from its start. -/
def filled (total : ℕ) (fields : Bytes) : Bytes :=
  (fields ++ List.replicate (total - fields.length) 0).take total

/-- `alternateTimeOffsetValueSize`: an even number of bytes. -/
def alternateTimeOffsetValueSize (tlv : AlternateTimeOffsetTLV) : ℕ :=
  let size := 1 + 4 + 4 + 6 + 1 + tlv.displayName.length
  if size % 2 ≠ 0 then size + 1 else size

/-- The value of the TLV, without the byte that makes it even. -/
def alternateTimeOffsetFields (tlv : AlternateTimeOffsetTLV) : Bytes :=
  [tlv.keyField] ++ beBytes 4 tlv.currentOffset.toUInt32.toNat ++
    beBytes 4 tlv.jumpSeconds.toUInt32.toNat ++ beBytes 6 tlv.timeOfNextJump.toNat ++
    [UInt8.ofNat tlv.displayName.length] ++ tlv.displayName

/-- `encodeAlternateTimeOffset`. -/
def encodeAlternateTimeOffset (tlv : AlternateTimeOffsetTLV) : Bytes :=
  beBytes 2 tlvAlternateTimeOffset.toNat ++ beBytes 2 (alternateTimeOffsetValueSize tlv) ++
    alternateTimeOffsetFields tlv

/-- `EncodeAnnounceC372382011` and `EncodeAnnounceC372382017`, which differ in the subtype and in
the names of the last twelve bytes of the profile TLV. -/
def encodeAnnounceC37238 (h : Header) (body : AnnounceBody) (subtype fields : Bytes)
    (alternate : Option AlternateTimeOffsetTLV) : Bytes :=
  let c37TLVValueSize := 18
  let alternateSize := (alternate.map fun a ↦ 4 + alternateTimeOffsetValueSize a).getD 0
  let total := headerSize + announceBodySize + (4 + c37TLVValueSize) + alternateSize
  filled total <|
    encodeHeader { h with messageLength := UInt16.ofNat total } ++ encodeAnnounceBody body ++
      beBytes 2 tlvOrganizationExtension.toNat ++ beBytes 2 c37TLVValueSize ++ c37238OrgID ++
      subtype ++ fields ++ (alternate.map encodeAlternateTimeOffset).getD []

/-- The last twelve bytes of a profile TLV: a number, two more and another one. -/
def profileFields (id : UInt16) (x y : UInt32) (z : UInt16) : Bytes :=
  beBytes 2 id.toNat ++ (beBytes 4 x.toNat ++ (beBytes 4 y.toNat ++ beBytes 2 z.toNat))

def encodeAnnounceC372382011 (h : Header) (body : AnnounceBody) (tlv : C37238TLV2011)
    (alternate : Option AlternateTimeOffsetTLV) : Bytes :=
  encodeAnnounceC37238 h body c37238OrgSubType2011
    (profileFields tlv.grandmasterID tlv.grandmasterTimeInaccuracy tlv.networkTimeInaccuracy
      tlv.reserved) alternate

def encodeAnnounceC372382017 (h : Header) (body : AnnounceBody) (tlv : C37238TLV2017)
    (alternate : Option AlternateTimeOffsetTLV) : Bytes :=
  encodeAnnounceC37238 h body c37238OrgSubType2017
    (profileFields tlv.grandmasterID tlv.reserved tlv.totalTimeInaccuracy tlv.reserved2) alternate

/-! ## What the encoders write -/

/-- A TLV of the C37.238 organisation. -/
def organizationTLV (subtype fields : Bytes) : TLV :=
  ⟨tlvOrganizationExtension, c37238OrgID ++ (subtype ++ fields)⟩

/-- The TLV of an alternate time offset, with the byte that makes it even. -/
def AlternateTimeOffsetTLV.tlv (a : AlternateTimeOffsetTLV) : TLV :=
  ⟨tlvAlternateTimeOffset, alternateTimeOffsetFields a ++
    List.replicate (alternateTimeOffsetValueSize a - (16 + a.displayName.length)) 0⟩

theorem filled_eq {total : ℕ} (pad : ℕ) {fields : Bytes} (h : total = fields.length + pad) :
    filled total fields = fields ++ List.replicate pad 0 := by
  subst h
  rw [filled, Nat.add_sub_cancel_left, List.take_of_length_le]
  rw [List.length_append, List.length_replicate]

/-- A header and what follows it, in a buffer with some room left. -/
theorem filled_encodeHeader (h : Header) {total pad : ℕ} {body : Bytes}
    (htotal : total = headerSize + body.length + pad) :
    filled total (encodeHeader { h with messageLength := UInt16.ofNat total } ++ body) =
      encodeMessage h (body ++ List.replicate pad 0) := by
  have hlength : total = headerSize + (body ++ List.replicate pad 0).length := by
    rw [List.length_append, List.length_replicate, htotal, Nat.add_assoc]
  rw [filled_eq pad, encodeMessage, ← hlength, List.append_assoc]
  rw [List.length_append, length_encodeHeader]
  exact htotal

theorem length_alternateTimeOffsetFields (a : AlternateTimeOffsetTLV) :
    (alternateTimeOffsetFields a).length = 16 + a.displayName.length := by
  simp only [alternateTimeOffsetFields, List.length_append, length_beBytes, List.length_singleton]

theorem le_alternateTimeOffsetValueSize (a : AlternateTimeOffsetTLV) :
    16 + a.displayName.length ≤ alternateTimeOffsetValueSize a := by
  unfold alternateTimeOffsetValueSize
  dsimp only
  split <;> omega

theorem length_alternate_value (a : AlternateTimeOffsetTLV) :
    a.tlv.value.length = alternateTimeOffsetValueSize a := by
  have hle := le_alternateTimeOffsetValueSize a
  show (alternateTimeOffsetFields a ++ List.replicate _ 0).length = _
  rw [List.length_append, List.length_replicate, length_alternateTimeOffsetFields]
  omega

theorem bytes_alternate (a : AlternateTimeOffsetTLV) :
    a.tlv.bytes = encodeAlternateTimeOffset a ++
      List.replicate (alternateTimeOffsetValueSize a - (16 + a.displayName.length)) 0 := by
  rw [TLV.bytes, length_alternate_value, encodeAlternateTimeOffset, List.append_assoc,
    List.append_assoc]
  rfl

theorem length_encodeAnnounceBody (body : AnnounceBody) :
    (encodeAnnounceBody body).length = announceBodySize := by
  simp [encodeAnnounceBody, length_encodeTimestamp, timestampSize, announceBodySize]

/-- **The layout of an Announce with profile TLVs.** -/
theorem encodeAnnounceC37238_eq (h : Header) (body : AnnounceBody) {subtype fields : Bytes}
    (hsub : subtype.length = 3) (hfields : fields.length = 12)
    (alternate : Option AlternateTimeOffsetTLV) :
    encodeAnnounceC37238 h body subtype fields alternate =
      encodeMessage h (encodeAnnounceBody body ++
        chain (organizationTLV subtype fields ::
          alternate.toList.map AlternateTimeOffsetTLV.tlv)) := by
  have hvalue : (organizationTLV subtype fields).value.length = 18 := by
    show (c37238OrgID ++ (subtype ++ fields)).length = 18
    rw [List.length_append, List.length_append, hsub, hfields]
    rfl
  have hlength : (encodeAnnounceBody body ++ (organizationTLV subtype fields).bytes).length =
      announceBodySize + (4 + 18) := by
    rw [List.length_append, length_encodeAnnounceBody, TLV.length_bytes, hvalue]
  have hbytes : beBytes 2 tlvOrganizationExtension.toNat ++ (beBytes 2 18 ++ (c37238OrgID ++
      (subtype ++ fields))) = (organizationTLV subtype fields).bytes := by
    rw [TLV.bytes, hvalue]
    rfl
  unfold encodeAnnounceC37238
  dsimp only
  cases alternate with
  | none =>
      have htotal : headerSize + announceBodySize + (4 + 18) + 0 = headerSize +
          (encodeAnnounceBody body ++ (organizationTLV subtype fields).bytes).length + 0 := by
        rw [hlength]
        omega
      have hfilled := filled_encodeHeader h htotal
      simp only [List.append_assoc, Option.map_none, Option.getD_none, List.append_nil, hbytes,
        Option.toList_none, List.map_nil, chain_cons, chain_nil, List.replicate_zero] at hfilled ⊢
      exact hfilled
  | some a =>
      have hle := le_alternateTimeOffsetValueSize a
      have htotal :
          headerSize + announceBodySize + (4 + 18) + (4 + alternateTimeOffsetValueSize a) =
            headerSize + (encodeAnnounceBody body ++ (organizationTLV subtype fields).bytes ++
            encodeAlternateTimeOffset a).length +
            (alternateTimeOffsetValueSize a - (16 + a.displayName.length)) := by
        rw [List.length_append, hlength, encodeAlternateTimeOffset, List.length_append,
          List.length_append, length_beBytes, length_beBytes, length_alternateTimeOffsetFields]
        omega
      have hfilled := filled_encodeHeader h htotal
      simp only [List.append_assoc, Option.map_some, Option.getD_some, Option.toList_some,
        List.map_cons, List.map_nil, chain_cons, chain_nil, List.append_nil, bytes_alternate,
        ← hbytes] at hfilled ⊢
      exact hfilled

/-! ## Reading it back -/

theorem length_profileFields (id : UInt16) (x y : UInt32) (z : UInt16) :
    (profileFields id x y z).length = 12 := rfl

/-- What the decoder finds in a profile TLV. -/
theorem profileFields_at (subtype : Bytes) (hsub : subtype.length = 3) (id : UInt16) (x y : UInt32)
    (z : UInt16) :
    let value := c37238OrgID ++ (subtype ++ profileFields id x y z)
    value.length = 18 ∧ slice value 0 3 = c37238OrgID ∧ slice value 3 6 = subtype ∧
      uint16At value 6 = id ∧ uint32At value 8 = x ∧ uint32At value 12 = y ∧
      uint16At value 16 = z := by
  match subtype, hsub with
  | [a, b, c], _ =>
      exact ⟨rfl, rfl, rfl, uint16At_eq rfl, uint32At_eq rfl, uint32At_eq rfl, uint16At_eq rfl⟩

theorem readTLV_organization (result : AnnounceProfileTLVs) (subtype fields : Bytes) :
    readTLV result (organizationTLV subtype fields) =
      decodeC37238OrganizationTLV (c37238OrgID ++ (subtype ++ fields)) result := by
  rw [readTLV, decodeProfileTLV]
  exact if_pos rfl

theorem readTLV_2011 (tlv : C37238TLV2011) (h : result.c37238Version = .disabled) :
    readTLV result (organizationTLV c37238OrgSubType2011 (profileFields tlv.grandmasterID
      tlv.grandmasterTimeInaccuracy tlv.networkTimeInaccuracy tlv.reserved)) =
      .ok { result with c37238Version := .version2011, c372382011 := some tlv } := by
  obtain ⟨hlen, hid, hsub, h6, h8, h12, h16⟩ := profileFields_at c37238OrgSubType2011 rfl
    tlv.grandmasterID tlv.grandmasterTimeInaccuracy tlv.networkTimeInaccuracy tlv.reserved
  rw [readTLV_organization]
  unfold decodeC37238OrganizationTLV
  dsimp only
  rw [hlen, if_neg (by rw [hid]; decide), if_neg (by decide), if_neg (not_not.mpr h), hsub,
    if_pos rfl, h6, h8, h12, h16]

theorem readTLV_2017 (tlv : C37238TLV2017) (h : result.c37238Version = .disabled) :
    readTLV result (organizationTLV c37238OrgSubType2017 (profileFields tlv.grandmasterID
      tlv.reserved tlv.totalTimeInaccuracy tlv.reserved2)) =
      .ok { result with c37238Version := .version2017, c372382017 := some tlv } := by
  obtain ⟨hlen, hid, hsub, h6, h8, h12, h16⟩ := profileFields_at c37238OrgSubType2017 rfl
    tlv.grandmasterID tlv.reserved tlv.totalTimeInaccuracy tlv.reserved2
  rw [readTLV_organization]
  unfold decodeC37238OrganizationTLV
  dsimp only
  rw [hlen, if_neg (by rw [hid]; decide), if_neg (by decide), if_neg (not_not.mpr h), hsub,
    if_neg (by decide), if_pos rfl, h6, h8, h12, h16]

/-- The limits of the configuration: a name of at most 255 bytes, and a time that fits 48 bits. -/
structure AlternateTimeOffsetTLV.WithinLimits (a : AlternateTimeOffsetTLV) : Prop where
  displayName : a.displayName.length ≤ 255
  timeOfNextJump : a.timeOfNextJump.toNat < 2 ^ 48

theorem decodeAlternateTimeOffset_value {a : AlternateTimeOffsetTLV} (ha : a.WithinLimits) :
    decodeAlternateTimeOffset a.tlv.value = .ok a := by
  obtain ⟨key, cur, jump, next, name⟩ := a
  obtain ⟨hname, hnext⟩ := ha
  dsimp only at hname hnext
  have hlength := length_alternate_value ⟨key, cur, jump, next, name⟩
  generalize hvalue : (AlternateTimeOffsetTLV.tlv ⟨key, cur, jump, next, name⟩).value = value
    at hlength
  have h₀ : byteAt value 0 = key := by subst hvalue; rfl
  have h₁ : uint32At value 1 = cur.toUInt32 := uint32At_eq (by subst hvalue; rfl)
  have h₅ : uint32At value 5 = jump.toUInt32 := uint32At_eq (by subst hvalue; rfl)
  have h₉ : slice value 9 15 = beBytes 6 next.toNat := by subst hvalue; rfl
  have h₁₅ : (byteAt value 15).toNat = name.length := by
    have hbyte : byteAt value 15 = UInt8.ofNat name.length := by subst hvalue; rfl
    rw [hbyte, UInt8.toNat_ofNat']
    omega
  have h₁₆ : slice value 16 (16 + name.length) = name := by
    subst hvalue
    show slice (([key] ++ beBytes 4 cur.toUInt32.toNat ++ beBytes 4 jump.toUInt32.toNat ++
      beBytes 6 next.toNat ++ [UInt8.ofNat name.length] ++ name) ++ _) 16 _ = name
    rw [List.append_assoc]
    exact slice_append (by simp) rfl
  have hsize : alternateTimeOffsetValueSize ⟨key, cur, jump, next, name⟩ =
      if (16 + name.length) % 2 ≠ 0 then 16 + name.length + 1 else 16 + name.length := rfl
  have hlong : ¬ value.length < 16 := by
    rw [hlength, hsize]
    split <;> omega
  unfold decodeAlternateTimeOffset
  dsimp only
  rw [if_neg hlong, h₁₅, if_neg (not_not.mpr (hlength.trans hsize)), h₀, h₁, h₅, h₉, h₁₆,
    beNat_beBytes, Nat.mod_eq_of_lt (by omega), UInt64.ofNat_toNat]
  rfl

theorem readTLV_alternate {a : AlternateTimeOffsetTLV} (ha : a.WithinLimits)
    (h : result.alternateTimeOffset = none) :
    readTLV result a.tlv = .ok { result with alternateTimeOffset := some a } := by
  have hread : readTLV result a.tlv = do
      let alternate ← decodeAlternateTimeOffset a.tlv.value
      return { result with alternateTimeOffset := some alternate } := by
    obtain ⟨_, _, _, _⟩ := result
    cases h
    rfl
  rw [hread, decodeAlternateTimeOffset_value ha]
  rfl

/-- **An Announce body is read back**, if the seconds fit 48 bits. -/
theorem decodeAnnounceBody_encode {body : AnnounceBody}
    (h : body.originTimestamp.seconds.toNat < 2 ^ 48) (rest : Bytes) :
    decodeAnnounceBody (encodeAnnounceBody body ++ rest) = .ok body := by
  obtain ⟨ts, utc, res, p1, ⟨cls, acc, var⟩, p2, id, steps, src⟩ := body
  have hlength : (encodeAnnounceBody ⟨ts, utc, res, p1, ⟨cls, acc, var⟩, p2, id, steps, src⟩ ++
      rest).length = announceBodySize + rest.length := by
    rw [List.length_append, length_encodeAnnounceBody]
  have hts := decodeTimestamp_encodeTimestamp h (beBytes 2 utc.toUInt16.toNat ++ ([res, p1, cls,
    acc] ++ (beBytes 2 var.toNat ++ ([p2] ++ (id.toList ++ (beBytes 2 steps.toNat ++ ([src] ++
      rest)))))))
  dsimp only at hts
  generalize hdata : encodeAnnounceBody ⟨ts, utc, res, p1, ⟨cls, acc, var⟩, p2, id, steps, src⟩ ++
    rest = data at hlength
  have hfields : data = encodeTimestamp ts ++ (beBytes 2 utc.toUInt16.toNat ++ ([res, p1, cls,
      acc] ++ (beBytes 2 var.toNat ++ ([p2] ++ (id.toList ++ (beBytes 2 steps.toNat ++ ([src] ++
        rest))))))) := by
    rw [← hdata]
    simp only [encodeAnnounceBody, List.append_assoc]
  rw [← hfields] at hts
  have hdrop₁₉ : data.drop 19 = id.toList ++ (beBytes 2 steps.toNat ++ ([src] ++ rest)) := by
    rw [hfields]
    rfl
  have hdrop₂₇ : data.drop 27 = beBytes 2 steps.toNat ++ ([src] ++ rest) := by
    rw [← List.drop_drop (i := 8), hdrop₁₉, List.drop_left' id.length_toList]
  have h₁₀ : uint16At data 10 = utc.toUInt16 := uint16At_eq (by rw [hfields]; rfl)
  have h₁₂ : byteAt data 12 = res := by rw [hfields]; rfl
  have h₁₃ : byteAt data 13 = p1 := by rw [hfields]; rfl
  have h₁₄ : byteAt data 14 = cls := by rw [hfields]; rfl
  have h₁₅ : byteAt data 15 = acc := by rw [hfields]; rfl
  have h₁₆ : uint16At data 16 = var := uint16At_eq (by rw [hfields]; rfl)
  have h₁₈ : byteAt data 18 = p2 := by rw [hfields]; rfl
  have h₂₇ : uint16At data 27 = steps := uint16At_eq (by rw [slice_drop data 27 0 2, hdrop₂₇]; rfl)
  have h₂₉ : byteAt data 29 = src := by rw [byteAt_drop data 27 2, hdrop₂₇]; rfl
  unfold decodeAnnounceBody
  dsimp only
  rw [hlength, if_neg (by omega), hts, h₁₀, h₁₂, h₁₃, h₁₄, h₁₅, h₁₆, h₁₈,
    clockIdentityAt_of_drop hdrop₁₉, h₂₇, h₂₉]
  rfl

/-! ## Results -/

/-- A message that is read back: its header with the length that it got, its body, and the profile
that its TLVs spell. -/
structure Recovers (data : Bytes) (h : Header) (body : AnnounceBody) (ts : List TLV)
    (profile : AnnounceProfileTLVs) : Prop where
  length : (UInt16.ofNat data.length).toNat = data.length
  header : decodeHeader data = .ok { h with messageLength := UInt16.ofNat data.length }
  tlvs : data.drop headerSize = encodeAnnounceBody body ++ chain ts ∧ ∀ t ∈ ts, t.Wf
  body : decodeAnnounceBody (data.drop headerSize) = .ok body
  profile : decodeAnnounceProfileTLVs (data.drop headerSize) = .ok profile

theorem decodeAnnounceProfileTLVs_chain {b : Bytes} (hb : b.length = announceBodySize)
    {ts : List TLV} (hts : ∀ t ∈ ts, t.Wf) :
    decodeAnnounceProfileTLVs (b ++ chain ts) = ts.foldlM readTLV {} := by
  rw [decodeAnnounceProfileTLVs_eq (by rw [List.length_append]; omega), List.drop_left' hb,
    ← List.append_nil (chain ts), scan_chain hts]
  cases ts.foldlM readTLV {} with
  | error e => rfl
  | ok r => rfl

/-- A message with a short chain of TLVs. -/
theorem Recovers.of_fold {h : Header} (hfits : h.Fits) {body : AnnounceBody}
    (hbody : body.originTimestamp.seconds.toNat < 2 ^ 48) {ts : List TLV} (hts : ∀ t ∈ ts, t.Wf)
    (hshort : (chain ts).length < 2 ^ 14) {profile : AnnounceProfileTLVs}
    (hprofile : ts.foldlM readTLV {} = .ok profile) :
    Recovers (encodeMessage h (encodeAnnounceBody body ++ chain ts)) h body ts profile := by
  have hlength : (encodeAnnounceBody body ++ chain ts).length < 2 ^ 15 := by
    rw [List.length_append, length_encodeAnnounceBody, announceBodySize]
    omega
  have htotal := length_encodeMessage h (encodeAnnounceBody body ++ chain ts)
  have hdrop : (encodeMessage h (encodeAnnounceBody body ++ chain ts)).drop headerSize =
      encodeAnnounceBody body ++ chain ts := by
    rw [encodeMessage_eq]
    exact List.drop_left' (length_encodeHeader _)
  refine ⟨?_, ?_, ⟨hdrop, hts⟩, ?_, ?_⟩
  · rw [htotal]
    exact toNat_messageLength hlength h
  · rw [htotal]
    exact decodeHeader_encodeMessage hfits hlength
  · rw [hdrop]
    exact decodeAnnounceBody_encode hbody _
  · rw [hdrop, decodeAnnounceProfileTLVs_chain (length_encodeAnnounceBody body) hts, hprofile]

/-- The TLVs behind a profile TLV. -/
theorem foldlM_alternate {alternate : Option AlternateTimeOffsetTLV}
    (halt : ∀ a ∈ alternate, a.WithinLimits) (h : result.alternateTimeOffset = none) :
    (alternate.toList.map AlternateTimeOffsetTLV.tlv).foldlM readTLV result =
      .ok { result with alternateTimeOffset := alternate } := by
  cases alternate with
  | none =>
      show Except.ok result = _
      rw [← h]
  | some a =>
      rw [Option.toList_some, List.map_singleton, List.foldlM_cons,
        readTLV_alternate (halt a rfl) h]
      rfl

/-- The lengths of the TLVs of a message. -/
theorem profile_chain (subtype : Bytes) {fields : Bytes} (hsub : subtype.length = 3)
    (hfields : fields.length = 12) {alternate : Option AlternateTimeOffsetTLV}
    (halt : ∀ a ∈ alternate, a.WithinLimits) :
    let ts := organizationTLV subtype fields :: alternate.toList.map AlternateTimeOffsetTLV.tlv
    (∀ t ∈ ts, t.Wf) ∧ (chain ts).length < 2 ^ 14 := by
  have hvalue : (organizationTLV subtype fields).value.length = 18 := by
    show (c37238OrgID ++ (subtype ++ fields)).length = 18
    rw [List.length_append, List.length_append, hsub, hfields]
    rfl
  have hfirst : (organizationTLV subtype fields).Wf := by
    rw [TLV.Wf, hvalue]
    decide
  cases alternate with
  | none =>
      refine ⟨fun t ht ↦ ?_, ?_⟩
      · rw [List.mem_singleton.mp ht]
        exact hfirst
      · show (chain [organizationTLV subtype fields]).length < _
        rw [chain_cons, chain_nil, List.append_nil, TLV.length_bytes, hvalue]
        decide
  | some a =>
      have hsize : alternateTimeOffsetValueSize a ≤ 272 := by
        have hname := (halt a rfl).displayName
        unfold alternateTimeOffsetValueSize
        dsimp only
        split <;> omega
      refine ⟨fun t ht ↦ ?_, ?_⟩
      · rcases List.mem_cons.mp ht with rfl | ht
        · exact hfirst
        · rw [List.mem_singleton.mp ht, TLV.Wf, length_alternate_value]
          omega
      · show (chain [organizationTLV subtype fields, a.tlv]).length < _
        rw [chain_cons, chain_cons, chain_nil, List.append_nil, List.length_append,
          TLV.length_bytes, TLV.length_bytes, hvalue, length_alternate_value]
        omega

/-- The numbers of the header and of the body fit their fields, and so does the alternate time
offset. -/
structure FitsFields (h : Header) (body : AnnounceBody)
    (alternate : Option AlternateTimeOffsetTLV) : Prop where
  header : h.Fits
  seconds : body.originTimestamp.seconds.toNat < 2 ^ 48
  alternate : ∀ a ∈ alternate, a.WithinLimits

variable {h : Header} {body : AnnounceBody} {alternate : Option AlternateTimeOffsetTLV}

theorem recovers_plain (hfits : FitsFields h body none) :
    Recovers (encodeAnnounce h body) h body [] {} := by
  have hnone : ∀ t ∈ ([] : List TLV), t.Wf := nofun
  have hmessage := Recovers.of_fold hfits.header hfits.seconds hnone (by decide) rfl
  rwa [chain_nil, List.append_nil] at hmessage

theorem recovers_2011 (hfits : FitsFields h body alternate) (tlv : C37238TLV2011) :
    ∃ ts, Recovers (encodeAnnounceC372382011 h body tlv alternate) h body ts
      { c37238Version := .version2011
        c372382011 := some tlv
        alternateTimeOffset := alternate } := by
  have hfields := length_profileFields tlv.grandmasterID tlv.grandmasterTimeInaccuracy
    tlv.networkTimeInaccuracy tlv.reserved
  obtain ⟨hwf, hshort⟩ := profile_chain c37238OrgSubType2011 rfl hfields hfits.alternate
  rw [encodeAnnounceC372382011, encodeAnnounceC37238_eq h body rfl hfields]
  refine ⟨_, .of_fold hfits.header hfits.seconds hwf hshort ?_⟩
  rw [List.foldlM_cons, readTLV_2011 tlv rfl]
  exact foldlM_alternate hfits.alternate rfl

theorem recovers_2017 (hfits : FitsFields h body alternate) (tlv : C37238TLV2017) :
    ∃ ts, Recovers (encodeAnnounceC372382017 h body tlv alternate) h body ts
      { c37238Version := .version2017
        c372382017 := some tlv
        alternateTimeOffset := alternate } := by
  have hfields := length_profileFields tlv.grandmasterID tlv.reserved tlv.totalTimeInaccuracy
    tlv.reserved2
  obtain ⟨hwf, hshort⟩ := profile_chain c37238OrgSubType2017 rfl hfields hfits.alternate
  rw [encodeAnnounceC372382017, encodeAnnounceC37238_eq h body rfl hfields]
  refine ⟨_, .of_fold hfits.header hfits.seconds hwf hshort ?_⟩
  rw [List.foldlM_cons, readTLV_2017 tlv rfl]
  exact foldlM_alternate hfits.alternate rfl

/-- **The Announce codec.**

* What the three encoders write is read back, if the numbers fit their fields; behind the body there
  is a chain of TLVs.
* TLVs of other types and organisations, put anywhere into a chain, change nothing.
* A TLV of the C37.238 organisation behind a profile TLV is an error, and so are two alternate time
  offsets.
* A chain that is cut anywhere but between two TLVs is an error.
* The loop over the TLVs ends and stays in bounds on every byte string. -/
theorem announce_codec :
    (∀ h body alternate, FitsFields h body alternate →
      Recovers (encodeAnnounce h body) h body [] {} ∧
      (∀ tlv, ∃ ts, Recovers (encodeAnnounceC372382011 h body tlv alternate) h body ts
        { c37238Version := .version2011
          c372382011 := some tlv
          alternateTimeOffset := alternate }) ∧
      ∀ tlv, ∃ ts, Recovers (encodeAnnounceC372382017 h body tlv alternate) h body ts
        { c37238Version := .version2017
          c372382017 := some tlv
          alternateTimeOffset := alternate }) ∧
    (∀ b ts, b.length = announceBodySize → (∀ t ∈ ts, t.Wf) →
      (∀ us, (∀ t ∈ us, t.Wf) →
        (us.filter fun t ↦ ¬ t.IsUnknown) = ts.filter (fun t ↦ ¬ t.IsUnknown) →
        decodeAnnounceProfileTLVs (b ++ chain us) = decodeAnnounceProfileTLVs (b ++ chain ts)) ∧
      (∀ x y, [x, y].Sublist ts →
        x.IsProfile ∧ y.IsC37238 ∨
          x.type = tlvAlternateTimeOffset ∧ y.type = tlvAlternateTimeOffset →
        ∃ e, decodeAnnounceProfileTLVs (b ++ chain ts) = .error e) ∧
      ∀ n ≤ (chain ts).length, ¬ IsBoundary ts n →
        ∃ e, decodeAnnounceProfileTLVs (b ++ (chain ts).take n) = .error e) ∧
    ∀ b, checkedAnnounceProfileTLVs b = (decodeAnnounceProfileTLVs b).mapError .err := by
  refine ⟨?_, ?_, checkedAnnounceProfileTLVs_eq⟩
  · intro h body alternate hfits
    exact ⟨recovers_plain ⟨hfits.header, hfits.seconds, nofun⟩, recovers_2011 hfits,
      recovers_2017 hfits⟩
  · intro b ts hb hts
    refine ⟨?_, ?_, ?_⟩
    · intro us hus hsame
      rw [decodeAnnounceProfileTLVs_chain hb hts, decodeAnnounceProfileTLVs_chain hb hus,
        foldlM_known, hsame, ← foldlM_known]
    · intro x y hxy hsecond
      rw [decodeAnnounceProfileTLVs_chain hb hts]
      rcases hsecond with ⟨hx, hy⟩ | ⟨hx, hy⟩
      · exact foldlM_second_profile hx hy hxy
      · exact foldlM_second_alternate hx hy hxy
    · intro n hn hcut
      rw [decodeAnnounceProfileTLVs_eq (by rw [List.length_append]; omega), List.drop_left' hb]
      exact scan_take_chain hts hn hcut {}

/-- The header of a port. -/
def portHeader : Header :=
  { messageType := msgAnnounce
    sourcePortIdentity := ⟨.replicate 8 1, 1⟩
    sequenceID := 0
    controlField := controlOther
    logMessageInterval := 1 }

/-- A body with so many seconds. -/
def wideBody (seconds : UInt64) : AnnounceBody :=
  { originTimestamp := ⟨seconds, 0⟩
    currentUtcOffset := 37
    reserved := 0
    grandmasterPriority1 := 128
    grandmasterClockQuality := ⟨6, 0x21, 0x4E5D⟩
    grandmasterPriority2 := 128
    grandmasterIdentity := .replicate 8 1
    stepsRemoved := 0
    timeSource := 0x20 }

/-- A profile TLV. -/
def firstTLV : TLV := organizationTLV c37238OrgSubType2011 (profileFields 1 2 3 4)

/-- A time zone with a name of three letters, behind which a byte is padded. -/
def centralEurope : AlternateTimeOffsetTLV :=
  { keyField := 1
    currentOffset := 7200
    jumpSeconds := -3600
    timeOfNextJump := 1792893600
    displayName := [0x43, 0x45, 0x54] }

/-- A TLV that no profile knows. -/
def padTLV : TLV := ⟨0x8008, [0, 0]⟩

theorem announce_codec_centralEurope :
    (∃ ts, Recovers
        (encodeAnnounceC372382017 portHeader (wideBody 1786104000) ⟨3, 0, 50, 0⟩ centralEurope)
        portHeader (wideBody 1786104000) ts
        { c37238Version := .version2017
          c372382017 := some ⟨3, 0, 50, 0⟩
          alternateTimeOffset := some centralEurope }) ∧
    decodeAnnounceProfileTLVs
        (encodeAnnounceBody (wideBody 0) ++ chain [padTLV, firstTLV, padTLV, centralEurope.tlv]) =
      decodeAnnounceProfileTLVs
        (encodeAnnounceBody (wideBody 0) ++ chain [firstTLV, centralEurope.tlv]) ∧
    (∃ e, decodeAnnounceProfileTLVs
        (encodeAnnounceBody (wideBody 0) ++ chain [centralEurope.tlv, centralEurope.tlv]) =
      .error e) ∧
    ∃ e, decodeAnnounceProfileTLVs
        (encodeAnnounceBody (wideBody 0) ++ (chain [firstTLV, centralEurope.tlv]).take 30) =
      .error e := by
  obtain ⟨hrecover, hchain, -⟩ := announce_codec
  have hfits : FitsFields portHeader (wideBody 1786104000) (some centralEurope) := by
    refine ⟨⟨?_, ?_, ?_, ?_⟩, by decide, fun a ha ↦ ?_⟩
    · decide
    · decide
    · decide
    · decide
    · cases ha
      exact ⟨by decide, by decide⟩
  have hbody : (encodeAnnounceBody (wideBody 0)).length = announceBodySize := by decide
  have hwf : ∀ t ∈ [padTLV, firstTLV, centralEurope.tlv], t.Wf := by
    unfold TLV.Wf
    decide
  simp only [List.forall_mem_cons] at hwf
  obtain ⟨hpad, hfirst, hzone, -⟩ := hwf
  have hts : ∀ t ∈ [firstTLV, centralEurope.tlv], t.Wf := by simp [hfirst, hzone]
  obtain ⟨hsame, -, hcut⟩ := hchain _ [firstTLV, centralEurope.tlv] hbody hts
  obtain ⟨-, htwice, -⟩ :=
    hchain _ [centralEurope.tlv, centralEurope.tlv] hbody (by simp [hzone])
  refine ⟨(hrecover _ _ _ hfits).2.2 _, hsame _ (by simp [hpad, hfirst, hzone]) ?_,
    htwice _ _ (.refl _) (.inr ⟨rfl, rfl⟩), hcut 30 (by decide) ?_⟩
  · rfl
  · -- the profile TLV ends at 22, the alternate time offset at 46
    rintro ⟨k, hk⟩
    rcases k with _ | _ | k
    · cases hk
    · cases hk
    · rw [List.take_of_length_le (by simp)] at hk
      revert hk
      decide

/-- A header with a half-octet that is too large. -/
def wideHeader : Header := { portHeader with transportSpecific := 16 }

/-- A TLV of the C37.238 organisation with a subtype that no profile has. -/
def thirdTLV : TLV := organizationTLV [0, 0, 3] (profileFields 1 2 3 4)

/-- Not every header and not every body is read back, and a TLV of the C37.238 organisation with an
unknown subtype is an error behind a profile TLV, though not in front of it. -/
theorem announce_too_wide :
    decodeHeader (encodeAnnounce wideHeader (wideBody 0)) =
        .ok { wideHeader with transportSpecific := 0, messageLength := 64 } ∧
      decodeAnnounceBody ((encodeAnnounce wideHeader (wideBody 0x1000000000000)).drop headerSize) =
        .ok (wideBody 0) ∧
      decodeAnnounceProfileTLVs (encodeAnnounceBody (wideBody 0) ++ chain [firstTLV, thirdTLV]) =
        .error "ptp: duplicate C37.238 organization TLV" ∧
      decodeAnnounceProfileTLVs (encodeAnnounceBody (wideBody 0) ++ chain [thirdTLV, firstTLV]) =
        decodeAnnounceProfileTLVs (encodeAnnounceBody (wideBody 0) ++ chain [firstTLV]) ∧
      ¬ ∀ h body, Recovers (encodeAnnounce h body) h body [] {} := by
  refine ⟨by decide +kernel, by decide +kernel, by decide +kernel, by decide +kernel, ?_⟩
  intro hall
  have hheader := (hall wideHeader (wideBody 0)).header
  revert hheader
  decide +kernel

end ProcessBus.Ptp
