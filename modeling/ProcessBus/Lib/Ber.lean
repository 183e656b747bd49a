import ProcessBus.Go.Bytes
import ProcessBus.Lib.Checked

/-!
# Definite-length TLVs

The Basic Encoding Rules frame everything as tag, length and content.  A length is one octet below
`0x80`, or an octet that counts the octets of a big-endian number (`LengthOf`); content that is
itself structured is tiled by TLVs (`Tiles`).

The second half is the loop that every hand-written reader of such content consists of: take a tag,
take a length, check that the content is there, do something with it, go on behind it (`walk`).
`walk_eq_ok` says that it succeeds exactly on tiled content, and then folds the body over the
tiles; `safe_walk` that it neither leaves the buffer nor runs forever, if the body does not.
-/

namespace ProcessBus.Lib.Ber

open Go Checked

/-! ## The format -/

/-- `octets` spell the length `n` in definite form, with at most `max` octets after the first. -/
inductive LengthOf (max : ℕ) : ℕ → Bytes → Prop
  | short (b : UInt8) (h : b.toNat < 0x80) : LengthOf max b.toNat [b]
  | long (b : UInt8) (bs : Bytes) (hpos : 0 < bs.length) (hmax : bs.length ≤ max)
      (hlen : b.toNat = 0x80 + bs.length) : LengthOf max (beNat bs) (b :: bs)

/-- The bytes are the concatenation of TLVs with these tags and contents. -/
inductive Tiles (max : ℕ) : List (UInt8 × Bytes) → Bytes → Prop
  | nil : Tiles max [] []
  | cons {tag : UInt8} {content octets rest : Bytes} {items : List (UInt8 × Bytes)}
      (hlen : LengthOf max content.length octets) (h : Tiles max items rest) :
      Tiles max ((tag, content) :: items) (tag :: (octets ++ (content ++ rest)))

variable {max : ℕ}

theorem LengthOf.mono {max' n : ℕ} {octets : Bytes} (h : LengthOf max n octets)
    (hle : max ≤ max') : LengthOf max' n octets := by
  cases h with
  | short b h => exact .short b h
  | long b bs hpos hmax hlen => exact .long b bs hpos (hmax.trans hle) hlen

theorem LengthOf.length_pos {n : ℕ} {octets : Bytes} (h : LengthOf max n octets) :
    0 < octets.length := by
  cases h <;> exact Nat.succ_pos _

/-- Tilings concatenate. -/
theorem Tiles.append {items items' : List (UInt8 × Bytes)} {data data' : Bytes}
    (h : Tiles max items data) (h' : Tiles max items' data') :
    Tiles max (items ++ items') (data ++ data') := by
  induction h with
  | nil => exact h'
  | cons hlen _ ih =>
      rw [List.cons_append, List.cons_append, List.append_assoc, List.append_assoc]
      exact .cons hlen ih

/-- A tile is shorter than what it is a tile of. -/
theorem Tiles.length_lt {items : List (UInt8 × Bytes)} {data : Bytes} (h : Tiles max items data) :
    ∀ x ∈ items, x.2.length + 2 ≤ data.length := by
  induction h with
  | nil => exact fun x hx ↦ absurd hx List.not_mem_nil
  | cons hlen _ ih =>
      have hpos := hlen.length_pos
      intro x hx
      simp only [List.length_cons, List.length_append]
      rcases List.mem_cons.mp hx with rfl | hx
      · dsimp only
        omega
      · have := ih x hx
        omega

/-! ## Writing -/

/-- The shortest octets of a length below `2 ^ 24`. -/
def lengthOctets (n : ℕ) : Bytes :=
  if n < 0x80 then [UInt8.ofNat n]
  else if n ≤ 0xFF then [0x81, UInt8.ofNat n]
  else if n ≤ 0xFFFF then [0x82, UInt8.ofNat (n / 2 ^ 8), UInt8.ofNat n]
  else [0x83, UInt8.ofNat (n / 2 ^ 16), UInt8.ofNat (n / 2 ^ 8), UInt8.ofNat n]

/-- Tag, length and content. -/
def tlv (tag : UInt8) (content : Bytes) : Bytes :=
  tag :: (lengthOctets content.length ++ content)

theorem lengthOf_lengthOctets (hmax : 3 ≤ max) {n : ℕ} (hn : n < 2 ^ 24) :
    LengthOf max n (lengthOctets n) := by
  have hlong {k : ℕ} {b : UInt8} (hk : 0 < k) (hk3 : k ≤ 3) (hb : b.toNat = 0x80 + k)
      (hfit : n < 256 ^ k) : LengthOf max n (b :: beBytes k n) := by
    have hlen := length_beBytes k n
    have hn' : beNat (beBytes k n) = n := by
      rw [beNat_beBytes, Nat.mod_eq_of_lt hfit]
    have h : LengthOf max (beNat (beBytes k n)) (b :: beBytes k n) :=
      .long b _ (by omega) (by omega) (by omega)
    rwa [hn'] at h
  unfold lengthOctets
  split
  · rename_i h
    have hn' : (UInt8.ofNat n).toNat = n := by
      rw [UInt8.toNat_ofNat']
      omega
    have hshort : LengthOf max (UInt8.ofNat n).toNat [UInt8.ofNat n] := .short _ (by omega)
    rwa [hn'] at hshort
  · split
    · exact hlong (k := 1) (by decide) (by decide) rfl (by omega)
    · split
      · exact hlong (k := 2) (by decide) (by decide) rfl (by omega)
      · have h3 := hlong (k := 3) (b := 0x83) (by decide) (by decide) rfl (by omega)
        rwa [show beBytes 3 n = [UInt8.ofNat (n / 256 / 256), UInt8.ofNat (n / 256), UInt8.ofNat n]
          from rfl, Nat.div_div_eq_div_mul] at h3

theorem tiles_tlv (hmax : 3 ≤ max) (tag : UInt8) {content : Bytes} (h : content.length < 2 ^ 24) :
    Tiles max [(tag, content)] (tlv tag content) := by
  have h' : Tiles max [(tag, content)] (tag :: (lengthOctets content.length ++ (content ++ []))) :=
    .cons (lengthOf_lengthOctets hmax h) .nil
  rwa [List.append_nil] at h'

theorem length_tlv (tag : UInt8) (content : Bytes) :
    content.length + 2 ≤ (tlv tag content).length := by
  have hpos : 0 < (lengthOctets content.length).length := by
    unfold lengthOctets
    split_ifs <;> exact Nat.succ_pos _
  rw [tlv, List.length_cons, List.length_append]
  omega

theorem length_le_flatMap_tlv {items : List (UInt8 × Bytes)} {x : UInt8 × Bytes} (hx : x ∈ items) :
    x.2.length + 2 ≤ (items.flatMap fun x ↦ tlv x.1 x.2).length := by
  obtain ⟨a, b, rfl⟩ := List.append_of_mem hx
  have hlen := length_tlv x.1 x.2
  rw [List.flatMap_append, List.flatMap_cons, List.length_append, List.length_append]
  omega

/-- TLVs written one after the other tile what was written. -/
theorem tiles_flatMap_tlv (hmax : 3 ≤ max) {items : List (UInt8 × Bytes)}
    (h : (items.flatMap fun x ↦ tlv x.1 x.2).length < 2 ^ 24) :
    Tiles max items (items.flatMap fun x ↦ tlv x.1 x.2) := by
  have hshort : ∀ x ∈ items, x.2.length < 2 ^ 24 := by
    intro x hx
    have := length_le_flatMap_tlv hx
    omega
  clear h
  induction items with
  | nil => exact .nil
  | cons x items ih =>
      rw [List.forall_mem_cons] at hshort
      exact (tiles_tlv hmax x.1 hshort.1).append (ih hshort.2)

/-! ## Slices -/

theorem slice_cons {data : Bytes} {i j : ℕ} {b : UInt8} (hb : data[i]? = some b) (hij : i < j) :
    slice data i j = b :: slice data (i + 1) j := by
  obtain ⟨hi, rfl⟩ := List.getElem?_eq_some_iff.mp hb
  have hi' : i < (data.take j).length := by
    rw [List.length_take]
    omega
  rw [slice, List.drop_eq_getElem_cons hi', List.getElem_take]
  rfl

theorem slice_split {data : Bytes} {i j k : ℕ} (hij : i ≤ j) (hjk : j ≤ k) :
    slice data i k = slice data i j ++ slice data j k := by
  have hj : slice data i j = (slice data i k).take (j - i) := by
    rw [slice, slice, List.take_drop, List.take_take, Nat.min_eq_left (by omega)]
    congr 2
    omega
  have hk : slice data j k = (slice data i k).drop (j - i) := by
    rw [slice, slice, List.drop_drop]
    congr 1
    omega
  rw [hj, hk, List.take_append_drop]

theorem length_slice {data : Bytes} {i j : ℕ} (hj : j ≤ data.length) :
    (slice data i j).length = j - i := by
  rw [slice, List.length_drop, List.length_take, Nat.min_eq_left hj]

/-- A slice at the head of what follows. -/
theorem slice_of_drop {data a b : Bytes} {i j : ℕ} (h : data.drop i = a ++ b)
    (hj : j = i + a.length) : slice data i j = a := by
  subst hj
  rw [slice, List.drop_take, h, Nat.add_sub_cancel_left, List.take_left']
  rfl

theorem slice_append_drop {data : Bytes} {i j : ℕ} (hij : i ≤ j) :
    data.drop i = slice data i j ++ data.drop j := by
  have h : data.drop j = (data.drop i).drop (j - i) := by
    rw [List.drop_drop]
    congr 1
    omega
  rw [slice, List.drop_take, h, List.take_append_drop]

theorem getElem?_of_drop {data rest : Bytes} {i : ℕ} {b : UInt8} (h : data.drop i = b :: rest) :
    data[i]? = some b := by
  rw [← List.head?_drop, h]
  rfl

theorem drop_succ_of_drop {data rest : Bytes} {i : ℕ} {b : UInt8} (h : data.drop i = b :: rest) :
    data.drop (i + 1) = rest := by
  rw [← List.drop_drop, h]
  rfl

/-! ## Reading a length -/

variable {ε : Type*}

/-- Add `n` octets to a big-endian number. -/
def readOctets (data : Bytes) : ℕ → ℕ → ℕ → Checked ε (ℕ × ℕ)
  | 0, offset, l => .ok (l, offset)
  | n + 1, offset, l => do
      let b ← index data offset
      readOctets data n (offset + 1) (l * 256 + b.toNat)

/-- Read a length at an offset: the length, and the offset behind it.  `eof` and `bad` are the
errors for a missing length and for one that is not in definite form or not supported. -/
def readLength (max : ℕ) (eof bad : ε) (data : Bytes) (offset : ℕ) : Checked ε (ℕ × ℕ) :=
  if data.length ≤ offset then fail eof
  else do
    let b ← index data offset
    if b < 0x80 then .ok (b.toNat, offset + 1)
    else
      let n := (b &&& 0x7F).toNat
      if n = 0 ∨ max < n ∨ data.length < offset + 1 + n then fail bad
      else readOctets data n (offset + 1) 0

theorem readOctets_eq {data : Bytes} {n offset : ℕ} (l : ℕ) (h : offset + n ≤ data.length) :
    (readOctets data n offset l : Checked ε (ℕ × ℕ)) =
      .ok ((slice data offset (offset + n)).foldl (fun acc x ↦ acc * 256 + x.toNat) l,
        offset + n) := by
  induction n generalizing offset l with
  | zero => simp [readOctets, slice]
  | succ n ih =>
      have hb : data[offset]? = some (data[offset]) := List.getElem?_eq_getElem (by omega)
      have hindex : (index data offset : Checked ε UInt8) = .ok data[offset] :=
        index_eq_ok.mpr hb
      rw [readOctets, hindex, slice_cons hb (by omega), List.foldl_cons]
      refine (ih _ (by omega)).trans ?_
      rw [Nat.add_right_comm, Nat.add_assoc]

theorem safe_readLength {eof bad : ε} (data : Bytes) (offset : ℕ) :
    Safe (readLength max eof bad data offset) := by
  unfold readLength
  refine Safe.guard fun hlt ↦ ?_
  refine Safe.bind (safe_index (not_le.mp hlt)) fun b _ ↦ ?_
  split
  · exact safe_ok
  · refine Safe.guard fun h ↦ ?_
    rw [readOctets_eq 0 (by omega)]
    exact safe_ok

theorem toNat_and_0x7F (b : UInt8) (h : ¬ b < 0x80) : (b &&& 0x7F).toNat = b.toNat - 0x80 := by
  have hge : 0x80 ≤ b.toNat := by
    rw [UInt8.lt_iff_toNat_lt, not_lt] at h
    exact h
  have hlt := b.toNat_lt
  rw [UInt8.toNat_and, show (0x7F : UInt8).toNat = 2 ^ 7 - 1 from rfl, Nat.and_two_pow_sub_one_eq_mod]
  omega

/-- A length is read exactly where the octets of one stand. -/
theorem readLength_eq_ok {eof bad : ε} {data : Bytes} {offset l offset' : ℕ} :
    readLength max eof bad data offset = .ok (l, offset') ↔
      ∃ octets rest, data.drop offset = octets ++ rest ∧ LengthOf max l octets ∧
        offset' = offset + octets.length := by
  unfold readLength
  rw [guard_eq_ok, not_le, bind_eq_ok]
  constructor
  · rintro ⟨hlt, b, hb, h⟩
    rw [index_eq_ok] at hb
    obtain ⟨hlt', hbe⟩ := List.getElem?_eq_some_iff.mp hb
    have hdrop : data.drop offset = b :: data.drop (offset + 1) := by
      rw [List.drop_eq_getElem_cons hlt, hbe]
    split at h
    · rename_i hshort
      cases h
      exact ⟨[b], _, hdrop, .short b (UInt8.lt_iff_toNat_lt.mp hshort), rfl⟩
    · rename_i hlong
      rw [guard_eq_ok, toNat_and_0x7F b hlong] at h
      obtain ⟨hn, h⟩ := h
      generalize hndef : b.toNat - 0x80 = n at hn h
      rw [readOctets_eq 0 (by omega)] at h
      cases h
      have hlen : (slice data (offset + 1) (offset + 1 + n)).length = n := by
        rw [length_slice (by omega)]
        omega
      refine ⟨b :: slice data (offset + 1) (offset + 1 + n), data.drop (offset + 1 + n), ?_, ?_, ?_⟩
      · rw [List.cons_append, ← slice_append_drop (by omega)]
        exact hdrop
      · exact .long b _ (by omega) (by omega) (by omega)
      · rw [List.length_cons, hlen]
        omega
  · rintro ⟨octets, rest, hdrop, hl, rfl⟩
    cases hl with
    | short b h =>
        have hb := getElem?_of_drop hdrop
        refine ⟨(List.getElem?_eq_some_iff.mp hb).1, b, index_eq_ok.mpr hb, ?_⟩
        rw [if_pos (UInt8.lt_iff_toNat_lt.mpr h)]
        rfl
    | long b bs hpos hmax hlen =>
        have hb := getElem?_of_drop hdrop
        have hbs : data.drop (offset + 1) = bs ++ rest := drop_succ_of_drop hdrop
        have hroom : offset + 1 + bs.length ≤ data.length := by
          have := congrArg List.length hbs
          rw [List.length_drop, List.length_append] at this
          omega
        have hlong : ¬ b < 0x80 := by
          rw [UInt8.lt_iff_toNat_lt, not_lt, hlen]
          exact Nat.le_add_right _ _
        refine ⟨(List.getElem?_eq_some_iff.mp hb).1, b, index_eq_ok.mpr hb, ?_⟩
        rw [if_neg hlong, guard_eq_ok, toNat_and_0x7F b hlong, hlen, Nat.add_sub_cancel_left]
        refine ⟨by omega, ?_⟩
        rw [readOctets_eq 0 hroom, slice_of_drop hbs rfl, List.length_cons, beNat]
        congr 2
        omega

/-! ## Walking over TLVs -/

variable {σ : Type}

/-- The reader's loop, from `offset` up to `stop`: `body` takes each tag and content, and
`overflow` is the error for a content that does not end before `stop`. -/
def walk (length : Bytes → ℕ → Checked ε (ℕ × ℕ)) (overflow : UInt8 → ε)
    (body : σ → UInt8 → Bytes → Checked ε σ) (data : Bytes) (stop : ℕ) :
    ℕ → ℕ → σ → Checked ε σ
  | 0, _, _ => .error .fuel
  | fuel + 1, offset, s =>
      if offset < stop then do
        let tag ← index data offset
        let (len, offset) ← length data (offset + 1)
        if stop < offset + len then fail (overflow tag)
        else do
          let content ← sub data offset (offset + len)
          let s ← body s tag content
          walk length overflow body data stop fuel (offset + len) s
      else .ok s

section Walk

variable {eof bad : ε} {overflow : UInt8 → ε} {body : σ → UInt8 → Bytes → Checked ε σ}
  {data : Bytes} {stop : ℕ}

/-- A TLV at an offset, cut into its parts. -/
theorem slice_tlv {octets rest : Bytes} {tag : UInt8} {offset len : ℕ} (htag : data[offset]? = some tag)
    (hdrop : data.drop (offset + 1) = octets ++ rest)
    (hroom : offset + 1 + octets.length + len ≤ stop) :
    slice data offset stop = tag :: (octets ++
      (slice data (offset + 1 + octets.length) (offset + 1 + octets.length + len) ++
        slice data (offset + 1 + octets.length + len) stop)) := by
  rw [slice_cons htag (by omega), slice_split (j := offset + 1 + octets.length) (by omega) (by omega),
    slice_of_drop hdrop rfl, slice_split (j := offset + 1 + octets.length + len) (by omega) hroom]

/-- The parts of a TLV at an offset. -/
theorem of_slice_tlv {octets content rest : Bytes} {tag : UInt8} {offset : ℕ}
    (hstop : stop ≤ data.length)
    (h : slice data offset stop = tag :: (octets ++ (content ++ rest))) :
    data[offset]? = some tag ∧ (∃ rest', data.drop (offset + 1) = octets ++ rest') ∧
      offset + 1 + octets.length + content.length ≤ stop ∧
      slice data (offset + 1 + octets.length) (offset + 1 + octets.length + content.length) = content ∧
      slice data (offset + 1 + octets.length + content.length) stop = rest := by
  have hlen : stop - offset = 1 + octets.length + content.length + rest.length := by
    rw [← length_slice hstop, h]
    simp only [List.length_cons, List.length_append]
    omega
  have hdrop : data.drop offset = tag :: (octets ++ (content ++ (rest ++ data.drop stop))) := by
    rw [slice_append_drop (j := stop) (by omega), h]
    simp only [List.cons_append, List.append_assoc]
  have hdrop₁ := drop_succ_of_drop hdrop
  have hdrop₂ : data.drop (offset + 1 + octets.length) = content ++ (rest ++ data.drop stop) := by
    rw [← List.drop_drop, hdrop₁, List.drop_left']
    rfl
  have hdrop₃ : data.drop (offset + 1 + octets.length + content.length) =
      rest ++ data.drop stop := by
    rw [← List.drop_drop, hdrop₂, List.drop_left']
    rfl
  exact ⟨getElem?_of_drop hdrop, ⟨_, hdrop₁⟩, by omega, slice_of_drop hdrop₂ rfl,
    slice_of_drop hdrop₃ (by omega)⟩

/-- A TLV that was written is read: its tag, its length, its content and what follows. -/
theorem readLength_tlv (hmax : 3 ≤ max) (hstop : stop ≤ data.length) {content rest : Bytes}
    {tag : UInt8} {offset : ℕ} (hshort : content.length < 2 ^ 24)
    (h : slice data offset stop = tlv tag content ++ rest) :
    data[offset]? = some tag ∧ ∃ offset', offset < offset' ∧
      readLength max eof bad data (offset + 1) = .ok (content.length, offset') ∧
      offset' + content.length ≤ stop ∧
      slice data offset' (offset' + content.length) = content ∧
      slice data (offset' + content.length) stop = rest := by
  rw [tlv, List.cons_append, List.append_assoc] at h
  obtain ⟨htag, ⟨rest', hdrop⟩, hroom, hcontent, hrest⟩ := of_slice_tlv hstop h
  exact ⟨htag, _, by omega, readLength_eq_ok.mpr
    ⟨_, rest', hdrop, lengthOf_lengthOctets hmax hshort, rfl⟩, hroom, hcontent, hrest⟩

/-- **The loop succeeds exactly on tiled content**, and folds its body over the tiles. -/
theorem walk_eq_ok (hstop : stop ≤ data.length) {fuel offset : ℕ} (hfuel : stop - offset < fuel)
    {s s' : σ} :
    walk (readLength max eof bad) overflow body data stop fuel offset s = .ok s' ↔
      ∃ items, Tiles max items (slice data offset stop) ∧
        items.foldlM (fun s x ↦ body s x.1 x.2) s = .ok s' := by
  induction fuel generalizing offset s with
  | zero => exact absurd hfuel (Nat.not_lt_zero _)
  | succ fuel ih =>
      rw [walk]
      split
      · rename_i hlt
        simp only [bind_eq_ok, guard_eq_ok, index_eq_ok, sub_eq_ok, Prod.exists, readLength_eq_ok]
        constructor
        · rintro ⟨tag, htag, len, offset', ⟨octets, rest, hdrop, hlen, rfl⟩, hroom, content,
            ⟨hbounds, hcontent⟩, s₁, hbody, hwalk⟩
          obtain ⟨items, htiles, hfold⟩ := (ih (by omega)).mp hwalk
          have hsize : (slice data (offset + 1 + octets.length)
              (offset + 1 + octets.length + len)).length = len := by
            rw [length_slice hbounds.2]
            omega
          refine ⟨(tag, content) :: items, ?_, ?_⟩
          · rw [slice_tlv htag hdrop (not_lt.mp hroom), ← hcontent]
            exact .cons (by rw [← slice, hsize]; exact hlen) htiles
          · rw [List.foldlM_cons, bind_eq_ok]
            exact ⟨s₁, hbody, hfold⟩
        · rintro ⟨items, htiles, hfold⟩
          generalize hw : slice data offset stop = w at htiles
          cases htiles with
          | nil =>
              have := length_slice (i := offset) hstop
              rw [hw, List.length_nil] at this
              omega
          | @cons tag content octets rest items hlen htiles =>
              obtain ⟨htag, ⟨rest', hdrop⟩, hroom, hcontent, hrest⟩ := of_slice_tlv hstop hw
              rw [List.foldlM_cons, bind_eq_ok] at hfold
              obtain ⟨s₁, hbody, hfold⟩ := hfold
              refine ⟨tag, htag, content.length, _, ⟨octets, rest', hdrop, hlen, rfl⟩,
                not_lt.mpr hroom, content, ⟨⟨by omega, by omega⟩, hcontent⟩, s₁, hbody, ?_⟩
              exact (ih (by omega)).mpr ⟨items, by rw [hrest]; exact htiles, hfold⟩
      · rename_i hge
        have hnil : slice data offset stop = [] := by
          rw [← List.length_eq_zero_iff, length_slice hstop]
          omega
        rw [hnil]
        constructor
        · intro h
          exact ⟨[], .nil, h⟩
        · rintro ⟨items, htiles, hfold⟩
          cases htiles
          exact hfold

/-- **The loop stays inside the buffer and terminates**, if its body does. -/
theorem safe_walk (hstop : stop ≤ data.length) {n fuel offset : ℕ} (hfuel : stop - offset < fuel)
    (hn : stop - offset ≤ n)
    (hbody : ∀ s tag content, content.length + 2 ≤ n → Safe (body s tag content)) (s : σ) :
    Safe (walk (readLength max eof bad) overflow body data stop fuel offset s) := by
  induction fuel generalizing offset s with
  | zero => exact absurd hfuel (Nat.not_lt_zero _)
  | succ fuel ih =>
      rw [walk]
      split
      · rename_i hlt
        refine Safe.bind (safe_index (by omega)) fun tag _ ↦ ?_
        refine Safe.bind (safe_readLength data (offset + 1)) fun p hp ↦ ?_
        obtain ⟨len, offset'⟩ := p
        obtain ⟨octets, rest, -, hlen, rfl⟩ := readLength_eq_ok.mp hp
        have hpos := hlen.length_pos
        refine Safe.guard fun hroom ↦ ?_
        refine Safe.bind (safe_sub (by omega)) fun content hcontent ↦ ?_
        have hsize : content.length = len := by
          rw [sub_eq_ok] at hcontent
          rw [← hcontent.2, ← slice, length_slice hcontent.1.2]
          omega
        refine Safe.bind (hbody s tag content (by omega)) fun s₁ _ ↦ ?_
        exact ih (by omega) (by omega) s₁
      · exact safe_ok

end Walk

end ProcessBus.Lib.Ber
