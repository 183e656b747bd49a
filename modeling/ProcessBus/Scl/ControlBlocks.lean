import ProcessBus.Scl.RoundTrip

/-!
# Control blocks that are read back

Numbers, flags and addresses of the control blocks as the export writes them and `importControls`
reads them.  A number that cannot be read leaves `parseErr`, and nothing takes it away again: a
logical node that is accepted was read without one, so that every number in it is the one that was
written (`Reads`).
-/

namespace ProcessBus.Scl

open Go.Strconv Lib Publisher

/-! ## Steps that are read -/

/-- A step keeps an error that is remembered, and what it reads without an error has a property. -/
structure Reads {α : Type} (m : Reading α) (P : α → Prop) : Prop where
  sticky : ∀ e, e ≠ none → (m e).2 ≠ none
  yields : ∀ a, m none = (.ok a, none) → P a

section Rules

variable {α β : Type} {m : Reading α} {f : α → Reading β} {P P' : α → Prop} {Q : β → Prop}

theorem reads_pure {a : α} (h : P a) : Reads (pure a) P where
  sticky := fun _ he ↦ he
  yields := by
    intro a' ha
    cases ha
    exact h

theorem reads_throw (err : String) : Reads (throw err) P where
  sticky := fun _ he ↦ he
  yields := by
    intro a ha
    cases ha

/-- What comes after an error is not accepted. -/
theorem reads_setParseErr {err : String} {m : Reading α} (h : ∀ e, e ≠ none → (m e).2 ≠ none) :
    Reads (do setParseErr err; m) P where
  sticky := fun _ _ ↦ h (some err) (Option.some_ne_none err)
  yields := by
    intro a ha
    obtain ⟨_, e₁, he, hm⟩ := exists_of_reading_bind ha
    cases he
    have hkeep := h (some err) (Option.some_ne_none err)
    rw [hm] at hkeep
    exact absurd rfl hkeep

theorem Reads.imp (h : Reads m P) (himp : ∀ a, P a → P' a) : Reads m P' where
  sticky := h.sticky
  yields := fun a ha ↦ himp a (h.yields a ha)

theorem Reads.ite {c : Prop} [Decidable c] {m' : Reading α} (h : c → Reads m P)
    (h' : ¬c → Reads m' P) : Reads (if c then m else m') P := by
  split_ifs with hc
  · exact h hc
  · exact h' hc

/-- Two steps after each other: the first one has left no error, since the second keeps it. -/
theorem Reads.bind (hm : Reads m P) (hf : ∀ a, Reads (f a) fun b ↦ P a → Q b) :
    Reads (m >>= f) Q where
  sticky := by
    intro e he
    have hkeep := hm.sticky e he
    rw [reading_bind_eq]
    rcases hrun : m e with ⟨err | a, e₁⟩
    · rw [hrun] at hkeep
      exact hkeep
    · rw [hrun] at hkeep
      exact (hf a).sticky e₁ hkeep
  yields := by
    intro b hb
    obtain ⟨a, e₁, ha, hb⟩ := exists_of_reading_bind hb
    cases e₁ with
    | none => exact (hf a).yields b hb (hm.yields a ha)
    | some err =>
        have hkeep := (hf a).sticky (some err) (Option.some_ne_none err)
        rw [hb] at hkeep
        exact absurd rfl hkeep

theorem reads_mapM {γ : Type} {f : γ → Reading β} {R : γ → β → Prop} (h : ∀ x, Reads (f x) (R x))
    (xs : List γ) : Reads (xs.mapM f) (List.Forall₂ R xs) := by
  induction xs with
  | nil => exact reads_pure .nil
  | cons x xs ih =>
      rw [List.mapM_cons]
      refine (h x).bind fun y ↦ ih.bind fun ys ↦ reads_pure ?_
      exact fun hys hy ↦ .cons hy hys

/-- Steps that are taken one after another. -/
def Follows {σ : Type} (R : σ → α → σ → Prop) : σ → List α → σ → Prop
  | s, [], s' => s' = s
  | s, x :: xs, s' => ∃ s₁, R s x s₁ ∧ Follows R s₁ xs s'

theorem reads_foldlM {σ : Type} {f : σ → α → Reading σ} {R : σ → α → σ → Prop}
    (h : ∀ s x, Reads (f s x) (R s x)) (xs : List α) (s : σ) :
    Reads (xs.foldlM f s) (Follows R s xs) := by
  induction xs generalizing s with
  | nil => exact reads_pure rfl
  | cons x xs ih =>
      rw [List.foldlM_cons]
      exact (h s x).bind fun s₁ ↦ (ih s₁).imp fun _ hs' hs₁ ↦ ⟨s₁, hs₁, hs'⟩

end Rules

/-! ## Numbers and flags -/

theorem reads_readNumber {name s : String} {base : ℕ} {P : UInt32 → Prop} (hempty : s = "" → P 0)
    (h : ∀ n, parseUint s base 32 = .ok n → P n.toUInt32) : Reads (readNumber name s base) P := by
  rw [readNumber]
  refine .ite (fun hs ↦ reads_pure (hempty hs)) fun _ ↦ ?_
  cases hparse : parseUint s base 32 with
  | ok n => exact reads_pure (h n hparse)
  | error err => exact reads_setParseErr fun _ he ↦ he

theorem toString_ne_empty (n : ℕ) : toString n ≠ "" := by
  rw [ne_eq, ← String.toList_inj, toList_toString]
  exact Nat.toDigits_ne_nil

/-- A number that was written is read back. -/
theorem reads_decimal (name s : String) :
    Reads (readNumber name s 10) fun v ↦ ∀ n : UInt32, s = toString n.toNat → v = n := by
  apply reads_readNumber
  · rintro rfl n hn
    exact absurd hn.symm (toString_ne_empty _)
  · rintro m hm n rfl
    rw [eq_of_parseUint_toString hm]
    exact UInt32.ofNat_toNat

theorem reads_number (x : Element) (name : String) :
    Reads (number x name) fun v ↦ ∀ n : UInt32, x.attribute name = toString n.toNat → v = n :=
  reads_decimal name (x.attribute name)

/-- A flag that was written is read back. -/
theorem reads_flag (x : Element) (name : String) :
    Reads (flag x name) fun v ↦ ∀ b, x.attribute name = formatBool b → v = b := by
  rw [flag]
  refine .ite (fun hempty ↦ reads_pure fun b hb ↦ ?_) fun _ ↦ ?_
  · rw [hempty] at hb
    exact absurd hb (by cases b <;> decide)
  · cases hparse : parseBool (x.attribute name) with
    | none => exact reads_setParseErr fun _ he ↦ he
    | some v =>
        refine reads_pure fun b hb ↦ ?_
        rw [hb] at hparse
        cases b <;> exact (Option.some.inj hparse).symm

/-! ## Reports and settings -/

/-- The data set of a control block after the import. -/
def localSet (domain node ds : String) : String :=
  if ds = "" then "" else domain ++ "/" ++ node ++ "." ++ ds

theorem reads_importTriggers (trg : Element) :
    Reads (importTriggers trg) fun v ↦ ∀ r ds,
      trg = (exportReport r ds).childNamed "TrgOps" → v = r.triggers := by
  refine (reads_flag _ _).bind fun _ ↦ (reads_flag _ _).bind fun _ ↦ ?_
  refine (reads_flag _ _).bind fun _ ↦ (reads_flag _ _).bind fun _ ↦ ?_
  refine (reads_flag _ _).bind fun _ ↦ reads_pure ?_
  rintro h₅ h₄ h₃ h₂ h₁ r ds rfl
  rw [h₁ r.triggers.dataChange rfl, h₂ r.triggers.qualityChange rfl,
    h₃ r.triggers.dataUpdate rfl, h₄ r.triggers.integrity rfl, h₅ r.triggers.gi rfl]

theorem reads_importOptions (opt : Element) :
    Reads (importOptions opt) fun v ↦ ∀ r ds,
      opt = (exportReport r ds).childNamed "OptFields" → v = r.options := by
  refine (reads_flag _ _).bind fun _ ↦ (reads_flag _ _).bind fun _ ↦ ?_
  refine (reads_flag _ _).bind fun _ ↦ (reads_flag _ _).bind fun _ ↦ ?_
  refine (reads_flag _ _).bind fun _ ↦ (reads_flag _ _).bind fun _ ↦ ?_
  refine (reads_flag _ _).bind fun _ ↦ (reads_flag _ _).bind fun _ ↦ reads_pure ?_
  rintro h₈ h₇ h₆ h₅ h₄ h₃ h₂ h₁ r ds rfl
  rw [h₁ r.options.seqNum rfl, h₂ r.options.timeStamp rfl, h₃ r.options.reasonCode rfl,
    h₄ r.options.dataSet rfl, h₅ r.options.dataRef rfl, h₆ r.options.bufOvfl rfl,
    h₇ r.options.entryID rfl, h₈ r.options.confRev rfl]

theorem exportReport_datSet (r : ReportControl) (ds : Option String) :
    (exportReport r ds).attribute "datSet" = ds.getD "" := by
  cases ds <;> simp [exportReport, element, Element.attribute, List.lookup]

/-- **A report that was written is read back.** -/
theorem reads_importReport (domain node : String) (x : Element) :
    Reads (importReport domain node x) fun v ↦ ∀ r ds, x = exportReport r ds →
      v = { r with dataSet := localSet domain node (ds.getD "") } := by
  rw [importReport]
  refine .ite (fun _ ↦ reads_throw _) fun _ ↦ ?_
  refine (reads_flag _ _).bind fun _ ↦ (reads_number _ _).bind fun _ ↦ ?_
  refine (reads_number _ _).bind fun _ ↦ (reads_number _ _).bind fun _ ↦ ?_
  refine (reads_importTriggers _).bind fun _ ↦ (reads_importOptions _).bind fun _ ↦ reads_pure ?_
  rintro hopt htrg hperiod htime hrev hbuffered r ds rfl
  rw [hbuffered r.buffered rfl, hrev r.confRev rfl, htime r.bufferTime rfl,
    hperiod r.integrityPeriod rfl, htrg r ds rfl, hopt r ds rfl, dataset, exportReport_datSet]
  rfl

/-- The element of settings that are valid. -/
def settingElement (s : SettingControl) : Element :=
  element "SettingControl" [("numOfSGs", toString s.numGroups.toNat),
    ("actSG", toString s.activeGroup.toNat)]

theorem reads_importSettings (x : Element) :
    Reads (importSettings x) fun v ↦
      (x.childNamed "SettingControl" = {} → v = none) ∧
        ∀ s, x.childNamed "SettingControl" = settingElement s → v = some s := by
  rw [importSettings]
  refine .ite (fun hname ↦ reads_pure ⟨fun _ ↦ rfl, fun s hs ↦ ?_⟩) fun hname ↦ ?_
  · rw [hs] at hname
    have hsg : "SettingControl" = "" := hname
    exact absurd hsg (by decide)
  · refine (reads_number _ _).bind fun _ ↦ (reads_number _ _).bind fun _ ↦ ?_
    refine .ite (fun _ ↦ reads_throw _) fun _ ↦ reads_pure fun hact hnum ↦ ⟨fun hx ↦ ?_, fun s hs ↦ ?_⟩
    · rw [hx] at hname
      exact absurd rfl hname
    · rw [hs] at hact hnum
      rw [hnum s.numGroups rfl, hact s.activeGroup rfl]

/-! ## GOOSE -/

theorem exists_of_mem_toDigits {base n : ℕ} (hbase : 1 < base) {c : Char}
    (h : c ∈ Nat.toDigits base n) : ∃ d < base, c = Nat.digitChar d := by
  induction n using Nat.strong_induction_on with
  | _ n ih =>
      rcases Nat.lt_or_ge n base with hlt | hge
      · rw [Nat.toDigits_of_lt_base hlt, List.mem_singleton] at h
        exact ⟨n, hlt, h⟩
      · rw [Nat.toDigits_of_base_le hbase hge, List.mem_append, List.mem_singleton] at h
        rcases h with h | h
        · exact ih (n / base) (Nat.div_lt_self (by omega) hbase) h
        · exact ⟨n % base, Nat.mod_lt n (by omega), h⟩

theorem trimSpace_eq_self {s : String} (h : ∀ c ∈ s.toList, isSpace c = false) :
    trimSpace s = s := by
  have hkeep : ∀ cs : List Char, (∀ c ∈ cs, isSpace c = false) → cs.dropWhile isSpace = cs := by
    intro cs hcs
    cases cs with
    | nil => rfl
    | cons c cs => simp [hcs c List.mem_cons_self]
  rw [trimSpace, hkeep _ h, hkeep _ fun c hc ↦ h c (List.mem_reverse.mp hc), List.reverse_reverse,
    String.ofList_toList]

theorem isSpace_digitChar : ∀ d < 10, isSpace (Nat.digitChar d) = false := by decide

theorem isSpace_toUpper_digitChar : ∀ d < 16, isSpace (Nat.digitChar d).toUpper = false := by
  decide

theorem trimSpace_toString (n : ℕ) : trimSpace (toString n) = toString n := by
  apply trimSpace_eq_self
  intro c hc
  rw [toList_toString] at hc
  obtain ⟨d, hd, rfl⟩ := exists_of_mem_toDigits (by decide) hc
  exact isSpace_digitChar d hd

theorem toList_hexNumber (width n : ℕ) : (hexNumber width n).toList =
    List.replicate (width - (Nat.toDigits 16 n).length) '0' ++
      (Nat.toDigits 16 n).map Char.toUpper := by
  rw [hexNumber, String.toList_ofList, List.leftpad, List.length_map]

theorem trimSpace_hexNumber (width n : ℕ) : trimSpace (hexNumber width n) = hexNumber width n := by
  apply trimSpace_eq_self
  intro c hc
  rw [toList_hexNumber] at hc
  rcases List.mem_append.mp hc with hc | hc
  · rw [(List.mem_replicate.mp hc).2]
    rfl
  · obtain ⟨c', hc', rfl⟩ := List.mem_map.mp hc
    obtain ⟨d, hd, rfl⟩ := exists_of_mem_toDigits (by decide) hc'
    exact isSpace_toUpper_digitChar d hd

/-- A hexadecimal number is read back. -/
theorem eq_of_parseUint_hexNumber {width n m bits : ℕ}
    (h : parseUint (hexNumber width n) 16 bits = .ok m) : m = n := by
  rw [parseUint, toList_hexNumber, if_neg (by simp [Nat.toDigits_ne_nil]),
    parseDigits_zeros (by decide)] at h
  exact eq_of_parseDigits (by decide) digit_toUpper_digitChar h

theorem hexNumber_ne_empty (width n : ℕ) : hexNumber width n ≠ "" := by
  rw [ne_eq, ← String.toList_inj, toList_hexNumber]
  simp [Nat.toDigits_ne_nil]

/-- A number that was written with this base is read back. -/
theorem reads_text (name s : String) (base : ℕ) :
    Reads (readNumber name (trimSpace s) base) fun v ↦ ∀ n : ℕ,
      (base = 10 ∧ s = toString n) ∨ (base = 16 ∧ ∃ width, s = hexNumber width n) →
        v.toNat = n := by
  apply reads_readNumber
  · rintro hempty n (⟨-, rfl⟩ | ⟨-, width, rfl⟩)
    · exact absurd ((trimSpace_toString n).symm.trans hempty) (toString_ne_empty n)
    · exact absurd ((trimSpace_hexNumber width n).symm.trans hempty) (hexNumber_ne_empty width n)
  · intro m hm n hn
    have hval : m.toUInt32.toNat = m :=
      Nat.mod_eq_of_lt (Nat.lt_of_le_pred (by decide) (parseUint_le hm))
    rw [hval]
    rcases hn with ⟨rfl, rfl⟩ | ⟨rfl, width, rfl⟩
    · rw [trimSpace_toString] at hm
      exact eq_of_parseUint_toString hm
    · rw [trimSpace_hexNumber] at hm
      exact eq_of_parseUint_hexNumber hm

/-- What a parameter of an address adds. -/
structure ParameterRead (g : GooseControl) (p : Element) (v : GooseControl) : Prop where
  mac : ∀ s, p = textElement "P" [("type", "MAC-Address")] s → v = { g with mac := trimSpace s }
  appID : ∀ n, p = textElement "P" [("type", "APPID")] (hexNumber 4 n) → v = { g with appID := n }
  vlan : ∀ n, p = textElement "P" [("type", "VLAN-ID")] (hexNumber 3 n) → v = { g with vlan := n }
  priority : ∀ n, p = textElement "P" [("type", "VLAN-PRIORITY")] (toString n) →
    v = { g with priority := n }

theorem reads_importParameter (g : GooseControl) (p : Element) :
    Reads (importParameter g p) (ParameterRead g p) := by
  have hne : ∀ {s t text : String} {q : Element}, q.attribute "type" = s →
      q = textElement "P" [("type", t)] text → s = t := by
    rintro s t text q hs rfl
    exact hs.symm
  rw [importParameter]
  refine .ite (fun hmac ↦ reads_pure ⟨?_, ?_, ?_, ?_⟩) fun hmac ↦ ?_
  · rintro s rfl
    rfl
  · exact fun n hp ↦ absurd (hne hmac hp) (by decide)
  · exact fun n hp ↦ absurd (hne hmac hp) (by decide)
  · exact fun n hp ↦ absurd (hne hmac hp) (by decide)
  refine .ite (fun happ ↦ (reads_text _ _ _).bind fun n ↦ reads_pure fun hn ↦ ⟨?_, ?_, ?_, ?_⟩)
    fun happ ↦ ?_
  · exact fun n hp ↦ absurd (hne happ hp) (by decide)
  · rintro m rfl
    rw [hn m (.inr ⟨rfl, 4, rfl⟩)]
  · exact fun n hp ↦ absurd (hne happ hp) (by decide)
  · exact fun n hp ↦ absurd (hne happ hp) (by decide)
  refine .ite (fun hvlan ↦ (reads_text _ _ _).bind fun n ↦ reads_pure fun hn ↦ ⟨?_, ?_, ?_, ?_⟩)
    fun hvlan ↦ ?_
  · exact fun n hp ↦ absurd (hne hvlan hp) (by decide)
  · exact fun n hp ↦ absurd (hne hvlan hp) (by decide)
  · rintro m rfl
    rw [hn m (.inr ⟨rfl, 3, rfl⟩)]
  · exact fun n hp ↦ absurd (hne hvlan hp) (by decide)
  refine .ite (fun hprio ↦ (reads_text _ _ _).bind fun n ↦ reads_pure fun hn ↦ ⟨?_, ?_, ?_, ?_⟩)
    fun hprio ↦ reads_pure ⟨?_, ?_, ?_, ?_⟩
  · exact fun n hp ↦ absurd (hne hprio hp) (by decide)
  · exact fun n hp ↦ absurd (hne hprio hp) (by decide)
  · exact fun n hp ↦ absurd (hne hprio hp) (by decide)
  · rintro m rfl
    rw [hn m (.inl ⟨rfl, rfl⟩)]
  · rintro s rfl
    exact absurd rfl hmac
  · rintro n rfl
    exact absurd rfl happ
  · rintro n rfl
    exact absurd rfl hvlan
  · rintro n rfl
    exact absurd rfl hprio

/-- The element of a time. -/
def timeElement (name : String) (n : UInt32) : Element :=
  textElement name [("unit", "s"), ("multiplier", "m")] (toString n.toNat)

theorem reads_importTime (comm : Element) {name : String} (hname : name ≠ "") :
    Reads (importTime comm name) fun v ↦
      (comm.childNamed name = {} → v = none) ∧
        ∀ n, comm.childNamed name = timeElement name n → v = some n := by
  rw [importTime]
  refine .ite (fun hempty ↦ reads_pure ⟨fun _ ↦ rfl, fun n hn ↦ ?_⟩) fun hne ↦ ?_
  · rw [hn] at hempty
    exact absurd hempty hname
  refine .ite (fun _ ↦ reads_throw _) fun _ ↦ ?_
  refine (reads_text _ _ _).bind fun n ↦ reads_pure fun hn ↦ ⟨fun hx ↦ ?_, fun m hm ↦ ?_⟩
  · rw [hx] at hne
    exact absurd rfl hne
  · rw [hm] at hn
    exact congrArg some (UInt32.toNat_inj.mp (hn m.toNat (.inl ⟨rfl, rfl⟩)))

theorem childNamed_exportGSE_minTime (inst : String) (cb : GooseControl) :
    (exportGSE inst cb).childNamed "MinTime" =
      if 0 < cb.minTime then timeElement "MinTime" cb.minTime else {} := by
  by_cases hmin : 0 < cb.minTime <;> by_cases hmax : 0 < cb.maxTime <;>
    simp [exportGSE, Element.childNamed, hmin, hmax, List.find?, timeElement, textElement]

theorem childNamed_exportGSE_maxTime (inst : String) (cb : GooseControl) :
    (exportGSE inst cb).childNamed "MaxTime" =
      if 0 < cb.maxTime then timeElement "MaxTime" cb.maxTime else {} := by
  by_cases hmin : 0 < cb.minTime <;> by_cases hmax : 0 < cb.maxTime <;>
    simp [exportGSE, Element.childNamed, hmin, hmax, List.find?, timeElement, textElement]

/-- A time that was written, or that was left out since it is zero. -/
theorem getD_time {v : Option UInt32} {n : UInt32} {x : Element} {name : String}
    (hx : x = if 0 < n then timeElement name n else {})
    (hv : (x = {} → v = none) ∧ ∀ m, x = timeElement name m → v = some m) : v.getD 0 = n := by
  subst hx
  by_cases hn : 0 < n
  · rw [hv.2 n (if_pos hn)]
    rfl
  · rw [hv.1 (if_neg hn)]
    exact (UInt32.le_antisymm (UInt32.not_lt.mp hn) (UInt32.zero_le)).symm

/-- The address of a control block is read back. -/
theorem reads_importGSE (g : GooseControl) (comm : Element) :
    Reads (importGSE g comm) fun v ↦ ∀ inst cb, comm = exportGSE inst cb →
      g.minTime = 0 → g.maxTime = 0 →
        v = { g with mac := trimSpace cb.mac, appID := cb.appID, vlan := cb.vlan,
                     priority := cb.priority, minTime := cb.minTime, maxTime := cb.maxTime } := by
  refine (reads_foldlM reads_importParameter _ g).bind fun g' ↦ ?_
  refine (reads_importTime comm (by decide)).bind fun minTime ↦ ?_
  refine (reads_importTime comm (by decide)).bind fun maxTime ↦ reads_pure ?_
  rintro hmax hmin hg' inst cb rfl hmin₀ hmax₀
  have hparams : ((exportGSE inst cb).childNamed "Address").childrenNamed "P" =
      [textElement "P" [("type", "MAC-Address")] cb.mac,
        textElement "P" [("type", "APPID")] (hexNumber 4 cb.appID),
        textElement "P" [("type", "VLAN-ID")] (hexNumber 3 cb.vlan),
        textElement "P" [("type", "VLAN-PRIORITY")] (toString cb.priority)] := rfl
  rw [hparams] at hg'
  obtain ⟨g₁, h₁, g₂, h₂, g₃, h₃, g₄, h₄, rfl⟩ := hg'
  rw [h₁.mac _ rfl] at h₂
  rw [h₂.appID _ rfl] at h₃
  rw [h₃.vlan _ rfl] at h₄
  have hg := h₄.priority _ rfl
  have hmin' := getD_time (childNamed_exportGSE_minTime inst cb) hmin
  have hmax' := getD_time (childNamed_exportGSE_maxTime inst cb) hmax
  subst hg
  dsimp only
  rw [hmin₀, hmax₀, hmin', hmax']

/-- The element of a GOOSE control block; `ds` is its data set in the same logical node. -/
def gseElement (cb : GooseControl) (ds : String) : Element :=
  element "GSEControl" [("name", cb.name), ("type", "GOOSE"), ("appID", cb.goID), ("datSet", ds),
    ("confRev", toString cb.confRev.toNat)]

/-- **A GOOSE control block that was written is read back**, with its address. -/
theorem reads_importGoose (domain node : String) (connection : Element) (ldInst : String)
    (x : Element) :
    Reads (importGoose domain node connection ldInst x) fun v ↦ ∀ cb ds, x = gseElement cb ds →
      (∃ inst, controlGSEs connection ldInst cb.name = [exportGSE inst cb]) →
        v = { cb with dataSet := localSet domain node ds, mac := trimSpace cb.mac } := by
  refine (reads_number x "confRev").bind fun rev ↦ ?_
  refine (reads_foldlM reads_importGSE _ _).imp ?_
  rintro v hv hrev cb ds rfl ⟨inst, hgse⟩
  change Follows _ _ (controlGSEs connection ldInst cb.name) v at hv
  rw [hgse] at hv
  obtain ⟨g, hg, rfl⟩ := hv
  rw [hg inst cb rfl rfl rfl, hrev cb.confRev rfl]
  rfl

/-! ## What is exported -/

/-- The name of a data set of this logical node. -/
def ownSet (ld ln dataSet : String) : Option String :=
  let ref := replace '$' '.' dataSet
  if startsWith (ld ++ "/" ++ ln ++ ".") ref then some (trimStart (ld ++ "/" ++ ln ++ ".") ref)
  else none

/-- The data set of a report; it may have none. -/
def reportSet (ld ln : String) (r : ReportControl) : Option (Option String) :=
  if replace '$' '.' r.dataSet = "" then some none else (ownSet ld ln r.dataSet).map some

/-- The data set of a GOOSE control block. -/
def gooseSet (ld ln : String) (cb : GooseControl) : Option String := ownSet ld ln cb.dataSet

/-- The control blocks that have a name for their data set, with this name. -/
def withSet {α β : Type} (f : α → Option β) (cbs : List α) : List (α × β) :=
  cbs.filterMap fun cb ↦ (f cb).map (cb, ·)

/-- The reports that are exported, with the names of their data sets. -/
def exportedReports (ld ln : String) (rs : List ReportControl) :
    List (ReportControl × Option String) :=
  withSet (reportSet ld ln) rs

/-- The GOOSE control blocks that are exported, with the names of their data sets. -/
def exportedGoose (ld ln : String) (cbs : List GooseControl) : List (GooseControl × String) :=
  if ln = "LLN0" then withSet (gooseSet ld ln) cbs else []

/-- The settings that are exported. -/
def exportedSettings (ln : LogicalNode) : Option SettingControl :=
  ln.settings.filter fun s ↦ ln.name = "LLN0" ∧ s.numGroups ≠ 0 ∧ s.activeGroup ≠ 0 ∧
    s.activeGroup ≤ s.numGroups

/-- The children of a logical node besides its data sets. -/
def controlElements (ld : String) (ln : LogicalNode) : List Element :=
  (exportedReports ld ln.name ln.reports).map (fun e ↦ exportReport e.1 e.2) ++
    (exportedGoose ld ln.name ln.goose).map (fun e ↦ gseElement e.1 e.2) ++
    (exportedSettings ln).toList.map settingElement

/-- The addresses of the control blocks of a logical node. -/
def nodeAddresses (inst ld : String) (ln : LogicalNode) : List Element :=
  (exportedGoose ld ln.name ln.goose).map fun e ↦ exportGSE inst e.1

theorem withSet_some {α β : Type} {f : α → Option β} {cb : α} {ds : β}
    (h : f cb = some ds) (cbs : List α) : withSet f (cb :: cbs) = (cb, ds) :: withSet f cbs := by
  simp [withSet, h]

theorem withSet_none {α β : Type} {f : α → Option β} {cb : α} (h : f cb = none)
    (cbs : List α) : withSet f (cb :: cbs) = withSet f cbs := by
  simp [withSet, h]

theorem ownSet_eq_some {ld ln dataSet : String}
    (h : startsWith (ld ++ "/" ++ ln ++ ".") (replace '$' '.' dataSet) = true) :
    ownSet ld ln dataSet =
      some (trimStart (ld ++ "/" ++ ln ++ ".") (replace '$' '.' dataSet)) := by
  rw [ownSet, if_pos h]

theorem ownSet_eq_none {ld ln dataSet : String}
    (h : ¬startsWith (ld ++ "/" ++ ln ++ ".") (replace '$' '.' dataSet) = true) :
    ownSet ld ln dataSet = none := by
  rw [ownSet, if_neg h]

theorem exportReports_eq (ld ln : String) (rs : List ReportControl) :
    Quiet (exportReports ld ln rs)
      ((exportedReports ld ln rs).map fun e ↦ exportReport e.1 e.2) := by
  induction rs with
  | nil => exact .pure _
  | cons r rs ih =>
      rw [exportedReports] at ih ⊢
      rw [exportReports]
      by_cases hempty : replace '$' '.' r.dataSet = ""
      · have hset : reportSet ld ln r = some none := if_pos hempty
        rw [if_neg (by simp [hempty]), withSet_some hset, List.map_cons, if_pos hempty]
        exact ih.bind (.pure _)
      have hset : reportSet ld ln r = (ownSet ld ln r.dataSet).map some := if_neg hempty
      by_cases hown : startsWith (ld ++ "/" ++ ln ++ ".") (replace '$' '.' r.dataSet) = true
      · rw [ownSet_eq_some hown] at hset
        rw [if_neg (by simp [hown]), withSet_some hset, List.map_cons, if_neg hempty]
        exact ih.bind (.pure _)
      · rw [ownSet_eq_none hown] at hset
        rw [if_pos (by simp [hempty, hown]), withSet_none hset]
        exact (warn_quiet _).bind ih

theorem exportGoose_eq (inst ld ln : String) (cbs : List GooseControl) :
    Quiet (exportGoose inst ld ln cbs) ((exportedGoose ld ln cbs).map fun e ↦
      (gseElement e.1 e.2, exportGSE inst e.1)) := by
  rw [exportedGoose]
  induction cbs with
  | nil =>
      split_ifs
      · exact .pure _
      · exact .pure _
  | cons cb cbs ih =>
      rw [exportGoose]
      by_cases hln : ln = "LLN0"
      · rw [if_pos hln] at ih ⊢
        rw [if_neg (not_not_intro hln)]
        by_cases hown : startsWith (ld ++ "/" ++ ln ++ ".") (replace '$' '.' cb.dataSet) = true
        · have hset := withSet_some (f := gooseSet ld ln) (ownSet_eq_some hown) cbs
          rw [if_neg (by simp [hown]), hset, List.map_cons]
          exact ih.bind (.pure _)
        · have hset := withSet_none (f := gooseSet ld ln) (ownSet_eq_none hown) cbs
          rw [if_pos (by simp [hown]), hset]
          exact (warn_quiet _).bind ih
      · rw [if_neg hln] at ih ⊢
        rw [if_pos hln]
        exact (warn_quiet _).bind ih

theorem exportSettings_eq (ld : String) (ln : LogicalNode) :
    Quiet (exportSettings ld ln) ((exportedSettings ln).toList.map settingElement) := by
  unfold exportSettings exportedSettings
  cases ln.settings with
  | none => exact .pure _
  | some s =>
      dsimp only
      by_cases hbad : ln.name ≠ "LLN0" ∨ s.numGroups = 0 ∨ s.activeGroup = 0 ∨
          s.numGroups < s.activeGroup
      · have hnone : (some s).filter (fun s ↦ decide (ln.name = "LLN0" ∧ s.numGroups ≠ 0 ∧
            s.activeGroup ≠ 0 ∧ s.activeGroup ≤ s.numGroups)) = none := by
          rw [Option.filter_some, if_neg]
          simp only [decide_eq_true_eq]
          rintro ⟨hln, hnum, hact, hle⟩
          rcases hbad with h | h | h | h
          · exact h hln
          · exact hnum h
          · exact hact h
          · exact absurd hle (UInt32.not_le.mpr h)
        rw [if_pos hbad, hnone]
        exact (warn_quiet _).bind (.pure _)
      · have hsome : (some s).filter (fun s ↦ decide (ln.name = "LLN0" ∧ s.numGroups ≠ 0 ∧
            s.activeGroup ≠ 0 ∧ s.activeGroup ≤ s.numGroups)) = some s := by
          rw [Option.filter_some, if_pos]
          simp only [not_or, not_not] at hbad
          simpa using ⟨hbad.1, hbad.2.1, hbad.2.2.1, UInt32.not_lt.mp hbad.2.2.2⟩
        rw [if_neg hbad, hsome]
        exact .pure _

theorem exists_of_build_bind {α β : Type} {m : Build α} {f : α → Build β} {b b' : Builder} {c : β}
    (h : (m >>= f) b = (.ok c, b')) : ∃ a b₁, m b = (.ok a, b₁) ∧ f a b₁ = (.ok c, b') := by
  rcases hm : m b with ⟨err | a, b₁⟩
  · rw [bind_error hm] at h
    cases h
  · rw [bind_ok hm] at h
    exact ⟨a, b₁, rfl, h⟩

theorem Quiet.result {α : Type} {m : Build α} {a a' : α} {b b' : Builder} (h : Quiet m a)
    (hm : m b = (.ok a', b')) : a' = a := by
  obtain ⟨ws, hb⟩ := h b
  rw [hb] at hm
  cases hm
  rfl

/-- An element has the data sets and control blocks of a logical node. -/
def HasControls (devices : List LogicalDevice) (ld : String) (ln : LogicalNode) (x : Element) :
    Prop :=
  x.children = exportedDataSets devices ln.dataSets ++ controlElements ld ln

theorem exportNode_controls {devices : List LogicalDevice} {inst ld : String} {ln : LogicalNode}
    {b b' : Builder} {x : Element} {gses : List Element}
    (h : exportNode devices inst ld ln b = (.ok (x, gses), b')) :
    HasControls devices ld ln x ∧ gses = nodeAddresses inst ld ln := by
  unfold exportNode at h
  cases hsplit : splitLN ln.name with
  | error err =>
      rw [hsplit] at h
      cases h
  | ok s =>
      obtain ⟨pre, cls, lnInst⟩ := s
      rw [hsplit] at h
      dsimp only at h
      obtain ⟨id, b₁, -, h⟩ := exists_of_build_bind h
      obtain ⟨-, b₂, -, h⟩ := exists_of_build_bind h
      obtain ⟨objects, b₃, -, h⟩ := exists_of_build_bind h
      obtain ⟨-, b₄, -, h⟩ := exists_of_build_bind h
      obtain ⟨dataSets, b₅, hdataSets, h⟩ := exists_of_build_bind h
      obtain ⟨goose, b₆, hgoose, h⟩ := exists_of_build_bind h
      obtain ⟨reports, b₇, hreports, h⟩ := exists_of_build_bind h
      obtain ⟨-, b₈, -, h⟩ := exists_of_build_bind h
      obtain ⟨settings, b₉, hsettings, h⟩ := exists_of_build_bind h
      cases h
      rw [(exportDataSets_quiet devices ln.dataSets).result hdataSets,
        (exportGoose_eq inst ld ln.name ln.goose).result hgoose,
        (exportReports_eq ld ln.name ln.reports).result hreports,
        (exportSettings_eq ld ln).result hsettings, List.map_map, List.map_map]
      constructor
      · rw [HasControls, controlElements]
        simp only [List.append_assoc]
        rfl
      · rfl

theorem exportNodes_controls {devices : List LogicalDevice} {inst ld : String}
    {lns : List LogicalNode} {b b' : Builder} {xs gses : List Element}
    (h : exportNodes devices inst ld lns b = (.ok (xs, gses), b')) :
    List.Forall₂ (HasControls devices ld) lns xs ∧ gses = lns.flatMap (nodeAddresses inst ld) := by
  induction lns generalizing b b' xs gses with
  | nil =>
      cases h
      exact ⟨.nil, rfl⟩
  | cons ln lns ih =>
      rw [exportNodes] at h
      obtain ⟨⟨x, g⟩, b₁, hnode, h⟩ := exists_of_build_bind h
      obtain ⟨⟨ys, gs⟩, b₂, hnodes, h⟩ := exists_of_build_bind h
      cases h
      obtain ⟨hx, rfl⟩ := exportNode_controls hnode
      obtain ⟨hxs, rfl⟩ := ih hnodes
      exact ⟨.cons hx hxs, rfl⟩

/-- The addresses of the control blocks of a logical device. -/
def deviceAddresses (devices : List LogicalDevice) (ld : LogicalDevice) : List Element :=
  (orderedNodes ld).flatMap (nodeAddresses ((ldInst devices ld.name).getD "") ld.name)

theorem exportDevices_controls {devices lds : List LogicalDevice} {b b' : Builder}
    {xs gses : List Element} (h : exportDevices devices lds b = (.ok (xs, gses), b')) :
    List.Forall₂ (fun ld x ↦ List.Forall₂ (HasControls devices ld.name) (orderedNodes ld) x.children)
        lds xs ∧
      gses = lds.flatMap (deviceAddresses devices) := by
  induction lds generalizing b b' xs gses with
  | nil =>
      cases h
      exact ⟨.nil, rfl⟩
  | cons ld lds ih =>
      rw [exportDevices] at h
      obtain ⟨⟨x, g⟩, b₁, hdevice, h⟩ := exists_of_build_bind h
      obtain ⟨⟨ys, gs⟩, b₂, hdevices, h⟩ := exists_of_build_bind h
      cases h
      obtain ⟨hxs, rfl⟩ := ih hdevices
      unfold exportDevice at hdevice
      obtain ⟨⟨nodes, gs⟩, b₃, hnodes, hdevice⟩ := exists_of_build_bind hdevice
      dsimp only at hdevice
      by_cases hlln0 : (!ld.nodes.any (·.name == "LLN0")) = true
      · rw [if_pos hlln0] at hdevice
        cases hdevice
      rw [if_neg hlln0] at hdevice
      cases hdevice
      obtain ⟨hx, rfl⟩ := exportNodes_controls hnodes
      exact ⟨.cons hx hxs, rfl⟩

/-- A run of the export: the logical devices before they are reconciled, and the addresses. -/
theorem exportICD_steps {model : Model} {doc : Element} {ws : List String}
    (h : exportICD model = (.ok doc, ws)) :
    ∃ types devs serial,
      doc = exportDocument model.ip (reconcileDevices types devs)
        (reconcileAddresses (reconcileDevices types devs)
          (model.devices.flatMap (deviceAddresses model.devices))) types ∧
      Templates types ((deviceNodes devs).map nodeReference) 0 serial ∧
      List.Forall₂ (DescribesDevice types model.devices) model.devices devs ∧
      List.Forall₂ (fun ld x ↦
        List.Forall₂ (HasControls model.devices ld.name) (orderedNodes ld) x.children)
        model.devices devs := by
  unfold exportICD at h
  by_cases hnil : model.devices = []
  · rw [if_pos hnil] at h
    cases h
  rw [if_neg hnil] at h
  rcases hrun : exportDevices model.devices model.devices
      { warnings := model.warnings ++ [exportNotice] } with ⟨err | ⟨devices, gses⟩, b⟩
  · rw [hrun] at h
    cases h
  rw [hrun] at h
  cases h
  obtain ⟨ls, os, as, hgrow, hdev⟩ := exportDevices_grows hrun
  obtain ⟨hcontrols, rfl⟩ := exportDevices_controls hrun
  have htypes : b.lns ++ b.dos ++ b.das = ls ++ (os ++ as) := by
    rw [hgrow.lns, hgrow.dos, hgrow.das]
    simp
  refine ⟨_, devices, b.serial, rfl, ?_, ?_, hcontrols⟩
  · rw [htypes]
    exact hgrow.part
  · rw [htypes]
    exact hdev

end ProcessBus.Scl
