import Mathlib.Data.List.Nodup

/-!
# Bounded histories

Runs are started one after another.  A history refers to the last of them, and never to more than
`limit`; a run that is still active keeps its place (`Bounded`).  To make room, the oldest run that
is no longer active is dropped, and a new run is refused if there is none.

A run that was dropped is not gone: whoever works on it still does.  So `runs` has every run that was
ever started, by the order of their starts, and `kept` has the places of those in the history.
-/

namespace ProcessBus.Lib

/-- All runs, and the places of those that are in the history. -/
structure History (α : Type*) where
  runs : List α := []
  kept : List ℕ := []

namespace History

variable {α : Type*}

/-- The place of a run in the history for which `p` holds. -/
def find? (h : History α) (p : ℕ → α → Bool) : Option ℕ :=
  h.kept.find? fun n ↦ h.runs[n]?.any (p n)

/-- Changes one run. -/
def modify (h : History α) (n : ℕ) (f : α → α) : History α := { h with runs := h.runs.modify n f }

/-- Changes every run in the history. -/
def modifyKept (h : History α) (f : α → α) : History α :=
  { h with runs := h.runs.mapIdx fun n a ↦ if n ∈ h.kept then f a else a }

variable (active : α → Bool) (limit : ℕ)

/-- The oldest run in the history that is not active. -/
def oldest? (h : History α) : Option ℕ :=
  (h.kept.filter fun n ↦ !h.runs[n]?.any active).min?

/-- What is left of the history after room was made for one more run. -/
def makeRoom (h : History α) : Option (List ℕ) :=
  if h.kept.length < limit then some h.kept else (h.oldest? active).map h.kept.erase

/-- Starts a run, if there is room for it. -/
def start (h : History α) (a : α) : Option (History α) :=
  (h.makeRoom active limit).map fun kept ↦ ⟨h.runs ++ [a], kept ++ [h.runs.length]⟩

/-- The history is within its limit and has every active run, each once. -/
structure Bounded (h : History α) : Prop where
  length_le : h.kept.length ≤ limit
  nodup : h.kept.Nodup
  lt_length : ∀ n ∈ h.kept, n < h.runs.length
  mem_kept : ∀ {n : ℕ} {a : α}, h.runs[n]? = some a → active a = true → n ∈ h.kept

variable {active limit} {h h' : History α} {n m : ℕ} {a b : α}

/-! ## Runs -/

theorem getElem?_modify_self (f : α → α) (ha : h.runs[n]? = some a) :
    (h.modify n f).runs[n]? = some (f a) := by
  rw [modify, List.getElem?_modify_eq, ha]
  rfl

theorem getElem?_modify_ne (f : α → α) (hn : m ≠ n) :
    (h.modify n f).runs[m]? = h.runs[m]? :=
  List.getElem?_modify_ne _ _ hn.symm

theorem getElem?_modifyKept (f : α → α) :
    (h.modifyKept f).runs[n]? = h.runs[n]?.map fun a ↦ if n ∈ h.kept then f a else a := by
  rw [modifyKept, List.getElem?_mapIdx]

/-- A run after a change of one of them. -/
theorem of_getElem?_modify {f : α → α} (hb : (h.modify n f).runs[m]? = some b) :
    ∃ a, h.runs[m]? = some a ∧ (b = a ∨ m = n ∧ b = f a) := by
  rcases eq_or_ne m n with rfl | hne
  · rw [modify, List.getElem?_modify_eq, Option.map_eq_map, Option.map_eq_some_iff] at hb
    obtain ⟨a, ha, rfl⟩ := hb
    exact ⟨a, ha, .inr ⟨rfl, rfl⟩⟩
  · rw [getElem?_modify_ne f hne] at hb
    exact ⟨b, hb, .inl rfl⟩

/-- A run after a change of those in the history. -/
theorem of_getElem?_modifyKept {f : α → α} (hb : (h.modifyKept f).runs[m]? = some b) :
    ∃ a, h.runs[m]? = some a ∧ (m ∈ h.kept ∧ b = f a ∨ m ∉ h.kept ∧ b = a) := by
  rw [getElem?_modifyKept, Option.map_eq_some_iff] at hb
  obtain ⟨a, ha, rfl⟩ := hb
  refine ⟨a, ha, ?_⟩
  split
  · next hm => exact .inl ⟨hm, rfl⟩
  · next hm => exact .inr ⟨hm, rfl⟩

/-! ## The bound -/

theorem bounded_empty : Bounded active limit ({} : History α) where
  length_le := Nat.zero_le _
  nodup := List.nodup_nil
  lt_length n hn := absurd hn List.not_mem_nil
  mem_kept ha := by cases ha

/-- What makes room has no active run, and leaves room for one more. -/
theorem makeRoom_spec (hb : h.Bounded active limit) {kept : List ℕ}
    (hk : h.makeRoom active limit = some kept) :
    kept.length < limit ∧ kept.Sublist h.kept ∧
      ∀ {n : ℕ} {a : α}, h.runs[n]? = some a → active a = true → n ∈ kept := by
  unfold makeRoom at hk
  split at hk
  · next hroom =>
      cases hk
      exact ⟨hroom, List.Sublist.refl _, hb.mem_kept⟩
  · obtain ⟨old, hold, rfl⟩ := Option.map_eq_some_iff.mp hk
    obtain ⟨hmem, hidle⟩ := List.mem_filter.mp (List.min?_mem hold)
    have hlen := List.length_erase_of_mem hmem
    have hpos := List.length_pos_of_mem hmem
    have hle := hb.length_le
    refine ⟨by omega, List.erase_sublist, fun {n a} ha hactive ↦ ?_⟩
    have hne : n ≠ old := by
      rintro rfl
      rw [ha, Option.any_some, hactive] at hidle
      cases hidle
    exact (List.mem_erase_of_ne hne).mpr (hb.mem_kept ha hactive)

theorem start_eq_some (hs : h.start active limit a = some h') :
    h'.runs = h.runs ++ [a] ∧
      ∃ kept, h.makeRoom active limit = some kept ∧ h'.kept = kept ++ [h.runs.length] := by
  obtain ⟨kept, hk, rfl⟩ := Option.map_eq_some_iff.mp hs
  exact ⟨rfl, kept, hk, rfl⟩

/-- A run after a start. -/
theorem getElem?_start (hs : h.start active limit a = some h') (hb : h'.runs[n]? = some b) :
    h.runs[n]? = some b ∨ n = h.runs.length ∧ b = a := by
  rw [(start_eq_some hs).1, List.getElem?_append] at hb
  split at hb
  · exact .inl hb
  · next hlt =>
      rw [List.getElem?_singleton] at hb
      split at hb
      · next hzero =>
          cases hb
          exact .inr ⟨by omega, rfl⟩
      · cases hb

theorem getElem?_of_start (hs : h.start active limit a = some h') (hb : h.runs[n]? = some b) :
    h'.runs[n]? = some b := by
  rw [(start_eq_some hs).1, List.getElem?_append_left (List.getElem?_eq_some_iff.mp hb).1, hb]

/-- **A start keeps the bound** and drops no active run. -/
theorem Bounded.start (hb : h.Bounded active limit) (hs : h.start active limit a = some h') :
    h'.Bounded active limit := by
  obtain ⟨hruns, kept, hk, hkept⟩ := start_eq_some hs
  obtain ⟨hroom, hsub, hmem⟩ := makeRoom_spec hb hk
  constructor
  · rw [hkept, List.length_append, List.length_singleton]
    exact hroom
  · rw [hkept]
    refine (hb.nodup.sublist hsub).append (List.nodup_singleton _) ?_
    rw [List.disjoint_singleton]
    exact fun hin ↦ absurd (hb.lt_length _ (hsub.subset hin)) (Nat.lt_irrefl _)
  · intro n hn
    rw [hkept, List.mem_append, List.mem_singleton] at hn
    rw [hruns, List.length_append, List.length_singleton]
    rcases hn with hn | rfl
    · exact Nat.lt_succ_of_lt (hb.lt_length n (hsub.subset hn))
    · exact Nat.lt_succ_self _
  · intro n b hn hactive
    rw [hkept, List.mem_append, List.mem_singleton]
    rcases getElem?_start hs hn with hn | ⟨rfl, -⟩
    · exact .inl (hmem hn hactive)
    · exact .inr rfl

/-! ## Changes -/

/-- Every run is as before or has changed by `R`; none was started. -/
structure Evolves (R : α → α → Prop) (h h' : History α) : Prop where
  kept_eq : h'.kept = h.kept
  length_eq : h'.runs.length = h.runs.length
  back : ∀ {n : ℕ} {b : α}, h'.runs[n]? = some b → ∃ a, h.runs[n]? = some a ∧ R a b

section

variable {R : α → α → Prop} {f : α → α}

theorem Evolves.forth (he : Evolves R h h') (ha : h.runs[n]? = some a) :
    ∃ b, h'.runs[n]? = some b ∧ R a b := by
  have hlt : n < h'.runs.length := by
    rw [he.length_eq]
    exact (List.getElem?_eq_some_iff.mp ha).1
  have hb := List.getElem?_eq_getElem hlt
  obtain ⟨a', ha', hR⟩ := he.back hb
  rw [ha] at ha'
  cases ha'
  exact ⟨_, hb, hR⟩

theorem Evolves.refl (hrefl : ∀ a, R a a) (h : History α) : Evolves R h h :=
  ⟨rfl, rfl, fun hb ↦ ⟨_, hb, hrefl _⟩⟩

theorem Evolves.mono {S : α → α → Prop} (he : Evolves R h h') (hRS : ∀ {a b}, R a b → S a b) :
    Evolves S h h' where
  kept_eq := he.kept_eq
  length_eq := he.length_eq
  back hb := by
    obtain ⟨a, ha, hR⟩ := he.back hb
    exact ⟨a, ha, hRS hR⟩

theorem evolves_modify (hrefl : ∀ a, R a a) (hf : ∀ a, h.runs[n]? = some a → R a (f a)) :
    Evolves R h (h.modify n f) := by
  refine ⟨rfl, List.length_modify _ _ _, fun hb ↦ ?_⟩
  obtain ⟨a, ha, rfl | ⟨rfl, rfl⟩⟩ := of_getElem?_modify hb
  · exact ⟨_, ha, hrefl _⟩
  · exact ⟨a, ha, hf a ha⟩

theorem evolves_modifyKept (hrefl : ∀ a, R a a)
    (hf : ∀ (n : ℕ) a, h.runs[n]? = some a → R a (f a)) : Evolves R h (h.modifyKept f) := by
  refine ⟨rfl, List.length_mapIdx .., fun hb ↦ ?_⟩
  obtain ⟨a, ha, ⟨-, rfl⟩ | ⟨-, rfl⟩⟩ := of_getElem?_modifyKept hb
  · exact ⟨a, ha, hf _ a ha⟩
  · exact ⟨_, ha, hrefl _⟩

/-- A change that activates no run keeps the bound. -/
theorem Bounded.evolves (hb : h.Bounded active limit) (he : Evolves R h h')
    (hidle : ∀ {a b}, R a b → active b = true → active a = true) : h'.Bounded active limit where
  length_le := by
    rw [he.kept_eq]
    exact hb.length_le
  nodup := by
    rw [he.kept_eq]
    exact hb.nodup
  lt_length n hn := by
    rw [he.kept_eq] at hn
    rw [he.length_eq]
    exact hb.lt_length n hn
  mem_kept hn hactive := by
    obtain ⟨a, ha, hR⟩ := he.back hn
    rw [he.kept_eq]
    exact hb.mem_kept ha (hidle hR hactive)

end

/-! ## Searches -/

/-- A search finds every active run for which the condition holds. -/
theorem Bounded.find?_isSome (hb : h.Bounded active limit) {p : ℕ → α → Bool}
    (ha : h.runs[n]? = some a) (hactive : active a = true) (hp : p n a = true) :
    (h.find? p).isSome = true := by
  rw [find?, List.find?_isSome]
  exact ⟨n, hb.mem_kept ha hactive, by rw [ha]; exact hp⟩

theorem find?_eq_some {p : ℕ → α → Bool} (hf : h.find? p = some n) :
    n ∈ h.kept ∧ ∃ a, h.runs[n]? = some a ∧ p n a = true := by
  refine ⟨List.mem_of_find?_eq_some hf, ?_⟩
  have hp := List.find?_some hf
  rw [Option.any_eq_true] at hp
  exact hp

end History

end ProcessBus.Lib
