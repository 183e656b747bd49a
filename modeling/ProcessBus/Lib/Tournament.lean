import Mathlib.Data.List.Perm.Basic
import Mathlib.Data.List.Nodup
import Mathlib.Tactic.Common

/-!
# Selection by a single scan

A program that keeps the best element seen so far computes `scan better`.  Whether the result
depends on the order of the list is a question about tournaments: `scan_perm_iff` says that it
does not exactly when some element beats all the others, and `exists_beats_all` says that this
is so whenever the comparison is transitive on the list.
-/

namespace ProcessBus.Lib

variable {α : Type*} {better : α → α → Bool}

/-- Replace the kept element by `m` when `m` is better. -/
def keep (better : α → α → Bool) (best m : α) : α := if better m best then m else best

/-- Keep the first element, and replace the kept one whenever a better one is met. -/
def scan (better : α → α → Bool) : List α → Option α
  | [] => none
  | a :: l => some (l.foldl (keep better) a)

/-- `w` is in the list and is better than every other element of it. -/
def BeatsAll (better : α → α → Bool) (l : List α) (w : α) : Prop :=
  w ∈ l ∧ ∀ m ∈ l, m ≠ w → better w m = true

/-- On the elements of the list, `better` decides every pair, in one direction only. -/
def Decides (better : α → α → Bool) (l : List α) : Prop :=
  ∀ a ∈ l, ∀ b ∈ l, a ≠ b → (better a b = true ↔ better b a = false)

@[simp] theorem scan_eq_none {l : List α} : scan better l = none ↔ l = [] := by
  cases l <;> simp [scan]

theorem keep_eq_or (better : α → α → Bool) (a b : α) :
    keep better a b = a ∨ keep better a b = b := by
  unfold keep
  split
  · exact .inr rfl
  · exact .inl rfl

theorem foldl_keep_mem (better : α → α → Bool) (a : α) (l : List α) :
    l.foldl (keep better) a ∈ a :: l := by
  induction l generalizing a with
  | nil => exact List.mem_singleton.mpr rfl
  | cons b l ih =>
      rw [List.foldl_cons]
      have h := ih (keep better a b)
      rcases keep_eq_or better a b with e | e
      · rw [e] at h ⊢
        rcases List.mem_cons.mp h with h | h
        · rw [h]
          exact List.mem_cons_self
        · exact List.mem_cons_of_mem _ (List.mem_cons_of_mem _ h)
      · rw [e] at h ⊢
        exact List.mem_cons_of_mem _ h

/-- The scan returns an element of the list. -/
theorem scan_mem {l : List α} {w : α} (h : scan better l = some w) : w ∈ l := by
  cases l with
  | nil => simp [scan] at h
  | cons a l =>
      simp only [scan, Option.some.injEq] at h
      exact h ▸ foldl_keep_mem _ a l

/-- Comparing with the element that beats the others, in either position, keeps it. -/
theorem keep_beats {w m : α} (h : m ≠ w → better w m = true ∧ better m w = false) :
    keep better w m = w ∧ keep better m w = w := by
  by_cases e : m = w
  · subst e
    exact ⟨ite_self _, ite_self _⟩
  · simp [keep, h e]

theorem foldl_keep_of_beats {w : α} (a : α) (l : List α) (hw : w ∈ a :: l)
    (h : ∀ m ∈ a :: l, m ≠ w → better w m = true ∧ better m w = false) :
    l.foldl (keep better) a = w := by
  induction l generalizing a with
  | nil => exact (List.mem_singleton.mp hw).symm
  | cons b l ih =>
      rw [List.foldl_cons]
      have hc : keep better a b ∈ a :: b :: l := by
        rcases keep_eq_or better a b with e | e <;> simp [e]
      refine ih _ ?_ fun m hm ↦ ?_
      · rcases List.mem_cons.mp hw with rfl | hw'
        · rw [(keep_beats (h b (by simp))).1]
          exact List.mem_cons_self
        rcases List.mem_cons.mp hw' with rfl | hw'
        · rw [(keep_beats (h a (by simp))).2]
          exact List.mem_cons_self
        · exact List.mem_cons_of_mem _ hw'
      · rcases List.mem_cons.mp hm with rfl | hm
        · exact h _ hc
        · exact h m (by simp [hm])

/-- An element that beats all the others is what the scan returns. -/
theorem scan_of_beatsAll {l : List α} {w : α} (hd : Decides better l)
    (hw : BeatsAll better l w) : scan better l = some w := by
  cases l with
  | nil => exact absurd hw.1 List.not_mem_nil
  | cons a l =>
      refine congrArg some (foldl_keep_of_beats a l hw.1 fun m hm hne ↦ ?_)
      have hwm := hw.2 m hm hne
      exact ⟨hwm, (hd w hw.1 m hm (Ne.symm hne)).mp hwm⟩

theorem Decides.perm {l l' : List α} (hp : l'.Perm l) (hd : Decides better l) :
    Decides better l' := fun a ha b hb ↦ hd a (hp.mem_iff.mp ha) b (hp.mem_iff.mp hb)

theorem BeatsAll.perm {l l' : List α} {w : α} (hp : l'.Perm l) (hw : BeatsAll better l w) :
    BeatsAll better l' w :=
  ⟨hp.mem_iff.mpr hw.1, fun m hm ↦ hw.2 m (hp.mem_iff.mp hm)⟩

/-- The scan returns the same element for every order of the list exactly when some element
beats all the others. -/
theorem scan_perm_iff [DecidableEq α] {l : List α} (hn : l.Nodup) (hd : Decides better l) :
    (∀ l', l'.Perm l → scan better l' = scan better l) ↔ l = [] ∨ ∃ w, BeatsAll better l w := by
  constructor
  · intro h
    by_cases hl : l = []
    · exact .inl hl
    right
    obtain ⟨w, hw⟩ := Option.ne_none_iff_exists'.mp (mt scan_eq_none.mp hl)
    have hmem := scan_mem hw
    refine ⟨w, hmem, fun m hm hne ↦ ?_⟩
    by_contra hlose
    -- Scanned first and directly followed by `m`, the winner is dropped for good.
    have hmw : better m w = true :=
      (hd m hm w hmem hne).mpr (by simpa using hlose)
    have hp : (w :: m :: (l.erase w).erase m).Perm l :=
      ((List.perm_cons_erase ((List.mem_erase_of_ne hne).mpr hm)).symm.cons w).trans
        (List.perm_cons_erase hmem).symm
    have hscan := (h _ hp).trans hw
    simp only [scan, List.foldl_cons, keep, hmw, if_true, Option.some.injEq] at hscan
    have hin := foldl_keep_mem better m ((l.erase w).erase m)
    rw [hscan] at hin
    exact (List.nodup_cons.mp (hp.nodup_iff.mpr hn)).1 hin
  · rintro (rfl | ⟨w, hw⟩) l' hp
    · rw [List.perm_nil.mp hp]
    · rw [scan_of_beatsAll (hd.perm hp) (hw.perm hp), scan_of_beatsAll hd hw]

/-- A comparison that is transitive on a nonempty list has an element that beats the rest. -/
theorem exists_beatsAll {l : List α} (hl : l ≠ []) (hd : Decides better l)
    (ht : ∀ a ∈ l, ∀ b ∈ l, ∀ c ∈ l, better a b = true → better b c = true →
      a ≠ c → better a c = true) :
    ∃ w, BeatsAll better l w := by
  induction l with
  | nil => exact absurd rfl hl
  | cons a l ih =>
      by_cases hnil : l = []
      · subst hnil
        exact ⟨a, List.mem_cons_self, fun m hm e ↦ absurd (List.mem_singleton.mp hm) e⟩
      obtain ⟨w, hw, hbeats⟩ := ih hnil
        (fun x hx y hy ↦ hd x (List.mem_cons_of_mem _ hx) y (List.mem_cons_of_mem _ hy))
        (fun x hx y hy z hz ↦ ht x (List.mem_cons_of_mem _ hx) y (List.mem_cons_of_mem _ hy)
          z (List.mem_cons_of_mem _ hz))
      have hw' := List.mem_cons_of_mem a hw
      by_cases e : a = w
      · subst e
        exact ⟨a, List.mem_cons_self, fun m hm hne ↦ by
          rcases List.mem_cons.mp hm with h | h
          · exact absurd h hne
          · exact hbeats m h hne⟩
      by_cases haw : better a w = true
      · refine ⟨a, List.mem_cons_self, fun m hm hne ↦ ?_⟩
        rcases List.mem_cons.mp hm with h | h
        · exact absurd h hne
        by_cases hmw : m = w
        · exact hmw ▸ haw
        · exact ht a List.mem_cons_self w hw' m hm haw (hbeats m h hmw) (Ne.symm hne)
      · refine ⟨w, hw', fun m hm hne ↦ ?_⟩
        rcases List.mem_cons.mp hm with h | h
        · subst h
          exact (hd w hw' m List.mem_cons_self (Ne.symm hne)).mpr (by simpa using haw)
        · exact hbeats m h hne

end ProcessBus.Lib
