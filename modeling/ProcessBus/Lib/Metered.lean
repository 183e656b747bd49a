import Mathlib.Algebra.BigOperators.Group.List.Basic
import Mathlib.Tactic.Linarith

/-!
# Metered programs

A program takes units of a budget as it goes and fails where none is left; what it leaves is the
budget of the program after it.  `Metered ε α` is such a program seen without its budget: the errors
with which its takings would fail, in their order, and the outcome that it reaches if none of them
does.  `run` executes it with a budget, and the rules `run_pure`, `run_fail`, `run_take` and
`run_bind` say that this is the program that passes the budget on as a state.

`within` reads off the result of a run: it is decided by one position of the list of takings
(`run_fst`, `run_snd`).  Programs that run one after another on one budget therefore influence each
other only by the number of their takings (`runAll_getElem?`), and `within_eq_iff` says exactly when
a smaller budget makes no difference.
-/

namespace ProcessBus.Lib

/-- A program that takes units of a budget. -/
structure Metered (ε : Type) (α : Type) where
  /-- The error of each taking. -/
  takes : List ε
  /-- What is reached if no taking fails. -/
  outcome : Except ε α

namespace Metered

variable {ε α β : Type}

/-- A bind goes on with the second program if the first one has reached a value. -/
instance instMonad : Monad (Metered ε) where
  pure a := ⟨[], .ok a⟩
  bind p f :=
    match p.outcome with
    | .ok a => ⟨p.takes ++ (f a).takes, (f a).outcome⟩
    | .error e => ⟨p.takes, .error e⟩

/-- Take one unit; `e` is the error if there is none. -/
def take (e : ε) : Metered ε Unit := ⟨[e], .ok ()⟩

/-- Return an error. -/
def fail (e : ε) : Metered ε α := ⟨[], .error e⟩

/-- What can fail without a budget. -/
def ofExcept (r : Except ε α) : Metered ε α := ⟨[], r⟩

/-- The program with its errors changed. -/
def mapError (f : ε → ε) (p : Metered ε α) : Metered ε α :=
  ⟨p.takes.map f, p.outcome.mapError f⟩

/-! ## The parts of a program -/

@[simp] theorem takes_pure (a : α) : (pure a : Metered ε α).takes = [] := rfl

@[simp] theorem outcome_pure (a : α) : (pure a : Metered ε α).outcome = .ok a := rfl

@[simp] theorem takes_fail (e : ε) : (fail e : Metered ε α).takes = [] := rfl

@[simp] theorem outcome_fail (e : ε) : (fail e : Metered ε α).outcome = .error e := rfl

@[simp] theorem takes_take (e : ε) : (take e).takes = [e] := rfl

@[simp] theorem outcome_take (e : ε) : (take e).outcome = .ok () := rfl

theorem bind_of_ok {p : Metered ε α} {a : α} (h : p.outcome = .ok a) (f : α → Metered ε β) :
    p >>= f = ⟨p.takes ++ (f a).takes, (f a).outcome⟩ := by
  change (match p.outcome with
    | .ok a => (⟨p.takes ++ (f a).takes, (f a).outcome⟩ : Metered ε β)
    | .error e => ⟨p.takes, .error e⟩) = _
  rw [h]

theorem bind_of_error {p : Metered ε α} {e : ε} (h : p.outcome = .error e) (f : α → Metered ε β) :
    p >>= f = ⟨p.takes, .error e⟩ := by
  change (match p.outcome with
    | .ok a => (⟨p.takes ++ (f a).takes, (f a).outcome⟩ : Metered ε β)
    | .error e => ⟨p.takes, .error e⟩) = _
  rw [h]

/-- A bind reaches a value if both programs do. -/
theorem outcome_bind_eq_ok {p : Metered ε α} {f : α → Metered ε β} {b : β} :
    (p >>= f).outcome = .ok b ↔ ∃ a, p.outcome = .ok a ∧ (f a).outcome = .ok b := by
  cases h : p.outcome with
  | ok a =>
      rw [bind_of_ok h]
      constructor
      · intro hb
        exact ⟨a, rfl, hb⟩
      · rintro ⟨a', ha, hb⟩
        cases ha
        exact hb
  | error e =>
      rw [bind_of_error h]
      constructor
      · intro hb
        cases hb
      · rintro ⟨a, ha, -⟩
        cases ha

@[simp] theorem outcome_ofExcept_bind_eq_ok {r : Except ε α} {f : α → Metered ε β} {b : β} :
    (ofExcept r >>= f).outcome = .ok b ↔ ∃ a, r = .ok a ∧ (f a).outcome = .ok b :=
  outcome_bind_eq_ok

@[simp] theorem outcome_take_bind (e : ε) (f : Unit → Metered ε β) :
    (take e >>= f).outcome = (f ()).outcome := rfl

@[simp] theorem outcome_mapError_eq_ok {f : ε → ε} {p : Metered ε α} {a : α} :
    (p.mapError f).outcome = .ok a ↔ p.outcome = .ok a := by
  rw [mapError]
  cases p.outcome with
  | ok a' => exact Iff.rfl
  | error e =>
      constructor
      · intro h
        cases h
      · intro h
        cases h

/-! ## What a program takes units for -/

/-- All takings are of one kind. -/
def Charges (P : ε → Prop) (p : Metered ε α) : Prop := ∀ e ∈ p.takes, P e

section Charges

variable {P : ε → Prop}

theorem charges_pure (a : α) : Charges P (pure a : Metered ε α) :=
  fun _ he ↦ absurd he List.not_mem_nil

theorem charges_fail (e : ε) : Charges P (fail e : Metered ε α) :=
  fun _ he ↦ absurd he List.not_mem_nil

theorem charges_ofExcept (r : Except ε α) : Charges P (ofExcept r) :=
  fun _ he ↦ absurd he List.not_mem_nil

theorem charges_take {e : ε} (h : P e) : Charges P (take e) := by
  intro e' he
  rw [takes_take, List.mem_singleton] at he
  rw [he]
  exact h

theorem Charges.bind {p : Metered ε α} {f : α → Metered ε β} (hp : Charges P p)
    (hf : ∀ a, Charges P (f a)) : Charges P (p >>= f) := by
  intro e he
  cases h : p.outcome with
  | ok a =>
      rw [bind_of_ok h] at he
      rcases List.mem_append.mp he with he | he
      · exact hp e he
      · exact hf a e he
  | error e' =>
      rw [bind_of_error h] at he
      exact hp e he

end Charges

/-! ## Execution -/

/-- The takings one after another. -/
def execute (outcome : Except ε α) : List ε → ℤ → Except ε α × ℤ
  | [], budget => (outcome, budget)
  | e :: takes, budget =>
      if budget - 1 < 0 then (.error e, budget - 1) else execute outcome takes (budget - 1)

/-- The result of a run with a budget, and what is left of it. -/
def run (p : Metered ε α) (budget : ℤ) : Except ε α × ℤ := execute p.outcome p.takes budget

@[simp] theorem run_pure (a : α) (budget : ℤ) :
    (pure a : Metered ε α).run budget = (.ok a, budget) := rfl

@[simp] theorem run_fail (e : ε) (budget : ℤ) :
    (fail e : Metered ε α).run budget = (.error e, budget) := rfl

/-- A taking subtracts first, and then looks at what is left. -/
theorem run_take (e : ε) (budget : ℤ) :
    (take e).run budget =
      if budget - 1 < 0 then (.error e, budget - 1) else (.ok (), budget - 1) := rfl

/-- The budget is a state. -/
theorem run_bind (p : Metered ε α) (f : α → Metered ε β) (budget : ℤ) :
    (p >>= f).run budget =
      match p.run budget with
      | (.ok a, rest) => (f a).run rest
      | (.error e, rest) => (.error e, rest) := by
  obtain ⟨takes, outcome⟩ := p
  cases outcome with
  | ok a =>
      rw [bind_of_ok rfl]
      simp only [run]
      induction takes generalizing budget with
      | nil => rfl
      | cons e takes ih =>
          simp only [List.cons_append, execute]
          split_ifs
          · rfl
          · exact ih (budget - 1)
  | error e =>
      rw [bind_of_error rfl]
      simp only [run]
      induction takes generalizing budget with
      | nil => rfl
      | cons e' takes ih =>
          simp only [execute]
          split_ifs
          · rfl
          · exact ih (budget - 1)

/-! ## Results -/

/-- The result with a budget of `n` units: the taking after the first `n` is the one that fails. -/
def within (p : Metered ε α) (n : ℕ) : Except ε α :=
  match p.takes[n]? with
  | some e => .error e
  | none => p.outcome

/-- The number of units that a program takes. -/
def cost (p : Metered ε α) : ℕ := p.takes.length

theorem within_of_le {p : Metered ε α} {n : ℕ} (h : p.cost ≤ n) : p.within n = p.outcome := by
  rw [within, List.getElem?_eq_none h]

/-- A program with a budget reaches what it reaches without one. -/
theorem outcome_of_within {p : Metered ε α} {n : ℕ} {a : α} (h : p.within n = .ok a) :
    p.outcome = .ok a := by
  rw [within] at h
  cases htake : p.takes[n]? with
  | none =>
      rw [htake] at h
      exact h
  | some e =>
      rw [htake] at h
      cases h

theorem within_of_lt {p : Metered ε α} {n : ℕ} (h : n < p.cost) :
    p.within n = .error (p.takes.get ⟨n, h⟩) := by
  rw [within, List.getElem?_eq_getElem h]
  rfl

theorem run_fst (p : Metered ε α) (budget : ℤ) : (p.run budget).1 = p.within budget.toNat := by
  obtain ⟨takes, outcome⟩ := p
  simp only [run, within]
  induction takes generalizing budget with
  | nil => rfl
  | cons e takes ih =>
      rw [execute]
      split_ifs with h
      · have hzero : budget.toNat = 0 := by omega
        rw [hzero]
        rfl
      · obtain ⟨n, hn⟩ : ∃ n : ℕ, budget = n + 1 := ⟨(budget - 1).toNat, by omega⟩
        subst hn
        rw [ih, add_sub_cancel_right, Int.toNat_natCast_add_one]
        rfl

theorem run_snd (p : Metered ε α) (budget : ℤ) :
    (p.run budget).2.toNat = budget.toNat - p.cost := by
  obtain ⟨takes, outcome⟩ := p
  simp only [run, cost]
  induction takes generalizing budget with
  | nil => rfl
  | cons e takes ih =>
      rw [execute, List.length_cons]
      split_ifs with h
      · simp only
        omega
      · rw [ih]
        omega

/-! ## Programs that share a budget -/

/-- The results of programs that run one after another, whether they fail or not. -/
def runAll : List (Metered ε α) → ℤ → List (Except ε α)
  | [], _ => []
  | p :: ps, budget => (p.run budget).1 :: runAll ps (p.run budget).2

/-- What a list of programs takes together. -/
def costs (ps : List (Metered ε α)) : ℕ := (ps.map cost).sum

theorem length_runAll (ps : List (Metered ε α)) (budget : ℤ) :
    (runAll ps budget).length = ps.length := by
  induction ps generalizing budget with
  | nil => rfl
  | cons p ps ih => rw [runAll, List.length_cons, ih, List.length_cons]

/-- The programs before one only make its budget smaller. -/
theorem runAll_getElem? (ps : List (Metered ε α)) (budget : ℤ) (k : ℕ) :
    (runAll ps budget)[k]? =
      ps[k]?.map fun p ↦ p.within (budget.toNat - costs (ps.take k)) := by
  induction ps generalizing budget k with
  | nil => rfl
  | cons p ps ih =>
      cases k with
      | zero =>
          rw [runAll, List.getElem?_cons_zero, List.getElem?_cons_zero, run_fst]
          rfl
      | succ k =>
          rw [runAll, List.getElem?_cons_succ, List.getElem?_cons_succ, ih, run_snd,
            List.take_succ_cons, costs, costs, List.map_cons, List.sum_cons, Nat.sub_sub]

/-- With less of a budget the result is the same exactly if the program fits in what is left, or if
it fails in any case, with the error of the taking that is now one too many. -/
theorem within_eq_iff (p : Metered ε α) {n m : ℕ} (h : n ≤ m) :
    p.within n = p.within m ↔
      p.cost ≤ n ∨ ∃ e, p.takes[n]? = some e ∧ p.within m = .error e := by
  rcases Nat.lt_or_ge n p.cost with hn | hn
  · have htake : p.takes[n]? = some (p.takes.get ⟨n, hn⟩) := List.getElem?_eq_getElem hn
    rw [within_of_lt hn, htake]
    constructor
    · intro heq
      exact .inr ⟨_, rfl, heq.symm⟩
    · rintro (hle | ⟨e, he, heq⟩)
      · exact absurd hn (Nat.not_lt.mpr hle)
      · cases he
        exact heq.symm
  · rw [within_of_le hn, within_of_le (Nat.le_trans hn h)]
    exact iff_of_true rfl (.inl hn)

end Metered

end ProcessBus.Lib
