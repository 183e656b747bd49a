import Mathlib.Data.List.Forall2

/-!
# Programs with checked accesses

A Go function over a byte slice can end in three ways: with a value, with an error that it returns,
or with a run-time panic because it indexed outside the slice.  `Checked ε α` keeps the three
apart, together with a fourth one for loops that are unrolled a given number of times, so that
"never indexes outside the buffer" and "terminates" are statements about the program: it is `Safe`.

The rules are the usual ones: `bind_eq_ok` takes a successful run apart and `Safe.bind` puts safe
parts together.
-/

namespace ProcessBus.Lib

/-- How a run ends that returns no value. -/
inductive Fault (ε : Type*)
  /-- An index or a slice bound was out of range. -/
  | panic
  /-- A loop was not unrolled far enough. -/
  | fuel
  /-- An error value was returned. -/
  | err (e : ε)
deriving DecidableEq, Repr

/-- The result of a run. -/
abbrev Checked (ε : Type*) (α : Type) := Except (Fault ε) α

namespace Checked

variable {ε : Type*} {α β : Type}

/-- Return an error. -/
def fail (e : ε) : Checked ε α := .error (.err e)

/-- `xs[i]`. -/
def index (xs : List β) (i : ℕ) : Checked ε β :=
  match xs[i]? with
  | some x => .ok x
  | none => .error .panic

/-- `xs[i:j]`. -/
def sub (xs : List β) (i j : ℕ) : Checked ε (List β) :=
  if i ≤ j ∧ j ≤ xs.length then .ok ((xs.take j).drop i) else .error .panic

/-- `fmt.Errorf("...: %w", err)`: pass a callee's error on inside one's own. -/
def wrap {ε' : Type*} (f : ε → ε') : Checked ε α → Checked ε' α
  | .ok a => .ok a
  | .error (.err e) => fail (f e)
  | .error .panic => .error .panic
  | .error .fuel => .error .fuel

/-! ## Runs that succeed -/

@[simp] theorem ok_bind {a : α} {f : α → Checked ε β} : (.ok a : Checked ε α) >>= f = f a := rfl

theorem bind_eq_ok {x : Checked ε α} {f : α → Checked ε β} {b : β} :
    x >>= f = .ok b ↔ ∃ a, x = .ok a ∧ f a = .ok b := by
  cases x with
  | ok a =>
      constructor
      · intro h
        exact ⟨a, rfl, h⟩
      · rintro ⟨a', h, hf⟩
        cases h
        exact hf
  | error e =>
      constructor
      · intro h
        cases h
      · rintro ⟨a, h, -⟩
        cases h

theorem fail_ne_ok {e : ε} {a : α} : (fail e : Checked ε α) ≠ .ok a := nofun

/-- A guarded step succeeds where the guard does not hold and the rest succeeds. -/
theorem guard_eq_ok {c : Prop} [Decidable c] {e : ε} {x : Checked ε α} {a : α} :
    (if c then fail e else x) = .ok a ↔ ¬ c ∧ x = .ok a := by
  split
  · rename_i h
    exact iff_of_false fail_ne_ok fun h' ↦ h'.1 h
  · rename_i h
    exact (and_iff_right h).symm

/-- A last step that cannot fail does not matter to success. -/
theorem exists_bind_ok {x : Checked ε α} {f : α → β} :
    (∃ b, x >>= (fun a ↦ .ok (f a)) = .ok b) ↔ ∃ a, x = .ok a := by
  simp only [bind_eq_ok]
  constructor
  · rintro ⟨_, a, ha, -⟩
    exact ⟨a, ha⟩
  · rintro ⟨a, ha⟩
    exact ⟨f a, a, ha, rfl⟩

theorem exists_guard_eq_ok {c : Prop} [Decidable c] {e : ε} {x : Checked ε α} :
    (∃ a, (if c then fail e else x) = .ok a) ↔ ¬ c ∧ ∃ a, x = .ok a := by
  simp only [guard_eq_ok, exists_and_left]

theorem index_eq_ok {xs : List β} {i : ℕ} {x : β} :
    (index xs i : Checked ε β) = .ok x ↔ xs[i]? = some x := by
  unfold index
  cases xs[i]? with
  | none => exact iff_of_false nofun nofun
  | some y =>
      rw [Option.some.injEq]
      exact ⟨fun h ↦ by cases h; rfl, fun h ↦ by rw [h]⟩

theorem sub_eq_ok {xs ys : List β} {i j : ℕ} :
    (sub xs i j : Checked ε (List β)) = .ok ys ↔
      (i ≤ j ∧ j ≤ xs.length) ∧ (xs.take j).drop i = ys := by
  unfold sub
  split
  · rename_i h
    rw [and_iff_right h]
    exact ⟨fun h ↦ by cases h; rfl, fun h ↦ by rw [h]⟩
  · rename_i h
    exact iff_of_false nofun fun h' ↦ h h'.1

theorem wrap_eq_ok {ε' : Type*} {f : ε → ε'} {x : Checked ε α} {a : α} :
    wrap f x = .ok a ↔ x = .ok a := by
  rcases x with (_ | _ | e) | b
  · exact iff_of_false nofun nofun
  · exact iff_of_false nofun nofun
  · exact iff_of_false nofun nofun
  · exact ⟨fun h ↦ by cases h; rfl, fun h ↦ by cases h; rfl⟩

/-- A loop that collects results succeeds if each of its steps does. -/
theorem foldlM_collect {γ : Type} {f : γ → Checked ε β} {items : List γ} {init vs : List β} :
    items.foldlM (fun out x ↦ f x >>= fun b ↦ .ok (out ++ [b])) init = .ok vs ↔
      ∃ bs, vs = init ++ bs ∧ List.Forall₂ (fun x b ↦ f x = .ok b) items bs := by
  induction items generalizing init with
  | nil =>
      constructor
      · intro h
        cases h
        exact ⟨[], (List.append_nil _).symm, .nil⟩
      · rintro ⟨bs, rfl, hbs⟩
        cases hbs
        rw [List.append_nil]
        rfl
  | cons x items ih =>
      simp only [List.foldlM_cons, bind_eq_ok, ih]
      constructor
      · rintro ⟨_, ⟨b, hb, hout⟩, bs, rfl, hbs⟩
        cases hout
        exact ⟨b :: bs, by rw [List.append_assoc]; rfl, .cons hb hbs⟩
      · rintro ⟨bs, rfl, hbs⟩
        cases hbs with
        | @cons _ b _ bs hb hbs =>
            exact ⟨init ++ [b], ⟨b, hb, rfl⟩, bs, by rw [List.append_assoc]; rfl, hbs⟩

/-- It then has as many results as it made steps. -/
theorem exists_foldlM_collect {γ : Type} {f : γ → Checked ε β} {items : List γ} {n : ℕ} :
    (∃ vs, items.foldlM (fun out x ↦ f x >>= fun b ↦ .ok (out ++ [b])) [] = .ok vs ∧
        vs.length = n) ↔ items.length = n ∧ ∀ x ∈ items, ∃ b, f x = .ok b := by
  have hall : (∃ bs, List.Forall₂ (fun x b ↦ f x = .ok b) items bs) ↔
      ∀ x ∈ items, ∃ b, f x = .ok b := by
    induction items with
    | nil => exact iff_of_true ⟨[], .nil⟩ fun x hx ↦ absurd hx List.not_mem_nil
    | cons x items ih =>
        rw [List.forall_mem_cons, ← ih]
        constructor
        · rintro ⟨bs, hbs⟩
          cases hbs with
          | cons hb hbs => exact ⟨⟨_, hb⟩, _, hbs⟩
        · rintro ⟨⟨b, hb⟩, bs, hbs⟩
          exact ⟨b :: bs, .cons hb hbs⟩
  simp only [foldlM_collect, List.nil_append]
  constructor
  · rintro ⟨vs, ⟨bs, rfl, hbs⟩, rfl⟩
    exact ⟨hbs.length_eq, hall.mp ⟨_, hbs⟩⟩
  · rintro ⟨rfl, h⟩
    obtain ⟨bs, hbs⟩ := hall.mpr h
    exact ⟨bs, ⟨bs, rfl, hbs⟩, hbs.length_eq.symm⟩

/-! ## Runs that do not panic -/

/-- The run ends with a value or with an error that the program returns. -/
def Safe (x : Checked ε α) : Prop := ∀ f, x = .error f → ∃ e, f = .err e

theorem safe_ok {a : α} : Safe (.ok a : Checked ε α) := nofun

theorem safe_fail {e : ε} : Safe (fail e : Checked ε α) := by
  intro f h
  cases h
  exact ⟨e, rfl⟩

theorem Safe.bind {x : Checked ε α} {f : α → Checked ε β} (hx : Safe x)
    (hf : ∀ a, x = .ok a → Safe (f a)) : Safe (x >>= f) := by
  cases x with
  | ok a => exact hf a rfl
  | error e =>
      intro g h
      exact hx g (by cases h; rfl)

theorem Safe.ite {c : Prop} [Decidable c] {x y : Checked ε α} (hx : Safe x) (hy : Safe y) :
    Safe (if c then x else y) := by
  split
  · exact hx
  · exact hy

theorem Safe.guard {c : Prop} [Decidable c] {e : ε} {x : Checked ε α} (h : ¬ c → Safe x) :
    Safe (if c then fail e else x) := by
  split
  · exact safe_fail
  · exact h ‹_›

theorem Safe.wrap {ε' : Type*} {f : ε → ε'} {x : Checked ε α} (h : Safe x) :
    Safe (wrap f x) := by
  rcases x with (_ | _ | e) | b
  · exact absurd (h _ rfl) nofun
  · exact absurd (h _ rfl) nofun
  · exact safe_fail
  · exact safe_ok

theorem safe_index {xs : List β} {i : ℕ} (h : i < xs.length) : Safe (index xs i : Checked ε β) := by
  unfold index
  rw [List.getElem?_eq_getElem h]
  exact safe_ok

theorem safe_sub {xs : List β} {i j : ℕ} (h : i ≤ j ∧ j ≤ xs.length) :
    Safe (sub xs i j : Checked ε (List β)) := by
  unfold sub
  rw [if_pos h]
  exact safe_ok

end Checked

end ProcessBus.Lib
