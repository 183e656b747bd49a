import Mathlib.Data.List.Basic

/-!
# Runs of a state machine

A machine is its step function `step : σ → α → σ`; a run from `s` over the inputs `as` ends
in `as.foldl step s`.  `Meets step ok s as` says that every step of the run satisfies a
condition on the state before it and its input, and `Always step J s as` that every state of the
run satisfies `J`.  The rules below are the only inductions over runs that the developments on
top need: `inv_run` carries an invariant to the end of a run, `Meets.imp` turns a condition on
the steps into a conclusion about them, and `always_iff_meets` says when a condition on the steps
is the exact price of an invariant.  What the steps of a run put out is its `history`; `inv_history`
is `inv_run` for an invariant that also speaks about it.
-/

namespace ProcessBus.Lib

variable {σ α : Type*} {step : σ → α → σ} {ok P : σ → α → Prop} {I J : σ → Prop}

/-- Every step of the run from `s` over `as` satisfies `ok`. -/
def Meets (step : σ → α → σ) (ok : σ → α → Prop) : σ → List α → Prop
  | _, [] => True
  | s, a :: as => ok s a ∧ Meets step ok (step s a) as

instance decidableMeets [∀ s a, Decidable (ok s a)] :
    (s : σ) → (as : List α) → Decidable (Meets step ok s as)
  | _, [] => isTrue trivial
  | s, a :: as => @instDecidableAnd _ _ _ (decidableMeets (step s a) as)

/-- A condition on the inputs alone is met by every run over them. -/
theorem meets_of_forall {s : σ} {as : List α} (h : ∀ a ∈ as, ∀ s, ok s a) :
    Meets step ok s as := by
  induction as generalizing s with
  | nil => trivial
  | cons a as ih =>
      exact ⟨h a List.mem_cons_self s, ih fun b hb ↦ h b (List.mem_cons_of_mem a hb)⟩

theorem Meets.and {s : σ} {as : List α} (h : Meets step ok s as) (h' : Meets step P s as) :
    Meets step (fun s a ↦ ok s a ∧ P s a) s as := by
  induction as generalizing s with
  | nil => trivial
  | cons a as ih => exact ⟨⟨h.1, h'.1⟩, ih h.2 h'.2⟩

/-- What holds initially and survives every step that meets `ok` holds at the end of a run
whose steps all meet it. -/
theorem inv_run (hstep : ∀ s a, I s → ok s a → I (step s a)) {s : σ} (hs : I s)
    {as : List α} (h : Meets step ok s as) : I (as.foldl step s) := by
  induction as generalizing s with
  | nil => exact hs
  | cons a as ih => exact ih (hstep s a hs h.1) h.2

/-- The unconditional form of `inv_run`. -/
theorem inv_run_of_step (hstep : ∀ s a, I s → I (step s a)) {s : σ} (hs : I s) (as : List α) :
    I (as.foldl step s) := by
  have h : Meets step (fun _ _ ↦ True) s as := meets_of_forall fun _ _ _ ↦ trivial
  exact inv_run (fun s a hs _ ↦ hstep s a hs) hs h

/-- Under an invariant, a condition met by every step may be traded for one it implies. -/
theorem Meets.imp (hstep : ∀ s a, I s → ok s a → I (step s a))
    (himp : ∀ s a, I s → ok s a → P s a) {s : σ} (hs : I s) {as : List α}
    (h : Meets step ok s as) : Meets step P s as := by
  induction as generalizing s with
  | nil => trivial
  | cons a as ih => exact ⟨himp s a hs h.1, ih (hstep s a hs h.1) h.2⟩

/-- Under an invariant, two conditions that agree on every step are met by the same runs. -/
theorem Meets.congr {Q : σ → α → Prop} (hstep : ∀ s a, I s → ok s a → I (step s a))
    (hiff : ∀ s a, I s → ok s a → (P s a ↔ Q s a)) {s : σ} (hs : I s) {as : List α}
    (h : Meets step ok s as) : Meets step P s as ↔ Meets step Q s as := by
  induction as generalizing s with
  | nil => exact Iff.rfl
  | cons a as ih => exact and_congr (hiff s a hs h.1) (ih (hstep s a hs h.1) h.2)

/-- Every state of the run from `s` over `as` satisfies `J`, the first and the last one
included. -/
def Always (step : σ → α → σ) (J : σ → Prop) : σ → List α → Prop
  | s, [] => J s
  | s, a :: as => J s ∧ Always step J (step s a) as

theorem Always.head {s : σ} {as : List α} (h : Always step J s as) : J s := by
  cases as with
  | nil => exact h
  | cons a as => exact h.1

theorem Always.last {s : σ} {as : List α} (h : Always step J s as) : J (as.foldl step s) := by
  induction as generalizing s with
  | nil => exact h
  | cons a as ih => exact ih h.2

/-- An invariant that implies `J` makes every state of the run satisfy it. -/
theorem always_of_inv (hstep : ∀ s a, I s → ok s a → I (step s a)) (hJ : ∀ s, I s → J s) {s : σ}
    (hs : I s) {as : List α} (h : Meets step ok s as) : Always step J s as := by
  induction as generalizing s with
  | nil => exact hJ s hs
  | cons a as ih => exact ⟨hJ s hs, ih (hstep s a hs h.1) h.2⟩

/-- If each step keeps `J` exactly when it meets `ok`, a run keeps `J` exactly when all of its
steps meet `ok`. -/
theorem always_iff_meets (hI : ∀ s a, I s → I (step s a))
    (hstep : ∀ s a, I s → J s → (J (step s a) ↔ ok s a)) {s : σ} (hs : I s) (hJ : J s)
    (as : List α) : Always step J s as ↔ Meets step ok s as := by
  induction as generalizing s with
  | nil => exact iff_of_true hJ trivial
  | cons a as ih =>
      constructor
      · rintro ⟨-, h⟩
        exact ⟨(hstep s a hs hJ).mp h.head, (ih (hI s a hs) h.head).mp h⟩
      · rintro ⟨hok, h⟩
        exact ⟨hJ, (ih (hI s a hs) ((hstep s a hs hJ).mpr hok)).mpr h⟩

/-- What the steps of the run from `s` over `as` put out, the last one first. -/
def history {β : Type*} (step : σ → α → σ) (out : σ → α → Option β) : σ → List α → List β
  | _, [] => []
  | s, a :: as => history step out (step s a) as ++ (out s a).toList

/-- The machine that keeps what it has put out beside its state. -/
def recording {β : Type*} (step : σ → α → σ) (out : σ → α → Option β) (x : σ × List β) (a : α) :
    σ × List β :=
  (step x.1 a, (out x.1 a).toList ++ x.2)

/-- It ends in the same state, with the history of the run. -/
theorem foldl_recording {β : Type*} {out : σ → α → Option β} (s : σ) (h : List β) (as : List α) :
    as.foldl (recording step out) (s, h) = (as.foldl step s, history step out s as ++ h) := by
  induction as generalizing s h with
  | nil => rfl
  | cons a as ih =>
      rw [List.foldl_cons, List.foldl_cons, history, List.append_assoc]
      exact ih (step s a) ((out s a).toList ++ h)

/-- A condition on the state and the input is the same for both machines. -/
theorem meets_recording {β : Type*} {out : σ → α → Option β} (s : σ) (h : List β) (as : List α) :
    Meets (recording step out) (fun x a ↦ ok x.1 a) (s, h) as ↔ Meets step ok s as := by
  induction as generalizing s h with
  | nil => exact Iff.rfl
  | cons a as ih => exact and_congr_right fun _ ↦ ih (step s a) _

/-- An invariant of the state and of what has been put out so far. -/
theorem inv_history {β : Type*} {out : σ → α → Option β} {K : σ → List β → Prop}
    (hstep : ∀ s h a, K s h → K (step s a) ((out s a).toList ++ h)) {s : σ} (hs : K s [])
    (as : List α) : K (as.foldl step s) (history step out s as) := by
  have hrun : K (as.foldl (recording step out) (s, [])).1
      (as.foldl (recording step out) (s, [])).2 :=
    inv_run_of_step (I := fun x : σ × List β ↦ K x.1 x.2) (fun x a ↦ hstep x.1 x.2 a) hs as
  rw [foldl_recording, List.append_nil] at hrun
  exact hrun

end ProcessBus.Lib
