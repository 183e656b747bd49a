import Mathlib.Logic.Function.Basic
import ProcessBus.Lib.Run

/-!
# Events emitted after the lock is released

Several workers share a state under one lock.  A locked section changes the state and hands its
worker the events to emit; the worker emits them one by one after it has released the lock, and
starts no other section before it is done.  Between two emissions of one worker the others may
run, so the order in which the events reach the sink need not be the order of the sections.

For a flag of the state whose every change is announced by one event, `Orderly` is what a reader
of the events relies on: the announcements alternate, and the last one is true once every worker
is idle.  `orderly_run` says which runs keep it, those in which no section flips the flag while an
announcement is still undelivered.
-/

namespace ProcessBus.Lib

/-! ## Alternating announcements -/

/-- The values alternate, and `b` is the first of them. -/
def Alternate : Bool → List Bool → Prop
  | _, [] => True
  | b, c :: l => c = b ∧ Alternate (!b) l

instance decidableAlternate : (b : Bool) → (l : List Bool) → Decidable (Alternate b l)
  | _, [] => isTrue trivial
  | b, _ :: l => @instDecidableAnd _ _ _ (decidableAlternate (!b) l)

/-- One more value keeps the alternation exactly when it differs from the last one. -/
theorem alternate_append_singleton {b c : Bool} {l : List Bool} :
    Alternate b (l ++ [c]) ↔ Alternate b l ∧ c = !l.getLastD (!b) := by
  induction l generalizing b with
  | nil => simp [Alternate]
  | cons d l ih =>
      rw [List.cons_append, Alternate, Alternate, ih, and_assoc]
      refine and_congr_right fun hd ↦ and_congr_right fun _ ↦ ?_
      rw [hd, Bool.not_not, List.getLastD_cons]

/-! ## The machine -/

/-- A shared state, what each worker still has to emit, and what has reached the sink. -/
structure Deferred (σ ε W : Type*) where
  state : σ
  pending : W → List ε
  sink : List ε

namespace Deferred

variable {σ α ε W : Type*} [DecidableEq W]

/-- `lock a` is a locked section; `emit w i` is the emission of one pending event of `w`. -/
inductive Action (α W : Type*)
  | lock (a : α)
  | emit (w : W) (i : ℕ)

/-- The section `a` of a worker that has nothing left to emit. -/
def enter (sect : σ → α → σ × List ε) (worker : α → W) (d : Deferred σ ε W) (a : α) :
    Deferred σ ε W where
  state := (sect d.state a).1
  pending := Function.update d.pending (worker a) (sect d.state a).2
  sink := d.sink

/-- The pending event `e`, the one of index `i`, reaches the sink. -/
def send (d : Deferred σ ε W) (w : W) (i : ℕ) (e : ε) : Deferred σ ε W where
  state := d.state
  pending := Function.update d.pending w ((d.pending w).eraseIdx i)
  sink := d.sink ++ [e]

/-- One step.  A worker with events left to emit enters no section, and a worker that is not
`free` emits them in their order; a step that is not possible changes nothing. -/
def step (sect : σ → α → σ × List ε) (worker : α → W) (free : W → Bool) (d : Deferred σ ε W) :
    Action α W → Deferred σ ε W
  | .lock a => if (d.pending (worker a)).isEmpty then d.enter sect worker a else d
  | .emit w i =>
      match (d.pending w)[i]? with
      | some e => if i = 0 ∨ free w then d.send w i e else d
      | none => d

/-- No worker has anything left to emit. -/
def Idle (d : Deferred σ ε W) : Prop := ∀ w, d.pending w = []

/-! ## One flag and its announcements -/

variable (flag : σ → Bool) (sel : ε → Option Bool)

/-- The announcements that `w` has not delivered yet. -/
def undelivered (d : Deferred σ ε W) (w : W) : List Bool := (d.pending w).filterMap sel

/-- The announcements delivered so far. -/
def delivered (d : Deferred σ ε W) : List Bool := d.sink.filterMap sel

/-- No section flips the flag while an announcement is on its way. -/
def Settled (flips : σ → α → Bool) (d : Deferred σ ε W) : Action α W → Prop
  | .lock a => flips d.state a = true → ∀ w, d.undelivered sel w = []
  | .emit _ _ => True

/-- The announcements delivered alternate, the first one being `true`, and once every worker is
idle the last of them agrees with the flag. -/
def Orderly (d : Deferred σ ε W) : Prop :=
  Alternate true (d.delivered sel) ∧ (d.Idle → (d.delivered sel).getLastD false = flag d.state)

/-- The announcements delivered alternate, the first one being `true`; the last one agrees with
the flag, or disagrees with it and the one that agrees is on its way. -/
structure Told (d : Deferred σ ε W) : Prop where
  alternate : Alternate true (d.delivered sel)
  last :
    (d.delivered sel).getLastD false = flag d.state ∧ (∀ w, d.undelivered sel w = []) ∨
      (d.delivered sel).getLastD false = !flag d.state ∧
        ∃ w, d.undelivered sel w = [flag d.state] ∧ ∀ v ≠ w, d.undelivered sel v = []

variable {flag sel} {sect : σ → α → σ × List ε} {flips : σ → α → Bool} {worker : α → W} {free : W → Bool}
  {d : Deferred σ ε W}

omit [DecidableEq W] in
/-- With nothing on its way the last announcement agrees with the flag. -/
theorem Told.last_of_quiet (h : d.Told flag sel) (hquiet : ∀ w, d.undelivered sel w = []) :
    (d.delivered sel).getLastD false = flag d.state := by
  rcases h.last with ⟨hl, -⟩ | ⟨-, w, hw, -⟩
  · exact hl
  · exact absurd ((hquiet w).symm.trans hw) (by simp)

omit [DecidableEq W] in
theorem Told.orderly (h : d.Told flag sel) : d.Orderly flag sel := by
  refine ⟨h.alternate, fun hidle ↦ h.last_of_quiet fun w ↦ ?_⟩
  rw [undelivered, hidle w]
  rfl

theorem undelivered_enter (a : α) (v : W) :
    (d.enter sect worker a).undelivered sel v =
      if v = worker a then (sect d.state a).2.filterMap sel else d.undelivered sel v := by
  by_cases hv : v = worker a
  · simp [undelivered, enter, hv]
  · simp [undelivered, enter, hv]

theorem undelivered_send (w : W) (i : ℕ) (e : ε) (v : W) :
    (d.send w i e).undelivered sel v =
      if v = w then ((d.pending w).eraseIdx i).filterMap sel else d.undelivered sel v := by
  by_cases hv : v = w
  · simp [undelivered, send, hv]
  · simp [undelivered, send, hv]

theorem delivered_send (w : W) (i : ℕ) (e : ε) :
    (d.send w i e).delivered sel = d.delivered sel ++ (sel e).toList := by
  cases h : sel e with
  | none => simp [delivered, send, h]
  | some b => simp [delivered, send, h]

/-- The selected values around the element of index `i`. -/
private theorem filterMap_split (sel : ε → Option Bool) {l : List ε} {i : ℕ} {e : ε} (h : l[i]? = some e) :
    ∃ xs ys, l.filterMap sel = xs ++ (sel e).toList ++ ys ∧
      (l.eraseIdx i).filterMap sel = xs ++ ys := by
  obtain ⟨hi, rfl⟩ := List.getElem?_eq_some_iff.mp h
  refine ⟨(l.take i).filterMap sel, (l.drop (i + 1)).filterMap sel, ?_, ?_⟩
  · have hl : l = l.take i ++ l[i] :: l.drop (i + 1) := by simp
    have hfm := congrArg (List.filterMap sel) hl
    rw [List.filterMap_append] at hfm
    rw [hfm, List.append_assoc]
    cases hs : sel l[i] with
    | none => rw [List.filterMap_cons_none hs, Option.toList_none, List.nil_append]
    | some b => rw [List.filterMap_cons_some hs, Option.toList_some, List.singleton_append]
  · rw [List.eraseIdx_eq_take_drop_succ, List.filterMap_append]

/-- A section that announces what it does to the flag keeps the announcements in order, if it
flips it only when none is on its way. -/
theorem Told.enter (h : d.Told flag sel) {a : α}
    (hflag : flag (sect d.state a).1 = if flips d.state a then !flag d.state else flag d.state)
    (hsect : (sect d.state a).2.filterMap sel = if flips d.state a then [!flag d.state] else [])
    (hempty : d.pending (worker a) = [])
    (hquiet : flips d.state a = true → ∀ w, d.undelivered sel w = []) :
    (d.enter sect worker a).Told flag sel := by
  have hstate : (d.enter sect worker a).state = (sect d.state a).1 := rfl
  refine ⟨h.alternate, ?_⟩
  simp only [undelivered_enter, hstate]
  cases hf : flips d.state a with
  | false =>
      rw [hf, if_neg Bool.false_ne_true] at hflag hsect
      rw [hflag, hsect]
      rcases h.last with ⟨hl, hw⟩ | ⟨hl, w, hw, hothers⟩
      · refine .inl ⟨hl, fun v ↦ ?_⟩
        rw [hw, ite_self]
      · have hne : w ≠ worker a := by
          rintro rfl
          rw [undelivered, hempty] at hw
          exact absurd hw (by simp)
        refine .inr ⟨hl, w, ?_, fun v hv ↦ ?_⟩
        · rw [if_neg hne, hw]
        · rw [hothers v hv, ite_self]
  | true =>
      rw [hf, if_pos rfl] at hflag hsect
      rw [hflag, hsect]
      have hquiet := hquiet hf
      refine .inr ⟨?_, worker a, ?_, fun v hv ↦ ?_⟩
      · rw [Bool.not_not]
        exact h.last_of_quiet hquiet
      · rw [if_pos rfl]
      · rw [if_neg hv, hquiet v]

/-- An emission keeps the announcements in order. -/
theorem Told.send (h : d.Told flag sel) {w : W} {i : ℕ} {e : ε}
    (he : (d.pending w)[i]? = some e) : (d.send w i e).Told flag sel := by
  obtain ⟨xs, ys, hall, hrest⟩ := filterMap_split sel he
  have hw : d.undelivered sel w = xs ++ (sel e).toList ++ ys := hall
  cases hs : sel e with
  | none =>
      have hsame : (d.send w i e).undelivered sel = d.undelivered sel := by
        funext v
        rw [undelivered_send]
        split
        · subst v
          rw [hrest, hw, hs]
          simp
        · rfl
      have hdel : (d.send w i e).delivered sel = d.delivered sel := by
        rw [delivered_send, hs]
        simp
      refine ⟨hdel ▸ h.alternate, ?_⟩
      rw [hdel, hsame]
      exact h.last
  | some b =>
      -- the announcement delivered is the only one on its way
      rw [hs, Option.toList_some] at hw
      rcases h.last with ⟨-, hquiet⟩ | ⟨hl, w', hw', hothers⟩
      · exact absurd (hw.symm.trans (hquiet w)) (by simp)
      have hww : w = w' := by
        by_contra hne
        exact absurd (hw.symm.trans (hothers w hne)) (by simp)
      subst w'
      obtain ⟨hxs, hb, hys⟩ : xs = [] ∧ b = flag d.state ∧ ys = [] := by
        have heq := hw.symm.trans hw'
        cases xs with
        | nil => simpa using heq
        | cons x xs => simp at heq
      have hdel : (d.send w i e).delivered sel = d.delivered sel ++ [b] := by
        rw [delivered_send, hs, Option.toList_some]
      refine ⟨?_, .inl ⟨?_, fun v ↦ ?_⟩⟩
      · rw [hdel, alternate_append_singleton]
        refine ⟨h.alternate, ?_⟩
        rw [Bool.not_true, hl, Bool.not_not, hb]
      · rw [hdel, List.getLastD_concat, hb]
        rfl
      · rw [undelivered_send, hrest, hxs, hys]
        split
        · rfl
        · exact hothers v ‹_›

/-- One step: the announcements stay in order unless a section flips the flag while one of them
is on its way. -/
theorem Told.step (h : d.Told flag sel)
    (hflag : ∀ a, flag (sect d.state a).1 =
      if flips d.state a then !flag d.state else flag d.state)
    (hsect : ∀ a, (sect d.state a).2.filterMap sel =
      if flips d.state a then [!flag d.state] else [])
    (a : Action α W) (hsettled : d.Settled sel flips a) :
    (d.step sect worker free a).Told flag sel := by
  cases a with
  | lock a =>
      rw [Deferred.step]
      split
      · exact h.enter (hflag a) (hsect a) (List.isEmpty_iff.mp ‹_›) hsettled
      · exact h
  | emit w i =>
      rw [Deferred.step]
      split
      · split
        · exact h.send ‹_›
        · exact h
      · exact h

/-- What every section keeps, every step keeps. -/
theorem step_state {I : σ → Prop} (hI : ∀ s a, I s → I (sect s a).1) (h : I d.state)
    (a : Action α W) : I (d.step sect worker free a).state := by
  cases a with
  | lock a =>
      rw [step]
      split
      · exact hI d.state a h
      · exact h
  | emit w i =>
      rw [step]
      split
      · split
        · exact h
        · exact h
      · exact h

/-- **Order of the announcements.**  Where every section announces what it does to the flag, a
run in which none flips it over an undelivered announcement is in order in every state. -/
theorem orderly_run {I : σ → Prop} (hI : ∀ s a, I s → I (sect s a).1)
    (hflag : ∀ s a, I s → flag (sect s a).1 = if flips s a then !flag s else flag s)
    (hsect : ∀ s a, I s → (sect s a).2.filterMap sel = if flips s a then [!flag s] else [])
    (hd : I d.state) (htold : d.Told flag sel) {as : List (Action α W)}
    (h : Meets (step sect worker free) (Settled sel flips) d as) :
    Always (step sect worker free) (Orderly flag sel) d as := by
  refine always_of_inv (I := fun d ↦ I d.state ∧ d.Told flag sel) ?_ (fun _ h ↦ h.2.orderly)
    ⟨hd, htold⟩ h
  intro d a hd hsettled
  exact ⟨step_state hI hd.1 a,
    hd.2.step (fun a ↦ hflag _ a hd.1) (fun a ↦ hsect _ a hd.1) a hsettled⟩

end Deferred

end ProcessBus.Lib
