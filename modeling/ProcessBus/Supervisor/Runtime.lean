import ProcessBus.Supervisor.Manager

/-!
# Runtimes

What the goroutines of the supervisor do to one runtime, and what is kept by all of them.
`Runtime.Sound` is the invariant of a runtime, `Runtime.Finished` its end, and `Runtime.Evolves` the
relation between a runtime and what a goroutine makes of it.  `Core` puts the runtimes of all
modules together: each module has at most one that is not finished.
-/

namespace ProcessBus.Supervisor

open Go Lib

namespace Runtime

/-- Nothing of the runtime is running, and nothing will: it was shut down, or given up before it had
a goroutine. -/
def Finished (r : Runtime) : Prop := r.live = 0 ∧ (r.stage = .done ∨ r.aborted = true)

/-- What holds of every runtime as long as the streams are launched in time. -/
structure Sound (r : Runtime) : Prop where
  done : r.stage = .done → r.live = 0
  closes : r.closes ≤ 1
  unclosed : r.stage = .idle ∨ r.stage = .entered → r.aborted = false → r.closes = 0
  unlaunched : r.streams = [] → r.live = 0 ∧ r.cleanup = none
  aborted : r.aborted = true → r.streams = [] ∧ r.stage = .idle

/-- A change of a runtime after which it is no further from its end. -/
structure Evolves (r r' : Runtime) : Prop where
  owner : r'.owner = r.owner
  aborted : r'.aborted = r.aborted
  sound : r'.Sound
  finished : r.Finished → r'.Finished
  stopped : r.status = .stopped → r'.status = .stopped

theorem Evolves.refl {r : Runtime} (h : r.Sound) : r.Evolves r := ⟨rfl, rfl, h, id, id⟩

theorem Evolves.trans {r r' r'' : Runtime} (h : r.Evolves r') (h' : r'.Evolves r'') :
    r.Evolves r'' :=
  ⟨h'.owner.trans h.owner, h'.aborted.trans h.aborted, h'.sound, h'.finished ∘ h.finished,
    h'.stopped ∘ h.stopped⟩

theorem Finished.running_eq {r : Runtime} (h : r.Finished) : r.running = 0 :=
  Nat.eq_zero_of_add_eq_zero_right h.1

/-! ## What each goroutine does to a runtime -/

theorem evolves_markStopped {r : Runtime} (h : r.Sound) : r.Evolves { r with status := .stopped } :=
  ⟨rfl, rfl, ⟨h.done, h.closes, h.unclosed, h.unlaunched, h.aborted⟩, id, fun _ ↦ rfl⟩

/-- A runtime that was given up is never entered. -/
theorem evolves_enterShutdown {r : Runtime} (h : r.Sound) (ha : r.aborted = false) :
    r.Evolves r.enterShutdown := by
  rw [enterShutdown]
  split_ifs with hs
  · refine ⟨rfl, rfl, ⟨nofun, h.closes, fun _ ↦ h.unclosed (.inl hs), h.unlaunched, ?_⟩, ?_, id⟩
    · exact fun h' ↦ absurd (h'.symm.trans ha) nofun
    · rintro ⟨-, hd | hd⟩
      · exact absurd (hd.symm.trans hs) nofun
      · exact absurd (hd.symm.trans ha) nofun
  · exact .refl h

theorem evolves_advanceShutdown {r : Runtime} (h : r.Sound) (closeErr : Option String) :
    r.Evolves (r.advanceShutdown closeErr) := by
  have ha (hs : r.stage ≠ .idle) : r.aborted ≠ true := fun h' ↦ hs (h.aborted h').2
  rw [advanceShutdown]
  split
  next hs =>
    have ha := ha (hs.trans_ne nofun)
    have hc : r.closes = 0 := h.unclosed (.inr hs) (Bool.eq_false_iff.mpr ha)
    have hf : ¬ r.Finished := by
      rintro ⟨-, hd | hd⟩
      · exact absurd (hd.symm.trans hs) nofun
      · exact ha hd
    split_ifs
    · exact ⟨rfl, rfl, ⟨nofun, (congrArg (· + 1) hc).le, nofun,
        h.unlaunched, fun h' ↦ absurd h' ha⟩, fun h' ↦ absurd h' hf, id⟩
    · exact ⟨rfl, rfl, ⟨nofun, h.closes, nofun, h.unlaunched, fun h' ↦ absurd h' ha⟩,
        fun h' ↦ absurd h' hf, id⟩
  next hs =>
    have ha := ha (hs.trans_ne nofun)
    split_ifs with hl
    · exact ⟨rfl, rfl, ⟨fun _ ↦ hl, h.closes, nofun, h.unlaunched, fun h' ↦ absurd h' ha⟩,
        fun _ ↦ ⟨hl, .inl rfl⟩, id⟩
    · exact .refl h
  next => exact .refl h

theorem evolves_advanceCleanup {r : Runtime} (h : r.Sound) : r.Evolves r.advanceCleanup := by
  rw [advanceCleanup]
  split_ifs with hc hd
  · refine ⟨rfl, rfl, ⟨h.done, h.closes, h.unclosed, fun hs ↦ ?_, h.aborted⟩, id, id⟩
    exact absurd ((h.unlaunched hs).2.symm.trans hc) nofun
  · refine evolves_enterShutdown h (Bool.eq_false_iff.mpr fun ha ↦ ?_)
    exact absurd ((h.unlaunched (h.aborted ha).1).2.symm.trans hc) nofun
  · exact .refl h

/-- One goroutine fewer that runs its service, one more that is about to leave. -/
theorem live_exit {r : Runtime} (h : r.running ≠ 0) : r.running - 1 + (r.leaving + 1) = r.live := by
  rw [live]
  omega

theorem evolves_exit {r : Runtime} (h : r.Sound) (err : Option String) :
    r.Evolves (r.exit err) := by
  rw [exit]
  split_ifs with hr
  · exact .refl h
  · have hl := live_exit hr
    have hs : r.streams ≠ [] := fun hs ↦ hr (Nat.eq_zero_of_add_eq_zero_right (h.unlaunched hs).1)
    have hf : ¬ r.Finished := fun hf ↦ hr hf.running_eq
    rw [markRuntimeExit]
    split_ifs with hst
    · exact ⟨rfl, rfl, ⟨fun hd ↦ hl.trans (h.done hd), h.closes, h.unclosed,
        fun h' ↦ absurd h' hs, h.aborted⟩, fun h' ↦ absurd h' hf, id⟩
    · exact ⟨rfl, rfl, ⟨fun hd ↦ hl.trans (h.done hd), h.closes, h.unclosed,
        fun h' ↦ absurd h' hs, h.aborted⟩, fun h' ↦ absurd h' hf,
        fun h' ↦ absurd (fun h'' ↦ nomatch h'.symm.trans h'') hst⟩

theorem evolves_quit {r : Runtime} (h : r.Sound) : r.Evolves r.quit := by
  rw [quit]
  split_ifs with hr
  · exact .refl h
  · have hr : r.running ≠ 0 := fun h' ↦ hr (.inl h')
    have hl := live_exit hr
    exact ⟨rfl, rfl, ⟨fun hd ↦ hl.trans (h.done hd), h.closes, h.unclosed,
      fun hs ↦ ⟨hl.trans (h.unlaunched hs).1, (h.unlaunched hs).2⟩, h.aborted⟩,
      fun hf ↦ absurd hf.running_eq hr, id⟩

theorem live_leave_eq_zero {r : Runtime} (h : r.live = 0) : r.leave.live = 0 := by
  have h0 := Nat.add_eq_zero_iff.mp h
  simp [live, leave, h0]

theorem evolves_leave {r : Runtime} (h : r.Sound) : r.Evolves r.leave :=
  ⟨rfl, rfl, ⟨fun hd ↦ live_leave_eq_zero (h.done hd), h.closes, h.unclosed,
    fun hs ↦ ⟨live_leave_eq_zero (h.unlaunched hs).1, (h.unlaunched hs).2⟩, h.aborted⟩,
    fun hf ↦ ⟨live_leave_eq_zero hf.1, hf.2⟩, id⟩

/-- A stream is launched in time if the runtime has not been shut down. -/
theorem evolves_launch {r : Runtime} (h : r.Sound) (hd : r.stage ≠ .done) (ha : r.aborted = false)
    (name : String) : r.Evolves (r.launch name) := by
  have hne : r.streams ++ [name] ≠ [] := List.append_ne_nil_of_right_ne_nil _ (List.cons_ne_nil _ _)
  refine ⟨rfl, rfl, ⟨fun h' ↦ absurd h' hd, h.closes, h.unclosed, fun h' ↦ absurd h' hne, ?_⟩, ?_,
    id⟩
  · exact fun h' ↦ absurd (h'.symm.trans ha) nofun
  · rintro ⟨-, h' | h'⟩
    · exact absurd h' hd
    · exact absurd (h'.symm.trans ha) nofun

/-- Giving up a runtime without a stream finishes it. -/
theorem sound_abort {r : Runtime} (h : r.Sound) (hs : r.streams = []) (hi : r.stage = .idle)
    (ha : r.aborted = false) : r.abort.Sound :=
  ⟨fun hd ↦ absurd (hd.symm.trans hi) nofun, (congrArg (· + 1) (h.unclosed (.inl hi) ha)).le,
    fun _ h' ↦ absurd h' nofun, h.unlaunched, fun _ ↦ ⟨hs, hi⟩⟩

/-- A runtime that is being built changes only when a stream is launched. -/
theorem stage_advanceCleanup {r : Runtime} (h : r.Sound) (hs : r.streams = []) :
    r.advanceCleanup = r := by
  rw [advanceCleanup, (h.unlaunched hs).2]
  exact if_neg nofun

theorem stage_advanceShutdown {r : Runtime} (hi : r.stage = .idle) (closeErr : Option String) :
    r.advanceShutdown closeErr = r := by
  rw [advanceShutdown, hi]

theorem streams_advanceShutdown (r : Runtime) (closeErr : Option String) :
    (r.advanceShutdown closeErr).streams = r.streams := by
  rw [advanceShutdown]
  split
  · split_ifs <;> rfl
  · split_ifs <;> rfl
  · rfl

theorem streams_advanceCleanup (r : Runtime) : r.advanceCleanup.streams = r.streams := by
  rw [advanceCleanup, enterShutdown]
  split_ifs <;> rfl

theorem streams_exit (r : Runtime) (err : Option String) : (r.exit err).streams = r.streams := by
  rw [exit, markRuntimeExit]
  split_ifs <;> rfl

theorem streams_quit (r : Runtime) : r.quit.streams = r.streams := by
  rw [quit]
  split_ifs <;> rfl

theorem stage_exit (r : Runtime) (err : Option String) : (r.exit err).stage = r.stage := by
  rw [exit, markRuntimeExit]
  split_ifs <;> rfl

theorem stage_quit (r : Runtime) : r.quit.stage = r.stage := by
  rw [quit]
  split_ifs <;> rfl

end Runtime

/-! ## The heap -/

/-- Every runtime of a heap evolves to the one at the same place of another. -/
structure HeapEvolves (heap heap' : List Runtime) : Prop where
  after : ∀ (k : ℕ) (r : Runtime), heap[k]? = some r → ∃ r', heap'[k]? = some r' ∧ r.Evolves r'
  before : ∀ (k : ℕ) (r' : Runtime), heap'[k]? = some r' → ∃ r, heap[k]? = some r ∧ r.Evolves r'

/-- The runtimes of a heap, and for each module the only one that need not be finished. -/
structure Core (heap : List Runtime) (holder : ModuleID → Option ℕ) : Prop where
  sound : ∀ (k : ℕ) (r : Runtime), heap[k]? = some r → r.Sound
  named : ∀ (id : ModuleID) (k : ℕ), holder id = some k →
    ∃ r, heap[k]? = some r ∧ r.owner = id ∧ r.aborted = false
  held : ∀ (k : ℕ) (r : Runtime), heap[k]? = some r → r.Finished ∨ holder r.owner = some k

theorem heapEvolves_modify {heap : List Runtime}
    (h : ∀ (k : ℕ) (r : Runtime), heap[k]? = some r → r.Sound) {rt : ℕ} {f : Runtime → Runtime}
    (hf : ∀ r, heap[rt]? = some r → r.Evolves (f r)) :
    HeapEvolves heap (heap.modify rt f) := by
  constructor
  · intro k r hr
    rw [List.getElem?_modify, hr]
    by_cases hk : rt = k
    · subst hk
      exact ⟨f r, by simp, hf r hr⟩
    · exact ⟨r, by simp [hk], .refl (h k r hr)⟩
  · intro k r' hr'
    rw [List.getElem?_modify] at hr'
    obtain ⟨r, hr, rfl⟩ := Option.map_eq_some_iff.mp hr'
    by_cases hk : rt = k
    · subst hk
      exact ⟨r, hr, by simpa using hf r hr⟩
    · exact ⟨r, hr, by simpa [hk] using .refl (h k r hr)⟩

theorem HeapEvolves.refl {heap : List Runtime}
    (h : ∀ (k : ℕ) (r : Runtime), heap[k]? = some r → r.Sound) : HeapEvolves heap heap :=
  ⟨fun k r hr ↦ ⟨r, hr, .refl (h k r hr)⟩, fun k r hr ↦ ⟨r, hr, .refl (h k r hr)⟩⟩

theorem HeapEvolves.trans {heap heap' heap'' : List Runtime} (h : HeapEvolves heap heap')
    (h' : HeapEvolves heap' heap'') : HeapEvolves heap heap'' := by
  constructor
  · intro k r hr
    obtain ⟨r', hr', e⟩ := h.after k r hr
    obtain ⟨r'', hr'', e'⟩ := h'.after k r' hr'
    exact ⟨r'', hr'', e.trans e'⟩
  · intro k r'' hr''
    obtain ⟨r', hr', e'⟩ := h'.before k r'' hr''
    obtain ⟨r, hr, e⟩ := h.before k r' hr'
    exact ⟨r, hr, e.trans e'⟩

namespace Core

variable {heap heap' : List Runtime} {holder : ModuleID → Option ℕ} {id : ModuleID}

theorem evolve (h : Core heap holder) (he : HeapEvolves heap heap') : Core heap' holder := by
  constructor
  · intro k r' hr'
    obtain ⟨r, -, e⟩ := he.before k r' hr'
    exact e.sound
  · intro id k hk
    obtain ⟨r, hr, ho, ha⟩ := h.named id k hk
    obtain ⟨r', hr', e⟩ := he.after k r hr
    exact ⟨r', hr', e.owner.trans ho, e.aborted.trans ha⟩
  · intro k r' hr'
    obtain ⟨r, hr, e⟩ := he.before k r' hr'
    rw [e.owner]
    exact (h.held k r hr).imp_left e.finished

/-- The runtime of a module may be forgotten once it is finished. -/
theorem drop (h : Core heap holder)
    (hf : ∀ (k : ℕ) (r : Runtime), holder id = some k → heap[k]? = some r → r.Finished) :
    Core heap (Function.update holder id none) := by
  refine ⟨h.sound, fun id' k hk ↦ ?_, fun k r hr ↦ ?_⟩
  · by_cases hid : id' = id
    · subst hid
      exact absurd hk (by simp)
    · rw [Function.update_of_ne hid] at hk
      exact h.named id' k hk
  · by_cases hid : r.owner = id
    · exact .inl ((h.held k r hr).elim (fun h ↦ h) fun hk ↦ hf k r (hid ▸ hk) hr)
    · rw [Function.update_of_ne hid]
      exact h.held k r hr

/-- Without a runtime to hold, every runtime of a module is finished. -/
theorem finished (h : Core heap holder) (hid : holder id = none) {k : ℕ} {r : Runtime}
    (hr : heap[k]? = some r) (ho : r.owner = id) : r.Finished := by
  refine (h.held k r hr).resolve_right fun hk ↦ ?_
  rw [ho, hid] at hk
  cases hk

/-- A module without a runtime gets a new one. -/
theorem allocate (h : Core heap holder) (hid : holder id = none) {r : Runtime} (hs : r.Sound)
    (ho : r.owner = id) (ha : r.aborted = false) :
    Core (heap ++ [r]) (Function.update holder id (some heap.length)) := by
  have cases_of {k : ℕ} {r' : Runtime} (hr' : (heap ++ [r])[k]? = some r') :
      heap[k]? = some r' ∨ k = heap.length ∧ r' = r := by
    rcases lt_or_ge k heap.length with hk | hk
    · exact .inl (by rwa [List.getElem?_append_left hk] at hr')
    · rw [List.getElem?_append_right hk, List.getElem?_singleton] at hr'
      split_ifs at hr' with h0
      exact .inr ⟨by omega, (Option.some.inj hr').symm⟩
  refine ⟨fun k r' hr' ↦ ?_, fun id' k hk ↦ ?_, fun k r' hr' ↦ ?_⟩
  · rcases cases_of hr' with hr' | ⟨-, rfl⟩
    · exact h.sound k r' hr'
    · exact hs
  · by_cases hid' : id' = id
    · subst hid'
      rw [Function.update_self, Option.some_inj] at hk
      subst hk
      exact ⟨r, by simp, ho, ha⟩
    · rw [Function.update_of_ne hid'] at hk
      obtain ⟨r', hr', hrest⟩ := h.named id' k hk
      exact ⟨r', by rw [List.getElem?_append_left (List.getElem?_eq_some_iff.mp hr').1, hr'], hrest⟩
  · rcases cases_of hr' with hr' | ⟨rfl, rfl⟩
    · by_cases hid' : r'.owner = id
      · exact .inl (h.finished hid hr' hid')
      · rw [Function.update_of_ne hid']
        exact h.held k r' hr'
    · exact .inr (by rw [ho, Function.update_self])

end Core

end ProcessBus.Supervisor
