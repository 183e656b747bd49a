import ProcessBus.Supervisor.Invariant

/-!
# The lifecycle of the modules

From the invariant follow the order of shutdowns and starts, the single call of each close function,
and that a module which was stopped stays at rest until it is started.  The case analysis over the
commands is made once, in `step_cases`.
-/

namespace ProcessBus.Supervisor

open Go Lib

namespace Manager

variable {m m' : Manager} {id : ModuleID} {cmd : Command} {rt : ℕ} {pc : Pc} {cfg : Option Config}
  {host : Host} {order : Order} {name : String}

/-! ## What a step does to the runtimes -/

/-- A command ends, or stays under way. -/
def Continues (m' : Manager) (cmd : Command) : Prop :=
  m'.command = none ∨ ∃ pc, m'.command = some (cmd, pc)

/-- What a command does outside of a start function: the runtimes evolve where they are. -/
def Calm (m m' : Manager) : Prop := HeapEvolves m.heap m'.heap ∧ m'.modules = m.modules

/-- What a start function does to the runtimes of its module: it makes one when there is none that
need be finished, gives up the one it builds, or installs it. -/
def Starts (m m' : Manager) (id : ModuleID) : Prop :=
  (∀ id' ≠ id, m'.modules id' = m.modules id') ∧
    (m'.heap = m.heap ∨
      (∃ rt, m.holder id = some rt ∧ m'.heap = m.heap.modify rt (·.abort)) ∨
      ∃ r, r.owner = id ∧ m.holder id = none ∧ m'.heap = m.heap ++ [r])

theorem Inv.calm (h : m.Inv) : m.Calm m := ⟨.refl h.core.sound, rfl⟩

theorem Inv.calm_modify (h : m.Inv) {f : Runtime → Runtime}
    (hf : ∀ r, m.heap[rt]? = some r → r.Sound → r.Evolves (f r)) : m.Calm (m.modify rt f) :=
  ⟨h.heapEvolves_modify hf, rfl⟩

theorem findPublisher_cases {stopped unknown : Failure} (h : m.Inv) :
    m.Calm (m.findPublisher cmd id name stopped unknown) ∧
      (m.findPublisher cmd id name stopped unknown).Continues cmd := by
  rw [findPublisher]
  split
  next => exact ⟨h.calm, .inl rfl⟩
  next =>
    split_ifs
    · exact ⟨h.calm, .inl rfl⟩
    · exact ⟨h.calm, .inr ⟨_, rfl⟩⟩
    · exact ⟨h.calm, .inl rfl⟩

theorem enter_cases (h : m.Inv) (hcmd : m.command = some (cmd, .entry)) :
    m.Calm (m.enter cmd) ∧ (m.enter cmd).Continues cmd := by
  have hwait : m.Continues cmd := .inr ⟨_, hcmd⟩
  cases cmd with
  | start id =>
      rw [enter, Manager.start]
      split_ifs
      · exact ⟨h.calm, .inl rfl⟩
      · exact ⟨h.calm, .inl rfl⟩
      · exact ⟨h.calm, hwait⟩
      · exact ⟨h.calm, .inl rfl⟩
      · exact ⟨h.calm, hwait⟩
      · cases m.current id with
        | none => exact ⟨h.calm, .inr ⟨_, rfl⟩⟩
        | some x => exact ⟨h.calm, .inr ⟨_, rfl⟩⟩
  | stop id =>
      rw [enter]
      split_ifs
      · exact ⟨h.calm, .inl rfl⟩
      · exact ⟨h.calm, .inr ⟨_, rfl⟩⟩
  | updateConfig cfg order =>
      rw [enter, Manager.updateConfig]
      split_ifs
      · exact ⟨h.calm, .inl rfl⟩
      · exact ⟨h.calm, .inl rfl⟩
      · exact ⟨h.calm, hwait⟩
      · have he := (inv_foldl_markStopped (order.1.filterMap m.current) h hcmd).2.1
        exact ⟨⟨he, foldl_markStopped_modules _ m⟩, .inr ⟨_, rfl⟩⟩
  | close =>
      rw [enter, Manager.close]
      split_ifs
      · exact ⟨h.calm, .inl rfl⟩
      · exact ⟨h.calm, .inr ⟨_, rfl⟩⟩
  | applyGoosePublisherState name =>
      rw [enter]
      split_ifs
      · exact ⟨h.calm, .inl rfl⟩
      · exact findPublisher_cases h
  | setSVPublisherWaveform name =>
      rw [enter]
      split_ifs
      · exact ⟨h.calm, .inl rfl⟩
      · exact findPublisher_cases h
  | acquireAgent =>
      rw [enter, acquireAgent]
      split_ifs <;> exact ⟨h.calm, .inl rfl⟩
  | leaseRelease k =>
      rw [enter]
      split_ifs <;> exact ⟨h.calm, .inl rfl⟩
  | leaseClose k =>
      rw [enter]
      split_ifs
      · exact ⟨h.calm, .inr ⟨_, rfl⟩⟩
      · exact ⟨h.calm, .inl rfl⟩
  | leaseApplyGoose k name =>
      rw [enter]
      split_ifs
      · exact findPublisher_cases h
      · exact ⟨h.calm, .inl rfl⟩
  | leaseApplySV k name =>
      rw [enter]
      split_ifs
      · exact findPublisher_cases h
      · exact ⟨h.calm, .inl rfl⟩
  | leaseApplySVTracked k name =>
      rw [enter]
      split_ifs
      · exact findPublisher_cases h
      · exact ⟨h.calm, .inl rfl⟩

/-- The drain of a runtime, until it is over. -/
theorem drain_cases (h : m.Inv) (hho : m.holder = m.modules) (hk : m.modules id = some rt)
    (hcmd : m.command = some (cmd, pc)) :
    m.Calm (m.modify rt (·.enterShutdown)) ∧ (m.modify rt (·.enterShutdown)).Continues cmd :=
  ⟨h.calm_modify fun _ hr _ ↦ h.evolves_enterShutdown hho hk hr, .inr ⟨_, hcmd⟩⟩

/-- What one careful step of a command does. -/
theorem advance_cases (h : m.Inv) (hcmd : m.command = some (cmd, pc))
    (hcare : m.careful (.advance host) = true) :
    (m.Calm (m.advance cmd pc host) ∨
      ∃ id, cmd = .start id ∧ m.Starts (m.advance cmd pc host) id) ∧
      (m.advance cmd pc host).Continues cmd := by
  have hp := h.place _ hcmd
  have hcalm {m' : Manager} (h : m.Calm m' ∧ m'.Continues cmd) :
      (m.Calm m' ∨ ∃ id, cmd = .start id ∧ m.Starts m' id) ∧ m'.Continues cmd := ⟨.inl h.1, h.2⟩
  cases pc with
  | entry => exact hcalm (enter_cases h hcmd)
  | startDrain id rt wait =>
      obtain ⟨rfl, -, hk⟩ := hp
      have hho : m.holder = m.modules := by rw [holder, hcmd]
      rw [advance]
      split_ifs
      · rw [startAgain, if_pos hk]
        exact hcalm ⟨⟨h.markStopped_evolves, rfl⟩, .inr ⟨_, rfl⟩⟩
      · exact hcalm (drain_cases h hho hk hcmd)
  | startCall id cfg =>
      obtain ⟨rfl, -⟩ := hp
      have hid : m.holder id = none := by simp only [holder, hcmd, Function.update_self]
      cases cfg with
      | none => exact hcalm ⟨h.calm, .inr ⟨_, rfl⟩⟩
      | some cfg =>
          rw [advance, startModule]
          split
          next => exact hcalm ⟨h.calm, .inr ⟨_, rfl⟩⟩
          next =>
            exact ⟨.inr ⟨id, rfl, fun _ _ ↦ rfl, .inr (.inr ⟨_, rfl, hid, rfl⟩)⟩, .inr ⟨_, rfl⟩⟩
  | launching id rt streams =>
      obtain ⟨rfl, -⟩ := hp
      have hid : m.holder id = some rt := by simp only [holder, hcmd, Function.update_self]
      cases streams with
      | nil => exact hcalm ⟨h.calm, .inr ⟨_, rfl⟩⟩
      | cons s streams =>
          cases s with
          | ok name => exact hcalm ⟨evolves_launchNext h hcmd hcare, .inr ⟨_, rfl⟩⟩
          | error err =>
              exact ⟨.inr ⟨id, rfl, fun _ _ ↦ rfl, .inr (.inl ⟨rt, hid, rfl⟩)⟩, .inr ⟨_, rfl⟩⟩
  | publish id rt =>
      obtain ⟨rfl, -⟩ := hp
      exact ⟨.inr ⟨id, rfl, fun _ hne ↦ Function.update_of_ne hne _ _, .inl rfl⟩, .inr ⟨_, rfl⟩⟩
  | setError id err =>
      obtain ⟨rfl, -⟩ := hp
      have hid : m.holder id = none := by simp only [holder, hcmd, Function.update_self]
      refine ⟨.inr ⟨id, rfl, fun _ hne ↦ Function.update_of_ne hne _ _, ?_⟩, .inr ⟨_, rfl⟩⟩
      exact .inr (.inr ⟨_, rfl, hid, rfl⟩)
  | startReturn id errs => exact hcalm ⟨h.calm, .inl rfl⟩
  | stopping ids errs =>
      cases ids with
      | nil =>
          rw [advance, stopReturn.eq_def]
          split <;> exact hcalm ⟨h.calm, .inl rfl⟩
      | cons id ids =>
          rw [advance, Manager.stop]
          split_ifs
          · exact hcalm ⟨h.calm, .inr ⟨_, hcmd⟩⟩
          · cases m.current id with
            | none => exact hcalm ⟨h.calm, .inr ⟨_, rfl⟩⟩
            | some x => exact hcalm ⟨⟨h.markStopped_evolves, rfl⟩, .inr ⟨_, rfl⟩⟩
  | stopDrain rt wait ids errs =>
      obtain ⟨⟨id, hk⟩, -⟩ := hp
      have hho : m.holder = m.modules := by rw [holder, hcmd]
      rw [advance]
      split_ifs
      · exact hcalm ⟨h.calm, .inr ⟨_, rfl⟩⟩
      · exact hcalm (drain_cases h hho hk hcmd)
  | updateDrain rts cfg =>
      cases rts with
      | nil => exact hcalm ⟨h.calm, .inl rfl⟩
      | cons x rts =>
          obtain ⟨id, hk⟩ := hp.1 x List.mem_cons_self
          have hho : m.holder = m.modules := by rw [holder, hcmd]
          rw [advance]
          split_ifs
          · exact hcalm ⟨h.calm, .inr ⟨_, rfl⟩⟩
          · exact hcalm (drain_cases h hho hk hcmd)
  | writing rt name => exact hcalm ⟨h.calm, .inl rfl⟩

/-- **What one careful step does to the runtimes.** -/
theorem step_cases {a : Action} (h : m.Inv) (hcare : m.careful a = true) :
    m.Calm (m.step a) ∨ ∃ id pc, m.command = some (.start id, pc) ∧ m.Starts (m.step a) id := by
  cases a with
  | call cmd =>
      rw [step]
      split_ifs <;> exact .inl h.calm
  | shutdown rt closeErr =>
      exact .inl (h.calm_modify fun r _ hs ↦ Runtime.evolves_advanceShutdown hs closeErr)
  | cleanup rt => exact .inl (h.calm_modify fun r _ hs ↦ Runtime.evolves_advanceCleanup hs)
  | exit rt err => exact .inl (h.calm_modify fun r _ hs ↦ Runtime.evolves_exit hs err)
  | quit rt => exact .inl (h.calm_modify fun r _ hs ↦ Runtime.evolves_quit hs)
  | leave rt => exact .inl (h.calm_modify fun r _ hs ↦ Runtime.evolves_leave hs)
  | advance host =>
      cases hcmd : m.command with
      | none =>
          rw [step_advance_of_none hcmd]
          exact .inl h.calm
      | some x =>
          obtain ⟨cmd, pc⟩ := x
          rw [step_advance hcmd]
          rcases (advance_cases h hcmd hcare).1 with hcalm | ⟨id, rfl, hs⟩
          · exact .inl hcalm
          · exact .inr ⟨id, pc, rfl, hs⟩

/-! ## What a run keeps -/

/-- A start function has no say about the runtimes of other modules. -/
theorem Inv.holder_of_ne (h : m.Inv) {id' : ModuleID} (hcmd : m.command = some (.start id', pc))
    (hne : id ≠ id') : m.holder id = m.modules id := by
  have hp := h.place _ hcmd
  cases pc with
  | startCall id₀ cfg =>
      cases hp.1
      simp only [holder, hcmd, Function.update_of_ne hne]
  | setError id₀ err =>
      cases hp.1
      simp only [holder, hcmd, Function.update_of_ne hne]
  | launching id₀ rt streams =>
      cases hp.1
      simp only [holder, hcmd, Function.update_of_ne hne]
  | publish id₀ rt =>
      cases hp.1
      simp only [holder, hcmd, Function.update_of_ne hne]
  | entry => simp only [holder, hcmd]
  | startDrain id₀ rt wait => simp only [holder, hcmd]
  | startReturn id₀ errs => simp only [holder, hcmd]
  | stopping ids errs => simp only [holder, hcmd]
  | stopDrain rt wait ids errs => simp only [holder, hcmd]
  | updateDrain rts cfg => simp only [holder, hcmd]
  | writing rt name => simp only [holder, hcmd]

/-- **A module stays at rest until it is started.** -/
theorem Inv.atRest_step {a : Action} (h : m.Inv) (hcare : m.careful a = true) (hrest : m.AtRest id)
    (hne : ∀ pc, m.command ≠ some (.start id, pc)) : (m.step a).AtRest id := by
  rcases step_cases h hcare with ⟨he, hm⟩ | ⟨id', pc, hcmd, hm, hheap⟩
  · exact hrest.evolve hm he
  · have hid : id ≠ id' := by
      rintro rfl
      exact hne pc hcmd
    have hho := h.holder_of_ne hcmd hid
    refine hrest.of_evolves (hm id hid) fun k r' hr' hk ↦ ?_
    rcases hheap with hheap | ⟨rt, hrt, hheap⟩ | ⟨r, ho, -, hheap⟩
    · rw [hheap] at hr'
      exact ⟨r', hr', .refl (h.core.sound k r' hr')⟩
    · rw [hheap, List.getElem?_modify] at hr'
      obtain ⟨r, hr, rfl⟩ := Option.map_eq_some_iff.mp hr'
      by_cases hkk : rt = k
      · subst hkk
        obtain ⟨r₀, hr₀, ho, -⟩ := h.core.named id' rt hrt
        rw [hr, Option.some_inj] at hr₀
        subst hr₀
        rcases hk with hk | hk
        · have hk : r.owner = id := by simpa [Runtime.abort] using hk
          exact absurd (hk.symm.trans ho) hid
        · obtain ⟨r₀, hr₀, ho', -⟩ := h.core.named id rt (hho.trans hk)
          rw [hr, Option.some_inj] at hr₀
          exact absurd (ho'.symm.trans (hr₀ ▸ ho)) hid
      · rw [if_neg hkk]
        exact ⟨r, hr, .refl (h.core.sound k r hr)⟩
    · have hlt : k < m.heap.length := by
        rcases hk with hk | hk
        · by_contra hlt
          rw [hheap, List.getElem?_append_right (not_lt.mp hlt), List.getElem?_singleton] at hr'
          split_ifs at hr'
          exact hid (hk.symm.trans (Option.some_inj.mp hr' ▸ ho))
        · obtain ⟨r₀, hr₀, -⟩ := h.core.named id k (hho.trans hk)
          exact (List.getElem?_eq_some_iff.mp hr₀).1
      rw [hheap, List.getElem?_append_left hlt] at hr'
      exact ⟨r', hr', .refl (h.core.sound k r' hr')⟩

/-- A command returns in a step, and it was not turned away because of a lease. -/
def Returns (m : Manager) (a : Action) (cmd : Command) : Prop :=
  (∃ pc, m.command = some (cmd, pc)) ∧ (m.step a).command = none ∧
    (m.step a).log ≠ m.log ++ [.refused cmd]

/-- **What a command was to stop is at rest when it returns.** -/
theorem Inv.atRest_of_returns {a : Action} (h : m.Inv) (hr : m.Returns a cmd) (hs : cmd.Stops id) :
    (m.step a).AtRest id := by
  obtain ⟨⟨pc, hcmd⟩, hnone, hlog⟩ := hr
  have hsome {x : Command × Pc} {p : Prop} (h : some x = none) : p := by cases h
  cases a with
  | advance host =>
      rw [step_advance hcmd] at hnone hlog ⊢
      cases pc with
      | entry =>
          have hshut (hc : m.closed = true) : m.AtRest id :=
            (h.shut hc).resolve_left (not_closing_of_entry hcmd) id
          cases cmd with
          | stop id' =>
              rw [advance, enter] at hnone hlog
              split_ifs at hnone hlog with ha
              · exact absurd rfl hlog
              · exact hsome hnone
          | updateConfig cfg order =>
              rw [advance, enter] at hnone hlog ⊢
              split_ifs at hnone hlog ⊢ with ha
              · exact absurd rfl hlog
              · rw [Manager.updateConfig] at hnone ⊢
                split_ifs at hnone ⊢ with hc hw
                · exact (atRest_congr rfl rfl).mpr (hshut hc)
                · exact hsome (hcmd.symm.trans hnone)
                · exact hsome hnone
          | close =>
              rw [advance, enter, Manager.close] at hnone ⊢
              split_ifs at hnone ⊢ with hc
              · exact (atRest_congr rfl rfl).mpr (hshut hc)
              · exact hsome hnone
          | _ => exact hs.elim
      | stopping ids errs =>
          cases ids with
          | nil =>
              rw [advance, stopReturn.eq_def]
              split
              · exact hs.elim
              · exact (atRest_congr rfl rfl).mpr (h.atRest_of_stopped hcmd hs)
          | cons id' ids =>
              rw [advance, Manager.stop] at hnone
              split_ifs at hnone
              · exact hsome (hcmd.symm.trans hnone)
              · cases hcur : m.current id' with
                | none =>
                    rw [hcur] at hnone
                    exact hsome hnone
                | some x =>
                    rw [hcur] at hnone
                    exact hsome hnone
      | updateDrain rts cfg =>
          cases rts with
          | nil => exact (atRest_congr rfl rfl).mpr (h.atRest_of_updated hcmd id)
          | cons x rts =>
              rw [advance] at hnone
              split_ifs at hnone
              · exact hsome hnone
              · exact hsome (hcmd.symm.trans hnone)
      | stopDrain rt wait ids errs =>
          rw [advance] at hnone
          split_ifs at hnone
          · exact hsome hnone
          · exact hsome (hcmd.symm.trans hnone)
      | writing rt name => exact absurd hs (h.place _ hcmd id)
      | startReturn id' errs =>
          obtain rfl : cmd = .start id' := h.place _ hcmd
          exact hs.elim
      | startDrain id' rt wait =>
          obtain ⟨rfl, -⟩ := h.place _ hcmd
          exact hs.elim
      | startCall id' cfg =>
          obtain ⟨rfl, -⟩ := h.place _ hcmd
          exact hs.elim
      | launching id' rt streams =>
          obtain ⟨rfl, -⟩ := h.place _ hcmd
          exact hs.elim
      | publish id' rt =>
          obtain ⟨rfl, -⟩ := h.place _ hcmd
          exact hs.elim
      | setError id' err =>
          obtain ⟨rfl, -⟩ := h.place _ hcmd
          exact hs.elim
  | call cmd' =>
      rw [step, if_pos (by rw [hcmd]; rfl)] at hnone
      exact hsome (hcmd.symm.trans hnone)
  | shutdown rt closeErr => exact hsome (hcmd.symm.trans hnone)
  | cleanup rt => exact hsome (hcmd.symm.trans hnone)
  | exit rt err => exact hsome (hcmd.symm.trans hnone)
  | quit rt => exact hsome (hcmd.symm.trans hnone)
  | leave rt => exact hsome (hcmd.symm.trans hnone)

/-- A command comes under way by being called. -/
theorem Inv.command_step (h : m.Inv) {a : Action} (hcare : m.careful a = true)
    (hne : ∀ pc, m.command ≠ some (cmd, pc)) (ha : a ≠ .call cmd) (pc : Pc) :
    (m.step a).command ≠ some (cmd, pc) := by
  intro hpc
  cases a with
  | call cmd' =>
      rw [step] at hpc
      split_ifs at hpc
      · exact hne pc hpc
      · cases hpc
        exact ha rfl
  | advance host =>
      cases hcmd : m.command with
      | none =>
          rw [step_advance_of_none hcmd] at hpc
          exact hne pc hpc
      | some x =>
          obtain ⟨cmd', pc'⟩ := x
          rw [step_advance hcmd] at hpc
          rcases (advance_cases h hcmd hcare).2 with hc | ⟨pc'', hc⟩
          · cases hc.symm.trans hpc
          · cases hc.symm.trans hpc
            exact hne pc' hcmd
  | shutdown rt closeErr => exact hne pc hpc
  | cleanup rt => exact hne pc hpc
  | exit rt err => exact hne pc hpc
  | quit rt => exact hne pc hpc
  | leave rt => exact hne pc hpc

/-- A run that does not start a module leaves it at rest. -/
theorem atRest_run {bs : List Action} (h : m.Inv) (hrest : m.AtRest id)
    (hne : ∀ pc, m.command ≠ some (.start id, pc))
    (hcare : Meets step (fun m a ↦ m.careful a = true) m bs)
    (hstart : ∀ b ∈ bs, b ≠ .call (.start id)) : (bs.foldl step m).AtRest id := by
  induction bs generalizing m with
  | nil => exact hrest
  | cons b bs ih =>
      refine ih (inv_step h hcare.1) (h.atRest_step hcare.1 hrest hne) ?_ hcare.2
        fun b' hb' ↦ hstart b' (List.mem_cons_of_mem b hb')
      exact h.command_step hcare.1 hne (hstart b List.mem_cons_self)

/-- What the lifecycle promises in a state, if it goes on with steps that meet `ok`.  A runtime is
made only when all that its module had are finished; no close function is called twice; the
modules that a command was to stop are at rest when it returns, until they are started; and the
exit of one runtime leaves the others as they are, which holds by the definition of `modify`. -/
structure Orderly (ok : Manager → Action → Prop) (m : Manager) : Prop where
  created : ∀ a, ok m a → ∀ r, (m.step a).heap[m.heap.length]? = some r →
    ∀ (k : ℕ) (r' : Runtime), m.heap[k]? = some r' → r'.owner = r.owner → r'.Finished
  closes : ∀ (k : ℕ) (r : Runtime), m.heap[k]? = some r → r.closes ≤ 1
  rest : ∀ a cmd id bs, Meets step ok m (a :: bs) → m.Returns a cmd → cmd.Stops id →
    (∀ b ∈ bs, b ≠ .call (.start id)) → (bs.foldl step (m.step a)).AtRest id
  exits : ∀ rt err k, k ≠ rt → (m.step (.exit rt err)).heap[k]? = m.heap[k]?

/-- A runtime is made by a start function, when its module has none left. -/
theorem Inv.finished_of_created {a : Action} (h : m.Inv) (hcare : m.careful a = true) {r : Runtime}
    (hr : (m.step a).heap[m.heap.length]? = some r) {k : ℕ} {r' : Runtime}
    (hr' : m.heap[k]? = some r') (ho : r'.owner = r.owner) : r'.Finished := by
  have hend : m.heap[m.heap.length]? = none := List.getElem?_eq_none le_rfl
  rcases step_cases h hcare with ⟨he, -⟩ | ⟨id, pc, -, -, hheap⟩
  · obtain ⟨r₀, hr₀, -⟩ := he.before _ r hr
    exact absurd (hend.symm.trans hr₀) nofun
  · rcases hheap with hheap | ⟨rt, -, hheap⟩ | ⟨r₀, ho₀, hid, hheap⟩
    · rw [hheap, hend] at hr
      cases hr
    · rw [hheap, List.getElem?_modify, hend] at hr
      cases hr
    · rw [hheap, List.getElem?_concat_length, Option.some_inj] at hr
      subst hr
      exact h.core.finished hid hr' (ho.trans ho₀)

/-- **The lifecycle of the modules.**  Every run whose start functions are careful keeps the
promises of `Orderly` in every state it reaches. -/
theorem module_lifecycle (cfg : Option Config) {as : List Action}
    (h : Meets step (fun m a ↦ m.careful a = true) (Manager.new cfg) as) :
    (as.foldl step (Manager.new cfg)).Orderly fun m a ↦ m.careful a = true := by
  have hi : (as.foldl step (Manager.new cfg)).Inv :=
    inv_run (I := Manager.Inv) (fun _ _ ↦ inv_step) (inv_new cfg) h
  refine ⟨fun a hcare r hr k r' ↦ hi.finished_of_created hcare hr, ?_, ?_, ?_⟩
  · exact fun k r hr ↦ (hi.core.sound k r hr).closes
  · rintro a cmd id bs ⟨hcare, hmeets⟩ hret hs hstart
    refine atRest_run (inv_step hi hcare) (hi.atRest_of_returns hret hs) (fun pc hpc ↦ ?_) hmeets
      hstart
    exact absurd (hret.2.1.symm.trans hpc) nofun
  · intro rt err k hk
    exact List.getElem?_modify_ne _ _ hk.symm

/-! ## A launch that comes too late -/

/-- A publisher with a data set of one boolean. -/
def examplePublisher (name : String) : GoosePublisher where
  name
  -- 01:0c:cd:01:00:01
  dstMAC := [48, 49, 58, 48, 99, 58, 99, 100, 58, 48, 49, 58, 48, 48, 58, 48, 49]
  srcMAC := [48, 50, 58, 48, 48, 58, 48, 48, 58, 48, 48, 58, 48, 48, 58, 48, 49]
  dataset := [⟨"Ind1", "bool"⟩]

/-- Two GOOSE publishers on one interface. -/
def exampleConfig : Config where
  goosePub := { enabled := true, streams := [examplePublisher "A", examplePublisher "B"] }

/-- Start the publishers, and launch the first of them. -/
def exampleLaunch : List Action :=
  [.call (.start .goosePub), .advance {}, .advance {}, .advance {}]

/-- The first publisher fails, and is cleaned up. -/
def exampleFailure : List Action :=
  [.exit 0 (some "network is down"), .leave 0, .cleanup 0, .shutdown 0 none, .shutdown 0 none,
    .cleanup 0]

/-- Launch the second publisher, publish the runtime and return; then stop the module, up to the
return. -/
def exampleStop : List Action :=
  [.advance {}, .advance {}, .advance {}, .advance {}, .call (.stop .goosePub), .advance {},
    .advance {}, .advance {}]

/-- When both publishers are launched in time, the run is orderly. -/
theorem module_lifecycle_example :
    Meets step (fun m a ↦ m.careful a = true) (Manager.new (some exampleConfig))
        (exampleLaunch ++ .advance {} :: exampleFailure) ∧
      ((exampleLaunch ++ .advance {} :: exampleFailure).foldl step
        (Manager.new (some exampleConfig))).Orderly fun m a ↦ m.careful a = true := by
  have h : Meets step (fun m a ↦ m.careful a = true) (Manager.new (some exampleConfig))
      (exampleLaunch ++ .advance {} :: exampleFailure) := by decide +kernel
  exact ⟨h, module_lifecycle (some exampleConfig) h⟩

/-- `Stop` returns once it has drained its module. -/
theorem returns_stop {errs : List Failure} (hcmd : m.command = some (.stop id, .stopping [] errs)) :
    m.Returns (.advance host) (.stop id) := by
  refine ⟨⟨_, hcmd⟩, ?_, ?_⟩
  · rw [step_advance hcmd]
    rfl
  · rw [step_advance hcmd]
    intro hlog
    cases List.append_cancel_left hlog

/-- `Stop` of the GOOSE publishers, with nothing left to stop. -/
def isStopped : Command × Pc → Bool
  | (.stop .goosePub, .stopping [] _) => true
  | _ => false

theorem eq_of_isStopped {x : Command × Pc} (h : isStopped x = true) :
    ∃ errs, x = (.stop .goosePub, .stopping [] errs) := by
  unfold isStopped at h
  split at h
  · exact ⟨_, rfl⟩
  · cases h

/-- When the first one fails before the second is launched, `Stop` returns while the second is
running. -/
theorem launched_after_shutdown :
    ¬ ∀ (cfg : Option Config) (as : List Action),
      (as.foldl step (Manager.new cfg)).Orderly fun _ _ ↦ True := by
  intro h
  have hm := h (some exampleConfig) (exampleLaunch ++ exampleFailure ++ exampleStop)
  have hcmd : ((exampleLaunch ++ exampleFailure ++ exampleStop).foldl step
      (Manager.new (some exampleConfig))).command.any isStopped = true := by
    decide +kernel
  have hlive : (((exampleLaunch ++ exampleFailure ++ exampleStop).foldl step
      (Manager.new (some exampleConfig))).step (.advance {})).heap[0]?.map
        (fun r ↦ (r.owner, r.live)) = some (.goosePub, 1) := by
    decide +kernel
  generalize (exampleLaunch ++ exampleFailure ++ exampleStop).foldl step
    (Manager.new (some exampleConfig)) = m at hm hcmd hlive
  obtain ⟨x, hx, hstopped⟩ := (Option.any_eq_true _ _).mp hcmd
  obtain ⟨errs, rfl⟩ := eq_of_isStopped hstopped
  have hrest : (m.step (.advance {})).AtRest .goosePub :=
    hm.rest (.advance {}) (.stop .goosePub) .goosePub [] ⟨trivial, trivial⟩ (returns_stop hx) rfl
      fun _ hb ↦ absurd hb List.not_mem_nil
  obtain ⟨r, hr, hl⟩ := Option.map_eq_some_iff.mp hlive
  obtain ⟨ho, hl⟩ := Prod.mk.inj hl
  cases hl.symm.trans (hrest.2 0 r hr ho).1

end Manager
end ProcessBus.Supervisor
