import ProcessBus.Supervisor.Runtime

/-!
# The invariant of the supervisor

A module has at most one runtime that has not been shut down: the installed one, or the one that a
start function is building after the installed one has been drained (`Manager.holder`).  What each
command has achieved when it comes to a place in its program is `Manager.Place`.

One thing can go wrong.  A start function launches its streams one after another, and the first of
them may fail, report it and be cleaned up before the last is launched; what is launched then is
not waited for by anyone.  `careful` excludes this, and that `startGoosePub` drops a runtime of
which it has launched a stream already.
-/

namespace ProcessBus.Supervisor

open Go Lib

/-- The modules that a command has stopped when it returns. -/
def Command.Stops : Command → ModuleID → Prop
  | .stop id', id => id = id'
  | .updateConfig _ _, _ | .close, _ => True
  | _, _ => False

namespace Manager

variable {m m' : Manager} {id : ModuleID} {cmd : Command} {rt : ℕ}

/-- The stream that a start function looks at next, with its runtime. -/
def nextStream (m : Manager) : Option (Runtime × Except Failure String) :=
  match m.command with
  | some (_, .launching _ rt (s :: _)) => m.heap[rt]?.map (·, s)
  | _ => none

/-- No stream is launched for a runtime that has been shut down, and none is found to be wrong
after another one has been launched.  A launch while `wg.Wait` is about to return is careful: what
the program does not survive keeps the promises in the model. -/
def careful (m : Manager) : Action → Bool
  | .advance _ =>
      match m.nextStream with
      | none => true
      | some (r, .ok _) => r.stage ≠ .done
      | some (r, .error _) => r.streams.isEmpty
  | _ => true

/-- The module is stopped, and nothing of it is running. -/
def AtRest (m : Manager) (id : ModuleID) : Prop :=
  m.status id = .stopped ∧
    ∀ (k : ℕ) (r : Runtime), m.heap[k]? = some r → r.owner = id → r.Finished

/-- For each module the only runtime that need not be finished. -/
def holder (m : Manager) : ModuleID → Option ℕ :=
  match m.command with
  | some (_, .startCall id _) | some (_, .setError id _) => Function.update m.modules id none
  | some (_, .launching id rt _) | some (_, .publish id rt) =>
      Function.update m.modules id (some rt)
  | _ => m.modules

/-- What holds where a command is. -/
def Place (m : Manager) : Command × Pc → Prop
  | (_, .entry) => True
  | (cmd, .startDrain id rt _) => cmd = .start id ∧ m.closed = false ∧ m.modules id = some rt
  | (cmd, .startCall id _) | (cmd, .setError id _) | (cmd, .publish id _) =>
      cmd = .start id ∧ m.closed = false
  | (cmd, .launching id rt _) =>
      cmd = .start id ∧ m.closed = false ∧
        ∀ r, m.heap[rt]? = some r → r.streams = [] → r.stage = .idle
  | (cmd, .startReturn id _) => cmd = .start id
  | (cmd, .stopping ids _) => ∀ id, cmd.Stops id → id ∈ ids ∨ m.AtRest id
  | (cmd, .stopDrain rt _ ids _) =>
      (∃ id, m.modules id = some rt) ∧
        ∀ id, cmd.Stops id → id ∈ ids ∨ m.AtRest id ∨
          m.modules id = some rt ∧ m.status id = .stopped
  | (_, .updateDrain rts _) =>
      (∀ x ∈ rts, ∃ id, m.modules id = some x.1) ∧
        ∀ id, m.AtRest id ∨ m.status id = .stopped ∧ ∃ x ∈ rts, m.modules id = some x.1
  | (cmd, .writing _ _) => ∀ id, ¬ cmd.Stops id

/-- The command is closing the supervisor. -/
def Closing (m : Manager) : Prop := ∃ pc, m.command = some (.close, pc) ∧ pc ≠ .entry

structure Inv (m : Manager) : Prop where
  core : Core m.heap m.holder
  place : ∀ x, m.command = some x → m.Place x
  shut : m.closed = true → m.Closing ∨ ∀ id, m.AtRest id

theorem status_eq_stopped_iff :
    m.status id = .stopped ↔
      ∀ k, m.modules id = some k → ∀ r, m.heap[k]? = some r → r.status = .stopped := by
  rw [status]
  cases hk : m.modules id with
  | none => simp
  | some k =>
      cases hr : m.heap[k]? with
      | none => simp [hr]
      | some r => simp [hr]

/-- A module stays at rest if its runtimes evolve and no other becomes one of them. -/
theorem AtRest.of_evolves (h : m.AtRest id) (hm : m'.modules id = m.modules id)
    (he : ∀ (k : ℕ) (r' : Runtime), m'.heap[k]? = some r' →
      r'.owner = id ∨ m.modules id = some k → ∃ r, m.heap[k]? = some r ∧ r.Evolves r') :
    m'.AtRest id := by
  refine ⟨status_eq_stopped_iff.mpr fun k hk r' hr' ↦ ?_, fun k r' hr' ho ↦ ?_⟩
  · rw [hm] at hk
    obtain ⟨r, hr, e⟩ := he k r' hr' (.inr hk)
    exact e.stopped (status_eq_stopped_iff.mp h.1 k hk r hr)
  · obtain ⟨r, hr, e⟩ := he k r' hr' (.inl ho)
    exact e.finished (h.2 k r hr (e.owner.symm.trans ho))

theorem AtRest.evolve (h : m.AtRest id) (hm : m'.modules = m.modules)
    (he : HeapEvolves m.heap m'.heap) : m'.AtRest id :=
  h.of_evolves (congrFun hm id) fun k r' hr' _ ↦ he.before k r' hr'

theorem stopped_evolve (h : m.status id = .stopped) (hm : m'.modules = m.modules)
    (he : HeapEvolves m.heap m'.heap) : m'.status id = .stopped := by
  refine status_eq_stopped_iff.mpr fun k hk r' hr' ↦ ?_
  obtain ⟨r, hr, e⟩ := he.before k r' hr'
  exact e.stopped (status_eq_stopped_iff.mp h k (hm ▸ hk) r hr)

/-- The place of a command outlives a change of the runtimes; a start function also needs that
nothing enters the runtime it builds. -/
theorem Place.evolve {x : Command × Pc} (h : m.Place x) (hm : m'.modules = m.modules)
    (hc : m'.closed = m.closed) (he : HeapEvolves m.heap m'.heap)
    (hl : ∀ cmd id rt streams, x = (cmd, .launching id rt streams) →
      ∀ r', m'.heap[rt]? = some r' → r'.streams = [] → r'.stage = .idle) : m'.Place x := by
  obtain ⟨cmd, pc⟩ := x
  cases pc with
  | entry => trivial
  | startDrain id rt wait => exact ⟨h.1, hc.trans h.2.1, (congrFun hm id).trans h.2.2⟩
  | startCall id cfg => exact ⟨h.1, hc.trans h.2⟩
  | launching id rt streams => exact ⟨h.1, hc.trans h.2.1, hl cmd id rt streams rfl⟩
  | publish id rt => exact ⟨h.1, hc.trans h.2⟩
  | setError id err => exact ⟨h.1, hc.trans h.2⟩
  | startReturn id errs => exact h
  | stopping ids errs => exact fun id hs ↦ (h id hs).imp_right fun h ↦ h.evolve hm he
  | stopDrain rt wait ids errs =>
      refine ⟨hm ▸ h.1, fun id hs ↦ ?_⟩
      rcases h.2 id hs with h | h | ⟨hk, h⟩
      · exact .inl h
      · exact .inr (.inl (h.evolve hm he))
      · exact .inr (.inr ⟨hm ▸ hk, stopped_evolve h hm he⟩)
  | updateDrain rts cfg =>
      refine ⟨hm ▸ h.1, fun id ↦ ?_⟩
      rcases h.2 id with h | ⟨h, hx⟩
      · exact .inl (h.evolve hm he)
      · exact .inr ⟨stopped_evolve h hm he, hm ▸ hx⟩
  | writing rt name => exact h

/-! ## Steps that only change runtimes -/

@[simp] theorem modify_modules (f : Runtime → Runtime) : (m.modify rt f).modules = m.modules := rfl
@[simp] theorem modify_command (f : Runtime → Runtime) : (m.modify rt f).command = m.command := rfl
@[simp] theorem modify_closed (f : Runtime → Runtime) : (m.modify rt f).closed = m.closed := rfl
@[simp] theorem modify_log (f : Runtime → Runtime) : (m.modify rt f).log = m.log := rfl

theorem Inv.heapEvolves_modify (h : m.Inv) {f : Runtime → Runtime}
    (hf : ∀ r, m.heap[rt]? = some r → r.Sound → r.Evolves (f r)) :
    HeapEvolves m.heap (m.modify rt f).heap :=
  Supervisor.heapEvolves_modify h.core.sound fun r hr ↦ hf r hr (h.core.sound rt r hr)

theorem Inv.modify (h : m.Inv) {f : Runtime → Runtime}
    (hf : ∀ r, m.heap[rt]? = some r → r.Sound → r.Evolves (f r))
    (hl : ∀ cmd id rt' streams, m.command = some (cmd, .launching id rt' streams) →
      ∀ r, r.Sound → (r.streams = [] → r.stage = .idle) → (f r).streams = [] →
        (f r).stage = .idle) : (m.modify rt f).Inv := by
  have he := h.heapEvolves_modify hf
  refine ⟨h.core.evolve he, fun x hx ↦ ?_, fun hc ↦ ?_⟩
  · refine (h.place x hx).evolve rfl rfl he fun cmd id rt' streams hl' r' hr' ↦ ?_
    subst hl'
    have hidle := (h.place _ hx).2.2
    rw [Manager.modify, List.getElem?_modify] at hr'
    obtain ⟨r, hr, rfl⟩ := Option.map_eq_some_iff.mp hr'
    split_ifs
    · exact hl cmd id rt' streams hx r (h.core.sound rt' r hr) (hidle r hr)
    · exact hidle r hr
  · exact (h.shut hc).imp_right fun h id ↦ (h id).evolve rfl he

/-! ## Steps of a command -/

theorem atRest_congr (hh : m'.heap = m.heap) (hm : m'.modules = m.modules) :
    m'.AtRest id ↔ m.AtRest id := by
  rw [AtRest, AtRest, status, status, hh, hm]

/-- A command changes its place, or returns, and nothing else. -/
theorem Inv.move (h : m.Inv) (hh : m'.heap = m.heap) (hm : m'.modules = m.modules)
    (hc : m'.closed = m.closed) (hho : m'.holder = m.holder)
    (hp : ∀ x, m'.command = some x → m'.Place x)
    (hcl : m.Closing → m'.Closing ∨ ∀ id, m.AtRest id) : m'.Inv := by
  refine ⟨hh ▸ hho ▸ h.core, hp, fun hcl' ↦ ?_⟩
  have hrest (h : ∀ id, m.AtRest id) : ∀ id, m'.AtRest id :=
    fun id ↦ (atRest_congr hh hm).mpr (h id)
  rcases h.shut (hc ▸ hcl') with h | h
  · exact (hcl h).imp_right hrest
  · exact .inr (hrest h)

/-- A command other than `Close` is not closing the supervisor. -/
theorem not_closing_of_ne {pc : Pc} (h : m.command = some (cmd, pc)) (hne : cmd ≠ .close) :
    ¬ m.Closing := by
  rintro ⟨pc', h', -⟩
  rw [h, Option.some_inj, Prod.mk.injEq] at h'
  exact hne h'.1

theorem not_closing_of_entry (h : m.command = some (cmd, .entry)) : ¬ m.Closing := by
  rintro ⟨pc', h', hne⟩
  rw [h, Option.some_inj, Prod.mk.injEq] at h'
  exact hne h'.2.symm

/-- A command returns where no runtime is being built. -/
theorem Inv.finish (h : m.Inv) (hho : m.holder = m.modules) (hh : m'.heap = m.heap)
    (hm : m'.modules = m.modules) (hc : m'.closed = m.closed) (hcmd : m'.command = none)
    (hcl : m.Closing → ∀ id, m.AtRest id) : m'.Inv := by
  refine h.move hh hm hc ?_ (fun x hx ↦ ?_) fun h ↦ .inr (hcl h)
  · rw [hho, holder, hcmd, hm]
  · rw [hcmd] at hx
    cases hx

/-- The runtime of a module that has one. -/
theorem current_eq_some {wait : Bool} (h : m.current id = some (rt, wait)) :
    m.modules id = some rt := by
  obtain ⟨k, hk, h⟩ := Option.bind_eq_some_iff.mp h
  obtain ⟨r, hr, h⟩ := Option.bind_eq_some_iff.mp h
  have h : k = rt := congrArg Prod.fst (Option.some_inj.mp h)
  rw [hk, h]

/-- A module without a current runtime has none installed. -/
theorem Inv.modules_eq_none (h : m.Inv) (hho : m.holder = m.modules) (hcur : m.current id = none) :
    m.modules id = none := by
  cases hk : m.modules id with
  | none => rfl
  | some k =>
      obtain ⟨r, hr, -, -⟩ := h.core.named id k (hho ▸ hk)
      simp [current, hk, hr] at hcur

theorem Inv.evolves_enterShutdown (h : m.Inv) (hho : m.holder = m.modules)
    (hk : m.modules id = some rt) {r : Runtime} (hr : m.heap[rt]? = some r) :
    r.Evolves r.enterShutdown := by
  obtain ⟨r', hr', -, ha⟩ := h.core.named id rt (hho ▸ hk)
  rw [hr, Option.some_inj] at hr'
  subst hr'
  exact Runtime.evolves_enterShutdown (h.core.sound rt r hr) ha

/-- A caller enters `shutdown` of the runtime that it drains. -/
theorem Inv.enter_shutdown (h : m.Inv) (hho : m.holder = m.modules) (hk : m.modules id = some rt)
    (hnl : ∀ cmd id rt' streams, m.command ≠ some (cmd, .launching id rt' streams)) :
    (m.modify rt (·.enterShutdown)).Inv :=
  h.modify (fun _ hr _ ↦ h.evolves_enterShutdown hho hk hr) fun cmd id rt' streams hl ↦
    absurd hl (hnl cmd id rt' streams)

theorem Inv.markStopped_evolves (h : m.Inv) : HeapEvolves m.heap (m.markStopped rt).heap :=
  h.heapEvolves_modify fun _ _ hs ↦ Runtime.evolves_markStopped hs

/-- A drained runtime is finished. -/
theorem Inv.finished_of_drained (h : m.Inv) {wait : Bool} (hd : m.drained rt wait = true)
    {r : Runtime} (hr : m.heap[rt]? = some r) : r.Finished := by
  simp only [drained, hr, decide_eq_true_eq] at hd
  exact ⟨(h.core.sound rt r hr).done hd.1, .inl hd.1⟩

/-- A module is at rest when it is stopped and its runtime has been drained. -/
theorem Inv.atRest_of_drained (h : m.Inv) (hho : m.holder = m.modules) {wait : Bool}
    (hd : m.drained rt wait = true) (hk : m.modules id = some rt) (hs : m.status id = .stopped) :
    m.AtRest id := by
  refine ⟨hs, fun k r hr ho ↦ (h.core.held k r hr).elim (fun h ↦ h) fun hk' ↦ ?_⟩
  rw [hho, ho, hk, Option.some_inj] at hk'
  subst hk'
  exact h.finished_of_drained hd hr

/-- A module without a runtime is at rest. -/
theorem Inv.atRest_of_none (h : m.Inv) (hho : m.holder = m.modules) (hk : m.modules id = none) :
    m.AtRest id := by
  refine ⟨?_, fun k r hr ho ↦ h.core.finished (by rw [hho, hk]) hr ho⟩
  rw [status, hk]
  rfl

variable {pc : Pc} {cfg : Option Config} {host : Host} {order : Order} {name : String}

/-- The map of modules after every runtime of a list has been marked. -/
theorem foldl_markStopped_modules (rts : List (ℕ × Bool)) (m : Manager) :
    (rts.foldl (fun m x ↦ markStopped m x.1) m).modules = m.modules := by
  induction rts generalizing m with
  | nil => rfl
  | cons x rts ih => exact ih (m.markStopped x.1)

theorem inv_markStopped (h : m.Inv) (rt : ℕ) (hnl : ∀ cmd id rt' streams,
    m.command ≠ some (cmd, .launching id rt' streams)) : (m.markStopped rt).Inv :=
  h.modify (fun _ _ hs ↦ Runtime.evolves_markStopped hs) fun cmd id rt' streams hl ↦
    absurd hl (hnl cmd id rt' streams)

/-- A runtime that is marked belongs to a stopped module from then on. -/
theorem status_markStopped (hk : m.modules id = some rt) :
    (m.markStopped rt).status id = .stopped := by
  refine status_eq_stopped_iff.mpr fun k hk' r hr ↦ ?_
  have hk' : rt = k := Option.some_inj.mp (hk.symm.trans hk')
  subst hk'
  rw [markStopped, Manager.modify, List.getElem?_modify] at hr
  obtain ⟨r', -, rfl⟩ := Option.map_eq_some_iff.mp hr
  simp

theorem inv_foldl_markStopped (rts : List (ℕ × Bool)) (h : m.Inv)
    (hcmd : m.command = some (cmd, .entry)) :
    let m' := rts.foldl (fun m x ↦ markStopped m x.1) m
    m'.Inv ∧ HeapEvolves m.heap m'.heap ∧ m'.command = m.command ∧ m'.closed = m.closed ∧
      ∀ id, m.status id = .stopped ∨ (∃ x ∈ rts, m.modules id = some x.1) →
        m'.status id = .stopped := by
  induction rts generalizing m with
  | nil => exact ⟨h, .refl h.core.sound, rfl, rfl, fun id hs ↦ hs.elim (fun h ↦ h) nofun⟩
  | cons x rts ih =>
      have hnl : ∀ cmd id rt' streams, m.command ≠ some (cmd, .launching id rt' streams) := by
        intro cmd' id rt' streams hl
        rw [hcmd] at hl
        cases hl
      obtain ⟨hi, he, hc, hcl, hs⟩ := ih (inv_markStopped h x.1 hnl) hcmd
      refine ⟨hi, h.markStopped_evolves.trans he, hc, hcl, fun id hid ↦ hs id ?_⟩
      rcases hid with hst | ⟨y, hy, hk⟩
      · exact .inl (stopped_evolve hst rfl h.markStopped_evolves)
      · rcases List.mem_cons.mp hy with rfl | hy
        · exact .inl (status_markStopped hk)
        · exact .inr ⟨y, hy, hk⟩

/-- The first section of `updateConfig`. -/
theorem inv_updateConfig (h : m.Inv) (hcmd : m.command = some (.updateConfig cfg order, .entry)) :
    (m.updateConfig cfg order).Inv := by
  have hho : m.holder = m.modules := by rw [holder, hcmd]
  have hcl := not_closing_of_entry hcmd
  rw [Manager.updateConfig]
  split_ifs with hc hw
  · exact h.finish hho rfl rfl rfl rfl fun h ↦ absurd h hcl
  · exact h
  · set rts := order.1.filterMap m.current with hrts
    obtain ⟨hi, -, hcmd', hc', hs⟩ := inv_foldl_markStopped rts h hcmd
    have hm := foldl_markStopped_modules rts m
    set m' := rts.foldl (fun m x ↦ markStopped m x.1) m
    have hho' : m'.holder = m'.modules := by rw [holder, hcmd', hcmd]
    refine hi.move rfl rfl rfl ?_ (fun x hx ↦ ?_) fun h ↦ absurd h
      (not_closing_of_entry (hcmd'.trans hcmd))
    · rw [hho']
      rfl
    · cases hx
      refine ⟨fun x hx ↦ ?_, fun id ↦ ?_⟩
      · obtain ⟨id, -, hid⟩ := List.mem_filterMap.mp (hrts ▸ hx)
        exact ⟨id, (congrFun hm id).trans (current_eq_some hid)⟩
      · cases hcur : m.current id with
        | none =>
            have hk := h.modules_eq_none hho hcur
            exact .inl (hi.atRest_of_none hho' ((congrFun hm id).trans hk))
        | some x =>
            have hx : x ∈ rts := List.mem_filterMap.mpr
              ⟨id, order.2.mem_iff.mpr (mem_modules id), hcur⟩
            have hk := current_eq_some hcur
            exact .inr ⟨hs id (.inr ⟨x, hx, hk⟩), x, hx, (congrFun hm id).trans hk⟩

/-- The first section of `start`. -/
theorem inv_start (h : m.Inv) (hcmd : m.command = some (.start id, .entry)) :
    (m.start id).Inv := by
  have hho : m.holder = m.modules := by rw [holder, hcmd]
  have hcl := not_closing_of_entry hcmd
  rw [Manager.start]
  split_ifs with hc hu hr hs
  · exact h.finish hho rfl rfl rfl rfl fun h ↦ absurd h hcl
  · exact h
  · exact h.finish hho rfl rfl rfl rfl fun h ↦ absurd h hcl
  · exact h
  · have hc : m.closed = false := Bool.eq_false_iff.mpr hc
    cases hcur : m.current id with
    | some x =>
        refine h.move rfl rfl rfl hho.symm (fun x hx ↦ ?_) fun h ↦ absurd h hcl
        cases hx
        exact ⟨rfl, hc, current_eq_some hcur⟩
    | none =>
        refine h.move rfl rfl rfl ?_ (fun x hx ↦ ?_) fun h ↦ absurd h hcl
        · rw [hho]
          exact Function.update_eq_self_iff.mpr (h.modules_eq_none hho hcur).symm
        · cases hx
          exact ⟨rfl, hc⟩

/-- The first section of `close`. -/
theorem inv_close (h : m.Inv) (hcmd : m.command = some (.close, .entry)) : (m.close).Inv := by
  have hho : m.holder = m.modules := by rw [holder, hcmd]
  rw [Manager.close]
  split_ifs with hc
  · exact h.finish hho rfl rfl rfl rfl fun h ↦ absurd h (not_closing_of_entry hcmd)
  · refine ⟨hho ▸ h.core, fun x hx ↦ ?_, fun _ ↦ .inl ⟨_, rfl, nofun⟩⟩
    cases hx
    exact fun id _ ↦ .inl (mem_modules id)

theorem inv_findPublisher {stopped unknown : Failure} (h : m.Inv)
    (hcmd : m.command = some (cmd, .entry)) (hs : ∀ id, ¬ cmd.Stops id) :
    (m.findPublisher cmd id name stopped unknown).Inv := by
  have hho : m.holder = m.modules := by rw [holder, hcmd]
  have hcl := not_closing_of_entry hcmd
  have hret (errs : List Failure) : (m.ret cmd errs).Inv :=
    h.finish hho rfl rfl rfl rfl fun h ↦ absurd h hcl
  rw [findPublisher]
  split
  next => exact hret _
  next rt r _ =>
    split_ifs
    · exact hret _
    · refine h.move rfl rfl rfl hho.symm (fun x hx ↦ ?_) fun h ↦ absurd h hcl
      cases hx
      exact hs
    · exact hret _

/-- The end of a lease changes nothing of the modules. -/
theorem inv_turn (h : m.Inv) (active : Bool) : (m.turn active).Inv :=
  h.move rfl rfl rfl rfl (fun x hx ↦ by
    have hp := h.place x hx
    exact hp.evolve rfl rfl
      ⟨fun k r hr ↦ ⟨r, hr, .refl (h.core.sound k r hr)⟩,
        fun k r hr ↦ ⟨r, hr, .refl (h.core.sound k r hr)⟩⟩
      fun cmd id rt streams hl ↦ by
        subst hl
        exact hp.2.2) fun h ↦ .inl h

/-- A command once it holds `commandMu`. -/
theorem inv_enter (h : m.Inv) (hcmd : m.command = some (cmd, .entry)) : (m.enter cmd).Inv := by
  have hho : m.holder = m.modules := by rw [holder, hcmd]
  have hcl := not_closing_of_entry hcmd
  have hrefuse : (m.refuse cmd).Inv := h.finish hho rfl rfl rfl rfl fun h ↦ absurd h hcl
  have hret : (m.ret cmd []).Inv := h.finish hho rfl rfl rfl rfl fun h ↦ absurd h hcl
  cases cmd with
  | start id =>
      rw [enter]
      split_ifs
      · exact hrefuse
      · exact inv_start h hcmd
  | stop id =>
      rw [enter]
      split_ifs
      · exact hrefuse
      · refine h.move rfl rfl rfl hho.symm (fun x hx ↦ ?_) fun h ↦ absurd h hcl
        cases hx
        rintro id' rfl
        exact .inl (List.mem_singleton_self id')
  | updateConfig cfg order =>
      rw [enter]
      split_ifs
      · exact hrefuse
      · exact inv_updateConfig h hcmd
  | close => exact inv_close (inv_turn h false) hcmd
  | applyGoosePublisherState name =>
      rw [enter]
      split_ifs
      · exact hrefuse
      · exact inv_findPublisher h hcmd fun _ ↦ id
  | setSVPublisherWaveform name =>
      rw [enter]
      split_ifs
      · exact hrefuse
      · exact inv_findPublisher h hcmd fun _ ↦ id
  | acquireAgent =>
      rw [enter, acquireAgent]
      split_ifs
      · exact hrefuse
      · exact h.finish hho rfl rfl rfl rfl fun h ↦ absurd h hcl
      · exact h.finish hho rfl rfl rfl rfl fun h ↦ absurd h hcl
  | leaseRelease k =>
      rw [enter]
      split_ifs
      · exact h.finish hho rfl rfl rfl rfl fun h ↦ absurd h hcl
      · exact hret
  | leaseClose k =>
      rw [enter]
      split_ifs
      · refine h.move rfl rfl rfl hho.symm (fun x hx ↦ ?_) fun h ↦ absurd h hcl
        cases hx
        exact fun _ ↦ False.elim
      · exact hret
  | leaseApplyGoose k name =>
      rw [enter]
      split_ifs
      · exact inv_findPublisher h hcmd fun _ ↦ id
      · exact hrefuse
  | leaseApplySV k name =>
      rw [enter]
      split_ifs
      · exact inv_findPublisher h hcmd fun _ ↦ id
      · exact hrefuse
  | leaseApplySVTracked k name =>
      rw [enter]
      split_ifs
      · exact inv_findPublisher h hcmd fun _ ↦ id
      · exact hrefuse

/-- `start` after the old runtime has been drained. -/
theorem inv_startAgain (h : m.Inv) {wait : Bool}
    (hcmd : m.command = some (cmd, .startDrain id rt wait)) (hd : m.drained rt wait = true) :
    (m.startAgain id rt).Inv := by
  obtain ⟨rfl, hc, hk⟩ := h.place _ hcmd
  have hho : m.holder = m.modules := by rw [holder, hcmd]
  have he : HeapEvolves m.heap (m.markStopped rt).heap := h.markStopped_evolves
  rw [startAgain, if_pos hk, hc]
  refine ⟨?_, fun x hx ↦ ?_, fun h' ↦ absurd (h'.symm.trans hc) nofun⟩
  · refine ((hho ▸ h.core).evolve he).drop fun k r' hk' hr' ↦ ?_
    obtain ⟨r, hr, e⟩ := he.before k r' hr'
    have hk' : rt = k := Option.some_inj.mp (hk.symm.trans hk')
    subst hk'
    exact e.finished (h.finished_of_drained hd hr)
  · cases hx
    exact ⟨rfl, hc⟩

/-- `startModule` begins, with every runtime of the module finished. -/
theorem inv_startModule (h : m.Inv) (hcmd : m.command = some (cmd, .startCall id cfg)) :
    (m.startModule id cfg host).Inv := by
  obtain ⟨rfl, hc⟩ := h.place _ hcmd
  have hho : m.holder = Function.update m.modules id none := by rw [holder, hcmd]
  have herr (err : Failure) : (m.goto (.start id) (.setError id err)).Inv := by
    refine h.move rfl rfl rfl hho.symm (fun x hx ↦ ?_) fun h ↦
      absurd h (not_closing_of_ne hcmd nofun)
    cases hx
    exact ⟨rfl, hc⟩
  cases cfg with
  | none => exact herr _
  | some cfg =>
      rw [startModule]
      split
      next => exact herr _
      next hasClose streams _ =>
        have hid : m.holder id = none := by rw [hho, Function.update_self]
        have hcore := h.core.allocate (r := { owner := id, hasClose }) hid
          ⟨fun _ ↦ rfl, Nat.zero_le _, fun _ _ ↦ rfl, fun _ ↦ ⟨rfl, rfl⟩, nofun⟩ rfl rfl
        refine ⟨?_, fun x hx ↦ ?_, fun h' ↦ absurd (h'.symm.trans hc) nofun⟩
        · rw [hho, Function.update_idem] at hcore
          exact hcore
        · cases hx
          refine ⟨rfl, hc, fun r hr _ ↦ ?_⟩
          simp only [goto, Manager.allocate, List.getElem?_concat_length, Option.some_inj] at hr
          rw [← hr]

/-- A runtime without a stream is given up, and its module has none. -/
theorem core_abort {heap : List Runtime} {holder : ModuleID → Option ℕ} (h : Core heap holder)
    (hk : holder id = some rt) {r : Runtime} (hr : heap[rt]? = some r) (hs : r.streams = [])
    (hi : r.stage = .idle) :
    Core (heap.modify rt (·.abort)) (Function.update holder id none) := by
  obtain ⟨r₀, hr₀, ho, ha⟩ := h.named id rt hk
  rw [hr, Option.some_inj] at hr₀
  subst hr₀
  have hsound := Runtime.sound_abort (h.sound rt r hr) hs hi ha
  have hlive : r.abort.live = 0 := ((h.sound rt r hr).unlaunched hs).1
  refine ⟨fun k r' hr' ↦ ?_, fun id' k hk' ↦ ?_, fun k r' hr' ↦ ?_⟩
  · rw [List.getElem?_modify] at hr'
    obtain ⟨r₁, hr₁, rfl⟩ := Option.map_eq_some_iff.mp hr'
    split_ifs with hkk
    · subst hkk
      rw [hr, Option.some_inj] at hr₁
      exact hr₁ ▸ hsound
    · exact h.sound k r₁ hr₁
  · by_cases hid : id' = id
    · subst hid
      exact absurd hk' (by simp)
    · rw [Function.update_of_ne hid] at hk'
      obtain ⟨r₁, hr₁, ho₁, ha₁⟩ := h.named id' k hk'
      have hne : rt ≠ k := by
        rintro rfl
        rw [hr, Option.some_inj] at hr₁
        exact hid (ho₁.symm.trans (hr₁ ▸ ho))
      exact ⟨r₁, by rw [List.getElem?_modify_ne _ _ hne, hr₁], ho₁, ha₁⟩
  · rw [List.getElem?_modify] at hr'
    obtain ⟨r₁, hr₁, rfl⟩ := Option.map_eq_some_iff.mp hr'
    split_ifs with hkk
    · subst hkk
      rw [hr, Option.some_inj] at hr₁
      exact .inl (hr₁ ▸ ⟨hlive, .inr rfl⟩)
    · refine (h.held k r₁ hr₁).imp_right fun hk₁ ↦ ?_
      by_cases hid : r₁.owner = id
      · exact absurd (Option.some_inj.mp (hk.symm.trans (hid ▸ hk₁))) hkk
      · rw [Function.update_of_ne hid, hk₁]

/-- A careful start function launches a stream. -/
theorem evolves_launchNext (h : m.Inv) {streams : List (Except Failure String)}
    (hcmd : m.command = some (cmd, .launching id rt (.ok name :: streams)))
    (hcare : m.careful (.advance host) = true) :
    HeapEvolves m.heap (m.modify rt (·.launch name)).heap ∧ m.modules = m.modules := by
  have hk : m.holder id = some rt := by simp only [holder, hcmd, Function.update_self]
  obtain ⟨r, hr, -, ha⟩ := h.core.named id rt hk
  simp only [careful, nextStream, hcmd, hr, Option.map_some] at hcare
  refine ⟨h.heapEvolves_modify fun r' hr' hs' ↦ ?_, rfl⟩
  rw [hr, Option.some_inj] at hr'
  subst hr'
  exact Runtime.evolves_launch hs' (of_decide_eq_true hcare) ha name

/-- The loop of a start function, when it is careful. -/
theorem inv_launchNext (h : m.Inv) {streams : List (Except Failure String)}
    (hcmd : m.command = some (cmd, .launching id rt streams))
    (hcare : m.careful (.advance host) = true) : (m.launchNext id rt streams).Inv := by
  obtain ⟨rfl, hc, hidle⟩ := h.place _ hcmd
  have hho : m.holder = Function.update m.modules id (some rt) := by rw [holder, hcmd]
  have hcl := not_closing_of_ne hcmd nofun
  have hk : m.holder id = some rt := by rw [hho, Function.update_self]
  obtain ⟨r, hr, -, -⟩ := h.core.named id rt hk
  cases streams with
  | nil =>
      refine h.move rfl rfl rfl hho.symm (fun x hx ↦ ?_) fun h ↦ absurd h hcl
      cases hx
      exact ⟨rfl, hc⟩
  | cons s streams =>
      cases s with
      | ok name =>
          have hcore := h.core.evolve (evolves_launchNext h hcmd hcare).1
          rw [hho] at hcore
          refine ⟨hcore, fun x hx ↦ ?_, fun h' ↦ absurd (h'.symm.trans hc) nofun⟩
          cases hx
          refine ⟨rfl, hc, fun r' hr' hs' ↦ ?_⟩
          rw [launchNext, goto, Manager.modify, List.getElem?_modify, hr] at hr'
          simp only [if_true, Option.map_eq_map, Option.map_some, Option.some_inj] at hr'
          rw [← hr', Runtime.launch] at hs'
          exact absurd hs' (List.append_ne_nil_of_right_ne_nil _ (List.cons_ne_nil _ _))
      | error err =>
          simp only [careful, nextStream, hcmd, hr, Option.map_some] at hcare
          have hs : r.streams = [] := List.isEmpty_iff.mp hcare
          have hcore := core_abort h.core hk hr hs (hidle r hr hs)
          rw [hho, Function.update_idem] at hcore
          refine ⟨hcore, fun x hx ↦ ?_, fun h' ↦ absurd (h'.symm.trans hc) nofun⟩
          cases hx
          exact ⟨rfl, hc⟩

theorem inv_publish (h : m.Inv) (hcmd : m.command = some (cmd, .publish id rt)) :
    (m.publish id rt).Inv := by
  obtain ⟨rfl, hc⟩ := h.place _ hcmd
  have hho : m.holder = Function.update m.modules id (some rt) := by rw [holder, hcmd]
  have hcore := h.core
  rw [hho] at hcore
  refine ⟨hcore, fun x hx ↦ ?_, fun h' ↦ absurd (h'.symm.trans hc) nofun⟩
  cases hx
  rfl

theorem inv_setError (h : m.Inv) {err : Failure}
    (hcmd : m.command = some (cmd, .setError id err)) : (m.setError id err).Inv := by
  obtain ⟨rfl, hc⟩ := h.place _ hcmd
  have hho : m.holder = Function.update m.modules id none := by rw [holder, hcmd]
  have hcore := h.core.allocate (r := { owner := id, status := .error, err := some err })
    (by rw [hho, Function.update_self])
    ⟨fun _ ↦ rfl, Nat.zero_le _, fun _ _ ↦ rfl, fun _ ↦ ⟨rfl, rfl⟩, nofun⟩ rfl rfl
  rw [hho, Function.update_idem] at hcore
  refine ⟨hcore, fun x hx ↦ ?_, fun h' ↦ absurd (h'.symm.trans hc) nofun⟩
  cases hx
  rfl

/-- The first section of `stop`. -/
theorem inv_stop (h : m.Inv) {ids : List ModuleID} {errs : List Failure}
    (hcmd : m.command = some (cmd, .stopping (id :: ids) errs)) : (m.stop cmd id ids errs).Inv := by
  have hp := h.place _ hcmd
  have hho : m.holder = m.modules := by rw [holder, hcmd]
  have hclosing (hcl : m.Closing) : cmd = .close := by
    obtain ⟨pc, hpc, -⟩ := hcl
    rw [hcmd, Option.some_inj, Prod.mk.injEq] at hpc
    exact hpc.1
  rw [Manager.stop]
  split_ifs
  · exact h
  · cases hcur : m.current id with
    | none =>
        refine h.move rfl rfl rfl hho.symm (fun x hx ↦ ?_) fun hcl ↦
          .inl ⟨.stopping ids errs, by rw [hclosing hcl]; rfl, nofun⟩
        cases hx
        intro id' hs
        rcases hp id' hs with hid | hrest
        · rcases List.mem_cons.mp hid with rfl | hid
          · exact .inr (h.atRest_of_none hho (h.modules_eq_none hho hcur))
          · exact .inl hid
        · exact .inr hrest
    | some x =>
        obtain ⟨rt, wait⟩ := x
        have hk := current_eq_some hcur
        have he : HeapEvolves m.heap (m.markStopped rt).heap := h.markStopped_evolves
        have hcore := h.core.evolve he
        rw [hho] at hcore
        refine ⟨hcore, fun x hx ↦ ?_, fun hc ↦ ?_⟩
        · cases hx
          refine ⟨⟨id, hk⟩, fun id' hs ↦ ?_⟩
          rcases hp id' hs with hid | hrest
          · rcases List.mem_cons.mp hid with rfl | hid
            · exact .inr (.inr ⟨hk, status_markStopped hk⟩)
            · exact .inl hid
          · exact .inr (.inl (hrest.evolve rfl he))
        · rcases h.shut hc with hcl | hrest
          · exact .inl ⟨.stopDrain rt wait ids errs, by rw [hclosing hcl]; rfl, nofun⟩
          · exact .inr fun id' ↦ (hrest id').evolve rfl he

/-- A drain of a list of runtimes goes on to the next one. -/
theorem inv_stopDrain (h : m.Inv) {wait : Bool} {ids : List ModuleID} {errs : List Failure}
    (hcmd : m.command = some (cmd, .stopDrain rt wait ids errs)) :
    (m.advance cmd (.stopDrain rt wait ids errs) host).Inv := by
  obtain ⟨⟨id, hk⟩, hp⟩ := h.place _ hcmd
  have hho : m.holder = m.modules := by rw [holder, hcmd]
  rw [advance]
  split_ifs with hd
  · refine h.move rfl rfl rfl hho.symm (fun x hx ↦ ?_) fun ⟨pc, hpc, _⟩ ↦ ?_
    · cases hx
      intro id' hs
      rcases hp id' hs with hid | hrest | ⟨hk', hst⟩
      · exact .inl hid
      · exact .inr hrest
      · exact .inr (h.atRest_of_drained hho hd hk' hst)
    · rw [hcmd, Option.some_inj, Prod.mk.injEq] at hpc
      exact .inl ⟨.stopping ids (errs ++ m.stopErr rt), by rw [hpc.1]; rfl, nofun⟩
  · refine h.enter_shutdown hho hk fun cmd' id' rt' streams hl ↦ ?_
    rw [hcmd] at hl
    cases hl

theorem inv_updateDrain (h : m.Inv) {wait : Bool} {rts : List (ℕ × Bool)}
    (hcmd : m.command = some (cmd, .updateDrain ((rt, wait) :: rts) cfg)) :
    (m.advance cmd (.updateDrain ((rt, wait) :: rts) cfg) host).Inv := by
  obtain ⟨hids, hp⟩ := h.place _ hcmd
  have hho : m.holder = m.modules := by rw [holder, hcmd]
  obtain ⟨id, hk⟩ := hids _ List.mem_cons_self
  rw [advance]
  split_ifs with hd
  · refine h.move rfl rfl rfl hho.symm (fun x hx ↦ ?_) fun ⟨pc, hpc, _⟩ ↦ ?_
    · cases hx
      refine ⟨fun x hx ↦ hids x (List.mem_cons_of_mem _ hx), fun id' ↦ ?_⟩
      rcases hp id' with hrest | ⟨hst, x, hx, hk'⟩
      · exact .inl hrest
      · rcases List.mem_cons.mp hx with rfl | hx
        · exact .inl (h.atRest_of_drained hho hd hk' hst)
        · exact .inr ⟨hst, x, hx, hk'⟩
    · rw [hcmd, Option.some_inj, Prod.mk.injEq] at hpc
      exact .inl ⟨.updateDrain rts cfg, by rw [hpc.1]; rfl, nofun⟩
  · refine h.enter_shutdown hho hk fun cmd' id' rt' streams hl ↦ ?_
    rw [hcmd] at hl
    cases hl

/-- A command that has stopped its modules leaves them at rest. -/
theorem Inv.atRest_of_stopped (h : m.Inv) {errs : List Failure}
    (hcmd : m.command = some (cmd, .stopping [] errs)) (hs : cmd.Stops id) : m.AtRest id :=
  (h.place _ hcmd id hs).resolve_left List.not_mem_nil

theorem Inv.atRest_of_updated (h : m.Inv) (hcmd : m.command = some (cmd, .updateDrain [] cfg))
    (id : ModuleID) : m.AtRest id :=
  ((h.place _ hcmd).2 id).resolve_right fun ⟨_, _, hx, _⟩ ↦ List.not_mem_nil hx

theorem inv_stopReturn (h : m.Inv) {errs : List Failure}
    (hcmd : m.command = some (cmd, .stopping [] errs)) : (m.stopReturn cmd errs).Inv := by
  have hho : m.holder = m.modules := by rw [holder, hcmd]
  have hcl (hcl : m.Closing) (id : ModuleID) : m.AtRest id := by
    obtain ⟨pc, hpc, -⟩ := hcl
    rw [hcmd, Option.some_inj, Prod.mk.injEq] at hpc
    exact h.atRest_of_stopped hcmd (by rw [hpc.1]; trivial)
  rw [stopReturn.eq_def]
  split
  · exact h.finish hho rfl rfl rfl rfl hcl
  · exact h.finish hho rfl rfl rfl rfl hcl

/-- Every step of a command that is careful keeps the invariant. -/
theorem inv_advance (h : m.Inv) (hcmd : m.command = some (cmd, pc))
    (hcare : m.careful (.advance host) = true) : (m.advance cmd pc host).Inv := by
  cases pc with
  | entry => exact inv_enter h hcmd
  | startDrain id rt wait =>
      rw [advance]
      split_ifs with hd
      · exact inv_startAgain h hcmd hd
      · have hho : m.holder = m.modules := by rw [holder, hcmd]
        refine h.enter_shutdown hho (h.place _ hcmd).2.2 fun cmd' id' rt' streams hl ↦ ?_
        rw [hcmd] at hl
        cases hl
  | startCall id cfg => exact inv_startModule h hcmd
  | launching id rt streams => exact inv_launchNext h hcmd hcare
  | publish id rt => exact inv_publish h hcmd
  | setError id err => exact inv_setError h hcmd
  | startReturn id errs =>
      have hho : m.holder = m.modules := by rw [holder, hcmd]
      obtain rfl : cmd = .start id := h.place _ hcmd
      exact h.finish hho rfl rfl rfl rfl fun h ↦ absurd h (not_closing_of_ne hcmd nofun)
  | stopping ids errs =>
      cases ids with
      | nil => exact inv_stopReturn h hcmd
      | cons id ids => exact inv_stop h hcmd
  | stopDrain rt wait ids errs => exact inv_stopDrain h hcmd
  | updateDrain rts cfg =>
      cases rts with
      | nil =>
          have hho : m.holder = m.modules := by rw [holder, hcmd]
          exact h.finish hho rfl rfl rfl rfl fun _ ↦ h.atRest_of_updated hcmd
      | cons x rts => exact inv_updateDrain h hcmd
  | writing rt name =>
      have hho : m.holder = m.modules := by rw [holder, hcmd]
      have hne : cmd ≠ .close := by
        rintro rfl
        exact h.place _ hcmd .goosePub trivial
      exact h.finish hho rfl rfl rfl rfl fun h ↦ absurd h (not_closing_of_ne hcmd hne)

/-- **Every careful step keeps the invariant.** -/
theorem inv_step {a : Action} (h : m.Inv) (hcare : m.careful a = true) : (m.step a).Inv := by
  cases a with
  | call cmd =>
      rw [step]
      split_ifs with hc
      · exact h
      · have hc : m.command = none := by simpa using hc
        refine h.move rfl rfl rfl ?_ ?_ ?_
        · rw [holder, holder, hc]
          rfl
        · intro x hx
          cases hx
          trivial
        · rintro ⟨pc, hpc, -⟩
          rw [hc] at hpc
          cases hpc
  | advance host =>
      cases hcmd : m.command with
      | none => exact (step_advance_of_none hcmd).symm ▸ h
      | some x => exact (step_advance hcmd).symm ▸ inv_advance h hcmd hcare
  | shutdown rt closeErr =>
      refine h.modify (fun r _ hs ↦ Runtime.evolves_advanceShutdown hs closeErr) ?_
      intro cmd id rt' streams _ r _ hidle hs
      by_cases hi : r.stage = .idle
      · rw [Runtime.stage_advanceShutdown hi, hi]
      · rw [Runtime.streams_advanceShutdown] at hs
        exact absurd (hidle hs) hi
  | cleanup rt =>
      refine h.modify (fun r _ hs ↦ Runtime.evolves_advanceCleanup hs) ?_
      intro cmd id rt' streams _ r hsound hidle hs
      rw [Runtime.streams_advanceCleanup] at hs
      rw [Runtime.stage_advanceCleanup hsound hs, hidle hs]
  | exit rt err =>
      refine h.modify (fun r _ hs ↦ Runtime.evolves_exit hs err) ?_
      intro cmd id rt' streams _ r _ hidle hs
      rw [Runtime.streams_exit] at hs
      rw [Runtime.stage_exit, hidle hs]
  | quit rt =>
      refine h.modify (fun r _ hs ↦ Runtime.evolves_quit hs) ?_
      intro cmd id rt' streams _ r _ hidle hs
      rw [Runtime.streams_quit] at hs
      rw [Runtime.stage_quit, hidle hs]
  | leave rt =>
      refine h.modify (fun r _ hs ↦ Runtime.evolves_leave hs) ?_
      intro cmd id rt' streams _ r _ hidle hs
      exact hidle hs

theorem inv_new (cfg : Option Config) : (Manager.new cfg).Inv := by
  refine ⟨⟨?_, ?_, ?_⟩, ?_, ?_⟩
  · simp [Manager.new]
  · simp [Manager.new, holder]
  · simp [Manager.new]
  · intro x hx
    cases hx
  · intro hc
    cases hc

end Manager
end ProcessBus.Supervisor
