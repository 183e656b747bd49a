import ProcessBus.Supervisor.Manager

/-!
# The control lease

A lease carries the epoch in which it was issued, and every transfer of control, to a lease or back,
begins a new epoch.  Since a command holds `commandMu` throughout, what it found at its entry stays
true until it ends: a manual command past its entry means that no lease is valid, and a write of a
lease past its entry that this one is (`Manager.Authorised`).

The epoch is a `uint64`.  After 2⁶⁴ transfers it repeats itself, and so a lease is promised anything
only as long as fewer have happened since its issue (`Manager.Recent`).
-/

namespace ProcessBus.Supervisor

open Go Lib

/-- The fields that the leases are about. -/
structure Control where
  active : Bool
  epoch : UInt64
  turns : ℕ
  leases : List Lease

namespace Control

/-- The control after a transfer. -/
def turn (c : Control) (active : Bool) : Control := ⟨active, c.epoch + 1, c.turns + 1, c.leases⟩

/-- The control after a lease was issued. -/
def issue (c : Control) : Control :=
  let c' := c.turn true
  { c' with leases := c'.leases ++ [⟨c'.epoch, c'.turns⟩] }

/-- `valid`. -/
def valid (c : Control) (k : ℕ) : Bool :=
  c.active && (c.leases[k]?.map Lease.epoch == some c.epoch)

/-- The epochs are numbered by the transfers of control, and the leases are issued in different
ones; in the one that is current the control is with the lease. -/
structure Sound (c : Control) : Prop where
  epoch : c.epoch = .ofNat c.turns
  leases : ∀ l ∈ c.leases, l.epoch = .ofNat l.issued ∧ l.issued ≤ c.turns ∧
    (l.issued = c.turns → c.active = true)
  sorted : c.leases.Pairwise (·.issued < ·.issued)

theorem Sound.turn {c : Control} (h : c.Sound) (active : Bool) : (c.turn active).Sound := by
  refine ⟨?_, fun l hl ↦ ?_, h.sorted⟩
  · rw [Control.turn, h.epoch, UInt64.ofNat_add]
    rfl
  · obtain ⟨he, hle, -⟩ := h.leases l hl
    exact ⟨he, Nat.le_succ_of_le hle, fun h' ↦ absurd (h' ▸ hle) (Nat.not_succ_le_self _)⟩

theorem Sound.issue {c : Control} (h : c.Sound) : c.issue.Sound := by
  have ht := h.turn true
  refine ⟨ht.epoch, fun l hl ↦ ?_, List.pairwise_append.mpr ⟨h.sorted, ?_, fun l hl l' hl' ↦ ?_⟩⟩
  · rcases List.mem_append.mp hl with hl | hl
    · exact ht.leases l hl
    · rw [List.mem_singleton.mp hl]
      exact ⟨ht.epoch, le_rfl, fun _ ↦ rfl⟩
  · exact List.pairwise_singleton _ _
  · rw [List.mem_singleton.mp hl']
    exact Nat.lt_succ_of_le (h.leases l hl).2.1

/-- **A lease is valid in the epoch of its issue**, as far as the epochs can be told apart. -/
theorem Sound.valid_iff {c : Control} (h : c.Sound) {k : ℕ} {l : Lease} (hl : c.leases[k]? = some l)
    (hrecent : c.turns < l.issued + 2 ^ 64) : c.valid k = true ↔ l.issued = c.turns := by
  obtain ⟨he, hle, hactive⟩ := h.leases l (List.mem_of_getElem? hl)
  simp only [valid, hl, Option.map_some, Bool.and_eq_true, beq_iff_eq, Option.some_inj]
  constructor
  · rintro ⟨-, heq⟩
    rw [he, h.epoch, UInt64.ofNat_eq_iff_mod_eq_toNat, UInt64.toNat_ofNat'] at heq
    omega
  · intro heq
    exact ⟨hactive heq, by rw [he, h.epoch, heq]⟩

end Control

/-- The event is the call of a publisher. -/
def Event.isWrite : Event → Bool
  | .wrote _ _ _ => true
  | _ => false

namespace Manager

variable {m m' : Manager} {id : ModuleID} {cmd : Command} {rt : ℕ} {pc : Pc} {cfg : Option Config}
  {host : Host} {order : Order} {name : String} {k : ℕ}

def control (m : Manager) : Control := ⟨m.agentActive, m.agentEpoch, m.turns, m.leases⟩

theorem control_turn (active : Bool) : (m.turn active).control = m.control.turn active := rfl

theorem valid_eq : m.valid k = m.control.valid k := rfl

/-- A valid lease was issued. -/
theorem lease_of_valid (h : m.valid k = true) : ∃ l, m.leases[k]? = some l := by
  rw [valid, Bool.and_eq_true, beq_iff_eq] at h
  obtain ⟨l, hl, -⟩ := Option.map_eq_some_iff.mp h.2
  exact ⟨l, hl⟩

/-- The command may go on: its lease is valid, or it has none and no lease is. -/
def Allows (m : Manager) (cmd : Command) : Prop :=
  match cmd.lease? with
  | some k => m.valid k = true
  | none => m.agentActive = false

/-- What a command past its entry found there. -/
def Authorised (m : Manager) : Command × Pc → Prop
  | (_, .entry) => True
  | (cmd, .stopping _ _) | (cmd, .stopDrain _ _ _ _) | (cmd, .writing _ _) => m.Allows cmd
  | (_, .startDrain _ _ _) | (_, .startCall _ _) | (_, .launching _ _ _) | (_, .publish _ _)
  | (_, .setError _ _) | (_, .startReturn _ _) | (_, .updateDrain _ _) => m.agentActive = false

structure Fenced (m : Manager) : Prop where
  control : m.control.Sound
  place : ∀ x, m.command = some x → m.Authorised x

theorem allows_congr (h : m'.control = m.control) : m'.Allows cmd ↔ m.Allows cmd := by
  rw [Allows, Allows]
  cases cmd.lease? with
  | none =>
      have ha : m'.agentActive = m.agentActive := congrArg Control.active h
      rw [ha]
  | some k => simp only [valid_eq, h]

/-- What a step may do to the leases: they stay as they were issued, the epochs go on, and a
publisher is called only by a command that is allowed to. -/
structure Respects (m m' : Manager) : Prop where
  fenced : m'.Fenced
  turns : m.turns ≤ m'.turns
  leases : ∀ (k : ℕ) (l : Lease), m.leases[k]? = some l → m'.leases[k]? = some l
  log : ∃ evs, m'.log = m.log ++ evs ∧
    ∀ cmd rt name, .wrote cmd rt name ∈ evs → m.Allows cmd

namespace Respects

theorem refl (h : m.Fenced) : m.Respects m :=
  ⟨h, le_rfl, fun _ _ h ↦ h, [], (List.append_nil _).symm, fun _ _ _ h ↦ absurd h List.not_mem_nil⟩

/-- A command goes on without a transfer of control. -/
theorem goto {x : Command × Pc} (h : m.Fenced) (hc : m'.control = m.control)
    (hlog : m'.log = m.log) (hcmd : m'.command = some x) (hx : m'.Authorised x) : m.Respects m' := by
  have hl : m'.leases = m.leases := congrArg Control.leases hc
  refine ⟨⟨hc ▸ h.control, fun y hy ↦ ?_⟩, (congrArg Control.turns hc).ge, fun k l ↦ hl ▸ id, [], ?_,
    fun _ _ _ h ↦ absurd h List.not_mem_nil⟩
  · rw [hcmd, Option.some_inj] at hy
    exact hy ▸ hx
  · rw [hlog, List.append_nil]

/-- A command ends with an event, after which the leases are in order. -/
theorem finish {e : Event} (hc : m'.control.Sound) (ht : m.turns ≤ m'.turns)
    (hl : ∀ (k : ℕ) (l : Lease), m.leases[k]? = some l → m'.leases[k]? = some l)
    (hcmd : m'.command = none)
    (hlog : m'.log = m.log ++ [e]) (he : e.isWrite = false) :
    m.Respects m' := by
  refine ⟨⟨hc, fun x hx ↦ ?_⟩, ht, hl, [e], hlog, fun cmd rt name hw ↦ ?_⟩
  · rw [hcmd] at hx
    cases hx
  · rw [← List.mem_singleton.mp hw] at he
    cases he

/-- A command ends, and control stays where it is. -/
theorem ret {e : Event} (h : m.Fenced) (hc : m'.control = m.control) (hcmd : m'.command = none)
    (hlog : m'.log = m.log ++ [e]) (he : e.isWrite = false) :
    m.Respects m' := by
  have hl : m'.leases = m.leases := congrArg Control.leases hc
  exact finish (hc ▸ h.control) (congrArg Control.turns hc).ge (fun k l ↦ hl ▸ id) hcmd hlog he

/-- A command ends, and control is given up. -/
theorem turn {e : Event} (h : m.Fenced) (hc : m'.control = m.control.turn false)
    (hcmd : m'.command = none) (hlog : m'.log = m.log ++ [e])
    (he : e.isWrite = false) : m.Respects m' := by
  have hl : m'.leases = m.leases := congrArg Control.leases hc
  refine finish (hc ▸ h.control.turn false) ?_ (fun k l ↦ hl ▸ id) hcmd hlog he
  exact (Nat.le_succ _).trans (congrArg Control.turns hc).ge

/-- A change of a runtime is none of control. -/
theorem modify (h : m.Fenced) (f : Runtime → Runtime) : m.Respects (m.modify rt f) := by
  refine ⟨⟨h.control, fun x hx ↦ ?_⟩, le_rfl, fun _ _ h ↦ h, [], (List.append_nil _).symm,
    fun _ _ _ h ↦ absurd h List.not_mem_nil⟩
  have hp := h.place x hx
  obtain ⟨cmd, pc⟩ := x
  cases pc with
  | stopping ids errs => exact (allows_congr rfl).mpr hp
  | stopDrain rt wait ids errs => exact (allows_congr rfl).mpr hp
  | writing rt name => exact (allows_congr rfl).mpr hp
  | _ => exact hp

end Respects

theorem foldl_markStopped_control (rts : List (ℕ × Bool)) (m : Manager) :
    (rts.foldl (fun m x ↦ markStopped m x.1) m).control = m.control := by
  induction rts generalizing m with
  | nil => rfl
  | cons x rts ih => exact ih (m.markStopped x.1)

theorem foldl_markStopped_log (rts : List (ℕ × Bool)) (m : Manager) :
    (rts.foldl (fun m x ↦ markStopped m x.1) m).log = m.log := by
  induction rts generalizing m with
  | nil => rfl
  | cons x rts ih => exact ih (m.markStopped x.1)

/-! ## Every step respects the leases -/

theorem respects_findPublisher {stopped unknown : Failure} (h : m.Fenced) (ha : m.Allows cmd) :
    m.Respects (m.findPublisher cmd id name stopped unknown) := by
  rw [findPublisher]
  split
  next => exact .ret h rfl rfl rfl rfl
  next =>
    split_ifs
    · exact .ret h rfl rfl rfl rfl
    · exact .goto h rfl rfl rfl ((allows_congr rfl).mpr ha)
    · exact .ret h rfl rfl rfl rfl

/-- At its entry a command finds out whether it may go on. -/
theorem respects_enter (h : m.Fenced) (hcmd : m.command = some (cmd, .entry)) :
    m.Respects (m.enter cmd) := by
  cases cmd with
  | start id =>
      rw [enter]
      split_ifs with ha
      · exact .ret h rfl rfl rfl rfl
      · have ha : m.agentActive = false := Bool.eq_false_iff.mpr ha
        rw [Manager.start]
        split_ifs
        · exact .ret h rfl rfl rfl rfl
        · exact .refl h
        · exact .ret h rfl rfl rfl rfl
        · exact .refl h
        · cases m.current id with
          | none => exact .goto h rfl rfl rfl ha
          | some x => exact .goto h rfl rfl rfl ha
  | stop id =>
      rw [enter]
      split_ifs with ha
      · exact .ret h rfl rfl rfl rfl
      · exact .goto h rfl rfl rfl (Bool.eq_false_iff.mpr ha)
  | updateConfig cfg order =>
      rw [enter]
      split_ifs with ha
      · exact .ret h rfl rfl rfl rfl
      · rw [Manager.updateConfig]
        split_ifs
        · exact .ret h rfl rfl rfl rfl
        · exact .refl h
        · have hc := foldl_markStopped_control (order.1.filterMap m.current) m
          refine .goto h hc (foldl_markStopped_log _ m) rfl ?_
          exact (congrArg Control.active hc).trans (Bool.eq_false_iff.mpr ha)
  | close =>
      rw [enter, Manager.close]
      split_ifs
      · exact .turn h (control_turn false) rfl rfl rfl
      · refine ⟨⟨h.control.turn false, fun x hx ↦ ?_⟩, Nat.le_succ _, fun _ _ h ↦ h, [],
          (List.append_nil _).symm, fun _ _ _ h ↦ absurd h List.not_mem_nil⟩
        cases hx
        rfl
  | applyGoosePublisherState name =>
      rw [enter]
      split_ifs with ha
      · exact .ret h rfl rfl rfl rfl
      · exact respects_findPublisher h (Bool.eq_false_iff.mpr ha)
  | setSVPublisherWaveform name =>
      rw [enter]
      split_ifs with ha
      · exact .ret h rfl rfl rfl rfl
      · exact respects_findPublisher h (Bool.eq_false_iff.mpr ha)
  | acquireAgent =>
      rw [enter, acquireAgent]
      split_ifs
      · exact .ret h rfl rfl rfl rfl
      · exact .ret h rfl rfl rfl rfl
      · refine .finish h.control.issue (Nat.le_succ _) (fun k l hl ↦ ?_) rfl rfl rfl
        rw [← hl]
        exact List.getElem?_append_left (List.getElem?_eq_some_iff.mp hl).1
  | leaseRelease k =>
      rw [enter]
      split_ifs
      · exact .turn h (control_turn false) rfl rfl rfl
      · exact .ret h rfl rfl rfl rfl
  | leaseClose k =>
      rw [enter]
      split_ifs with hv
      · exact .goto h rfl rfl rfl hv
      · exact .ret h rfl rfl rfl rfl
  | leaseApplyGoose k name =>
      rw [enter]
      split_ifs with hv
      · exact respects_findPublisher h hv
      · exact .ret h rfl rfl rfl rfl
  | leaseApplySV k name =>
      rw [enter]
      split_ifs with hv
      · exact respects_findPublisher h hv
      · exact .ret h rfl rfl rfl rfl
  | leaseApplySVTracked k name =>
      rw [enter]
      split_ifs with hv
      · exact respects_findPublisher h hv
      · exact .ret h rfl rfl rfl rfl

theorem respects_advance (h : m.Fenced) (hcmd : m.command = some (cmd, pc)) :
    m.Respects (m.advance cmd pc host) := by
  have hp := h.place _ hcmd
  cases pc with
  | entry => exact respects_enter h hcmd
  | startDrain id rt wait =>
      rw [advance]
      split_ifs
      · rw [startAgain]
        split_ifs
        · exact .goto h rfl rfl rfl hp
        · exact .goto h rfl rfl rfl hp
        · exact .goto h rfl rfl rfl hp
        · exact .goto h rfl rfl rfl hp
      · exact .modify h _
  | startCall id cfg =>
      cases cfg with
      | none => exact .goto h rfl rfl rfl hp
      | some cfg =>
          rw [advance, startModule]
          split
          next => exact .goto h rfl rfl rfl hp
          next => exact .goto h rfl rfl rfl hp
  | launching id rt streams =>
      rw [advance, launchNext.eq_def]
      split <;> exact .goto h rfl rfl rfl hp
  | publish id rt => exact .goto h rfl rfl rfl hp
  | setError id err => exact .goto h rfl rfl rfl hp
  | startReturn id errs => exact .ret h rfl rfl rfl rfl
  | stopping ids errs =>
      cases ids with
      | nil =>
          rw [advance, stopReturn.eq_def]
          split
          · exact .turn h (control_turn false) rfl rfl rfl
          · exact .ret h rfl rfl rfl rfl
      | cons id ids =>
          rw [advance, Manager.stop]
          split_ifs
          · exact .refl h
          · cases m.current id with
            | none => exact .goto h rfl rfl rfl ((allows_congr rfl).mpr hp)
            | some x => exact .goto h rfl rfl rfl ((allows_congr rfl).mpr hp)
  | stopDrain rt wait ids errs =>
      rw [advance]
      split_ifs
      · exact .goto h rfl rfl rfl ((allows_congr rfl).mpr hp)
      · exact .modify h _
  | updateDrain rts cfg =>
      cases rts with
      | nil => exact .ret h rfl rfl rfl rfl
      | cons x rts =>
          rw [advance]
          split_ifs
          · exact .goto h rfl rfl rfl hp
          · exact .modify h _
  | writing rt name =>
      refine ⟨⟨h.control, fun x hx ↦ ?_⟩, le_rfl, fun _ _ h ↦ h, [.wrote cmd rt name, _],
        List.append_assoc _ _ _, fun cmd' rt' name' hw ↦ ?_⟩
      · cases hx
      · rcases List.mem_cons.mp hw with hw | hw
        · cases hw
          exact hp
        · cases List.mem_singleton.mp hw

/-- **Every step respects the leases.** -/
theorem respects_step (h : m.Fenced) (a : Action) : m.Respects (m.step a) := by
  cases a with
  | call cmd =>
      rw [step]
      split_ifs
      · exact .refl h
      · exact .goto h rfl rfl rfl trivial
  | advance host =>
      cases hcmd : m.command with
      | none => exact (step_advance_of_none hcmd).symm ▸ .refl h
      | some x => exact (step_advance hcmd).symm ▸ respects_advance h hcmd
  | shutdown rt closeErr => exact .modify h _
  | cleanup rt => exact .modify h _
  | exit rt err => exact .modify h _
  | quit rt => exact .modify h _
  | leave rt => exact .modify h _

theorem fenced_new (cfg : Option Config) : (Manager.new cfg).Fenced :=
  ⟨⟨rfl, fun _ hl ↦ absurd hl List.not_mem_nil, .nil⟩, fun x hx ↦ by cases hx⟩

/-! ## Exclusive control -/

/-- Fewer than 2⁶⁴ transfers of control have happened since the lease was issued. -/
def Recent (m : Manager) (k : ℕ) : Prop := ∀ l, m.leases[k]? = some l → m.turns < l.issued + 2 ^ 64

/-- What the leases promise in a state, as far as they are `recent`.  At most one is valid; one that
is not valid stays so, and none of its writes reaches a publisher any more; and while one is valid,
all that a manual command does is to be refused. -/
structure Exclusive (recent : Manager → ℕ → Prop) (m : Manager) : Prop where
  unique : ∀ j k, recent m j → recent m k → m.valid j = true → m.valid k = true → j = k
  ended : ∀ k < m.leases.length, m.valid k = false →
    ∀ as : List Action, recent (as.foldl step m) k →
      (as.foldl step m).valid k = false ∧
        ∀ (cmd : Command) (rt : ℕ) (name : String), cmd.lease? = some k →
          .wrote cmd rt name ∉ (as.foldl step m).log.drop m.log.length
  manual : ∀ (k : ℕ) (cmd : Command) (pc : Pc) (host : Host), m.valid k = true →
    m.command = some (cmd, pc) → cmd.Manual → m.step (.advance host) = m.refuse cmd

/-- The epochs go on and the leases stay along a run. -/
theorem Fenced.run (h : m.Fenced) (as : List Action) :
    (as.foldl step m).Fenced ∧ m.turns ≤ (as.foldl step m).turns ∧
      ∀ l, m.leases[k]? = some l → (as.foldl step m).leases[k]? = some l := by
  induction as generalizing m with
  | nil => exact ⟨h, le_rfl, fun _ ↦ id⟩
  | cons a as ih =>
      have hr := respects_step h a
      obtain ⟨hf, ht, hl⟩ := ih hr.fenced
      exact ⟨hf, hr.turns.trans ht, fun l hk ↦ hl l (hr.leases k l hk)⟩

/-- A lease whose epoch is past writes no more. -/
theorem Fenced.silent (h : m.Fenced) (rt : ℕ) (name : String) {l : Lease} {as : List Action}
    (hl : m.leases[k]? = some l)
    (hlt : l.issued < m.turns) (hrecent : (as.foldl step m).turns < l.issued + 2 ^ 64)
    (hk : cmd.lease? = some k) :
    ∃ evs, (as.foldl step m).log = m.log ++ evs ∧ .wrote cmd rt name ∉ evs := by
  induction as generalizing m with
  | nil => exact ⟨[], (List.append_nil _).symm, List.not_mem_nil⟩
  | cons a as ih =>
      have hr := respects_step h a
      obtain ⟨evs, hevs, hw⟩ := hr.log
      obtain ⟨evs', hevs', hw'⟩ :=
        ih hr.fenced (hr.leases k l hl) (hlt.trans_le hr.turns) hrecent
      refine ⟨evs ++ evs', by rw [List.foldl_cons, hevs', hevs, List.append_assoc], ?_⟩
      rw [List.mem_append, not_or]
      refine ⟨fun hmem ↦ ?_, hw'⟩
      have hallow := hw cmd rt name hmem
      simp only [Allows, hk] at hallow
      have hturns : m.turns ≤ ((a :: as).foldl step m).turns := (h.run (k := k) (a :: as)).2.1
      exact hlt.ne ((h.control.valid_iff hl (hturns.trans_lt hrecent)).mp hallow)

/-- A manual command that is past its entry means that no lease is valid. -/
theorem Fenced.manual_entry (h : m.Fenced) (hv : m.valid k = true)
    (hcmd : m.command = some (cmd, pc)) (hm : cmd.Manual) : pc = .entry := by
  have ha : m.agentActive ≠ false := by
    rw [valid, Bool.and_eq_true] at hv
    exact Bool.eq_false_iff.not.mpr (not_not.mpr hv.1)
  have hp := h.place _ hcmd
  have hallow (hp : m.Allows cmd) : m.agentActive = false := by
    cases cmd with
    | start id => exact hp
    | stop id => exact hp
    | updateConfig cfg order => exact hp
    | applyGoosePublisherState name => exact hp
    | setSVPublisherWaveform name => exact hp
    | _ => exact hm.elim
  cases pc with
  | entry => rfl
  | stopping ids errs => exact absurd (hallow hp) ha
  | stopDrain rt wait ids errs => exact absurd (hallow hp) ha
  | writing rt name => exact absurd (hallow hp) ha
  | _ => exact absurd hp ha

/-- **The control lease is exclusive**, among leases since whose issue fewer than 2⁶⁴ transfers of
control have happened. -/
theorem lease_exclusive (cfg : Option Config) (as : List Action) :
    (as.foldl step (Manager.new cfg)).Exclusive Recent := by
  have h : (as.foldl step (Manager.new cfg)).Fenced :=
    inv_run_of_step (I := Fenced) (fun m a h ↦ (respects_step h a).fenced) (fenced_new cfg) as
  generalize as.foldl step (Manager.new cfg) = m at h
  refine ⟨fun j k hj hk hvj hvk ↦ ?_, fun k hk hv as hrecent ↦ ?_, fun k cmd pc host hv hcmd hm ↦ ?_⟩
  · obtain ⟨l, hl⟩ := lease_of_valid hvj
    obtain ⟨l', hl'⟩ := lease_of_valid hvk
    have he := (h.control.valid_iff hl (hj l hl)).mp hvj
    have he' := (h.control.valid_iff hl' (hk l' hl')).mp hvk
    obtain ⟨hj, rfl⟩ := List.getElem?_eq_some_iff.mp hl
    obtain ⟨hk, rfl⟩ := List.getElem?_eq_some_iff.mp hl'
    rcases lt_trichotomy j k with hlt | rfl | hlt
    · exact absurd (he.trans he'.symm) (List.pairwise_iff_getElem.mp h.control.sorted j k hj hk hlt).ne
    · rfl
    · exact absurd (he'.trans he.symm) (List.pairwise_iff_getElem.mp h.control.sorted k j hk hj hlt).ne
  · have hl := List.getElem?_eq_getElem hk
    obtain ⟨hf, ht, hkeep⟩ := h.run (k := k) as
    have hrec := hrecent _ (hkeep _ hl)
    have hlt : m.leases[k].issued < m.turns := by
      refine lt_of_le_of_ne (h.control.leases _ (List.getElem_mem hk)).2.1 fun he ↦ ?_
      exact absurd ((h.control.valid_iff hl (ht.trans_lt hrec)).mpr he) (Bool.eq_false_iff.mp hv)
    refine ⟨Bool.eq_false_iff.mpr fun hv' ↦ ?_, fun cmd rt name hcmd ↦ ?_⟩
    · exact (hlt.trans_le ht).ne ((hf.control.valid_iff (hkeep _ hl) hrec).mp hv')
    · obtain ⟨evs, hevs, hw⟩ := h.silent rt name hl hlt hrec hcmd
      rw [hevs, List.drop_left]
      exact hw
  · have ha : m.agentActive = true := by
      rw [valid, Bool.and_eq_true] at hv
      exact hv.1
    obtain rfl := h.manual_entry hv hcmd hm
    rw [step_advance hcmd, advance]
    cases cmd with
    | start id => rw [enter, if_pos ha]
    | stop id => rw [enter, if_pos ha]
    | updateConfig cfg order => rw [enter, if_pos ha]
    | applyGoosePublisherState name => rw [enter, if_pos ha]
    | setSVPublisherWaveform name => rw [enter, if_pos ha]
    | _ => exact hm.elim

/-! ## The epochs repeat themselves -/

/-- A lease is issued and released. -/
def transfers (k : ℕ) : List Action :=
  [.call .acquireAgent, .advance {}, .call (.leaseRelease k), .advance {}]

/-- No command is under way, and the supervisor has issued and taken back `n` leases, the first of
them in epoch 1. -/
structure Returned (n : ℕ) (m : Manager) : Prop where
  command : m.command = none
  closed : m.closed = false
  cfg : m.cfg.isSome = true
  active : m.agentActive = false
  epoch : m.agentEpoch = .ofNat (2 * n)
  issued : m.leases.length = n
  first : n ≠ 0 → m.leases[0]?.map Lease.epoch = some 1

theorem acquireAgent_eq {n : ℕ} (h : Returned n m) :
    [.call .acquireAgent, .advance {}].foldl step m =
      ret { m.turn true with leases := m.leases ++ [⟨m.agentEpoch + 1, m.turns + 1⟩] }
        .acquireAgent [] := by
  have hcfg : ¬ (m.closed = true ∨ m.cfg.isNone = true) := by
    simp [h.closed, Option.isSome_iff_ne_none.mp h.cfg]
  simp only [List.foldl_cons, List.foldl_nil, step, h.command, Option.isSome_none, if_false, goto,
    advance, enter, h.active, Bool.false_eq_true, acquireAgent, if_neg hcfg, turn]
  rfl

/-- The lease that was just issued is valid, and its release returns control. -/
theorem returned_transfers {n : ℕ} (h : Returned n m) :
    Returned (n + 1) ((transfers n).foldl step m) := by
  have hsplit : transfers n =
      [.call .acquireAgent, .advance {}] ++ [.call (.leaseRelease n), .advance {}] := rfl
  rw [hsplit, List.foldl_append, acquireAgent_eq h]
  set m₁ : Manager := ret { m.turn true with
    leases := m.leases ++ [⟨m.agentEpoch + 1, m.turns + 1⟩] } .acquireAgent [] with hm₁
  have hv : m₁.valid n = true := by
    rw [valid_eq]
    simp only [hm₁, Control.valid, control, ret, turn, ← h.issued, List.getElem?_concat_length,
      Option.map_some, Bool.true_and, beq_self_eq_true]
  have hrun : [.call (.leaseRelease n), .advance {}].foldl step m₁ =
      ret ((m₁.goto (.leaseRelease n) .entry).turn false) (.leaseRelease n) [] := by
    have hcall : m₁.step (.call (.leaseRelease n)) = m₁.goto (.leaseRelease n) .entry := rfl
    have hgoto : (m₁.goto (.leaseRelease n) .entry).valid n = true := hv
    rw [List.foldl_cons, List.foldl_cons, List.foldl_nil, hcall, step_advance rfl, advance, enter,
      if_pos hgoto]
  rw [hrun]
  refine ⟨rfl, h.closed, h.cfg, rfl, ?_, ?_, fun _ ↦ ?_⟩
  · change m.agentEpoch + 1 + 1 = .ofNat (2 * n + 1 + 1)
    rw [h.epoch, UInt64.ofNat_add, UInt64.ofNat_add]
    rfl
  · change (m.leases ++ [_]).length = n + 1
    rw [List.length_append, h.issued, List.length_singleton]
  · change (m.leases ++ [_])[0]?.map Lease.epoch = some 1
    rcases Nat.eq_zero_or_pos n with rfl | hn
    · rw [List.length_eq_zero_iff.mp h.issued]
      change some (m.agentEpoch + 1) = some 1
      rw [h.epoch]
      rfl
    · rw [List.getElem?_append_left (h.issued.symm ▸ hn)]
      exact h.first hn.ne'

theorem returned_run (n : ℕ) :
    Returned n (((List.range n).flatMap transfers).foldl step (Manager.new (some {}))) := by
  induction n with
  | zero => exact ⟨rfl, rfl, rfl, rfl, rfl, rfl, fun h ↦ absurd rfl h⟩
  | succ n ih =>
      rw [List.range_succ, List.flatMap_append, List.foldl_append, List.flatMap_singleton]
      exact returned_transfers ih

/-- When the epoch has come round, the first lease is valid again beside the last one. -/
theorem valid_again {n : ℕ} (h : Returned n m) (hn : n ≠ 0) (he : UInt64.ofNat (2 * n) = 0) :
    let m' := [.call .acquireAgent, .advance {}].foldl step m
    m'.valid 0 = true ∧ m'.valid n = true := by
  rw [acquireAgent_eq h]
  have hepoch : m.agentEpoch + 1 = 1 := by
    rw [h.epoch, he]
    rfl
  have hpos : 0 < m.leases.length := h.issued.symm ▸ Nat.pos_of_ne_zero hn
  constructor
  · simp only [valid, ret, turn, hepoch, Bool.true_and, beq_iff_eq,
      List.getElem?_append_left hpos]
    exact h.first hn
  · simp only [valid, ret, turn, ← h.issued, List.getElem?_concat_length, Option.map_some,
      Bool.true_and, beq_self_eq_true]

/-- After 2⁶³ leases have come and gone, another one makes the first valid again. -/
theorem epoch_repeats :
    ¬ ∀ (cfg : Option Config) (as : List Action),
      (as.foldl step (Manager.new cfg)).Exclusive fun _ _ ↦ True := by
  intro h
  have hrun (n : ℕ) (hn : n ≠ 0) (he : UInt64.ofNat (2 * n) = 0) : False := by
    have hex := h (some {}) ((List.range n).flatMap transfers ++ [.call .acquireAgent, .advance {}])
    rw [List.foldl_append] at hex
    obtain ⟨h0, hvn⟩ := valid_again (returned_run n) hn he
    exact hn (hex.unique 0 n trivial trivial h0 hvn).symm
  exact hrun (2 ^ 63) (by decide) (by decide)

end Manager
end ProcessBus.Supervisor
