import ProcessBus.Ptp.Client.Reselection

/-!
# The port, its master and the lock state of the clock

Three pieces of state say whether the client is following a master: `bestMaster`, the port state
and the flag of the clock.  The flag is only ever set on the way into SLAVE, and every way out
of SLAVE clears it, so it is never set outside (`synchronized_only_in_slave`).

The port state and `bestMaster` are not as close.  When an Announce leaves no qualified master,
or makes the client notice that there is none, while one is selected, the selection is dropped
and the port goes on following.  `port_agrees_with_master` says that these are the only ways in
which the two come apart.
-/

namespace ProcessBus.Ptp.Client

open Go Lib

set_option linter.unusedSectionVars false

variable {F C T : Type} [Float64 F] [SyncClock C F] [Transport T]

namespace Service

/-- Whether the client has marked its clock as synchronized. -/
def synced (s : Service F C T) : Bool := SyncClock.synchronized s.clk

/-! ## What measuring does to the port -/

/-- The master stays, the port may enter SLAVE if there is one, and only then the flag may be
set. -/
structure Advances (s s' : Service F C T) : Prop where
  bestMaster : s'.bestMaster = s.bestMaster
  state : s'.state = s.state ∨ s.bestMaster ≠ none ∧ s'.state = .slave
  synced : s'.synced = true → s.synced = true ∨ s.bestMaster ≠ none ∧ s'.state = .slave

/-- What leaves the port, its master and the clock alone advances it. -/
theorem Advances.of_same {s u : Service F C T} (hb : u.bestMaster = s.bestMaster)
    (hs : u.state = s.state) (hc : u.clk = s.clk) : s.Advances u where
  bestMaster := hb
  state := .inl hs
  synced h := .inl (by rw [Service.synced, ← hc]; exact h)

theorem Advances.refl (s : Service F C T) : s.Advances s := .of_same rfl rfl rfl

theorem Advances.trans {s u v : Service F C T} (h : s.Advances u) (h' : u.Advances v) :
    s.Advances v where
  bestMaster := h'.bestMaster.trans h.bestMaster
  state := by
    rcases h'.state with he | ⟨hb, he⟩
    · rw [he]
      exact h.state
    · exact .inr ⟨h.bestMaster ▸ hb, he⟩
  synced := by
    intro hv
    rcases h'.synced hv with hu | ⟨hb, he⟩
    · rcases h.synced hu with hs | ⟨hb, he⟩
      · exact .inl hs
      · refine .inr ⟨hb, ?_⟩
        rcases h'.state with he' | ⟨-, he'⟩
        · exact he'.trans he
        · exact he'
    · exact .inr ⟨h.bestMaster ▸ hb, he⟩

theorem setClockSynchronized_false (s : Service F C T) :
    (s.setClockSynchronized false).synced = false := by
  rw [← Bool.not_eq_true]
  exact fun h ↦ Bool.false_ne_true (SyncClock.setSynchronized_le _ _ h)

/-- A port that follows a master ends up in SLAVE when the servo has locked. -/
theorem selectMasterClock_state {s : Service F C T} (h : s.state.Following) :
    s.selectMasterClock.state = .slave := by
  unfold selectMasterClock
  split
  · rename_i hun
    simp only [transition, hun]
    rfl
  · exact h.resolve_left ‹_›

theorem stepClock_state (s : Service F C T) (correction : Duration) :
    (s.stepClock correction).state = s.state := by
  unfold stepClock
  dsimp only
  split <;> rfl

/-- The discipline of the clock keeps the port state or enters SLAVE, and the flag is only set
there. -/
theorem applyServo_port {s : Service F C T} (h : s.state.Following) (correction : Duration)
    (ppb : F) (servoState : ServoState) :
    let s' := s.applyServo correction ppb servoState
    (s'.state = s.state ∨ s'.state = .slave) ∧ (s'.synced = true → s'.state = .slave) := by
  have hcleared (u : Service F C T) : (u.setClockSynchronized false).synced = true →
      (u.setClockSynchronized false).state = .slave := fun hs ↦
    absurd (setClockSynchronized_false u) (by rw [hs]; decide)
  cases servoState with
  | unlocked => exact ⟨.inl rfl, hcleared _⟩
  | jump =>
      have he : (s.stepClock correction).selectMasterClock.state = .slave :=
        selectMasterClock_state (by rw [stepClock_state]; exact h)
      exact ⟨.inr he, fun _ ↦ he⟩
  | locked | lockedStable =>
      simp only [applyServo]
      split
      · exact ⟨.inl rfl, hcleared _⟩
      · let u : Service F C T :=
          { s with clk := (Clock.adjustFrequency s.clk ppb).2 }.setClockSynchronized true
        have he : u.selectMasterClock.state = .slave := selectMasterClock_state h
        exact ⟨.inr he, fun _ ↦ he⟩

theorem disciplineClock_port {s : Service F C T} (h : s.state.Following) (offset : Duration) :
    let s' := s.disciplineClock offset
    (s'.state = s.state ∨ s'.state = .slave) ∧ (s'.synced = true → s'.state = .slave) :=
  applyServo_port (s := s.sampleServo (-offset)) h _ _ _

theorem processSyncComplete_advances {s : Service F C T} (now : Time) (h : s.state.Following)
    (hb : s.bestMaster ≠ none) : s.Advances (s.processSyncComplete now) := by
  unfold processSyncComplete
  split
  · exact .refl s
  · rename_i offset meanPathDelay _
    let u : Service F C T :=
      { s with
        lastOffset := offset
        meanPathDelay := meanPathDelay
        lastSync := now
        syncCount := s.syncCount + 1
        log := s.measured :: s.log }
    obtain ⟨hstate, hsynced⟩ := disciplineClock_port (s := u) h offset
    have hbest : (u.disciplineClock offset).bestMaster = s.bestMaster :=
      congrArg (fun x : Rest ↦ x.selection.bestMaster) (disciplineClock_rest u offset).1
    exact ⟨hbest, hstate.imp_right fun he ↦ ⟨hb, he⟩, fun hs ↦ .inr ⟨hb, hsynced hs⟩⟩

theorem finishPDelay_advances (s : Service F C T) (corrField : Int64) :
    s.Advances (s.finishPDelay corrField) := by
  rcases finishPDelay_cases s corrField with he | ⟨-, delay, he⟩ <;>
    rw [he] <;> exact .of_same rfl rfl rfl

theorem completePDelayFollowUp_advances (s : Service F C T) (fu : Pending ResponseBody) :
    s.Advances (s.completePDelayFollowUp fu) := by
  have hset : s.Advances (s.setPDelayFollowUp fu) := .of_same rfl rfl rfl
  exact hset.trans (finishPDelay_advances _ _)

/-- Every effect of a handler advances the port. -/
theorem Effect.advances {hdr : Header} {tag : ℕ} {s s' : Service F C T}
    (h : Effect hdr tag s s') : s.Advances s' := by
  have hmaster {u : Service F C T} (hf : u.follows hdr = true) : u.bestMaster ≠ none := by
    rw [(follows_iff.mp hf).2]
    exact Option.some_ne_none _
  cases h with
  | now => exact ⟨rfl, .inl rfl, fun hs ↦ .inl (SyncClock.now_le _ hs)⟩
  | fromSystem t => exact ⟨rfl, .inl rfl, fun hs ↦ .inl (SyncClock.fromSystem_le _ t hs)⟩
  | oneStepSync rxTime | twoStepSync rxTime =>
      exact ⟨rfl, .inl rfl, fun hs ↦ .inl (SyncClock.fromSystem_le _ rxTime hs)⟩
  | pdelayResp resp rxTime =>
      exact ⟨rfl, .inl rfl, fun hs ↦ .inl (SyncClock.fromSystem_le _ rxTime hs)⟩
  | completeOneStep rxTime body now htype hf =>
      have hset : s.Advances ((s.receiveSync hdr rxTime tag).setOneStep hdr body tag) :=
        ⟨rfl, .inl rfl, fun hs ↦ .inl (SyncClock.fromSystem_le _ rxTime hs)⟩
      exact hset.trans (processSyncComplete_advances now (follows_iff.mp hf).1 (hmaster hf))
  | completePending rxTime fu rest now htype hf =>
      have hset : s.Advances
          ({ s.receiveSync hdr rxTime tag with
              syncReceived := true
              pendingFollowUps := rest }.setFollowUp fu) :=
        ⟨rfl, .inl rfl, fun hs ↦ .inl (SyncClock.fromSystem_le _ rxTime hs)⟩
      exact hset.trans (processSyncComplete_advances now (follows_iff.mp hf).1 (hmaster hf))
  | completeFollowUp fu now htype hf =>
      have hset : s.Advances (s.setFollowUp ⟨hdr, fu, tag⟩) := .of_same rfl rfl rfl
      exact hset.trans (processSyncComplete_advances now (follows_iff.mp hf).1 (hmaster hf))
  | completePDelay corrField => exact finishPDelay_advances s corrField
  | completePendingPDelay fu rest =>
      have htake : s.Advances { s with pendingPDelayFUs := rest } := .of_same rfl rfl rfl
      exact htake.trans (completePDelayFollowUp_advances _ fu)
  | completePDelayFollowUp fu => exact completePDelayFollowUp_advances s _
  | transport | storeFollowUp | delayReq | pdelayReq | delayResp | storePDelayFollowUp =>
      exact .of_same rfl rfl rfl

theorem Effects.advances {hdr : Header} {tag : ℕ} {s s' : Service F C T}
    (h : Effects hdr tag s s') : s.Advances s' :=
  Effects.preserves h (fun _ _ he hs ↦ hs.trans he.advances) (.refl s)

/-! ## What other calls do to the port -/

theorem setClockSynchronized_false_of {s u : Service F C T}
    (h : u.clk = (s.setClockSynchronized false).clk) : u.synced = false := by
  rw [synced, h]
  exact setClockSynchronized_false s

/-- A call that selects no master advances the port, leaves the port to itself, or ends the
run. -/
theorem Plain.port {s s' : Service F C T} {c : Call} (h : Plain s c s') :
    s.Advances s' ∨
      s'.bestMaster = s.bestMaster ∧ s'.clk = s.clk ∧
        s'.state = slavePortFSM s.state .initComplete ∨
      ¬ s'.state.Following ∧ s'.synced = false := by
  cases h with
  | nothing => exact .inl (.refl s)
  | effects _ _ h => exact .inl (Effects.advances h)
  | request _ h =>
      exact .inl (Effects.advances (h (s.requestHeader msgDelayReq controlDelayReq 0) 0))
  | repeated hdr now h => exact .inl (.of_same rfl rfl rfl)
  | start => exact .inr (.inl ⟨rfl, rfl, rfl⟩)
  | stop failed =>
      refine .inr (.inr ⟨?_, setClockSynchronized_false_of (s := s) rfl⟩)
      show ¬ (if failed then PortState.faulty else PortState.stopped).Following
      cases failed <;> decide

/-! ## Synchronized only in SLAVE -/

/-- The flag is set only in SLAVE. -/
def SyncedInSlave (s : Service F C T) : Prop := s.synced = true → s.state = .slave

theorem Advances.syncedInSlave {s s' : Service F C T} (h : s.Advances s')
    (hs : s.SyncedInSlave) : s'.SyncedInSlave := by
  intro hsync
  rcases h.synced hsync with hsync | ⟨-, he⟩
  · rcases h.state with he | ⟨-, he⟩
    · rw [he]
      exact hs hsync
    · exact he
  · exact he

theorem syncedInSlave_of_not {s : Service F C T} (h : s.synced = false) : s.SyncedInSlave :=
  fun hs ↦ absurd (h.symm.trans hs) Bool.false_ne_true

/-- An event that SLAVE ignores does not unlink the two. -/
theorem syncedInSlave_transition {s u : Service F C T} (event : FSMEvent) (hclk : u.clk = s.clk)
    (hstate : u.state = slavePortFSM s.state event) (hslave : slavePortFSM .slave event = .slave)
    (hs : s.SyncedInSlave) : u.SyncedInSlave := by
  intro hsync
  rw [synced, hclk] at hsync
  rw [hstate, hs hsync, hslave]

theorem Outcome.syncedInSlave {s s' : Service F C T} {r : Reselection} (h : Outcome s r s')
    (hs : s.SyncedInSlave) : s'.SyncedInSlave := by
  cases h with
  | unnoticed => exact hs
  | begins => exact syncedInSlave_transition (s := s) .rsSlave rfl rfl rfl hs
  | changes | loses | forgets | faults =>
      exact syncedInSlave_of_not (setClockSynchronized_false _)

theorem step_syncedInSlave (s : Service F C T) (c : Call) (hs : s.SyncedInSlave) :
    (s.step c).SyncedInSlave := by
  cases hr : s.reselection c with
  | none =>
      rcases (step_of_no_reselection hr).port with h | ⟨-, hclk, hstate⟩ | ⟨-, h⟩
      · exact h.syncedInSlave hs
      · exact syncedInSlave_transition .initComplete hclk hstate rfl hs
      · exact syncedInSlave_of_not h
  | some r => exact (step_outcome hr).syncedInSlave hs

theorem new_syncedInSlave (pow : F → F → F) (tr : T) {clk : C} (selfID : PortIdentity)
    (cfg : Config) (h : SyncClock.synchronized clk = false) :
    (new pow tr clk selfID cfg).SyncedInSlave :=
  syncedInSlave_of_not h

/-! ## The port and its master -/

/-- Without a master the port does not follow, and the clock does not count as synchronized. -/
def AgreesWithMaster (s : Service F C T) : Prop :=
  s.bestMaster = none → ¬ s.state.Following ∧ s.synced = false

/-- The selections after which the handler does not ask whether there is still a master: those
of an accepted Announce, and of a rejected one of any port but the selected master. -/
def Unchecked (s : Service F C T) (r : Reselection) : Prop :=
  match r.cause with
  | .accepted => True
  | .rejected source => s.bestMaster ≠ some source
  | .timeout => False

instance (s : Service F C T) (r : Reselection) : Decidable (s.Unchecked r) :=
  match h : r.cause with
  | .accepted => isTrue (by rw [Unchecked, h]; trivial)
  | .rejected source => decidable_of_iff (s.bestMaster ≠ some source) (by rw [Unchecked, h])
  | .timeout => isFalse (by rw [Unchecked, h]; exact id)

/-- While the port follows, an unchecked selection has a qualified master to choose. -/
def KeepsMaster (s : Service F C T) (c : Call) : Prop :=
  s.state.Following → ∀ r ∈ s.reselection c, s.Unchecked r →
    ∃ m ∈ r.table.vals, m.qualified = true

instance (s : Service F C T) (c : Call) : Decidable (s.KeepsMaster c) :=
  inferInstanceAs (Decidable (_ → _))

theorem selected_bestMaster_eq_none {s : Service F C T} {r : Reselection} :
    (s.selected r).bestMaster = none ↔ s.next r = none :=
  Option.map_eq_none_iff

theorem SameMaster.next_eq_none {s : Service F C T} {r : Reselection} (h : s.SameMaster r)
    (hnext : s.next r = none) : s.bestMaster = none := by
  rw [h, hnext]
  rfl

/-- The outcomes that leave the port without a master: if it was not there before, or if the
selection was unchecked, nothing happens. -/
theorem Outcome.agrees {s s' : Service F C T} {r : Reselection} (h : Outcome s r s')
    (hs : s.AgreesWithMaster)
    (hkeep : s.Unchecked r → s.next r = none → ¬ s.state.Following ∧ s.synced = false) :
    s'.AgreesWithMaster := by
  cases h with
  | unnoticed h =>
      intro hnone
      have hnext := selected_bestMaster_eq_none.mp hnone
      rcases h with h | h | ⟨h, -⟩ | ⟨source, h, hother⟩
      · exact hs h
      · exact hs (h.next_eq_none hnext)
      · exact hkeep (by rw [Unchecked, h]; trivial) hnext
      · exact hkeep (by rw [Unchecked, h]; exact hother) hnext
  | begins _ hnext | changes _ hnext =>
      intro hnone
      exact absurd (selected_bestMaster_eq_none.mp hnone) hnext
  | loses | forgets =>
      intro _
      exact ⟨not_following_announceTimeout _, setClockSynchronized_false _⟩
  | faults h =>
      intro hnone
      have hnext := selected_bestMaster_eq_none.mp hnone
      refine ⟨?_, setClockSynchronized_false _⟩
      have hfollow : ¬ s.state.Following := by
        rcases h with h | h
        · exact (hs h).1
        · exact (hs (h.next_eq_none hnext)).1
      exact not_following_of_ne_rsSlave hfollow (by decide)

/-- An unchecked selection without a result is all that the call does. -/
theorem Outcome.eq_selected {s s' : Service F C T} {r : Reselection} (h : Outcome s r s')
    (hr : s.Unchecked r) (hnext : s.next r = none) : s' = s.selected r := by
  cases h with
  | unnoticed => rfl
  | begins _ hsome | changes _ hsome => exact absurd hnext hsome
  | loses _ _ hcause | faults _ hcause =>
      rw [Unchecked, hcause] at hr
      exact hr.elim
  | forgets _ _ hcause =>
      obtain ⟨source, hcause, hown⟩ := hcause
      rw [Unchecked, hcause] at hr
      exact absurd hown hr

theorem Plain.agrees {s s' : Service F C T} {c : Call} (h : Plain s c s')
    (hs : s.AgreesWithMaster) : s'.AgreesWithMaster := by
  intro hnone
  rcases h.port with h | ⟨hbest, hclk, hstate⟩ | h
  · obtain ⟨hfollow, hsync⟩ := hs (h.bestMaster ▸ hnone)
    have hmaster : ¬ s.bestMaster ≠ none := not_not.mpr (h.bestMaster ▸ hnone)
    refine ⟨?_, ?_⟩
    · rcases h.state with he | ⟨hsome, -⟩
      · rw [he]
        exact hfollow
      · exact absurd hsome hmaster
    · rw [← Bool.not_eq_true]
      intro hsync'
      rcases h.synced hsync' with h | ⟨hsome, -⟩
      · exact Bool.false_ne_true (hsync.symm.trans h)
      · exact hmaster hsome
  · obtain ⟨hfollow, hsync⟩ := hs (hbest ▸ hnone)
    refine ⟨?_, ?_⟩
    · rw [hstate]
      exact not_following_of_ne_rsSlave hfollow (by decide)
    · rw [synced, hclk]
      exact hsync
  · exact h

/-- A call keeps the port and its master in agreement exactly if an unchecked selection finds a
master. -/
theorem step_agrees_iff (s : Service F C T) (c : Call) (hslave : s.SyncedInSlave)
    (hs : s.AgreesWithMaster) : (s.step c).AgreesWithMaster ↔ s.KeepsMaster c := by
  constructor
  · intro h hfollow r hr hun
    by_contra hnone
    have hnext : s.next r = none := elect_eq_none.mpr hnone
    have he := (step_outcome hr).eq_selected hun hnext
    rw [he] at h
    exact (h (selected_bestMaster_eq_none.mpr hnext)).1 hfollow
  · intro hkeep
    cases hr : s.reselection c with
    | none => exact (step_of_no_reselection hr).agrees hs
    | some r =>
        refine (step_outcome hr).agrees hs ?_
        intro hun hnext
        have hfollow : ¬ s.state.Following := by
          intro hfollow
          exact elect_eq_none.mp hnext (hkeep hfollow r hr hun)
        refine ⟨hfollow, ?_⟩
        rw [← Bool.not_eq_true]
        exact fun hsync ↦ hfollow (.inr (hslave hsync))

end Service

/-! ## Runs -/

section Application

variable (pow : F → F → F) (tr : T) (clk : ApplicationClock F) (selfID : PortIdentity)
  (cfg : Config)

/-- **The client reports synchronization only in SLAVE**, whatever calls it gets; and a call that
leaves SLAVE leaves the clock unsynchronized. -/
theorem synchronized_only_in_slave (h : clk.synchronized = false) (calls : List Call) :
    let s := (Service.new pow tr clk selfID cfg).run calls
    (s.clk.synchronized = true → s.state = .slave) ∧
      ∀ c, s.state = .slave → (s.step c).state ≠ .slave →
        (s.step c).clk.synchronized = false := by
  intro s
  have hs : s.SyncedInSlave := inv_run_of_step Service.step_syncedInSlave
    (Service.new_syncedInSlave pow tr selfID cfg h) calls
  refine ⟨hs, ?_⟩
  intro c _ hleft
  rw [← Bool.not_eq_true]
  exact fun hsync ↦ hleft (Service.step_syncedInSlave s c hs hsync)

/-- After two measurements the client is synchronized, and so in SLAVE; when its master times out
it leaves SLAVE and is not synchronized any more. -/
theorem synchronized_only_in_slave_locks :
    let s := Bench.client.run (Bench.locks (Bench.port 1))
    s.clk.synchronized = true ∧ s.state = .slave ∧ (s.step Bench.expires).state = .listening ∧
      (s.step Bench.expires).clk.synchronized = false := by
  have h := synchronized_only_in_slave (fun _ _ ↦ 1) Bench.wire Bench.clock (Bench.port 0)
    Bench.config rfl (Bench.locks (Bench.port 1))
  have hsync : (Bench.client.run (Bench.locks (Bench.port 1))).clk.synchronized = true := by
    decide +kernel
  have hstate :
      ((Bench.client.run (Bench.locks (Bench.port 1))).step Bench.expires).state = .listening := by
    decide +kernel
  refine ⟨hsync, h.1 hsync, hstate, h.2 Bench.expires (h.1 hsync) ?_⟩
  exact ne_of_eq_of_ne hstate nofun

/-- **The port agrees with the selected master exactly as long as no Announce empties the
selection behind its back**: in every state of a run, a client without a master neither follows
nor counts as synchronized, if and only if every Announce that is handled while the port follows,
other than a rejected one of the selected master, finds a qualified master in the table that it
leaves. -/
theorem port_agrees_with_master (h : clk.synchronized = false) (calls : List Call) :
    Always Service.step Service.AgreesWithMaster (Service.new pow tr clk selfID cfg) calls ↔
      Meets Service.step Service.KeepsMaster (Service.new pow tr clk selfID cfg) calls := by
  refine always_iff_meets Service.step_syncedInSlave Service.step_agrees_iff
    (Service.new_syncedInSlave pow tr selfID cfg h) ?_ calls
  exact fun _ ↦ ⟨fun hf ↦ hf.elim nofun nofun, h⟩

/-- A master that is selected and times out. -/
theorem port_agrees_with_master_timeout :
    Always Service.step Service.AgreesWithMaster Bench.client
      (.start :: Bench.selects (Bench.port 1) 37 ++ [Bench.expires]) :=
  (port_agrees_with_master (fun _ _ ↦ 1) Bench.wire Bench.clock (Bench.port 0) Bench.config rfl
    _).mpr (by decide)

/-- A third Announce, with a shorter interval, takes the qualification away from the selected
master: the client has no master any more and stays UNCALIBRATED. -/
theorem port_follows_no_master :
    ¬ Service.AgreesWithMaster (Bench.client.run (.start :: Bench.selects (Bench.port 1) 37 ++
      [.general (Bench.announce (Bench.port 1) 3 (-4) 37) (Bench.seconds 3) Bench.inOrder])) := by
  intro h
  exact (h (by decide)).1 (by decide)

end Application

end ProcessBus.Ptp.Client
