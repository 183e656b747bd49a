import ProcessBus.Automation.Exclusive

/-!
# What a test leaves behind

A test whose reset is not confirmed revokes the control, finishes all sequences and closes the agent
before it says that it has finished (`Halted`).  With the invariant of its deferred function this
gives the three ways in which a test may end (`test_outcome`).
-/

namespace ProcessBus.Automation

open Go Goose Goose.Subscriber Sv.Publisher Lib

variable {Raw F : Type}

/-! ## Calls -/

namespace Test

/-- The waveforms that the worker has written, in order. -/
def calls (t : Test F) : List (SVOutput F) := (t.writes ++ t.resetWrite.toList).map (·.output)

variable [FloatMath F] {p : TestPlan F} {t : Test F}

omit [FloatMath F] in
theorem output_confirm (writes : List (Write F)) (r : SendReceipt) :
    (confirm writes r).map (·.output) = writes.map (·.output) := by
  refine List.ext_getElem? fun i ↦ ?_
  rw [confirm, List.getElem?_map, List.getElem?_map, List.getElem?_modify]
  cases writes[i]? with
  | none => rfl
  | some w =>
      rw [Option.map_eq_map, Option.map_some, Option.map_some, Option.map_some]
      split <;> rfl

/-- A step of the loop that is not a write. -/
theorem calls_stepped {e : Env} {t' : Test F} (hh : Hearing p t) (hpc : t.pc ≠ .write)
    (h : Stepped p t e t') : t'.calls = t.calls := by
  cases h with
  | started | moved | left | expired => rfl
  | handled pc hloop hstart hready hpending event rest hframes =>
      have hhandled : Handled p { t with pc, watch := t.watch.take } event
          ({ t with pc, watch := t.watch.take }.handle p event) := handle_handled hh.previous_eq
      generalize { t with pc, watch := t.watch.take }.handle p event = t' at hhandled
      cases hhandled <;> rfl
  | wrote hat => exact absurd hat hpc
  | acknowledged calledAt r =>
      have hcalls : (confirm t.writes r ++ t.resetWrite.toList).map (·.output) = t.calls := by
        rw [List.map_append, output_confirm, ← List.map_append]
        rfl
      rw [acknowledge]
      split
      · exact hcalls
      · dsimp only
        split
        · exact hcalls
        · exact hcalls

omit [FloatMath F] in
/-- The receipt of the reset does not change what was written. -/
theorem calls_noteReset (r : SendReceipt) : (t.noteReset r).calls = t.calls := by
  rw [calls, calls, List.map_append, List.map_append]
  change _ ++ List.map _ (t.resetWrite.map _).toList = _
  cases t.resetWrite <;> rfl

theorem calls_awaitReset (e : Env) : (t.awaitReset e).calls = t.calls := by
  rw [awaitReset]
  split
  · split
    · next r _ =>
        have hnoted := t.calls_noteReset r
        rw [acknowledgeReset]
        split
        · exact hnoted
        · split
          · exact hnoted
          · exact hnoted
    · rfl
  · split <;> rfl
  · rfl

/-! ## A failed reset -/

/-- How far the worker has come after a reset that is not confirmed. -/
def abortStage (t : Test F) : ℕ :=
  match t.pc with
  | .finishSequences => 1
  | .closeAgent => 2
  | .finish | .finished => if t.resetOK then 0 else 3
  | _ => 0

omit [FloatMath F] in
theorem abortStage_of_looping (h : t.pc.looping = true) : t.abortStage = 0 := by
  rw [abortStage]
  split
  all_goals first
    | rfl
    | (rename_i hpc; rw [hpc] at h; cases h)

/-- No step of the loop leads past a reset. -/
theorem abortStage_stepped {e : Env} {t' : Test F} (hh : Hearing p t) (h : Stepped p t e t') :
    t'.abortStage = 0 := by
  cases h with
  | started | left | expired => rfl
  | moved pc late sendDeadline hpc => exact abortStage_of_looping hpc
  | handled pc hpc hstart hready hpending event rest hframes =>
      have hhandled : Handled p { t with pc, watch := t.watch.take } event
          ({ t with pc, watch := t.watch.take }.handle p event) := handle_handled hh.previous_eq
      generalize { t with pc, watch := t.watch.take }.handle p event = t' at hhandled
      cases hhandled with
      | rejected | late | triggered => rfl
      | quiet => exact abortStage_of_looping hpc
  | wrote =>
      rw [write]
      split <;> rfl
  | acknowledged =>
      rw [acknowledge]
      split
      · rfl
      · dsimp only
        split <;> rfl

/-- A worker gets from one stage to the next by a step of its own. -/
theorem abortStage_run (hcourse : Course p t) (e : Env) :
    (t.run p e).abortStage ≤ t.abortStage ∨
      t.pc = .revoke ∧ (t.run p e).abortStage ≤ 1 ∨
      t.pc = .finishSequences ∧ (t.run p e).abortStage ≤ 2 ∨ t.pc = .closeAgent := by
  cases hcourse with
  | listening hloop hh hs =>
      rw [abortStage_stepped hh (run_stepped hloop hs.ready)]
      exact .inl (Nat.zero_le _)
  | left hloop =>
      cases hpc : t.pc with
      | unwind | resetSent =>
          simp only [run, hpc]
          exact .inl (Nat.zero_le _)
      | reset =>
          simp only [run, hpc, Test.reset]
          refine .inl ?_
          repeat' split
          all_goals exact Nat.zero_le _
      | resetWait =>
          have hzero : t.abortStage = 0 := by
            rw [abortStage, hpc]
          simp only [run, hpc, awaitReset, acknowledgeReset]
          refine .inl ?_
          repeat' split
          all_goals first | exact le_rfl | exact Nat.zero_le _
      | revoke =>
          simp only [run, hpc]
          exact .inr (.inl ⟨trivial, le_rfl⟩)
      | finishSequences =>
          simp only [run, hpc]
          exact .inr (.inr (.inl ⟨trivial, le_rfl⟩))
      | closeAgent => exact .inr (.inr (.inr rfl))
      | finish =>
          refine .inl ?_
          simp only [run, hpc]
          rw [abortStage, abortStage, hpc]
          exact le_rfl
      | finished =>
          refine .inl ?_
          simp only [run, hpc]
          exact le_rfl
      | _ =>
          rw [hpc] at hloop
          cases hloop

/-- What happens around a worker does not move it. -/
theorem abortStage_around {act : TestAction} (hact : ∀ e, act ≠ .run e) :
    (t.step p act).abortStage = t.abortStage := by
  cases act with
  | clock now =>
      rw [step]
      split <;> rfl
  | receipt r =>
      rw [step, complete]
      repeat' split
      all_goals rfl
  | run e => exact absurd rfl (hact e)
  | frame | closeWatches | cancel => rfl

end Test

/-! ## Writes -/

namespace TestRun

variable [FloatMath F] {run : TestRun F}

theorem Sound.course (h : run.Sound) : Test.Course run.plan run.test := by
  obtain ⟨-, received, now, as, -, htest⟩ := h
  rw [htest]
  exact (Test.course_after run.plan received now as).1

/-- A write of a step. -/
theorem calls_write (h : run.Sound) (hpc : run.test.pc = .write) (e : Env) :
    (run.test.write run.plan e).calls =
      run.test.calls ++ [run.plan.waveforms.getD run.test.next run.test.current] := by
  have hnone : run.test.resetWrite = none := by
    cases h.cleanup with
    | writing _ _ hw | unwinding _ _ _ hw => exact hw.resetWrite_eq
    | resetting hat | failing hat | finishing hat | finished hat =>
        rw [hpc] at hat
        simp [TestPc.failing] at hat
  have hcalls (t : Test F) (hwrites : t.writes =
      run.test.writes ++ [⟨run.plan.waveforms.getD run.test.next run.test.current, none⟩])
      (hreset : t.resetWrite = run.test.resetWrite) : t.calls =
        run.test.calls ++ [run.plan.waveforms.getD run.test.next run.test.current] := by
    rw [Test.calls, Test.calls, hwrites, hreset, hnone, Option.toList_none, List.append_nil,
      List.append_nil, List.map_append]
    rfl
  rw [Test.write]
  split
  · exact hcalls _ rfl rfl
  · exact hcalls _ rfl rfl

/-- The write of the reset. -/
theorem calls_reset (h : run.Sound) (hpc : run.test.pc = .reset) (e : Env) :
    (run.test.reset run.plan e).calls =
      run.test.calls ++
        if run.test.wrote then [run.test.current.reset run.plan.touched] else [] := by
  have hnone : run.test.resetWrite = none := by
    cases h.cleanup with
    | writing _ _ hw | unwinding _ _ _ hw => exact hw.resetWrite_eq
    | resetting hat | failing hat | finishing hat | finished hat =>
        rw [hpc] at hat
        simp [TestPc.failing] at hat
  have hcalls (t : Test F) (hwrites : t.writes = run.test.writes)
      (hreset : t.resetWrite = some ⟨run.test.current.reset run.plan.touched, none⟩) :
      t.calls = run.test.calls ++ [run.test.current.reset run.plan.touched] := by
    rw [Test.calls, Test.calls, hwrites, hreset, hnone, Option.toList_none, List.append_nil,
      List.map_append]
    rfl
  rw [Test.reset]
  split
  · split
    · exact hcalls _ rfl rfl
    · exact hcalls _ rfl rfl
  · exact (List.append_nil _).symm

/-- **The calls of a worker are the waveforms that it writes.** -/
theorem calls_step (h : run.Sound) (act : TestAction) :
    (run.step act).test.calls = run.test.calls ++ (run.writes act).map Prod.fst := by
  have hsame (t : Test F) (hcalls : t.calls = run.test.calls) (hwrites : run.writes act = []) :
      t.calls = run.test.calls ++ (run.writes act).map Prod.fst := by
    rw [hcalls, hwrites, List.map_nil, List.append_nil]
  cases act with
  | run e =>
      change (run.test.run run.plan e).calls = _
      cases hpc : run.test.pc with
      | write =>
          simp only [Test.run, writes, hpc]
          exact calls_write h hpc e
      | reset =>
          simp only [Test.run, writes, hpc]
          rw [calls_reset h hpc e]
          split <;> rfl
      | _ =>
          refine hsame _ ?_ (by simp only [writes, hpc])
          cases h.course with
          | listening hloop hh hs =>
              exact Test.calls_stepped hh (by rw [hpc]; rintro ⟨⟩)
                (Test.run_stepped hloop hs.ready)
          | left hloop =>
              rw [hpc] at hloop
              first
                | (cases hloop; done)
                | (simp only [Test.run, hpc]; done)
                | (simp only [Test.run, hpc]; rfl)
                | (simp only [Test.run, hpc]; exact Test.calls_awaitReset e)
  | clock now =>
      refine hsame _ ?_ rfl
      change (run.test.step run.plan (.clock now)).calls = _
      rw [Test.step]
      split <;> rfl
  | receipt r =>
      refine hsame _ ?_ rfl
      change (run.test.step run.plan (.receipt r)).calls = _
      rw [Test.step, Test.complete]
      repeat' split
      all_goals rfl
  | frame | closeWatches | cancel => exact hsame _ rfl rfl

end TestRun

namespace Api

variable [FloatMod F] {a b : Api F} {project : Project Raw}

/-! ## A failed reset at the API -/

/-- What has been done at the stage `k` of a failed reset. -/
structure Halted (a : Api F) (k : ℕ) : Prop where
  revoked : 1 ≤ k → a.revoked = true
  sequences : 2 ≤ k → ∀ n id, ¬ a.Runs (.sequence n) id
  closed : 3 ≤ k → a.closed = true

/-- The control is revoked, no sequence is running and the agent was closed. -/
def Stopped (a : Api F) : Prop :=
  a.revoked = true ∧ (∀ n id, ¬ a.Runs (.sequence n) id) ∧ a.closed = true

theorem Moved.closed_eq (h : Moved a b) (hclosed : a.closed = true) : b.closed = true := by
  cases h with
  | tested n run act =>
      change (a.abort run.test act).closed = true
      unfold abort
      repeat' split
      all_goals first | exact hclosed | rfl
  | proceeded n now =>
      unfold proceed
      repeat' split
      all_goals first
        | exact hclosed
        | (change (a.closed || _) = true; rw [hclosed]; rfl)
  | _ => exact hclosed

theorem Halted.moved {k l : ℕ} (hcore : a.Core) (hk : a.Halted k) (h : Moved a b) (hle : l ≤ k) :
    b.Halted l where
  revoked hl := h.revoked_eq (hk.revoked (hl.trans hle))
  sequences hl n id hruns :=
    hk.sequences (hl.trans hle) n id
      ((h.fences hcore).runs (hk.revoked (by omega)) _ _ hruns)
  closed hl := h.closed_eq (hk.closed (hl.trans hle))

/-- What a test did after a failed reset has been done, and its calls are in the log. -/
structure Account (a : Api F) (n : ℕ) (run : TestRun F) : Prop where
  halted : a.Halted run.test.abortStage
  calls_eq : (a.callsOf (.test n)).map (·.value) = run.test.calls.map .sv

/-- There is an account of every test, and calls of no others. -/
structure Accounts (a : Api F) : Prop where
  account : ∀ {n : ℕ} {run : TestRun F}, a.tests.runs[n]? = some run → a.Account n run
  writer_lt : ∀ c ∈ a.calls, ∀ n, c.writer = some (.test n) → n < a.tests.runs.length

omit [FloatMod F] in
theorem callsOf_append {new : List (ApplyCall F)} (hcalls : b.calls = a.calls ++ new) (r : Runner) :
    b.callsOf r = a.callsOf r ++ new.filter (·.writer == some r) := by
  rw [callsOf, callsOf, hcalls, List.filter_append]

/-- Another test, or a test that has not come further. -/
theorem Account.moved {n : ℕ} {run run' : TestRun F} (h : a.Account n run) (hcore : a.Core)
    (hmoved : Moved a b) {new : List (ApplyCall F)} (hcalls : b.calls = a.calls ++ new)
    (hnew : ∀ c ∈ new, c.writer ≠ some (.test n))
    (hstage : run'.test.abortStage ≤ run.test.abortStage)
    (hsame : run'.test.calls = run.test.calls) : b.Account n run' := by
  have hnone : new.filter (·.writer == some (.test n)) = [] := by
    rw [List.filter_eq_nil_iff]
    exact fun c hc heq ↦ hnew c hc (beq_iff_eq.mp heq)
  refine ⟨h.halted.moved hcore hmoved hstage, ?_⟩
  rw [callsOf_append hcalls, hnone, List.append_nil, h.calls_eq, hsame]

/-- A move that leaves the tests alone. -/
theorem Accounts.same (h : a.Accounts) (hcore : a.Core) (hmoved : Moved a b)
    (htests : b.tests = a.tests) {new : List (ApplyCall F)} (hcalls : b.calls = a.calls ++ new)
    (hnew : ∀ c ∈ new, ∀ n, c.writer ≠ some (.test n)) : b.Accounts := by
  constructor
  · intro n run hrun
    rw [htests] at hrun
    exact (h.account hrun).moved hcore hmoved hcalls (fun c hc ↦ hnew c hc n) le_rfl rfl
  · intro c hc n hwriter
    rw [htests]
    rw [hcalls, List.mem_append] at hc
    rcases hc with hc | hc
    · exact h.writer_lt c hc n hwriter
    · exact absurd hwriter (hnew c hc n)

/-- The stage of the test that has made a step. -/
theorem halted_tested (hcore : a.Core) {n : ℕ} {run : TestRun F} {act : TestAction}
    (hrun : a.tests.runs[n]? = some run) (hk : a.Halted run.test.abortStage)
    (hmoved : Moved a b) (hrevoked : b.revoked = (a.abort run.test act).revoked)
    (hsequences : b.sequences = (a.abort run.test act).sequences)
    (hclosed : b.closed = (a.abort run.test act).closed) :
    b.Halted (run.step (a.supply act)).test.abortStage := by
  cases act with
  | run e =>
      rcases Test.abortStage_run (hcore.sound hrun).course
          { e with ready := a.ready e.ready, revoked := a.revoked } with
        hle | ⟨hpc, hle⟩ | ⟨hpc, hle⟩ | hpc
      · exact hk.moved hcore hmoved hle
      · refine ⟨fun _ ↦ ?_, fun h ↦ absurd (h.trans hle) (by decide),
          fun h ↦ absurd (h.trans hle) (by decide)⟩
        rw [hrevoked, abort, hpc]
      · have hone : a.revoked = true := hk.revoked (by rw [Test.abortStage, hpc])
        refine ⟨fun _ ↦ hmoved.revoked_eq hone, fun _ m id hruns ↦ ?_,
          fun h ↦ absurd (h.trans hle) (by decide)⟩
        obtain ⟨run', hrun', hruns⟩ := hruns
        rw [hsequences, abort, hpc] at hrun'
        exact not_runs_finishSequences hcore.bounded _ _ m id ⟨run', hrun', hruns⟩
      · have hone : a.revoked = true := hk.revoked (by rw [Test.abortStage, hpc]; exact one_le_two)
        have htwo := hk.sequences (by rw [Test.abortStage, hpc])
        refine ⟨fun _ ↦ hmoved.revoked_eq hone, fun _ m id hruns ↦ ?_, fun _ ↦ ?_⟩
        · exact htwo m id ((hmoved.fences hcore).runs hone _ _ hruns)
        · rw [hclosed, abort, hpc]
  | clock | frame | closeWatches | receipt | cancel =>
      refine hk.moved hcore hmoved (le_of_eq ?_)
      exact Test.abortStage_around fun e ↦ by rintro ⟨⟩

theorem Accounts.tested (h : a.Accounts) (hcore : a.Core) {n : ℕ} {run : TestRun F}
    {act : TestAction} (hrun : a.tests.runs[n]? = some run) (hmoved : Moved a b)
    (hrevoked : b.revoked = (a.abort run.test act).revoked)
    (hsequences : b.sequences = (a.abort run.test act).sequences)
    (hclosed : b.closed = (a.abort run.test act).closed)
    (htests : b.tests = a.tests.modify n (·.step (a.supply act)))
    (hcalls : b.calls = a.calls ++ (run.writes (a.supply act)).map fun w ↦
      ⟨some (.test n), run.streamID, .sv w.1, w.2⟩) : b.Accounts := by
  constructor
  · intro m run' hrun'
    rw [htests] at hrun'
    rcases eq_or_ne m n with rfl | hne
    · rw [History.getElem?_modify_self _ hrun] at hrun'
      cases hrun'
      refine ⟨halted_tested hcore hrun (h.account hrun).halted hmoved hrevoked hsequences hclosed, ?_⟩
      rw [callsOf_append hcalls, List.filter_eq_self.mpr, List.map_append, (h.account hrun).calls_eq,
        TestRun.calls_step (hcore.sound hrun), List.map_append, List.map_map, List.map_map]
      · rfl
      · intro c hc
        obtain ⟨w, -, rfl⟩ := List.mem_map.mp hc
        exact beq_self_eq_true _
    · rw [History.getElem?_modify_ne _ hne] at hrun'
      refine (h.account hrun').moved hcore hmoved hcalls (fun c hc heq ↦ hne ?_) le_rfl rfl
      obtain ⟨w, -, rfl⟩ := List.mem_map.mp hc
      cases heq
      rfl
  · intro c hc m hwriter
    have hlen : b.tests.runs.length = a.tests.runs.length := by
      rw [htests]
      exact List.length_modify _ _ _
    rw [hlen]
    rw [hcalls, List.mem_append] at hc
    rcases hc with hc | hc
    · exact h.writer_lt c hc m hwriter
    · obtain ⟨w, -, rfl⟩ := List.mem_map.mp hc
      cases hwriter
      exact (List.getElem?_eq_some_iff.mp hrun).1

/-- A test just started has no calls. -/
theorem Accounts.armed (h : a.Accounts) (hcore : a.Core) {run : TestRun F}
    {tests : History (TestRun F)}
    (hstart : a.tests.start TestRun.running maxTests run = some tests) (harmed : Armed run)
    (hmoved : Moved a { a with tests }) : { a with tests }.Accounts := by
  constructor
  · intro n run' hrun'
    rcases History.getElem?_start hstart hrun' with hrun' | ⟨rfl, rfl⟩
    · exact (h.account hrun').moved hcore hmoved (List.append_nil _).symm
        (fun c hc ↦ absurd hc List.not_mem_nil) le_rfl rfl
    · obtain ⟨-, received, now, -, htest⟩ := harmed
      have hstage : run'.test.abortStage = 0 := by
        rw [htest]
        rfl
      have hcalls : run'.test.calls = [] := by
        rw [htest]
        rfl
      have hnone : a.callsOf (.test a.tests.runs.length) = [] := by
        rw [callsOf, List.filter_eq_nil_iff]
        intro c hc heq
        exact absurd (h.writer_lt c hc _ (beq_iff_eq.mp heq)) (Nat.lt_irrefl _)
      constructor
      · rw [hstage]
        exact ⟨fun h ↦ absurd h (by decide), fun h ↦ absurd h (by decide),
          fun h ↦ absurd h (by decide)⟩
      · rw [hcalls]
        exact congrArg (List.map _) hnone
  · intro c hc n hwriter
    change n < tests.runs.length
    rw [(History.start_eq_some hstart).1, List.length_append, List.length_singleton]
    exact Nat.lt_succ_of_lt (h.writer_lt c hc n hwriter)

/-- A step of a release only cancels tests. -/
theorem Accounts.proceeded (h : a.Accounts) (hcore : a.Core) (n : ℕ) (now : Time)
    (hmoved : Moved a (a.proceed n now)) : (a.proceed n now).Accounts := by
  have hcalls : (a.proceed n now).calls = a.calls ++ [] := by
    rw [calls_proceed, List.append_nil]
  constructor
  · intro m run hrun
    obtain ⟨old, hold, rfl | rfl⟩ := of_tests_proceed hrun
    · exact (h.account hold).moved hcore hmoved hcalls (fun c hc ↦ absurd hc List.not_mem_nil) le_rfl
        rfl
    · exact (h.account hold).moved hcore hmoved hcalls (fun c hc ↦ absurd hc List.not_mem_nil) le_rfl
        rfl
  · intro c hc m hwriter
    rw [calls_proceed] at hc
    rw [(evolves_proceed hcore n now).2.length_eq]
    exact h.writer_lt c hc m hwriter

theorem Accounts.moved (h : a.Accounts) (hcore : a.Core) (hmoved : Moved a b) : b.Accounts := by
  have hsame (htests : b.tests = a.tests) (hcalls : b.calls = a.calls) : b.Accounts :=
    h.same hcore hmoved htests (hcalls.trans (List.append_nil _).symm)
      fun c hc ↦ absurd hc List.not_mem_nil
  cases hmoved with
  | wrote id value err hlive hidle =>
      refine h.same hcore (.wrote id value err hlive hidle) rfl rfl fun c hc n ↦ ?_
      obtain rfl := List.mem_singleton.mp hc
      rintro ⟨⟩
  | executed n run step e ready hrun hrunning hstep hrefuse =>
      refine h.same hcore (.executed n run step e ready hrun hrunning hstep hrefuse) rfl rfl
        fun c hc m ↦ ?_
      obtain rfl := List.mem_singleton.mp hc
      rintro ⟨⟩
  | armed run tests hstart harmed hlive hidle =>
      exact h.armed hcore hstart harmed (.armed run tests hstart harmed hlive hidle)
  | tested n run act hrun => exact h.tested hcore hrun (.tested n run act hrun) rfl rfl rfl rfl rfl
  | proceeded n now => exact h.proceeded hcore n now (.proceeded n now)
  | _ => exact hsame rfl rfl

theorem accounts_after (project : Project Raw) (as : List (ApiAction Raw F)) :
    (after project as).Accounts := by
  have hnew : Accounts ({} : Api F) :=
    ⟨fun h ↦ (by cases h), fun c hc ↦ absurd hc List.not_mem_nil⟩
  exact (Lib.inv_run_of_step (I := fun a : Api F ↦ a.Inv ∧ a.Accounts)
    (fun a act h ↦ ⟨h.1.step act, h.2.moved h.1.core (h.1.moved project act)⟩) ⟨inv_new, hnew⟩ as).2

end Api

/-- **A measured test never leaves its stimulus on the wire.**  When a test has finished, it never
called `ApplySVTracked`; or its last call set the RMS of every channel that a step of its request
touches to zero, and a receipt without error confirmed it; or the control is revoked, no sequence is
running and the agent was closed.  `reset_confirmed` tells the first two ways from the third. -/
theorem test_outcome [FloatMod F] (project : Project Raw) (as : List (ApiAction Raw F)) (n : ℕ)
    (run : TestRun F) (hrun : (Api.after project as).tests.runs[n]? = some run)
    (hfinished : run.test.status.phase = .finished) :
    let a := Api.after project as
    let touched := run.request.touched run.plan.output
    (run.test.NeverWrote ∨ run.test.Restored touched ∨ a.Stopped) ∧
      (run.test.status.resetConfirmed = true ↔ run.test.NeverWrote ∨ run.test.Restored touched) ∧
      (a.callsOf (.test n)).map (·.value) = run.test.calls.map .sv := by
  intro a touched
  have hsound : run.Sound := (Api.inv_after project as).core.sound hrun
  have haccount : a.Account n run := (Api.accounts_after project as).account hrun
  have htouched : run.plan.touched = touched := hsound.1
  cases hsound.cleanup with
  | finished hpc hstatus hphase hconfirmed hsettled =>
      rw [Test.Settled, htouched] at hsettled
      refine ⟨?_, hconfirmed ▸ hsettled, haccount.calls_eq⟩
      cases hok : run.test.resetOK with
      | true =>
          rcases hsettled.mp hok with hnever | hrestored
          · exact .inl hnever
          · exact .inr (.inl hrestored)
      | false =>
          have hstage : run.test.abortStage = 3 := by
            rw [Test.abortStage, hpc, hok]
            rfl
          have hhalted := haccount.halted
          rw [hstage] at hhalted
          exact .inr (.inr ⟨hhalted.revoked (by decide), hhalted.sequences (by decide),
            hhalted.closed le_rfl⟩)
  | writing _ hopen | unwinding _ _ hopen | resetting _ _ hopen | failing _ _ hopen
  | finishing _ _ hopen => exact absurd hfinished hopen.phase_ne

/-! ## An example -/

/-- A project with the relay as its output and its input. -/
def relayProject : Project Unit where
  revision := "1"
  streams id :=
    if id = "sv_pub/relay" then some tripPlan.output
    else if id = "goose_sub/relay" then some tripInput.stream
    else none
  descriptions id := if id = "goose_sub/relay" then some tripInput.description else none
  gooseHeaders _ := tripPDU false 1
  decodeGooseValue _ _ := .error "unsupported writable signal type"
  streams_id := by
    intro id s h
    split at h
    · next hid =>
        cases h
        exact hid.symm
    · split at h
      · next hid =>
          cases h
          exact hid.symm
      · cases h

/-- A test of one step. -/
def relayRequest : TestRequest ℚ where
  streamID := "sv_pub/relay"
  revision := "1"
  steps := [⟨some 0, [{ signalID := "sv_pub/relay/channel/0", rms := some 5 }]⟩]
  expect := ⟨"goose_sub/relay", "goose_sub/relay/entry/0", "rising"⟩
  timeoutMS := 50

/-- The publisher runs, and the relay has sent one message. -/
def relayEnv : TestEnv ℚ where
  output := .ok (currentOf 0, .running)
  received := [.handleMatch ⟨"relay"⟩ (tripPDU false 1) ⟨msTime 900, msTime 900⟩ (msTime 900)]
  now := msTime 1000
  now_pos := by decide

/-- The test is cancelled after its step was sent, and its reset is sent as well. -/
def cancelledTest : List (ApiAction Unit ℚ) :=
  -- start, loop, poll, length, drain, deadline, expiry, due, ready, fence, write, sent
  [.runTest relayRequest relayEnv] ++ (workerSteps 12).map (.test 0) ++
    [.test 0 (.clock (msTime 1001)), .test 0 (.receipt ⟨msTime 1001, msTime 1001, none⟩),
      .test 0 (.run { choice := .receipt }), .cancelTest "test-1"] ++
    -- loop, unwind, reset, resetSent
    (workerSteps 4).map (.test 0) ++
    [.test 0 (.clock (msTime 1002)), .test 0 (.receipt ⟨msTime 1002, msTime 1002, none⟩),
      .test 0 (.run { choice := .receipt }), .test 0 (.run {})]

theorem test_outcome_cancelled :
    ∃ run, (Api.after relayProject cancelledTest).tests.runs[0]? = some run ∧
      run.test.status.resetConfirmed = true ∧
      (run.test.NeverWrote ∨ run.test.Restored (run.request.touched run.plan.output)) ∧
      ((Api.after relayProject cancelledTest).callsOf (.test 0)).map (·.value) =
        run.test.calls.map .sv := by
  have hrun : ((Api.after relayProject cancelledTest).tests.runs[0]?.map fun run ↦
      (run.test.status.phase, run.test.status.resetConfirmed)) = some (.finished, true) := by
    decide +kernel
  obtain ⟨run, hrun, hstatus⟩ := Option.map_eq_some_iff.mp hrun
  obtain ⟨hphase, hconfirmed⟩ := Prod.ext_iff.mp hstatus
  obtain ⟨-, hiff, hcalls⟩ := test_outcome relayProject cancelledTest 0 run hrun hphase
  exact ⟨run, hrun, hconfirmed, hiff.mp hconfirmed, hcalls⟩

end ProcessBus.Automation
