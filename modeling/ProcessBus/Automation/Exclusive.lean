import ProcessBus.Automation.Moves

/-!
# One writer to a stream

What the lock of the API, the checks of `ready` and `streamIdle`, and the wait of `release` for the
tests achieve together: no two runners run on one stream, every call that writes is authorized by
the state before it, and a sequence writes its steps in order, each once (`write_exclusivity`).
-/

namespace ProcessBus.Automation

open Go Goose Goose.Subscriber Sv.Publisher Lib

variable {Raw F : Type}

/-- A successful write of the runner `r`. -/
def ApplyCall.succeeded (c : ApplyCall F) (r : Runner) : Bool :=
  c.writer == some r && c.err.isNone

/-- The writes of a sequence: its first steps, as many as it has counted. -/
def SequenceRun.writes (run : SequenceRun F) (n : ℕ) : List (ApplyCall F) :=
  (run.steps.take run.status.stepsApplied).map fun step ↦
    ⟨some (.sequence n), run.status.streamID, step.value, none⟩

namespace TestRun

variable [FloatMath F]

/-- The plan is made of the request, and the worker has made some steps of it. -/
def Sound (run : TestRun F) : Prop :=
  run.plan.touched = run.request.touched run.plan.output ∧
    ∃ received now as, Time.zero < now ∧ run.test = Test.after run.plan received now as

variable {run run' : TestRun F}

theorem Sound.cleanup (h : run.Sound) : Test.Cleanup run.plan run.test := by
  obtain ⟨-, received, now, as, hnow, htest⟩ := h
  rw [htest]
  exact Test.cleanup_after run.plan received hnow as

theorem Sound.step (h : run.Sound) (act : TestAction) : (run.step act).Sound := by
  obtain ⟨htouched, received, now, as, hnow, htest⟩ := h
  refine ⟨htouched, received, now, as ++ [act], hnow, ?_⟩
  change run.test.step run.plan act = Test.after run.plan received now (as ++ [act])
  rw [htest, Test.after, Test.after, List.foldl_concat]

/-- A test runs until its worker has finished. -/
theorem Sound.running_iff (h : run.Sound) : run.running = true ↔ run.test.pc ≠ .finished := by
  rw [running, beq_iff_eq]
  cases h.cleanup with
  | writing hpc hopen =>
      refine iff_of_true hopen.status_eq fun hat ↦ ?_
      rw [hat] at hpc
      cases hpc
  | unwinding hpc hstate hopen =>
      refine iff_of_true hopen.status_eq fun hat ↦ ?_
      rcases hpc with hpc | hpc
      all_goals
        rw [hat] at hpc
        cases hpc
  | resetting hpc hstate hopen =>
      refine iff_of_true hopen.status_eq fun hat ↦ ?_
      rcases hpc with hpc | hpc
      all_goals
        rw [hat] at hpc
        cases hpc
  | failing hpc hstate hopen =>
      refine iff_of_true hopen.status_eq fun hat ↦ ?_
      rw [hat] at hpc
      cases hpc
  | finishing hpc hstate hopen =>
      refine iff_of_true hopen.status_eq fun hat ↦ ?_
      rw [hat] at hpc
      cases hpc
  | finished hpc hstatus => exact iff_of_false hstatus fun hne ↦ hne hpc

/-- What every action leaves as it is, and that none makes a test run again. -/
structure Evolves (run run' : TestRun F) : Prop where
  request_eq : run'.request = run.request
  plan_eq : run'.plan = run.plan
  running : run'.running = true → run.running = true

omit [FloatMath F] in
theorem Evolves.refl (run : TestRun F) : Evolves run run := ⟨rfl, rfl, id⟩

omit [FloatMath F] in
theorem Evolves.streamID_eq (h : Evolves run run') : run'.streamID = run.streamID :=
  congrArg (·.output.id) h.plan_eq

/-- A worker that has finished stays where it is. -/
theorem step_finished {p : TestPlan F} {t : Test F} (h : t.pc = .finished) (act : TestAction) :
    (t.step p act).pc = .finished := by
  cases act with
  | clock now =>
      rw [Test.step]
      split <;> exact h
  | receipt r =>
      rw [Test.step, Test.complete]
      repeat' split
      all_goals exact h
  | run e =>
      rw [Test.step, Test.run, h]
      exact h
  | frame | closeWatches | cancel => exact h

theorem Sound.evolves (h : run.Sound) (act : TestAction) : Evolves run (run.step act) := by
  refine ⟨rfl, rfl, fun hrunning ↦ ?_⟩
  rw [(h.step act).running_iff] at hrunning
  exact h.running_iff.mpr fun hat ↦ hrunning (step_finished hat act)

end TestRun

namespace Api

variable [FloatMod F] {a b : Api F} {project : Project Raw}

/-! ## Histories -/

/-- The histories are within their limits, and every test is one. -/
structure Core (a : Api F) : Prop where
  bounded : a.Bounded
  sound : ∀ {n : ℕ} {run : TestRun F}, a.tests.runs[n]? = some run → run.Sound

/-- What a step does to the runners. -/
inductive Change (a b : Api F) : Prop
  | evolved (hsequences : a.sequences.Evolves SequenceRun.Evolves b.sequences)
      (htests : a.tests.Evolves TestRun.Evolves b.tests)
  | started (run : SequenceRun F) (hlive : a.revoked = false) (hidle : a.Idle run.status.streamID)
      (hfresh : Fresh run)
      (hstart : a.sequences.start SequenceRun.running maxSequences run = some b.sequences)
      (htests : b.tests = a.tests)
  | armed (run : TestRun F) (hlive : a.revoked = false) (hidle : a.Idle run.streamID)
      (hstart : a.tests.start TestRun.running maxTests run = some b.tests)
      (hsequences : b.sequences = a.sequences)

omit [FloatMod F] in
theorem finishes_refl (a : Api F) : a.sequences.Evolves SequenceRun.Finishes a.sequences :=
  .refl (fun _ ↦ .refl) _

omit [FloatMod F] in
theorem evolves_tests_refl (a : Api F) : a.tests.Evolves TestRun.Evolves a.tests :=
  .refl TestRun.Evolves.refl _

omit [FloatMod F] in
theorem finishes_finishSequences (a : Api F) (reason : String) (now : Time) :
    a.sequences.Evolves SequenceRun.Finishes (a.finishSequences reason now).sequences :=
  History.evolves_modifyKept (fun _ ↦ .refl) fun _ _ _ ↦ .finish .cancelled reason now

theorem evolves_execute {n : ℕ} {run : SequenceRun F} {ready : Option String} {e : StepEnv}
    (hrun : a.sequences.runs[n]? = some run) (hrunning : run.running = true)
    (step : SequenceStep F) :
    a.sequences.Evolves SequenceRun.Evolves
      (a.sequences.modify n (·.execute step ready e)) := by
  refine History.evolves_modify SequenceRun.Evolves.refl fun run' hrun' ↦ ?_
  rw [hrun] at hrun'
  cases hrun'
  have hstopped : run.running = false → run.execute step ready e = run := fun hnot ↦ by
    rw [hrunning] at hnot
    cases hnot
  rcases run.execute_spec step ready e with ⟨-, h⟩ | ⟨-, h, -⟩
  · exact ⟨h.steps_eq, h.streamID_eq, hstopped⟩
  · exact ⟨h.steps_eq, h.streamID_eq, hstopped⟩

omit [FloatMod F] in
/-- What the worker of a test does to the sequences. -/
theorem finishes_abort (a : Api F) (t : Test F) (act : TestAction) :
    a.sequences.Evolves SequenceRun.Finishes (a.abort t act).sequences := by
  unfold abort
  split
  · split
    · exact finishes_refl a
    · exact finishes_finishSequences a _ _
    · exact finishes_refl a
    · exact finishes_refl a
  · exact finishes_refl a

/-- What a release does to the runners. -/
theorem evolves_proceed (hcore : a.Core) (n : ℕ) (now : Time) :
    a.sequences.Evolves SequenceRun.Finishes (a.proceed n now).sequences ∧
      a.tests.Evolves TestRun.Evolves (a.proceed n now).tests := by
  have hsame := And.intro (finishes_refl a) (evolves_tests_refl a)
  unfold proceed
  split
  · exact hsame
  · split
    · exact hsame
    · refine ⟨finishes_finishSequences a _ now, ?_⟩
      exact History.evolves_modifyKept TestRun.Evolves.refl
        fun n run hrun ↦ (hcore.sound hrun).evolves .cancel
    · exact hsame
    · split <;> exact hsame
    · exact hsame
    · exact hsame

theorem Moved.change (hcore : a.Core) (h : Moved a b) : Change a b := by
  have hsequences : a.sequences.Evolves SequenceRun.Evolves a.sequences :=
    .refl SequenceRun.Evolves.refl _
  have htests := evolves_tests_refl a
  cases h with
  | stayed | wrote | revoked | called => exact .evolved hsequences htests
  | started run sequences hstart hfresh hlive hidle =>
      exact .started run hlive hidle hfresh hstart rfl
  | refused n run step e ready hrun hrunning =>
      exact .evolved (evolves_execute hrun hrunning step) htests
  | executed n run step e ready hrun hrunning =>
      exact .evolved (evolves_execute hrun hrunning step) htests
  | cancelled n now =>
      refine .evolved ?_ htests
      exact History.evolves_modify SequenceRun.Evolves.refl
        fun run _ ↦ run.evolves_finish .cancelled "" now
  | armed run tests hstart harmed hlive hidle => exact .armed run hlive hidle hstart rfl
  | tested n run act hrun =>
      refine .evolved ((finishes_abort a run.test act).mono fun h ↦ h.evolves) ?_
      exact History.evolves_modify TestRun.Evolves.refl
        fun run' hrun' ↦ (hcore.sound hrun').evolves (a.supply act)
  | proceeded n now =>
      obtain ⟨hs, ht⟩ := evolves_proceed hcore n now
      exact .evolved (hs.mono fun h ↦ h.evolves) ht

omit [FloatMod F] in
theorem Change.bounded (hb : a.Bounded) (h : Change a b) : b.Bounded := by
  cases h with
  | evolved hsequences htests =>
      exact ⟨hb.sequences.evolves hsequences fun he ↦ he.running,
        hb.tests.evolves htests fun he ↦ he.running⟩
  | started run hlive hidle hfresh hstart htests =>
      refine ⟨hb.sequences.start hstart, ?_⟩
      rw [htests]
      exact hb.tests
  | armed run hlive hidle hstart hsequences =>
      refine ⟨?_, hb.tests.start hstart⟩
      rw [hsequences]
      exact hb.sequences

/-- A test in the history after a step of a release. -/
theorem of_tests_proceed {n m : ℕ} {now : Time} {run : TestRun F}
    (h : (a.proceed n now).tests.runs[m]? = some run) :
    ∃ run', a.tests.runs[m]? = some run' ∧ (run = run' ∨ run = run'.step .cancel) := by
  have hsame : a.tests.runs[m]? = some run →
      ∃ run', a.tests.runs[m]? = some run' ∧ (run = run' ∨ run = run'.step .cancel) :=
    fun h ↦ ⟨run, h, .inl rfl⟩
  unfold proceed at h
  split at h
  · exact hsame h
  · split at h
    · exact hsame h
    · obtain ⟨run', hrun', ⟨-, rfl⟩ | ⟨-, rfl⟩⟩ := History.of_getElem?_modifyKept h
      · exact ⟨run', hrun', .inr rfl⟩
      · exact ⟨run, hrun', .inl rfl⟩
    · exact hsame h
    · split at h <;> exact hsame h
    · exact hsame h
    · exact hsame h

theorem Core.moved (hcore : a.Core) (h : Moved a b) : b.Core := by
  refine ⟨(h.change hcore).bounded hcore.bounded, fun {m run} hrun ↦ ?_⟩
  cases h with
  | armed new tests hstart harmed =>
      rcases History.getElem?_start hstart hrun with hrun | ⟨-, rfl⟩
      · exact hcore.sound hrun
      · obtain ⟨htouched, received, now, hnow, htest⟩ := harmed
        exact ⟨htouched, received, now, [], hnow, htest⟩
  | tested n run' act =>
      obtain ⟨old, hold, rfl | ⟨-, rfl⟩⟩ := History.of_getElem?_modify hrun
      · exact hcore.sound hold
      · exact (hcore.sound hold).step (a.supply act)
  | proceeded n now =>
      obtain ⟨old, hold, rfl | rfl⟩ := of_tests_proceed hrun
      · exact hcore.sound hold
      · exact (hcore.sound hold).step .cancel
  | _ => exact hcore.sound hrun

/-! ## Runners -/

omit [FloatMod F] in
/-- After a change every runner ran before, except one that is started on an idle stream. -/
theorem Change.runs (h : Change a b) :
    (∀ r id, b.Runs r id → a.Runs r id) ∨
      a.revoked = false ∧ ∃ new id', a.Idle id' ∧
        ∀ r id, b.Runs r id → a.Runs r id ∨ r = new ∧ id = id' := by
  cases h with
  | evolved hsequences htests =>
      refine .inl ?_
      rintro (n | n) id ⟨run, hrun, hrunning, hid⟩
      · obtain ⟨old, hold, he⟩ := hsequences.back hrun
        exact ⟨old, hold, he.running hrunning, he.streamID_eq ▸ hid⟩
      · obtain ⟨old, hold, he⟩ := htests.back hrun
        exact ⟨old, hold, he.running hrunning, he.streamID_eq ▸ hid⟩
  | started new hlive hidle hfresh hstart htests =>
      refine .inr ⟨hlive, .sequence a.sequences.runs.length, _, hidle, ?_⟩
      rintro (n | n) id ⟨run, hrun, hrunning, hid⟩
      · rcases History.getElem?_start hstart hrun with hrun | ⟨rfl, rfl⟩
        · exact .inl ⟨run, hrun, hrunning, hid⟩
        · exact .inr ⟨rfl, hid.symm⟩
      · rw [htests] at hrun
        exact .inl ⟨run, hrun, hrunning, hid⟩
  | armed new hlive hidle hstart hsequences =>
      refine .inr ⟨hlive, .test a.tests.runs.length, _, hidle, ?_⟩
      rintro (n | n) id ⟨run, hrun, hrunning, hid⟩
      · rw [hsequences] at hrun
        exact .inl ⟨run, hrun, hrunning, hid⟩
      · rcases History.getElem?_start hstart hrun with hrun | ⟨rfl, rfl⟩
        · exact .inl ⟨run, hrun, hrunning, hid⟩
        · exact .inr ⟨rfl, hid.symm⟩

/-- At most one runner runs on a stream. -/
def Exclusive (a : Api F) : Prop := ∀ r r' id, a.Runs r id → a.Runs r' id → r = r'

omit [FloatMod F] in
theorem Exclusive.change (hex : a.Exclusive) (h : Change a b) : b.Exclusive := by
  intro r r' id hr hr'
  rcases h.runs with hback | ⟨-, new, id', hidle, hback⟩
  · exact hex r r' id (hback r id hr) (hback r' id hr')
  · rcases hback r id hr with hr | ⟨rfl, rfl⟩
    · rcases hback r' id hr' with hr' | ⟨rfl, rfl⟩
      · exact hex r r' id hr hr'
      · exact absurd hr (hidle r)
    · rcases hback r' id hr' with hr' | ⟨rfl, -⟩
      · exact absurd hr' (hidle r')
      · rfl

/-! ## Calls -/

/-- Who may write: a client to an idle stream, and a runner to the stream it runs on. -/
def Authorizes (a : Api F) (c : ApplyCall F) : Prop :=
  match c.writer with
  | none => a.revoked = false ∧ a.Idle c.streamID
  | some r => a.Runs r c.streamID

theorem calls_proceed (n : ℕ) (now : Time) : (a.proceed n now).calls = a.calls := by
  unfold proceed
  repeat' split
  all_goals rfl

/-- **Every call that writes is authorized** by the state before it. -/
theorem Moved.calls (hcore : a.Core) (h : Moved a b) :
    ∃ new, b.calls = a.calls ++ new ∧ ∀ c ∈ new, a.Authorizes c := by
  have hnone : b.calls = a.calls → ∃ new, b.calls = a.calls ++ new ∧ ∀ c ∈ new, a.Authorizes c :=
    fun h ↦ ⟨[], by rw [h, List.append_nil], fun c hc ↦ absurd hc List.not_mem_nil⟩
  cases h with
  | wrote id value err hlive hidle =>
      refine ⟨[_], rfl, fun c hc ↦ ?_⟩
      obtain rfl := List.mem_singleton.mp hc
      exact ⟨hlive, hidle⟩
  | executed n run step e ready hrun hrunning =>
      refine ⟨[_], rfl, fun c hc ↦ ?_⟩
      obtain rfl := List.mem_singleton.mp hc
      exact ⟨run, hrun, hrunning, rfl⟩
  | tested n run act hrun =>
      refine ⟨_, rfl, fun c hc ↦ ?_⟩
      obtain ⟨w, hw, rfl⟩ := List.mem_map.mp hc
      refine ⟨run, hrun, (hcore.sound hrun).running_iff.mpr fun hat ↦ ?_, rfl⟩
      unfold TestRun.writes at hw
      split at hw
      · rw [hat] at hw
        exact absurd hw List.not_mem_nil
      · exact absurd hw List.not_mem_nil
  | proceeded n now => exact hnone (calls_proceed n now)
  | _ => exact hnone rfl

/-! ## Sequences -/

/-- The writes of a sequence that succeeded. -/
def written (a : Api F) (n : ℕ) : List (ApplyCall F) :=
  a.calls.filter (·.succeeded (.sequence n))

/-- What a sequence has written is what it has counted. -/
structure Logged (a : Api F) (n : ℕ) (run : SequenceRun F) : Prop where
  written_eq : a.written n = run.writes n
  stepsApplied_le : run.status.stepsApplied ≤ run.steps.length
  next_eq : run.running = true → run.next = run.status.stepsApplied

/-- All sequences are logged, and only they. -/
structure Ledger (a : Api F) : Prop where
  logged : ∀ {n : ℕ} {run : SequenceRun F}, a.sequences.runs[n]? = some run → a.Logged n run
  writer_lt : ∀ c ∈ a.calls, ∀ n, c.writer = some (.sequence n) → n < a.sequences.runs.length

omit [FloatMod F] in
theorem written_append {new : List (ApplyCall F)} (hcalls : b.calls = a.calls ++ new) (n : ℕ) :
    b.written n = a.written n ++ new.filter (·.succeeded (.sequence n)) := by
  rw [written, written, hcalls, List.filter_append]

omit [FloatMod F] in
/-- Others write. -/
theorem written_of_others {new : List (ApplyCall F)} (hcalls : b.calls = a.calls ++ new) {n : ℕ}
    (hnew : ∀ c ∈ new, c.writer ≠ some (.sequence n)) : b.written n = a.written n := by
  have hnone : new.filter (·.succeeded (.sequence n)) = [] := by
    rw [List.filter_eq_nil_iff]
    intro c hc
    rw [ApplyCall.succeeded, Bool.and_eq_true, beq_iff_eq]
    exact fun h ↦ hnew c hc h.1
  rw [written_append hcalls, hnone, List.append_nil]

omit [FloatMod F] in
theorem Logged.congr {n : ℕ} {run : SequenceRun F} (h : a.Logged n run)
    (hwritten : b.written n = a.written n) : b.Logged n run :=
  ⟨hwritten.trans h.written_eq, h.stepsApplied_le, h.next_eq⟩

omit [FloatMod F] in
theorem Logged.finish {n : ℕ} {run : SequenceRun F} (h : a.Logged n run) (state : SequenceState)
    (reason : String) (now : Time) : a.Logged n (run.finish state reason now) := by
  constructor
  · rw [SequenceRun.writes, SequenceRun.finish_steps, SequenceRun.finish_stepsApplied,
      SequenceRun.finish_streamID]
    exact h.written_eq
  · rw [SequenceRun.finish_steps, SequenceRun.finish_stepsApplied]
    exact h.stepsApplied_le
  · intro hrunning
    rw [SequenceRun.finish_next, SequenceRun.finish_stepsApplied]
    exact h.next_eq ((run.evolves_finish state reason now).running hrunning)

omit [FloatMod F] in
/-- Sequences are finished, and others write. -/
theorem Ledger.finishes (hl : a.Ledger)
    (hsequences : a.sequences.Evolves SequenceRun.Finishes b.sequences)
    {new : List (ApplyCall F)} (hcalls : b.calls = a.calls ++ new)
    (hnew : ∀ c ∈ new, ∀ n, c.writer ≠ some (.sequence n)) : b.Ledger := by
  constructor
  · intro n run' hrun'
    obtain ⟨run, hrun, hfinishes⟩ := hsequences.back hrun'
    have hlogged : b.Logged n run :=
      (hl.logged hrun).congr (written_of_others hcalls fun c hc ↦ hnew c hc n)
    cases hfinishes with
    | refl => exact hlogged
    | finish state reason now => exact hlogged.finish state reason now
  · intro c hc n hwriter
    rw [hcalls, List.mem_append] at hc
    rw [hsequences.length_eq]
    rcases hc with hc | hc
    · exact hl.writer_lt c hc n hwriter
    · exact absurd hwriter (hnew c hc n)

omit [FloatMod F] in
/-- A sequence starts with an empty log. -/
theorem Ledger.started (hl : a.Ledger) {run : SequenceRun F} {sequences : History (SequenceRun F)}
    (hstart : a.sequences.start SequenceRun.running maxSequences run = some sequences)
    (hfresh : Fresh run) : { a with sequences }.Ledger := by
  have hruns := (History.start_eq_some hstart).1
  constructor
  · intro n run' hrun'
    rcases History.getElem?_start hstart hrun' with hrun' | ⟨rfl, rfl⟩
    · exact (hl.logged hrun').congr rfl
    · constructor
      · rw [SequenceRun.writes, hfresh.stepsApplied_eq, List.take_zero, List.map_nil, written,
          List.filter_eq_nil_iff]
        intro c hc hof
        rw [ApplyCall.succeeded, Bool.and_eq_true, beq_iff_eq] at hof
        exact absurd (hl.writer_lt c hc _ hof.1) (Nat.lt_irrefl _)
      · rw [hfresh.stepsApplied_eq]
        exact Nat.zero_le _
      · intro _
        rw [hfresh.next_eq, hfresh.stepsApplied_eq]
  · intro c hc n hwriter
    change n < sequences.runs.length
    rw [hruns, List.length_append, List.length_singleton]
    exact Nat.lt_succ_of_lt (hl.writer_lt c hc n hwriter)

/-- The worker of a sequence ends a section, with at most one write. -/
theorem Ledger.executed (hl : a.Ledger) {n : ℕ} {run : SequenceRun F} {step : SequenceStep F}
    {e : StepEnv} {ready : Option String} (hrun : a.sequences.runs[n]? = some run)
    (hsequences : b.sequences = a.sequences.modify n (·.execute step ready e))
    {new : List (ApplyCall F)} (hcalls : b.calls = a.calls ++ new)
    (hnew : ∀ c ∈ new, c.writer = some (.sequence n))
    (hlogged : b.Logged n (run.execute step ready e)) : b.Ledger := by
  constructor
  · intro m run' hrun'
    rw [hsequences] at hrun'
    rcases eq_or_ne m n with rfl | hne
    · rw [History.getElem?_modify_self _ hrun] at hrun'
      cases hrun'
      exact hlogged
    · rw [History.getElem?_modify_ne _ hne] at hrun'
      refine (hl.logged hrun').congr (written_of_others hcalls fun c hc heq ↦ hne ?_)
      rw [hnew c hc] at heq
      cases heq
      rfl
  · intro c hc m hwriter
    have hlen : b.sequences.runs.length = a.sequences.runs.length := by
      rw [hsequences]
      exact List.length_modify _ _ _
    rw [hlen]
    rw [hcalls, List.mem_append] at hc
    rcases hc with hc | hc
    · exact hl.writer_lt c hc m hwriter
    · rw [hnew c hc] at hwriter
      cases hwriter
      exact (List.getElem?_eq_some_iff.mp hrun).1

/-- A section that does not apply its step. -/
theorem Logged.unapplied {n : ℕ} {run : SequenceRun F} (h : a.Logged n run)
    {step : SequenceStep F} {ready : Option String} {e : StepEnv}
    (hnot : ¬ run.Applies step ready e) (hwritten : b.written n = a.written n) :
    b.Logged n (run.execute step ready e) := by
  rcases run.execute_spec step ready e with ⟨happlies, -⟩ | ⟨-, hadvances, hstopped⟩
  · exact absurd happlies hnot
  · constructor
    · rw [SequenceRun.writes, hadvances.steps_eq, hadvances.stepsApplied_eq, hadvances.streamID_eq]
      exact hwritten.trans h.written_eq
    · rw [hadvances.steps_eq, hadvances.stepsApplied_eq]
      exact h.stepsApplied_le
    · intro hrunning
      rw [hstopped] at hrunning
      cases hrunning

/-- A section that applies its step. -/
theorem Logged.applied {n : ℕ} {run : SequenceRun F} (h : a.Logged n run)
    (hrunning : run.running = true) {step : SequenceStep F} (hstep : run.steps[run.next]? = some step)
    {ready : Option String} {e : StepEnv} (happlies : run.Applies step ready e)
    (hwritten : b.written n =
      a.written n ++ [⟨some (.sequence n), run.status.streamID, step.value, none⟩]) :
    b.Logged n (run.execute step ready e) := by
  rw [h.next_eq hrunning] at hstep
  rcases run.execute_spec step ready e with ⟨-, hadvances⟩ | ⟨hnot, -⟩
  · constructor
    · rw [SequenceRun.writes, hadvances.steps_eq, hadvances.stepsApplied_eq, hadvances.streamID_eq,
        List.take_add_one, hstep, List.map_append, hwritten, h.written_eq]
      rfl
    · rw [hadvances.steps_eq, hadvances.stepsApplied_eq]
      exact (List.getElem?_eq_some_iff.mp hstep).1
    · intro hnext
      rw [hadvances.next_eq hnext, hadvances.stepsApplied_eq, h.next_eq hrunning]
  · exact absurd happlies hnot

theorem Ledger.moved (hcore : a.Core) (hl : a.Ledger) (h : Moved a b) : b.Ledger := by
  have hnil : ∀ c ∈ ([] : List (ApplyCall F)), ∀ n, c.writer ≠ some (.sequence n) :=
    fun c hc ↦ absurd hc List.not_mem_nil
  cases h with
  | stayed => exact hl
  | wrote id value err =>
      refine hl.finishes (finishes_refl a) rfl fun c hc n ↦ ?_
      obtain rfl := List.mem_singleton.mp hc
      rintro ⟨⟩
  | started run sequences hstart hfresh => exact hl.started hstart hfresh
  | refused n run step e ready hrun hrunning hstep hrefuse =>
      refine hl.executed hrun rfl (List.append_nil _).symm (fun c hc ↦ absurd hc List.not_mem_nil) ?_
      refine (hl.logged hrun).unapplied (fun happlies ↦ ?_) rfl
      rw [happlies.1] at hrefuse
      cases hrefuse
  | executed n run step e ready hrun hrunning hstep hrefuse =>
      refine hl.executed hrun rfl rfl (fun c hc ↦ ?_) ?_
      · obtain rfl := List.mem_singleton.mp hc
        rfl
      · cases happlied : e.applied with
        | none =>
            refine (hl.logged hrun).applied hrunning hstep ⟨hrefuse, happlied⟩ ?_
            rw [written_append rfl]
            simp [ApplyCall.succeeded, written]
        | some err =>
            refine (hl.logged hrun).unapplied (fun happlies ↦ ?_) ?_
            · rw [happlies.2] at happlied
              cases happlied
            · rw [written_append rfl]
              simp [ApplyCall.succeeded, written]
  | cancelled n now =>
      refine hl.finishes ?_ (List.append_nil _).symm hnil
      exact History.evolves_modify (fun _ ↦ .refl) fun run _ ↦ .finish .cancelled "" now
  | armed => exact hl.finishes (finishes_refl a) (List.append_nil _).symm hnil
  | tested n run act =>
      refine hl.finishes (finishes_abort a run.test act) rfl fun c hc m ↦ ?_
      obtain ⟨w, -, rfl⟩ := List.mem_map.mp hc
      rintro ⟨⟩
  | revoked => exact hl.finishes (finishes_refl a) (List.append_nil _).symm hnil
  | called => exact hl.finishes (finishes_refl a) (List.append_nil _).symm hnil
  | proceeded n now =>
      refine hl.finishes (evolves_proceed hcore n now).1 ?_ hnil
      rw [calls_proceed, List.append_nil]

/-! ## Releases -/

/-- Nothing runs, and nothing can start. -/
def Silent (a : Api F) : Prop := a.revoked = true ∧ ∀ r id, ¬ a.Runs r id

/-- What a call of `release` has achieved at its place. -/
def Achieved (a : Api F) : ReleasePc → Prop
  | .revoke => True
  | .collect => a.revoked = true
  | .wait tests => a.revoked = true ∧ ∀ r id, a.Runs r id → ∃ n ∈ tests, r = .test n
  | .detach | .returned => a.Silent

/-- No revocation is taken back, and no runner starts after it. -/
structure Fences (a b : Api F) : Prop where
  revoked : a.revoked = true → b.revoked = true
  runs : a.revoked = true → ∀ r id, b.Runs r id → a.Runs r id

omit [FloatMod F] in
theorem Silent.fences (hs : a.Silent) (h : Fences a b) : b.Silent :=
  ⟨h.revoked hs.1, fun r id hr ↦ hs.2 r id (h.runs hs.1 r id hr)⟩

omit [FloatMod F] in
theorem Achieved.fences {pc : ReleasePc} (hpc : a.Achieved pc) (h : Fences a b) :
    b.Achieved pc := by
  cases pc with
  | revoke => trivial
  | collect => exact h.revoked hpc
  | wait tests => exact ⟨h.revoked hpc.1, fun r id hr ↦ hpc.2 r id (h.runs hpc.1 r id hr)⟩
  | detach | returned => exact Silent.fences hpc h

theorem Moved.revoked_eq (h : Moved a b) (hrevoked : a.revoked = true) : b.revoked = true := by
  cases h with
  | tested n run act =>
      change (a.abort run.test act).revoked = true
      unfold abort
      repeat' split
      all_goals first | exact hrevoked | rfl
  | proceeded n now =>
      unfold proceed
      repeat' split
      all_goals first | exact hrevoked | rfl
  | revoked => rfl
  | _ => exact hrevoked

theorem Moved.fences (hcore : a.Core) (h : Moved a b) : Fences a b := by
  refine ⟨h.revoked_eq, fun hrevoked ↦ ?_⟩
  rcases (h.change hcore).runs with hback | ⟨hlive, -⟩
  · exact hback
  · rw [hrevoked] at hlive
    cases hlive

omit [FloatMod F] in
/-- After the loop over them no sequence is running. -/
theorem not_runs_finishSequences (hb : a.Bounded) (reason : String) (now : Time) (n : ℕ)
    (id : String) : ¬ (a.finishSequences reason now).Runs (.sequence n) id := by
  rintro ⟨run, hrun, hrunning, -⟩
  obtain ⟨old, hold, ⟨-, rfl⟩ | ⟨hnot, rfl⟩⟩ := History.of_getElem?_modifyKept hrun
  · rw [SequenceRun.finish_running _ (by decide)] at hrunning
    cases hrunning
  · exact absurd (hb.sequences.mem_kept hold hrunning) hnot

/-- After the loops of `release` only tests in the history are running. -/
theorem runs_collect (hb : a.Bounded) (reason : String) (now : Time) {r : Runner} {id : String}
    (h : ({ a with tests := a.tests.modifyKept (·.step .cancel) }.finishSequences reason
      now).Runs r id) : ∃ n ∈ a.tests.kept, r = .test n := by
  obtain ⟨n⟩ | ⟨n⟩ := r
  · exact absurd h (not_runs_finishSequences hb reason now n id)
  · obtain ⟨run, hrun, hrunning, -⟩ := h
    obtain ⟨old, hold, ⟨hin, -⟩ | ⟨hnot, rfl⟩⟩ := History.of_getElem?_modifyKept hrun
    · exact ⟨n, hin, rfl⟩
    · exact absurd (hb.tests.mem_kept hold hrunning) hnot

/-- Every call of `release` has achieved what it should at its place. -/
def Released (a : Api F) : Prop := ∀ r ∈ a.releases, a.Achieved r.pc

omit [FloatMod F] in
/-- A step of a release to another place. -/
theorem Released.goto (hr : a.Released) (h : Fences a b) {n : ℕ} {pc : ReleasePc}
    (hreleases : b.releases = a.releases.modify n ({ · with pc })) (hpc : b.Achieved pc) :
    b.Released := by
  intro r hmem
  rw [hreleases] at hmem
  obtain ⟨i, hi⟩ := List.mem_iff_getElem?.mp hmem
  rcases eq_or_ne n i with rfl | hne
  · rw [List.getElem?_modify_eq, Option.map_eq_map, Option.map_eq_some_iff] at hi
    obtain ⟨old, -, rfl⟩ := hi
    exact hpc
  · rw [List.getElem?_modify_ne _ _ hne] at hi
    exact (hr r (List.mem_of_getElem? hi)).fences h

theorem Released.proceed (hcore : a.Core) (hr : a.Released) (n : ℕ) (now : Time)
    (h : Fences a (a.proceed n now)) : (a.proceed n now).Released := by
  revert h
  unfold Api.proceed
  split
  · exact fun _ ↦ hr
  · next r hrelease =>
      have hplace := hr r (List.mem_of_getElem? hrelease)
      split
      · exact fun h ↦ hr.goto h rfl rfl
      · next hpc =>
          rw [hpc] at hplace
          refine fun h ↦ hr.goto h rfl ⟨hplace, fun r id hruns ↦ ?_⟩
          exact runs_collect hcore.bounded _ now hruns
      · next hpc =>
          rw [hpc] at hplace
          refine fun h ↦ hr.goto h rfl ⟨hplace.1, fun r id hruns ↦ ?_⟩
          obtain ⟨n, hn, -⟩ := hplace.2 r id hruns
          exact absurd hn List.not_mem_nil
      · next j rest hpc =>
          rw [hpc] at hplace
          split
          · exact fun _ ↦ hr
          · next hdone =>
              refine fun h ↦ hr.goto h rfl ⟨hplace.1, fun r id hruns ↦ ?_⟩
              obtain ⟨n, hn, rfl⟩ := hplace.2 r id hruns
              rcases List.mem_cons.mp hn with rfl | hn
              · obtain ⟨run, hrun, hrunning, -⟩ := hruns
                rw [show a.tests.runs[n]? = some run from hrun] at hdone
                exact absurd hrunning hdone
              · exact ⟨n, hn, rfl⟩
      · next hpc =>
          rw [hpc] at hplace
          exact fun h ↦ hr.goto h rfl hplace
      · exact fun _ ↦ hr

omit [FloatMod F] in
theorem releases_abort (t : Test F) (act : TestAction) : (a.abort t act).releases = a.releases := by
  unfold abort
  repeat' split
  all_goals rfl

theorem Released.moved (hcore : a.Core) (hr : a.Released) (h : Moved a b) : b.Released := by
  have hfences := h.fences hcore
  have hsame : b.releases = a.releases → b.Released := fun heq r hmem ↦ by
    rw [heq] at hmem
    exact (hr r hmem).fences hfences
  cases h with
  | called stopPublishers =>
      intro r hmem
      rcases List.mem_append.mp hmem with hmem | hmem
      · exact (hr r hmem).fences hfences
      · obtain rfl := List.mem_singleton.mp hmem
        trivial
  | tested n run act => exact hsame (releases_abort run.test act)
  | proceeded n now => exact hr.proceed hcore n now hfences
  | _ => exact hsame rfl

/-! ## Whole runs -/

/-- The invariant of the API. -/
structure Inv (a : Api F) : Prop where
  core : a.Core
  exclusive : a.Exclusive
  ledger : a.Ledger
  released : a.Released

theorem inv_new : Inv ({} : Api F) where
  core := by
    refine ⟨⟨History.bounded_empty, History.bounded_empty⟩, fun h ↦ ?_⟩
    cases h
  exclusive := by
    rintro (n | n) r' id ⟨run, hrun, -⟩
    all_goals cases hrun
  ledger := by
    refine ⟨fun h ↦ ?_, fun c hc ↦ absurd hc List.not_mem_nil⟩
    cases h
  released := fun r hr ↦ absurd hr List.not_mem_nil

theorem Inv.moved (hi : a.Inv) (project : Project Raw) (act : ApiAction Raw F) :
    Moved a (a.step project act) :=
  step_moved hi.core.bounded act

theorem Inv.step (hi : a.Inv) (act : ApiAction Raw F) : (a.step project act).Inv where
  core := hi.core.moved (hi.moved project act)
  exclusive := hi.exclusive.change ((hi.moved project act).change hi.core)
  ledger := hi.ledger.moved hi.core (hi.moved project act)
  released := hi.released.moved hi.core (hi.moved project act)

theorem inv_after (project : Project Raw) (as : List (ApiAction Raw F)) :
    (after project as).Inv :=
  Lib.inv_run_of_step (fun _ act hi ↦ hi.step act) inv_new as

/-- What the calls of one writer are. -/
def callsOf (a : Api F) (r : Runner) : List (ApplyCall F) := a.calls.filter (·.writer == some r)

/-- A sequence that has ended stays as it is and writes no more. -/
theorem stopped_after {as : List (ApiAction Raw F)} {n : ℕ} {run : SequenceRun F}
    (hrun : (after project as).sequences.runs[n]? = some run) (hstopped : run.running = false)
    (bs : List (ApiAction Raw F)) :
    (after project (as ++ bs)).sequences.runs[n]? = some run ∧
      (after project (as ++ bs)).callsOf (.sequence n) =
        (after project as).callsOf (.sequence n) := by
  have hinv := inv_after project as
  generalize ha : after project as = a at hrun hinv ⊢
  have hafter : after project (as ++ bs) = bs.foldl (step project) a := by
    rw [after, List.foldl_append, ← ha, after]
  rw [hafter]
  refine (Lib.inv_run_of_step (I := fun s : Api F ↦ s.Inv ∧ s.sequences.runs[n]? = some run ∧
    s.callsOf (.sequence n) = a.callsOf (.sequence n)) ?_ ⟨hinv, hrun, rfl⟩ bs).2
  rintro s act ⟨hs, hat, hcalls⟩
  have hmoved := hs.moved project act
  refine ⟨hs.step act, ?_, ?_⟩
  · cases hmoved.change hs.core with
    | evolved hsequences =>
        obtain ⟨run', hrun', he⟩ := hsequences.forth hat
        rw [he.stopped hstopped] at hrun'
        exact hrun'
    | started new hlive hidle hfresh hstart => exact History.getElem?_of_start hstart hat
    | armed new hlive hidle hstart hsequences =>
        rw [hsequences]
        exact hat
  · obtain ⟨new, hnew, hauthorized⟩ := hmoved.calls hs.core
    have hnone : new.filter (·.writer == some (.sequence n)) = [] := by
      rw [List.filter_eq_nil_iff]
      intro c hc hof
      have hruns := hauthorized c hc
      rw [Authorizes, beq_iff_eq.mp hof] at hruns
      obtain ⟨run', hrun', hrunning, -⟩ := hruns
      rw [hat] at hrun'
      cases hrun'
      rw [hstopped] at hrunning
      cases hrunning
    rw [← hcalls, callsOf, hnew, List.filter_append, hnone, List.append_nil]
    rfl

/-- A started sequence keeps its steps. -/
theorem steps_after {as : List (ApiAction Raw F)} {n : ℕ} {run : SequenceRun F}
    (hrun : (after project as).sequences.runs[n]? = some run) (bs : List (ApiAction Raw F)) :
    ∃ run', (after project (as ++ bs)).sequences.runs[n]? = some run' ∧ run'.steps = run.steps := by
  have hinv := inv_after project as
  have hafter : after project (as ++ bs) = bs.foldl (step project) (after project as) := by
    rw [after, List.foldl_append, after]
  rw [hafter]
  refine (Lib.inv_run_of_step (I := fun s : Api F ↦ s.Inv ∧
    ∃ run', s.sequences.runs[n]? = some run' ∧ run'.steps = run.steps) ?_ ⟨hinv, run, hrun, rfl⟩
    bs).2
  rintro s act ⟨hs, run', hat, hsteps⟩
  refine ⟨hs.step act, ?_⟩
  cases (hs.moved project act).change hs.core with
  | evolved hsequences =>
      obtain ⟨next, hnext, he⟩ := hsequences.forth hat
      exact ⟨next, hnext, he.steps_eq.trans hsteps⟩
  | started new hlive hidle hfresh hstart =>
      exact ⟨run', History.getElem?_of_start hstart hat, hsteps⟩
  | armed new hlive hidle hstart hsequences =>
      rw [hsequences]
      exact ⟨run', hat, hsteps⟩

/-- Once nothing runs and nothing can start, nothing is written any more. -/
theorem silent_after {as : List (ApiAction Raw F)} (hsilent : (after project as).Silent)
    (bs : List (ApiAction Raw F)) :
    (after project (as ++ bs)).calls = (after project as).calls := by
  have hinv := inv_after project as
  have hafter : after project (as ++ bs) = bs.foldl (step project) (after project as) := by
    rw [after, List.foldl_append, after]
  rw [hafter]
  refine (Lib.inv_run_of_step (I := fun s : Api F ↦ s.Inv ∧ s.Silent ∧
    s.calls = (after project as).calls) ?_ ⟨hinv, hsilent, rfl⟩ bs).2.2
  rintro s act ⟨hs, hquiet, hcalls⟩
  have hmoved := hs.moved project act
  refine ⟨hs.step act, hquiet.fences (hmoved.fences hs.core), ?_⟩
  obtain ⟨new, hnew, hauthorized⟩ := hmoved.calls hs.core
  cases new with
  | nil => rw [hnew, List.append_nil, hcalls]
  | cons c new =>
      have hc := hauthorized c List.mem_cons_self
      unfold Authorizes at hc
      split at hc
      · rw [hquiet.1] at hc
        cases hc.1
      · next r _ => exact absurd hc (hquiet.2 r _)

end Api

/-- **Automation write exclusivity.**  After any actions, whatever comes next (`act`, or all of
`bs`):

* at most one sequence or test runs on a stream;
* a direct write is made to a stream on which none is running;
* the writes of a sequence are a prefix of its prepared steps, as long as it has counted, and a
  sequence that has ended stays as it is and writes no more;
* once a call of `Release` or `Close` has returned, nothing is written;
* the histories have at most 64 entries, and every running sequence and test is among them. -/
theorem write_exclusivity [FloatMod F] (project : Project Raw) (as : List (ApiAction Raw F)) :
    let a := Api.after project as
    (∀ r r' id, a.Runs r id → a.Runs r' id → r = r') ∧
    (∀ act, ∃ new, (a.step project act).calls = a.calls ++ new ∧
      ∀ c ∈ new, c.writer = none → a.Idle c.streamID) ∧
    (∀ n run, a.sequences.runs[n]? = some run →
      a.written n = run.writes n ∧ run.status.stepsApplied ≤ run.steps.length ∧
      ∀ bs, (∃ run', (Api.after project (as ++ bs)).sequences.runs[n]? = some run' ∧
          run'.steps = run.steps) ∧
        (run.running = false →
          (Api.after project (as ++ bs)).sequences.runs[n]? = some run ∧
          (Api.after project (as ++ bs)).callsOf (.sequence n) = a.callsOf (.sequence n))) ∧
    (∀ r ∈ a.releases, r.pc = .returned →
      ∀ bs, (Api.after project (as ++ bs)).calls = a.calls) ∧
    (a.sequences.kept.length ≤ 64 ∧
      ∀ n run, a.sequences.runs[n]? = some run → run.running = true → n ∈ a.sequences.kept) ∧
    (a.tests.kept.length ≤ 64 ∧
      ∀ n run, a.tests.runs[n]? = some run → run.running = true → n ∈ a.tests.kept) := by
  intro a
  have hinv : a.Inv := Api.inv_after project as
  refine ⟨hinv.exclusive, fun act ↦ ?_, fun n run hrun ↦ ?_, fun r hr hpc ↦ ?_, ?_, ?_⟩
  · obtain ⟨new, hnew, hauthorized⟩ := (hinv.moved project act).calls hinv.core
    refine ⟨new, hnew, fun c hc hdirect ↦ ?_⟩
    have hidle := hauthorized c hc
    rw [Api.Authorizes, hdirect] at hidle
    exact hidle.2
  · have hlogged := hinv.ledger.logged hrun
    exact ⟨hlogged.written_eq, hlogged.stepsApplied_le, fun bs ↦
      ⟨Api.steps_after hrun bs, fun hstopped ↦ Api.stopped_after hrun hstopped bs⟩⟩
  · have hsilent := hinv.released r hr
    rw [hpc] at hsilent
    exact Api.silent_after hsilent
  · exact ⟨hinv.core.bounded.sequences.length_le, fun n run ↦ hinv.core.bounded.sequences.mem_kept⟩
  · exact ⟨hinv.core.bounded.tests.length_le, fun n run ↦ hinv.core.bounded.tests.mem_kept⟩

end ProcessBus.Automation
