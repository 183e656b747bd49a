import ProcessBus.Automation.Response

/-!
# The reset of a test

The deferred function of `executeTest` leaves a test in one of three ways: nothing was ever written;
or the output was written once more, with the RMS of every touched channel at zero, and the frame was
confirmed; or that failed, and the worker goes through the places `revoke`, `finishSequences` and
`closeAgent` before it finishes.  `resetOK` tells the last from the other two (`Settled`), whatever
has happened in the loop before (`cleanup_after`).
-/

namespace ProcessBus.Automation

open Go Goose Goose.Subscriber Sv.Publisher

variable {F : Type}

/-- The places behind a failed reset. -/
def TestPc.failing : TestPc → Bool
  | .revoke | .finishSequences | .closeAgent => true
  | _ => false

namespace Test

/-- The worker has never called `ApplySVTracked`. -/
def NeverWrote (t : Test F) : Prop := t.writes = [] ∧ t.resetWrite = none

/-- The last write was that of the last step with the RMS of the touched channels at zero, and a
receipt without error confirmed it. -/
def Restored [FloatMath F] (t : Test F) (touched : Fin Sv.numChannels → Bool) : Prop :=
  ∃ w r, t.writes.getLast? = some w ∧ t.resetWrite = some ⟨w.output.reset touched, some r⟩ ∧
    r.err = none

/-- `resetOK` is as it should be. -/
def Settled [FloatMath F] (p : TestPlan F) (t : Test F) : Prop :=
  t.resetOK = true ↔ t.NeverWrote ∨ t.Restored p.touched

/-! ## The invariant of the deferred function -/

/-- Before the reset: every write was that of a step, and `current` is the last of them. -/
structure Writing (t : Test F) : Prop where
  resetOK_eq : t.resetOK = false
  resetWrite_eq : t.resetWrite = none
  wrote_iff : t.wrote = true ↔ t.writes ≠ []
  last_eq : ∀ w, t.writes.getLast? = some w → w.output = t.current

/-- The status does not say yet that the test is over. -/
structure Open (t : Test F) : Prop where
  status_eq : t.status.state = .running
  phase_ne : t.status.phase ≠ .finished

/-- A write is pending whose frame, if it was sent, was stamped after the call. -/
def Tracked (t : Test F) : Prop :=
  ∃ calledAt receipt, t.pending = some ⟨calledAt, receipt⟩ ∧ Time.zero < calledAt ∧
    ∀ r, receipt = some r → r.err = none → calledAt ≤ r.sentAt

/-- The reset was written and is not confirmed. -/
def Unconfirmed [FloatMath F] (t : Test F) : Prop :=
  t.writes ≠ [] ∧ t.resetOK = false ∧
    ∃ w receipt, t.resetWrite = some ⟨w, receipt⟩ ∧ ∀ r, receipt = some r → r.err ≠ none

/-- A worker in its loop, in the deferred function or after it. -/
inductive Cleanup [FloatMath F] (p : TestPlan F) (t : Test F) : Prop
  | writing (hpc : t.pc.looping = true) (hopen : t.Open) (hw : t.Writing)
  | unwinding (hpc : t.pc = .unwind ∨ t.pc = .reset) (hstate : t.state ≠ .running) (hopen : t.Open)
      (hw : t.Writing)
  | resetting (hpc : t.pc = .resetSent ∨ t.pc = .resetWait) (hstate : t.state ≠ .running)
      (hopen : t.Open) (hok : t.resetOK = false) (w : Write F) (hlast : t.writes.getLast? = some w)
      (hreset : t.resetWrite = some ⟨w.output.reset p.touched, none⟩) (htracked : t.Tracked)
  | failing (hpc : t.pc.failing = true) (hstate : t.state ≠ .running) (hopen : t.Open)
      (hfailed : t.Unconfirmed)
  | finishing (hpc : t.pc = .finish) (hstate : t.state ≠ .running) (hopen : t.Open)
      (hsettled : t.Settled p)
  | finished (hpc : t.pc = .finished) (hstatus : t.status.state ≠ .running)
      (hphase : t.status.phase = .finished) (hconfirmed : t.status.resetConfirmed = t.resetOK)
      (hsettled : t.Settled p)

variable [FloatMath F] {p : TestPlan F} {t : Test F}

/-- A reset that is not confirmed is none of the good ways. -/
theorem Unconfirmed.settled (h : t.Unconfirmed) : t.Settled p := by
  obtain ⟨hwrites, hok, w, receipt, hreset, herr⟩ := h
  refine ⟨fun h ↦ ?_, ?_⟩
  · rw [hok] at h
    cases h
  · rintro (⟨hnone, -⟩ | ⟨w', r, -, hreset', hnone⟩)
    · exact absurd hnone hwrites
    · rw [hreset] at hreset'
      cases hreset'
      exact absurd hnone (herr r rfl)

/-! ## Steps -/

/-- What the reset depends on is as before. -/
structure SameCleanup (t t' : Test F) : Prop where
  pc_eq : t'.pc = t.pc
  state_eq : t'.state = t.state
  status_eq : t'.status = t.status
  resetOK_eq : t'.resetOK = t.resetOK
  writes_eq : t'.writes = t.writes
  resetWrite_eq : t'.resetWrite = t.resetWrite
  wrote_eq : t'.wrote = t.wrote
  current_eq : t'.current = t.current

omit [FloatMath F] in
theorem Open.congr {t' : Test F} (h : t.Open) (hstatus : t'.status = t.status) : t'.Open :=
  ⟨hstatus ▸ h.status_eq, hstatus ▸ h.phase_ne⟩

omit [FloatMath F] in
theorem Writing.congr {t' : Test F} (h : t.Writing) (hsame : SameCleanup t t') : t'.Writing where
  resetOK_eq := hsame.resetOK_eq.trans h.resetOK_eq
  resetWrite_eq := hsame.resetWrite_eq.trans h.resetWrite_eq
  wrote_iff := by
    rw [hsame.wrote_eq, hsame.writes_eq]
    exact h.wrote_iff
  last_eq w hw := by
    rw [hsame.writes_eq] at hw
    rw [hsame.current_eq]
    exact h.last_eq w hw

theorem Settled.congr {t' : Test F} (h : t.Settled p) (hsame : SameCleanup t t') :
    t'.Settled p := by
  rw [Settled, NeverWrote, Restored, hsame.resetOK_eq, hsame.writes_eq, hsame.resetWrite_eq]
  exact h

theorem Cleanup.congr {t' : Test F} (h : Cleanup p t) (hsame : SameCleanup t t')
    (htracked : t.Tracked → t'.Tracked) : Cleanup p t' := by
  have hpc := hsame.pc_eq
  have hstate := hsame.state_eq
  have hwrites := hsame.writes_eq
  have hreset := hsame.resetWrite_eq
  have hok := hsame.resetOK_eq
  cases h with
  | writing hloop hopen hw =>
      exact .writing (hpc ▸ hloop) (hopen.congr hsame.status_eq) (hw.congr hsame)
  | unwinding hat hleft hopen hw =>
      exact .unwinding (hpc ▸ hat) (hstate ▸ hleft) (hopen.congr hsame.status_eq) (hw.congr hsame)
  | resetting hat hleft hopen hfalse w hlast hsent hpending =>
      exact .resetting (hpc ▸ hat) (hstate ▸ hleft) (hopen.congr hsame.status_eq) (hok ▸ hfalse) w
        (hwrites ▸ hlast) (hreset ▸ hsent) (htracked hpending)
  | failing hat hleft hopen hfailed =>
      refine .failing (hpc ▸ hat) (hstate ▸ hleft) (hopen.congr hsame.status_eq) ?_
      rw [Unconfirmed, hwrites, hok, hreset]
      exact hfailed
  | finishing hat hleft hopen hsettled =>
      exact .finishing (hpc ▸ hat) (hstate ▸ hleft) (hopen.congr hsame.status_eq)
        (hsettled.congr hsame)
  | finished hat hstatus hphase hconfirmed hsettled =>
      have heq := hsame.status_eq
      refine .finished (hpc ▸ hat) (heq ▸ hstatus) (heq ▸ hphase) ?_ (hsettled.congr hsame)
      rw [heq, hok]
      exact hconfirmed

omit [FloatMath F] in
/-- The receipt of a write does not change what was written. -/
theorem getLast?_confirm {writes : List (Write F)} {r : SendReceipt} {w : Write F}
    (hw : (confirm writes r).getLast? = some w) :
    ∃ w', writes.getLast? = some w' ∧ w.output = w'.output := by
  rw [confirm, List.getLast?_eq_getElem?, List.length_modify, List.getElem?_modify_eq,
    Option.map_eq_map, Option.map_eq_some_iff] at hw
  obtain ⟨w', hw', rfl⟩ := hw
  exact ⟨w', by rw [List.getLast?_eq_getElem?, hw'], rfl⟩

omit [FloatMath F] in
theorem Writing.noteReceipt (h : t.Writing) (r : SendReceipt) : (t.noteReceipt r).Writing where
  resetOK_eq := h.resetOK_eq
  resetWrite_eq := h.resetWrite_eq
  wrote_iff := by
    refine h.wrote_iff.trans ?_
    change t.writes ≠ [] ↔ confirm t.writes r ≠ []
    rw [← List.length_pos_iff, ← List.length_pos_iff, confirm, List.length_modify]
  last_eq w hw := by
    obtain ⟨w', hw', heq⟩ := getLast?_confirm hw
    exact heq.trans (h.last_eq w' hw')

omit [FloatMath F] in
theorem Writing.apply (h : t.Writing) : (t.apply p).Writing where
  resetOK_eq := h.resetOK_eq
  resetWrite_eq := h.resetWrite_eq
  wrote_iff := iff_of_true rfl (List.concat_ne_nil _ _)
  last_eq w hw := by
    change (t.writes ++ [_]).getLast? = some w at hw
    rw [List.getLast?_concat] at hw
    cases hw
    rfl

/-- A step of the loop. -/
theorem Cleanup.stepped {e : Env} {t' : Test F} (hh : Hearing p t) (hopen : t.Open)
    (hw : t.Writing) (h : Stepped p t e t') : Cleanup p t' := by
  have hstate : t.state ≠ .running := by
    rw [hh.state_eq]
    decide
  cases h with
  | started hpc => exact .writing rfl ⟨hopen.1, hopen.2⟩ ⟨hw.1, hw.2, hw.3, hw.4⟩
  | moved pc late sendDeadline hpc hstart hready =>
      exact .writing hpc ⟨hopen.1, hopen.2⟩ ⟨hw.1, hw.2, hw.3, hw.4⟩
  | left state reason hleft =>
      refine .unwinding (.inl rfl) ?_ ⟨hopen.1, hopen.2⟩ ⟨hw.1, hw.2, hw.3, hw.4⟩
      rcases hleft with rfl | rfl
      · exact hstate
      · rintro ⟨⟩
  | expired =>
      exact .unwinding (.inl rfl) (by rintro ⟨⟩) ⟨hopen.1, hopen.2⟩ ⟨hw.1, hw.2, hw.3, hw.4⟩
  | handled pc hpc hstart hready hpending event rest hframes =>
      have hhandled : Handled p { t with pc, watch := t.watch.take } event
          ({ t with pc, watch := t.watch.take }.handle p event) := handle_handled hh.previous_eq
      generalize { t with pc, watch := t.watch.take }.handle p event = t' at hhandled
      cases hhandled with
      | rejected =>
          exact .unwinding (.inl rfl) hstate ⟨hopen.1, hopen.2⟩ ⟨hw.1, hw.2, hw.3, hw.4⟩
      | late =>
          exact .unwinding (.inl rfl) (by rintro ⟨⟩) ⟨hopen.1, hopen.2⟩ ⟨hw.1, hw.2, hw.3, hw.4⟩
      | triggered =>
          exact .unwinding (.inl rfl) (by rintro ⟨⟩) ⟨hopen.1, hopen.2⟩ ⟨hw.1, hw.2, hw.3, hw.4⟩
      | quiet => exact .writing hpc ⟨hopen.1, hopen.2⟩ ⟨hw.1, hw.2, hw.3, hw.4⟩
  | wrote hpc hpending hnext =>
      have hw' := hw.apply (p := p)
      rw [write]
      split
      · exact .unwinding (.inl rfl) hstate ⟨hopen.1, hopen.2⟩ ⟨hw'.1, hw'.2, hw'.3, hw'.4⟩
      · exact .writing rfl ⟨hopen.1, hopen.2⟩ ⟨hw'.1, hw'.2, hw'.3, hw'.4⟩
  | acknowledged calledAt r hpending =>
      have hw' := hw.noteReceipt r
      rw [acknowledge]
      split
      · exact .unwinding (.inl rfl) hstate ⟨hopen.1, hopen.2⟩ ⟨hw'.1, hw'.2, hw'.3, hw'.4⟩
      · dsimp only
        split
        · exact .unwinding (.inl rfl) hstate ⟨hopen.1, hopen.2⟩ ⟨hw'.1, hw'.2, hw'.3, hw'.4⟩
        · exact .writing rfl ⟨hopen.1, by rintro ⟨⟩⟩ ⟨hw'.1, hw'.2, hw'.3, hw'.4⟩

/-- The first part of the deferred function: it writes the reset if anything was written. -/
theorem Cleanup.reset {e : Env} (hnow : Time.zero < t.now) (hstate : t.state ≠ .running)
    (hopen : t.Open) (hw : t.Writing) : Cleanup p (t.reset p e) := by
  rw [Test.reset]
  split
  · next hwrote =>
      obtain ⟨w, hlast⟩ : ∃ w, t.writes.getLast? = some w :=
        ⟨_, List.getLast?_eq_some_getLast (hw.wrote_iff.mp hwrote)⟩
      split
      · refine .failing rfl hstate ⟨hopen.1, hopen.2⟩ ⟨hw.wrote_iff.mp hwrote, hw.resetOK_eq, ?_⟩
        exact ⟨_, none, rfl, fun r hr ↦ by cases hr⟩
      · refine .resetting (.inl rfl) hstate ⟨hopen.1, hopen.2⟩ hw.resetOK_eq w hlast ?_ ?_
        · rw [hw.last_eq w hlast]
          rfl
        · exact ⟨t.now, none, rfl, hnow, fun r hr ↦ by cases hr⟩
  · next hwrote =>
      refine .finishing rfl hstate ⟨hopen.1, hopen.2⟩ (iff_of_true rfl (.inl ⟨?_, hw.resetWrite_eq⟩))
      by_contra hne
      exact hwrote (hw.wrote_iff.mpr hne)

/-- The wait for the receipt of the reset. -/
theorem Cleanup.awaitReset {e : Env} (hpc : t.pc = .resetWait) (hstate : t.state ≠ .running)
    (hopen : t.Open) (hok : t.resetOK = false) {w : Write F} (hlast : t.writes.getLast? = some w)
    (hreset : t.resetWrite = some ⟨w.output.reset p.touched, none⟩) (htracked : t.Tracked) :
    Cleanup p (t.awaitReset e) := by
  have hwaits : Cleanup p t := .resetting (.inr hpc) hstate hopen hok w hlast hreset htracked
  have hwrites : t.writes ≠ [] := by
    intro hnil
    rw [hnil] at hlast
    cases hlast
  rw [Test.awaitReset]
  split
  · split
    · next r hr =>
        obtain ⟨calledAt, receipt, hpending, hzero, hstamp⟩ := htracked
        rw [hpending] at hr
        obtain rfl : receipt = some r := hr
        have hnoted : (t.noteReset r).resetWrite = some ⟨w.output.reset p.touched, some r⟩ := by
          rw [noteReset, hreset]
          rfl
        rw [acknowledgeReset]
        split
        · next err herr =>
            refine .failing rfl hstate ⟨hopen.1, hopen.2⟩ ⟨hwrites, hok, _, some r, hnoted, ?_⟩
            rintro x hx
            cases hx
            rw [herr]
            exact Option.some_ne_none err
        · next herr =>
            split
            · next hisZero =>
                -- A frame is stamped after the call, and so never with the zero time.
                have hle := hstamp r rfl herr
                have hns := Time.le_def.mp (hzero.le.trans hle)
                rw [Time.isZero, beq_iff_eq] at hisZero
                have hlt : Time.zero < r.sentAt := hzero.trans_le hle
                have heq : r.sentAt = Time.zero := Time.ext hisZero
                exact absurd heq hlt.ne'
            · refine .finishing rfl hstate ⟨hopen.1, hopen.2⟩ (iff_of_true rfl (.inr ?_))
              exact ⟨w, r, hlast, hnoted, herr⟩
    · exact hwaits
  · split
    · exact hwaits
    · refine .failing rfl hstate ⟨hopen.1, hopen.2⟩ ⟨hwrites, hok, _, none, hreset, ?_⟩
      exact fun r hr ↦ by cases hr
  · exact hwaits

/-- A step of the worker. -/
theorem Cleanup.run {e : Env} (hcourse : Course p t) (hnow : Time.zero < t.now)
    (h : Cleanup p t) : Cleanup p (t.run p e) := by
  cases h with
  | writing hpc hopen hw =>
      cases hcourse with
      | listening hloop hh hs => exact .stepped hh hopen hw (run_stepped hloop hs.ready)
      | left hloop =>
          rw [hpc] at hloop
          cases hloop
  | unwinding hpc hstate hopen hw =>
      rcases hpc with hpc | hpc
      · simp only [Test.run, hpc]
        exact .unwinding (.inr rfl) hstate ⟨hopen.1, by rintro ⟨⟩⟩ ⟨hw.1, hw.2, hw.3, hw.4⟩
      · simp only [Test.run, hpc]
        exact .reset hnow hstate hopen hw
  | resetting hpc hstate hopen hok w hlast hreset htracked =>
      rcases hpc with hpc | hpc
      · simp only [Test.run, hpc]
        exact .resetting (.inr rfl) hstate ⟨hopen.1, hopen.2⟩ hok w hlast hreset htracked
      · simp only [Test.run, hpc]
        exact .awaitReset hpc hstate hopen hok hlast hreset htracked
  | failing hpc hstate hopen hfailed =>
      cases hat : t.pc with
      | revoke | finishSequences =>
          simp only [Test.run, hat]
          exact .failing rfl hstate ⟨hopen.1, hopen.2⟩ hfailed
      | closeAgent =>
          simp only [Test.run, hat]
          exact .finishing rfl (by rintro ⟨⟩) ⟨hopen.1, hopen.2⟩ hfailed.settled
      | _ =>
          rw [hat] at hpc
          cases hpc
  | finishing hpc hstate hopen hsettled =>
      simp only [Test.run, hpc]
      exact .finished rfl hstate rfl rfl hsettled
  | finished hpc hstatus hphase hconfirmed hsettled =>
      simp only [Test.run, hpc]
      exact .finished hpc hstatus hphase hconfirmed hsettled

/-- A step of the worker, or of what is around it. -/
theorem Cleanup.step {a : TestAction} (hcourse : Course p t) (hnow : Time.zero < t.now)
    (h : Cleanup p t) : Cleanup p (t.step p a) := by
  cases a with
  | clock now =>
      rw [Test.step]
      split
      · exact h.congr ⟨rfl, rfl, rfl, rfl, rfl, rfl, rfl, rfl⟩ id
      · exact h
  | frame a => exact h.congr ⟨rfl, rfl, rfl, rfl, rfl, rfl, rfl, rfl⟩ id
  | closeWatches => exact h.congr ⟨rfl, rfl, rfl, rfl, rfl, rfl, rfl, rfl⟩ id
  | receipt r =>
      rw [Test.step, Test.complete]
      split
      · next calledAt hpending =>
          split
          · exact h
          · next hstamp =>
              refine h.congr ⟨rfl, rfl, rfl, rfl, rfl, rfl, rfl, rfl⟩ fun htracked ↦ ?_
              obtain ⟨_, _, heq, hzero, -⟩ := htracked
              rw [hpending] at heq
              cases heq
              refine ⟨calledAt, some r, rfl, hzero, ?_⟩
              rintro x hx herr
              cases hx
              rw [not_and, not_not] at hstamp
              exact (hstamp (by rw [herr]; rfl)).1
      · exact h
  | cancel => exact h.congr ⟨rfl, rfl, rfl, rfl, rfl, rfl, rfl, rfl⟩ id
  | run e => exact h.run hcourse hnow

/-! ## Whole runs -/

theorem now_handle (event : Observation) : (t.handle p event).now = t.now := by
  rw [handle]
  repeat' split
  all_goals try rfl
  rw [respond]
  repeat' split
  all_goals rfl

theorem now_receive (pc : TestPc) : (t.receive p pc).now = t.now := by
  rw [receive]
  split
  · rfl
  · exact now_handle _

theorem now_acknowledge (r : SendReceipt) : (t.acknowledge p r).now = t.now := by
  rw [acknowledge]
  split
  · rfl
  · dsimp only
    split <;> rfl

theorem now_select (e : Env) : (t.select p e).now = t.now := by
  rw [select]
  repeat' split
  all_goals try rfl
  · exact now_acknowledge _
  · exact now_receive _

theorem now_awaitReset (e : Env) : (t.awaitReset e).now = t.now := by
  rw [Test.awaitReset]
  repeat' split
  all_goals try rfl
  rw [acknowledgeReset]
  repeat' split
  all_goals rfl

/-- The worker only reads the clock. -/
theorem now_run (e : Env) : (t.run p e).now = t.now := by
  cases hpc : t.pc with
  | drain n =>
      simp only [Test.run, hpc]
      cases n with
      | zero => rfl
      | succ n => exact now_receive _
  | write =>
      simp only [Test.run, hpc, write]
      split <;> rfl
  | wait =>
      simp only [Test.run, hpc]
      exact now_select e
  | reset =>
      simp only [Test.run, hpc, Test.reset]
      repeat' split
      all_goals rfl
  | resetWait =>
      simp only [Test.run, hpc]
      exact now_awaitReset e
  | _ =>
      simp only [Test.run, hpc]
      repeat' split
      all_goals rfl

/-- The clock does not go back. -/
theorem now_step (p : TestPlan F) (t : Test F) (a : TestAction) : t.now ≤ (t.step p a).now := by
  cases a with
  | clock now =>
      rw [Test.step]
      split
      · next hnow => exact hnow
      · exact le_rfl
  | receipt r =>
      rw [Test.step, Test.complete]
      repeat' split
      all_goals exact le_rfl
  | run e => exact (now_run e).ge
  | frame | closeWatches | cancel => exact le_rfl

/-- **The invariant of the deferred function**, in every test run. -/
theorem cleanup_after (p : TestPlan F) (received : List Watched.Action) {now : Time}
    (hnow : Time.zero < now) (as : List TestAction) : Cleanup p (after p received now as) := by
  have hnew : Cleanup p (Test.new p (received.foldl Watched.step .new) now) :=
    .writing rfl ⟨rfl, by rintro ⟨⟩⟩ ⟨rfl, rfl, by simp [Test.new], by simp [Test.new]⟩
  have hrun := Lib.inv_run_of_step
    (I := fun t ↦ Course p t ∧ Time.zero < t.now ∧ Cleanup p t)
    (fun t a h ↦ ⟨h.1.step a, h.2.1.trans_le (now_step p t a), h.2.2.step h.1 h.2.1⟩)
    ⟨.new p _ now, hnow, hnew⟩ as
  exact hrun.2.2

end Test

end ProcessBus.Automation
