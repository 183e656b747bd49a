import ProcessBus.Automation.Test

/-!
# What a step of a test does

The steps of the loop of `executeTest` fall into a few kinds, however many places it has: most of
them only move on, and the others handle a frame, write a waveform, read a receipt or leave
(`Stepped`, `run_stepped`).  Every invariant of a test is proved by these kinds.
-/

namespace ProcessBus.Automation

open Go Goose Goose.Subscriber Sv.Publisher

/-- The places inside the loop. -/
def TestPc.looping : TestPc → Bool
  | .unwind | .reset | .resetSent | .resetWait | .revoke | .finishSequences | .closeAgent | .finish
  | .finished => false
  | _ => true

/-- The places where no write is pending. -/
def TestPc.idle : TestPc → Bool
  | .drain _ | .lateness | .ready | .fence | .write => true
  | _ => false

/-- The places on the way to a write. -/
def TestPc.stepping : TestPc → Bool
  | .lateness | .ready | .fence | .write => true
  | _ => false

namespace Test

variable {F : Type} [FloatMath F] {p : TestPlan F} {t : Test F} {e : Env}

/-- At `pc` no write is pending if none can be, and there is a step to write if one is about to
be. -/
def Ready (p : TestPlan F) (t : Test F) (pc : TestPc) : Prop :=
  (pc.idle = true → t.pending = none) ∧ (pc.stepping = true → t.next < p.waveforms.length)

/-- The kinds of steps inside the loop. -/
inductive Stepped (p : TestPlan F) (t : Test F) (e : Env) : Test F → Prop
  /-- Before the first iteration. -/
  | started (hpc : t.pc = .start) :
      Stepped p t e
        { t with deadline := t.now.add p.timeout, sendDeadline := t.now.add second, pc := .loop }
  /-- The worker goes to another place, or waits. -/
  | moved (pc : TestPc) (late : ℕ) (sendDeadline : Time) (hpc : pc.looping = true)
      (hstart : pc ≠ .start) (hready : t.Ready p pc) : Stepped p t e { t with pc, late, sendDeadline }
  /-- The worker leaves the loop without a verdict. -/
  | left (state : TestState) (reason : String) (hstate : state = t.state ∨ state = .cancelled) :
      Stepped p t e (t.exit state reason)
  /-- The worker finds its deadline passed. -/
  | expired (hpc : t.pc = .deadline) (hnow : t.deadline ≤ t.now) :
      Stepped p t e (t.exit .timeout "")
  /-- A frame is handled. -/
  | handled (pc : TestPc) (hpc : pc.looping = true) (hstart : pc ≠ .start) (hready : t.Ready p pc)
      (hpending : t.pending = none) (event : Observation) (rest : List Observation)
      (hframes : t.watch.channels.frames = event :: rest) :
      Stepped p t e ({ t with pc, watch := t.watch.take }.handle p event)
  /-- The next waveform is written. -/
  | wrote (hpc : t.pc = .write) (hpending : t.pending = none)
      (hnext : t.next < p.waveforms.length) : Stepped p t e (t.write p e)
  /-- A receipt is read. -/
  | acknowledged (calledAt : Time) (r : SendReceipt)
      (hpending : t.pending = some ⟨calledAt, some r⟩) : Stepped p t e (t.acknowledge p r)

/-- A step that waits. -/
theorem Stepped.waited (hpc : t.pc.looping = true) (hstart : t.pc ≠ .start)
    (hready : t.Ready p t.pc) : Stepped p t e t :=
  .moved t.pc t.late t.sendDeadline hpc hstart hready

theorem Stepped.went {pc : TestPc} (hpc : pc.looping = true) (hstart : pc ≠ .start)
    (hready : t.Ready p pc) : Stepped p t e { t with pc } :=
  .moved pc t.late t.sendDeadline hpc hstart hready

theorem Stepped.failed (reason : String) : Stepped p t e (t.fail reason) :=
  .left t.state reason (.inl rfl)

theorem Stepped.stopped (reason : String) : Stepped p t e (t.exit .cancelled reason) :=
  .left .cancelled reason (.inr rfl)

/-- Taking a frame is a step of the loop, or waits for one. -/
theorem receive_stepped {pc : TestPc} (hpc : pc.looping = true) (hstart : pc ≠ .start)
    (hstepping : pc.stepping = false) (hwaited : Stepped p t e t) (hpending : t.pending = none) :
    Stepped p t e (t.receive p pc) := by
  rw [receive]
  cases hframes : t.watch.channels.frames with
  | nil => exact hwaited
  | cons event rest =>
      have hready : t.Ready p pc := ⟨fun _ ↦ hpending, fun h ↦ by rw [hstepping] at h; cases h⟩
      exact .handled pc hpc hstart hready hpending event rest hframes

/-- The cases of the loop's `select`. -/
theorem select_stepped (hpc : t.pc = .wait) : Stepped p t e (t.select p e) := by
  have hwaited : Stepped p t e t := by
    apply Stepped.waited
    · rw [hpc]
      rfl
    · rw [hpc]
      nofun
    · rw [hpc]
      exact ⟨nofun, nofun⟩
  rw [select]
  split
  · split
    · exact .stopped ""
    · exact hwaited
  · split
    · exact .failed _
    · exact hwaited
  · split
    · exact .failed _
    · exact hwaited
  · split
    · next r hr =>
        obtain ⟨⟨calledAt, receipt⟩, hpending, rfl⟩ := Option.bind_eq_some_iff.mp hr
        exact .acknowledged calledAt r hpending
    · exact hwaited
  · split
    · next hpending =>
        exact receive_stepped rfl nofun rfl hwaited (Option.isNone_iff_eq_none.mp hpending)
    · exact hwaited
  · split
    · exact .failed _
    · split
      · exact .failed _
      · split
        · exact .failed _
        · exact .went rfl nofun ⟨nofun, nofun⟩
  · split
    · exact hwaited
    · split
      · exact .failed _
      · exact .went rfl nofun ⟨nofun, nofun⟩

/-- **The steps of the loop.** -/
theorem run_stepped (hloop : t.pc.looping = true) (hready : t.Ready p t.pc) :
    Stepped p t e (t.run p e) := by
  rw [run]
  split
  · next hpc => exact .started hpc
  · split
    · exact .stopped ""
    · exact .went rfl nofun ⟨nofun, nofun⟩
  · split
    · exact .failed _
    · split
      · exact .failed _
      · exact .went rfl nofun ⟨nofun, nofun⟩
  · split
    · next hpending =>
        exact .moved _ 0 t.sendDeadline rfl nofun
          ⟨fun _ ↦ Option.isNone_iff_eq_none.mp hpending, nofun⟩
    · exact .went rfl nofun ⟨nofun, nofun⟩
  · exact .went rfl nofun ⟨nofun, nofun⟩
  · next hpc =>
      have hstart : t.pc ≠ .start := by
        rw [hpc]
        nofun
      have hpending : t.pending = none := hready.1 (by rw [hpc]; rfl)
      exact receive_stepped rfl nofun rfl (.waited hloop hstart hready) hpending
  · next hpc =>
      split
      · next hnow =>
          rw [Bool.not_eq_true', Time.before_eq_false] at hnow
          exact .expired hpc hnow
      · exact .went rfl nofun ⟨nofun, nofun⟩
  · split
    · exact .failed _
    · exact .went rfl nofun ⟨nofun, nofun⟩
  · split
    · next hdue =>
        rw [Bool.and_eq_true, Bool.and_eq_true, Option.isNone_iff_eq_none, decide_eq_true_iff] at hdue
        split
        · exact .went rfl nofun ⟨fun _ ↦ hdue.1.1, fun _ ↦ hdue.1.2⟩
        · exact .went rfl nofun ⟨fun _ ↦ hdue.1.1, fun _ ↦ hdue.1.2⟩
    · exact .went rfl nofun ⟨nofun, nofun⟩
  · next hpc =>
      split
      · exact .failed _
      · rw [hpc] at hready
        exact .went rfl nofun ⟨fun _ ↦ hready.1 rfl, fun _ ↦ hready.2 rfl⟩
  · next hpc =>
      split
      · exact .failed _
      · rw [hpc] at hready
        exact .went rfl nofun ⟨fun _ ↦ hready.1 rfl, fun _ ↦ hready.2 rfl⟩
  · next hpc =>
      split
      · exact .stopped ""
      · rw [hpc] at hready
        exact .went rfl nofun ⟨fun _ ↦ hready.1 rfl, fun _ ↦ hready.2 rfl⟩
  · next hpc =>
      rw [hpc] at hready
      exact .wrote hpc (hready.1 rfl) (hready.2 rfl)
  · exact .moved _ t.late _ rfl nofun ⟨nofun, nofun⟩
  · next hpc => exact select_stepped hpc
  all_goals
    next hpc =>
      rw [hpc] at hloop
      cases hloop

/-! ## Frames -/

end Test

namespace TestPlan

variable {F : Type} (p : TestPlan F) (o : Observation)

/-- A frame that can be trusted. -/
def Fit : Prop := o.restart = false ∧ p.input.Clean o.pdu

/-- A frame that can be trusted and does not show the target level. -/
def Quiet : Prop := p.Fit o ∧ p.input.signal o.pdu = some !p.target

end TestPlan

namespace Test

variable {F : Type} [FloatMath F] {p : TestPlan F} {t : Test F} {event : Observation}

/-- What `handle` does with a frame while the input is not at the target level. -/
inductive Handled (p : TestPlan F) (t : Test F) (event : Observation) : Test F → Prop
  /-- The frame makes the measurement invalid. -/
  | rejected (lastInput inputDeadline : Time) (reason : String) :
      Handled p t event ({ t with lastInput, inputDeadline }.fail reason)
  /-- The response is late. -/
  | late (hlate : t.deadline < event.observedAt) : Handled p t event ((t.hear event).exit .timeout "")
  /-- The response is in time. -/
  | triggered (first start : SendReceipt) (hfit : p.Fit event)
      (hsignal : p.input.signal event.pdu = some p.target)
      (halive : event.observedAt ≤ t.inputDeadline) (hfirst : t.receipts.head? = some first)
      (hafter : first.sentAt ≤ event.observedAt) (hintime : event.observedAt ≤ t.deadline)
      (hstart : t.receipts[p.measureFromStep - 1]? = some start)
      (hmeasured : start.sentAt ≤ event.observedAt) :
      Handled p t event (((t.hear event).showResponse event start).exit .triggered "")
  /-- There is no response yet. -/
  | quiet (hquiet : p.Quiet event) : Handled p t event { t.hear event with previous := !p.target }

theorem respond_handled (hfit : p.Fit event) (hsignal : p.input.signal event.pdu = some p.target)
    (halive : event.observedAt ≤ t.inputDeadline) :
    Handled p t event ((t.hear event).respond p event) := by
  rw [respond]
  split
  · exact .rejected _ _ _
  · next hafter =>
      rw [Bool.or_eq_true, not_or, Bool.not_eq_true, Bool.not_eq_true, Time.before_eq_false] at hafter
      obtain ⟨hsome, hafter⟩ := hafter
      split
      · next hlate => exact .late (Time.after_iff.mp hlate)
      · next hintime =>
          rw [Bool.not_eq_true, Time.after_eq_false] at hintime
          split
          · exact .rejected _ _ _
          · next start hstart =>
              split
              · exact .rejected _ _ _
              · next hmeasured =>
                  rw [Bool.not_eq_true, Time.before_eq_false] at hmeasured
                  obtain ⟨first, rest, hreceipts⟩ := List.exists_cons_of_ne_nil
                    (List.isEmpty_eq_false_iff.mp hsome)
                  have hfirst : t.receipts.head? = some first := by
                    rw [show t.receipts = first :: rest from hreceipts]
                    rfl
                  have hafter' : first.sentAt ≤ event.observedAt := by
                    rw [firstReceipt, hreceipts] at hafter
                    exact hafter
                  exact .triggered first start hfit hsignal halive hfirst hafter' hintime hstart
                    hmeasured

theorem handle_handled (hprevious : t.previous = !p.target) : Handled p t event (t.handle p event) := by
  rw [handle]
  split
  · exact .rejected t.lastInput t.inputDeadline _
  · next hrestart =>
      rw [Bool.not_eq_true] at hrestart
      split
      · exact .rejected t.lastInput t.inputDeadline _
      · split
        · exact .rejected t.lastInput t.inputDeadline _
        · next value hvalue =>
            obtain ⟨hclean, hsignal⟩ := Input.value_eq_ok.mp hvalue
            split
            · exact .rejected t.lastInput t.inputDeadline _
            · next halive =>
                rw [Bool.not_eq_true, Time.after_eq_false] at halive
                split
                · next hedge =>
                    rw [hedge.2] at hsignal
                    exact respond_handled ⟨hrestart, hclean⟩ hsignal halive
                · next hlevel =>
                    have hquiet : value = !p.target := by
                      rw [hprevious] at hlevel
                      revert hlevel
                      cases value <;> cases p.target <;> decide
                    rw [hquiet] at hsignal ⊢
                    exact .quiet ⟨⟨hrestart, hclean⟩, hsignal⟩

end Test

end ProcessBus.Automation
