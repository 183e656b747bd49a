import ProcessBus.Automation.Response

/-!
# Queued input and the timeout

The loop of `executeTest` reads the length of its queue and handles that many frames before it looks
at its deadline, so that "queued input" is preferred "over another stimulus or a timeout".  It does
so only while no write is pending, though, and it looks at the deadline in any case.

A test is `Prompt` as long as it does not find its deadline passed while a write is pending or after
a frame has been queued behind those it counted.  In a prompt run a response that is in the queue in
time is never lost to a timeout (`timeout_sound`); with a pending write it can be
(`response_lost_to_timeout`).
-/

namespace ProcessBus.Automation

open Go Goose Goose.Subscriber Sv.Publisher

variable {F : Type}

namespace Test

/-! ## Counting the queue -/

/-- What the loop knows about the length of the queue. -/
def Counted (t : Test F) : Prop :=
  match t.pc with
  | .drain n => t.watch.channels.frames.length = n + t.late
  | .deadline => t.pending = none → t.watch.channels.frames.length = t.late
  | _ => True

variable {p : TestPlan F} {t : Test F}

theorem counted_of_unwind (h : t.pc = .unwind) : t.Counted := by
  rw [Counted, h]
  trivial

/-- Another watch with the same queue. -/
theorem Counted.rewatch (h : t.Counted) {watch : Watch}
    (hframes : watch.channels.frames = t.watch.channels.frames) : { t with watch }.Counted := by
  rw [Counted] at h ⊢
  change match t.pc with
    | .drain n => watch.channels.frames.length = n + t.late
    | .deadline => t.pending = none → watch.channels.frames.length = t.late
    | _ => True
  rw [hframes]
  exact h

theorem frames_deregister (c : Watch) (n : ℕ) :
    (c.deregister n).channels.frames = c.channels.frames := by
  rw [Watch.deregister]
  split <;> rfl

/-- An offer adds to the queue or leaves it. -/
theorem frames_offer (c : Watch) (name : String) (o : Observation) :
    ∃ more, (c.offer name o).channels.frames = c.channels.frames ++ more := by
  rw [Watch.offer]
  split
  · rw [WatchChannels.offer]
    split
    · exact ⟨[], (List.append_nil _).symm⟩
    · split
      · exact ⟨[o], rfl⟩
      · exact ⟨[], (List.append_nil _).symm⟩
  · exact ⟨[], (List.append_nil _).symm⟩

theorem Counted.accept (h : t.Counted) (a : Accepted) : (t.accept a).Counted := by
  obtain ⟨more, hmore⟩ := frames_offer t.watch a.name a.observation
  have hlen : (t.accept a).watch.channels.frames.length =
      t.watch.channels.frames.length + more.length := by
    change (t.watch.offer a.name a.observation).channels.frames.length = _
    rw [hmore, List.length_append]
  have hlate : (t.accept a).late = t.late + more.length := by
    change t.late + ((t.watch.offer a.name a.observation).channels.frames.length - _) = _
    rw [hmore, List.length_append, Nat.add_sub_cancel_left]
  rw [Counted] at h ⊢
  rw [hlen, hlate]
  change match t.pc with
    | .drain n => _ = _
    | .deadline => t.pending = none → _ = _
    | _ => True
  split
  · next hpc =>
      rw [hpc] at h
      dsimp only at h
      omega
  · next hpc =>
      rw [hpc] at h
      intro hpending
      have := h hpending
      omega
  · trivial

theorem Counted.complete (h : t.Counted) (r : SendReceipt) : (t.complete r).Counted := by
  rw [Test.complete]
  split
  · split
    · exact h
    · rw [Counted] at h ⊢
      change match t.pc with
        | .drain n => t.watch.channels.frames.length = n + t.late
        | .deadline => _ → _
        | _ => True
      split
      · next hpc =>
          rw [hpc] at h
          exact h
      · rintro ⟨⟩
      · trivial
  · exact h

variable [FloatMath F]

/-- `handle` leaves the loop or stays where it is. -/
theorem handle_pc (event : Observation) :
    (t.handle p event).pc = .unwind ∨
      (t.handle p event).pc = t.pc ∧ (t.handle p event).late = t.late := by
  rw [handle]
  repeat' split
  all_goals try exact .inl rfl
  · rw [respond]
    repeat' split
    all_goals exact .inl rfl
  · exact .inr ⟨rfl, rfl⟩

/-- A frame that is taken from the queue is one fewer to come. -/
theorem Counted.receive_drain {n : ℕ} (h : t.Counted) (hpc : t.pc = .drain (n + 1)) :
    (t.receive p (.drain n)).Counted := by
  have hlen := h
  rw [Counted, hpc] at hlen
  rw [receive]
  cases hframes : t.watch.channels.frames with
  | nil => exact h
  | cons event rest =>
      rcases handle_pc (p := p) (t := { t with pc := .drain n, watch := t.watch.take }) event with
        hout | ⟨hpc', hlate⟩
      · exact counted_of_unwind hout
      · rw [Counted, hpc', hlate, (handle_watch event).1]
        rw [hframes] at hlen
        change t.watch.take.channels.frames.length = n + t.late
        rw [Watch.take, hframes]
        simp only [List.length_cons] at hlen
        change rest.length = n + t.late
        omega

theorem Counted.receive_loop (h : t.Counted) : (t.receive p .loop).Counted := by
  rw [receive]
  split
  · exact h
  · next event rest hframes =>
      rcases handle_pc (p := p) (t := { t with pc := .loop, watch := t.watch.take }) event with
        hout | ⟨hpc', -⟩
      · exact counted_of_unwind hout
      · rw [Counted, hpc']
        trivial

theorem Counted.select {e : Env} (h : t.Counted) : (t.select p e).Counted := by
  rw [Test.select]
  split
  · split
    · trivial
    · exact h
  · split
    · trivial
    · exact h
  · split
    · trivial
    · exact h
  · split
    · rw [acknowledge]
      split
      · trivial
      · dsimp only
        split <;> trivial
    · exact h
  · split
    · exact h.receive_loop
    · exact h
  · repeat' split
    all_goals trivial
  · split
    · exact h
    · split <;> trivial

theorem Counted.run {e : Env} (h : t.Counted) : (t.run p e).Counted := by
  cases hpc : t.pc with
  | length =>
      simp only [Test.run, hpc]
      split
      · exact (Nat.add_zero _).symm
      · next hpending =>
          intro hnone
          rw [show t.pending = none from hnone] at hpending
          exact absurd rfl hpending
  | drain n =>
      cases n with
      | zero =>
          simp only [Test.run, hpc]
          rw [Counted, hpc] at h
          intro _
          exact h.trans (Nat.zero_add _)
      | succ n =>
          simp only [Test.run, hpc]
          exact h.receive_drain hpc
  | wait =>
      simp only [Test.run, hpc]
      exact h.select
  | write =>
      simp only [Test.run, hpc, write]
      split <;> trivial
  | due =>
      simp only [Test.run, hpc]
      split
      · split <;> trivial
      · trivial
  | reset =>
      simp only [Test.run, hpc, reset]
      repeat' split
      all_goals trivial
  | resetWait =>
      simp only [Test.run, hpc, awaitReset, acknowledgeReset]
      repeat' split
      all_goals first | exact h | trivial
  | loop | poll | deadline | expiry | lateness | ready | fence =>
      simp only [Test.run, hpc]
      repeat' split
      all_goals trivial
  | start | sent | unwind | resetSent | revoke | finishSequences | closeAgent | finish =>
      simp only [Test.run, hpc]
      trivial
  | finished =>
      simp only [Test.run, hpc]
      exact h

theorem Counted.step (h : t.Counted) (a : TestAction) : (t.step p a).Counted := by
  cases a with
  | clock now =>
      rw [Test.step]
      split
      · exact h
      · exact h
  | frame a => exact h.accept a
  | closeWatches => exact h.rewatch (frames_deregister t.watch _)
  | receipt r => exact h.complete r
  | cancel => exact h
  | run e => exact h.run

/-! ## A response in the queue -/

/-- The queue holds the frame, and nothing ahead of it is later. -/
def InQueue (t : Test F) (o : Observation) : Prop :=
  ∃ ahead behind, t.watch.channels.frames = ahead ++ o :: behind ∧
    ∀ x ∈ ahead, x.observedAt ≤ o.observedAt

/-- The receipt of step `k` has been issued, whether the worker has read it or not. -/
def Issued (t : Test F) (k : ℕ) (r : SendReceipt) : Prop :=
  t.receipts[k - 1]? = some r ∨ t.next + 1 = k ∧ t.pending.bind (·.receipt) = some r

/-- The queue holds a valid frame at the target level, received between the receipt of
`measure_from_step` and the deadline. -/
structure HasResponse (t : Test F) (p : TestPlan F) (o : Observation) : Prop where
  queued : t.InQueue o
  fit : p.Fit o
  signal_eq : p.input.signal o.pdu = some p.target
  measured : ∃ start, t.Issued p.measureFromStep start ∧ start.sentAt ≤ o.observedAt
  in_time : o.observedAt ≤ t.deadline

/-- The worker does not find its deadline passed while a write is pending or after a frame has been
queued behind those that it counted. -/
def Prompt (t : Test F) : TestAction → Prop
  | .run _ => t.pc = .deadline → t.deadline ≤ t.now → t.pending = none ∧ t.late = 0
  | _ => True

/-- A response in time is in the queue, or the worker has judged without a timeout. -/
inductive Held (o : Observation) (t : Test F) : Prop
  | waiting (hloop : t.pc.looping = true) (hstart : t.pc ≠ .start) (hqueue : t.InQueue o)
      (htime : o.observedAt ≤ t.deadline)
  | judged (hloop : t.pc.looping = false) (hstate : t.state ≠ .timeout)
      (hstatus : t.status.state ≠ .timeout)

variable {o : Observation}

omit [FloatMath F] in
/-- The first frame of the queue is the response, or the response is behind it. -/
theorem InQueue.tail {event : Observation} {rest : List Observation} (h : t.InQueue o)
    (hframes : t.watch.channels.frames = event :: rest) :
    event = o ∨ event.observedAt ≤ o.observedAt ∧
      ∃ ahead behind, rest = ahead ++ o :: behind ∧ ∀ x ∈ ahead, x.observedAt ≤ o.observedAt := by
  obtain ⟨ahead, behind, hqueue, hahead⟩ := h
  rw [hframes] at hqueue
  cases ahead with
  | nil =>
      rw [List.nil_append, List.cons.injEq] at hqueue
      exact .inl hqueue.1
  | cons x ahead =>
      rw [List.cons_append, List.cons.injEq] at hqueue
      obtain ⟨rfl, rfl⟩ := hqueue
      exact .inr ⟨hahead event List.mem_cons_self, ahead, behind, rfl,
        fun x hx ↦ hahead x (List.mem_cons_of_mem event hx)⟩

/-- The response is handled, or a frame ahead of it. -/
theorem Held.handled (hh : Hearing p t) (hsignal : p.input.signal o.pdu = some p.target)
    (hqueue : t.InQueue o) (htime : o.observedAt ≤ t.deadline) {pc : TestPc}
    (hpc : pc.looping = true) (hstart : pc ≠ .start) {event : Observation}
    {rest : List Observation} (hframes : t.watch.channels.frames = event :: rest) :
    Held o ({ t with pc, watch := t.watch.take }.handle p event) := by
  have hhandled : Handled p { t with pc, watch := t.watch.take } event
      ({ t with pc, watch := t.watch.take }.handle p event) := handle_handled hh.previous_eq
  have hrunning : t.status.state ≠ .timeout := by
    rw [hh.status_eq]
    nofun
  have htail := hqueue.tail hframes
  generalize { t with pc, watch := t.watch.take }.handle p event = t' at hhandled
  cases hhandled with
  | rejected =>
      refine .judged rfl ?_ hrunning
      change t.state ≠ .timeout
      rw [hh.state_eq]
      nofun
  | late hlate =>
      change t.deadline < event.observedAt at hlate
      exfalso
      rcases htail with rfl | ⟨hle, -⟩
      · exact absurd hlate (not_lt.mpr htime)
      · exact absurd hlate (not_lt.mpr (hle.trans htime))
  | triggered => exact .judged rfl nofun hrunning
  | quiet hquiet =>
      rcases htail with rfl | ⟨-, ahead, behind, hrest, hahead⟩
      · have hlevel := hquiet.2.symm.trans hsignal
        simp at hlevel
      · refine .waiting hpc hstart ⟨ahead, behind, ?_, hahead⟩ htime
        change t.watch.take.channels.frames = _
        rw [Watch.take, hframes]
        exact hrest

/-- A step of the worker. -/
theorem Held.run {e : Env} (hcourse : Course p t) (hcounted : t.Counted)
    (hsignal : p.input.signal o.pdu = some p.target) (hprompt : t.Prompt (.run e))
    (h : Held o t) : Held o (t.run p e) := by
  cases h with
  | judged hloop hstate hstatus =>
      have hunwound : Unwound t (t.run p e) := run_unwound hloop
      refine .judged hunwound.looping_eq ?_ ?_
      · rcases hunwound.state_eq with hsame | hfailed
        · rw [hsame]
          exact hstate
        · rw [hfailed]
          rintro ⟨⟩
      · rcases hunwound.status_eq with hsame | hpublished
        · rw [hsame]
          exact hstatus
        · rw [hpublished]
          exact hstate
  | waiting hloop hstart hqueue htime =>
      cases hcourse with
      | left hleft =>
          rw [hloop] at hleft
          cases hleft
      | listening _ hh hs =>
          have hstate : t.state ≠ .timeout := by
            rw [hh.state_eq]
            rintro ⟨⟩
          have hrunning : t.status.state ≠ .timeout := by
            rw [hh.status_eq]
            rintro ⟨⟩
          have hstepped : Stepped p t e (t.run p e) := run_stepped hloop hs.ready
          generalize t.run p e = t' at hstepped
          cases hstepped with
          | started hpc => exact absurd hpc hstart
          | moved pc late sendDeadline hpc hmoved hready =>
              exact .waiting hpc hmoved hqueue htime
          | left state reason hleft =>
              refine .judged rfl ?_ hrunning
              rcases hleft with rfl | rfl
              · exact hstate
              · rintro ⟨⟩
          | expired hpc hnow =>
              -- The queue is empty where a prompt worker finds its deadline passed.
              obtain ⟨hpending, hlate⟩ := hprompt hpc hnow
              rw [Counted, hpc] at hcounted
              have hempty := hcounted hpending
              obtain ⟨ahead, behind, hframes, -⟩ := hqueue
              rw [hframes, hlate] at hempty
              simp at hempty
          | handled pc hpc hmoved hready hpending event rest hframes =>
              exact .handled hh hsignal hqueue htime hpc hmoved hframes
          | wrote hpc hpending hnext =>
              rw [write]
              split
              · exact .judged rfl hstate hrunning
              · exact .waiting rfl (by rintro ⟨⟩) hqueue htime
          | acknowledged calledAt r hpending =>
              rw [acknowledge]
              split
              · exact .judged rfl hstate hrunning
              · next herr =>
                  rw [Bool.or_eq_true, not_or, Bool.not_eq_true, Option.isSome_eq_false_iff,
                    Option.isNone_iff_eq_none] at herr
                  dsimp only
                  split
                  · exact .judged rfl hstate hrunning
                  · refine .waiting rfl (by rintro ⟨⟩) hqueue ?_
                    -- The first receipt can only move the deadline to a later time.
                    change o.observedAt ≤ if t.next = 0 then r.sentAt.add p.timeout else t.deadline
                    split
                    · next hnext =>
                        have hnil : t.receipts = [] := by
                          rw [hs.next_eq] at hnext
                          exact List.length_eq_zero_iff.mp hnext
                        have hcalled := (hs.pending_receipt _ r hpending rfl herr.1).1
                        exact htime.trans (((hs.deadline_le hnil).2 _ hpending).trans
                          (add_le_add_time hcalled _))
                    · exact htime

theorem Held.step {a : TestAction} (hcourse : Course p t) (hcounted : t.Counted)
    (hsignal : p.input.signal o.pdu = some p.target) (hprompt : t.Prompt a) (h : Held o t) :
    Held o (t.step p a) := by
  cases a with
  | run e => exact h.run hcourse hcounted hsignal hprompt
  | clock now =>
      rw [Test.step]
      split
      · cases h with
        | waiting hloop hstart hqueue htime => exact .waiting hloop hstart hqueue htime
        | judged hloop hstate hstatus => exact .judged hloop hstate hstatus
      · exact h
  | frame a =>
      cases h with
      | waiting hloop hstart hqueue htime =>
          refine .waiting hloop hstart ?_ htime
          obtain ⟨more, hmore⟩ := frames_offer t.watch a.name a.observation
          obtain ⟨ahead, behind, hframes, hahead⟩ := hqueue
          refine ⟨ahead, behind ++ more, ?_, hahead⟩
          change (t.watch.offer a.name a.observation).channels.frames = _
          rw [hmore, hframes, List.append_assoc, List.cons_append]
      | judged hloop hstate hstatus => exact .judged hloop hstate hstatus
  | closeWatches =>
      cases h with
      | waiting hloop hstart hqueue htime =>
          refine .waiting hloop hstart ?_ htime
          obtain ⟨ahead, behind, hframes, hahead⟩ := hqueue
          exact ⟨ahead, behind, (frames_deregister t.watch _).trans hframes, hahead⟩
      | judged hloop hstate hstatus => exact .judged hloop hstate hstatus
  | receipt r =>
      rw [Test.step, Test.complete]
      split
      · split
        · exact h
        · cases h with
          | waiting hloop hstart hqueue htime => exact .waiting hloop hstart hqueue htime
          | judged hloop hstate hstatus => exact .judged hloop hstate hstatus
      · exact h
  | cancel =>
      cases h with
      | waiting hloop hstart hqueue htime => exact .waiting hloop hstart hqueue htime
      | judged hloop hstate hstatus => exact .judged hloop hstate hstatus

/-- A new worker has counted nothing. -/
theorem counted_after (p : TestPlan F) (received : List Watched.Action) (now : Time)
    (as : List TestAction) : (after p received now as).Counted := by
  have hnew : (Test.new p (received.foldl Watched.step .new) now).Counted := trivial
  rw [after]
  exact Lib.inv_run_of_step (I := Counted) (fun t a h ↦ h.step a) hnew as

end Test

/-- **A timeout verdict is sound** in a prompt run: if the queue holds a response in time where the
loop looks at its deadline, the test does not end in a timeout. -/
theorem timeout_sound [FloatMath F] (p : TestPlan F) (received : List Watched.Action) (now : Time)
    (as bs : List TestAction) (o : Observation) (hpc : (Test.after p received now as).pc = .deadline)
    (ho : (Test.after p received now as).HasResponse p o)
    (hprompt : Lib.Meets (Test.step p) Test.Prompt (Test.after p received now as) bs) :
    (Test.after p received now (as ++ bs)).status.state ≠ .timeout := by
  have hheld : Test.Held o (Test.after p received now as) := by
    refine .waiting ?_ ?_ ho.queued ho.in_time
    · rw [hpc]
      rfl
    · rw [hpc]
      nofun
  have hrun := Lib.inv_run
    (I := fun t ↦ Test.Course p t ∧ t.Counted ∧ Test.Held o t)
    (fun t a h hok ↦ ⟨h.1.step a, h.2.1.step a, h.2.2.step h.1 h.2.1 ho.signal_eq hok⟩)
    ⟨(Test.course_after p received now as).1, Test.counted_after p received now as, hheld⟩ hprompt
  obtain ⟨hcourse, -, hheld⟩ := hrun
  rw [Test.after, List.foldl_append]
  rw [Test.after] at hcourse hheld
  cases hheld with
  | judged hloop hstate hstatus => exact hstatus
  | waiting hloop =>
      cases hcourse with
      | listening _ hh =>
          rw [hh.status_eq]
          nofun
      | left hleft =>
          rw [hleft] at hloop
          cases hloop

/-! ## Examples -/

namespace Test

instance (t : Test F) : (a : TestAction) → Decidable (t.Prompt a)
  | .run _ => inferInstanceAs (Decidable (_ → _ → _ ∧ _))
  | .clock _ => isTrue trivial
  | .frame _ => isTrue trivial
  | .closeWatches => isTrue trivial
  | .receipt _ => isTrue trivial
  | .cancel => isTrue trivial

/-- The queue is one frame, and it is a response. -/
def oneResponse (p : TestPlan F) (t : Test F) : Bool :=
  match t.watch.channels.frames with
  | [o] =>
      !o.restart && (p.input.value o.pdu).toOption == some p.target &&
        (t.receipts[p.measureFromStep - 1]?).any (decide <| ·.sentAt ≤ o.observedAt) &&
        decide (o.observedAt ≤ t.deadline)
  | _ => false

theorem hasResponse_of_oneResponse {p : TestPlan F} {t : Test F} (h : t.oneResponse p = true) :
    ∃ o, t.HasResponse p o := by
  rw [oneResponse] at h
  split at h
  · next o hframes =>
      simp only [Bool.and_eq_true, Bool.not_eq_true', beq_iff_eq, decide_eq_true_iff,
        Option.any_eq_true] at h
      obtain ⟨⟨⟨hrestart, hvalue⟩, start, hstart, hmeasured⟩, htime⟩ := h
      have hok : p.input.value o.pdu = .ok p.target := by
        cases hv : p.input.value o.pdu with
        | ok v =>
            rw [hv] at hvalue
            exact congrArg _ (Option.some.inj hvalue)
        | error err =>
            rw [hv] at hvalue
            cases hvalue
      obtain ⟨hclean, hsignal⟩ := Input.value_eq_ok.mp hok
      have hqueue : t.InQueue o := ⟨[], [], hframes, fun x hx ↦ absurd hx List.not_mem_nil⟩
      exact ⟨o, hqueue, ⟨hrestart, hclean⟩, hsignal, ⟨start, .inl hstart, hmeasured⟩, htime⟩
  · cases h

end Test

/-- The first step is sent at 1001 ms, so that the deadline is 1051 ms; the second step is written
at 1041 ms, and the relay trips at 1045 ms while its receipt is pending. -/
def trippedWhilePending : List TestAction :=
  workerSteps 12 ++
    [.clock (msTime 1001), .receipt ⟨msTime 1001, msTime 1001, none⟩, .run { choice := .receipt }] ++
    -- loop, poll, length, drain, deadline, expiry, due
    workerSteps 7 ++ [.clock (msTime 1041), .run { choice := .timer }] ++
    -- the same, and lateness, ready, fence, write, sent
    workerSteps 12 ++
    [.clock (msTime 1045), .frame ⟨"relay", msTime 1045, ⟨tripPDU true 2, msTime 1045, false⟩⟩]

/-- The timer of the deadline fires before the receipt comes. -/
def untilDeadline : List TestAction :=
  trippedWhilePending ++ [.clock (msTime 1051), .run { choice := .timer }] ++
    -- loop, poll, length
    workerSteps 3

/-- The worker gives its verdict and resets the output. -/
def verdict : List TestAction :=
  -- deadline, unwind, reset, resetSent
  workerSteps 4 ++
    [.clock (msTime 1052), .receipt ⟨msTime 1052, msTime 1052, none⟩, .run { choice := .receipt },
      .run {}]

/-- With a pending write, a response that is in the queue in time is lost to a timeout. -/
theorem response_lost_to_timeout :
    ¬ ∀ (p : TestPlan ℚ) (received : List Watched.Action) (now : Time) (as bs : List TestAction)
        (o : Observation), (Test.after p received now as).pc = .deadline →
      (Test.after p received now as).HasResponse p o →
        (Test.after p received now (as ++ bs)).status.state ≠ .timeout := by
  intro h
  have hqueue : (Test.after tripPlan [] (msTime 1000) untilDeadline).oneResponse tripPlan = true := by
    decide +kernel
  obtain ⟨o, ho⟩ := Test.hasResponse_of_oneResponse hqueue
  have hend : (Test.after tripPlan [] (msTime 1000) (untilDeadline ++ verdict)).status.state =
      .timeout := by
    decide +kernel
  exact h tripPlan [] (msTime 1000) untilDeadline verdict o (by decide +kernel) ho hend

/-- The ticker fires before the deadline, -/
def untilTick : List TestAction :=
  trippedWhilePending ++ [.clock (msTime 1046), .run { choice := .check }] ++
    -- loop, poll, length
    workerSteps 3

/-- and the receipt is read in time: the queue is drained. -/
def receiptInTime : List TestAction :=
  -- deadline, expiry, due
  workerSteps 3 ++
    [.clock (msTime 1047), .receipt ⟨msTime 1046, msTime 1046, none⟩, .run { choice := .receipt }] ++
    -- loop, poll, length, drain, unwind, reset, resetSent
    workerSteps 7 ++
    [.receipt ⟨msTime 1047, msTime 1047, none⟩, .run { choice := .receipt }, .run {}]

theorem timeout_sound_example :
    (Test.after tripPlan [] (msTime 1000) untilTick).pc = .deadline ∧
      (∃ o, (Test.after tripPlan [] (msTime 1000) untilTick).HasResponse tripPlan o) ∧
      (Test.after tripPlan [] (msTime 1000) (untilTick ++ receiptInTime)).status.phase =
        .finished ∧
      (Test.after tripPlan [] (msTime 1000) (untilTick ++ receiptInTime)).status.state ≠
        .timeout := by
  have hqueue : (Test.after tripPlan [] (msTime 1000) untilTick).oneResponse tripPlan = true := by
    decide +kernel
  have hpc : (Test.after tripPlan [] (msTime 1000) untilTick).pc = .deadline := by
    decide +kernel
  obtain ⟨o, ho⟩ := Test.hasResponse_of_oneResponse hqueue
  refine ⟨hpc, ⟨o, ho⟩, by decide +kernel, ?_⟩
  exact timeout_sound tripPlan [] (msTime 1000) untilTick receiptInTime o hpc ho (by decide +kernel)

end ProcessBus.Automation
