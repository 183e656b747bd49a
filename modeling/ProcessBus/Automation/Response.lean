import ProcessBus.Automation.Steps
import ProcessBus.Go.Int64

/-!
# Attribution of a response

A test that ends `triggered` reports the time of its input's edge against the receipts of its own
writes.  The loop handles the frames of its watch in the order in which the receiver accepted them
and only while no write is pending, so that it knows the receipt of every step it has written when
it judges a frame.

`Listening` is the invariant of the loop, in two parts: what has been heard (`Hearing`) and what has
been sent (`Sending`).  A verdict `triggered` is given on a `Response`, and nothing that happens
after the loop changes what it rests on.
-/

namespace ProcessBus.Automation

open Go Goose Goose.Subscriber Sv.Publisher Float64

variable {F : Type}

/-! ## Durations -/

/-- The distance of two times that are at most as far apart as a `Duration` can say. -/
theorem toInt_sub_time {t u : Time} (h : Fits64 (t.ns - u.ns)) : (t.sub u).toInt = t.ns - u.ns := by
  obtain ⟨hlow, hhigh⟩ := h
  rw [Time.sub, saturate, min_eq_right (by omega), max_eq_right (by omega)]
  exact toInt_ofInt ⟨hlow, hhigh⟩

theorem add_le_add_time {t u : Time} (h : t ≤ u) (d : Duration) : t.add d ≤ u.add d := by
  rw [Time.le_def] at h ⊢
  exact Int.add_le_add_right h d.toInt

/-- The timeout of a plan, in nanoseconds. -/
theorem TestPlan.toInt_timeout (p : TestPlan F) : p.timeout.toInt = p.timeoutMS.toInt * 1000000 := by
  have hpos := Int64.le_iff_toInt_le.mp p.timeout_pos
  have hle := Int64.le_iff_toInt_le.mp p.timeout_le
  have h₁ : (1 : Int64).toInt = 1 := by decide
  have h₂ : (60000 : Int64).toInt = 60000 := by decide
  have h₃ : (1000000 : Int64).toInt = 1000000 := by decide
  rw [h₁] at hpos
  rw [h₂] at hle
  rw [TestPlan.timeout, milliseconds, toInt_mul, h₃]
  rw [h₃]
  constructor
  · linarith
  · linarith

/-! ## The step of a response -/

/-- The loop over the receipts, one receipt later. -/
theorem responseStep_concat (receipts : List SendReceipt) (r : SendReceipt) (observedAt : Time) :
    Test.responseStep (receipts ++ [r]) observedAt =
      if r.sentAt ≤ observedAt then receipts.length + 1
      else Test.responseStep receipts observedAt := by
  rw [Test.responseStep, List.zipIdx_append, List.foldl_append]
  simp [Test.responseStep, Time.after]

/-- The step of a response is the last one whose receipt is not after it. -/
theorem responseStep_spec {receipts : List SendReceipt} {i : ℕ} {r : SendReceipt}
    {observedAt : Time} (hr : receipts[i]? = some r) (hle : r.sentAt ≤ observedAt) :
    ∃ k r', Test.responseStep receipts observedAt = k + 1 ∧ i ≤ k ∧ receipts[k]? = some r' ∧
      r'.sentAt ≤ observedAt ∧
        ∀ j x, k < j → receipts[j]? = some x → observedAt < x.sentAt := by
  induction receipts using List.reverseRecOn with
  | nil => cases hr
  | append_singleton receipts last ih =>
      rw [responseStep_concat]
      have hi : i < (receipts ++ [last]).length := List.getElem?_eq_some_iff.mp hr |>.1
      rw [List.length_append, List.length_singleton] at hi
      split
      · next hlast =>
          refine ⟨receipts.length, last, rfl, by omega, by simp, hlast, ?_⟩
          intro j x hj hx
          have := List.getElem?_eq_some_iff.mp hx |>.1
          rw [List.length_append, List.length_singleton] at this
          omega
      · next hlast =>
          have hlt : i < receipts.length := by
            by_contra hge
            obtain rfl : i = receipts.length := by omega
            rw [List.getElem?_concat_length] at hr
            cases hr
            exact hlast hle
          rw [List.getElem?_append_left hlt] at hr
          obtain ⟨k, r', hk, hik, hr', hle', hmax⟩ := ih hr
          have hkl := List.getElem?_eq_some_iff.mp hr' |>.1
          refine ⟨k, r', hk, hik, by rw [List.getElem?_append_left hkl]; exact hr', hle', ?_⟩
          intro j x hj hx
          by_cases hjl : j < receipts.length
          · rw [List.getElem?_append_left hjl] at hx
            exact hmax j x hj hx
          · have := List.getElem?_eq_some_iff.mp hx |>.1
            rw [List.length_append, List.length_singleton] at this
            obtain rfl : j = receipts.length := by omega
            rw [List.getElem?_concat_length] at hx
            cases hx
            exact lt_of_not_ge hlast

/-! ## The invariant of the loop -/

/-- How long the input is alive after the baseline and the frames `frames`. -/
def TestPlan.aliveUntil (p : TestPlan F) (frames : List Observation) : Time :=
  match frames.getLast? with
  | none => p.observedAt.add (timeToLive p.input.baseline)
  | some o => o.observedAt.add (timeToLive o.pdu)

namespace Test

/-- The receipt of step `k`, which is that of the `k`-th write. -/
def receiptOf (t : Test F) (k : ℕ) : Option SendReceipt := t.writes[k - 1]?.bind (·.receipt)

/-- What has been heard: nothing at the target level. -/
structure Hearing (p : TestPlan F) (t : Test F) : Prop where
  state_eq : t.state = .failed
  status_eq : t.status.state = .running
  quiet : ∀ o ∈ t.watch.read, p.Quiet o
  alive_eq : t.inputDeadline = p.aliveUntil t.watch.read
  previous_eq : t.previous = !p.target

/-- What has been sent: the waveforms of the plan in order, each after the receipts of those
before it. -/
structure Sending (p : TestPlan F) (t : Test F) : Prop where
  ready : t.Ready p t.pc
  start_eq : t.pc = .start → t.receipts = []
  next_eq : t.next = t.receipts.length
  receipt_eq : ∀ (i : ℕ) (r : SendReceipt), t.receipts[i]? = some r → t.receiptOf (i + 1) = some r
  output_eq : ∀ (i : ℕ) (w : Write F), t.writes[i]? = some w → p.waveforms[i]? = some w.output
  count : t.writes.length = t.receipts.length + t.pending.toList.length
  ordered : t.receipts.Pairwise (·.sentAt ≤ ·.sentAt)
  past : ∀ r ∈ t.receipts, r.sentAt ≤ t.now
  deadline_eq : ∀ r, t.receipts.head? = some r → t.deadline = r.sentAt.add p.timeout
  deadline_le : t.receipts = [] → t.deadline ≤ t.now.add p.timeout ∧
    ∀ x, t.pending = some x → t.deadline ≤ x.calledAt.add p.timeout
  pending_start : t.pc = .start → t.pending = none
  pending_after : ∀ x, t.pending = some x → ∀ r ∈ t.receipts, r.sentAt ≤ x.calledAt
  pending_receipt : ∀ x r, t.pending = some x → x.receipt = some r → r.err = none →
    x.calledAt ≤ r.sentAt ∧ r.sentAt ≤ t.now

/-- What a verdict `triggered` rests on. -/
structure Response [Float64 F] (t : Test F) (p : TestPlan F) (before : List Observation)
    (response : Observation) (first start : SendReceipt) : Prop where
  read_eq : t.watch.read = before ++ [response]
  quiet : ∀ o ∈ before, p.Quiet o
  fit : p.Fit response
  signal_eq : p.input.signal response.pdu = some p.target
  alive : response.observedAt ≤ p.aliveUntil before
  output_eq : ∀ (i : ℕ) (w : Write F), t.writes[i]? = some w → p.waveforms[i]? = some w.output
  first_eq : t.receiptOf 1 = some first
  start_eq : t.receiptOf p.measureFromStep = some start
  after_first : first.sentAt ≤ response.observedAt
  after_start : start.sentAt ≤ response.observedAt
  in_time : response.observedAt.ns ≤ first.sentAt.ns + p.timeoutMS.toInt * 1000000
  elapsed_eq : t.status.elapsedMS =
    some (ofInt (response.observedAt.ns - start.sentAt.ns) / ofInt 1000000)
  fromStart_eq : t.status.fromStartMS =
    some (ofInt (response.observedAt.ns - first.sentAt.ns) / ofInt 1000000)
  step_ge : p.measureFromStep ≤ t.status.responseStep
  step_sent : ∃ r, t.receiptOf t.status.responseStep = some r ∧ r.sentAt ≤ response.observedAt
  step_last : ∀ k r, t.status.responseStep < k → t.receiptOf k = some r →
    response.observedAt < r.sentAt

variable {p : TestPlan F} {t : Test F}

/-! ### Sending -/

/-- Without a pending write, the receipts are those of the writes. -/
theorem Sending.receiptOf_eq (h : Sending p t) (hpending : t.pending = none) (i : ℕ) :
    t.receiptOf (i + 1) = t.receipts[i]? := by
  cases hr : t.receipts[i]? with
  | some r => exact h.receipt_eq i r hr
  | none =>
      have hcount := h.count
      rw [hpending, Option.toList_none, List.length_nil, Nat.add_zero] at hcount
      rw [List.getElem?_eq_none_iff, ← hcount] at hr
      rw [receiptOf, Nat.add_sub_cancel, List.getElem?_eq_none hr, Option.bind_none]

theorem Sending.started (h : Sending p t) (hpc : t.pc = .start) (sendDeadline : Time) :
    Sending p { t with deadline := t.now.add p.timeout, sendDeadline, pc := .loop } :=
  { h with
    ready := ⟨nofun, nofun⟩
    start_eq := nofun
    pending_start := nofun
    deadline_le := by
      refine fun _ ↦ ⟨le_rfl, fun x hx ↦ ?_⟩
      have hnone := h.pending_start hpc
      rw [show t.pending = some x from hx] at hnone
      cases hnone
    deadline_eq := by
      intro r hr
      change t.receipts.head? = some r at hr
      rw [h.start_eq hpc] at hr
      cases hr }

theorem Sending.moved (h : Sending p t) {pc : TestPc} (hstart : pc ≠ .start) (hready : t.Ready p pc)
    (late : ℕ) (sendDeadline : Time) : Sending p { t with pc, late, sendDeadline } :=
  { h with
    ready := hready
    start_eq := fun hpc ↦ absurd hpc hstart
    pending_start := fun hpc ↦ absurd hpc hstart }

/-- A successful write is pending until its receipt is read. -/
theorem Sending.track (h : Sending p t) (hpending : t.pending = none)
    (hnext : t.next < p.waveforms.length) : Sending p ((t.apply p).track .sent) := by
  have hcount := h.count
  rw [hpending, Option.toList_none, List.length_nil, Nat.add_zero] at hcount
  have hwave : p.waveforms[t.receipts.length]? = some (p.waveforms.getD t.next t.current) := by
    rw [← h.next_eq, List.getElem?_eq_getElem hnext, List.getD_eq_getElem _ _ hnext]
  exact
    { ready := ⟨nofun, nofun⟩
      start_eq := nofun
      next_eq := h.next_eq
      receipt_eq := by
        intro i r hr
        have hi : i < t.writes.length := by
          rw [hcount]
          exact (List.getElem?_eq_some_iff.mp hr).1
        rw [← h.receipt_eq i r hr]
        change ((t.writes ++ [_])[i]?).bind _ = (t.writes[i]?).bind _
        rw [List.getElem?_append_left hi]
      output_eq := by
        intro i w hw
        change (t.writes ++ [⟨_, none⟩])[i]? = some w at hw
        by_cases hi : i < t.writes.length
        · rw [List.getElem?_append_left hi] at hw
          exact h.output_eq i w hw
        · have hlen := (List.getElem?_eq_some_iff.mp hw).1
          rw [List.length_append, List.length_singleton] at hlen
          obtain rfl : i = t.writes.length := by omega
          rw [List.getElem?_concat_length] at hw
          cases hw
          rw [hcount]
          exact hwave
      count := by
        change (t.writes ++ [_]).length = t.receipts.length + 1
        rw [List.length_append, List.length_singleton, hcount]
      ordered := h.ordered
      past := h.past
      deadline_eq := h.deadline_eq
      deadline_le := by
        intro hnil
        have hnow := (h.deadline_le hnil).1
        refine ⟨hnow, ?_⟩
        rintro x hx
        cases hx
        exact hnow
      pending_start := nofun
      pending_after := by
        rintro x hx r hr
        cases hx
        exact h.past r hr
      pending_receipt := by
        rintro x r hx hr
        cases hx
        cases hr }

/-- No receipt is before that of the first step. -/
theorem Sending.first_le (h : Sending p t) {first r : SendReceipt}
    (hfirst : t.receipts.head? = some first) (hr : r ∈ t.receipts) : first.sentAt ≤ r.sentAt := by
  have hordered := h.ordered
  cases hreceipts : t.receipts with
  | nil =>
      rw [hreceipts] at hr
      cases hr
  | cons x rest =>
      rw [hreceipts] at hfirst hr hordered
      obtain rfl : x = first := Option.some.inj hfirst
      rcases List.mem_cons.mp hr with rfl | hr
      · exact le_rfl
      · exact List.rel_of_pairwise_cons hordered hr

/-! ### Hearing -/

/-- The frame at the head of the queue is read. -/
theorem read_take {c : Watch} {event : Observation} {rest : List Observation}
    (hframes : c.channels.frames = event :: rest) : c.take.read = c.read ++ [event] := by
  rw [Watch.take, hframes]

/-- A quiet frame keeps the worker listening. -/
theorem Hearing.quietly (h : Hearing p t) {event : Observation} {rest : List Observation}
    (hframes : t.watch.channels.frames = event :: rest) (hquiet : p.Quiet event) (pc : TestPc) :
    Hearing p { { t with pc, watch := t.watch.take }.hear event with previous := !p.target } where
  state_eq := h.state_eq
  status_eq := h.status_eq
  quiet := by
    intro o ho
    change o ∈ t.watch.take.read at ho
    rw [read_take hframes] at ho
    rcases List.mem_append.mp ho with ho | ho
    · exact h.quiet o ho
    · obtain rfl := List.mem_singleton.mp ho
      exact hquiet
  alive_eq := by
    change event.observedAt.add (timeToLive event.pdu) = p.aliveUntil t.watch.take.read
    rw [read_take hframes, TestPlan.aliveUntil, List.getLast?_concat]
  previous_eq := rfl

variable [FloatMath F]

/-- A receipt without error is that of the next step. -/
theorem Sending.acknowledge (h : Sending p t) {calledAt : Time} {r : SendReceipt}
    (hpending : t.pending = some ⟨calledAt, some r⟩) (herr : r.err = none) :
    Sending p (((t.noteReceipt r).advance p r).showStep p r) := by
  have hcount := h.count
  rw [hpending, Option.toList_some, List.length_singleton] at hcount
  obtain ⟨hcalled, hnow⟩ := h.pending_receipt _ r hpending rfl herr
  have hafter := h.pending_after _ hpending
  have hwrites : confirm t.writes r =
      t.writes.modify t.receipts.length ({ · with receipt := some r }) := by
    rw [confirm, hcount, Nat.add_sub_cancel]
  exact
    { ready := ⟨nofun, nofun⟩
      start_eq := nofun
      next_eq := by
        change t.next + 1 = (t.receipts ++ [r]).length
        rw [List.length_append, List.length_singleton, h.next_eq]
      receipt_eq := by
        intro i x hx
        change (t.receipts ++ [r])[i]? = some x at hx
        change ((confirm t.writes r)[i]?).bind _ = some x
        rw [hwrites]
        by_cases hi : i < t.receipts.length
        · rw [List.getElem?_append_left hi] at hx
          have hne : t.receipts.length ≠ i := by omega
          rw [List.getElem?_modify_ne _ _ hne]
          exact h.receipt_eq i x hx
        · have hlen := (List.getElem?_eq_some_iff.mp hx).1
          rw [List.length_append, List.length_singleton] at hlen
          obtain rfl : i = t.receipts.length := by omega
          rw [List.getElem?_concat_length] at hx
          have hlt : t.receipts.length < t.writes.length := by omega
          rw [List.getElem?_modify_eq, List.getElem?_eq_getElem hlt]
          exact hx
      output_eq := by
        intro i w hw
        change (confirm t.writes r)[i]? = some w at hw
        rw [hwrites, List.getElem?_modify] at hw
        obtain ⟨w', hw', rfl⟩ := Option.map_eq_some_iff.mp hw
        have hout := h.output_eq i w' hw'
        split
        · exact hout
        · exact hout
      count := by
        change (confirm t.writes r).length = (t.receipts ++ [r]).length + 0
        rw [hwrites, List.length_modify, hcount, List.length_append, List.length_singleton]
      ordered := by
        refine List.pairwise_append.mpr ⟨h.ordered, List.pairwise_singleton _ _, ?_⟩
        rintro x hx y hy
        obtain rfl := List.mem_singleton.mp hy
        exact (hafter x hx).trans hcalled
      past := by
        intro x hx
        rcases List.mem_append.mp hx with hx | hx
        · exact h.past x hx
        · obtain rfl := List.mem_singleton.mp hx
          exact hnow
      deadline_eq := by
        intro x hx
        change (t.receipts ++ [r]).head? = some x at hx
        change (if t.next = 0 then r.sentAt.add p.timeout else t.deadline) = x.sentAt.add p.timeout
        rw [h.next_eq]
        cases hrec : t.receipts with
        | nil =>
            rw [hrec] at hx
            cases hx
            rfl
        | cons first rest =>
            rw [hrec] at hx
            cases hx
            exact h.deadline_eq _ (by rw [hrec]; rfl)
      deadline_le := fun hnil ↦ absurd hnil (List.append_ne_nil_of_right_ne_nil _ nofun)
      pending_start := nofun
      pending_after := nofun
      pending_receipt := nofun }

/-- The verdict on a frame that brings the target level in time. -/
theorem response_of_triggered (hh : Hearing p t) (hs : Sending p t) {event : Observation}
    {rest : List Observation} (hframes : t.watch.channels.frames = event :: rest)
    (hpending : t.pending = none) {first start : SendReceipt} (hfit : p.Fit event)
    (hsignal : p.input.signal event.pdu = some p.target)
    (halive : event.observedAt ≤ t.inputDeadline) (hfirst : t.receipts.head? = some first)
    (hafter : first.sentAt ≤ event.observedAt) (hintime : event.observedAt ≤ t.deadline)
    (hstart : t.receipts[p.measureFromStep - 1]? = some start)
    (hmeasured : start.sentAt ≤ event.observedAt) (pc : TestPc) :
    Response
      ((({ t with pc, watch := t.watch.take }.hear event).showResponse event start).exit
        .triggered "")
      p t.watch.read event first start := by
  have hm : p.measureFromStep = p.measureFromStep - 1 + 1 := by
    have := p.measure_pos
    omega
  have hreceipt := hs.receiptOf_eq hpending
  obtain ⟨k, r, hstep, hge, hr, hle, hlast⟩ := responseStep_spec hstart hmeasured
  -- The receipts are in order, so both distances are at most the timeout.
  have hordered : first.sentAt ≤ start.sentAt :=
    hs.first_le hfirst (List.mem_of_getElem? hstart)
  have htime : event.observedAt.ns ≤ first.sentAt.ns + p.timeoutMS.toInt * 1000000 := by
    rw [hs.deadline_eq first hfirst, Time.le_def] at hintime
    rw [← p.toInt_timeout]
    exact hintime
  have hle60 : p.timeoutMS.toInt ≤ 60000 := Int64.le_iff_toInt_le.mp p.timeout_le
  have hfrom : (event.observedAt.sub first.sentAt).toInt =
      event.observedAt.ns - first.sentAt.ns := by
    apply toInt_sub_time
    rw [Time.le_def] at hafter
    constructor <;> omega
  have helapsed : (event.observedAt.sub start.sentAt).toInt =
      event.observedAt.ns - start.sentAt.ns := by
    apply toInt_sub_time
    rw [Time.le_def] at hordered hmeasured
    constructor <;> omega
  exact
    { read_eq := read_take hframes
      quiet := hh.quiet
      fit := hfit
      signal_eq := hsignal
      alive := by
        rw [← hh.alive_eq]
        exact halive
      output_eq := hs.output_eq
      first_eq := by
        rw [List.head?_eq_getElem?] at hfirst
        exact hs.receipt_eq 0 first hfirst
      start_eq := by
        rw [hm]
        exact hs.receipt_eq _ start hstart
      after_first := hafter
      after_start := hmeasured
      in_time := htime
      elapsed_eq := by
        rw [← helapsed]
        rfl
      fromStart_eq := by
        have hhead : t.firstReceipt = first := by
          rw [firstReceipt, List.headD_eq_head?_getD, hfirst, Option.getD_some]
        rw [← hfrom, ← hhead]
        rfl
      step_ge := by
        change p.measureFromStep ≤ Test.responseStep t.receipts event.observedAt
        omega
      step_sent := by
        refine ⟨r, ?_, hle⟩
        change t.receiptOf (Test.responseStep t.receipts event.observedAt) = some r
        rw [hstep]
        exact hs.receipt_eq k r hr
      step_last := by
        intro j x hj hx
        change Test.responseStep t.receipts event.observedAt < j at hj
        change t.receiptOf j = some x at hx
        obtain ⟨i, rfl⟩ : ∃ i, j = i + 1 := ⟨j - 1, by omega⟩
        rw [hreceipt] at hx
        exact hlast i x (by omega) hx }

/-! ## After the loop -/

/-- A verdict `triggered` can be given. -/
def Attributed (p : TestPlan F) (t : Test F) : Prop :=
  ∃ before response first start, t.Response p before response first start

omit [FloatMath F] in
/-- What a verdict rests on is as it was. -/
structure SameFindings (t t' : Test F) : Prop where
  read_eq : t'.watch.read = t.watch.read
  writes_eq : t'.writes = t.writes
  responseStep_eq : t'.status.responseStep = t.status.responseStep
  elapsedMS_eq : t'.status.elapsedMS = t.status.elapsedMS
  fromStartMS_eq : t'.status.fromStartMS = t.status.fromStartMS

theorem Attributed.congr {t' : Test F} (h : Attributed p t) (hsame : SameFindings t t') :
    Attributed p t' := by
  obtain ⟨before, response, first, start, h⟩ := h
  have hreceiptOf : t'.receiptOf = t.receiptOf := by
    funext k
    rw [receiptOf, receiptOf, hsame.writes_eq]
  refine ⟨before, response, first, start, ?_⟩
  exact
    { quiet := h.quiet
      fit := h.fit
      signal_eq := h.signal_eq
      alive := h.alive
      after_first := h.after_first
      after_start := h.after_start
      in_time := h.in_time
      read_eq := hsame.read_eq.trans h.read_eq
      output_eq := hsame.writes_eq ▸ h.output_eq
      first_eq := hreceiptOf ▸ h.first_eq
      start_eq := hreceiptOf ▸ h.start_eq
      elapsed_eq := hsame.elapsedMS_eq.trans h.elapsed_eq
      fromStart_eq := hsame.fromStartMS_eq.trans h.fromStart_eq
      step_ge := by
        rw [hsame.responseStep_eq]
        exact h.step_ge
      step_sent := by
        rw [hsame.responseStep_eq, hreceiptOf]
        exact h.step_sent
      step_last := by
        rw [hsame.responseStep_eq, hreceiptOf]
        exact h.step_last }

theorem read_deregister (c : Watch) (n : ℕ) : (c.deregister n).read = c.read := by
  rw [Watch.deregister]
  split <;> rfl

theorem read_offer (c : Watch) (name : String) (o : Observation) :
    (c.offer name o).read = c.read := by
  rw [Watch.offer]
  split <;> rfl

/-- After the loop what a verdict rests on is kept; the verdict itself may only turn to `failed`,
and is published as it is. -/
structure Unwound (t t' : Test F) : Prop extends SameFindings t t' where
  looping_eq : t'.pc.looping = false
  state_eq : t'.state = t.state ∨ t'.state = .failed
  status_eq : t'.status.state = t.status.state ∨ t'.status.state = t.state

omit [FloatMath F] in
theorem Unwound.refl (hloop : t.pc.looping = false) : Unwound t t :=
  ⟨⟨rfl, rfl, rfl, rfl, rfl⟩, hloop, .inl rfl, .inl rfl⟩

/-- The deferred function, step by step. -/
theorem run_unwound {e : Env} (hloop : t.pc.looping = false) : Unwound t (t.run p e) := by
  cases hpc : t.pc with
  | unwind =>
      simp only [run, hpc]
      exact ⟨⟨read_deregister _ _, rfl, rfl, rfl, rfl⟩, rfl, .inl rfl, .inl rfl⟩
  | reset =>
      simp only [run, hpc, reset]
      split
      · split
        · exact ⟨⟨rfl, rfl, rfl, rfl, rfl⟩, rfl, .inl rfl, .inl rfl⟩
        · exact ⟨⟨rfl, rfl, rfl, rfl, rfl⟩, rfl, .inl rfl, .inl rfl⟩
      · exact ⟨⟨rfl, rfl, rfl, rfl, rfl⟩, rfl, .inl rfl, .inl rfl⟩
  | resetWait =>
      simp only [run, hpc, awaitReset]
      split
      · split
        · rw [acknowledgeReset]
          split
          · exact ⟨⟨rfl, rfl, rfl, rfl, rfl⟩, rfl, .inl rfl, .inl rfl⟩
          · split
            · exact ⟨⟨rfl, rfl, rfl, rfl, rfl⟩, rfl, .inl rfl, .inl rfl⟩
            · exact ⟨⟨rfl, rfl, rfl, rfl, rfl⟩, rfl, .inl rfl, .inl rfl⟩
        · exact .refl hloop
      · split
        · exact .refl hloop
        · exact ⟨⟨rfl, rfl, rfl, rfl, rfl⟩, rfl, .inl rfl, .inl rfl⟩
      · exact .refl hloop
  | resetSent | revoke | finishSequences =>
      simp only [run, hpc]
      exact ⟨⟨rfl, rfl, rfl, rfl, rfl⟩, rfl, .inl rfl, .inl rfl⟩
  | closeAgent =>
      simp only [run, hpc]
      exact ⟨⟨rfl, rfl, rfl, rfl, rfl⟩, rfl, .inr rfl, .inl rfl⟩
  | finish =>
      simp only [run, hpc]
      exact ⟨⟨rfl, rfl, rfl, rfl, rfl⟩, rfl, .inl rfl, .inr rfl⟩
  | finished =>
      simp only [run, hpc]
      exact .refl hloop
  | _ =>
      rw [hpc] at hloop
      cases hloop

/-! ## Whole runs -/

/-- A worker in its loop or after it. -/
inductive Course (p : TestPlan F) (t : Test F) : Prop
  | listening (hloop : t.pc.looping = true) (hh : Hearing p t) (hs : Sending p t)
  | left (hloop : t.pc.looping = false) (hverdict : t.state = .triggered → Attributed p t)
      (hstatus : t.status.state = .triggered → Attributed p t)

/-- A worker that leaves the loop without a response. -/
theorem Course.exit {t' : Test F} (hloop : t'.pc.looping = false) (hstate : t'.state ≠ .triggered)
    (hstatus : t'.status.state = .running) : Course p t' :=
  .left hloop (fun h ↦ absurd h hstate) (fun h ↦ by rw [hstatus] at h; cases h)

/-- A step of the loop. -/
theorem Course.stepped {e : Env} {t' : Test F} (hh : Hearing p t) (hs : Sending p t)
    (h : Stepped p t e t') : Course p t' := by
  have hstate : t.state ≠ .triggered := by
    rw [hh.state_eq]
    nofun
  cases h with
  | started hpc =>
      exact .listening rfl ⟨hh.state_eq, hh.status_eq, hh.quiet, hh.alive_eq, hh.previous_eq⟩
        (hs.started hpc _)
  | moved pc late sendDeadline hpc hstart hready =>
      exact .listening hpc ⟨hh.state_eq, hh.status_eq, hh.quiet, hh.alive_eq, hh.previous_eq⟩
        (hs.moved hstart hready late sendDeadline)
  | left state reason hleft =>
      refine .exit rfl ?_ hh.status_eq
      rcases hleft with rfl | rfl
      · exact hstate
      · nofun
  | expired => exact .exit rfl nofun hh.status_eq
  | handled pc hpc hstart hready hpending event rest hframes =>
      have hhandled : Handled p { t with pc, watch := t.watch.take } event
          ({ t with pc, watch := t.watch.take }.handle p event) := handle_handled hh.previous_eq
      generalize { t with pc, watch := t.watch.take }.handle p event = t' at hhandled
      cases hhandled with
      | rejected => exact .exit rfl hstate hh.status_eq
      | late => exact .exit rfl nofun hh.status_eq
      | triggered first start hfit hsignal halive hfirst hafter hintime hmeasure hmeasured =>
          have hresponse := response_of_triggered hh hs hframes hpending hfit hsignal halive hfirst
            hafter hintime hmeasure hmeasured pc
          exact .left rfl (fun _ ↦ ⟨_, _, _, _, hresponse⟩) (fun _ ↦ ⟨_, _, _, _, hresponse⟩)
      | quiet hquiet =>
          refine .listening hpc (hh.quietly hframes hquiet pc) ?_
          exact { hs with
            ready := hready
            start_eq := fun h ↦ absurd h hstart
            pending_start := fun h ↦ absurd h hstart }
  | wrote hpc hpending hnext =>
      rw [write]
      split
      · exact .exit rfl hstate hh.status_eq
      · exact .listening rfl ⟨hh.state_eq, hh.status_eq, hh.quiet, hh.alive_eq, hh.previous_eq⟩
          (hs.track hpending hnext)
  | acknowledged calledAt r hpending =>
      rw [acknowledge]
      split
      · exact .exit rfl hstate hh.status_eq
      · next herr =>
          rw [Bool.or_eq_true, not_or, Bool.not_eq_true, Option.isSome_eq_false_iff,
            Option.isNone_iff_eq_none] at herr
          dsimp only
          split
          · exact .exit rfl hstate hh.status_eq
          · exact .listening rfl ⟨hh.state_eq, hh.status_eq, hh.quiet, hh.alive_eq, hh.previous_eq⟩
              (hs.acknowledge hpending herr.1)

/-- A step of the worker. -/
theorem Course.run (h : Course p t) (e : Env) : Course p (t.run p e) := by
  cases h with
  | listening hloop hh hs => exact .stepped hh hs (run_stepped hloop hs.ready)
  | left hloop hverdict hstatus =>
      have hunwound : Unwound t (t.run p e) := run_unwound hloop
      refine .left hunwound.looping_eq (fun h ↦ ?_) (fun h ↦ ?_)
      · rcases hunwound.state_eq with hsame | hfailed
        · exact (hverdict (hsame.symm.trans h)).congr hunwound.toSameFindings
        · rw [hfailed] at h
          cases h
      · rcases hunwound.status_eq with hsame | hpublished
        · exact (hstatus (hsame.symm.trans h)).congr hunwound.toSameFindings
        · exact (hverdict (hpublished.symm.trans h)).congr hunwound.toSameFindings

/-- Something happens around a worker that has left its loop. -/
theorem Course.around {t' : Test F} (hloop : t.pc.looping = false)
    (hverdict : t.state = .triggered → Attributed p t)
    (hstatus : t.status.state = .triggered → Attributed p t) (hsame : SameFindings t t')
    (hpc : t'.pc = t.pc) (hstate : t'.state = t.state) (hpublished : t'.status = t.status) :
    Course p t' :=
  .left (hpc ▸ hloop) (fun h ↦ (hverdict (hstate.symm.trans h)).congr hsame)
    (fun h ↦ (hstatus (hpublished ▸ h)).congr hsame)

/-- The watch changes without being read. -/
theorem Course.rewatch (h : Course p t) {watch : Watch} (hread : watch.read = t.watch.read)
    (log : List Accepted) (late : ℕ) : Course p { t with watch, log, late } := by
  cases h with
  | listening hloop hh hs =>
      refine .listening hloop ⟨hh.state_eq, hh.status_eq, ?_, ?_, hh.previous_eq⟩
        { hs with ready := hs.ready }
      · change ∀ o ∈ watch.read, p.Quiet o
        rw [hread]
        exact hh.quiet
      · change t.inputDeadline = p.aliveUntil watch.read
        rw [hread]
        exact hh.alive_eq
  | left hloop hverdict hstatus =>
      exact .around hloop hverdict hstatus ⟨hread, rfl, rfl, rfl, rfl⟩ rfl rfl rfl

/-- Time passes. -/
theorem Course.clock (h : Course p t) {now : Time} (hnow : t.now ≤ now) :
    Course p { t with now } := by
  cases h with
  | listening hloop hh hs =>
      refine .listening hloop ⟨hh.state_eq, hh.status_eq, hh.quiet, hh.alive_eq, hh.previous_eq⟩ ?_
      exact { hs with
        past := fun r hr ↦ (hs.past r hr).trans hnow
        deadline_le := by
          intro hnil
          obtain ⟨hle, hcalled⟩ := hs.deadline_le hnil
          exact ⟨hle.trans (add_le_add_time hnow _), hcalled⟩
        pending_receipt := by
          intro x r hx hr herr
          obtain ⟨hcalled, hsent⟩ := hs.pending_receipt x r hx hr herr
          exact ⟨hcalled, hsent.trans hnow⟩ }
  | left hloop hverdict hstatus =>
      exact .around hloop hverdict hstatus ⟨rfl, rfl, rfl, rfl, rfl⟩ rfl rfl rfl

/-- A tracker is completed. -/
theorem Course.complete (h : Course p t) (r : SendReceipt) : Course p (t.complete r) := by
  rw [Test.complete]
  split
  · next calledAt hpending =>
      split
      · exact h
      · next hstamp =>
          cases h with
          | listening hloop hh hs =>
              refine .listening hloop
                ⟨hh.state_eq, hh.status_eq, hh.quiet, hh.alive_eq, hh.previous_eq⟩ ?_
              exact
                { hs with
                  ready := by
                    refine ⟨fun hidle ↦ ?_, hs.ready.2⟩
                    rw [hs.ready.1 hidle] at hpending
                    cases hpending
                  count := by
                    have hcount := hs.count
                    rw [hpending] at hcount
                    exact hcount
                  deadline_le := by
                    intro hnil
                    refine ⟨(hs.deadline_le hnil).1, ?_⟩
                    rintro x hx
                    cases hx
                    exact (hs.deadline_le hnil).2 ⟨calledAt, none⟩ hpending
                  pending_start := by
                    intro hstart
                    rw [hs.pending_start hstart] at hpending
                    cases hpending
                  pending_after := by
                    rintro x hx
                    cases hx
                    exact hs.pending_after ⟨calledAt, none⟩ hpending
                  pending_receipt := by
                    rintro x y hx hy herr
                    cases hx
                    cases hy
                    rw [not_and, not_not] at hstamp
                    exact hstamp (by rw [herr]; rfl) }
          | left hloop hverdict hstatus =>
              exact .around hloop hverdict hstatus ⟨rfl, rfl, rfl, rfl, rfl⟩ rfl rfl rfl
  · exact h

theorem Course.step (h : Course p t) (a : TestAction) : Course p (t.step p a) := by
  cases a with
  | clock now =>
      rw [Test.step]
      split
      · next hnow => exact h.clock hnow
      · exact h
  | frame a => exact h.rewatch (read_offer _ _ _) _ _
  | closeWatches =>
      have hread : { t.watch.deregister t.log.length with
          closed := t.watch.registered || t.watch.closed }.read = t.watch.read :=
        read_deregister t.watch _
      exact h.rewatch hread t.log t.late
  | receipt r => exact h.complete r
  | cancel =>
      cases h with
      | listening hloop hh hs =>
          exact .listening hloop
            ⟨hh.state_eq, hh.status_eq, hh.quiet, hh.alive_eq, hh.previous_eq⟩
            { hs with ready := hs.ready }
      | left hloop hverdict hstatus =>
          exact .around hloop hverdict hstatus ⟨rfl, rfl, rfl, rfl, rfl⟩ rfl rfl rfl
  | run e => exact h.run e

/-- A new worker has heard and sent nothing. -/
theorem Course.new (p : TestPlan F) (w : Watched) (now : Time) : Course p (Test.new p w now) := by
  have hread : (Test.new p w now).watch.read = [] := rfl
  refine .listening rfl ⟨rfl, rfl, ?_, ?_, ?_⟩ ?_
  · rw [hread]
    exact fun o ho ↦ absurd ho List.not_mem_nil
  · rw [hread, TestPlan.aliveUntil, List.getLast?_nil]
    rfl
  · rw [Test.new, p.baseline_value]
  · exact
      { ready := ⟨nofun, nofun⟩
        start_eq := fun _ ↦ rfl
        next_eq := rfl
        receipt_eq := nofun
        output_eq := nofun
        count := rfl
        ordered := .nil
        past := nofun
        deadline_eq := nofun
        deadline_le := fun _ ↦ ⟨le_rfl, nofun⟩
        pending_start := fun _ ↦ rfl
        pending_after := nofun
        pending_receipt := nofun }

/-! ### The queue -/

/-- `handle` leaves the watch alone. -/
theorem handle_watch (event : Observation) :
    (t.handle p event).watch = t.watch ∧ (t.handle p event).log = t.log := by
  rw [handle]
  repeat' split
  all_goals try exact ⟨rfl, rfl⟩
  rw [respond]
  repeat' split
  all_goals exact ⟨rfl, rfl⟩

/-- What is read from the watch is what the receiver accepted. -/
theorem faithful_run (h : Course p t) (hf : t.watch.Faithful t.log) (e : Env) :
    (t.run p e).watch.Faithful (t.run p e).log := by
  cases h with
  | listening hloop hh hs =>
      have hstepped : Stepped p t e (t.run p e) := run_stepped hloop hs.ready
      generalize t.run p e = t' at hstepped
      cases hstepped with
      | handled pc hpc hstart hready hpending event rest hframes =>
          obtain ⟨hwatch, hlog⟩ := handle_watch (p := p) (t := { t with pc, watch := t.watch.take })
            event
          rw [hwatch, hlog]
          exact hf.take
      | wrote =>
          rw [write]
          split <;> exact hf
      | acknowledged =>
          rw [acknowledge]
          split
          · exact hf
          · dsimp only
            split <;> exact hf
      | _ => exact hf
  | left hloop =>
      cases hpc : t.pc with
      | unwind =>
          simp only [run, hpc]
          exact hf.deregister
      | reset =>
          simp only [run, hpc, reset]
          repeat' split
          all_goals exact hf
      | resetWait =>
          simp only [run, hpc, awaitReset, acknowledgeReset]
          repeat' split
          all_goals exact hf
      | resetSent | revoke | finishSequences | closeAgent | finish | finished =>
          simp only [run, hpc]
          exact hf
      | _ =>
          rw [hpc] at hloop
          cases hloop

theorem faithful_step (h : Course p t) (hf : t.watch.Faithful t.log) (a : TestAction) :
    (t.step p a).watch.Faithful (t.step p a).log := by
  cases a with
  | clock now =>
      rw [step]
      split
      · exact hf
      · exact hf
  | frame a => exact hf.offer a.name a.receivedAt a.observation
  | closeWatches => exact hf.deregister.close _
  | receipt r =>
      rw [step, complete]
      repeat' split
      all_goals exact hf
  | cancel => exact hf
  | run e => exact faithful_run h hf e

/-- What is due to a watch begins the sequence of its subscription. -/
theorem due_begins (c : Watch) (log : List Accepted) : c.due log <+: c.sequence log := by
  have htake : (log.take (c.upTo.getD log.length)).drop c.since <+: log.drop c.since := by
    rw [List.drop_take]
    exact List.take_prefix _ _
  exact List.IsPrefix.map _ (List.IsPrefix.filter _ htake)

/-- A test run: the worker of the plan `p`, with a watch made at `now` of the receiver that has come
so far, and what has happened since. -/
def after (p : TestPlan F) (received : List Watched.Action) (now : Time) (as : List TestAction) :
    Test F :=
  as.foldl (step p) (.new p (received.foldl Watched.step .new) now)

/-- The invariant of a test run. -/
theorem course_after (p : TestPlan F) (received : List Watched.Action) (now : Time)
    (as : List TestAction) :
    Course p (after p received now as) ∧
      (after p received now as).watch.Faithful (after p received now as).log := by
  refine Lib.inv_run_of_step (I := fun t ↦ Course p t ∧ t.watch.Faithful t.log)
    (fun t a h ↦ ⟨h.1.step a, faithful_step h.1 h.2 a⟩) ⟨.new p _ now, ?_⟩ as
  have hkept := (Watched.kept_run received).observe p.input.stream.name now
  exact hkept.faithful _ (List.mem_append_right _ (List.mem_singleton.mpr rfl))

end Test

/-- A number of milliseconds is not negative if that of nanoseconds is not; it holds in IEEE
arithmetic, where an integer keeps its sign when it is rounded. -/
def KeepsSign (F : Type) [Float64 F] : Prop :=
  ∀ d : ℤ, 0 ≤ d → Float64.le (ofInt 0) (ofInt d / ofInt 1000000 : F) = true

/-- **A reported trip time is attributable.**  The response is the first frame at the target level
that the receiver accepted after the baseline, every frame up to it can be trusted, and its time and
its step are as the receipts of the writes say. -/
theorem response_attributable [FloatMath F] (hF : KeepsSign F) (p : TestPlan F)
    (received : List Watched.Action) (now : Time) (as : List TestAction)
    (h : (Test.after p received now as).status.state = .triggered) :
    ∃ before response first start,
      before ++ [response] <+:
          (Test.after p received now as).watch.sequence (Test.after p received now as).log ∧
        (Test.after p received now as).Response p before response first start ∧
        (Test.after p received now as).status.elapsedMS.any (Float64.le (ofInt 0)) = true ∧
        (Test.after p received now as).status.fromStartMS.any (Float64.le (ofInt 0)) = true := by
  obtain ⟨hcourse, hfaithful⟩ := Test.course_after p received now as
  generalize Test.after p received now as = t at h hcourse hfaithful ⊢
  cases hcourse with
  | listening hloop hh hs =>
      rw [hh.status_eq] at h
      cases h
  | left hloop hverdict hstatus =>
      obtain ⟨before, response, first, start, hresponse⟩ := hstatus h
      refine ⟨before, response, first, start, ?_, hresponse, ?_, ?_⟩
      · rw [← hresponse.read_eq]
        exact (List.prefix_append _ _).trans
          (hfaithful.2.queued_due.trans (Test.due_begins _ _))
      · rw [hresponse.elapsed_eq]
        exact hF _ (sub_nonneg.mpr (Time.le_def.mp hresponse.after_start))
      · rw [hresponse.fromStart_eq]
        exact hF _ (sub_nonneg.mpr (Time.le_def.mp hresponse.after_first))

/-! ## An example -/

/-- Exact arithmetic keeps the sign. -/
theorem keepsSign_rat : KeepsSign ℚ := by
  intro d hd
  have h : (0 : ℚ) ≤ (d : ℚ) / 1000000 := div_nonneg (Int.cast_nonneg hd) (by norm_num)
  simpa [Float64.le, ofInt] using h

/-- A message of a relay that publishes its trip signal. -/
def tripPDU (trip : Bool) (stNum : UInt32) : PDU where
  dstMAC := [1, 12, 205, 1, 0, 1]
  srcMAC := [2, 0, 0, 0, 0, 1]
  vlan := none
  appID := 1
  simulation := false
  gocbRef := []
  timeAllowedToLiveMs := 2000
  datSet := []
  goID := []
  timestamp := .zero
  timeQuality := {}
  stNum
  sqNum := 0
  test := false
  confRev := 1
  ndsCom := false
  numDatSetEntries := 1
  allData := [{ type := .boolean, bool := trip }]

/-- The relay's stream as a test's input; the address of its description is
`01-0c-cd-01-00-01`. -/
def tripInput : Input where
  stream :=
    { id := "goose_sub/relay"
      name := "relay"
      signals := [{ id := "goose_sub/relay/entry/0", name := "Trip", type := "BOOLEAN" }] }
  description :=
    { gocbRef := []
      datSet := []
      goID := []
      dstMAC := [48, 49, 45, 48, 99, 45, 99, 100, 45, 48, 49, 45, 48, 48, 45, 48, 49]
      appID := 1
      confRev := 1
      entries := [{ kind := "BOOLEAN" }] }
  path := [0]
  baseline := tripPDU false 1

/-- Milliseconds of a clock. -/
def msTime (ms : ℤ) : Time := ⟨ms * 1000000⟩

/-- A current on the first channel. -/
def currentOf (rms : ℚ) : SVOutput ℚ where
  settings := .ofFn fun ch ↦ ⟨if ch = 0 then rms else 0, 0, 50, 0⟩
  simulation := false
  synch := 2
  ready := true

/-- Two steps, 40 ms apart, and a timeout of 50 ms. -/
def tripPlan : TestPlan ℚ where
  timeoutMS := 50
  measureFromStep := 1
  schedule := [0, 40000000]
  waveforms := [currentOf 5, currentOf 10]
  touched ch := ch == 0
  output :=
    { id := "sv_pub/relay"
      name := "relay"
      signals := (List.range 8).map fun i ↦
        { id := s!"sv_pub/relay/channel/{i}", type := "analog_channel" } }
  limit := 100000000
  target := true
  timeout_pos := by decide
  timeout_le := by decide
  measure_pos := by decide
  measure_le := by decide
  input := tripInput
  observedAt := msTime 900
  baseline_value := by decide +kernel
  observedAt_ne := by decide

/-- Steps of the worker in which nothing goes wrong. -/
def workerSteps (n : ℕ) : List TestAction := List.replicate n (.run {})

/-- The first step is sent at 1001 ms, and the relay trips at 1021 ms. -/
def tripped : List TestAction :=
  -- start, loop, poll, length, drain, deadline, expiry, due, ready, fence, write, sent
  workerSteps 12 ++
    [.clock (msTime 1001), .receipt ⟨msTime 1001, msTime 1001, none⟩, .run { choice := .receipt },
      .clock (msTime 1022), .frame ⟨"relay", msTime 1021, ⟨tripPDU true 2, msTime 1021, false⟩⟩] ++
    -- loop, poll, length, drain, unwind, reset, resetSent
    workerSteps 7 ++
    [.clock (msTime 1024), .receipt ⟨msTime 1023, msTime 1023, none⟩, .run { choice := .receipt },
      .run {}]

theorem response_attributable_example :
    (Test.after tripPlan [] (msTime 1000) tripped).status.state = .triggered ∧
      ∃ before response first start,
        before ++ [response] <+: (Test.after tripPlan [] (msTime 1000) tripped).watch.sequence
            (Test.after tripPlan [] (msTime 1000) tripped).log ∧
          (Test.after tripPlan [] (msTime 1000) tripped).Response tripPlan before response first
            start ∧
          (Test.after tripPlan [] (msTime 1000) tripped).status.elapsedMS.any
            (Float64.le (ofInt 0)) = true ∧
          (Test.after tripPlan [] (msTime 1000) tripped).status.fromStartMS.any
            (Float64.le (ofInt 0)) = true := by
  have h : (Test.after tripPlan [] (msTime 1000) tripped).status.state = .triggered := by
    decide +kernel
  exact ⟨h, response_attributable keepsSign_rat tripPlan [] (msTime 1000) tripped h⟩

end ProcessBus.Automation
