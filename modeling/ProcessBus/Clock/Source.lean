import ProcessBus.Clock.Application
import ProcessBus.Lib.Run

/-!
# Loss of the local source

A bound local source is read by four operations of the application clock, and any of these reads may
fail. The first one that does takes the source away for good: from then on the clock runs on from
the last good sample, says that it is not synchronized and keeps the error, until it is bound,
enabled or disabled anew.

`localNowLocked` has three cases (`localNowLocked_good`, `localNowLocked_fault`,
`localNowLocked_lost`), and the four operations are readings of the system clock followed by one of
these (`call_read`).
-/

namespace ProcessBus

open Go Lib

/-- The calls of the clock that matter to a local source. -/
inductive ClockOp
  | bindLocalSource (source : Option (ℕ → Except String Time))
  | enablePTP
  | disablePTP
  | now
  | fromSystem (t : Time)
  | sourceStatus
  | localSourceError

/-- What a call returns. -/
inductive ClockReply (F : Type)
  | done
  | time (t : Time)
  | status (status : SourceStatus F)
  | error (err : Option String)

namespace ApplicationClock

variable {F : Type} [Float64 F]

/-- One call. -/
def call (c : ApplicationClock F) : ClockOp → ClockReply F × ApplicationClock F
  | .bindLocalSource source => (.error (c.bindLocalSource source).1, (c.bindLocalSource source).2)
  | .enablePTP => (.done, c.enablePTP)
  | .disablePTP => (.done, c.disablePTP)
  | .now => (.time c.now.1, c.now.2)
  | .fromSystem t => (.time (c.fromSystem t).1, (c.fromSystem t).2)
  | .sourceStatus => (.status c.sourceStatus.1, c.sourceStatus.2)
  | .localSourceError => (.error c.localSourceError.1, c.localSourceError.2)

/-- The clock after a call. -/
def next (c : ApplicationClock F) (op : ClockOp) : ApplicationClock F := (c.call op).2

/-! ## Reading the source -/

omit [Float64 F] in
/-- The error of a read: an empty time is one. -/
def fault : Except String Time → Option String
  | .error err => some err
  | .ok t => if t.isZero then some "local PTP source returned an empty time" else none

section Read

variable {c : ApplicationClock F} {source : ℕ → Except String Time} {t : Time} {err : String}

omit [Float64 F]

/-- A good sample becomes the base of the clock. -/
theorem localNowLocked_good (hs : c.localSource = some source)
    (ht : source c.localReads = .ok t) (hz : t.isZero = false) :
    c.localNowLocked =
      (t, { c with
            localReads := c.localReads + 1
            systemReads := c.systemReads + 1
            baseSystem := c.system c.systemReads
            baseApp := t
            updatedAt := (c.system c.systemReads).wall }) := by
  rw [localNowLocked, hs]
  dsimp only
  rw [ht]
  dsimp only
  rw [hz]
  rfl

/-- The first failure removes the source and keeps the error. -/
theorem localNowLocked_fault (hs : c.localSource = some source)
    (hf : fault (source c.localReads) = some err) :
    c.localNowLocked =
      (c.baseApp.add ((c.system (c.systemReads + 1)).sub c.baseSystem),
        { c with
          localReads := c.localReads + 1
          systemReads := c.systemReads + 2
          localSource := none
          localError := some err
          synchronized := false
          updatedAt := (c.system c.systemReads).wall }) := by
  rw [localNowLocked, hs]
  dsimp only
  cases hv : source c.localReads with
  | error err' =>
      rw [hv] at hf
      cases hf
      rfl
  | ok t =>
      rw [hv, fault] at hf
      split at hf
      · rename_i hz
        cases hf
        dsimp only
        rw [hz]
        rfl
      · cases hf

/-- Without a source the clock runs on from its base. -/
theorem localNowLocked_lost (hs : c.localSource = none) :
    c.localNowLocked =
      (c.baseApp.add ((c.system c.systemReads).sub c.baseSystem),
        { c with systemReads := c.systemReads + 1 }) := by
  have h : c.localNowLocked = c.holdover := by rw [localNowLocked, hs]
  rw [h]
  rfl

end Read

/-! ## Calls that read -/

end ApplicationClock

/-- The call reads a bound source. -/
def ClockOp.isRead : ClockOp → Bool
  | .now | .fromSystem _ | .sourceStatus | .localSourceError => true
  | .bindLocalSource _ | .enablePTP | .disablePTP => false

/-- How often the system clock is read before the source. -/
def ClockOp.lead : ClockOp → ℕ
  | .fromSystem _ | .sourceStatus => 1
  | _ => 0

namespace ApplicationClock

variable {F : Type} [Float64 F]

/-- The clock when the source is read. -/
def leading (c : ApplicationClock F) (op : ClockOp) : ApplicationClock F :=
  { c with systemReads := c.systemReads + op.lead }

/-- What a reading call returns once the source is read. -/
def replyWith (c : ApplicationClock F) (op : ClockOp) (value : Time) (c' : ApplicationClock F) :
    ClockReply F :=
  match op with
  | .now => .time value
  | .fromSystem t => .time (value.add (t.sub (c.system c.systemReads).wall))
  | .sourceStatus =>
      .status
        { ptpEnabled := true
          synchronized := c'.synchronized
          offset := value.sub (c.system c.systemReads).wall
          frequencyPPB := c'.frequencyPPB
          updatedAt := c'.updatedAt }
  | .localSourceError => .error c'.localError
  | .bindLocalSource _ | .enablePTP | .disablePTP => .done

/-- A reading call is readings of the system clock and then `localNowLocked`. -/
theorem call_read {c : ApplicationClock F} {op : ClockOp} (hop : op.isRead = true)
    (hlocal : c.localMode = true) (hptp : c.ptpEnabled = true) :
    c.call op =
      (c.replyWith op (c.leading op).localNowLocked.1 (c.leading op).localNowLocked.2,
        (c.leading op).localNowLocked.2) := by
  cases op with
  | now =>
      rw [call, now, if_pos hlocal]
      rfl
  | fromSystem t =>
      rw [call, fromSystem, if_pos hlocal]
      rfl
  | sourceStatus =>
      have hptp' : ¬ (!c.ptpEnabled) = true := by
        rw [hptp]
        decide
      rw [call, sourceStatus]
      dsimp only [systemNow]
      rw [if_neg hptp', if_pos hlocal]
      rfl
  | localSourceError =>
      rw [call, localSourceError, if_pos hlocal]
      rfl
  | bindLocalSource source => exact nomatch hop
  | enablePTP => exact nomatch hop
  | disablePTP => exact nomatch hop

/-- Without a bound source, a reading call leaves all but the count of readings. -/
theorem next_unbound {c : ApplicationClock F} {op : ClockOp} (hop : op.isRead = true)
    (hlocal : c.localMode = false) : ∃ n, c.next op = { c with systemReads := n } := by
  have hlocal' : ¬ c.localMode = true := by
    rw [hlocal]
    exact Bool.false_ne_true
  cases op with
  | now =>
      refine ⟨c.systemReads + 1, ?_⟩
      rw [next, call, now, if_neg hlocal']
      dsimp only [systemNow]
      split <;> rfl
  | fromSystem t =>
      refine ⟨c.systemReads, ?_⟩
      rw [next, call, fromSystem, if_neg hlocal']
      split <;> rfl
  | sourceStatus =>
      refine ⟨c.systemReads + 1, ?_⟩
      rw [next, call, sourceStatus]
      dsimp only [systemNow]
      rw [if_neg hlocal']
      split <;> rfl
  | localSourceError =>
      refine ⟨c.systemReads, ?_⟩
      rw [next, call, localSourceError, if_neg hlocal']
  | bindLocalSource source => exact nomatch hop
  | enablePTP => exact nomatch hop
  | disablePTP => exact nomatch hop

/-! ## Loss -/

/-- The call reads the source and fails with `err`. -/
def Loses (err : String) (c : ApplicationClock F) (op : ClockOp) : Prop :=
  op.isRead = true ∧ c.localMode = true ∧
    ∃ source, c.localSource = some source ∧ fault (source c.localReads) = some err

/-- The call binds a source or switches between the time scales. -/
def Restarts (c : ApplicationClock F) : ClockOp → Prop
  | .bindLocalSource source => (c.bindLocalSource source).1 = none
  | .enablePTP | .disablePTP => True
  | _ => False

omit [Float64 F] in
/-- A sample that is good, with the reading of the system clock at which it was taken. -/
def goodSample (read : Except String Time) (r : SystemReading) : Option (Time × SystemReading) :=
  match read with
  | .ok t => if t.isZero then none else some (t, r)
  | .error _ => none

/-- The good sample that a call takes from a source. -/
def sampled (c : ApplicationClock F) : ClockOp → Option (Time × SystemReading)
  | .bindLocalSource (some source) => goodSample (source 0) (c.system c.systemReads)
  | .bindLocalSource none | .enablePTP | .disablePTP => none
  | op =>
      if c.localMode then
        c.localSource.bind fun source ↦
          goodSample (source c.localReads) (c.system (c.systemReads + op.lead))
      else none

/-- The source is lost with `err`, after `reads` reads of it and with this last good sample. -/
structure Lost (err : String) (sample : Time × SystemReading) (reads : ℕ) (c : ApplicationClock F) :
    Prop where
  ptpEnabled : c.ptpEnabled = true
  localMode : c.localMode = true
  localSource : c.localSource = none
  localError : c.localError = some err
  synchronized : c.synchronized = false
  sample : (c.baseApp, c.baseSystem) = sample
  localReads : c.localReads = reads

/-- The time `t` is the last good sample and the monotonic time since, at a reading that the call
`op` makes. -/
def Continues (sample : Time × SystemReading) (c : ApplicationClock F) (op : ClockOp) (t : Time) : Prop :=
  ∃ n, c.systemReads ≤ n ∧ n < (c.next op).systemReads ∧
    t = sample.1.add ((c.system n).sub sample.2)

/-- What a call returns once the source is lost. -/
def Holds (err : String) (sample : Time × SystemReading) (c : ApplicationClock F) (op : ClockOp) : Prop :=
  match op with
  | .now => ∃ t, c.Continues sample op t ∧ (c.call op).1 = .time t
  | .fromSystem u =>
      ∃ t, c.Continues sample op t ∧
        (c.call op).1 = .time (t.add (u.sub (c.system c.systemReads).wall))
  | .sourceStatus =>
      ∃ t status, c.Continues sample op t ∧ (c.call op).1 = .status status ∧
        status.ptpEnabled = true ∧ status.synchronized = false ∧
        status.offset = t.sub (c.system c.systemReads).wall
  | .localSourceError => (c.call op).1 = .error (some err)
  | .bindLocalSource _ | .enablePTP | .disablePTP => True

section Steps

variable {c : ApplicationClock F} {op : ClockOp} {err : String} {sample : Time × SystemReading}
  {reads : ℕ}

omit [Float64 F] in
theorem fault_eq_none {read : Except String Time} :
    fault read = none ↔ ∃ t, read = .ok t ∧ t.isZero = false := by
  cases read with
  | error err => simp [fault]
  | ok t => cases hz : t.isZero <;> simp [fault, hz]

omit [Float64 F] in
theorem goodSample_of_fault {read : Except String Time} {r : SystemReading} (h : fault read = some err) :
    goodSample read r = none := by
  cases read with
  | error err => rfl
  | ok t => cases hz : t.isZero <;> simp_all [fault, goodSample]

omit [Float64 F] in
theorem sampled_read (hop : op.isRead = true) :
    c.sampled op =
      if c.localMode then
        c.localSource.bind fun source ↦
          goodSample (source c.localReads) (c.system (c.systemReads + op.lead))
      else none := by
  cases op with
  | now => rfl
  | fromSystem t => rfl
  | sourceStatus => rfl
  | localSourceError => rfl
  | bindLocalSource source => exact nomatch hop
  | enablePTP => exact nomatch hop
  | disablePTP => exact nomatch hop

/-- A bind that fails changes nothing. -/
theorem bindLocalSource_error {source : Option (ℕ → Except String Time)}
    (h : (c.bindLocalSource source).1 = some err) : (c.bindLocalSource source).2 = c := by
  cases source with
  | none => rfl
  | some source =>
      rw [bindLocalSource] at h ⊢
      dsimp only at h ⊢
      cases hv : source 0 with
      | error err' => rfl
      | ok t =>
          rw [hv] at h
          dsimp only at h ⊢
          split at h
          · rw [if_pos ‹_›]
          · exact nomatch h

/-- What any reading call returns when `localNowLocked` has no sample to give. -/
theorem holds_of_localNowLocked {n : ℕ} (hop : op.isRead = true) (hlocal : c.localMode = true)
    (hptp : c.ptpEnabled = true) (hsample : (c.baseApp, c.baseSystem) = sample)
    (hvalue : (c.leading op).localNowLocked.1 =
      c.baseApp.add ((c.system n).sub c.baseSystem))
    (hn : (c.leading op).systemReads ≤ n ∧ n < (c.leading op).localNowLocked.2.systemReads)
    (herr : (c.leading op).localNowLocked.2.localError = some err)
    (hsync : (c.leading op).localNowLocked.2.synchronized = false) : c.Holds err sample op := by
  subst hsample
  have hcall := call_read hop hlocal hptp
  have hcontinues : c.Continues (c.baseApp, c.baseSystem) op (c.leading op).localNowLocked.1 := by
    refine ⟨n, (Nat.le_add_right _ _).trans hn.1, ?_, hvalue⟩
    rw [next, hcall]
    exact hn.2
  cases op with
  | now => exact ⟨_, hcontinues, by rw [hcall]; rfl⟩
  | fromSystem t => exact ⟨_, hcontinues, by rw [hcall]; rfl⟩
  | sourceStatus =>
      have hreply := congrArg Prod.fst hcall
      exact ⟨_, _, hcontinues, hreply, rfl, hsync, rfl⟩
  | localSourceError =>
      show _ = ClockReply.error (some err)
      rw [hcall, ← herr]
      rfl
  | bindLocalSource source => trivial
  | enablePTP => trivial
  | disablePTP => trivial

/-- The call that loses the source. -/
theorem Loses.step (h : c.Loses err op) (hptp : c.ptpEnabled = true) :
    c.Holds err (c.baseApp, c.baseSystem) op ∧
      (c.next op).Lost err (c.baseApp, c.baseSystem) (c.localReads + 1) := by
  obtain ⟨hop, hlocal, source, hs, hf⟩ := h
  have hnow : (c.leading op).localNowLocked = _ := localNowLocked_fault (c := c.leading op) hs hf
  have hcall := call_read hop hlocal hptp
  constructor
  · refine holds_of_localNowLocked (n := c.systemReads + op.lead + 1) hop hlocal hptp rfl
      ?_ ?_ ?_ ?_
    · rw [hnow]
      rfl
    · rw [hnow]
      exact ⟨Nat.le_succ _, Nat.lt_succ_self _⟩
    · rw [hnow]
    · rw [hnow]
  · rw [next, hcall, hnow]
    exact ⟨hptp, hlocal, rfl, rfl, rfl, rfl, rfl⟩

/-- Once it is lost, it stays lost until a restart. -/
theorem Lost.step (h : c.Lost err sample reads) (hop : ¬ c.Restarts op) :
    c.Holds err sample op ∧ (c.next op).Lost err sample reads := by
  cases hread : op.isRead with
  | true =>
      have hnow : (c.leading op).localNowLocked = _ :=
        localNowLocked_lost (c := c.leading op) h.localSource
      have hcall := call_read hread h.localMode h.ptpEnabled
      constructor
      · refine holds_of_localNowLocked (n := c.systemReads + op.lead) hread h.localMode h.ptpEnabled
          h.sample ?_ ?_ ?_ ?_
        · rw [hnow]
          rfl
        · rw [hnow]
          exact ⟨le_rfl, Nat.lt_succ_self _⟩
        · rw [hnow]
          exact h.localError
        · rw [hnow]
          exact h.synchronized
      · rw [next, hcall, hnow]
        exact ⟨h.ptpEnabled, h.localMode, h.localSource, h.localError, h.synchronized, h.sample,
          h.localReads⟩
  | false =>
      cases op with
      | bindLocalSource source =>
          refine ⟨trivial, ?_⟩
          obtain ⟨err', herr⟩ := Option.ne_none_iff_exists'.mp hop
          rw [next, call, bindLocalSource_error herr]
          exact h
      | enablePTP => exact absurd trivial hop
      | disablePTP => exact absurd trivial hop
      | now => exact nomatch hread
      | fromSystem t => exact nomatch hread
      | sourceStatus => exact nomatch hread
      | localSourceError => exact nomatch hread

/-- The base of a bound clock is the last good sample, `samples` being those taken so far. -/
def Follows (c : ApplicationClock F) (samples : List (Time × SystemReading)) : Prop :=
  c.localMode = true → c.ptpEnabled = true ∧ samples.head? = some (c.baseApp, c.baseSystem)

theorem Follows.step {samples : List (Time × SystemReading)} (h : c.Follows samples) (op : ClockOp) :
    (c.next op).Follows ((c.sampled op).toList ++ samples) := by
  cases hread : op.isRead with
  | true =>
      rw [sampled_read hread]
      cases hlocal : c.localMode with
      | false =>
          obtain ⟨n, hn⟩ := next_unbound hread hlocal
          intro hlocal'
          rw [hn] at hlocal'
          exact absurd (hlocal.symm.trans hlocal') Bool.false_ne_true
      | true =>
          obtain ⟨hptp, hhead⟩ := h hlocal
          rw [next, call_read hread hlocal hptp, if_pos rfl]
          intro _
          cases hs : c.localSource with
          | none =>
              have hnow : (c.leading op).localNowLocked = _ :=
                localNowLocked_lost (c := c.leading op) hs
              rw [hnow]
              exact ⟨hptp, hhead⟩
          | some source =>
              cases hf : fault (source c.localReads) with
              | some err =>
                  have hnow : (c.leading op).localNowLocked = _ :=
                    localNowLocked_fault (c := c.leading op) hs hf
                  rw [hnow, Option.bind_some, goodSample_of_fault hf]
                  exact ⟨hptp, hhead⟩
              | none =>
                  obtain ⟨t, ht, hz⟩ := fault_eq_none.mp hf
                  have hnow : (c.leading op).localNowLocked = _ :=
                    localNowLocked_good (c := c.leading op) hs ht hz
                  rw [hnow, Option.bind_some, ht, goodSample, hz]
                  exact ⟨hptp, rfl⟩
  | false =>
      cases op with
      | enablePTP => exact fun hlocal ↦ absurd hlocal Bool.false_ne_true
      | disablePTP => exact fun hlocal ↦ absurd hlocal Bool.false_ne_true
      | bindLocalSource source =>
          cases source with
          | none => exact h
          | some source =>
              rw [next, call, bindLocalSource, sampled]
              dsimp only
              cases hv : source 0 with
              | error err => exact h
              | ok t =>
                  dsimp only [goodSample]
                  cases t.isZero with
                  | true => exact h
                  | false => exact fun _ ↦ ⟨rfl, rfl⟩
      | now => exact nomatch hread
      | fromSystem t => exact nomatch hread
      | sourceStatus => exact nomatch hread
      | localSourceError => exact nomatch hread

end Steps

/-! ## Whole runs -/

/-- **Loss of the local source is latched.**  From the creation of the clock through any calls, let
one of them read the source and fail.  That call and all later ones up to a restart (a bind that
succeeds, or the clock enabled or disabled) return the last good sample carried on by monotonic
time, no synchronization and the error; the source is gone and is not read again.  And a bind that
fails changes nothing. -/
theorem local_source_loss_latched (maxPPB : F) (system : ℕ → SystemReading) :
    (∀ (before : List ClockOp) (op : ClockOp) (after : List ClockOp) (err : String),
      let start : ApplicationClock F := .new maxPPB system
      let c := before.foldl next start
      c.Loses err op → Meets next (fun c op ↦ ¬ c.Restarts op) (c.next op) after →
      ∃ sample, (history next sampled start before).head? = some sample ∧
        c.Holds err sample op ∧
        Always next (Lost err sample (c.localReads + 1)) (c.next op) after ∧
        Meets next (Holds err sample) (c.next op) after) ∧
    ∀ (c : ApplicationClock F) (source : Option (ℕ → Except String Time)) (err : String),
      (c.bindLocalSource source).1 = some err → (c.bindLocalSource source).2 = c := by
  refine ⟨fun before op after err ↦ ?_, fun c source err ↦ bindLocalSource_error⟩
  intro start c hloses hafter
  have hfollows : c.Follows (history next sampled start before) := by
    refine inv_history (K := Follows) (fun c samples op h ↦ h.step op) ?_ before
    exact fun hlocal ↦ absurd hlocal Bool.false_ne_true
  obtain ⟨hptp, hsample⟩ := hfollows hloses.2.1
  obtain ⟨hholds, hlost⟩ := hloses.step hptp
  refine ⟨_, hsample, hholds, ?_, ?_⟩
  · exact always_of_inv (fun c op h hop ↦ (h.step hop).2) (fun c h ↦ h) hlost hafter
  · exact hafter.imp (fun c op h hop ↦ (h.step hop).2) (fun c op h hop ↦ (h.step hop).1) hlost

/-- A source that gives two samples and then stops. -/
def exampleSource (n : ℕ) : Except String Time :=
  if n < 2 then .ok (.ofUnix (100 + n) 0) else .error "server stopped"

/-- The system clock at one reading a second. -/
def exampleSystem (n : ℕ) : SystemReading := ⟨.ofUnix n 0, n * 1000000000⟩

/-- The source is lost at the query of the status, and a bind without a source does not bring it
back. -/
theorem local_source_loss_latched_example :
    let c : ApplicationClock ℚ := [.bindLocalSource (some exampleSource), .now].foldl next
      (.new 500000 exampleSystem)
    c.Loses "server stopped" .sourceStatus ∧
      ∃ sample, sample.1 = .ofUnix 101 0 ∧
        Meets next (Holds "server stopped" sample) (c.next .sourceStatus)
          [.now, .bindLocalSource none, .localSourceError] := by
  intro c
  have hloses : c.Loses "server stopped" .sourceStatus :=
    ⟨rfl, by decide, exampleSource, rfl, by decide⟩
  refine ⟨hloses, ?_⟩
  obtain ⟨sample, hsample, -, -, hholds⟩ := (local_source_loss_latched 500000 exampleSystem).1
    [.bindLocalSource (some exampleSource), .now] .sourceStatus
    [.now, .bindLocalSource none, .localSourceError] "server stopped" hloses
    ⟨id, ⟨Option.some_ne_none _, id, trivial⟩⟩
  refine ⟨sample, ?_, hholds⟩
  cases hsample
  rfl

end ApplicationClock

end ProcessBus
