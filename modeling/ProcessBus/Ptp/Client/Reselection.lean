import ProcessBus.Lib.Run
import ProcessBus.Ptp.Client.Effects

/-!
# Calls that select a master

Three kinds of calls run the best master clock algorithm: an accepted Announce, a rejected one
and the timeout check (`Service.reselection`).  Each first changes the table of foreign masters
and then selects; what follows depends on how the selection compares with the previous one.
`Reselection.Outcome` lists what can follow, and every such call has one of these outcomes
(`step_outcome`).

The outcome to look at is `unnoticed`: the call returns with a new selection and does nothing
about it.  It is harmless when there was no master before or it is still the same; but an
accepted Announce also returns so when it leaves no qualified master at all, and a rejected one
whenever its sender is not the selected master.  Every other change of the master is noticed
(`Notices`), and drops the measurement that is under way.

All other calls are sequences of effects, a repeated Announce, or the start or the end of the
client (`step_of_no_reselection`).
-/

namespace ProcessBus.Ptp.Client

open Go Lib

set_option linter.unusedSectionVars false

variable {F C T : Type} [Float64 F] [Clock C F] [Transport T]

/-! ## Elections -/

/-- The outcome of the best master clock algorithm on a table. -/
def elect (t : Table PortIdentity ForeignMaster) (ord : MapOrder ForeignMaster)
    (port : PortIdentity) : Option ForeignMaster :=
  selectBestMaster ((ord.order t.vals).filter ForeignMaster.qualified) port

section Elect

variable {t : Table PortIdentity ForeignMaster} {ord : MapOrder ForeignMaster}
  {port : PortIdentity}

/-- The elected master is a qualified one of the table. -/
theorem elect_mem {m : ForeignMaster} (h : elect t ord port = some m) :
    m ∈ t.vals ∧ m.qualified = true := by
  have hm := List.mem_filter.mp (scan_mem h)
  exact ⟨(ord.perm _).mem_iff.mp hm.1, hm.2⟩

/-- Nobody is elected exactly when nobody is qualified. -/
theorem elect_eq_none : elect t ord port = none ↔ ¬ ∃ m ∈ t.vals, m.qualified = true := by
  unfold elect selectBestMaster
  rw [scan_eq_none, List.filter_eq_nil_iff]
  simp only [(ord.perm _).mem_iff, not_exists, not_and]

end Elect

/-! ## Reselections -/

/-- Why a call selects a master. -/
inductive Cause
  | accepted
  | rejected (source : PortIdentity)
  | timeout
deriving DecidableEq

/-- A selection: its cause, the table it is made from, and the order of iteration. -/
structure Reselection where
  cause : Cause
  table : Table PortIdentity ForeignMaster
  ord : MapOrder ForeignMaster

namespace Service

/-- The selection that an Announce causes. -/
def announceReselection (s : Service F C T) (hdr : Header) (body : Bytes) (now : Time)
    (ord : MapOrder ForeignMaster) : Option Reselection :=
  match announceVerdict s.profile hdr body with
  | .bad => none
  | .reject =>
      some ⟨.rejected hdr.sourcePortIdentity, s.foreignMasters.erase hdr.sourcePortIdentity, ord⟩
  | .valid ann tlvs =>
      if (s.recordAnnounce hdr now).2 then
        some ⟨.accepted, s.foreignMasters.insert hdr.sourcePortIdentity
          (s.announcedMaster hdr ann tlvs now), ord⟩
      else none

/-- The selection that a call makes, if any. -/
def reselection (s : Service F C T) : Call → Option Reselection
  | .general pkt now ord =>
      match s.unpack pkt with
      | none => none
      | some (hdr, body) =>
          if hdr.messageType = msgAnnounce then s.announceReselection hdr body now ord else none
  | .timeouts now ord => some ⟨.timeout, s.liveMasters now, ord⟩
  | _ => none

/-- The selected master of a selection. -/
def next (s : Service F C T) (r : Reselection) : Option ForeignMaster :=
  elect r.table r.ord s.selfID

/-- The state after a selection, before anything follows from it. -/
def selected (s : Service F C T) (r : Reselection) : Service F C T :=
  { s with
    foreignMasters := r.table
    bestMaster := (s.next r).map ForeignMaster.identity
    utcOffset := ((s.next r).map ForeignMaster.utcOffset).getD 0 }

/-- What `rejectMaster` also drops when no master is left. -/
def forgetRequests (s : Service F C T) : Service F C T :=
  { s with delayReqPending := false, pdelayReqPending := false, pendingPDelayFUs := [] }

/-- The selection is the same as before. -/
def SameMaster (s : Service F C T) (r : Reselection) : Prop :=
  s.bestMaster = (s.next r).map ForeignMaster.identity

theorem SameMaster.of_eq {s : Service F C T} {r : Reselection} {best : ForeignMaster}
    (hnext : s.next r = some best) (h : s.bestMaster = some best.identity) : s.SameMaster r := by
  rw [SameMaster, h, hnext]
  rfl

/-- What follows a selection. -/
inductive Outcome (s : Service F C T) (r : Reselection) : Service F C T → Prop
  /-- Nothing follows: there was no master, or it is the same; or, which is the same to the
  handler, an accepted Announce leaves no master, or a rejected one is not the selected
  master's. -/
  | unnoticed
      (h : s.bestMaster = none ∨ s.SameMaster r ∨ r.cause = .accepted ∧ s.next r = none ∨
        ∃ source, r.cause = .rejected source ∧ s.bestMaster ≠ some source) :
      Outcome s r (s.selected r)
  /-- A port that was listening begins to follow. -/
  | begins (h : s.bestMaster = none) (hnext : s.next r ≠ none) :
      Outcome s r ((s.selected r).transition .rsSlave)
  /-- The port follows another master. -/
  | changes (h : s.bestMaster ≠ none) (hnext : s.next r ≠ none) :
      Outcome s r (s.selected r).masterChanged
  /-- The port has no master any more. -/
  | loses (h : s.bestMaster ≠ none) (hnext : s.next r = none) (hcause : r.cause = .timeout) :
      Outcome s r ((s.selected r).dropMeasurement.transition .announceTimeout)
  /-- The selected master was rejected and there is no other one. -/
  | forgets (h : s.bestMaster ≠ none) (hnext : s.next r = none)
      (hcause : ∃ source, r.cause = .rejected source ∧ s.bestMaster = some source) :
      Outcome s r ((s.selected r).forgetRequests.dropMeasurement.transition .announceTimeout)
  /-- No Sync has arrived for too long. -/
  | faults (h : s.bestMaster = none ∨ s.SameMaster r) (hcause : r.cause = .timeout) :
      Outcome s r ((s.selected r).dropMeasurement.transition .syncFault)

theorem rejectMaster_outcome (s : Service F C T) (hdr : Header) (ord : MapOrder ForeignMaster) :
    let source := hdr.sourcePortIdentity
    Outcome s ⟨.rejected source, s.foreignMasters.erase source, ord⟩ (s.rejectMaster hdr ord) := by
  intro source
  unfold rejectMaster
  dsimp only
  split
  · rename_i hother
    exact .unnoticed (.inr (.inr (.inr ⟨source, rfl, hother⟩)))
  · rename_i hown
    have hbest : s.bestMaster ≠ none := by
      rw [not_not.mp hown]
      exact Option.some_ne_none _
    split
    · rename_i m hm
      exact .changes hbest (ne_of_eq_of_ne hm (Option.some_ne_none m))
    · rename_i hm
      exact .forgets hbest hm ⟨source, rfl, not_not.mp hown⟩

theorem acceptAnnounce_outcome (s : Service F C T) (hdr : Header) (ann : AnnounceBody)
    (tlvs : AnnounceProfileTLVs) (now : Time) (ord : MapOrder ForeignMaster)
    (h : (s.recordAnnounce hdr now).2 = true) :
    Outcome s ⟨.accepted, s.foreignMasters.insert hdr.sourcePortIdentity
      (s.announcedMaster hdr ann tlvs now), ord⟩ (s.acceptAnnounce hdr ann tlvs now ord) := by
  unfold acceptAnnounce
  dsimp only
  rw [if_neg (by rw [h]; decide)]
  split
  · rename_i hnext
    exact .unnoticed (.inr (.inr (.inl ⟨rfl, hnext⟩)))
  · rename_i best prevBest hnext hprev
    split
    · exact .changes (ne_of_eq_of_ne hprev (Option.some_ne_none _))
        (ne_of_eq_of_ne hnext (Option.some_ne_none _))
    · rename_i hsame
      exact .unnoticed (.inr (.inl (.of_eq hnext (not_not.mp hsame ▸ hprev))))
  · rename_i best hnext hprev
    split
    · exact .begins hprev (ne_of_eq_of_ne hnext (Option.some_ne_none _))
    · exact .unnoticed (.inl hprev)

theorem checkTimeouts_outcome (s : Service F C T) (now : Time) (ord : MapOrder ForeignMaster) :
    Outcome s ⟨.timeout, s.liveMasters now, ord⟩ (s.checkTimeouts now ord) := by
  have hsync (hsame : s.bestMaster = none ∨ s.SameMaster ⟨.timeout, s.liveMasters now, ord⟩) :
      Outcome s ⟨.timeout, s.liveMasters now, ord⟩
        ((s.selected ⟨.timeout, s.liveMasters now, ord⟩).checkSync now) := by
    unfold checkSync
    split
    · exact .faults hsame rfl
    · exact .unnoticed (hsame.imp_right .inl)
  unfold checkTimeouts
  dsimp only
  split
  · rename_i hprev hnext
    exact .loses (ne_of_eq_of_ne hprev (Option.some_ne_none _)) hnext rfl
  · rename_i previousBest best hprev hnext
    split
    · exact .changes (ne_of_eq_of_ne hprev (Option.some_ne_none _))
        (ne_of_eq_of_ne hnext (Option.some_ne_none _))
    · rename_i hsame
      exact hsync (.inr (.of_eq hnext (not_not.mp hsame ▸ hprev)))
  · rename_i hprev
    exact hsync (.inl hprev)

/-- Every call that selects a master has one of the outcomes. -/
theorem step_outcome {s : Service F C T} {c : Call} {r : Reselection}
    (h : s.reselection c = some r) : Outcome s r (s.step c) := by
  cases c with
  | general pkt now ord =>
      simp only [reselection] at h
      split at h
      · cases h
      rename_i hdr body hpkt
      split at h
      · rename_i hann
        have hstep : s.step (.general pkt now ord) = s.handleAnnounce hdr body now ord := by
          simp only [step, handleGeneral, hpkt, if_pos hann]
        rw [hstep]
        unfold handleAnnounce
        unfold announceReselection at h
        cases hverdict : announceVerdict s.profile hdr body with
        | bad =>
            rw [hverdict] at h
            cases h
        | reject =>
            rw [hverdict] at h
            cases h
            exact rejectMaster_outcome s hdr ord
        | valid ann tlvs =>
            rw [hverdict] at h
            dsimp only at h
            split at h
            · rename_i hrec
              cases h
              exact acceptAnnounce_outcome s hdr ann tlvs now ord hrec
            · cases h
      · cases h
  | timeouts now ord =>
      cases h
      exact checkTimeouts_outcome s now ord
  | start | event pkt now | delayRequest | stop failed => cases h

/-! ## Other calls -/

/-- What a call does that selects no master. -/
inductive Plain (s : Service F C T) (c : Call) : Service F C T → Prop
  | nothing : Plain s c s
  | effects {hdr : Header} {pkt : Packet} {body : Bytes} {s' : Service F C T}
      (hpkt : s.unpack pkt = some (hdr, body))
      (hcall : (∃ now, c = .event pkt now) ∨ ∃ now ord, c = .general pkt now ord)
      (h : Effects hdr pkt.tag s s') : Plain s c s'
  | request {s' : Service F C T} (hcall : c = .delayRequest)
      (h : ∀ hdr tag, Effects hdr tag s s') : Plain s c s'
  | repeated (hdr : Header) (now : Time) (h : (s.recordAnnounce hdr now).2 = false) :
      Plain s c { s with
        foreignMasters :=
          s.foreignMasters.insert hdr.sourcePortIdentity (s.recordAnnounce hdr now).1 }
  | start : Plain s c (s.transition .initComplete)
  | stop (failed : Bool) :
      Plain s c
        { s.setClockSynchronized false with state := if failed then .faulty else .stopped }

/-- Every call that selects no master is plain. -/
theorem step_of_no_reselection {s : Service F C T} {c : Call} (h : s.reselection c = none) :
    Plain s c (s.step c) := by
  cases c with
  | start => exact .start
  | event pkt now =>
      rcases handleEvent_effects s pkt now with he | ⟨hdr, body, hpkt, he⟩
      · rw [step, he]
        exact .nothing
      · exact .effects hpkt (.inl ⟨now, rfl⟩) he
  | general pkt now ord =>
      rcases handleGeneral_effects s pkt now ord with he | ⟨hdr, body, hpkt, ⟨hann, he⟩ | ⟨-, he⟩⟩
      · rw [step, he]
        exact .nothing
      · simp only [reselection, hpkt, if_pos hann, announceReselection] at h
        rw [step, he, handleAnnounce]
        cases hverdict : announceVerdict s.profile hdr body with
        | bad => exact .nothing
        | reject =>
            rw [hverdict] at h
            cases h
        | valid ann tlvs =>
            rw [hverdict] at h
            dsimp only at h
            split at h
            · cases h
            · rename_i hrec
              rw [Bool.not_eq_true] at hrec
              simp only [acceptAnnounce, hrec, Bool.not_false, if_true]
              exact .repeated hdr now hrec
      · exact .effects hpkt (.inr ⟨now, ord, rfl⟩) he
  | timeouts now ord => cases h
  | delayRequest => exact .request rfl fun hdr tag ↦ sendDelayRequest_effects s hdr tag
  | stop failed => exact .stop failed

/-- A plain call is a sequence of effects, or touches nothing but the table, the clock and the
port state. -/
theorem Plain.cases {s s' : Service F C T} {c : Call} (h : Plain s c s') :
    (∃ hdr tag, Effects hdr tag s s') ∨
      ∃ fm clk state, s' = { s with foreignMasters := fm, clk := clk, state := state } := by
  cases h with
  | effects _ _ h => exact .inl ⟨_, _, h⟩
  | request _ h => exact .inl ⟨s.requestHeader msgDelayReq controlDelayReq 0, 0, h _ _⟩
  | nothing | repeated | start | stop => exact .inr ⟨_, _, _, rfl⟩

/-! ## Noticed changes -/

/-- The selections that the handler acts on if they are not as before: that of an accepted
Announce if there is a master, that of a rejected one if it is the selected master's own, and
that of the timeout check. -/
def ActsOn (s : Service F C T) (r : Reselection) : Prop :=
  match r.cause with
  | .accepted => s.next r ≠ none
  | .rejected source => s.bestMaster = some source
  | .timeout => True

instance (s : Service F C T) (r : Reselection) : Decidable (s.SameMaster r) :=
  inferInstanceAs (Decidable (_ = _))

instance (s : Service F C T) (r : Reselection) : Decidable (s.ActsOn r) :=
  match h : r.cause with
  | .accepted => decidable_of_iff (s.next r ≠ none) (by rw [ActsOn, h])
  | .rejected source => decidable_of_iff (s.bestMaster = some source) (by rw [ActsOn, h])
  | .timeout => isTrue (by rw [ActsOn, h]; trivial)

/-- There was a master, it is not the same any more, and the handler acts on it. -/
def Notices (s : Service F C T) (r : Reselection) : Prop :=
  s.bestMaster ≠ none ∧ ¬ s.SameMaster r ∧ s.ActsOn r

instance (s : Service F C T) (r : Reselection) : Decidable (s.Notices r) :=
  inferInstanceAs (Decidable (_ ∧ _))

/-- The selected master is rejected and there is no other one. -/
def Forgets (s : Service F C T) (r : Reselection) : Prop :=
  s.next r = none ∧ s.bestMaster.map Cause.rejected = some r.cause

instance (s : Service F C T) (r : Reselection) : Decidable (s.Forgets r) :=
  inferInstanceAs (Decidable (_ ∧ _))

/-- A noticed change drops the measurement. -/
theorem Outcome.dropped {s s' : Service F C T} {r : Reselection} (h : Outcome s r s')
    (hr : s.Notices r) : s'.tsproc = s.tsproc.reset ∧ s'.syncReceived = false := by
  obtain ⟨hbest, hchanged, hacts⟩ := hr
  cases h with
  | unnoticed h =>
      rcases h with h | h | ⟨h, hnext⟩ | ⟨source, h, hother⟩
      · exact absurd h hbest
      · exact absurd h hchanged
      · rw [ActsOn, h] at hacts
        exact absurd hnext hacts
      · rw [ActsOn, h] at hacts
        exact absurd hacts hother
  | begins h => exact absurd h hbest
  | changes | loses | forgets | faults => exact ⟨rfl, rfl⟩

/-- When the last master is rejected, the requests are dropped too. -/
theorem Outcome.forgotten {s s' : Service F C T} {r : Reselection} (h : Outcome s r s')
    (hr : s.Forgets r) : s'.pdelayReqPending = false := by
  obtain ⟨hnext, hrejected⟩ := hr
  obtain ⟨source, hown, hcause⟩ := Option.map_eq_some_iff.mp hrejected
  cases h with
  | unnoticed h =>
      rcases h with h | h | ⟨h, -⟩ | ⟨source', h, hother⟩
      · cases hown.symm.trans h
      · rw [SameMaster, hnext, hown] at h
        cases h
      · cases hcause.trans h
      · cases hcause.trans h
        exact absurd hown hother
  | begins _ hsome | changes _ hsome => exact absurd hnext hsome
  | loses _ _ h | faults _ h => cases hcause.trans h
  | forgets => rfl

/-! ## Frames -/

/-- Whatever follows a selection does not touch it. -/
theorem Outcome.selection {s s' : Service F C T} {r : Reselection} (h : Outcome s r s') :
    s'.selection = (s.selected r).selection := by
  cases h <;> rfl

/-- The processor is kept or reset. -/
theorem Outcome.tsproc {s s' : Service F C T} {r : Reselection} (h : Outcome s r s') :
    s'.tsproc = s.tsproc ∨ s'.tsproc = s.tsproc.reset := by
  cases h with
  | unnoticed | begins => exact .inl rfl
  | changes | loses | forgets | faults => exact .inr rfl

/-- A response is only awaited if it was before. -/
theorem Outcome.awaitsPDelay {s s' : Service F C T} {r : Reselection} (h : Outcome s r s')
    (hawait : s'.AwaitsPDelay) : s.AwaitsPDelay := by
  cases h with
  | forgets => cases hawait.pending
  | unnoticed | begins | changes | loses | faults => exact ⟨hawait.pending, hawait.received⟩

/-- Of the rest, it only affects whether a Sync is being answered. -/
theorem Outcome.rest {s s' : Service F C T} {r : Reselection} (h : Outcome s r s') :
    s'.rest = { (s.selected r).rest with syncReceived := s'.syncReceived } := by
  cases h <;> rfl

/-- A plain call does not touch the selection, or records a repeated Announce. -/
theorem Plain.selection {s s' : Service F C T} {c : Call} (h : Plain s c s') :
    s'.selection = s.selection ∨
      ∃ hdr now, (s.recordAnnounce hdr now).2 = false ∧
        s'.selection = { s.selection with
          foreignMasters :=
            s.foreignMasters.insert hdr.sourcePortIdentity (s.recordAnnounce hdr now).1 } := by
  cases h with
  | nothing | start | stop => exact .inl rfl
  | effects _ _ h => exact .inl (Effects.selection h)
  | request _ h =>
      exact .inl (Effects.selection (h (s.requestHeader msgDelayReq controlDelayReq 0) 0))
  | repeated hdr now h => exact .inr ⟨hdr, now, h, rfl⟩

end Service

/-! ## A client on a bench -/

namespace Bench

/-- A network that accepts everything and reports the same transmit time. -/
structure Wire where
  sentAt : Time

instance : Transport Wire where
  timestampMode _ := "software"
  sendEvent w _ := (.ok w.sentAt, w)
  sendEventTo w _ _ := (.ok w.sentAt, w)
  sendGeneral w _ := (none, w)
  sendGeneralTo w _ _ := (none, w)

def seconds (n : ℤ) : Time := .ofUnix n 0

/-- Port 1 of the clock whose identity repeats `n`. -/
def port (n : UInt8) : PortIdentity := ⟨.replicate 8 n, 1⟩

/-- The clock of the bench, before PTP has disciplined it; it is read every twenty seconds. -/
def clock : ApplicationClock ℚ :=
  (ApplicationClock.new 500000 fun n ↦ seconds (20 * n)).enablePTP

def wire : Wire := ⟨seconds 100⟩

def config : Config := ⟨defaultProfile, "udp", none, 0⟩

/-- A client of the default profile. -/
def client : Service ℚ (ApplicationClock ℚ) Wire := .new (fun _ _ ↦ 1) wire clock (port 0) config

/-- The order of the entries. -/
def inOrder : MapOrder ForeignMaster := ⟨id, fun _ ↦ .refl _⟩

/-- An Announce of the master `source`, which is its own grandmaster. -/
def announce (source : PortIdentity) (sequenceID : UInt16) (logInterval : Int8)
    (utcOffset : Int16) : Packet where
  data := encodeAnnounce
    { messageType := msgAnnounce
      flagField := flagPTPTimescale ||| flagCurrentUtcOffsetValid
      sourcePortIdentity := source
      sequenceID := sequenceID
      controlField := controlOther
      logMessageInterval := logInterval }
    { originTimestamp := ⟨0, 0⟩
      currentUtcOffset := utcOffset
      reserved := 0
      grandmasterPriority1 := 128
      grandmasterClockQuality := ⟨6, 0x21, 0x4E5D⟩
      grandmasterPriority2 := 128
      grandmasterIdentity := source.clockIdentity
      stepsRemoved := 0
      timeSource := 0x20 }
  source := "master"
  timestamp := .zero
  tag := 0

/-- The calls that make a client select a master: two Announces, one second apart. -/
def selects (source : PortIdentity) (utcOffset : Int16) : List Call :=
  [.general (announce source 1 1 utcOffset) (seconds 0) inOrder,
    .general (announce source 2 1 utcOffset) (seconds 1) inOrder]

/-- A two-step Sync of the transmission `tag`, received at `rxTime`. -/
def sync (source : PortIdentity) (tag : ℕ) (rxTime : Time) : Packet where
  data := encodeTimestampMessage
    { messageType := msgSync
      flagField := flagTwoStep
      sourcePortIdentity := source
      sequenceID := UInt16.ofNat tag
      controlField := controlSync
      logMessageInterval := 0 } ⟨⟨0, 0⟩⟩
  source := "master"
  timestamp := rxTime
  tag := tag

/-- The Follow_Up of the transmission `tag`. -/
def followUp (source : PortIdentity) (tag : ℕ) (origin : Timestamp) : Packet where
  data := encodeTimestampMessage
    { messageType := msgFollowUp
      sourcePortIdentity := source
      sequenceID := UInt16.ofNat tag
      controlField := controlFollowUp
      logMessageInterval := 0 } ⟨origin⟩
  source := "master"
  timestamp := .zero
  tag := tag

/-- The answer to the Delay_Req of the client with this sequence number. -/
def delayResp (source : PortIdentity) (sequenceID : UInt16) (received : Timestamp) : Packet where
  data := encodeResponse
    { messageType := msgDelayResp
      sourcePortIdentity := source
      sequenceID := sequenceID
      controlField := controlDelayResp
      logMessageInterval := 0 } ⟨received, port 0⟩
  source := "master"
  timestamp := .zero
  tag := 0

/-- A delay measurement, as far as the client needs it from `source`. -/
def measuresDelay (source : PortIdentity) : List Call :=
  [.delayRequest, .general (delayResp source 0 ⟨138, 0⟩) (seconds 2) inOrder]

/-- A Sync with its Follow_Up. -/
def measuresOffset (source : PortIdentity) (tag : ℕ) : List Call :=
  [.event (sync source tag (seconds 200)) (seconds 5),
    .general (followUp source tag ⟨236, 0⟩) (seconds 5) inOrder]

/-- The calls after which the clock is locked to a master. -/
def locks (source : PortIdentity) : List Call :=
  .start :: selects source 37 ++ measuresDelay source ++ measuresOffset source 5 ++
    measuresOffset source 6

/-- A timeout check long after the last Announce. -/
def expires : Call := .timeouts (seconds 60) inOrder

end Bench

end ProcessBus.Ptp.Client
