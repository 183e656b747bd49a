import ProcessBus.Ptp.Client.Accuracy
import ProcessBus.Ptp.Client.Reselection
import ProcessBus.Ptp.Course

/-!
# Offset and delay

The client's clock is `theta` nanoseconds ahead of the server's, the path takes `D` nanoseconds in
each direction, and transparent clocks report what they add to it.  At the end of every
conversation the client has measured `theta` and `D` (`measurement_exact`): end to end within one
nanosecond, peer to peer within one for the delay and two for the offset, which is made of both, and
exactly if no residence time has a fraction of a nanosecond.

There are limits, since the client computes in 64 bits: it adds corrections and doubles the results
before it halves them (`measurement_limits`).
-/

namespace ProcessBus.Ptp.Conversation

open Go Client

set_option linter.unusedSectionVars false

variable {T F C T' : Type} [Transport T] [Float64 F] [Clock C F] [Transport T']

/-- The path takes `D` in both directions and the client's clock is ahead by `theta`; the
differences of timestamps that the client forms fit 64 bits. -/
@[mk_iff]
structure Takes (x : Conversation T) (theta D : ℤ) : Prop where
  sync : Leg (D + theta) x.syncCorrection x.t1 x.t2
  delayReq : x.p2p = false → Leg (D - theta) x.delayCorrection x.t3 x.t4
  pdelayReq : x.p2p = true → Leg (D - theta) (residence x.viaRequest) x.t3 x.t4
  pdelayResp : x.p2p = true → Leg (D + theta) x.responseCorrection x.t5 x.t6
  nonneg : x.p2p = true → 0 ≤ D
  sub_t1 : Fits64 (x.t2.ns - x.t1.ns)
  sub_t3 : x.p2p = false → Fits64 (x.t4.ns - x.t3.ns)
  peerSub_t3 : x.p2p = true → Fits64 (x.t6.ns - x.t3.ns)
  peerSub_t4 : x.p2p = true → Fits64 (x.t5.ns - x.t4.ns)

/-- The sums of corrections and the doubled results fit 64 bits. -/
@[mk_iff]
structure Fits (x : Conversation T) (theta D : ℤ) : Prop where
  theta : Halves theta
  D : Halves D
  sync : Fits64 x.syncCorrection
  delay : x.p2p = false → Fits64 x.delayCorrection
  peer : x.p2p = true → Fits64 (residence x.viaRequest + x.responseCorrection)

/-- The offset and delay that the client computes end to end. -/
theorem Ready.offsetE2E {x : Conversation T} {p : TsProc} {theta D : ℤ} (hp : x.Ready p)
    (ht : x.InTime) (htakes : x.Takes theta D) (hfits : x.Fits theta D) (hE2E : x.p2p = false) :
    ∃ offset delay, p.offsetE2E = some (offset, delay) ∧
      Approximates 1 (IsWhole x.syncCorrection ∧ IsWhole x.delayCorrection) offset theta ∧
      Approximates 1 (IsWhole x.syncCorrection ∧ IsWhole x.delayCorrection) delay D := by
  obtain ⟨ht3, ht4, hcorrection⟩ := hp.delay hE2E
  refine TsProc.offsetE2E_accurate ?_ ?_ ?_ ?_ ?_ hp.correction hcorrection hfits.sync
    (hfits.delay hE2E) hfits.theta hfits.D
  · rw [hp.t1, hp.t2, ht3, ht4]
    exact ⟨ht.t1.isZero, ht.t2.isZero, ht.t3.isZero, ht.t4.isZero⟩
  · rw [hp.t1, hp.t2]
    exact htakes.sync
  · rw [ht3, ht4]
    exact htakes.delayReq hE2E
  · rw [hp.t1, hp.t2]
    exact htakes.sub_t1
  · rw [ht3, ht4]
    exact htakes.sub_t3 hE2E

/-- The peer delay and the offset that it computes peer to peer. -/
theorem Ready.offsetP2P {x : Conversation T} {p : TsProc} {theta D : ℤ} (hp : x.Ready p)
    (ht : x.InTime) (htakes : x.Takes theta D) (hfits : x.Fits theta D) (hP2P : x.p2p = true) :
    Approximates 1 (IsWhole (residence x.viaRequest) ∧ IsWhole x.responseCorrection) p.peerDelay D ∧
      ∃ offset, p.offsetP2P = some offset ∧
        Approximates 2 ((IsWhole (residence x.viaRequest) ∧ IsWhole x.responseCorrection) ∧
          IsWhole x.syncCorrection) offset theta := by
  have hpeer : Approximates 1 (IsWhole (residence x.viaRequest) ∧ IsWhole x.responseCorrection)
      p.peerDelay D := by
    rw [hp.peer hP2P]
    exact peerDelay_accurate (htakes.pdelayReq hP2P) (htakes.pdelayResp hP2P)
      (htakes.peerSub_t3 hP2P) (htakes.peerSub_t4 hP2P) (hfits.peer hP2P) hfits.D
      (htakes.nonneg hP2P)
  refine ⟨hpeer, TsProc.offsetP2P_accurate ?_ ?_ ?_ hp.correction hfits.sync hpeer hfits.theta⟩
  · rw [hp.t1, hp.t2]
    exact ⟨ht.t1.isZero, ht.t2.isZero⟩
  · rw [hp.t1, hp.t2]
    exact htakes.sync
  · rw [hp.t1, hp.t2]
    exact htakes.sub_t1

/-- **The client measures the offset of its clock and the path delay.**  End to end both are exact
up to one nanosecond.  Peer to peer so is the delay, and the offset up to two.  All are exact if the
corrections are whole nanoseconds. -/
theorem measurement_exact {x : Conversation T} {theta D : ℤ} (hx : x.Served) (ht : x.InTime)
    (htakes : x.Takes theta D) (hfits : x.Fits theta D) {s : Client.Service F C T'}
    (hs : Completed x s) :
    (x.p2p = false →
      (∃ ts best, .offsetE2E ts best ∈ s.log ∧
        ts.offsetE2E = some (s.lastOffset, s.meanPathDelay)) ∧
      Approximates 1 (IsWhole x.syncCorrection ∧ IsWhole x.delayCorrection) s.lastOffset theta ∧
      Approximates 1 (IsWhole x.syncCorrection ∧ IsWhole x.delayCorrection) s.meanPathDelay D) ∧
    (x.p2p = true →
      (∃ ts, .offsetP2P ts ∈ s.log ∧ ts.offsetP2P = some s.lastOffset ∧
        ts.peerDelay = s.meanPathDelay) ∧
      Approximates 2 ((IsWhole (residence x.viaRequest) ∧ IsWhole x.responseCorrection) ∧
        IsWhole x.syncCorrection) s.lastOffset theta ∧
      Approximates 1 (IsWhole (residence x.viaRequest) ∧ IsWhole x.responseCorrection)
        s.meanPathDelay D) := by
  obtain ⟨u, now, rfl, hp2p, hready⟩ := hs.ready hx ht
  refine ⟨?_, ?_⟩
  · intro hE2E
    obtain ⟨offset, delay, hres, hoffset, hdelay⟩ := hready.offsetE2E ht htakes hfits hE2E
    have hu : ¬ u.isP2P = true := by
      rw [hp2p, hE2E]
      exact Bool.false_ne_true
    have hsync : u.syncResult = some (offset, delay) := by
      rw [Service.syncResult, if_neg hu]
      exact hres
    obtain ⟨ho, hd, hlog⟩ := Service.processSyncComplete_results hsync now
    rw [Service.measured, if_neg hu] at hlog
    rw [ho, hd]
    exact ⟨⟨_, _, hlog, hres⟩, hoffset, hdelay⟩
  · intro hP2P
    obtain ⟨hpeer, offset, hres, hoffset⟩ := hready.offsetP2P ht htakes hfits hP2P
    have hu : u.isP2P = true := hp2p.trans hP2P
    have hsync : u.syncResult = some (offset, u.tsproc.peerDelay) := by
      rw [Service.syncResult, if_pos hu, hres]
      rfl
    obtain ⟨ho, hd, hlog⟩ := Service.processSyncComplete_results hsync now
    rw [Service.measured, if_pos hu] at hlog
    rw [ho, hd]
    exact ⟨⟨_, hlog, hres, rfl⟩, hoffset, hpeer⟩

/-! ## A bench -/

instance (x : Conversation T) : Decidable x.Served := decidable_of_iff' _ (served_iff x)
instance (x : Conversation T) : Decidable x.InTime := decidable_of_iff' _ (inTime_iff x)

instance (x : Conversation T) (theta D : ℤ) : Decidable (x.Takes theta D) :=
  decidable_of_iff' _ (takes_iff x theta D)

instance (x : Conversation T) (theta D : ℤ) : Decidable (x.Fits theta D) :=
  decidable_of_iff' _ (fits_iff x theta D)

instance (x : Conversation T) (s : Client.Service F C T') : Decidable (x.Follows s) :=
  decidable_of_iff' _ (follows_iff x s)

instance (x : Conversation T) (s : Client.Service F C T') (pkt : Packet) :
    Decidable (x.SyncArrives s pkt) :=
  decidable_of_iff' _ (syncArrives_iff x s pkt)

instance (x : Conversation T) (s : Client.Service F C T') (tx : Time) :
    Decidable (x.Requests s tx) :=
  decidable_of_iff' _ (requests_iff x s tx)

instance (x : Conversation T) (s : Client.Service F C T') (pkt : Packet) :
    Decidable (x.ResponseArrives s pkt) :=
  decidable_of_iff' _ (responseArrives_iff x s pkt)

namespace Bench

/-- A network that accepts everything and reports these transmit times, one after the other. -/
structure Stamps where
  times : List Time

instance : Transport Stamps where
  timestampMode _ := "hardware"
  sendEvent w _ := (.ok (w.times.headD .zero), ⟨w.times.tail⟩)
  sendEventTo w _ _ := (.ok (w.times.headD .zero), ⟨w.times.tail⟩)
  sendGeneral w _ := (none, w)
  sendGeneralTo w _ _ := (none, w)

/-- `n` nanoseconds after a moment in the year 2286. -/
def instant (n : ℤ) : Time := .ofUnix 10000000000 n

def mechanism (p2p : Bool) : UInt8 := if p2p then delayMechanismP2P else delayMechanismE2E

/-- A client that has selected its master and will send a request at `t3`; its clock is that of the
system. -/
def listener (p2p : Bool) (t3 : Time) : Client.Service ℚ (ApplicationClock ℚ) Stamps :=
  (Service.new (fun _ _ ↦ 1) ⟨[t3]⟩ (ApplicationClock.new 500000 fun n ↦ Client.Bench.seconds n)
    (Client.Bench.port 0) ⟨defaultProfile, "udp", none, mechanism p2p⟩).run
      (.start :: Client.Bench.selects (Client.Bench.port 1) 37)

/-- A server that sends its event messages at `times`. -/
def grandmaster (p2p : Bool) (times : List Time) : Server.Service Stamps :=
  .new ⟨times⟩ (Client.Bench.port 1) ⟨defaultProfile, "udp", none, mechanism p2p, 37, .disabled, 0⟩

def data : Server.Outgoing → Bytes
  | .event data | .eventTo data _ | .general data | .generalTo data _ => data

/-- The conversation of the two, with the residence times of its messages and its instants. -/
def conversation (p2p : Bool) (residences : List (List Int64)) (instants : List ℤ) :
    Conversation Stamps :=
  let via (i : ℕ) := residences.getD i []
  let t (i : ℕ) := instant (instants.getD i 0)
  let server := grandmaster p2p [t 0, t 4]
  let sending := server.run [.start true]
  let answering := server.run [.start true, .sync]
  let sync := sending.sendSync.2.outbox.drop sending.outbox.length
  let x : Conversation Stamps :=
    { p2p := p2p
      client := Client.Bench.port 0
      server := server
      untilSync := [.start true]
      untilRequest := [.start true, .sync]
      sync := (sync.map data).getD 0 []
      followUp := (sync.map data).getD 1 []
      response := []
      responseFollowUp := []
      requestNumber := 0
      requestOrigin := .fromTime (Client.Bench.seconds 1)
      requestSource := "client"
      viaSync := via 0
      viaFollowUp := via 1
      viaRequest := via 2
      viaResponse := via 3
      viaResponseFollowUp := via 4
      t1 := t 0
      t2 := t 1
      t3 := t 2
      t4 := t 3
      t5 := t 4
      t6 := t 5 }
  let response := (answering.handleEventPacket x.requestPacket).outbox.drop answering.outbox.length
  { x with
    response := (response.map data).getD 0 []
    responseFollowUp := (response.map data).getD 1 [] }

def packet (data : Bytes) (timestamp : Time) : Packet := ⟨data, "network", timestamp, 0⟩

def general (via : List Int64) (message : Bytes) : Call :=
  .general (packet (transit via message) .zero) (Client.Bench.seconds 0) Client.Bench.inOrder

def event (via : List Int64) (message : Bytes) (timestamp : Time) : Call :=
  .event (packet (transit via message) timestamp) (Client.Bench.seconds 0)

/-- The answer to the request; peer to peer, the Follow_Up comes first. -/
def answer (x : Conversation Stamps) : List Call :=
  if x.p2p then
    [general x.viaResponseFollowUp x.responseFollowUp, event x.viaResponse x.response x.t6]
  else [general x.viaResponse x.response]

/-- The client at the end of the request and its answer. -/
def answered (x : Conversation Stamps) : Client.Service ℚ (ApplicationClock ℚ) Stamps :=
  (listener x.p2p x.t3).run (.delayRequest :: answer x)

/-- The client at the end of the conversation; its clock is that of the system, so the packets are
stamped with its readings. -/
def finished (x : Conversation Stamps) : Client.Service ℚ (ApplicationClock ℚ) Stamps :=
  (answered x).run [event x.viaSync x.sync x.t2, general x.viaFollowUp x.followUp]

/-- The conditions on the course of the conversation. -/
@[mk_iff]
structure Checked (x : Conversation Stamps) : Prop where
  follows : x.Follows (listener x.p2p x.t3)
  requests : x.Requests (listener x.p2p x.t3) x.t3
  response : x.p2p = true → x.ResponseArrives ((listener x.p2p x.t3).run
    [.delayRequest, general x.viaResponseFollowUp x.responseFollowUp])
      (packet (transit x.viaResponse x.response) x.t6)
  sync : x.SyncArrives (answered x) (packet (transit x.viaSync x.sync) x.t2)
  fresh : takePending (answered x).pendingFollowUps x.master x.number = none

instance (x : Conversation Stamps) : Decidable (Checked x) := decidable_of_iff' _ (checked_iff x)

theorem Checked.completed {x : Conversation Stamps} (h : Checked x) : Completed x (finished x) := by
  have hrequest : Run x .idle .requested ((listener x.p2p x.t3).step .delayRequest) :=
    .request (.start h.follows) h.requests
  have hanswered : Run x .idle .measured (answered x) := by
    cases hp : x.p2p with
    | false =>
        have he : answered x = ((listener x.p2p x.t3).step .delayRequest).step
            (general x.viaResponse x.response) := by
          rw [answered, answer, hp]
          rfl
        rw [he]
        exact .delayResp _ _ hrequest hp rfl
    | true =>
        have he : answered x = (((listener x.p2p x.t3).step .delayRequest).step
            (general x.viaResponseFollowUp x.responseFollowUp)).step
              (event x.viaResponse x.response x.t6) := by
          rw [answered, answer, hp]
          rfl
        rw [he]
        exact .lastPDelayResp _ (.pdelayFollowUp _ _ hrequest hp rfl) hp (h.response hp)
  exact .followUp _ _ (.sync _ hanswered h.sync h.fresh) rfl

/-- The client's clock is 250 ns ahead and the path takes a microsecond; the Sync spends 3 ns and a
fraction in transparent clocks, of which its Follow_Up reports a part. -/
def delayed : Conversation Stamps :=
  conversation false [[3 * 65536, 100], [200], [65536], [5]] [0, 1253, 500000, 500751]

/-- The same with a peer delay request; request and response spend half a nanosecond each in
transparent clocks, and nobody sees it. -/
def peered : Conversation Stamps :=
  conversation true [[3 * 65536, 100], [200], [32768], [32768]] [0, 1254, 500000, 500750, 600000,
    601250]

end Bench

/-- Both kinds of conversation. -/
theorem measurement_exact_bench :
    (|(Bench.finished Bench.delayed).lastOffset.toInt - 250| ≤ 1 ∧
      |(Bench.finished Bench.delayed).meanPathDelay.toInt - 1000| ≤ 1) ∧
    |(Bench.finished Bench.peered).lastOffset.toInt - 250| ≤ 2 ∧
      |(Bench.finished Bench.peered).meanPathDelay.toInt - 1000| ≤ 1 := by
  have hE2E := measurement_exact (x := Bench.delayed) (by decide +kernel) (by decide +kernel)
    (by decide +kernel : Bench.delayed.Takes 250 1000) (by decide +kernel)
    (Bench.Checked.completed (by decide +kernel))
  have hP2P := measurement_exact (x := Bench.peered) (by decide +kernel) (by decide +kernel)
    (by decide +kernel : Bench.peered.Takes 250 1000) (by decide +kernel)
    (Bench.Checked.completed (by decide +kernel))
  obtain ⟨-, ho, hd⟩ := hE2E.1 rfl
  obtain ⟨-, ho', hd'⟩ := hP2P.2 rfl
  exact ⟨⟨ho.near, hd.near⟩, ho'.near, hd'.near⟩

namespace Bench

/-- The clocks are 158 years apart. -/
def distant : Conversation Stamps :=
  conversation false [] [0, 5000000000000001000, 500000, -4999999999999499000]

/-- A Sync that spends 39 hours in transparent clocks; the Sync and the Follow_Up report one half
each. -/
def resident : Conversation Stamps :=
  conversation false [[2 ^ 62], [2 ^ 62]] [0, 2 ^ 47 + 1000, 500000, 501000]

end Bench

/-- **The limits**: an offset of `2^62` ns or more is lost when it is doubled, and so is a sum of
corrections that does not fit 64 bits.  Peer to peer the roundings of the delay and of the Sync add
up to two nanoseconds. -/
theorem measurement_limits :
    (Bench.distant.Served ∧ Bench.distant.InTime ∧
      Bench.distant.Takes 5000000000000000000 1000 ∧
      Completed Bench.distant (Bench.finished Bench.distant) ∧
      ¬ |(Bench.finished Bench.distant).lastOffset.toInt - 5000000000000000000| ≤ 1) ∧
    (Bench.resident.Served ∧ Bench.resident.InTime ∧ Bench.resident.Takes 0 1000 ∧
      Completed Bench.resident (Bench.finished Bench.resident) ∧
      ¬ |(Bench.finished Bench.resident).lastOffset.toInt| ≤ 1) ∧
    (Bench.peered.Served ∧ Bench.peered.InTime ∧ Bench.peered.Takes 250 1000 ∧
      Completed Bench.peered (Bench.finished Bench.peered) ∧
      ¬ |(Bench.finished Bench.peered).lastOffset.toInt - 250| ≤ 1) := by
  refine ⟨⟨by decide +kernel, by decide +kernel, by decide +kernel,
    Bench.Checked.completed (by decide +kernel), by decide +kernel⟩, ⟨by decide +kernel,
    by decide +kernel, by decide +kernel, Bench.Checked.completed (by decide +kernel),
    by decide +kernel⟩, by decide +kernel, by decide +kernel, by decide +kernel,
    Bench.Checked.completed (by decide +kernel), by decide +kernel⟩

end ProcessBus.Ptp.Conversation
