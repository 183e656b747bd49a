import ProcessBus.Ptp.Client.Reselection

/-!
# Syncs and their Follow_Ups

A two-step master sends each Sync with a Follow_Up of the same 16-bit sequence number.  The
client puts them together by that number, whichever comes first; a Follow_Up that finds no Sync
waits in a buffer.  Here a packet also carries the number of the transmission it was issued for
(`Packet.tag`), which grows without bound, and the sequence number is what remains of it
(`Delivers`).

`paired_by_transmission`: if nothing that waits is older than the numbers reach, every completed
pair is one of a single transmission, however messages are lost, repeated and reordered on the
way.  The client does not see to that itself: nothing but a full buffer or a new master removes a
Follow_Up whose Sync was lost, and it is taken for that of the Sync that comes 65536 transmissions
later (`paired_after_wrap`).
-/

namespace ProcessBus.Ptp.Client

open Go Lib

set_option linter.unusedSectionVars false

variable {F C T : Type} [Float64 F] [Clock C F] [Transport T]

/-- A Follow_Up was put together with the Sync of the same transmission. -/
def Measurement.OfOneTransmission : Measurement → Prop
  | .pair t1 t2 => t1.origin ≠ none ∧ t1.origin.map Origin.tag = t2.origin.map Origin.tag
  | .offsetE2E _ _ | .offsetP2P _ | .peerDelay _ _ _ _ => True

instance : DecidablePred Measurement.OfOneTransmission
  | .pair _ _ => inferInstanceAs (Decidable (_ ∧ _))
  | .offsetE2E _ _ | .offsetP2P _ | .peerDelay _ _ _ _ => isTrue trivial

/-- Transmissions that are less than a full turn apart have different sequence numbers. -/
theorem eq_of_sequenceID {j k : ℕ} (h : UInt16.ofNat j = UInt16.ofNat k) (hjk : j < k + 2 ^ 16)
    (hkj : k < j + 2 ^ 16) : j = k := by
  have hmod : j % 2 ^ 16 = k % 2 ^ 16 := by
    have := congrArg UInt16.toNat h
    rwa [UInt16.toNat_ofNat', UInt16.toNat_ofNat'] at this
  omega

/-! ## The network -/

/-- A Sync or a Follow_Up. -/
def IsTiming (hdr : Header) : Prop :=
  hdr.messageType = msgSync ∨ hdr.messageType = msgFollowUp

instance (hdr : Header) : Decidable (IsTiming hdr) := inferInstanceAs (Decidable (_ ∨ _))

namespace Service

/-- The Sync or Follow_Up that a call brings, with its transmission. -/
def timing (s : Service F C T) : Call → Option (Header × ℕ)
  | .event pkt _ | .general pkt _ _ =>
      match s.unpack pkt with
      | none => none
      | some (hdr, _) => if IsTiming hdr then some (hdr, pkt.tag) else none
  | _ => none

/-- The transmission that a call brings a message of. -/
def transmission (s : Service F C T) (c : Call) : Option ℕ := (s.timing c).map Prod.snd

/-- One two-step master numbers its transmissions modulo `2^16`, and the network delivers a
message at most after those of the next `2^15 - 1` transmissions.  It may lose and repeat any of
them.  `x.2` are the transmissions of the messages delivered so far. -/
def Delivers (master : PortIdentity) (x : Service F C T × List ℕ) (c : Call) : Prop :=
  ∀ m ∈ x.1.timing c,
    m.1.sourcePortIdentity = master ∧ m.1.sequenceID = UInt16.ofNat m.2 ∧
      (m.1.messageType = msgSync → (m.1.flagField &&& flagTwoStep != 0) = true) ∧
      ∀ j ∈ x.2, j < m.2 + 2 ^ 15

instance (master : PortIdentity) (x : Service F C T × List ℕ) (c : Call) :
    Decidable (Delivers master x c) :=
  inferInstanceAs (Decidable (∀ _ ∈ _, _))

/-- What waits for a message of the selected master is less than a full turn of the sequence
numbers older: for a Sync, the Follow_Up that is buffered under its number, and for a Follow_Up,
the Sync that waits with its number. -/
def FindsFresh (s : Service F C T) (c : Call) : Prop :=
  ∀ m ∈ s.timing c, s.bestMaster = some m.1.sourcePortIdentity →
    (m.1.messageType = msgSync → ∀ fu ∈ s.pendingFollowUps,
      fu.isFor m.1.sourcePortIdentity m.1.sequenceID = true → m.2 < fu.tag + 2 ^ 16) ∧
    (m.1.messageType = msgFollowUp → s.syncReceived = true → s.twoStep = true →
      m.1.sequenceID = s.lastSyncSeq → ∀ o ∈ s.tsproc.t2.origin, m.2 < o.tag + 2 ^ 16)

instance (s : Service F C T) (c : Call) : Decidable (s.FindsFresh c) :=
  inferInstanceAs (Decidable (∀ _ ∈ _, _))

/-! ## The invariant -/

/-- Everything that waits carries the number of its transmission, which is one of those
delivered. -/
structure Numbered (tags : List ℕ) (s : Service F C T) : Prop where
  pending : ∀ fu ∈ s.pendingFollowUps,
    fu.header.sequenceID = UInt16.ofNat fu.tag ∧ fu.tag ∈ tags
  sync : s.syncReceived = true → ∃ o, s.tsproc.t2.origin = some o ∧
    s.lastSyncSeq = UInt16.ofNat o.tag ∧ o.tag ∈ tags
  log : ∀ x ∈ s.log, x.OfOneTransmission

/-- The message of transmission `tag` carries its number, and what waits for it is less than a
full turn away. -/
structure Arrives (tags : List ℕ) (hdr : Header) (tag : ℕ) (s : Service F C T) : Prop where
  seq : IsTiming hdr → hdr.sequenceID = UInt16.ofNat tag ∧ tag ∈ tags
  twoStep : hdr.messageType = msgSync → (hdr.flagField &&& flagTwoStep != 0) = true
  pending : hdr.messageType = msgSync → s.bestMaster = some hdr.sourcePortIdentity →
    ∀ fu ∈ s.pendingFollowUps, fu.isFor hdr.sourcePortIdentity hdr.sequenceID = true →
      tag < fu.tag + 2 ^ 16 ∧ fu.tag < tag + 2 ^ 16
  sync : hdr.messageType = msgFollowUp → s.bestMaster = some hdr.sourcePortIdentity →
    s.Awaits hdr.sequenceID → ∀ o, s.tsproc.t2.origin = some o →
      tag < o.tag + 2 ^ 16 ∧ o.tag < tag + 2 ^ 16

theorem Numbered.mono {tags tags' : List ℕ} {s : Service F C T} (h : s.Numbered tags)
    (hsub : ∀ j ∈ tags, j ∈ tags') : s.Numbered tags' where
  pending fu hfu := ⟨(h.pending fu hfu).1, hsub _ (h.pending fu hfu).2⟩
  sync hs := by
    obtain ⟨o, ho, hseq, hmem⟩ := h.sync hs
    exact ⟨o, ho, hseq, hsub _ hmem⟩
  log := h.log

/-! ## Effects -/

section Effects

variable {tags : List ℕ} {hdr : Header} {tag : ℕ}

/-- The end of a measurement: the buffer is left or emptied, and no Sync waits any more. -/
theorem Numbered.complete {s : Service F C T} (h : s.Numbered tags) (now : Time) :
    (s.processSyncComplete now).Numbered tags := by
  rcases processSyncComplete_cases s now with he | hc
  · rw [he]
    exact h
  generalize s.processSyncComplete now = s' at hc
  refine ⟨?_, ?_, ?_⟩
  · intro fu hfu
    exact h.pending fu (hc.mem_pendingFollowUps hfu)
  · rw [hc.syncReceived]
    nofun
  · rw [hc.log]
    refine List.forall_mem_cons.mpr ⟨?_, h.log⟩
    rcases measured_cases hc.syncResult with ⟨he, -⟩ | ⟨he, -⟩ <;> rw [he] <;> trivial

theorem Arrives.complete {s : Service F C T} (h : s.Arrives tags hdr tag) (now : Time) :
    (s.processSyncComplete now).Arrives tags hdr tag := by
  rcases processSyncComplete_cases s now with he | hc
  · rw [he]
    exact h
  generalize s.processSyncComplete now = s' at hc
  refine ⟨h.seq, h.twoStep, ?_, ?_⟩
  · intro ht hbest fu hfu
    exact h.pending ht (hc.bestMaster ▸ hbest) fu (hc.mem_pendingFollowUps hfu)
  · intro _ _ hawait
    cases hc.syncReceived.symm.trans hawait.syncReceived

/-- A Follow_Up that is put together with the Sync of its transmission. -/
theorem Numbered.setFollowUp {s : Service F C T} (h : s.Numbered tags)
    {fu : Pending TimestampBody} {o : Origin} (ho : s.tsproc.t2.origin = some o)
    (htag : fu.tag = o.tag) : (s.setFollowUp fu).Numbered tags where
  pending := h.pending
  sync := h.sync
  log := by
    refine List.forall_mem_cons.mpr ⟨⟨Option.some_ne_none _, ?_⟩, h.log⟩
    rw [ho]
    exact congrArg some htag

/-- What a completed peer delay exchange leaves alone. -/
theorem Numbered.finishPDelay {s : Service F C T} (h : s.Numbered tags) (corrField : Int64) :
    (s.finishPDelay corrField).Numbered tags := by
  rcases finishPDelay_cases s corrField with he | ⟨-, delay, he⟩
  · rw [he]
    exact ⟨h.pending, h.sync, h.log⟩
  · rw [he]
    exact ⟨h.pending, h.sync, List.forall_mem_cons.mpr ⟨trivial, h.log⟩⟩

theorem Arrives.finishPDelay {s : Service F C T} (h : s.Arrives tags hdr tag)
    (corrField : Int64) : (s.finishPDelay corrField).Arrives tags hdr tag := by
  rcases finishPDelay_cases s corrField with he | ⟨-, delay, he⟩ <;>
    rw [he] <;> exact ⟨h.seq, h.twoStep, h.pending, fun ht hb hw ↦ h.sync ht hb ⟨hw.1, hw.2, hw.3⟩⟩

theorem Numbered.completePDelayFollowUp {s : Service F C T} (h : s.Numbered tags)
    (fu : Pending ResponseBody) : (s.completePDelayFollowUp fu).Numbered tags := by
  have hset : (s.setPDelayFollowUp fu).Numbered tags := ⟨h.pending, h.sync, h.log⟩
  exact hset.finishPDelay _

theorem Arrives.completePDelayFollowUp {s : Service F C T} (h : s.Arrives tags hdr tag)
    (fu : Pending ResponseBody) : (s.completePDelayFollowUp fu).Arrives tags hdr tag := by
  have hset : (s.setPDelayFollowUp fu).Arrives tags hdr tag :=
    ⟨h.seq, h.twoStep, h.pending, fun ht hb hw ↦ h.sync ht hb ⟨hw.1, hw.2, hw.3⟩⟩
  exact hset.finishPDelay _

/-- Every effect of a handler keeps the numbers in order. -/
theorem Effect.numbered {s s' : Service F C T} (he : Effect hdr tag s s')
    (h : s.Numbered tags ∧ s.Arrives tags hdr tag) :
    s'.Numbered tags ∧ s'.Arrives tags hdr tag := by
  obtain ⟨hnum, harr⟩ := h
  -- a Sync is not a Follow_Up
  have hnotFollowUp (htype : hdr.messageType = msgSync) : hdr.messageType ≠ msgFollowUp := by
    rw [htype]
    decide
  cases he with
  | oneStepSync rxTime htype hf hflag => cases (harr.twoStep htype).symm.trans hflag
  | completeOneStep rxTime body now htype hf hflag =>
      cases (harr.twoStep htype).symm.trans hflag
  | twoStepSync rxTime htype hf hflag =>
      obtain ⟨hseq, hmem⟩ := harr.seq (.inl htype)
      exact ⟨⟨hnum.pending, fun _ ↦ ⟨_, rfl, hseq, hmem⟩, hnum.log⟩,
        ⟨harr.seq, harr.twoStep, harr.pending, fun ht ↦ absurd ht (hnotFollowUp htype)⟩⟩
  | completePending rxTime fu rest now htype hf hflag htake =>
      obtain ⟨hseq, hmem⟩ := harr.seq (.inl htype)
      obtain ⟨hfu, hsource, hid, hrest⟩ := takePending_eq_some htake
      have hfor : fu.isFor hdr.sourcePortIdentity hdr.sequenceID = true := by
        simp [Pending.isFor, hsource, hid]
      obtain ⟨hlt, hgt⟩ := harr.pending htype (follows_iff.mp hf).2 fu hfu hfor
      have htag : fu.tag = tag :=
        eq_of_sequenceID ((hnum.pending fu hfu).1.symm.trans (hid.trans hseq)) hgt hlt
      let u : Service F C T :=
        { s.receiveSync hdr rxTime tag with syncReceived := true, pendingFollowUps := rest }
      have hu : u.Numbered tags :=
        ⟨fun q hq ↦ hnum.pending q (hrest q hq), fun _ ↦ ⟨_, rfl, hseq, hmem⟩, hnum.log⟩
      have hu' : (u.setFollowUp fu).Arrives tags hdr tag :=
        ⟨harr.seq, harr.twoStep, fun ht hb q hq ↦ harr.pending ht hb q (hrest q hq),
          fun ht ↦ absurd ht (hnotFollowUp htype)⟩
      exact ⟨(hu.setFollowUp rfl htag).complete now, hu'.complete now⟩
  | storeFollowUp fu htype hf =>
      obtain ⟨hseq, hmem⟩ := harr.seq (.inr htype)
      refine ⟨⟨?_, hnum.sync, hnum.log⟩, harr.seq, harr.twoStep, ?_, ?_⟩
      · intro q hq
        rcases mem_storePending hq with hq | rfl
        · exact hnum.pending q hq
        · exact ⟨hseq, hmem⟩
      · exact fun ht ↦ absurd htype (hnotFollowUp ht)
      · exact fun ht hb hw ↦ harr.sync ht hb ⟨hw.1, hw.2, hw.3⟩
  | completeFollowUp fu now htype hf hawait =>
      obtain ⟨hseq, -⟩ := harr.seq (.inr htype)
      obtain ⟨o, ho, hlast, -⟩ := hnum.sync hawait.syncReceived
      obtain ⟨hlt, hgt⟩ := harr.sync htype (follows_iff.mp hf).2 hawait o ho
      have htag : tag = o.tag :=
        eq_of_sequenceID (hseq.symm.trans (hawait.seq.trans hlast)) hlt hgt
      have hset : (s.setFollowUp ⟨hdr, fu, tag⟩).Arrives tags hdr tag :=
        ⟨harr.seq, harr.twoStep, harr.pending,
          fun ht hb hw ↦ harr.sync ht hb ⟨hw.1, hw.2, hw.3⟩⟩
      exact ⟨(hnum.setFollowUp ho htag).complete now, hset.complete now⟩
  | completePDelay corrField =>
      exact ⟨hnum.finishPDelay corrField, harr.finishPDelay corrField⟩
  | completePendingPDelay fu rest =>
      have hnum' : { s with pendingPDelayFUs := rest }.Numbered tags :=
        ⟨hnum.pending, hnum.sync, hnum.log⟩
      have harr' : { s with pendingPDelayFUs := rest }.Arrives tags hdr tag :=
        ⟨harr.seq, harr.twoStep, harr.pending,
          fun ht hb hw ↦ harr.sync ht hb ⟨hw.1, hw.2, hw.3⟩⟩
      exact ⟨hnum'.completePDelayFollowUp fu, harr'.completePDelayFollowUp fu⟩
  | completePDelayFollowUp fu =>
      exact ⟨hnum.completePDelayFollowUp _, harr.completePDelayFollowUp _⟩
  | now | fromSystem | transport | delayReq | pdelayReq | delayResp | pdelayResp
  | storePDelayFollowUp =>
      exact ⟨⟨hnum.pending, hnum.sync, hnum.log⟩, harr.seq, harr.twoStep, harr.pending,
        fun ht hb hw ↦ harr.sync ht hb ⟨hw.1, hw.2, hw.3⟩⟩

end Effects

/-! ## Steps and runs -/

/-- A selection leaves the buffer and the Sync alone or drops both. -/
theorem Outcome.numbered {tags : List ℕ} {s s' : Service F C T} {r : Reselection}
    (ho : Outcome s r s') (h : s.Numbered tags) : s'.Numbered tags := by
  cases ho with
  | unnoticed | begins => exact ⟨h.pending, h.sync, h.log⟩
  | changes | loses | forgets | faults =>
      exact ⟨fun _ hfu ↦ absurd hfu List.not_mem_nil, fun hs ↦ absurd hs Bool.false_ne_true, h.log⟩

/-- What the network and the buffers promise about the packet of a call. -/
theorem arrives_of_packet {master : PortIdentity} {s : Service F C T} {tags : List ℕ} {c : Call}
    {pkt : Packet} {hdr : Header} {body : Bytes} (hpkt : s.unpack pkt = some (hdr, body))
    (hcall : (∃ now, c = .event pkt now) ∨ ∃ now ord, c = .general pkt now ord)
    (hnum : s.Numbered tags) (hdel : Delivers master (s, tags) c) (hfresh : s.FindsFresh c) :
    s.Arrives ((s.transmission c).toList ++ tags) hdr pkt.tag := by
  have htiming (ht : IsTiming hdr) : s.timing c = some (hdr, pkt.tag) := by
    rcases hcall with ⟨now, rfl⟩ | ⟨now, ord, rfl⟩ <;> simp only [timing, hpkt, if_pos ht]
  refine ⟨?_, ?_, ?_, ?_⟩
  · intro ht
    obtain ⟨-, hseq, -, -⟩ := hdel _ (htiming ht)
    rw [transmission, htiming ht]
    exact ⟨hseq, List.mem_append_left _ (List.mem_singleton.mpr rfl)⟩
  · intro ht
    obtain ⟨-, -, htwo, -⟩ := hdel _ (htiming (.inl ht))
    exact htwo ht
  · intro ht hbest fu hfu hfor
    obtain ⟨-, -, -, hdisp⟩ := hdel _ (htiming (.inl ht))
    have hlt : fu.tag < pkt.tag + 2 ^ 15 := hdisp _ (hnum.pending fu hfu).2
    exact ⟨(hfresh _ (htiming (.inl ht)) hbest).1 ht fu hfu hfor, by omega⟩
  · intro ht hbest hawait o ho
    obtain ⟨-, -, -, hdisp⟩ := hdel _ (htiming (.inr ht))
    obtain ⟨o', ho', -, hmem⟩ := hnum.sync hawait.syncReceived
    cases ho.symm.trans ho'
    have hlt : o.tag < pkt.tag + 2 ^ 15 := hdisp _ hmem
    exact ⟨(hfresh _ (htiming (.inr ht)) hbest).2 ht hawait.syncReceived hawait.twoStep hawait.seq
      o ho, by omega⟩

/-- A request is not a Sync or a Follow_Up, so it says nothing about the numbers. -/
theorem arrives_of_not_timing {s : Service F C T} {tags : List ℕ} {hdr : Header} {tag : ℕ}
    (h : ¬ IsTiming hdr) : s.Arrives tags hdr tag :=
  ⟨fun ht ↦ absurd ht h, fun ht ↦ absurd (.inl ht) h, fun ht ↦ absurd (.inl ht) h,
    fun ht ↦ absurd (.inr ht) h⟩

theorem Plain.numbered {tags : List ℕ} {s s' : Service F C T} {c : Call} (hp : Plain s c s')
    (h : s.Numbered tags)
    (harr : ∀ {hdr pkt body}, s.unpack pkt = some (hdr, body) →
      ((∃ now, c = .event pkt now) ∨ ∃ now ord, c = .general pkt now ord) →
      s.Arrives tags hdr pkt.tag) : s'.Numbered tags := by
  cases hp with
  | effects hpkt hcall he =>
      exact (Effects.preserves he (fun _ _ ↦ Effect.numbered) ⟨h, harr hpkt hcall⟩).1
  | request _ he =>
      let hdr := s.requestHeader msgDelayReq controlDelayReq 0
      have hreq : ¬ IsTiming hdr := by
        have hne : ¬ (msgDelayReq = msgSync ∨ msgDelayReq = msgFollowUp) := by decide
        exact hne
      exact (Effects.preserves (he hdr 0) (fun _ _ ↦ Effect.numbered)
        ⟨h, arrives_of_not_timing hreq⟩).1
  | nothing | repeated | start | stop => exact ⟨h.pending, h.sync, h.log⟩

theorem step_numbered {master : PortIdentity} (x : Service F C T × List ℕ) (c : Call)
    (h : x.1.Numbered x.2) (hok : Delivers master x c ∧ x.1.FindsFresh c) :
    (recording step transmission x c).1.Numbered (recording step transmission x c).2 := by
  obtain ⟨s, tags⟩ := x
  have hmono : s.Numbered ((s.transmission c).toList ++ tags) :=
    h.mono fun _ hj ↦ List.mem_append_right _ hj
  show (s.step c).Numbered ((s.transmission c).toList ++ tags)
  cases hr : s.reselection c with
  | none =>
      exact (step_of_no_reselection hr).numbered hmono fun hpkt hcall ↦
        arrives_of_packet hpkt hcall h hok.1 hok.2
  | some r => exact (step_outcome hr).numbered hmono

end Service

section Run

variable (pow : F → F → F) (tr : T) (clk : C) (selfID : PortIdentity) (cfg : Config)

/-- **Every Sync is paired with its own Follow_Up, as long as nothing waits for a whole turn of
the sequence numbers**, whatever the network loses, repeats and reorders by less than `2^15`
transmissions. -/
theorem paired_by_transmission (master : PortIdentity) (calls : List Call)
    (hnet : Meets (recording Service.step Service.transmission) (Service.Delivers master)
      (Service.new pow tr clk selfID cfg, []) calls)
    (hfresh : Meets Service.step Service.FindsFresh (Service.new pow tr clk selfID cfg) calls) :
    ∀ x ∈ ((Service.new pow tr clk selfID cfg).run calls).log, x.OfOneTransmission := by
  have hinit : (Service.new pow tr clk selfID cfg).Numbered [] :=
    { pending := fun _ h ↦ absurd h List.not_mem_nil
      sync := fun h ↦ absurd h Bool.false_ne_true
      log := fun _ h ↦ absurd h List.not_mem_nil }
  have hrun := inv_run (I := fun x ↦ x.1.Numbered x.2) Service.step_numbered hinit
    (hnet.and ((meets_recording _ [] calls).mpr hfresh))
  rw [foldl_recording] at hrun
  exact hrun.log

end Run

/-- Two transmissions across the wrap of the sequence numbers, the second with its Follow_Up
first. -/
theorem paired_by_transmission_across_wrap :
    let calls := .start :: Bench.selects (Bench.port 1) 37 ++
      Bench.measuresOffset (Bench.port 1) 65535 ++
      (Bench.measuresOffset (Bench.port 1) 65536).reverse
    (Bench.client.run calls).log.length = 2 ∧
      ∀ x ∈ (Bench.client.run calls).log, x.OfOneTransmission :=
  ⟨by decide +kernel, paired_by_transmission _ _ _ _ _ (Bench.port 1) _ (by decide +kernel)
    (by decide +kernel)⟩

/-- The Sync of transmission 5 is lost, and so is everything up to the Sync of transmission
65541, which has the same number: it is put together with the Follow_Up of transmission 5. -/
theorem paired_after_wrap :
    let calls := .start :: Bench.selects (Bench.port 1) 37 ++
      [.general (Bench.followUp (Bench.port 1) 5 ⟨236, 0⟩) (Bench.seconds 5) Bench.inOrder,
        .event (Bench.sync (Bench.port 1) 65541 (Bench.seconds 200)) (Bench.seconds 5)]
    Meets (recording Service.step Service.transmission) (Service.Delivers (Bench.port 1))
        (Bench.client, []) calls ∧
      ¬ ∀ x ∈ (Bench.client.run calls).log, x.OfOneTransmission := by
  decide +kernel

end ProcessBus.Ptp.Client
