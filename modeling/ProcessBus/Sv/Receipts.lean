import ProcessBus.Lib.Run
import ProcessBus.Sv.Publisher

/-!
# Send receipts

`SetWaveformTracked` hands the service a tracker together with the settings, the next frame takes
both, and the tracker is completed after that frame has been written, outside the lock; a newer call
completes the tracker it replaces with an error.  `transmit` is cut here where it releases the lock,
into `build` and what follows, so that calls may come between the two (`transmit_eq` puts it
together again).

`Sender` is the service with its history: the calls accepted, by number, the frames built, and the
receipts issued.  Every tracked call is in one of four places, waiting with the service, superseded,
with a frame that is being written, or with one that has been written, and `Sender.Inv` says so.
-/

namespace ProcessBus.Sv.Publisher

open Go Goose Lib

variable {F : Type} [FloatMath F]

/-- The part of `transmit` under the lock: the ASDU of the frame, and the service that has given up
its tracker. -/
def Service.build (s : Service F) : Except (WaveformError F) (Wire.ASDU × Service F) :=
  match synthesizeChannels s.sample s.cfg.samplesPerSecond s.settings with
  | .error err => .error err
  | .ok (channels, quality) =>
      let asdu : Wire.ASDU :=
        { dstMAC := s.cfg.dstMAC
          srcMAC := s.cfg.srcMAC
          vlan := s.cfg.vlan
          appID := s.cfg.appID
          svID := s.cfg.svID
          smpCnt := s.smpCnt
          confRev := s.cfg.confRev
          simulation := s.sim
          smpSynch := s.smpSynch
          channels
          quality }
      let smpCnt := s.smpCnt + 1
      let modulo := s.cfg.smpCntModulo
      .ok (asdu, { s with
        transmission := none
        smpCnt := if 0 < modulo ∧ modulo ≤ smpCnt then 0 else smpCnt
        sample := s.sample + 1 })

/-- The receipt of a frame that was handed to the sink. -/
def Delivery.receipt (d : Delivery) : SendReceipt := ⟨d.sentAt, d.appTime, d.err⟩

/-- `transmit` builds a frame, writes it, and completes the tracker that it took. -/
theorem transmit_eq (s : Service F) (d : Delivery) :
    s.transmit d =
      match s.build with
      | .error err => (.error (.waveform err), s, none)
      | .ok (asdu, s') =>
          (match d.err with
            | some err => .error (.writeFrame s.cfg.name err)
            | none => .ok asdu,
          s', s.transmission.map fun call ↦ (call, d.receipt)) := by
  rw [Service.transmit, Service.build]
  cases synthesizeChannels s.sample s.cfg.samplesPerSecond s.settings with
  | error err => rfl
  | ok x =>
      cases hd : d.err with
      | none => simp [Delivery.receipt, hd]
      | some err => simp [Delivery.receipt, hd]

/-! ## The service and its history -/

/-- An accepted call of `SetWaveform` or `SetWaveformTracked`, with the number of frames built
before it. -/
structure Call (F : Type) where
  settings : Channels (ChannelSetting F)
  simulation : Bool
  smpSynch : UInt8
  tracked : Bool
  framesBefore : ℕ

/-- A frame: its ASDU, the sample it was synthesised for, the call whose tracker it took, and
whether `transmit` has returned. -/
structure Built where
  asdu : Wire.ASDU
  sample : UInt64
  call : Option ℕ
  finished : Bool

/-- A receipt, with the call it went to and the frame it is for, if there is one. -/
structure Issue where
  call : ℕ
  receipt : SendReceipt
  frame : Option ℕ
deriving DecidableEq

structure Sender (F : Type) where
  service : Service F
  calls : List (Call F)
  frames : List Built
  issues : List Issue

namespace Sender

def new (cfg : PublisherConfig) : Sender F := ⟨.new cfg, [], [], []⟩

/-- The receipts of one call. -/
def issuesOf (w : Sender F) (call : ℕ) : List Issue := w.issues.filter (·.call == call)

/-- `complete`: the first receipt of a call is put into its channel, any other is dropped. -/
def complete (w : Sender F) (i : Issue) : Sender F :=
  if (w.issuesOf i.call).isEmpty then { w with issues := w.issues ++ [i] } else w

/-- What the goroutines around the service do. -/
inductive Action (F : Type)
  | setWaveform (settings : Channels (ChannelSetting F)) (simulation : Bool) (smpSynch : UInt8)
      (tracked : Bool)
  | build
  | finish (k : ℕ) (d : Delivery)
  | alignToClockSlot (slot samplesPerSecond : Int64)

/-- One step.  A call that is rejected, a build that fails and the end of a transmission that has
not begun change nothing. -/
def step (w : Sender F) : Action F → Sender F
  | .setWaveform settings simulation smpSynch tracked =>
      match Publisher.setWaveform w.service settings simulation smpSynch
          (if tracked then some w.calls.length else none) with
      | .error _ => w
      | .ok (service, superseded) =>
          let w' := match superseded with
            | some (call, receipt) => w.complete ⟨call, receipt, none⟩
            | none => w
          { w' with
            service
            calls := w.calls ++ [⟨settings, simulation, smpSynch, tracked, w.frames.length⟩] }
  | .build =>
      match w.service.build with
      | .error _ => w
      | .ok (asdu, service) =>
          { w with
            service
            frames := w.frames ++ [⟨asdu, w.service.sample, w.service.transmission, false⟩] }
  | .finish k d =>
      match w.frames[k]? with
      | none => w
      | some b =>
          if b.finished then w
          else
            let w' := { w with frames := w.frames.modify k fun b ↦ { b with finished := true } }
            match b.call with
            | some call => w'.complete ⟨call, d.receipt, some k⟩
            | none => w'
  | .alignToClockSlot slot samplesPerSecond =>
      { w with service := w.service.alignToClockSlot slot samplesPerSecond }

/-! ## Where a tracked call is -/

/-- The frame carries what the call asked for: the flag, the synchronisation and the samples of
its settings. -/
def Carries (cfg : PublisherConfig) (b : Built) (c : Call F) : Prop :=
  b.asdu.simulation = c.simulation ∧ b.asdu.smpSynch = c.smpSynch ∧
    synthesizeChannels b.sample cfg.samplesPerSecond c.settings =
      .ok (b.asdu.channels, b.asdu.quality)

/-- The receipt of a call that was replaced. -/
def superseded (call : ℕ) : Issue :=
  ⟨call, ⟨.zero, .zero, some "waveform superseded before transmission"⟩, none⟩

/-- The frame `k` has taken the tracker of the call `p`: it is the first frame after the call and
before every later call, and the call has a receipt if the frame has been written. -/
structure Answers (cfg : PublisherConfig) (w : Sender F) (k : ℕ) (b : Built) (p : ℕ) : Prop where
  call : ∃ c, w.calls[p]? = some c ∧ c.tracked = true ∧ c.framesBefore = k ∧ Carries cfg b c
  later : ∀ q c', p < q → w.calls[q]? = some c' → k < c'.framesBefore
  waiting : b.finished = false → w.issuesOf p = []
  receipt : b.finished = true → ∃ r, w.issuesOf p = [⟨p, r, some k⟩]

/-- The invariant of a run. -/
structure Inv (cfg : PublisherConfig) (w : Sender F) : Prop where
  cfg_eq : w.service.cfg = cfg
  current : ∀ c, w.calls.getLast? = some c → w.service.settings = c.settings ∧
    w.service.sim = c.simulation ∧ w.service.smpSynch = c.smpSynch
  pending : ∀ p, w.service.transmission = some p → p + 1 = w.calls.length ∧ w.issuesOf p = [] ∧
    ∃ c, w.calls[p]? = some c ∧ c.tracked = true ∧ c.framesBefore = w.frames.length
  built : ∀ k b p, w.frames[k]? = some b → b.call = some p → w.Answers cfg k b p
  placed : ∀ p c, w.calls[p]? = some c → c.tracked = true →
    w.service.transmission = some p ∨ w.issuesOf p = [superseded p] ∨
      ∃ b, w.frames[c.framesBefore]? = some b ∧ b.call = some p
  issued : ∀ i ∈ w.issues, ∃ c, w.calls[i.call]? = some c ∧ c.tracked = true

/-! ## What the operations do -/

omit [FloatMath F] in
@[simp] theorem complete_service (w : Sender F) (i : Issue) :
    (w.complete i).service = w.service := by
  rw [complete]
  split <;> rfl

omit [FloatMath F] in
@[simp] theorem complete_calls (w : Sender F) (i : Issue) : (w.complete i).calls = w.calls := by
  rw [complete]
  split <;> rfl

omit [FloatMath F] in
@[simp] theorem complete_frames (w : Sender F) (i : Issue) :
    (w.complete i).frames = w.frames := by
  rw [complete]
  split <;> rfl

omit [FloatMath F] in
theorem mem_issues_complete {w : Sender F} {i j : Issue} (h : j ∈ (w.complete i).issues) :
    j ∈ w.issues ∨ j = i := by
  rw [complete] at h
  split at h
  · simpa using h
  · exact .inl h

omit [FloatMath F] in
/-- A receipt of one call says nothing about the others. -/
theorem issuesOf_complete_ne (w : Sender F) {i : Issue} {p : ℕ} (h : p ≠ i.call) :
    (w.complete i).issuesOf p = w.issuesOf p := by
  rw [complete]
  split
  · have hno : (i.call == p) = false := by simpa using Ne.symm h
    simp [issuesOf, List.filter_append, hno]
  · rfl

omit [FloatMath F] in
/-- A call that has no receipt yet gets this one. -/
theorem issuesOf_complete_self {w : Sender F} {i : Issue} (h : w.issuesOf i.call = []) :
    (w.complete i).issuesOf i.call = [i] := by
  rw [complete, h]
  simp [issuesOf, List.filter_append] at h ⊢
  exact h

/-- An accepted call replaces everything it can set, and the tracker. -/
theorem setWaveform_eq_ok {s s' : Service F} {settings : Channels (ChannelSetting F)}
    {simulation : Bool} {smpSynch : UInt8} {t : Option ℕ} {x : Option (ℕ × SendReceipt)}
    (h : Publisher.setWaveform s settings simulation smpSynch t = .ok (s', x)) :
    s' = { s with transmission := t, settings, sim := simulation, smpSynch } ∧
      x = s.transmission.map fun call ↦ (call, (superseded call).receipt) := by
  rw [Publisher.setWaveform] at h
  dsimp only at h
  split at h
  · cases h
  · cases h
    exact ⟨rfl, rfl⟩

/-- A frame is built from the settings of the service. -/
theorem build_eq_ok {s s' : Service F} {asdu : Wire.ASDU} (h : s.build = .ok (asdu, s')) :
    asdu.simulation = s.sim ∧ asdu.smpSynch = s.smpSynch ∧
      synthesizeChannels s.sample s.cfg.samplesPerSecond s.settings =
        .ok (asdu.channels, asdu.quality) ∧
      s'.cfg = s.cfg ∧ s'.settings = s.settings ∧ s'.sim = s.sim ∧ s'.smpSynch = s.smpSynch ∧
      s'.transmission = none := by
  rw [Service.build] at h
  split at h
  · cases h
  · next heq =>
      cases h
      exact ⟨rfl, rfl, heq, rfl, rfl, rfl, rfl, rfl⟩

/-! ## One step -/

variable {cfg : PublisherConfig} {w : Sender F}

omit [FloatMath F] in
/-- The last call is the one at the last number. -/
theorem getLast?_of_length {p : ℕ} {c : Call F} (hp : p + 1 = w.calls.length)
    (hc : w.calls[p]? = some c) : w.calls.getLast? = some c := by
  rw [List.getLast?_eq_getElem?, ← hp, Nat.add_sub_cancel, hc]

/-- The call of a frame that has been built is not the one that waits with the service. -/
theorem Inv.ne_of_built (h : w.Inv cfg) {k p q : ℕ} {b : Built} (hb : w.frames[k]? = some b)
    (hp : b.call = some p) (hq : w.service.transmission = some q) : p ≠ q := by
  rintro rfl
  obtain ⟨-, -, c, hc, -, hbefore⟩ := h.pending p hq
  obtain ⟨c', hc', -, hk, -⟩ := (h.built k b p hb hp).call
  obtain rfl : c = c' := Option.some.inj (hc.symm.trans hc')
  have hlt : k < w.frames.length := (List.getElem?_eq_some_iff.mp hb).1
  omega

/-- Two frames never have the same call. -/
theorem Inv.frame_eq (h : w.Inv cfg) {k k' p : ℕ} {b b' : Built} (hb : w.frames[k]? = some b)
    (hb' : w.frames[k']? = some b') (hp : b.call = some p) (hp' : b'.call = some p) : k = k' := by
  obtain ⟨c, hc, -, hk, -⟩ := (h.built k b p hb hp).call
  obtain ⟨c', hc', -, hk', -⟩ := (h.built k' b' p hb' hp').call
  obtain rfl : c = c' := Option.some.inj (hc.symm.trans hc')
  exact hk.symm.trans hk'

theorem Inv.new : (new cfg : Sender F).Inv cfg := by
  have hcalls : (Sender.new cfg : Sender F).calls = [] := rfl
  have hframes : (Sender.new cfg : Sender F).frames = [] := rfl
  have htrans : (Sender.new cfg : Sender F).service.transmission = none := rfl
  refine ⟨rfl, fun c hc ↦ ?_, fun p hp ↦ ?_, fun k b p hb ↦ ?_, fun p c hc ↦ ?_, fun i hi ↦ ?_⟩
  · rw [hcalls] at hc
    exact absurd hc (by simp)
  · rw [htrans] at hp
    exact absurd hp (by simp)
  · rw [hframes] at hb
    exact absurd hb (by simp)
  · rw [hcalls] at hc
    exact absurd hc (by simp)
  · exact absurd hi List.not_mem_nil

/-- The counters do not matter. -/
theorem Inv.of_service (h : w.Inv cfg) {s : Service F} (hcfg : s.cfg = w.service.cfg)
    (hset : s.settings = w.service.settings) (hsim : s.sim = w.service.sim)
    (hsynch : s.smpSynch = w.service.smpSynch) (htrans : s.transmission = w.service.transmission) :
    { w with service := s }.Inv cfg where
  cfg_eq := hcfg.trans h.cfg_eq
  current c hc := by
    obtain ⟨h₁, h₂, h₃⟩ := h.current c hc
    exact ⟨hset.trans h₁, hsim.trans h₂, hsynch.trans h₃⟩
  pending p hp := h.pending p (htrans.symm.trans hp)
  built k b p hb hp := by
    obtain ⟨h₁, h₂, h₃, h₄⟩ := h.built k b p hb hp
    exact ⟨h₁, h₂, h₃, h₄⟩
  placed p c hc ht := by
    rcases h.placed p c hc ht with hp | hp
    · exact .inl (htrans.trans hp)
    · exact .inr hp
  issued := h.issued

theorem Inv.align (h : w.Inv cfg) (slot samplesPerSecond : Int64) :
    (w.step (.alignToClockSlot slot samplesPerSecond)).Inv cfg := by
  rw [step, Service.alignToClockSlot]
  split
  · exact h.of_service rfl rfl rfl rfl rfl
  · exact h.of_service rfl rfl rfl rfl rfl

/-- A frame takes the tracker. -/
theorem Inv.build (h : w.Inv cfg) : (w.step .build).Inv cfg := by
  rw [step]
  cases hbuild : w.service.build with
  | error err => exact h
  | ok x =>
      obtain ⟨asdu, s'⟩ := x
      obtain ⟨hsim, hsynch, hsamples, hcfg', hset', hsim', hsynch', htrans'⟩ := build_eq_ok hbuild
      refine ⟨hcfg'.trans h.cfg_eq, fun c hc ↦ ?_, fun p hp ↦ ?_, ?_, fun p c hc ht ↦ ?_, h.issued⟩
      · obtain ⟨h₁, h₂, h₃⟩ := h.current c hc
        exact ⟨hset'.trans h₁, hsim'.trans h₂, hsynch'.trans h₃⟩
      · exact absurd (htrans'.symm.trans hp) (by simp)
      · intro k b p hb hp
        rcases lt_or_ge k w.frames.length with hk | hk
        · rw [List.getElem?_append_left hk] at hb
          obtain ⟨h₁, h₂, h₃, h₄⟩ := h.built k b p hb hp
          exact ⟨h₁, h₂, h₃, h₄⟩
        · -- the new frame
          rw [List.getElem?_append_right hk] at hb
          obtain ⟨hi, rfl⟩ := List.getElem?_eq_some_iff.mp hb
          have hk' : k = w.frames.length := by
            rw [List.length_singleton] at hi
            omega
          subst hk'
          simp only [Nat.sub_self, List.getElem_cons_zero] at hp ⊢
          obtain ⟨hlast, hnone, c, hc, ht, hbefore⟩ := h.pending p hp
          obtain ⟨hset, hsimc, hsynchc⟩ := h.current c (getLast?_of_length hlast hc)
          refine ⟨⟨c, hc, ht, hbefore, hsim.trans hsimc, hsynch.trans hsynchc, ?_⟩, ?_,
            fun _ ↦ hnone, nofun⟩
          · rw [← hset, ← h.cfg_eq]
            exact hsamples
          · intro q c' hq hc'
            have hlt := (List.getElem?_eq_some_iff.mp hc').1
            dsimp only at hlt
            omega
      · rcases h.placed p c hc ht with hp | hp | ⟨b, hb, hbp⟩
        · obtain ⟨-, -, c', hc', -, hbefore⟩ := h.pending p hp
          obtain rfl : c' = c := Option.some.inj (hc'.symm.trans hc)
          refine .inr (.inr ⟨⟨asdu, w.service.sample, w.service.transmission, false⟩, ?_, hp⟩)
          rw [hbefore, List.getElem?_append_right le_rfl, Nat.sub_self]
          rfl
        · exact .inr (.inl hp)
        · refine .inr (.inr ⟨b, ?_, hbp⟩)
          exact (List.getElem?_append_left (List.getElem?_eq_some_iff.mp hb).1).trans hb

omit [FloatMath F] in
/-- The calls so far keep their numbers. -/
private theorem calls_concat {cs : List (Call F)} {c₀ c : Call F} {p : ℕ}
    (h : (cs ++ [c₀])[p]? = some c) : cs[p]? = some c ∨ p = cs.length ∧ c = c₀ := by
  rcases lt_or_ge p cs.length with hp | hp
  · rw [List.getElem?_append_left hp] at h
    exact .inl h
  · rw [List.getElem?_append_right hp] at h
    obtain ⟨hi, rfl⟩ := List.getElem?_eq_some_iff.mp h
    rw [List.length_singleton] at hi
    obtain rfl : p = cs.length := by omega
    exact .inr ⟨rfl, by simp⟩

/-- An accepted call, with `w'` what is left of the call that waited. -/
theorem Inv.accept (h : w.Inv cfg) (w' : Sender F) (c₀ : Call F)
    (hbefore : c₀.framesBefore = w.frames.length) (hframes : w'.frames = w.frames)
    (hissues : ∀ i ∈ w'.issues, i ∈ w.issues ∨
      ∃ q, w.service.transmission = some q ∧ i = superseded q)
    (hothers : ∀ p, w.service.transmission ≠ some p → w'.issuesOf p = w.issuesOf p)
    (hpending : ∀ p, w.service.transmission = some p → w'.issuesOf p = [superseded p]) :
    { w' with
      service := { w.service with
        transmission := if c₀.tracked then some w.calls.length else none
        settings := c₀.settings
        sim := c₀.simulation
        smpSynch := c₀.smpSynch }
      calls := w.calls ++ [c₀] }.Inv cfg := by
  have hold : ∀ p c, w.calls[p]? = some c → (w.calls ++ [c₀])[p]? = some c := fun p c hc ↦
    (List.getElem?_append_left (List.getElem?_eq_some_iff.mp hc).1).trans hc
  refine ⟨h.cfg_eq, fun c hc ↦ ?_, fun p hp ↦ ?_, fun k b p hb hp ↦ ?_, fun p c hc ht ↦ ?_,
    fun i hi ↦ ?_⟩
  · obtain rfl : c₀ = c := Option.some.inj (List.getLast?_concat.symm.trans hc)
    exact ⟨rfl, rfl, rfl⟩
  · dsimp only at hp
    split at hp
    · next htr =>
        obtain rfl : w.calls.length = p := Option.some.inj hp
        refine ⟨by simp, ?_, c₀, List.getElem?_concat_length, htr, by rw [hbefore, hframes]⟩
        -- no earlier receipt has the number of this call
        refine List.filter_eq_nil_iff.mpr fun i hi hcall ↦ ?_
        have hold : ∃ c, w.calls[i.call]? = some c := by
          rcases hissues i hi with hi | ⟨q, hq, rfl⟩
          · obtain ⟨c, hc, -⟩ := h.issued i hi
            exact ⟨c, hc⟩
          · obtain ⟨-, -, c, hc, -⟩ := h.pending q hq
            exact ⟨c, hc⟩
        obtain ⟨c, hc⟩ := hold
        have hlt := (List.getElem?_eq_some_iff.mp hc).1
        rw [beq_iff_eq.mp hcall] at hlt
        exact lt_irrefl _ hlt
    · exact absurd hp (by simp)
  · dsimp only at hb
    rw [hframes] at hb
    have hans := h.built k b p hb hp
    have hne : w.service.transmission ≠ some p := fun hq ↦ h.ne_of_built hb hp hq rfl
    obtain ⟨c, hc, ht, hk, hcarry⟩ := hans.call
    refine ⟨⟨c, hold p c hc, ht, hk, hcarry⟩, fun q c' hq hc' ↦ ?_, fun hf ↦ ?_, fun hf ↦ ?_⟩
    · rcases calls_concat hc' with hc' | ⟨-, rfl⟩
      · exact hans.later q c' hq hc'
      · rw [hbefore]
        exact (List.getElem?_eq_some_iff.mp hb).1
    · exact (hothers p hne).trans (hans.waiting hf)
    · obtain ⟨r, hr⟩ := hans.receipt hf
      exact ⟨r, (hothers p hne).trans hr⟩
  · rcases calls_concat hc with hc | ⟨rfl, rfl⟩
    · by_cases hq : w.service.transmission = some p
      · exact .inr (.inl (hpending p hq))
      · rcases h.placed p c hc ht with hp | hp | ⟨b, hb, hbp⟩
        · exact absurd hp hq
        · exact .inr (.inl ((hothers p hq).trans hp))
        · exact .inr (.inr ⟨b, (congrArg (·[c.framesBefore]?) hframes).trans hb, hbp⟩)
    · exact .inl (if_pos ht)
  · rcases hissues i hi with hi | ⟨q, hq, rfl⟩
    · obtain ⟨c, hc, ht⟩ := h.issued i hi
      exact ⟨c, hold i.call c hc, ht⟩
    · obtain ⟨-, -, c, hc, ht, -⟩ := h.pending q hq
      exact ⟨c, hold q c hc, ht⟩

theorem Inv.setWaveform (h : w.Inv cfg) (settings : Channels (ChannelSetting F))
    (simulation : Bool) (smpSynch : UInt8) (tracked : Bool) :
    (w.step (.setWaveform settings simulation smpSynch tracked)).Inv cfg := by
  rw [step]
  split
  · exact h
  · next service x hset =>
      obtain ⟨rfl, rfl⟩ := setWaveform_eq_ok hset
      cases hq : w.service.transmission with
      | none =>
          refine h.accept w ⟨settings, simulation, smpSynch, tracked, w.frames.length⟩ rfl rfl
            (fun i hi ↦ .inl hi) (fun _ _ ↦ rfl) (fun p hp ↦ ?_)
          exact absurd (hq.symm.trans hp) (by simp)
      | some q =>
          refine h.accept (w.complete (superseded q))
            ⟨settings, simulation, smpSynch, tracked, w.frames.length⟩ rfl (complete_frames _ _)
            (fun i hi ↦ ?_) (fun p hp ↦ ?_) (fun p hp ↦ ?_)
          · rcases mem_issues_complete hi with hi | rfl
            · exact .inl hi
            · exact .inr ⟨q, hq, rfl⟩
          · refine issuesOf_complete_ne w ?_
            rintro rfl
            exact hp hq
          · obtain rfl : q = p := Option.some.inj (hq.symm.trans hp)
            exact issuesOf_complete_self (h.pending q hq).2.1

/-- The end of a transmission, with `w'` what is left after its receipt. -/
theorem Inv.finished (h : w.Inv cfg) {k : ℕ} {b : Built} (hb : w.frames[k]? = some b)
    (w' : Sender F) (hservice : w'.service = w.service) (hcalls : w'.calls = w.calls)
    (hframes : w'.frames = w.frames.modify k fun b ↦ { b with finished := true })
    (hissues : ∀ i ∈ w'.issues, i ∈ w.issues ∨ b.call = some i.call)
    (hothers : ∀ p, b.call ≠ some p → w'.issuesOf p = w.issuesOf p)
    (hown : ∀ p, b.call = some p → ∃ r, w'.issuesOf p = [⟨p, r, some k⟩]) : w'.Inv cfg := by
  have hframe : ∀ k' b', w'.frames[k']? = some b' →
      k' = k ∧ b' = { b with finished := true } ∨ k' ≠ k ∧ w.frames[k']? = some b' := by
    intro k' b' hb'
    rw [hframes, List.getElem?_modify] at hb'
    by_cases hk : k = k'
    · subst hk
      rw [hb] at hb'
      exact .inl ⟨rfl, by simpa using hb'.symm⟩
    · refine .inr ⟨Ne.symm hk, ?_⟩
      simpa [hk] using hb'
  refine ⟨by rw [hservice]; exact h.cfg_eq, ?_, fun p hp ↦ ?_, fun k' b' p hb' hp ↦ ?_,
    fun p c hc ht ↦ ?_, fun i hi ↦ ?_⟩
  · rw [hservice, hcalls]
    exact h.current
  · rw [hservice] at hp
    obtain ⟨hlast, hnone, c, hc, ht, hbefore⟩ := h.pending p hp
    have hne : b.call ≠ some p := fun hbp ↦ h.ne_of_built hb hbp hp rfl
    rw [hcalls, hothers p hne, hframes, List.length_modify]
    exact ⟨hlast, hnone, c, hc, ht, hbefore⟩
  · rcases hframe k' b' hb' with ⟨rfl, rfl⟩ | ⟨hk, hb'⟩
    · have hans := h.built k' b p hb hp
      refine ⟨by rw [hcalls]; exact hans.call, by rw [hcalls]; exact hans.later, nofun, fun _ ↦ ?_⟩
      exact hown p hp
    · have hans := h.built k' b' p hb' hp
      have hne : b.call ≠ some p := fun hbp ↦ hk (h.frame_eq hb' hb hp hbp)
      refine ⟨by rw [hcalls]; exact hans.call, by rw [hcalls]; exact hans.later, ?_, ?_⟩
      · rw [hothers p hne]
        exact hans.waiting
      · rw [hothers p hne]
        exact hans.receipt
  · rw [hcalls] at hc
    rw [hservice]
    rcases h.placed p c hc ht with hp | hp | ⟨b', hb', hbp⟩
    · exact .inl hp
    · by_cases hbp : b.call = some p
      · -- a superseded call has no frame
        exfalso
        have hans := h.built k b p hb hbp
        cases hf : b.finished with
        | false => exact absurd ((hans.waiting hf).symm.trans hp) (by simp)
        | true =>
            obtain ⟨r, hr⟩ := hans.receipt hf
            have hframe := congrArg Issue.frame (List.singleton_inj.mp (hr.symm.trans hp))
            exact absurd hframe (by simp [superseded])
      · exact .inr (.inl ((hothers p hbp).trans hp))
    · refine .inr (.inr ?_)
      rw [hframes, List.getElem?_modify, hb']
      by_cases hk : k = c.framesBefore
      · exact ⟨{ b' with finished := true }, by simp [hk], hbp⟩
      · exact ⟨b', by simp [hk], hbp⟩
  · rw [hcalls]
    rcases hissues i hi with hi | hi
    · exact h.issued i hi
    · obtain ⟨c, hc, ht, -⟩ := (h.built k b i.call hb hi).call
      exact ⟨c, hc, ht⟩

theorem Inv.finish (h : w.Inv cfg) (k : ℕ) (d : Delivery) : (w.step (.finish k d)).Inv cfg := by
  rw [step]
  cases hb : w.frames[k]? with
  | none => exact h
  | some b =>
      dsimp only
      split
      · exact h
      · next hf =>
          cases hcall : b.call with
          | none =>
              refine h.finished hb _ rfl rfl rfl (fun i hi ↦ .inl hi) (fun _ _ ↦ rfl)
                (fun p hp ↦ ?_)
              exact absurd (hcall.symm.trans hp) (by simp)
          | some p =>
              have hnone := (h.built k b p hb hcall).waiting (by simpa using hf)
              refine h.finished hb _ (complete_service _ _) (complete_calls _ _)
                (complete_frames _ _) (fun i hi ↦ ?_) (fun q hq ↦ ?_) (fun q hq ↦ ?_)
              · rcases mem_issues_complete hi with hi | rfl
                · exact .inl hi
                · exact .inr hcall
              · refine issuesOf_complete_ne _ ?_
                rintro rfl
                exact hq hcall
              · obtain rfl : p = q := Option.some.inj (hcall.symm.trans hq)
                exact ⟨d.receipt, issuesOf_complete_self hnone⟩

/-! ## Whole runs -/

theorem inv_run (as : List (Action F)) : (as.foldl step (Sender.new cfg)).Inv cfg := by
  refine inv_run_of_step (fun w a h ↦ ?_) Inv.new as
  cases a with
  | setWaveform settings simulation smpSynch tracked =>
      exact h.setWaveform settings simulation smpSynch tracked
  | build => exact h.build
  | finish k d => exact h.finish k d
  | alignToClockSlot slot samplesPerSecond => exact h.align slot samplesPerSecond

/-- The receipts of a call are at most one, whichever of the four places it is in. -/
theorem Inv.length_issuesOf (h : w.Inv cfg) (p : ℕ) : (w.issuesOf p).length ≤ 1 := by
  by_cases hnone : w.issuesOf p = []
  · simp [hnone]
  · obtain ⟨i, hi⟩ := List.exists_mem_of_ne_nil _ hnone
    obtain ⟨hmem, hcall⟩ := List.mem_filter.mp hi
    obtain ⟨c, hc, ht⟩ := h.issued i hmem
    rw [beq_iff_eq.mp hcall] at hc
    rcases h.placed p c hc ht with hp | hp | ⟨b, hb, hbp⟩
    · exact absurd (h.pending p hp).2.1 hnone
    · simp [hp]
    · have hans := h.built _ b p hb hbp
      cases hf : b.finished with
      | false => exact absurd (hans.waiting hf) hnone
      | true =>
          obtain ⟨r, hr⟩ := hans.receipt hf
          simp [hr]

/-- A receipt without error is for the first frame after the call, which carries it. -/
theorem Inv.receipt_frame (h : w.Inv cfg) {i : Issue} (hi : i ∈ w.issues)
    (herr : i.receipt.err = none) :
    ∃ c b, w.calls[i.call]? = some c ∧ c.tracked = true ∧ i.frame = some c.framesBefore ∧
      w.frames[c.framesBefore]? = some b ∧ Carries cfg b c := by
  obtain ⟨c, hc, ht⟩ := h.issued i hi
  have hmem : i ∈ w.issuesOf i.call := List.mem_filter.mpr ⟨hi, by simp⟩
  rcases h.placed i.call c hc ht with hp | hp | ⟨b, hb, hbp⟩
  · rw [(h.pending i.call hp).2.1] at hmem
    exact absurd hmem List.not_mem_nil
  · rw [hp, List.mem_singleton] at hmem
    rw [hmem] at herr
    exact absurd herr (by simp [superseded])
  · have hans := h.built _ b i.call hb hbp
    obtain ⟨c', hc', -, -, hcarry⟩ := hans.call
    obtain rfl : c = c' := Option.some.inj (hc.symm.trans hc')
    cases hf : b.finished with
    | false =>
        rw [hans.waiting hf] at hmem
        exact absurd hmem List.not_mem_nil
    | true =>
        obtain ⟨r, hr⟩ := hans.receipt hf
        rw [hr, List.mem_singleton] at hmem
        exact ⟨c, b, hc, ht, congrArg Issue.frame hmem, hb, hcarry⟩

/-- A tracked call with no frame between it and a later call has been told so. -/
theorem Inv.replaced (h : w.Inv cfg) {p q : ℕ} {c c' : Call F} (hc : w.calls[p]? = some c)
    (ht : c.tracked = true) (hc' : w.calls[q]? = some c') (hpq : p < q)
    (hbefore : c'.framesBefore = c.framesBefore) : w.issuesOf p = [superseded p] := by
  rcases h.placed p c hc ht with hp | hp | ⟨b, hb, hbp⟩
  · have hlast := (h.pending p hp).1
    have hlt := (List.getElem?_eq_some_iff.mp hc').1
    omega
  · exact hp
  · have hlater := (h.built _ b p hb hbp).later q c' hpq hc'
    omega

/-- **Receipts identify their frames.**  In every run: a tracked call gets at most one receipt; a
receipt without error is for the first frame built after its call, and that frame carries exactly
what the call set; a call that was replaced before any frame was built got an error; and a call
that the validation rejects changes nothing. -/
theorem receipts_identify_frames (cfg : PublisherConfig) (as : List (Action F)) :
    let w := as.foldl step (Sender.new cfg)
    (∀ p, (w.issuesOf p).length ≤ 1) ∧
      (∀ i ∈ w.issues, i.receipt.err = none →
        ∃ c b, w.calls[i.call]? = some c ∧ c.tracked = true ∧ i.frame = some c.framesBefore ∧
          w.frames[c.framesBefore]? = some b ∧ Carries cfg b c) ∧
      (∀ p q c c', w.calls[p]? = some c → c.tracked = true → w.calls[q]? = some c' → p < q →
        c'.framesBefore = c.framesBefore →
          ∃ i ∈ w.issues, i.call = p ∧ i.frame = none ∧ i.receipt.err.isSome = true) ∧
      ∀ settings simulation smpSynch tracked t err,
        Publisher.setWaveform w.service settings simulation smpSynch t = .error err →
          w.step (.setWaveform settings simulation smpSynch tracked) = w := by
  intro w
  have h : w.Inv cfg := inv_run as
  refine ⟨h.length_issuesOf, fun i hi herr ↦ h.receipt_frame hi herr, ?_, ?_⟩
  · intro p q c c' hc ht hc' hpq hbefore
    have hp := h.replaced hc ht hc' hpq hbefore
    have hmem : superseded p ∈ w.issuesOf p := by simp [hp]
    exact ⟨superseded p, (List.mem_filter.mp hmem).1, rfl, rfl, rfl⟩
  · intro settings simulation smpSynch tracked t err herr
    have herr' : ∀ t', Publisher.setWaveform w.service settings simulation smpSynch t' =
        .error err := by
      intro t'
      rw [Publisher.setWaveform] at herr ⊢
      dsimp only at herr ⊢
      split at herr
      · exact herr
      · cases herr
    rw [step, herr']

end Sender

end ProcessBus.Sv.Publisher
