import ProcessBus.Automation.WriteBack
import ProcessBus.Goose.Lengths
import ProcessBus.Goose.Trace

/-!
# The length check of `prepareGoose`

`prepareGoose` measures one frame, with the longest counters and the longest time allowed to live,
and no VLAN tag.  The publisher sends others: its own counters and intervals, the times that it
resolved, the flags, a tag.  None of them is longer (`wireSize_pdu_le`): the sizes of nested TLVs
grow with every part, and resolving times changes no size.
-/

namespace ProcessBus.Goose

open Go Lib.Ber Publisher

/-! ## What leaves the size of a dataset alone -/

mutual

theorem contentSize_resolveDataTime (now : Time) (quality : TimeQuality) : (v : DataValue) →
    (resolveDataTime now quality v).contentSize = v.contentSize
  | ⟨type, bool, int, uint, float, bytes, bitLength, string, time, tq, children⟩ => by
      have ih := wireSizes_resolveDataTimes now quality children
      cases type with
      | array => exact ih
      | struct => exact ih
      | _ => rfl

/-- A resolved time takes as much room as one that is not set. -/
theorem wireSizes_resolveDataTimes (now : Time) (quality : TimeQuality) :
    (values : List DataValue) → wireSizes (resolveDataTimes now quality values) = wireSizes values
  | [] => rfl
  | v :: values => by
      rw [resolveDataTimes, wireSizes, wireSizes, contentSize_resolveDataTime now quality v,
        wireSizes_resolveDataTimes now quality values]

end

theorem length_resolveDataTimes (now : Time) (quality : TimeQuality) (values : List DataValue) :
    (resolveDataTimes now quality values).length = values.length := by
  induction values with
  | nil => rfl
  | cons v values ih => exact congrArg (· + 1) ih

mutual

theorem contentSize_canonical : (v : DataValue) → (canonical v).contentSize = v.contentSize
  | ⟨type, bool, int, uint, float, bytes, bitLength, string, time, tq, children⟩ => by
      have ih := wireSizes_canonicalAll children
      cases type with
      | array => exact ih
      | struct => exact ih
      | _ => rfl

/-- The two zeros take the same room. -/
theorem wireSizes_canonicalAll : (values : List DataValue) →
    wireSizes (canonicalAll values) = wireSizes values
  | [] => rfl
  | v :: values => by
      rw [canonicalAll, wireSizes, wireSizes, contentSize_canonical v,
        wireSizes_canonicalAll values]

end

theorem length_canonicalAll (values : List DataValue) :
    (canonicalAll values).length = values.length := by
  induction values with
  | nil => rfl
  | cons v values ih => exact congrArg (· + 1) ih

/-- Two datasets of one size. -/
def SameSize (as bs : List DataValue) : Prop :=
  as.length = bs.length ∧ wireSizes as = wireSizes bs

theorem SameSize.of_equal {as bs : List DataValue} (h : dataValuesEqual as bs = true) :
    SameSize as bs := by
  obtain ⟨-, heq⟩ := (dataValuesEqual_iff as bs).mp h
  constructor
  · rw [← length_canonicalAll as, heq, length_canonicalAll]
  · rw [← wireSizes_canonicalAll as, heq, wireSizes_canonicalAll]

/-- What an Ethernet frame carries behind its header and its VLAN tag. -/
def payload (pdu : PDU) : Bytes := (encode pdu).drop (headerLength pdu.vlan)

theorem length_payload (pdu : PDU) : (payload pdu).length = pdu.wireSize := by
  rw [payload, List.length_drop, length_encode, Nat.add_sub_cancel_left, wireSize_eq]

end ProcessBus.Goose

namespace ProcessBus.Goose.Publisher

/-! ## The dataset of a publisher -/

/-- The state shows this dataset: it was given to `ApplyState`, which put it in place of another or
found no difference. -/
def Service.Shows (s : Service) (data : List DataValue) : Prop :=
  s.logicalData = data ∨ dataValuesEqual s.logicalData data = true

/-- What a publisher keeps to: its configuration, and the times resolved in a copy of the data. -/
structure Service.Resolved (cfg : PublisherConfig) (s : Service) : Prop where
  cfg_eq : s.cfg = cfg.normalize
  data_eq : ∃ now quality, s.data = resolveDataTimes now quality s.logicalData

variable {cfg : PublisherConfig} {s : Service}

theorem new_resolved (cfg : PublisherConfig) (r : Reading) : (new cfg r).Resolved cfg :=
  ⟨rfl, _, _, rfl⟩

theorem Service.Resolved.step (h : s.Resolved cfg) (op : Op) : (s.step op).Resolved cfg := by
  cases op with
  | transmitState => exact ⟨h.cfg_eq, h.data_eq⟩
  | applyState data test sim r =>
      show ((s.applyState data test sim r).1).Resolved cfg
      unfold Service.applyState
      split
      · exact h
      · exact ⟨h.cfg_eq, _, _, rfl⟩

theorem Service.Resolved.run (h : s.Resolved cfg) (ops : List Op) :
    (ops.foldl Service.step s).Resolved cfg := by
  induction ops generalizing s with
  | nil => exact h
  | cons op ops ih => exact ih (h.step op)

theorem Service.Resolved.sameSize (h : s.Resolved cfg) {data : List DataValue}
    (hshows : s.Shows data) : SameSize s.data data := by
  obtain ⟨now, quality, hdata⟩ := h.data_eq
  have hlogical : SameSize s.logicalData data := by
    rcases hshows with rfl | hequal
    · exact ⟨rfl, rfl⟩
    · exact .of_equal hequal
  rw [SameSize, hdata, length_resolveDataTimes, wireSizes_resolveDataTimes]
  exact hlogical

theorem applyState_shows (s : Service) (data : List DataValue) (test sim : Bool) (r : Reading) :
    ((s.applyState data test sim r).1).Shows data := by
  unfold Service.applyState
  split
  · rename_i hsame
    rw [Bool.and_eq_true, Bool.and_eq_true] at hsame
    exact .inr hsame.1.1
  · exact .inl rfl

/-- Up to the next change of state, every frame is made in a state that shows the same dataset. -/
theorem period_shows {data : List DataValue} (hs : s.Resolved cfg) (hshows : s.Shows data)
    {state msg : ℕ} {ops : List Op} {p : Published}
    (hp : p ∈ period (publish s state msg ops) state) :
    ∃ s' : Service, s'.Resolved cfg ∧ s'.Shows data ∧ p.pdu = s'.pdu := by
  induction ops generalizing s msg with
  | nil => cases hp
  | cons op ops ih =>
      cases op with
      | applyState data' test sim r =>
          rcases applyState_cases s data' test sim r with e | ⟨s', e, -, -⟩
          · simp only [publish, e] at hp
            exact ih hs hshows hp
          · simp only [publish, e, period_of_lt (Nat.lt_succ_self state)] at hp
            cases hp
      | transmitState =>
          rw [publish, period, List.filter_cons_of_pos (by simp)] at hp
          rcases List.mem_cons.mp hp with rfl | hp
          · exact ⟨s, hs, hshows, rfl⟩
          · exact ih (hs.step .transmitState) hshows hp

end ProcessBus.Goose.Publisher

namespace ProcessBus.Automation

open Go Goose Goose.Publisher Lib.Ber

variable {c : Output}

/-! ## The longest frame -/

/-- **No frame is longer than the one that was measured.** -/
theorem wireSize_pdu_le {s : Service} (hs : s.Resolved c.config) {data : List DataValue}
    (hsize : SameSize s.data data) : s.pdu.wireSize ≤ (c.frame data).wireSize := by
  obtain ⟨hlength, hwire⟩ := hsize
  have hmax (n : UInt32) : n.toNat ≤ (0xFFFFFFFF : UInt32).toNat :=
    Nat.le_of_lt_succ n.toNat_lt
  have hgocb : s.cfg.gocbRef = c.config.gocbRef := by rw [hs.cfg_eq]; rfl
  have hdat : s.cfg.datSet = c.config.datSet := by rw [hs.cfg_eq]; rfl
  have hgo : s.cfg.goID = c.config.goID := by rw [hs.cfg_eq]; rfl
  have hrev : s.cfg.confRev = c.config.confRev := by rw [hs.cfg_eq]; rfl
  simp only [PDU.wireSize, Service.pdu, Output.frame, reservedHeader, hgocb, hdat, hgo, hrev,
    hlength, hwire]
  gcongr
  · exact hmax s.cfg.maxMs
  · exact hmax s.stNum
  · exact hmax s.sqNum

theorem wireSize_frame_le {data : List DataValue} (h : c.FitsFrame data) :
    (c.frame data).wireSize ≤ 1500 := by
  have hlength := length_encode (c.frame data)
  have hheader : headerLength (c.frame data).vlan = 14 := rfl
  rw [Output.FitsFrame, hlength, hheader, Nat.add_sub_cancel_left] at h
  rwa [wireSize_eq]

theorem prepareGoose_fitsFrame {req : GooseSetRequest Json} {last next : GooseOutput}
    (h : c.project.prepareGoose req c.stream last = .ok next) : c.FitsFrame next.data := by
  rw [prepareGoose_eq] at h
  split_ifs at h
  split at h
  · cases h
  · split_ifs at h with hfits
    cases h
    exact hfits

theorem length_payload_le {req : GooseSetRequest Json} {last next : GooseOutput}
    (h : c.project.prepareGoose req c.stream last = .ok next) {s : Service}
    (hs : s.Resolved c.config) (hshows : s.Shows next.data) : (payload s.pdu).length ≤ 1500 := by
  calc (payload s.pdu).length = s.pdu.wireSize := length_payload _
    _ ≤ (c.frame next.data).wireSize := wireSize_pdu_le hs (hs.sameSize hshows)
    _ ≤ 1500 := wireSize_frame_le (prepareGoose_fitsFrame h)

/-- **Every frame of an accepted dataset fits into Ethernet.**  Whatever has happened to the
publisher before, a frame that is made in a state that shows the dataset has a payload of at most
1500 bytes, and so has every frame from a call of `ApplyState` with the dataset to the next change
of state. -/
theorem accepted_frames_fit {req : GooseSetRequest Json} {last next : GooseOutput}
    (h : c.project.prepareGoose req c.stream last = .ok next) (r : Reading) (ops : List Op) :
    let s := ops.foldl Service.step (new c.config r)
    (s.Shows next.data → (payload s.transmitState.2).length ≤ 1500) ∧
      ∀ test sim r' state msg later,
        ∀ p ∈ period (publish (s.applyState next.data test sim r').1 state msg later) state,
          (payload p.pdu).length ≤ 1500 := by
  intro s
  have hs : s.Resolved c.config := (new_resolved c.config r).run ops
  refine ⟨fun hshows ↦ length_payload_le h hs hshows, fun test sim r' state msg later p hp ↦ ?_⟩
  obtain ⟨s', hs', hshows, hpdu⟩ :=
    period_shows (hs.step (.applyState next.data test sim r')) (applyState_shows _ _ _ _ _) hp
  rw [hpdu]
  exact length_payload_le h hs' hshows

/-- A client trips the only publisher. -/
def tripRequest : GooseSetRequest Json :=
  ⟨tripOutput.id, "1", [⟨"goose_pub/Trip/entry/0", .bool true⟩]⟩

/-- A trip is accepted, and the two frames that follow it fit. -/
theorem accepted_frames_fit_trip :
    ∃ next, tripOutput.project.prepareGoose tripRequest tripOutput.stream
        (freshDesk tripOutput).snapshot = .ok next ∧
      let s := (new tripOutput.config standingClock).applyState next.data true false standingClock
      let frames := period (publish s.1 1 0 [.transmitState, .transmitState]) 1
      frames.length = 2 ∧ ∀ p ∈ frames, (payload p.pdu).length ≤ 1500 := by
  have hprepare : tripOutput.project.prepareGoose tripRequest tripOutput.stream
      (freshDesk tripOutput).snapshot =
        .ok ⟨[{ type := .boolean, bool := true }, { type := .utcTime }], false, false⟩ := rfl
  refine ⟨_, hprepare, by decide +kernel, ?_⟩
  exact (accepted_frames_fit hprepare standingClock []).2 true false standingClock 1 0
    [.transmitState, .transmitState]

end ProcessBus.Automation
