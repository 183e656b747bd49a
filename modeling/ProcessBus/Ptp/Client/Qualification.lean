import ProcessBus.Go.Int64
import ProcessBus.Go.Slice
import ProcessBus.Lib.Run
import ProcessBus.Ptp.Client.Bmca

/-!
# The qualification window

Every Announce of a foreign master brings a window of its own, so a call of `recordAnnounce` can
drop what an earlier one would have kept and the other way round.  What is retained is still easy to
say: the accepted Announces that are not before the window of any later call (`retained`).

`announce_qualification` states it together with what qualification rests on: when a call is
accepted and counts two Announces, then the one accepted before it has another sequence number and
is in the window of this call.
-/

namespace ProcessBus.Ptp.Client

open Go Lib

/-- The arguments of one call of `recordAnnounce`. -/
structure AnnounceCall where
  now : Time
  window : Duration
  sequenceID : UInt16
deriving DecidableEq

/-- `cutoff`: the call time minus the window, in Go's arithmetic. -/
def AnnounceCall.cutoff (c : AnnounceCall) : Time := c.now.add (-c.window)

/-- Negating a duration is exact, except for the smallest one. -/
theorem AnnounceCall.cutoff_ns {c : AnnounceCall} (h : c.window ≠ Int64.minValue) :
    c.cutoff.ns = c.now.ns - c.window.toInt := by
  have hne : c.window.toInt ≠ -2 ^ 63 := fun heq ↦ h (Int64.toInt_inj.mp heq)
  have hle := c.window.le_toInt
  have hlt := c.window.toInt_lt
  have hneg : (-c.window).toInt = -c.window.toInt := by
    rw [Int64.toInt_neg]
    exact bmod_of_fits64 ⟨by omega, by omega⟩
  rw [cutoff, Time.add, hneg]
  rfl

/-- `recent` is what the loop of `recordAnnounce` leaves in `kept`. -/
theorem ForeignMaster.recent_eq_compact (m : ForeignMaster) (now : Time) (window : Duration) :
    m.recent now window =
      compact (fun receivedAt ↦ !receivedAt.before (now.add (-window))) m.announceTimes :=
  (compact_eq_filter _ _).symm

/-- A foreign master and the calls made on it so far, each with its result. -/
structure Recorded where
  master : ForeignMaster
  log : List (AnnounceCall × Bool)

namespace Recorded

/-- A new record. -/
def new (identity : PortIdentity) : Recorded := ⟨.new identity, []⟩

/-- One more call. -/
def call (x : Recorded) (c : AnnounceCall) : Recorded :=
  let r := x.master.recordAnnounce c.now c.window c.sequenceID
  ⟨r.1, x.log ++ [(c, r.2)]⟩

end Recorded

/-- The times of the accepted Announces that are not before the cutoff of any later call. -/
def retained : List (AnnounceCall × Bool) → List Time
  | [] => []
  | (c, accepted) :: later =>
      (if accepted && later.all (fun d ↦ !c.now.before d.1.cutoff) then [c.now] else []) ++
        retained later

/-- The accepted calls, in their order. -/
def accepted (log : List (AnnounceCall × Bool)) : List AnnounceCall :=
  (log.filter Prod.snd).map Prod.fst

/-! ## One call -/

theorem retained_append (log : List (AnnounceCall × Bool)) (c : AnnounceCall) (a : Bool) :
    retained (log ++ [(c, a)]) =
      (retained log).filter (fun t ↦ !t.before c.cutoff) ++ if a then [c.now] else [] := by
  induction log with
  | nil => cases a <;> rfl
  | cons d log ih =>
      obtain ⟨d, b⟩ := d
      have hhead : (if b && (log ++ [(c, a)]).all (fun e ↦ !d.now.before e.1.cutoff) then [d.now]
          else []) = (if b && log.all (fun e ↦ !d.now.before e.1.cutoff) then [d.now]
          else []).filter (fun t ↦ !t.before c.cutoff) := by
        rw [List.all_append, ← Bool.and_assoc]
        cases b && log.all (fun e ↦ !d.now.before e.1.cutoff) <;>
          cases hc : d.now.before c.cutoff <;> simp [hc]
      rw [List.cons_append, retained, ih, retained, hhead, List.filter_append, List.append_assoc]

theorem accepted_append (log : List (AnnounceCall × Bool)) (c : AnnounceCall) (a : Bool) :
    accepted (log ++ [(c, a)]) = accepted log ++ if a then [c] else [] := by
  rw [accepted, List.filter_append, List.map_append, accepted]
  cases a <;> rfl

/-- What is retained comes from accepted calls, in their order. -/
theorem retained_sublist (log : List (AnnounceCall × Bool)) :
    (retained log).Sublist ((accepted log).map AnnounceCall.now) := by
  induction log using List.reverseRecOn with
  | nil => exact List.Sublist.refl _
  | append_singleton log d ih =>
      obtain ⟨c, a⟩ := d
      rw [retained_append, accepted_append, List.map_append]
      refine (List.filter_sublist.trans ih).append ?_
      cases a <;> exact List.Sublist.refl _

/-- What the record says about the calls made on it. -/
structure Recorded.Inv (x : Recorded) : Prop where
  times : x.master.announceTimes = retained x.log
  count : x.master.announceCount = x.master.announceTimes.length
  sequence : ∀ c ∈ (accepted x.log).getLast?,
    x.master.sequenceValid = true ∧ x.master.lastSequenceID = c.sequenceID ∧
      x.master.lastSeen = c.now

theorem Recorded.inv_new (identity : PortIdentity) : (new identity).Inv where
  times := rfl
  count := rfl
  sequence := by
    intro c hc
    exact nomatch hc

theorem Recorded.Inv.call {x : Recorded} (h : x.Inv) (c : AnnounceCall) : (x.call c).Inv := by
  have hrecent : x.master.recent c.now c.window =
      (retained x.log).filter (fun t ↦ !t.before c.cutoff) := by
    rw [ForeignMaster.recent, h.times]
    rfl
  rw [Recorded.call, ForeignMaster.recordAnnounce]
  cases hrep : x.master.isRepeat c.now c.window c.sequenceID with
  | true =>
      refine ⟨?_, rfl, ?_⟩
      · rw [if_pos rfl, retained_append, if_neg Bool.false_ne_true, List.append_nil]
        exact hrecent
      · rw [if_pos rfl, accepted_append, if_neg Bool.false_ne_true, List.append_nil]
        exact h.sequence
  | false =>
      refine ⟨?_, rfl, ?_⟩
      · rw [if_neg Bool.false_ne_true, retained_append, if_pos rfl]
        exact congrArg (· ++ [c.now]) hrecent
      · rw [if_neg Bool.false_ne_true, accepted_append, if_pos rfl, List.getLast?_concat]
        rintro d ⟨⟩
        exact ⟨rfl, rfl, rfl⟩

/-! ## Any number of calls -/

/-- The record after the calls. -/
def recordedAfter (identity : PortIdentity) (calls : List AnnounceCall) : Recorded :=
  calls.foldl Recorded.call (.new identity)

theorem inv_recordedAfter (identity : PortIdentity) (calls : List AnnounceCall) :
    (recordedAfter identity calls).Inv :=
  inv_run_of_step (fun _ c hx ↦ hx.call c) (Recorded.inv_new identity) calls

theorem recordedAfter_append (identity : PortIdentity) (calls : List AnnounceCall)
    (c : AnnounceCall) :
    recordedAfter identity (calls ++ [c]) = (recordedAfter identity calls).call c :=
  List.foldl_append

theorem log_recordedAfter (identity : PortIdentity) (calls : List AnnounceCall) :
    (recordedAfter identity calls).log.map Prod.fst = calls := by
  induction calls using List.reverseRecOn with
  | nil => rfl
  | append_singleton calls c ih =>
      rw [recordedAfter_append, Recorded.call, List.map_append, ih]
      rfl

/-- Accepted calls are calls. -/
theorem accepted_sublist (identity : PortIdentity) (calls : List AnnounceCall) :
    (accepted (recordedAfter identity calls).log).Sublist calls := by
  have hsub : (accepted (recordedAfter identity calls).log).Sublist
      ((recordedAfter identity calls).log.map Prod.fst) := List.filter_sublist.map Prod.fst
  rwa [log_recordedAfter] at hsub

/-- With times that do not decrease, nothing retained is later than the last accepted call. -/
theorem retained_le {log : List (AnnounceCall × Bool)} {c : AnnounceCall} {t : Time}
    (h : (accepted log).Pairwise fun c d ↦ c.now ≤ d.now)
    (hc : (accepted log).getLast? = some c) (ht : t ∈ retained log) : t ≤ c.now := by
  obtain ⟨d, hd, rfl⟩ := List.mem_map.mp ((retained_sublist log).subset ht)
  obtain ⟨init, hinit⟩ := List.getLast?_eq_some_iff.mp hc
  rw [hinit] at h hd
  rcases List.mem_append.mp hd with hd | hd
  · exact (List.pairwise_append.mp h).2.2 d hd c List.mem_cons_self
  · rw [List.mem_singleton.mp hd]

/-- A call that repeats the last accepted sequence number. -/
theorem Recorded.Inv.repeats {x : Recorded} (h : x.Inv) {c d : AnnounceCall}
    (hd : (accepted x.log).getLast? = some d) (hid : c.sequenceID = d.sequenceID)
    (hkept : x.master.recent c.now c.window ≠ []) :
    x.master.recordAnnounce c.now c.window c.sequenceID =
      ({ x.master with
          announceTimes := x.master.recent c.now c.window
          announceCount := (x.master.recent c.now c.window).length }, false) := by
  obtain ⟨hvalid, hlast, -⟩ := h.sequence d hd
  have hrep : x.master.isRepeat c.now c.window c.sequenceID = true := by
    rw [ForeignMaster.isRepeat, hvalid, hlast, hid]
    simpa using hkept
  rw [ForeignMaster.recordAnnounce, if_pos hrep]

/-- A call that is accepted beside another Announce. -/
theorem Recorded.Inv.distinct {x : Recorded} (h : x.Inv) {c : AnnounceCall}
    (haccepted : (x.master.recordAnnounce c.now c.window c.sequenceID).2 = true)
    (hcount : 2 ≤ (x.call c).master.announceCount) :
    ∃ init d t, accepted x.log = init ++ [d] ∧ d.sequenceID ≠ c.sequenceID ∧ t ∈ retained x.log ∧
      c.cutoff ≤ t := by
  have hrep : x.master.isRepeat c.now c.window c.sequenceID = false := by
    rw [ForeignMaster.recordAnnounce_snd] at haccepted
    rwa [Bool.not_eq_true'] at haccepted
  have hkept : x.master.recent c.now c.window ≠ [] := by
    rw [← ForeignMaster.recordAnnounce_qualified hrep]
    exact decide_eq_true hcount
  obtain ⟨t, ht⟩ := List.exists_mem_of_ne_nil _ hkept
  obtain ⟨hmem, hcutoff⟩ := List.mem_filter.mp ht
  rw [h.times] at hmem
  have hne : accepted x.log ≠ [] := by
    rintro hnil
    have hsub := retained_sublist x.log
    rw [hnil, List.map_nil, List.sublist_nil] at hsub
    rw [hsub] at hmem
    exact absurd hmem List.not_mem_nil
  have hlast := List.getLast?_eq_some_getLast hne
  obtain ⟨init, hinit⟩ := List.getLast?_eq_some_iff.mp hlast
  rw [Bool.not_eq_true'] at hcutoff
  refine ⟨init, _, t, hinit, ?_, hmem, Time.before_eq_false.mp hcutoff⟩
  intro hid
  have hrepeats := congrArg Prod.snd (h.repeats hlast hid.symm hkept)
  rw [haccepted] at hrepeats
  exact absurd hrepeats.symm Bool.false_ne_true

/-- **Master qualification.**  After calls with times that do not decrease, whatever their windows
and sequence numbers: the Announces counted are the accepted ones that are not before the cutoff of
a later call; their times do not decrease; if the last call was accepted and two are counted, then
the call accepted before it had another sequence number and was made within the window of the last
one; and a further call that repeats the last accepted sequence number while an Announce is retained
is refused and leaves the time and the sequence number of the last one. -/
theorem announce_qualification (identity : PortIdentity) {calls : List AnnounceCall}
    (h : calls.Pairwise fun c d ↦ c.now ≤ d.now) :
    let x := recordedAfter identity calls
    x.log.map Prod.fst = calls ∧
      x.master.announceCount = (retained x.log).length ∧
      x.master.announceTimes = retained x.log ∧
      x.master.announceTimes.Pairwise (· ≤ ·) ∧
      (∀ c log, x.log = log ++ [(c, true)] → 2 ≤ x.master.announceCount →
        ∃ init d, accepted x.log = init ++ [d, c] ∧ d.sequenceID ≠ c.sequenceID ∧
          c.cutoff ≤ d.now ∧ d.now ≤ c.now) ∧
      ∀ c d : AnnounceCall, (accepted x.log).getLast? = some d → c.sequenceID = d.sequenceID →
        x.master.recent c.now c.window ≠ [] →
        let r := x.master.recordAnnounce c.now c.window c.sequenceID
        r.2 = false ∧ r.1.lastSeen = x.master.lastSeen ∧
          r.1.lastSequenceID = x.master.lastSequenceID := by
  intro x
  have hinv : x.Inv := inv_recordedAfter identity calls
  have hsorted : (accepted x.log).Pairwise fun c d ↦ c.now ≤ d.now :=
    h.sublist (accepted_sublist identity calls)
  refine ⟨log_recordedAfter identity calls, ?_, hinv.times, ?_, ?_, ?_⟩
  · rw [hinv.count, hinv.times]
  · rw [hinv.times]
    refine List.Pairwise.sublist (retained_sublist x.log) ?_
    exact List.pairwise_map.mpr hsorted
  · intro c log hlog hcount
    obtain rfl | ⟨before, c', rfl⟩ := List.eq_nil_or_concat' calls
    · exact absurd hlog.symm (List.append_ne_nil_of_right_ne_nil _ (List.cons_ne_nil _ _))
    · have hx : x = (recordedAfter identity before).call c' := recordedAfter_append ..
      have hinv' := inv_recordedAfter identity before
      rw [hx] at hlog hcount ⊢
      obtain ⟨-, hcall⟩ := List.append_inj' hlog rfl
      obtain ⟨rfl, haccepted⟩ := Prod.mk.inj (List.head_eq_of_cons_eq hcall)
      obtain ⟨init, d, t, hinit, hid, ht, hcutoff⟩ := hinv'.distinct haccepted hcount
      have hall : accepted ((recordedAfter identity before).call c').log = init ++ [d, c'] := by
        rw [Recorded.call, accepted_append, haccepted, hinit, if_pos rfl, List.append_assoc]
        rfl
      rw [hx, hall] at hsorted
      refine ⟨init, d, hall, hid, hcutoff.trans ?_, ?_⟩
      · refine retained_le ?_ (by rw [hinit, List.getLast?_concat]) ht
        exact h.sublist ((accepted_sublist identity before).trans (List.sublist_append_left _ _))
      · exact List.rel_of_pairwise_cons (List.pairwise_append.mp hsorted).2.1 List.mem_cons_self
  · intro c d hd hid hkept
    dsimp only
    rw [hinv.repeats hd hid hkept]
    exact ⟨rfl, rfl, rfl⟩

/-- An Announce with a window of four seconds, sent twice, and the next one. -/
def exampleAnnounces : List AnnounceCall :=
  [⟨.ofUnix 10 0, 4000000000, 1⟩, ⟨.ofUnix 11 0, 4000000000, 1⟩, ⟨.ofUnix 12 0, 4000000000, 2⟩]

theorem announce_qualification_two :
    let x := recordedAfter ⟨.replicate _ 0, 1⟩ exampleAnnounces
    x.master.qualified = true ∧
      ∃ init d, accepted x.log = init ++ [d, ⟨.ofUnix 12 0, 4000000000, 2⟩] ∧ d.sequenceID ≠ 2 := by
  intro x
  have hsorted : exampleAnnounces.Pairwise fun c d ↦ c.now ≤ d.now := by decide
  have hcount : x.master.announceCount = 2 := by decide
  have hlog : x.log =
      [(⟨.ofUnix 10 0, 4000000000, 1⟩, true), (⟨.ofUnix 11 0, 4000000000, 1⟩, false)] ++
        [(⟨.ofUnix 12 0, 4000000000, 2⟩, true)] := by decide
  obtain ⟨-, -, -, -, hlast, -⟩ := announce_qualification ⟨.replicate _ 0, 1⟩ hsorted
  obtain ⟨init, d, hinit, hid, -, -⟩ := hlast _ _ hlog hcount.ge
  exact ⟨decide_eq_true hcount.ge, init, d, hinit, hid⟩

end ProcessBus.Ptp.Client
