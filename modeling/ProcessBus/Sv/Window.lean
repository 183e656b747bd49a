import ProcessBus.Lib.Ring
import ProcessBus.Sv.Measurement
import Mathlib.Algebra.BigOperators.Group.List.Basic
import Mathlib.Tactic.Ring

/-!
# What the sample window retains

The window of `internal/application/svsub` is a ring with a running sum of squares for every
channel.  The samples are added at whatever rate they were published with, and another rate starts a
window of another size; a gap resets it and leaves the old values in their slots.

`Retained` is what the window is for: the samples since the last reset or change of size, of which
the last `size` count.  The window that the code keeps refines it after any calls, in exact
arithmetic with the sums (`window_retains`).
-/

namespace ProcessBus.Sv

open Go Lib

variable {F : Type} [Float64 F]

/-- A sample as the window stores it. -/
@[ext]
structure Sample (F : Type) where
  index : UInt64
  value : Fin numChannels → F

/-- The sample of an ASDU. -/
def ASDU.sample (F : Type) [Float64 F] (a : ASDU) (sampleIndex : UInt64) : Sample F where
  index := sampleIndex
  value := a.physicalValue F

/-- A call of `add` or `reset`. -/
inductive WindowCall where
  | add (asdu : ASDU) (smpRate : UInt16) (sampleIndex : UInt64)
  | reset

namespace SampleWindow

/-- `oldestPosition`. -/
def oldestPosition (w : SampleWindow F) : ℕ := if w.count = w.size then w.pos else 0

/-- The sample in a slot. -/
def sampleAt (w : SampleWindow F) (slot : Fin w.size) : Sample F where
  index := w.index.get slot
  value ch := (w.values.get ch).get slot

/-- The samples as the readers of the window visit them: `count` slots from `oldestPosition` on. -/
def contents (w : SampleWindow F) : List (Sample F) :=
  List.ofFn fun i : Fin w.count ↦
    w.sampleAt ⟨(w.oldestPosition + i) % w.size, Nat.mod_lt _ (i.pos.trans_le w.count_le)⟩

/-- The call on the window. -/
def call (w : SampleWindow F) : WindowCall → SampleWindow F
  | .add asdu smpRate sampleIndex => w.add asdu smpRate sampleIndex
  | .reset => w.reset

/-- The window fills up from its first slot. -/
def Filling (w : SampleWindow F) : Prop := w.count < w.size → w.pos = w.count

/-- The ring that the window is. -/
def ring (w : SampleWindow F) (h : w.Filling) : RingBuffer (Sample F) w.size where
  cells := w.sampleAt
  pos := w.pos
  count := w.count
  pos_lt := w.pos_lt
  count_le := w.count_le
  filling := h

variable {w : SampleWindow F}

theorem Filling.empty (size : ℕ) : (empty F size).Filling := fun _ ↦ rfl

theorem Filling.reset : w.reset.Filling := fun _ ↦ rfl

theorem Filling.push (h : w.Filling) (hw : 0 < w.size) (asdu : ASDU) (sampleIndex : UInt64) :
    (w.push hw asdu sampleIndex).Filling :=
  ((w.ring h).push hw (asdu.sample F sampleIndex)).filling

theorem get_set {α : Type*} {n pos : ℕ} (xs : Vector α n) (hpos : pos < n) (x : α) (i : Fin n) :
    (xs.set pos x).get i = if i = ⟨pos, hpos⟩ then x else xs.get i := by
  change (xs.set pos x)[i.val] = _
  rw [Vector.getElem_set]
  refine if_congr ?_ rfl rfl
  rw [Fin.ext_iff, eq_comm]

/-- `add` on a window of the right size writes the slot at the position. -/
theorem sampleAt_push (hw : 0 < w.size) (asdu : ASDU) (sampleIndex : UInt64) (slot : Fin w.size) :
    (w.push hw asdu sampleIndex).sampleAt slot =
      if slot = ⟨w.pos, w.pos_lt hw⟩ then asdu.sample F sampleIndex else w.sampleAt slot := by
  have hindex : (w.push hw asdu sampleIndex).index.get slot =
      if slot = ⟨w.pos, w.pos_lt hw⟩ then sampleIndex else w.index.get slot :=
    get_set w.index (w.pos_lt hw) sampleIndex slot
  have hvalue : ∀ ch, ((w.push hw asdu sampleIndex).values.get ch).get slot =
      if slot = ⟨w.pos, w.pos_lt hw⟩ then asdu.physicalValue F ch
      else (w.values.get ch).get slot := by
    intro ch
    have hch : (w.push hw asdu sampleIndex).values.get ch =
        (w.values.get ch).set w.pos (asdu.physicalValue F ch) (w.pos_lt hw) :=
      Vector.getElem_ofFn ch.isLt
    exact (congrArg (fun v : Vector F w.size ↦ v.get slot) hch).trans
      (get_set _ (w.pos_lt hw) _ slot)
  refine Sample.ext ?_ (funext fun ch ↦ ?_)
  · refine hindex.trans ?_
    split
    · rfl
    · rfl
  · refine (hvalue ch).trans ?_
    split
    · rfl
    · rfl

/-- It puts the sample in the ring. -/
theorem ring_push (h : w.Filling) (hw : 0 < w.size) (asdu : ASDU) (sampleIndex : UInt64) :
    (w.push hw asdu sampleIndex).ring (h.push hw asdu sampleIndex) =
      (w.ring h).push hw (asdu.sample F sampleIndex) := by
  have hcells : (w.push hw asdu sampleIndex).sampleAt =
      Function.update w.sampleAt ⟨w.pos, w.pos_lt hw⟩ (asdu.sample F sampleIndex) := by
    funext slot
    exact (sampleAt_push hw asdu sampleIndex slot).trans (Function.update_apply ..).symm
  exact RingBuffer.ext hcells rfl rfl

theorem add_of_size_eq (asdu : ASDU) {smpRate : UInt16} (sampleIndex : UInt64)
    (hsize : w.size = windowSize smpRate) :
    w.add asdu smpRate sampleIndex =
      w.push (hsize ▸ windowSize_pos smpRate) asdu sampleIndex := by
  have hresize : w.resize (windowSize smpRate) = w := if_pos hsize
  simp only [add, hresize]

theorem add_of_size_ne (asdu : ASDU) {smpRate : UInt16} (sampleIndex : UInt64)
    (hsize : w.size ≠ windowSize smpRate) :
    w.add asdu smpRate sampleIndex =
      (empty F (windowSize smpRate)).push (windowSize_pos smpRate) asdu sampleIndex := by
  have hresize : w.resize (windowSize smpRate) = empty F (windowSize smpRate) := if_neg hsize
  simp only [add, hresize]

/-- The calls on a window, from the zero value on. -/
def run (F : Type) [Float64 F] (calls : List WindowCall) : SampleWindow F :=
  calls.foldl call (empty F 0)

end SampleWindow

/-! ## What it is for -/

/-- The samples added since the last reset or change of size. -/
structure History (F : Type) where
  size : ℕ := 0
  samples : List (Sample F) := []

/-- What a call adds to the history. -/
def History.call (h : History F) : WindowCall → History F
  | .add asdu smpRate sampleIndex =>
      if h.size = windowSize smpRate then
        { h with samples := h.samples ++ [asdu.sample F sampleIndex] }
      else ⟨windowSize smpRate, [asdu.sample F sampleIndex]⟩
  | .reset => { h with samples := [] }

def History.run (F : Type) [Float64 F] (calls : List WindowCall) : History F :=
  calls.foldl History.call {}

/-- The window holds the last of the samples. -/
structure Retained (h : History F) (w : SampleWindow F) : Prop where
  size : w.size = h.size
  filling : w.Filling
  contents : w.contents = h.samples.rtake w.size

variable {h : History F} {w : SampleWindow F}

theorem Retained.push (hr : Retained h w) (hw : 0 < w.size) (asdu : ASDU) (sampleIndex : UInt64) :
    Retained { h with samples := h.samples ++ [asdu.sample F sampleIndex] }
      (w.push hw asdu sampleIndex) := by
  refine ⟨hr.size, hr.filling.push hw asdu sampleIndex, ?_⟩
  have hring := SampleWindow.ring_push hr.filling hw asdu sampleIndex
  have hcontents := RingBuffer.contents_push (w.ring hr.filling) hw (asdu.sample F sampleIndex)
    hr.contents
  rw [← hring] at hcontents
  exact hcontents

theorem Retained.empty (size : ℕ) :
    Retained (⟨size, []⟩ : History F) (SampleWindow.empty F size) := by
  refine ⟨rfl, .empty size, ?_⟩
  rw [List.rtake_nil]
  exact List.ofFn_zero

/-- One call. -/
theorem Retained.call (hr : Retained h w) (c : WindowCall) :
    Retained (h.call c) (w.call c) := by
  cases c with
  | add asdu smpRate sampleIndex =>
      rw [History.call, SampleWindow.call]
      by_cases hsize : w.size = windowSize smpRate
      · rw [if_pos (hr.size.symm.trans hsize), SampleWindow.add_of_size_eq asdu sampleIndex hsize]
        exact hr.push _ asdu sampleIndex
      · rw [if_neg fun heq ↦ hsize (hr.size.trans heq),
          SampleWindow.add_of_size_ne asdu sampleIndex hsize]
        exact (Retained.empty _).push (windowSize_pos smpRate) asdu sampleIndex
  | reset =>
      refine ⟨hr.size, .reset, ?_⟩
      rw [History.call, List.rtake_nil]
      exact List.ofFn_zero

theorem Retained.run (calls : List WindowCall) :
    Retained (History.run F calls) (SampleWindow.run F calls) := by
  induction calls using List.reverseRecOn with
  | nil =>
      exact .empty 0
  | append_singleton calls c ih =>
      rw [History.run, SampleWindow.run, List.foldl_concat, List.foldl_concat]
      exact ih.call c

/-! ## The sums -/

section Sums

variable {w : SampleWindow ℚ}

/-- In exact arithmetic the sums are those of the squares in the window. -/
def Summed (w : SampleWindow ℚ) : Prop :=
  ∀ ch, w.sumSquares.get ch = (w.contents.map fun s ↦ s.value ch ^ 2).sum

theorem get_replicate {α : Type*} (n : ℕ) (x : α) (i : Fin n) :
    (Vector.replicate n x).get i = x :=
  Vector.getElem_replicate i.isLt

theorem Summed.empty (size : ℕ) : Summed (.empty ℚ size) := by
  intro ch
  have hcontents : (SampleWindow.empty ℚ size).contents = [] := List.ofFn_zero
  rw [hcontents, List.map_nil, List.sum_nil, SampleWindow.empty, get_replicate]
  exact Int.cast_zero

theorem Summed.reset (w : SampleWindow ℚ) : Summed w.reset := by
  intro ch
  have hcontents : w.reset.contents = [] := List.ofFn_zero
  rw [hcontents, List.map_nil, List.sum_nil, SampleWindow.reset, get_replicate]
  exact Int.cast_zero

/-- Adding a sample takes the square that it overwrites from the sum. -/
theorem Summed.push (hs : Summed w) (hfill : w.Filling) (hw : 0 < w.size) (asdu : ASDU)
    (sampleIndex : UInt64) : Summed (w.push hw asdu sampleIndex) := by
  intro ch
  have hring := SampleWindow.ring_push hfill hw asdu sampleIndex
  have hsum : (w.push hw asdu sampleIndex).sumSquares.get ch =
      (if w.count = w.size then
        w.sumSquares.get ch - (w.sampleAt ⟨w.pos, w.pos_lt hw⟩).value ch *
          (w.sampleAt ⟨w.pos, w.pos_lt hw⟩).value ch
      else w.sumSquares.get ch) + asdu.physicalValue ℚ ch * asdu.physicalValue ℚ ch :=
    Vector.getElem_ofFn ch.isLt
  rw [hsum, hs ch]
  have hvalue : (asdu.sample ℚ sampleIndex).value ch = asdu.physicalValue ℚ ch := rfl
  rcases w.count_le.lt_or_eq with hlt | heq
  · have hcontents : (w.push hw asdu sampleIndex).contents =
        w.contents ++ [asdu.sample ℚ sampleIndex] :=
      (congrArg RingBuffer.contents hring).trans
        (RingBuffer.contents_push_of_lt (w.ring hfill) hw _ hlt)
    rw [if_neg hlt.ne, hcontents, List.map_append, List.sum_append, List.map_singleton,
      List.sum_singleton, hvalue, pow_two]
  · have hcontents : (w.push hw asdu sampleIndex).contents =
        w.contents.tail ++ [asdu.sample ℚ sampleIndex] :=
      (congrArg RingBuffer.contents hring).trans
        (RingBuffer.contents_push_of_eq (w.ring hfill) hw _ heq)
    have hcons : w.contents = w.sampleAt ⟨w.pos, w.pos_lt hw⟩ :: w.contents.tail :=
      RingBuffer.contents_eq_cons (w.ring hfill) hw heq
    have hold : (w.contents.map fun s ↦ s.value ch ^ 2).sum =
        (w.sampleAt ⟨w.pos, w.pos_lt hw⟩).value ch ^ 2 +
          (w.contents.tail.map fun s ↦ s.value ch ^ 2).sum := by
      rw [hcons, List.map_cons, List.sum_cons, List.tail_cons]
    rw [if_pos heq, hcontents, hold, List.map_append, List.sum_append, List.map_singleton,
      List.sum_singleton, hvalue, pow_two, pow_two, add_sub_cancel_left]

theorem Summed.call {h : History ℚ} (hs : Summed w) (hr : Retained h w) (c : WindowCall) :
    Summed (w.call c) := by
  cases c with
  | add asdu smpRate sampleIndex =>
      rw [SampleWindow.call]
      by_cases hsize : w.size = windowSize smpRate
      · rw [SampleWindow.add_of_size_eq asdu sampleIndex hsize]
        exact hs.push hr.filling _ asdu sampleIndex
      · rw [SampleWindow.add_of_size_ne asdu sampleIndex hsize]
        exact (Summed.empty _).push (.empty _) (windowSize_pos smpRate) asdu sampleIndex
  | reset =>
      exact .reset w

theorem Summed.run (calls : List WindowCall) : Summed (SampleWindow.run ℚ calls) := by
  induction calls using List.reverseRecOn with
  | nil =>
      exact .empty 0
  | append_singleton calls c ih =>
      rw [SampleWindow.run, List.foldl_concat]
      exact ih.call (.run calls) c

end Sums

/-- **The window holds the last samples and the sums of their squares**: after any calls of `add`,
at whatever sampling rates, and of `reset` it reads, from `oldestPosition` on, as the last
`min(n, size)` of the `n` samples added since the last reset or change of size. -/
theorem window_retains (calls : List WindowCall) :
    let w := SampleWindow.run ℚ calls
    let h := History.run ℚ calls
    w.size = h.size ∧ w.contents = h.samples.rtake w.size ∧
      w.count = min h.samples.length w.size ∧
      ∀ ch, w.sumSquares.get ch =
        ((h.samples.rtake w.size).map fun s ↦ s.value ch ^ 2).sum := by
  intro w h
  have hr : Retained h w := .run calls
  have hs : Summed w := .run calls
  refine ⟨hr.size, hr.contents, ?_, ?_⟩
  · have hlength : w.contents.length = w.count := List.length_ofFn
    rw [← hlength, hr.contents, List.rtake, List.length_drop]
    omega
  · intro ch
    rw [← hr.contents]
    exact hs ch

end ProcessBus.Sv
