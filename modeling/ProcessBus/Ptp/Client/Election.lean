import ProcessBus.Ptp.Client.Bmca

/-!
# The outcome of an election

The client collects the qualified masters by iterating over a map, so the order in which they
are compared is arbitrary.  The comparison decides every pair of masters with different port
identities, in one direction only.  It is not transitive, though: two masters behind one
grandmaster are compared by the path to it, whatever they say about the grandmaster itself, and
a third master with another grandmaster may come to lie between them.

`selectBestMaster_perm` says when the order does not matter: exactly when some master is better
than every other one, and in particular when masters that share a grandmaster describe it alike.
-/

namespace ProcessBus.Ptp.Client

open Go Lib

/-! ## The two comparisons -/

/-- What a data set says about its grandmaster, as one number: priority 1, class, accuracy,
variance and priority 2, in this order. -/
def Dataset.grandmaster (a : Dataset) : ℕ :=
  (((a.priority1.toNat * 256 + a.quality.clockClass.toNat) * 256 +
    a.quality.clockAccuracy.toNat) * 65536 + a.quality.offsetScaledLogVariance.toNat) * 256 +
    a.priority2.toNat

section Compare

variable {a b c : Dataset}

theorem identityCompare_swap (x y : ClockIdentity) :
    identityCompare y x = -identityCompare x y := bytesCompare_swap _ _

theorem identityCompare_eq_zero {x y : ClockIdentity} : identityCompare x y = 0 ↔ x = y :=
  bytesCompare_eq_zero.trans Vector.toList_inj

/-- Grandmasters are compared by what is said about them, then by identity. -/
theorem compareGrandmasters_neg_iff : compareGrandmasters a b < 0 ↔
    a.grandmaster < b.grandmaster ∨
      a.grandmaster = b.grandmaster ∧ identityCompare a.identity b.identity < 0 := by
  have h₁ := a.priority1.toNat_lt
  have h₂ := b.priority1.toNat_lt
  have h₃ := a.quality.clockClass.toNat_lt
  have h₄ := b.quality.clockClass.toNat_lt
  have h₅ := a.quality.clockAccuracy.toNat_lt
  have h₆ := b.quality.clockAccuracy.toNat_lt
  have h₇ := a.quality.offsetScaledLogVariance.toNat_lt
  have h₈ := b.quality.offsetScaledLogVariance.toNat_lt
  have h₉ := a.priority2.toNat_lt
  have h₀ := b.priority2.toNat_lt
  simp only [compareGrandmasters, Dataset.grandmaster, ne_eq, ← UInt8.toNat_inj,
    ← UInt16.toNat_inj]
  split_ifs <;> omega

/-- Paths are compared by their length, then by the sending port. -/
theorem comparePaths_neg_iff : comparePaths a b < 0 ↔
    a.stepsRemoved.toNat < b.stepsRemoved.toNat ∨ a.stepsRemoved.toNat = b.stepsRemoved.toNat ∧
      (identityCompare a.sender.clockIdentity b.sender.clockIdentity < 0 ∨
        a.sender.clockIdentity = b.sender.clockIdentity ∧
          (a.sender.portNumber.toNat < b.sender.portNumber.toNat ∨
            a.sender.portNumber.toNat = b.sender.portNumber.toNat ∧
              a.receiver.portNumber.toNat < b.receiver.portNumber.toNat)) := by
  rw [← identityCompare_eq_zero]
  simp only [comparePaths, ne_eq, ← UInt16.toNat_inj]
  split_ifs <;> omega

/-- Each comparison changes sign with its arguments. -/
theorem compareGrandmasters_swap : compareGrandmasters b a = -compareGrandmasters a b := by
  have h := identityCompare_swap a.identity b.identity
  simp only [compareGrandmasters, ne_eq, ← UInt8.toNat_inj, ← UInt16.toNat_inj]
  split_ifs <;> omega

theorem comparePaths_swap : comparePaths b a = -comparePaths a b := by
  have h := identityCompare_swap a.sender.clockIdentity b.sender.clockIdentity
  simp only [comparePaths, ne_eq, ← UInt16.toNat_inj]
  split_ifs <;> omega

theorem dsCmp_of_ne (h : a.identity ≠ b.identity) :
    dsCmp (some a) (some b) = compareGrandmasters a b :=
  if_pos (mt identityCompare_eq_zero.mp h)

theorem dsCmp_of_eq (h : a.identity = b.identity) :
    dsCmp (some a) (some b) = comparePaths a b :=
  if_neg (not_not.mpr (identityCompare_eq_zero.mpr h))

/-- The comparison is antisymmetric. -/
theorem dsCmp_swap : dsCmp (some b) (some a) = -dsCmp (some a) (some b) := by
  by_cases h : a.identity = b.identity
  · rw [dsCmp_of_eq h, dsCmp_of_eq h.symm, comparePaths_swap]
  · rw [dsCmp_of_ne h, dsCmp_of_ne (Ne.symm h), compareGrandmasters_swap]

/-- Data sets of different senders never tie. -/
theorem dsCmp_ne_zero (h : a.sender ≠ b.sender) : dsCmp (some a) (some b) ≠ 0 := by
  by_cases hid : a.identity = b.identity
  · rw [dsCmp_of_eq hid]
    have hport : a.sender.clockIdentity = b.sender.clockIdentity →
        a.sender.portNumber.toNat ≠ b.sender.portNumber.toNat := fun hc hp ↦ h <| by
      cases ha : a.sender
      cases hb : b.sender
      simp_all [UInt16.toNat_inj]
    rw [← identityCompare_eq_zero] at hport
    intro e
    simp only [comparePaths, ne_eq, ← UInt16.toNat_inj] at e
    split_ifs at e <;> omega
  · rw [dsCmp_of_ne hid]
    rw [← identityCompare_eq_zero] at hid
    intro e
    simp only [compareGrandmasters, ne_eq, ← UInt8.toNat_inj, ← UInt16.toNat_inj] at e
    split_ifs at e <;> omega

/-- Both data sets say the same about the grandmaster if they have the same one. -/
def Dataset.Agrees (a b : Dataset) : Prop :=
  a.identity = b.identity → a.grandmaster = b.grandmaster

theorem identityCompare_trans {x y z : ClockIdentity} (h : identityCompare x y < 0)
    (h' : identityCompare y z < 0) : identityCompare x z < 0 := bytesCompare_trans h h'

theorem comparePaths_trans (hab : comparePaths a b < 0) (hbc : comparePaths b c < 0) :
    comparePaths a c < 0 := by
  have ht : identityCompare a.sender.clockIdentity b.sender.clockIdentity < 0 →
      identityCompare b.sender.clockIdentity c.sender.clockIdentity < 0 →
      identityCompare a.sender.clockIdentity c.sender.clockIdentity < 0 := identityCompare_trans
  rw [comparePaths_neg_iff] at hab hbc ⊢
  rcases hab with h | ⟨h, hab⟩
  · rcases hbc with h' | ⟨h', -⟩ <;> exact .inl (by omega)
  rcases hbc with h' | ⟨h', hbc⟩
  · exact .inl (by omega)
  refine .inr ⟨by omega, ?_⟩
  rcases hab with hs | ⟨hs, hab⟩
  · rcases hbc with hs' | ⟨hs', -⟩
    · exact .inl (ht hs hs')
    · exact .inl (hs' ▸ hs)
  rcases hbc with hs' | ⟨hs', hbc⟩
  · exact .inl (hs ▸ hs')
  · exact .inr ⟨hs.trans hs', by omega⟩

/-- Where the same grandmaster is described alike, the comparison is transitive. -/
theorem dsCmp_trans (h₁ : a.Agrees b) (h₂ : b.Agrees c) (h₃ : a.Agrees c)
    (hab : dsCmp (some a) (some b) < 0) (hbc : dsCmp (some b) (some c) < 0) :
    dsCmp (some a) (some c) < 0 := by
  by_cases hidab : a.identity = b.identity <;> by_cases hidbc : b.identity = c.identity
  · rw [dsCmp_of_eq hidab] at hab
    rw [dsCmp_of_eq hidbc] at hbc
    rw [dsCmp_of_eq (hidab.trans hidbc)]
    exact comparePaths_trans hab hbc
  · rw [dsCmp_of_ne hidbc, compareGrandmasters_neg_iff] at hbc
    rw [dsCmp_of_ne (hidab ▸ hidbc), compareGrandmasters_neg_iff, h₁ hidab, hidab]
    exact hbc
  · rw [dsCmp_of_ne hidab, compareGrandmasters_neg_iff] at hab
    rw [dsCmp_of_ne (hidbc ▸ hidab), compareGrandmasters_neg_iff, ← h₂ hidbc, ← hidbc]
    exact hab
  · rw [dsCmp_of_ne hidab, compareGrandmasters_neg_iff] at hab
    rw [dsCmp_of_ne hidbc, compareGrandmasters_neg_iff] at hbc
    by_cases hidac : a.identity = c.identity
    · -- The same grandmaster on both sides of another one: it would be better than itself.
      have hswap := identityCompare_swap a.identity b.identity
      rw [← h₃ hidac, ← hidac] at hbc
      omega
    · rw [dsCmp_of_ne hidac, compareGrandmasters_neg_iff]
      rcases hab with h | ⟨h, hab⟩
      · rcases hbc with h' | ⟨h', -⟩ <;> exact .inl (by omega)
      rcases hbc with h' | ⟨h', hbc⟩
      · exact .inl (by omega)
      · exact .inr ⟨by omega, identityCompare_trans hab hbc⟩

end Compare

/-! ## Elections -/

/-- A list of candidates: foreign masters with different port identities, each with an Announce
of its own. -/
structure Candidates (masters : List ForeignMaster) : Prop where
  own : ∀ m ∈ masters, m.header.sourcePortIdentity = m.identity
  distinct : masters.Pairwise fun m n ↦ m.identity ≠ n.identity

/-- `m` is better than `n`, seen from the port. -/
def Better (port : PortIdentity) (m n : ForeignMaster) : Prop :=
  dsCmp (some (m.dataset port)) (some (n.dataset port)) < 0

section Elections

variable {masters : List ForeignMaster} {port : PortIdentity}

theorem better_iff {m n : ForeignMaster} : better port m n = true ↔ Better port m n :=
  decide_eq_true_iff

theorem Candidates.nodup (h : Candidates masters) : masters.Nodup :=
  h.distinct.imp fun hne e ↦ hne (congrArg ForeignMaster.identity e)

/-- Different candidates have different identities. -/
theorem Candidates.identity_ne (h : Candidates masters) {m n : ForeignMaster} (hm : m ∈ masters)
    (hn : n ∈ masters) (hne : m ≠ n) : m.identity ≠ n.identity := by
  obtain ⟨i, hi, rfl⟩ := List.mem_iff_getElem.mp hm
  obtain ⟨j, hj, rfl⟩ := List.mem_iff_getElem.mp hn
  have hpair := List.pairwise_iff_getElem.mp h.distinct
  rcases lt_trichotomy i j with hlt | rfl | hgt
  · exact hpair i j hi hj hlt
  · exact absurd rfl hne
  · exact (hpair j i hj hi hgt).symm

/-- Of two candidates exactly one is better. -/
theorem Candidates.better_iff_not (h : Candidates masters) {m n : ForeignMaster}
    (hm : m ∈ masters) (hn : n ∈ masters) (hne : m ≠ n) :
    Better port m n ↔ ¬ Better port n m := by
  have hsend : (m.dataset port).sender ≠ (n.dataset port).sender := by
    change m.header.sourcePortIdentity ≠ n.header.sourcePortIdentity
    rw [h.own m hm, h.own n hn]
    exact h.identity_ne hm hn hne
  have hzero := dsCmp_ne_zero hsend
  have hswap := dsCmp_swap (a := m.dataset port) (b := n.dataset port)
  unfold Better
  omega

theorem Candidates.decides (h : Candidates masters) (port : PortIdentity) :
    Decides (better port) masters := by
  intro m hm n hn hne
  rw [better_iff, h.better_iff_not hm hn hne, ← better_iff, Bool.not_eq_true]

/-- **Elections and the order of comparison.**  The comparison is antisymmetric on candidates;
the selection is the same for every order of them exactly when there are none or one of them
is better than all the others; and this is the case, because the comparison is transitive,
whenever candidates that share a grandmaster describe it alike. -/
theorem selectBestMaster_perm (h : Candidates masters) (port : PortIdentity) :
    (∀ m ∈ masters, ∀ n ∈ masters, m ≠ n → (Better port m n ↔ ¬ Better port n m)) ∧
    ((∀ masters', masters'.Perm masters →
        selectBestMaster masters' port = selectBestMaster masters port) ↔
      masters = [] ∨ ∃ w ∈ masters, ∀ m ∈ masters, m ≠ w → Better port w m) ∧
    ((∀ m ∈ masters, ∀ n ∈ masters, (m.dataset port).Agrees (n.dataset port)) →
      (∀ m ∈ masters, ∀ n ∈ masters, ∀ k ∈ masters,
        Better port m n → Better port n k → Better port m k) ∧
      ∀ masters', masters'.Perm masters →
        selectBestMaster masters' port = selectBestMaster masters port) := by
  have hiff : (∀ masters', masters'.Perm masters →
        selectBestMaster masters' port = selectBestMaster masters port) ↔
      masters = [] ∨ ∃ w ∈ masters, ∀ m ∈ masters, m ≠ w → Better port w m := by
    refine (scan_perm_iff h.nodup (h.decides port)).trans (or_congr_right ?_)
    simp only [BeatsAll, better_iff]
  refine ⟨fun m hm n hn ↦ h.better_iff_not hm hn, hiff, fun hagree ↦ ?_⟩
  have htrans : ∀ m ∈ masters, ∀ n ∈ masters, ∀ k ∈ masters,
      Better port m n → Better port n k → Better port m k := fun m hm n hn k hk ↦
    dsCmp_trans (hagree m hm n hn) (hagree n hn k hk) (hagree m hm k hk)
  refine ⟨htrans, hiff.mpr ?_⟩
  by_cases hnil : masters = []
  · exact .inl hnil
  right
  obtain ⟨w, hw, hbeats⟩ := exists_beatsAll hnil (h.decides port)
    fun a ha b hb c hc hab hbc _ ↦
      better_iff.mpr (htrans a ha b hb c hc (better_iff.mp hab) (better_iff.mp hbc))
  exact ⟨w, hw, fun m hm hne ↦ better_iff.mp (hbeats m hm hne)⟩

end Elections

/-- A qualified foreign master for concrete elections. -/
def exampleMaster (port grandmaster priority1 : UInt8) (stepsRemoved : UInt16) : ForeignMaster :=
  let m := ForeignMaster.new ⟨.ofFn fun _ ↦ port, 1⟩
  { m with
    announceCount := 2
    header := { m.header with sourcePortIdentity := m.identity }
    announce :=
      { m.announce with
        grandmasterIdentity := .ofFn fun _ ↦ grandmaster
        grandmasterPriority1 := priority1
        stepsRemoved := stepsRemoved } }

/-- A cycle: two masters of grandmaster 1, with different priorities and path lengths, and one
of grandmaster 2 between them.  Each is better than the next, so rotating the list changes the
selection. -/
theorem selectBestMaster_order_dependent :
    let a := exampleMaster 1 1 1 5
    let b := exampleMaster 2 2 2 0
    let c := exampleMaster 3 1 3 0
    let port : PortIdentity := ⟨.replicate _ 0, 1⟩
    Candidates [a, b, c] ∧ (Better port a b ∧ Better port b c ∧ Better port c a) ∧
      [b, c, a].Perm [a, b, c] ∧ selectBestMaster [b, c, a] port = some a ∧
      selectBestMaster [a, b, c] port = some c ∧ a ≠ c := by
  intro a b c port
  have hperm : ([b, c] ++ [a]).Perm ([a] ++ [b, c]) := List.perm_append_comm
  refine ⟨⟨by decide, by decide⟩, ?_, hperm, by decide, by decide, by decide⟩
  unfold Better
  decide

/-- Two masters that agree about their grandmaster: the selection does not depend on the
order. -/
theorem selectBestMaster_perm_pair :
    selectBestMaster [exampleMaster 2 1 1 0, exampleMaster 1 1 1 5] ⟨.replicate _ 0, 1⟩ =
      selectBestMaster [exampleMaster 1 1 1 5, exampleMaster 2 1 1 0] ⟨.replicate _ 0, 1⟩ := by
  have hc : Candidates [exampleMaster 1 1 1 5, exampleMaster 2 1 1 0] :=
    ⟨by decide, by decide⟩
  refine ((selectBestMaster_perm hc ⟨.replicate _ 0, 1⟩).2.2 ?_).2 _ (List.Perm.swap _ _ _)
  unfold Dataset.Agrees
  decide

end ProcessBus.Ptp.Client
