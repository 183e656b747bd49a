import ProcessBus.Ptp.Client.Reselection

/-!
# The table of foreign masters

Entries come in with an accepted Announce, are refreshed by the next ones, and go with a rejected
one or when they time out; after each of these the client selects again, and keeps the identity
and the UTC offset of the selected master beside the table.  `foreign_masters_invariant` says that
the table and what is kept beside it always fit, and what the Announces behind the entries were
like.
-/

namespace ProcessBus.Ptp.Client

open Go Lib

set_option linter.unusedSectionVars false

variable {F C T : Type} [Float64 F] [Clock C F] [Transport T]

/-! ## Accepted Announces -/

/-- The Announce, header and body, that a call accepts: it passes the checks of `handleAnnounce`
and is not a repetition. -/
def Service.accepted (s : Service F C T) : Call → Option (Header × Bytes)
  | .general pkt now _ =>
      match s.unpack pkt with
      | none => none
      | some (hdr, body) =>
          if hdr.messageType = msgAnnounce then
            match announceVerdict s.profile hdr body with
            | .valid _ _ => if (s.recordAnnounce hdr now).2 then some (hdr, body) else none
            | .bad | .reject => none
          else none
  | _ => none

/-- The last Announce of a port among those accepted, which are listed last one first. -/
def lastOf (id : PortIdentity) (accepted : List (Header × Bytes)) : Option (Header × Bytes) :=
  accepted.find? fun a ↦ decide (a.1.sourcePortIdentity = id)

theorem lastOf_cons_self {hdr : Header} {body : Bytes} {accepted : List (Header × Bytes)} :
    lastOf hdr.sourcePortIdentity ((hdr, body) :: accepted) = some (hdr, body) :=
  List.find?_cons_of_pos (decide_eq_true rfl)

theorem lastOf_cons_of_ne {id : PortIdentity} {hdr : Header} {body : Bytes}
    {accepted : List (Header × Bytes)} (h : id ≠ hdr.sourcePortIdentity) :
    lastOf id ((hdr, body) :: accepted) = lastOf id accepted := by
  refine List.find?_cons_of_neg ?_
  rw [decide_eq_true_iff]
  exact h.symm

/-- An Announce that offers absolute UTC and, if the profile is a Power Profile, holds TLVs of its
version. -/
structure Acceptable (version : C37238Version) (hdr : Header) (body : Bytes) : Prop where
  timescale : hdr.flagField &&& flagPTPTimescale = flagPTPTimescale
  utcOffsetValid : hdr.flagField &&& flagCurrentUtcOffsetValid = flagCurrentUtcOffsetValid
  powerProfile : version ≠ .disabled →
    ∃ tlvs, decodeAnnounceProfileTLVs body = .ok tlvs ∧ tlvs.c37238Version = version

/-- The entry holds what the Announce says. -/
structure Records (m : ForeignMaster) (hdr : Header) (body : Bytes) : Prop where
  header : m.header = hdr
  announce : decodeAnnounceBody body = .ok m.announce
  utcOffset : m.utcOffset = m.announce.currentUtcOffset

theorem flags_of_announceProvidesAbsoluteUTC {hdr : Header}
    (h : Service.announceProvidesAbsoluteUTC hdr = true) :
    hdr.flagField &&& flagPTPTimescale = flagPTPTimescale ∧
      hdr.flagField &&& flagCurrentUtcOffsetValid = flagCurrentUtcOffsetValid := by
  have hall : hdr.flagField &&& (flagPTPTimescale ||| flagCurrentUtcOffsetValid) =
      flagPTPTimescale ||| flagCurrentUtcOffsetValid := beq_iff_eq.mp h
  -- a mask inside the required ones is met as soon as all of them are
  have hpart {mask : UInt16}
      (hmask : (flagPTPTimescale ||| flagCurrentUtcOffsetValid) &&& mask = mask) :
      hdr.flagField &&& mask = mask := by
    rw [← hmask, ← UInt16.and_assoc, hall]
  exact ⟨hpart rfl, hpart rfl⟩

/-- A valid Announce is acceptable. -/
theorem announceVerdict_valid {profile : Profile} {hdr : Header} {body : Bytes}
    {ann : AnnounceBody} {tlvs : AnnounceProfileTLVs}
    (h : Service.announceVerdict profile hdr body = .valid ann tlvs) :
    Acceptable profile.c37238Version hdr body ∧ decodeAnnounceBody body = .ok ann := by
  unfold Service.announceVerdict at h
  split at h
  · cases h
  rename_i ann' hann
  split at h
  · cases h
  rename_i hutc
  rw [Bool.not_eq_true, Bool.not_eq_false'] at hutc
  obtain ⟨htimescale, hvalid⟩ := flags_of_announceProvidesAbsoluteUTC hutc
  split at h
  · rename_i hdisabled
    cases h
    exact ⟨⟨htimescale, hvalid, fun hpower ↦ absurd hdisabled hpower⟩, hann⟩
  split at h
  · cases h
  rename_i tlvs' htlvs
  split at h
  · cases h
  rename_i hversion
  cases h
  exact ⟨⟨htimescale, hvalid, fun _ ↦ ⟨tlvs, htlvs, not_not.mp hversion⟩⟩, hann⟩

theorem effectiveProfile_c37238Version (cfg : Config) :
    (Service.effectiveProfile cfg).c37238Version = cfg.profile.c37238Version := by
  unfold Service.effectiveProfile
  dsimp only
  split
  · rfl
  · split <;> rfl

/-! ## Announces and the table -/

section Announce

variable {s : Service F C T} {hdr : Header} {now : Time}

/-- A repeated Announce is one of an entry, and only its times change. -/
theorem recordAnnounce_repeated (h : (s.recordAnnounce hdr now).2 = false) :
    ∃ m, s.foreignMasters.lookup hdr.sourcePortIdentity = some m ∧ ∃ times count,
      (s.recordAnnounce hdr now).1 =
        { m with announceTimes := times, announceCount := count } := by
  unfold Service.recordAnnounce at h ⊢
  cases hm : s.foreignMasters.lookup hdr.sourcePortIdentity with
  | none =>
      rw [hm] at h
      exact absurd h (by simp [ForeignMaster.isRepeat, ForeignMaster.new])
  | some m =>
      rw [hm] at h
      refine ⟨m, rfl, ?_⟩
      have hrep := (ForeignMaster.recordAnnounce_snd ..).symm.trans h
      rw [Bool.not_eq_false'] at hrep
      dsimp only [Option.getD_some] at hrep ⊢
      rw [ForeignMaster.recordAnnounce, if_pos hrep]
      exact ⟨_, _, rfl⟩

theorem announcedMaster_identity {ann : AnnounceBody} {tlvs : AnnounceProfileTLVs}
    (h : ∀ id m, s.foreignMasters.lookup id = some m → m.identity = id) :
    (s.announcedMaster hdr ann tlvs now).identity = hdr.sourcePortIdentity := by
  show (s.recordAnnounce hdr now).1.identity = _
  rw [Service.recordAnnounce, ForeignMaster.recordAnnounce_identity]
  cases hm : s.foreignMasters.lookup hdr.sourcePortIdentity with
  | none => rfl
  | some m => exact h _ m hm

end Announce

/-- A call without a selection accepts no Announce. -/
theorem accepted_of_no_reselection {s : Service F C T} {c : Call} (h : s.reselection c = none) :
    s.accepted c = none := by
  cases c with
  | general pkt now ord =>
      simp only [Service.accepted]
      simp only [Service.reselection] at h
      split
      · rfl
      rename_i hdr body hpkt
      rw [hpkt] at h
      split
      · rename_i hann
        simp only [if_pos hann, Service.announceReselection] at h
        split
        · rename_i ann tlvs hverdict
          rw [hverdict] at h
          split
          · rename_i hrec
            simp only [if_pos hrec] at h
            cases h
          · rfl
        · rfl
        · rfl
      · rfl
  | timeouts | start | event | delayRequest | stop => rfl

/-- The table of a selection has no new entries, or that of the accepted Announce. -/
theorem accepted_of_reselection {s : Service F C T} {c : Call} {r : Reselection}
    (h : s.reselection c = some r) :
    s.accepted c = none ∧
        (∀ id m, r.table.lookup id = some m → s.foreignMasters.lookup id = some m) ∨
      ∃ hdr body ann tlvs now ord, s.accepted c = some (hdr, body) ∧
        Service.announceVerdict s.profile hdr body = .valid ann tlvs ∧
        r = ⟨.accepted, s.foreignMasters.insert hdr.sourcePortIdentity
          (s.announcedMaster hdr ann tlvs now), ord⟩ := by
  cases c with
  | general pkt now ord =>
      simp only [Service.reselection] at h
      split at h
      · cases h
      rename_i hdr body hpkt
      split at h
      swap
      · cases h
      rename_i hann
      simp only [Service.accepted, hpkt, if_pos hann]
      unfold Service.announceReselection at h
      split at h
      · cases h
      · rename_i hverdict
        cases h
        rw [hverdict]
        exact .inl ⟨rfl, fun id m hm ↦ (Table.lookup_erase_eq_some.mp hm).2⟩
      · rename_i ann tlvs hverdict
        split at h
        · rename_i hrec
          cases h
          refine .inr ⟨hdr, body, ann, tlvs, now, ord, ?_, hverdict, rfl⟩
          rw [hverdict]
          exact if_pos hrec
        · cases h
  | timeouts now ord =>
      cases h
      exact .inl ⟨rfl, fun id m hm ↦ (Table.lookup_filter_eq_some.mp hm).1⟩
  | start | event | delayRequest | stop => cases h

/-! ## The invariant -/

/-- The table, what is kept beside it, and the Announces accepted so far. -/
structure MastersFit (version : C37238Version) (x : Selection)
    (accepted : List (Header × Bytes)) : Prop where
  profile : x.profile.c37238Version = version
  identity : ∀ id m, x.foreignMasters.lookup id = some m → m.identity = id
  announced : ∀ id m, x.foreignMasters.lookup id = some m →
    ∃ hdr body, lastOf id accepted = some (hdr, body) ∧ Acceptable version hdr body ∧
      Records m hdr body
  noMaster : x.bestMaster = none → x.utcOffset = 0
  master : ∀ id, x.bestMaster = some id →
    ∃ m, x.foreignMasters.lookup id = some m ∧ x.utcOffset = m.utcOffset

namespace MastersFit

variable {version : C37238Version} {s : Service F C T} {accepted : List (Header × Bytes)}

/-- A selection from a table that fits. -/
theorem selected {r : Reselection} (hversion : s.profile.c37238Version = version)
    (hid : ∀ id m, r.table.lookup id = some m → m.identity = id)
    (hann : ∀ id m, r.table.lookup id = some m →
      ∃ hdr body, lastOf id accepted = some (hdr, body) ∧ Acceptable version hdr body ∧
        Records m hdr body) :
    MastersFit version (s.selected r).selection accepted where
  profile := hversion
  identity := hid
  announced := hann
  noMaster := by
    intro h
    have hnext : s.next r = none := Option.map_eq_none_iff.mp h
    simp only [Service.selection, Service.selected, hnext]
    rfl
  master := by
    intro id h
    obtain ⟨m, hnext, rfl⟩ := Option.map_eq_some_iff.mp h
    obtain ⟨k, hk⟩ := Table.mem_vals_iff.mp (elect_mem hnext).1
    refine ⟨m, ?_, ?_⟩
    · rw [hid k m hk]
      exact hk
    · simp only [Service.selection, Service.selected, hnext]
      rfl

/-- A table that only loses entries. -/
theorem selected_of_subset (h : MastersFit version s.selection accepted) {r : Reselection}
    (hsub : ∀ id m, r.table.lookup id = some m → s.foreignMasters.lookup id = some m) :
    MastersFit version (s.selected r).selection accepted :=
  selected h.profile (fun id m hm ↦ h.identity id m (hsub id m hm))
    fun id m hm ↦ h.announced id m (hsub id m hm)

/-- A table in which one entry gets new Announce times. -/
theorem repeated (h : MastersFit version s.selection accepted) {hdr : Header} {now : Time}
    (hrep : (s.recordAnnounce hdr now).2 = false) :
    MastersFit version { s.selection with
      foreignMasters :=
        s.foreignMasters.insert hdr.sourcePortIdentity (s.recordAnnounce hdr now).1 }
      accepted := by
  obtain ⟨m₀, hm₀, times, count, hrec⟩ := recordAnnounce_repeated hrep
  rw [hrec]
  have hlookup {id : PortIdentity} {m : ForeignMaster}
      (hm : (s.foreignMasters.insert hdr.sourcePortIdentity
        { m₀ with announceTimes := times, announceCount := count }).lookup id = some m) :
      id = hdr.sourcePortIdentity ∧
          m = { m₀ with announceTimes := times, announceCount := count } ∨
        s.foreignMasters.lookup id = some m :=
    (Table.lookup_insert_eq_some.mp hm).imp_right And.right
  refine ⟨h.profile, ?_, ?_, h.noMaster, ?_⟩
  · intro id m hm
    rcases hlookup hm with ⟨rfl, rfl⟩ | hm
    · exact h.identity _ m₀ hm₀
    · exact h.identity id m hm
  · intro id m hm
    rcases hlookup hm with ⟨rfl, rfl⟩ | hm
    · obtain ⟨hdr', body, hlast, hacc, hrecords⟩ := h.announced _ m₀ hm₀
      exact ⟨hdr', body, hlast, hacc, hrecords.header, hrecords.announce, hrecords.utcOffset⟩
    · exact h.announced id m hm
  · intro id hbest
    obtain ⟨m, hm, hoffset⟩ := h.master id hbest
    by_cases hid : id = hdr.sourcePortIdentity
    · subst hid
      have hsame : m = m₀ := Option.some.inj (hm.symm.trans hm₀)
      subst hsame
      exact ⟨_, Table.lookup_insert_eq_some.mpr (.inl ⟨rfl, rfl⟩), hoffset⟩
    · exact ⟨m, Table.lookup_insert_eq_some.mpr (.inr ⟨hid, hm⟩), hoffset⟩

/-- A table with a new entry or new data for an old one. -/
theorem accept (h : MastersFit version s.selection accepted) {hdr : Header} {body : Bytes}
    {ann : AnnounceBody} {tlvs : AnnounceProfileTLVs} {now : Time} (ord : MapOrder ForeignMaster)
    (hvalid : Service.announceVerdict s.profile hdr body = .valid ann tlvs) :
    MastersFit version
      (s.selected ⟨.accepted, s.foreignMasters.insert hdr.sourcePortIdentity
        (s.announcedMaster hdr ann tlvs now), ord⟩).selection ((hdr, body) :: accepted) := by
  obtain ⟨hacc, hbody⟩ := announceVerdict_valid hvalid
  refine selected h.profile ?_ ?_
  · intro id m hm
    rcases Table.lookup_insert_eq_some.mp hm with ⟨rfl, rfl⟩ | ⟨-, hm⟩
    · exact announcedMaster_identity h.identity
    · exact h.identity id m hm
  · intro id m hm
    rcases Table.lookup_insert_eq_some.mp hm with ⟨rfl, rfl⟩ | ⟨hne, hm⟩
    · exact ⟨hdr, body, lastOf_cons_self, h.profile ▸ hacc, rfl, hbody, rfl⟩
    · rw [lastOf_cons_of_ne hne]
      exact h.announced id m hm

end MastersFit

/-! ## Steps and runs -/

/-- A new client has an empty table and no master. -/
theorem MastersFit.new (pow : F → F → F) (tr : T) (clk : C) (selfID : PortIdentity)
    (cfg : Config) :
    MastersFit cfg.profile.c37238Version (Service.new pow tr clk selfID cfg).selection [] := by
  have hempty {id : PortIdentity} {m : ForeignMaster}
      (h : (∅ : Table PortIdentity ForeignMaster).lookup id = some m) : False := by
    rw [AList.lookup_empty] at h
    cases h
  exact
    { profile := effectiveProfile_c37238Version cfg
      identity := fun _ _ h ↦ (hempty h).elim
      announced := fun _ _ h ↦ (hempty h).elim
      noMaster := fun _ ↦ rfl
      master := nofun }

/-- Every call keeps the table and what is kept beside it in order. -/
theorem MastersFit.step {version : C37238Version} (s : Service F C T)
    (accepted : List (Header × Bytes)) (c : Call) (h : MastersFit version s.selection accepted) :
    MastersFit version (s.step c).selection ((s.accepted c).toList ++ accepted) := by
  cases hr : s.reselection c with
  | none =>
      rw [accepted_of_no_reselection hr]
      rcases (Service.step_of_no_reselection hr).selection with he | ⟨hdr, now, hrep, he⟩
      · rw [he]
        exact h
      · rw [he]
        exact h.repeated hrep
  | some r =>
      rw [(Service.step_outcome hr).selection]
      rcases accepted_of_reselection hr with
        ⟨hnone, hsub⟩ | ⟨hdr, body, ann, tlvs, now, ord, hacc, hvalid, rfl⟩
      · rw [hnone]
        exact h.selected_of_subset hsub
      · rw [hacc]
        exact h.accept ord hvalid

/-- **The table of foreign masters is always in order**: every entry is stored under its own
identity; the selected master is one of the entries, and the UTC offset is the one it announced,
or zero if there is no master; and the last Announce accepted for an entry, whose contents it
holds, offered absolute UTC and carried the TLVs of the configured Power Profile. -/
theorem foreign_masters_invariant (pow : F → F → F) (tr : T) (clk : C) (selfID : PortIdentity)
    (cfg : Config) (calls : List Call) :
    let s₀ := Service.new pow tr clk selfID cfg
    let s := s₀.run calls
    let accepted := history Service.step Service.accepted s₀ calls
    (∀ id m, s.foreignMasters.lookup id = some m → m.identity = id) ∧
      (s.bestMaster = none → s.utcOffset = 0) ∧
      (∀ id, s.bestMaster = some id →
        ∃ m, s.foreignMasters.lookup id = some m ∧ s.utcOffset = m.utcOffset) ∧
      ∀ id m, s.foreignMasters.lookup id = some m →
        ∃ hdr body, lastOf id accepted = some (hdr, body) ∧
          Acceptable cfg.profile.c37238Version hdr body ∧ Records m hdr body := by
  intro s₀ s accepted
  have hrun : MastersFit cfg.profile.c37238Version s.selection accepted :=
    inv_history (K := fun s a ↦ MastersFit cfg.profile.c37238Version (Service.selection s) a)
      MastersFit.step (.new pow tr clk selfID cfg) calls
  exact ⟨hrun.identity, hrun.noMaster, hrun.master, hrun.announced⟩

end ProcessBus.Ptp.Client
