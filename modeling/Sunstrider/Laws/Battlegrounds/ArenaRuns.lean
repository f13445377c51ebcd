import Sunstrider.Laws.Battlegrounds.ArenaMembership

/-!
# Runs of the arena teams

A character is in one arena team of a type at most, in every run in which `AddMember` is `Readable` and no captain
disbands a team in an arena (`one_team_per_type`). Otherwise `AddMember` reads behind the end of an array, or a
character comes to two teams of a type (`not_one_team_per_type`).
-/

namespace Sunstrider.Battlegrounds

open Cache (CharacterCache CharacterRow maxArenaSlot)
open Lib

namespace ArenaWorld

variable {s : ArenaWorld}

theorem Consistent.getArenaTeamById (h : s.Consistent) (id : UInt32) :
    s.getArenaTeamById id = .ok (s.arenaTeamStore.lookup id) := by
  rw [ArenaWorld.getArenaTeamById, h.freed]
  exact if_neg List.not_mem_nil

variable {id : UInt32} {t : ArenaTeam}

theorem Consistent.write_self (h : s.Consistent) (ht : s.arenaTeamStore.lookup id = some t) :
    (s.write t).Consistent := by
  obtain rfl := (h.team id t ht).1
  have hlookup : ∀ id, (s.write t).arenaTeamStore.lookup id = s.arenaTeamStore.lookup id := by
    intro id
    by_cases hid : id = t.teamId
    · rw [hid, ht]
      exact AList.lookup_insert _
    · exact AList.lookup_insert_ne hid
  refine ⟨h.freed, h.started, fun id t' ht' => ?_, fun id t' ht' => ?_, fun g i id hlisted hne => ?_, h.known,
    fun g p hp i hi hne => ?_⟩
  · exact h.team id t' ((hlookup id).symm.trans ht')
  · exact h.member id t' ((hlookup id).symm.trans ht')
  · rw [hlookup]
    exact h.listed g i id hlisted hne
  · rw [hlookup]
    exact h.field g p hp i hi hne

/-! ## Login -/

/-- The fields name teams of their slots, and but for the slots still to come teams that the character is in. -/
def Checked (s : ArenaWorld) (guid : UInt32) (rest : List ℕ) (p : Player) : Prop :=
  ∀ i < maxArenaSlot, p.values (i * 6) ≠ 0 →
    ∃ t, s.arenaTeamStore.lookup (p.values (i * 6)) = some t ∧ t.getSlot.toNat = i ∧
      (i ∉ rest → guid ∈ t.members)

theorem Consistent.loadArenaTeamInfo (h : s.Consistent) (guid : UInt32) (p : Player)
    (rows : List ArenaTeamInfoRow) :
    Yields (s.loadArenaTeamInfo guid p rows) (s.Checked guid (List.range maxArenaSlot)) := by
  refine Yields.foldlM rows (fun i hi hne => ?_) fun p row _ hp => ?_
  · have hlt : i * 6 < 18 := by
      simp only [maxArenaSlot] at hi
      omega
    exact absurd (if_pos hlt) hne
  · rw [h.getArenaTeamById, ok_bind]
    cases ht : s.arenaTeamStore.lookup row.arenaTeamId with
    | none => exact .ok hp
    | some t =>
      refine .ok fun i hi hne => ?_
      rw [values_setArenaTeamInfo] at hne ⊢
      by_cases hi' : i = t.getSlot.toNat
      · rw [if_pos hi']
        exact ⟨t, ht, hi'.symm, fun hnot => absurd (List.mem_range.mpr hi) hnot⟩
      · rw [if_neg hi'] at hne ⊢
        exact hp i hi hne

variable {guid : UInt32} {p : Player}

theorem Checked.clear {slot : ℕ} {rest : List ℕ} (hp : s.Checked guid (slot :: rest) p) :
    s.Checked guid rest (p.setArenaTeamInfo slot (.replicate 6 0)) := by
  intro i hi hne
  rw [values_setArenaTeamInfo] at hne ⊢
  by_cases hi' : i = slot
  · rw [if_pos hi'] at hne
    exact absurd (by simp) hne
  · rw [if_neg hi'] at hne ⊢
    obtain ⟨t, ht, hslot, hmem⟩ := hp i hi hne
    exact ⟨t, ht, hslot, fun hnot => hmem (List.not_mem_cons_of_ne_of_not_mem hi' hnot)⟩

/-- The fields of a slot stay: they name no team, or one that the character is in. -/
theorem Checked.stay {slot : ℕ} {rest : List ℕ} (hp : s.Checked guid (slot :: rest) p)
    (hmem : p.values (slot * 6) ≠ 0 →
      ∃ t, s.arenaTeamStore.lookup (p.values (slot * 6)) = some t ∧ guid ∈ t.members) :
    s.Checked guid rest p := by
  intro i hi hne
  obtain ⟨t, ht, hslot, hold⟩ := hp i hi hne
  refine ⟨t, ht, hslot, fun hnot => ?_⟩
  by_cases hi' : i = slot
  · subst hi'
    obtain ⟨t', ht', hmem'⟩ := hmem hne
    cases ht.symm.trans ht'
    exact hmem'
  · exact hold (List.not_mem_cons_of_ne_of_not_mem hi' hnot)

section

variable (h : s.Consistent)

include h

theorem Consistent.checkArenaTeams (hp : s.Checked guid (List.range maxArenaSlot) p) :
    Yields (s.checkArenaTeams guid p) (s.Checked guid []) := by
  refine Yields.loop (s.Checked guid) (List.range maxArenaSlot) hp fun p slot rest hp => ?_
  by_cases hzero : p.values (slot * 6) = 0
  · rw [if_pos hzero]
    exact .ok (hp.stay fun hne => absurd hzero hne)
  · rw [if_neg hzero, h.getArenaTeamById, ok_bind]
    cases ht : s.arenaTeamStore.lookup (p.values (slot * 6)) with
    | none => exact .ok hp.clear
    | some t =>
      dsimp only
      by_cases hmem : guid ∈ t.members
      · rw [if_pos hmem]
        exact .ok (hp.stay fun _ => ⟨t, ht, hmem⟩)
      · rw [if_neg hmem]
        exact .ok hp.clear

theorem Consistent.login (guid : UInt32) (rows : List ArenaTeamInfoRow) :
    Yields (s.login guid rows) Consistent := by
  rw [ArenaWorld.login]
  split
  · exact .ok h
  · next hknown =>
    refine (h.loadArenaTeamInfo guid _ rows).bind fun p hp => ?_
    refine (h.checkArenaTeams hp).bind fun p' hp' => .ok (h.setPlayer ?_ fun i hi hne => ?_)
    · exact Option.isSome_iff_ne_none.mpr (by simpa using hknown)
    · obtain ⟨t, ht, hslot, hmem⟩ := hp' i hi hne
      exact ⟨t, ht, hslot, hmem List.not_mem_nil⟩

/-! ## Handlers -/

theorem Consistent.addStored (ht : s.arenaTeamStore.lookup id = some t)
    (hread : s.Readable t guid) :
    Yields (s.addMember t guid >>= fun r => .ok (r.2.1.write r.2.2)) Consistent :=
  (h.addMember (h.write_self ht) hread).bind fun _ hr => .ok hr

theorem Consistent.deleteStored (guid : UInt32) (ht : s.arenaTeamStore.lookup id = some t) :
    Yields (s.deleteMember t guid >>= fun r => .ok (r.1.write r.2)) Consistent :=
  (Consistent.deleteMember (h.write_self ht) guid).bind fun _ hr => .ok hr.1

theorem Consistent.disbandStored (ht : s.arenaTeamStore.lookup id = some t)
    (harena : s.isInArena guid = false) :
    Avoids (.cache .outOfBounds) (s.disband t guid >>= fun s' => .ok (s'.delete id)) Consistent := by
  obtain rfl := (h.team id t ht).1
  refine (Consistent.disband (h.write_self ht) harena).bind fun s' hs' => ?_
  rw [delete, if_neg hs'.2]
  exact hs'.1

theorem Consistent.create {captainGuid : UInt32} {type : UInt8} {teamName : String}
    (hslot : (getSlotByType type).toNat < maxArenaSlot)
    (hread : (s.findPlayer captainGuid).isSome = true → s.isNameTaken teamName = false →
      s.Readable ⟨s.nextArenaTeamId, type, teamName, captainGuid, []⟩ captainGuid) :
    Avoids (.cache .outOfBounds) (s.create captainGuid type teamName) fun r =>
      ∀ r' ∈ r, (r'.1.write r'.2).Consistent := by
  rw [ArenaWorld.create]
  split
  · exact fun _ hr => nomatch hr
  · next honline =>
    rw [getArenaTeamByName, if_pos h.freed]
    show Avoids _ (if s.isNameTaken teamName = true then _ else _) _
    cases hname : s.isNameTaken teamName with
    | true => exact fun _ hr => nomatch hr
    | false =>
      rw [if_neg Bool.false_ne_true]
      split
      · exact ArenaFault.noConfusion
      · next hlast =>
        have hregistered := h.register (t := ⟨s.nextArenaTeamId, type, teamName, captainGuid, []⟩) rfl hslot rfl
          hlast
        have hbegun : Consistent { s with nextArenaTeamId := s.nextArenaTeamId + 1 } := by
          obtain ⟨hfreed, hstarted, hteam, hmember, hlisted, hknown, hfield⟩ := h
          have hgrows := (hregistered.team _ _ (AList.lookup_insert _)).2.2.1
          refine ⟨hfreed, hregistered.started, fun id t ht => ?_, hmember, hlisted, hknown, hfield⟩
          obtain ⟨hid, hne, hlt, hrest⟩ := hteam id t ht
          exact ⟨hid, hne, UInt32.lt_trans hlt hgrows, hrest⟩
        have hsome : (s.findPlayer captainGuid).isSome = true :=
          Option.isSome_iff_ne_none.mpr (by simpa using honline)
        refine .of_yields ((hbegun.addMember hregistered (hread hsome hname)).bind fun r hr => .ok ?_)
        intro r' hr'
        cases Option.mem_some.mp hr'
        exact hr

end

/-! ## Runs -/

/-- `AddMember` reads what it should, and no captain disbands a team in an arena. -/
def Careful (s : ArenaWorld) : Op → Prop
  | .create captainGuid type teamName =>
    (getSlotByType type).toNat < maxArenaSlot → (s.findPlayer captainGuid).isSome = true →
      s.isNameTaken teamName = false →
      s.Readable ⟨s.nextArenaTeamId, type, teamName, captainGuid, []⟩ captainGuid
  | .addMember id guid => ∀ t ∈ s.arenaTeamStore.lookup id, s.Readable t guid
  | .accept guid allied =>
    ∀ p ∈ s.players guid, ∀ t ∈ s.arenaTeamStore.lookup p.arenaTeamIdInvited,
      p.getArenaTeamId t.type = 0 → allied = true → s.Readable t guid
  | .leave guid id invitedToBg =>
    ∀ t ∈ s.arenaTeamStore.lookup id, guid = t.captainGuid → t.members.length ≤ 1 → invitedToBg = false →
      s.isInArena guid = false
  | .disband guid id invitedToBg fighting =>
    ∀ t ∈ s.arenaTeamStore.lookup id, t.captainGuid = guid → invitedToBg = false → fighting = false →
      s.isInArena guid = false
  | _ => True

instance decidableCareful (s : ArenaWorld) : ∀ op, Decidable (s.Careful op)
  | .create _ _ _ => inferInstanceAs (Decidable (_ → _ → _ → _))
  | .addMember _ _ => inferInstanceAs (Decidable (∀ _ ∈ _, _))
  | .accept _ _ => inferInstanceAs (Decidable (∀ _ ∈ _, ∀ _ ∈ _, _ → _ → _))
  | .leave _ _ _ => inferInstanceAs (Decidable (∀ _ ∈ _, _ → _ → _ → _))
  | .disband _ _ _ _ => inferInstanceAs (Decidable (∀ _ ∈ _, _ → _ → _ → _))
  | .deleteMember _ _ | .invite _ _ | .decline _ | .login _ _ | .logout _ | .setInWorld _ _ | .setInArena _ _
  | .setValue _ _ _ => inferInstanceAs (Decidable True)

/-- **What one step keeps.** -/
theorem Consistent.step (h : s.Consistent) {op : Op} (hcareful : s.Careful op) :
    Avoids (.cache .outOfBounds) (s.step op) Consistent := by
  cases op with
  | create captainGuid type teamName =>
    rw [ArenaWorld.step]
    split
    · exact h
    · next hslot =>
      refine (h.create (not_le.mp hslot) (hcareful (not_le.mp hslot))).bind fun r hr => ?_
      cases r with
      | none => exact h
      | some r => exact hr r rfl
  | addMember id guid =>
    rw [ArenaWorld.step, h.getArenaTeamById, ok_bind]
    cases ht : s.arenaTeamStore.lookup id with
    | none => exact h
    | some t => exact .of_yields (h.addStored ht (hcareful t ht))
  | deleteMember id guid =>
    rw [ArenaWorld.step, h.getArenaTeamById, ok_bind]
    cases ht : s.arenaTeamStore.lookup id with
    | none => exact h
    | some t => exact .of_yields (h.deleteStored guid ht)
  | invite guid id =>
    rw [ArenaWorld.step, handleArenaTeamInviteOpcode]
    cases hfind : s.findPlayer guid with
    | none => exact h
    | some p =>
      dsimp only
      rw [h.getArenaTeamById, ok_bind]
      have hp := findPlayer_eq_some hfind
      cases s.arenaTeamStore.lookup id with
      | none => exact h
      | some t =>
        dsimp only
        split_ifs
        · exact h
        · exact h
        · exact h
        · exact h.setPlayer (h.known guid p hp) (h.field guid p hp)
  | accept guid allied =>
    rw [ArenaWorld.step, handleArenaTeamAcceptOpcode]
    cases hp : s.players guid with
    | none => exact h
    | some p =>
      dsimp only
      rw [h.getArenaTeamById, ok_bind]
      cases ht : s.arenaTeamStore.lookup p.arenaTeamIdInvited with
      | none => exact h
      | some t =>
        dsimp only
        split_ifs with hfield hallied
        · exact h
        · exact h
        · exact .of_yields (h.addStored ht (hcareful p hp t ht (not_not.mp hfield) (by simpa using hallied)))
  | decline guid =>
    rw [ArenaWorld.step, handleArenaTeamDeclineOpcode]
    cases hp : s.players guid with
    | none => exact h
    | some p => exact h.setPlayer (h.known guid p hp) (h.field guid p hp)
  | leave guid id invitedToBg =>
    rw [ArenaWorld.step, handleArenaTeamLeaveOpcode, h.getArenaTeamById, ok_bind]
    cases ht : s.arenaTeamStore.lookup id with
    | none => exact h
    | some t =>
      dsimp only
      split_ifs with hcaptain hinvited hlast
      · exact h
      · exact h
      · have hsize : t.members.length ≤ 1 := not_lt.mp fun hmore => hcaptain ⟨hlast, hmore⟩
        exact h.disbandStored ht (hcareful t ht hlast hsize (by simpa using hinvited))
      · exact .of_yields (h.deleteStored guid ht)
  | disband guid id invitedToBg fighting =>
    rw [ArenaWorld.step, handleArenaTeamDisbandOpcode, h.getArenaTeamById, ok_bind]
    cases ht : s.arenaTeamStore.lookup id with
    | none => exact h
    | some t =>
      dsimp only
      split_ifs with hcaptain hinvited hfighting
      · exact h
      · exact h
      · exact h
      · exact h.disbandStored ht (hcareful t ht (not_not.mp hcaptain) (by simpa using hinvited)
          (by simpa using hfighting))
  | login guid rows => exact .of_yields (h.login guid rows)
  | logout guid => exact h.logout guid
  | setInWorld guid inWorld => exact h.modifyPlayer guid fun _ _ _ => rfl
  | setInArena guid inArena => exact h.modifyPlayer guid fun _ _ _ => rfl
  | setValue guid index value =>
    rw [ArenaWorld.step]
    split
    · exact h
    · next hindex =>
      refine h.modifyPlayer guid fun p i hi => ?_
      have hne : i * 6 ≠ index := by
        simp only [maxArenaSlot] at hi
        omega
      rw [values_setUInt32Value, if_neg hne]

theorem listed_start (rows : List CharacterRow) (guid : UInt32) (slot : ℕ) (id : UInt32)
    (h : (start rows).listed guid slot = some id) : id = 0 := by
  have hnone : ∀ node : Cache.Node, ∀ row : CharacterRow, node.entry = row.entry →
      ∀ id, node.entry.arenaTeamId[slot]? = some id → id = 0 := by
    rintro ⟨number, entry⟩ row rfl id hid
    obtain ⟨hslot, hid⟩ := Vector.getElem?_eq_some_iff.mp hid
    rw [← hid]
    exact Vector.getElem_replicate ..
  have hstore : ∀ guid node, (start rows).cache.characterCacheStore.lookup guid = some node →
      ∀ id, node.entry.arenaTeamId[slot]? = some id → id = 0 := by
    refine foldl_keeps (I := fun c : CharacterCache => ∀ guid node,
      c.characterCacheStore.lookup guid = some node → ∀ id, node.entry.arenaTeamId[slot]? = some id → id = 0)
      (fun c row hc guid node hnode => ?_) rows fun guid node hnode => ?_
    · rw [CharacterCache.addCharacterCacheEntry] at hnode
      by_cases hguid : guid = row.guid
      · subst hguid
        split at hnode
        · rw [AList.lookup_insert] at hnode
          cases hnode
          exact hnone _ row rfl
        · rw [AList.lookup_insert] at hnode
          cases hnode
          exact hnone _ row rfl
      · split at hnode
        · rw [AList.lookup_insert_ne hguid] at hnode
          exact hc guid node hnode
        · rw [AList.lookup_insert_ne hguid] at hnode
          exact hc guid node hnode
    · exact nomatch (AList.lookup_empty guid).symm.trans hnode
  obtain ⟨e, he, hid⟩ := Option.bind_eq_some_iff.mp h
  obtain ⟨node, hnode, rfl⟩ := Option.map_eq_some_iff.mp he
  exact hstore guid node hnode id hid

theorem consistent_start (rows : List CharacterRow) : (start rows).Consistent where
  freed := rfl
  started := show (0 : UInt32) < 1 by decide
  team _ _ h := nomatch h
  member _ _ h := nomatch h
  listed g i id h hne := absurd (listed_start rows g i id h) hne
  known _ _ h := nomatch h
  field _ _ h := nomatch h

/-- **A character is in one arena team of a type at most.** -/
structure OneTeamPerType (s : ArenaWorld) : Prop where
  /-- A character is in no two teams of a type, and in none twice. -/
  once : ∀ id t id' t' g, s.arenaTeamStore.lookup id = some t → s.arenaTeamStore.lookup id' = some t' →
    t.type = t'.type → g ∈ t.members → g ∈ t'.members → id = id'
  nodup : ∀ id t, s.arenaTeamStore.lookup id = some t → t.members.Nodup
  /-- The cache has the team of a type that a character is in, or 0. -/
  listed : ∀ g i id, s.listed g i = some id →
    (id = 0 ∧ ∀ id' t, s.arenaTeamStore.lookup id' = some t → t.getSlot.toNat = i → g ∉ t.members) ∨
      ∃ t, s.arenaTeamStore.lookup id = some t ∧ t.getSlot.toNat = i ∧ g ∈ t.members
  /-- `AddMember` refuses with reason, of a team of any of the three types. -/
  refuses : ∀ t g, t.getSlot.toNat < maxArenaSlot → s.Readable t g →
    Yields (s.addMember t g) fun r => r.1 = false → s.Refusable t g

theorem Consistent.oneTeamPerType (h : s.Consistent) : s.OneTeamPerType where
  once id t id' t' g ht ht' htype hmem hmem' := by
    have hlisted := (h.member id t ht g).mp hmem
    rw [show t.getSlot = t'.getSlot by rw [ArenaTeam.getSlot, ArenaTeam.getSlot, htype],
      (h.member id' t' ht' g).mp hmem'] at hlisted
    exact (Option.some.inj hlisted).symm
  nodup id t ht := (h.team id t ht).2.2.2.2
  listed g i id hlisted := by
    by_cases hzero : id = 0
    · refine .inl ⟨hzero, fun id' t ht hslot hmem => ?_⟩
      have hmember := (h.member id' t ht g).mp hmem
      rw [hslot, hlisted] at hmember
      exact (h.team id' t ht).2.1 ((Option.some.inj hmember).symm.trans hzero)
    · obtain ⟨t, ht, hslot⟩ := h.listed g i id hlisted hzero
      exact .inr ⟨t, ht, hslot, (h.member id t ht g).mpr (by rw [hslot, hlisted])⟩
  refuses t g hslot hread := by
    obtain ⟨heq, hreason⟩ | ⟨cache, heq, -, -⟩ := addMember_cases h hslot hread
    · exact ⟨_, heq, fun _ => hreason⟩
    · exact ⟨_, heq, fun hfalse => nomatch hfalse⟩

/-- **In a careful run a character is in one arena team of a type at most**, and nothing is read behind the end
of an array. -/
theorem one_team_per_type (rows : List CharacterRow) (ops : List Op)
    (h : Admitted step Careful (start rows) ops) :
    Avoids (.cache .outOfBounds) (run step (start rows) ops) OneTeamPerType :=
  (run_avoids_of_admitted (fun _ _ hs hop => hs.step hop) (consistent_start rows) h).mono
    fun _ => Consistent.oneTeamPerType

/-- Three characters, for the runs below. -/
def threeCharacters : List CharacterRow :=
  [⟨1, 1, "Ann", 0, 1, 1, 70, 0⟩, ⟨2, 2, "Bob", 0, 1, 1, 70, 0⟩, ⟨3, 3, "Cid", 0, 1, 1, 70, 0⟩]

/-- A team of two with a member that is offline, which its captain then disbands. -/
theorem one_team_per_type_disbanded :
    Avoids (.cache .outOfBounds) (run step (start threeCharacters) [.login 1 [], .setInWorld 1 true,
      .create 1 2 "Reds", .addMember 1 3, .deleteMember 1 3, .leave 1 1 false]) OneTeamPerType :=
  one_team_per_type _ _ (by decide +kernel)

/-- A character that is offline comes to two teams of two; a team of three reads behind the end of an array; a
captain that leaves its team in an arena leaves a team that has been deleted in the store. -/
theorem not_one_team_per_type :
    (run step (start threeCharacters) [.login 1 [], .setInWorld 1 true, .login 2 [], .setInWorld 2 true,
      .create 1 2 "Reds", .create 2 2 "Blues", .addMember 1 3, .addMember 2 3]).map (fun s =>
        s.arenaTeamStore.entries.map fun entry => (entry.2.teamId, entry.2.type, entry.2.members)) =
      .ok [(2, 2, [2, 3]), (1, 2, [1, 3])] ∧
    run step (start threeCharacters) [.login 1 [], .setInWorld 1 true, .create 1 3 "Reds"] =
      .error (.cache .outOfBounds) ∧
    run step (start threeCharacters) [.login 1 [], .setInWorld 1 true, .create 1 2 "Reds",
      .setInArena 1 true, .leave 1 1 false, .addMember 1 3] = .error .freed :=
  ⟨by decide +kernel, rfl, rfl⟩

end ArenaWorld

end Sunstrider.Battlegrounds
