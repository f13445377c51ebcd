import Sunstrider.Laws.Groups.Invitations

/-!
# Runs of invitations

One step lemma for each packet, each way into the raid of a battleground or out of it, and login and
logout; from them, what a whole run keeps.
-/

namespace Sunstrider.Groups

open Lib (Yields Admitted run always_iff_admitted)

namespace World

variable {w : World} {id guid : ℕ}

/-! ## Packets of members -/

theorem exists_of_bind_groupOf {actor : ℕ} (h : (w.player actor).bind w.groupOf = some id) :
    ∃ gr, w.groups id = some gr := by
  obtain ⟨pl, -, hpl⟩ := Option.bind_eq_some_iff.mp h
  exact exists_of_groupOf hpl

theorem orderly_handleGroupUninviteGuid (hw : Orderly w) (actor guid : ℕ) :
    Yields (w.handleGroupUninviteGuid actor guid) Orderly := by
  unfold handleGroupUninviteGuid
  split
  · exact .ok hw
  · split
    · exact .ok hw
    · next id hid =>
      obtain ⟨gr, hgr⟩ := exists_of_canUninvite hid
      unfold derefGroup
      simp only [hgr]
      show Yields (if gr.isMember guid then _ else _) _
      split
      · exact orderly_removeMember hw hgr guid
      · exact orderly_uninviteInvited hw hgr guid

/-- An uninvited player is removed as a member, or his invitation is. -/
theorem orderly_handleGroupUninvite (hw : Orderly w) (actor guid : ℕ) :
    Yields (w.handleGroupUninvite actor guid) Orderly := by
  unfold handleGroupUninvite
  split
  · exact .ok hw
  · split
    · exact .ok hw
    · next id hid =>
      obtain ⟨gr, hgr⟩ := exists_of_canUninvite hid
      unfold derefGroup
      simp only [hgr]
      show Yields (if gr.isMember guid then _ else _) _
      split
      · split
        · exact .ok hw
        · exact orderly_removeMember hw hgr guid
      · exact orderly_uninviteInvited hw hgr guid

theorem orderly_handleGroupDisband (hw : Orderly w) (actor : ℕ) :
    Yields (w.handleGroupDisband actor) Orderly := by
  unfold handleGroupDisband
  split
  · exact .ok hw
  · next id hid =>
    split
    · exact .ok hw
    · obtain ⟨gr, hgr⟩ := exists_of_bind_groupOf hid
      exact orderly_removeMember hw hgr actor

/-- A new leader changes no invitation. -/
theorem orderly_handleGroupSetLeader (hw : Orderly w) (actor guid : ℕ) :
    Orderly (w.handleGroupSetLeader actor guid) := by
  unfold handleGroupSetLeader
  split
  · exact hw
  · next id hid =>
    split
    · exact hw.of_same (invites_changeLeader w id guid) (leads_changeLeader w id guid none)
    · exact hw

theorem orderly_handleGroupRaidConvert (hw : Orderly w) (actor : ℕ) :
    Orderly (w.handleGroupRaidConvert actor) := by
  unfold handleGroupRaidConvert
  split
  · exact hw
  · next id hid =>
    split
    · exact hw
    · split
      · next hconv =>
        refine hw.of_same (invites_editMembers fun gr hgr => ?_) (leads_editGroup w id _ none)
        rw [hgr, Option.any_some, Bool.and_eq_true] at hconv
        have hslots : gr.memberSlots ≠ [] := by
          intro hnil
          simp [hnil] at hconv
        exact ⟨rfl, rfl, hslots, hslots⟩
      · exact hw

theorem refers_resetSubGroup {pl : Player} {subGroup id' : ℕ} {isGroup : Prop} [Decidable isGroup]
    (h : Refers
      (if isGroup then { pl with group := pl.group.map fun r => { r with subGroup := subGroup } }
      else { pl with
        originalGroup := pl.originalGroup.map fun r => { r with subGroup := subGroup } }) id') :
    Refers pl id' := by
  split at h
  · rcases h with ⟨r, hr, rfl⟩ | ⟨r, hr, rfl⟩
    · obtain ⟨r', hr', rfl⟩ := Option.map_eq_some_iff.mp hr
      exact .inl ⟨r', hr', rfl⟩
    · exact .inr ⟨r, hr, rfl⟩
  · rcases h with ⟨r, hr, rfl⟩ | ⟨r, hr, rfl⟩
    · exact .inl ⟨r, hr, rfl⟩
    · obtain ⟨r', hr', rfl⟩ := Option.map_eq_some_iff.mp hr
      exact .inr ⟨r', hr', rfl⟩

theorem orderly_changeMembersGroup (hw : Orderly w) (id guid subGroup : ℕ) :
    Orderly (w.changeMembersGroup id guid subGroup) := by
  unfold changeMembersGroup
  split
  · exact hw
  · next gr hgr =>
    split
    · exact hw
    · next hmem =>
      have hslots : gr.memberSlots ≠ [] := by
        intro hnil
        simp [Group.isMember, Group.slotOf, hnil] at hmem
      have hedit : (w.editGroup id fun gr' =>
          ((gr'.editSlot guid fun m => { m with group := subGroup }).subGroupCounterIncrease
            subGroup).subGroupCounterDecrease (gr.memberGroup guid)).invites = w.invites := by
        refine invites_editMembers fun gr' hgr' => ?_
        obtain rfl : gr = gr' := Option.some.inj (hgr.symm.trans hgr')
        exact ⟨rfl, rfl, hslots, fun hnil => hslots (List.map_eq_nil_iff.mp hnil)⟩
      refine hw.of_same ?_ ((leads_editGroup w id _ none).trans
        (leads_editPlayer fun _ _ h => .inl (refers_resetSubGroup h)))
      rw [invites_editPlayer (fun pl => by split <;> rfl) (fun pl => by split <;> rfl), hedit]

theorem orderly_handleGroupChangeSubGroup (hw : Orderly w) (actor guid groupNr : ℕ) :
    Orderly (w.handleGroupChangeSubGroup actor guid groupNr) := by
  unfold handleGroupChangeSubGroup
  split
  · exact hw
  · next id hid =>
    split
    · exact hw
    · split
      · exact orderly_changeMembersGroup hw id guid groupNr
      · exact hw

theorem orderly_handleGroupAssistantLeader (hw : Orderly w) (actor guid : ℕ) (apply : Bool) :
    Orderly (w.handleGroupAssistantLeader actor guid apply) := by
  unfold handleGroupAssistantLeader
  split
  · exact hw
  · next id hid =>
    split
    · refine hw.of_same (invites_editGroup fun gr _ => ?_) (leads_editGroup w id _ none)
      unfold Group.setAssistant
      split
      · refine ⟨rfl, rfl, ?_⟩
        by_cases hslots : gr.memberSlots = []
        · simp [Group.pending, Group.editSlot, hslots]
        · rw [pending_of_created hslots]
          exact pending_of_created fun hnil => hslots (List.map_eq_nil_iff.mp hnil)
      · exact ⟨rfl, rfl, rfl⟩
    · exact hw

/-! ## Battlegrounds -/

theorem settle_setBgRaid (side : ℕ) {gr : Group} (hgr : w.groups id = some gr) :
    (w.setBgRaid side id).invites.settle id = (w.invites.raise id side).settle id := by
  have hi : ∀ id', ((w.setBgRaid side id).groups id').map Group.invitees =
      (w.groups id').map Group.invitees := map_editGroup fun gr _ => rfl
  have hb : (fun id' => ((w.setBgRaid side id).groups id').map Group.bgGroup) =
      Function.update (fun id' => (w.groups id').map Group.bgGroup) id (some (some side)) :=
    funext fun id' => by
      show ((w.editGroup id _).groups id').map Group.bgGroup = _
      rw [groups_editGroup, Function.update_apply]
      split
      · rw [hgr, Option.map_some, Option.map_some]
      · rfl
  have hp : Function.update (fun id' => ((w.setBgRaid side id).groups id').bind Group.pending) id none =
      Function.update (fun id' => (w.groups id').bind Group.pending) id none :=
    funext fun id' => by
      rw [Function.update_apply, Function.update_apply]
      split
      · rfl
      · next hne =>
        show ((w.editGroup id _).groups id').bind Group.pending = _
        rw [groups_editGroup, if_neg hne]
  simp only [invites, Invites.settle, Invites.raise, hi, hb, hp]
  rfl

theorem leads_setBgRaid (w : World) (side id : ℕ) : Leads w (w.setBgRaid side id) (some id) := by
  rintro id' (hpl | hrow | ⟨side', hraid⟩)
  · exact .inl (.inl hpl)
  · exact .inl (.inr (.inl hrow))
  · by_cases hside : side' = side
    · refine .inr ?_
      replace hraid : Function.update w.bgRaid side (some id) side' = some id' := hraid
      rwa [hside, Function.update_self] at hraid
    · replace hraid : Function.update w.bgRaid side (some id) side' = some id' := hraid
      rw [Function.update_of_ne hside] at hraid
      exact .inl (.inr (.inr ⟨side', hraid⟩))

theorem invites_createBgRaid (w : World) (guid side : ℕ) :
    Yields ((w.newGroup.setBgRaid side w.nextGroup).create w.nextGroup guid) fun w' =>
      w'.invites =
          ((w.invites.found.raise w.nextGroup side).forget guid).settle w.nextGroup ∧
        Leads w w' (some w.nextGroup) := by
  have hnew : w.newGroup.groups w.nextGroup = some Group.new := Function.update_self ..
  have hraid : (w.newGroup.setBgRaid side w.nextGroup).groups w.nextGroup =
      some { Group.new with bgGroup := some side } := by
    show (w.newGroup.editGroup w.nextGroup _).groups w.nextGroup = _
    rw [groups_editGroup, if_pos rfl, hnew, Option.map_some]
  have hleads := ((leads_newGroup w (some w.nextGroup)).trans (leads_setBgRaid _ side w.nextGroup))
  refine ((invites_create hraid rfl rfl guid).and (leads_create hraid rfl rfl guid)).mono
    fun w' hw' => ⟨?_, hleads.trans hw'.2⟩
  rw [hw'.1]
  show ((w.newGroup.setBgRaid side w.nextGroup).invites.settle w.nextGroup).forget guid = _
  rw [settle_setBgRaid side hnew, invites_newGroup]
  rfl

/-- What a join does to the invitations: nothing, or a group is made or joined, and the player forgets
his invitation. -/
def Joined (w w' : World) (guid side : ℕ) : Prop :=
  (∃ id gr, w.bgRaid side = some id ∧ w.groups id = some gr ∧ Leads w w' (some id) ∧
    ((gr.isMember guid ∨ gr.freeSubGroup = none) ∧ w'.invites = w.invites ∨
      ¬ (gr.isMember guid ∨ gr.freeSubGroup = none) ∧
        w'.invites = (w.invites.forget guid).settle id)) ∨
  w.bgRaid side = none ∧ Leads w w' (some w.nextGroup) ∧
    w'.invites = ((w.invites.found.raise w.nextGroup side).forget guid).settle w.nextGroup

/-- The raid of a side is made by its first player, and the others are added to it. -/
theorem joined_addOrSetPlayerToCorrectBgGroup (hw : Orderly w) (guid side : ℕ) :
    Yields (w.addOrSetPlayerToCorrectBgGroup guid side) fun w' => Joined w w' guid side := by
  unfold addOrSetPlayerToCorrectBgGroup
  cases hraid : w.bgRaid side with
  | none =>
    refine (invites_createBgRaid w guid side).mono fun w' hw' => ?_
    exact .inr ⟨hraid, hw'.2, hw'.1⟩
  | some id =>
    obtain ⟨side', hside⟩ := hw.regular.raid hraid
    obtain ⟨gr, hgr, -⟩ := Option.map_eq_some_iff.mp hside
    unfold derefGroup
    simp only [hgr]
    show Yields (if gr.isMember guid then _ else _) _
    split
    next hmem =>
      refine .ok (.inl ⟨id, gr, hraid, hgr, leads_editPlayer fun pl id' h => ?_, .inl ⟨.inl hmem, ?_⟩⟩)
      · rcases h with ⟨r, hr, rfl⟩ | ⟨r, hr, rfl⟩
        · cases hr
          exact .inr rfl
        · exact .inl (refers_live (.inl hr))
      · exact invites_editPlayer (fun _ => rfl) fun _ => rfl
    next hmem =>
      have hlast : ∀ (w' : World) (isLeader : Bool),
          (if isLeader then w'.changeLeader id guid else w').invites = w'.invites ∧
            Leads w' (if isLeader then w'.changeLeader id guid else w') (some id) := by
        intro w' isLeader
        split
        · exact ⟨invites_changeLeader w' id guid, leads_changeLeader w' id guid (some id)⟩
        · exact ⟨rfl, .refl w' _⟩
      refine .ok (.inl ⟨id, gr, hraid, hgr, ?_⟩)
      cases hadd : w.addMember id guid with
      | none =>
        obtain ⟨hinv, hleads⟩ := hlast w _
        refine ⟨hleads, .inl ⟨.inr ?_, hinv⟩⟩
        unfold addMember at hadd
        rw [hgr] at hadd
        exact Option.map_eq_none_iff.mp hadd
      | some w' =>
        obtain ⟨hinv, hleads⟩ := hlast w' _
        refine ⟨(leads_addMember hadd).trans hleads, .inr ⟨?_, hinv.trans (invites_addMember hadd)⟩⟩
        obtain ⟨gr', subGroup, hgr', hfree, -⟩ := addMember_spec hadd
        obtain rfl : gr = gr' := Option.some.inj (hgr.symm.trans hgr')
        rw [hfree]
        rintro (h | h)
        · exact hmem h
        · cases h

theorem joined_joinBattleground (hw : Orderly w) (guid side : ℕ) :
    ((w.player guid = none ∨ (w.battleground guid).isSome) ∧ w.joinBattleground guid side = .ok w) ∨
    w.battleground guid = none ∧
      Yields (w.joinBattleground guid side) fun w' => Joined w w' guid side := by
  unfold joinBattleground
  split
  next hcond =>
    rw [Bool.or_eq_true, Option.isNone_iff_eq_none] at hcond
    exact .inl ⟨hcond, rfl⟩
  next hcond =>
    rw [Bool.or_eq_true, not_or] at hcond
    refine .inr ⟨?_, ?_⟩
    · simpa using hcond.2
    · have hsame : Orderly { w with battleground := Function.update w.battleground guid (some side) } :=
        ⟨hw.regular, hw.known⟩
      exact joined_addOrSetPlayerToCorrectBgGroup hsame guid side

/-- Joining a battleground, where the raid takes nobody with an invitation. -/
theorem orderly_joinBattleground (hw : Orderly w) {guid side : ℕ}
    (hop : KeepsInvites w (.joinBattleground guid side)) :
    Yields (w.joinBattleground guid side) Orderly := by
  rcases joined_joinBattleground hw guid side with ⟨-, heq⟩ | ⟨hbg, hjoined⟩
  · rw [heq]
    exact .ok hw
  · refine hjoined.mono fun w' hw' => ?_
    rcases hw' with ⟨id, gr, hraid, hgr, hleads, hcase⟩ | ⟨hraid, hleads, hinv⟩
    · obtain ⟨hid, hpend⟩ := hw.known id (.inr (.inr ⟨side, hraid⟩))
      rcases hcase with ⟨-, hinv⟩ | ⟨hroom, hinv⟩
      · refine hw.of_leads (hinv ▸ hw.regular) hleads (hinv ▸ .refl _) fun id' heq => ?_
        obtain rfl : id = id' := Option.some.inj heq
        rw [hinv]
        exact ⟨hid.trans_le (le_of_eq (congrArg Invites.nextGroup hinv).symm), hpend⟩
      · have hnone : w.invites.invite guid = none := by
          rcases hop with h | h | ⟨id', hid', gr', hgr', h⟩
          · exact h
          · rw [hbg] at h
            cases h
          · obtain rfl : id = id' := Option.some.inj (hraid.symm.trans hid')
            obtain rfl : gr = gr' := Option.some.inj (hgr.symm.trans hgr')
            exact absurd h hroom
        rw [Invites.forget_of_none hnone] at hinv
        refine hw.of_leads (hinv ▸ hw.regular.settle id) hleads (hinv ▸ .settle _ _) fun id' heq => ?_
        obtain rfl : id = id' := Option.some.inj heq
        refine ⟨hid.trans_le (le_of_eq (congrArg Invites.nextGroup hinv).symm), ?_⟩
        rw [hinv]
        exact Function.update_self ..
    · have hnone : w.invites.invite guid = none := by
        rcases hop with h | h | ⟨id', hid', -⟩
        · exact h
        · rw [hbg] at h
          cases h
        · rw [hraid] at hid'
          cases hid'
      have hnone' : (w.invites.found.raise w.nextGroup side).invite guid = none := hnone
      rw [Invites.forget_of_none hnone'] at hinv
      have hfound := (hw.regular.found.settle w.nextGroup).raise (l := [])
        (Function.update_self ..) (Function.update_self ..) side
      refine hw.of_leads (hinv ▸ hfound) hleads ?_ fun id' heq => ?_
      · rw [hinv]
        exact ⟨(Invites.Grows.found w.invites).next, fun hid hp =>
          ((Invites.Grows.found w.invites).trans (.settle _ w.nextGroup)).created hid hp⟩
      · obtain rfl : w.nextGroup = id' := Option.some.inj heq
        have hnext : w'.nextGroup = w.nextGroup + 1 := congrArg Invites.nextGroup hinv
        refine ⟨hnext ▸ Nat.lt_succ_self _, ?_⟩
        rw [hinv]
        exact Function.update_self ..

/-- A player who is added with an invitation forgets it, and is not forgotten. -/
theorem keepsInvites_of_join (hw : Orderly w) {guid side : ℕ}
    (h : Yields (w.joinBattleground guid side) fun w' => w'.invites.Symmetric) :
    KeepsInvites w (.joinBattleground guid side) := by
  by_contra hop
  unfold KeepsInvites at hop
  simp only [not_or] at hop
  obtain ⟨hinvite, hbg, hroom⟩ := hop
  obtain ⟨id, hinv⟩ := Option.ne_none_iff_exists'.mp hinvite
  obtain ⟨l, s, hl, -, hmem⟩ := hw.regular.held hinv
  rcases joined_joinBattleground hw guid side with ⟨hout | hin, -⟩ | ⟨-, hjoined⟩
  · rw [hout] at hinvite
    exact hinvite rfl
  · exact hbg hin
  · obtain ⟨w', -, hsymm, hjoin⟩ := h.and hjoined
    have hforgets : w'.invites.invite guid = none ∧ w'.invites.invitees id = some l := by
      rcases hjoin with ⟨id', gr, hraid, hgr, -, ⟨hin, -⟩ | ⟨-, heq⟩⟩ | ⟨-, -, heq⟩
      · exact absurd ⟨id', hraid, gr, hgr, hin⟩ hroom
      · rw [heq]
        exact ⟨Function.update_self .., hl⟩
      · have hne : id ≠ w.nextGroup := (hw.regular.fresh hl).ne
        rw [heq]
        exact ⟨Function.update_self .., (Function.update_of_ne hne ..).trans hl⟩
    have hheld := (hsymm.invited hforgets.2 hmem).2
    rw [hforgets.1] at hheld
    cases hheld

theorem orderly_leaveBattleground (hw : Orderly w) (guid : ℕ) :
    Yields (w.leaveBattleground guid) Orderly := by
  unfold leaveBattleground
  cases hbg : w.battleground guid with
  | none => exact .ok hw
  | some side =>
    dsimp only
    cases hraid : w.bgRaid side with
    | none => exact .ok ⟨hw.regular, hw.known⟩
    | some id =>
      obtain ⟨side', hside⟩ := hw.regular.raid hraid
      obtain ⟨gr, hgr, -⟩ := Option.map_eq_some_iff.mp hside
      exact (orderly_removeMember hw hgr guid).bind fun w' hw' => .ok ⟨hw'.regular, hw'.known⟩

/-! ## Login and logout -/

theorem invites_setPlayer {m : AList fun _ : ℕ => Player} {p : Option Player}
    (hm : ∀ guid', m.lookup guid' = if guid' = guid then p else w.player guid')
    (hp : p.bind Player.groupInvite = none) :
    ({ w with players := m } : World).invites =
      w.invites.connect guid (p.map Player.serial) := by
  have hserial : (fun guid' => (m.lookup guid').map Player.serial) =
      Function.update (fun guid' => (w.player guid').map Player.serial) guid (p.map Player.serial) :=
    funext fun guid' => by
      rw [hm, Function.update_apply]
      split <;> rfl
  have hinvite : (fun guid' => (m.lookup guid').bind Player.groupInvite) =
      Function.update (fun guid' => (w.player guid').bind Player.groupInvite) guid none :=
    funext fun guid' => by
      rw [hm, Function.update_apply]
      split
      · exact hp
      · rfl
  show Invites.mk _ _ _ _ _ _ _ = _
  unfold World.player at hserial hinvite ⊢
  simp only [hserial, hinvite]
  rfl

theorem leads_setPlayer {m : AList fun _ : ℕ => Player} {p : Option Player}
    (hm : ∀ guid', m.lookup guid' = if guid' = guid then p else w.player guid')
    (hp : ∀ pl id, p = some pl → Refers pl id → Named w id) :
    Leads w { w with players := m } none := by
  rintro id (⟨guid', pl, hpl, href⟩ | hrow | hraid)
  · replace hpl : m.lookup guid' = some pl := hpl
    rw [hm] at hpl
    split at hpl
    · exact .inl (hp pl id hpl href)
    · exact .inl (.inl ⟨guid', pl, hpl, href⟩)
  · exact .inl (.inr (.inl hrow))
  · exact .inl (.inr (.inr hraid))

/-- A logout withdraws the invitation of the player. -/
theorem orderly_logout (hw : Orderly w) (guid : ℕ) : Yields (w.logout guid) Orderly := by
  refine (orderly_uninviteFromGroup hw guid).bind fun w' hw' => .ok ?_
  have hm := fun guid' => Lib.lookup_erase_ite w'.players guid guid'
  have hinv := invites_setPlayer (w := w') hm rfl
  refine hw'.1.of_none ?_ (leads_setPlayer hm fun _ _ hp => by cases hp) ?_
  · rw [hinv]
    exact hw'.1.regular.connect hw'.2 none
  · rw [hinv]
    exact .connect _ _ _

/-- A login is a new serial, so that old invitations are not his. -/
theorem orderly_login (hw : Orderly w) (guid : ℕ) : Orderly (w.login guid) := by
  unfold login
  split
  · exact hw
  · next hout =>
    have hnone : w.invites.invite guid = none := by
      show (w.player guid).bind Player.groupInvite = none
      rw [Option.not_isSome_iff_eq_none.mp hout]
      rfl
    have hm := fun guid' => Lib.lookup_insert_ite w.players guid guid'
      ⟨w.nextSerial, none, (w.groupMember guid).bind fun id => (w.groups id).map fun gr =>
        ⟨id, gr.memberGroup guid⟩, none, true⟩
    have hinv := invites_setPlayer (w := w) hm rfl
    have hsame : Orderly { w with nextSerial := w.nextSerial + 1 } := ⟨hw.regular, hw.known⟩
    refine hsame.of_none ?_ (leads_setPlayer hm fun pl id hp href => ?_) ?_
    · exact (hinv ▸ hw.regular.connect hnone _ :)
    · -- the reference that is loaded is the one of his row
      obtain rfl := Option.some.inj hp
      rcases href with ⟨r, hr, rfl⟩ | ⟨r, hr, -⟩
      · obtain ⟨id, hrow, hloaded⟩ := Option.bind_eq_some_iff.mp hr
        obtain ⟨gr, -, rfl⟩ := Option.map_eq_some_iff.mp hloaded
        exact .inr (.inl ⟨guid, hrow⟩)
      · cases hr
    · exact (congrArg (Invites.Grows w.invites) hinv).mpr (.connect _ _ _)

theorem orderly_setInWorld (hw : Orderly w) (guid : ℕ) (isInWorld : Bool) :
    Orderly (w.setInWorld guid isInWorld) := by
  refine hw.of_same ?_ (leads_editPlayer fun _ _ h => .inl h)
  exact invites_editPlayer (fun _ => rfl) fun _ => rfl

/-! ## Runs -/

theorem orderly_empty : Orderly empty where
  regular :=
    { invited := fun h => by cases h
      held := fun h => by cases h
      nodup := fun h => by cases h
      blank := fun h => by cases h
      leads := fun h => by cases h
      fresh := fun h => by cases h
      exists_of_pending := fun h => by cases h
      raid := fun h => by cases h
      exists_of_bgGroup := fun h => by cases h }
  known := by
    rintro id (⟨guid, pl, hpl, -⟩ | ⟨guid, hrow⟩ | ⟨side, hraid⟩)
    · cases hpl
    · cases hrow
    · cases hraid

/-- The step lemma: one case for each way to touch a group. -/
theorem orderly_step (hw : Orderly w) {op : Op} (hop : KeepsInvites w op) :
    Yields (w.step op) Orderly := by
  cases op with
  | invite actor guid => exact orderly_handleGroupInvite hw actor guid
  | accept actor => exact orderly_handleGroupAccept hw actor
  | decline actor => exact orderly_handleGroupDecline hw hop
  | uninviteGuid actor guid => exact orderly_handleGroupUninviteGuid hw actor guid
  | uninvite actor guid => exact orderly_handleGroupUninvite hw actor guid
  | disband actor => exact orderly_handleGroupDisband hw actor
  | setLeader actor guid => exact .ok (orderly_handleGroupSetLeader hw actor guid)
  | raidConvert actor => exact .ok (orderly_handleGroupRaidConvert hw actor)
  | changeSubGroup actor guid groupNr =>
    exact .ok (orderly_handleGroupChangeSubGroup hw actor guid groupNr)
  | assistantLeader actor guid apply =>
    exact .ok (orderly_handleGroupAssistantLeader hw actor guid apply)
  | joinBattleground guid side => exact orderly_joinBattleground hw hop
  | leaveBattleground guid => exact orderly_leaveBattleground hw guid
  | login guid => exact .ok (orderly_login hw guid)
  | logout guid => exact orderly_logout hw guid
  | setInWorld guid isInWorld => exact .ok (orderly_setInWorld hw guid isInWorld)

/-- The condition is needed: a step that keeps both sides meets it. -/
theorem keepsInvites_of_step (hw : Orderly w) {op : Op}
    (h : Yields (w.step op) fun w' => w'.invites.Symmetric) : KeepsInvites w op := by
  cases op with
  | decline actor => exact keepsInvites_of_decline hw.regular h
  | joinBattleground guid side => exact keepsInvites_of_join hw h
  | _ => trivial

/-- **Invitations are symmetric as long as no step forgets one side.** -/
theorem symmetric_iff_keepsInvites (ops : List Op) :
    (∀ l, l <+: ops → Yields (run step empty l) fun w => w.invites.Symmetric) ↔
      Admitted step KeepsInvites empty ops :=
  always_iff_admitted (fun _ _ hw hop => orderly_step hw hop) (fun _ hw => hw.regular.toSymmetric)
    (fun _ _ hw h => keepsInvites_of_step hw h) orderly_empty ops

/-- Player 3 declines an invitation to the group of 1 and 2, and stays among the invited after logout:
the next uninvitation follows a pointer to an object that is gone. Player 2 enters a battleground with
the invitation of player 1, and both log out: there it is the withdrawal of all invitations. -/
theorem not_symmetric_of_declined_or_joined :
    (¬ ∀ ops, Yields (run step empty ops) fun w => w.invites.Symmetric) ∧
      (run step empty [.login 1, .login 2, .login 3, .invite 1 2, .accept 2, .invite 1 3, .decline 3,
        .logout 3, .uninviteGuid 1 3]).map (fun _ => ()) = .error .deadPlayer ∧
      (run step empty [.login 1, .login 2, .invite 1 2, .joinBattleground 2 0, .logout 2,
        .logout 1]).map (fun _ => ()) = .error .deadPlayer := by
  have hdeclined : (run step empty [.login 1, .login 2, .login 3, .invite 1 2, .accept 2, .invite 1 3,
      .decline 3, .logout 3, .uninviteGuid 1 3]).map (fun _ => ()) = .error .deadPlayer := by
    decide +kernel
  refine ⟨fun h => ?_, hdeclined, by decide +kernel⟩
  obtain ⟨w, hw, -⟩ := h [.login 1, .login 2, .login 3, .invite 1 2, .accept 2, .invite 1 3, .decline 3,
    .logout 3, .uninviteGuid 1 3]
  rw [hw] at hdeclined
  cases hdeclined

end World

end Sunstrider.Groups
