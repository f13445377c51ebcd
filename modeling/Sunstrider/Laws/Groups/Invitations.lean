import Sunstrider.Laws.Groups.GroupRefs
import Sunstrider.Lib.Run

/-!
# When invitations stay symmetric

A player is among the invited of a group just if the group is his invitation, and no pointer of the
two goes to an object that was deleted, as long as no player joins the raid of a battleground with an
invitation that waits for his answer, and nobody declines an invitation to a group that is created
(`symmetric_iff_keepsInvites`).
-/

namespace Sunstrider.Groups

open Lib (Yields bind_eq_ok Admitted run)

namespace World

variable {w : World} {id guid : ℕ}

/-! ## Removing a member -/

/-- How many members have to be there for one to be removed and not all. -/
def fewMembers (gr : Group) : ℕ := if gr.isBGGroup then 1 else 2

variable {gr : Group}

/-- `RemoveMember` takes one member out, or disbands the group at once or after that. -/
theorem removeMember_cases (hw : w.invites.Symmetric) (hgr : w.groups id = some gr) (guid : ℕ) :
    (gr.memberSlots.length ≤ fewMembers gr ∧ w.removeMember id guid = .ok (w.disbanded id gr)) ∨
    fewMembers gr < gr.memberSlots.length ∧
      (w.withoutMember id guid gr.isBGGroup).invites = w.invites ∧
      (fewMembers gr ≤ (w.withoutMember id guid gr.isBGGroup).memberMgrSize id ∧
          w.removeMember id guid = .ok (w.withoutMember id guid gr.isBGGroup) ∨
        ∃ gr', (w.withoutMember id guid gr.isBGGroup).groups id = some gr' ∧
          w.removeMember id guid =
            .ok ((w.withoutMember id guid gr.isBGGroup).disbanded id gr')) := by
  have hunfold : w.removeMember id guid =
      if fewMembers gr < gr.memberSlots.length then
        if (w.withoutMember id guid gr.isBGGroup).memberMgrSize id < fewMembers gr then
          (w.withoutMember id guid gr.isBGGroup).disband id
        else .ok (w.withoutMember id guid gr.isBGGroup)
      else w.disband id := by
    unfold removeMember derefGroup fewMembers
    rw [hgr]
    rfl
  rw [hunfold]
  by_cases hlen : fewMembers gr < gr.memberSlots.length
  · have hpos : 1 < gr.memberSlots.length := by
      unfold fewMembers at hlen
      split at hlen <;> omega
    have hsame := invites_withoutMember gr.isBGGroup hgr hpos guid
    refine .inr ⟨hlen, hsame, ?_⟩
    rw [if_pos hlen]
    by_cases hsize : (w.withoutMember id guid gr.isBGGroup).memberMgrSize id < fewMembers gr
    · obtain ⟨l, hl⟩ : ∃ l, (w.withoutMember id guid gr.isBGGroup).invites.invitees id = some l := by
        rw [hsame]
        exact ⟨_, invitees_invites hgr⟩
      obtain ⟨gr', hgr', -⟩ := Option.map_eq_some_iff.mp hl
      refine .inr ⟨gr', hgr', ?_⟩
      rw [if_pos hsize]
      exact disband_eq (hsame ▸ hw) hgr'
    · exact .inl ⟨Nat.le_of_not_lt hsize, if_neg hsize⟩
  · exact .inl ⟨Nat.le_of_not_lt hlen, by rw [if_neg hlen, disband_eq hw hgr]⟩

theorem Orderly.disbanded (hw : Orderly w) (hgr : w.groups id = some gr) :
    Orderly (w.disbanded id gr) := by
  have hinv := invites_disbanded hw.regular.toSymmetric hgr
  refine hw.of_none ?_ (leads_disbanded w id gr) ?_
  · rw [hinv]
    exact hw.regular.drop id
  · rw [hinv]
    exact .drop w.invites id

theorem orderly_removeMember (hw : Orderly w) (hgr : w.groups id = some gr) (guid : ℕ) :
    Yields (w.removeMember id guid) Orderly := by
  rcases removeMember_cases hw.regular.toSymmetric hgr guid with
    ⟨-, heq⟩ | ⟨-, hsame, ⟨-, heq⟩ | ⟨gr', hgr', heq⟩⟩
  · rw [heq]
    exact .ok (hw.disbanded hgr)
  · rw [heq]
    exact .ok (hw.of_same hsame (leads_withoutMember w id guid gr.isBGGroup))
  · rw [heq]
    have hw' := hw.of_same hsame (leads_withoutMember w id guid gr.isBGGroup)
    exact .ok (hw'.disbanded hgr')

/-! ## Uninviting -/

variable {pl : Player}

theorem groups_removeInvite (hpl : w.player guid = some pl) (id id' : ℕ) :
    (w.removeInvite id guid).groups id' =
      if id' = id then
        (w.groups id).map fun gr => { gr with invitees := gr.invitees.erase (guid, pl.serial) }
      else w.groups id' := by
  unfold removeInvite
  rw [hpl]
  rw [groups_editPlayer, groups_editGroup]

/-- A player with an invitation is on the list of its group. -/
theorem exists_of_invite (hw : w.invites.Symmetric) (h : w.invites.invite guid = some id) :
    ∃ pl gr, w.player guid = some pl ∧ pl.groupInvite = some id ∧ w.groups id = some gr ∧
      (guid, pl.serial) ∈ gr.invitees := by
  obtain ⟨pl, hpl, hinv⟩ := Option.bind_eq_some_iff.mp h
  obtain ⟨l, s, hl, hs, hmem⟩ := hw.held h
  obtain ⟨gr, hgr, rfl⟩ := Option.map_eq_some_iff.mp hl
  rw [serial_invites hpl] at hs
  cases hs
  exact ⟨pl, gr, hpl, hinv, hgr, hmem⟩

section Withdrawn

variable (hpl : w.player guid = some pl)

include hpl

theorem groups_withdrawn (hgr : w.groups id = some gr) : (w.removeInvite id guid).groups id =
    some { gr with invitees := gr.invitees.erase (guid, pl.serial) } := by
  rw [groups_removeInvite hpl, if_pos rfl, hgr, Option.map_some]

theorem invite_withdrawn (id : ℕ) : (w.removeInvite id guid).invites.invite guid = none := by
  rw [invites_removeInvite w id hpl]
  exact Function.update_self ..

theorem grows_withdrawn (id : ℕ) : w.invites.Grows (w.removeInvite id guid).invites := by
  rw [invites_removeInvite w id hpl]
  exact .withdraw w.invites id guid pl.serial

/-- An invitation that is taken back leaves the invitations in order, but perhaps those of a group that
is not created. -/
theorem settled_withdrawn (h : (w.invites.settle id).Regular)
    (hinv : w.invites.invite guid = some id) :
    ((w.removeInvite id guid).invites.settle id).Regular := by
  rw [invites_removeInvite w id hpl]
  exact h.withdraw (serial_invites hpl) (.inl hinv) (Function.update_self ..)

theorem symmetric_withdrawn (h : w.invites.Regular) (hinv : w.invites.invite guid = some id) :
    (w.removeInvite id guid).invites.Symmetric := by
  rw [invites_removeInvite w id hpl]
  exact h.toSymmetric.withdraw h.nodup (serial_invites hpl) (.inl hinv)

end Withdrawn

/-- `UninviteFromGroup` leaves the player alone, or takes back his invitation and perhaps deletes the
group: a created one is disbanded where it has one member, and one that is not created has no member
and is deleted with the invitation of its leader. -/
theorem uninviteFromGroup_cases (hw : w.invites.Regular) (guid : ℕ) :
    (w.invites.invite guid = none ∧ w.uninviteFromGroup guid = .ok w) ∨
    ∃ id pl gr, w.player guid = some pl ∧ pl.groupInvite = some id ∧ w.groups id = some gr ∧
      (gr.memberSlots ≠ [] ∧ w.uninviteFromGroup guid = .ok (w.removeInvite id guid) ∨
        (∃ gr', gr'.memberSlots = gr.memberSlots ∧ gr'.bgGroup = gr.bgGroup ∧ gr.memberSlots ≠ [] ∧
          (w.removeInvite id guid).groups id = some gr' ∧
          w.uninviteFromGroup guid = .ok ((w.removeInvite id guid).disbanded id gr')) ∨
        gr.memberSlots = [] ∧
          w.uninviteFromGroup guid =
            .ok (((w.removeInvite id guid).cleared id).deleteGroup id)) := by
  cases hinv : w.invites.invite guid with
  | none =>
    refine .inl ⟨rfl, ?_⟩
    unfold uninviteFromGroup
    rw [show (w.player guid).bind Player.groupInvite = none from hinv]
  | some id =>
    obtain ⟨pl, gr, hpl, hpinv, hgr, hmem⟩ := exists_of_invite hw.toSymmetric hinv
    have hgr' := groups_withdrawn hpl hgr
    have hsymm := symmetric_withdrawn hpl hw hinv
    have hunfold : w.uninviteFromGroup guid =
        if gr.isCreated then
          if gr.memberSlots.length ≤ 1 then (w.removeInvite id guid).disband id
          else .ok (w.removeInvite id guid)
        else if ((w.removeInvite id guid).groups id).any fun gr => gr.invitees.length ≤ 1 then do
          let w ← (w.removeInvite id guid).removeAllInvites id
          .ok (w.deleteGroup id)
        else .ok (w.removeInvite id guid) := by
      unfold uninviteFromGroup derefGroup
      rw [show (w.player guid).bind Player.groupInvite = some id from hinv]
      simp only
      rw [hgr]
      rfl
    refine .inr ⟨id, pl, gr, hpl, hpinv, hgr, ?_⟩
    rw [hunfold]
    by_cases hslots : gr.memberSlots = []
    · -- the leader is left alone with his invitation
      refine .inr (.inr ⟨hslots, ?_⟩)
      have hpend : w.invites.pending id = some { gr with invitees := [] } :=
        (pending_invites hgr).trans (if_pos hslots)
      obtain ⟨-, l, hl, hlen⟩ := hw.leader_invited hpend hinv
      rw [invitees_invites hgr] at hl
      cases hl
      have hfew : (gr.invitees.erase (guid, pl.serial)).length ≤ 1 := by
        rw [List.length_erase_of_mem hmem]
        omega
      have hcreated : gr.isCreated = false := by simp [Group.isCreated, hslots]
      rw [hcreated, if_neg (by decide), hgr', if_pos (by simpa using hfew),
        removeAllInvites_eq hsymm hgr']
      rfl
    · have hcreated : gr.isCreated = true := by
        simpa [Group.isCreated] using List.length_pos_iff.mpr hslots
      rw [hcreated, if_pos rfl]
      by_cases hlen : gr.memberSlots.length ≤ 1
      · refine .inr (.inl ⟨{ gr with invitees := gr.invitees.erase (guid, pl.serial) }, rfl, rfl, hslots,
          hgr', ?_⟩)
        rw [if_pos hlen, disband_eq hsymm hgr']
      · exact .inl ⟨hslots, if_neg hlen⟩

/-- Afterwards the player has no invitation. -/
theorem orderly_uninviteFromGroup (h : Orderly w) (guid : ℕ) :
    Yields (w.uninviteFromGroup guid) fun w' => Orderly w' ∧ w'.invites.invite guid = none := by
  have hw := h.regular
  rcases uninviteFromGroup_cases hw guid with
    ⟨hinv, heq⟩ | ⟨id, pl, gr, hpl, hpinv, hgr, hcase⟩
  · rw [heq]
    exact .ok ⟨h, hinv⟩
  · have hinv : w.invites.invite guid = some id := (invite_invites hpl).trans hpinv
    have hsymm := symmetric_withdrawn hpl hw hinv
    -- the other groups are as before, and this one has nothing to do with the invitation now
    have hsettled := settled_withdrawn hpl (hw.settle id) hinv
    have hnone := invite_withdrawn hpl id
    have hdropped : ((w.removeInvite id guid).invites.drop id).Regular ∧
        ((w.removeInvite id guid).invites.drop id).invite guid = none := by
      refine ⟨?_, ?_⟩
      · have hsame : ((w.removeInvite id guid).invites.settle id).drop id =
            (w.removeInvite id guid).invites.drop id := by
          simp only [Invites.settle, Invites.drop, Function.update_idem]
          rfl
        exact hsame ▸ hsettled.drop id
      · show (if (w.removeInvite id guid).invites.invite guid = some id then none else _) = none
        rw [hnone]
        rfl
    have hgrows := grows_withdrawn hpl id
    have hleads := leads_removeInvite w id guid none
    rcases hcase with ⟨hslots, heq⟩ | ⟨gr', -, -, -, hgr', heq⟩ | ⟨-, heq⟩
    · rw [heq]
      refine .ok ⟨h.of_none (hsettled.of_settle fun gr' hpend => ?_) hleads hgrows, hnone⟩
      rw [invites_removeInvite w id hpl] at hpend
      replace hpend : w.invites.pending id = some gr' := hpend
      rw [pending_invites hgr, pending_of_created hslots] at hpend
      cases hpend
    · rw [heq]
      have hinv' := invites_disbanded hsymm hgr'
      refine .ok ⟨h.of_none ?_ (hleads.trans (leads_disbanded _ id gr')) ?_, ?_⟩
      · rw [hinv']
        exact hdropped.1
      · rw [hinv']
        exact hgrows.trans (.drop _ id)
      · rw [hinv']
        exact hdropped.2
    · have hgr' := groups_withdrawn hpl hgr
      have hinv' := invites_deleteGroup_cleared hsymm hgr'
      have hleads' := (hleads.trans (leads_cleared _ id none)).trans (leads_deleteGroup _ id none)
      rw [heq]
      refine .ok ⟨h.of_none ?_ hleads' ?_, ?_⟩
      · rw [hinv']
        exact hdropped.1
      · rw [hinv']
        exact hgrows.trans (.drop _ id)
      · rw [hinv']
        exact hdropped.2

/-! ## A new group -/

theorem invites_newGroup (w : World) : w.newGroup.invites = w.invites.found := by
  have hread : ∀ {α : Type} (part : Group → Option α), (fun id' => (w.newGroup.groups id').bind part) =
      Function.update (fun id' => (w.groups id').bind part) w.nextGroup (part Group.new) :=
    fun part => funext fun id' => by
      show (Function.update w.groups w.nextGroup (some Group.new) id').bind part = _
      rw [Function.update_apply, Function.update_apply]
      split <;> rfl
  have hmap : ∀ {α : Type} (part : Group → α), (fun id' => (w.newGroup.groups id').map part) =
      Function.update (fun id' => (w.groups id').map part) w.nextGroup (some (part Group.new)) :=
    fun part => by
      simp only [Option.map_eq_bind]
      exact hread _
  simp only [invites, hread, hmap]
  rfl

theorem invites_deleteGroup_of_none (hnone : ∀ guid, w.invites.invite guid ≠ some id) :
    (w.deleteGroup id).invites = w.invites.drop id := by
  rw [invites_deleteGroup, Invites.drop]
  have hinvite : (fun guid => if w.invites.invite guid = some id then none else w.invites.invite guid) =
      w.invites.invite := funext fun guid => if_neg (hnone guid)
  rw [hinvite]

variable {w' : World}

theorem groups_addInvite (h : w.addInvite id guid = some w') (hgr : w.groups id = some gr) :
    ∃ l, w'.groups id = some { gr with invitees := l } := by
  obtain ⟨pl, hpl, -, -, rfl⟩ := addInvite_spec h
  refine ⟨(guid, pl.serial) :: gr.invitees.erase (guid, pl.serial), ?_⟩
  rw [groups_editPlayer, groups_editGroup, if_pos rfl, groups_removeInvite hpl, if_pos rfl, hgr,
    Option.map_some, Option.map_some]

theorem addLeaderInvite_spec (hw : w.invites.Symmetric) (hgr : w.groups id = some gr)
    (h : w.addLeaderInvite id guid = some w') :
    ∃ s l, w.invites.serial guid = some s ∧ w.invites.invite guid = none ∧
      w'.groups id = some { gr with invitees := l, leaderGuid := guid } ∧
      w'.invites.settle id = (w.invites.offer id guid s).settle id := by
  obtain ⟨w₁, h₁, rfl⟩ := Option.map_eq_some_iff.mp h
  obtain ⟨s, hs, hnone, hinvites⟩ := invites_addInvite hw h₁
  obtain ⟨l, hl⟩ := groups_addInvite h₁ hgr
  refine ⟨s, l, hs, hnone, ?_, ?_⟩
  · rw [groups_editGroup, if_pos rfl, hl, Option.map_some]
  · rw [invites_editPending (f := fun gr => { gr with leaderGuid := guid }) fun _ _ => ⟨rfl, rfl⟩,
      hinvites]
    simp only [Invites.settle, Function.update_idem]

theorem orderly_startGroup (h : Orderly w) (actor guid : ℕ) :
    Yields (w.startGroup actor guid) Orderly := by
  have hw := h.regular
  have hfound : w.newGroup.invites.Regular := by
    rw [invites_newGroup]
    exact hw.found
  have hnew : w.newGroup.groups w.nextGroup = some Group.new := Function.update_self ..
  have hnobody : ∀ guid, w.newGroup.invites.invite guid ≠ some w.nextGroup := by
    intro guid hinv
    rw [invites_newGroup] at hinv
    obtain ⟨l, s, hl, -⟩ := hw.held hinv
    rw [show w.invites.invitees w.nextGroup = none from hw.not_exists_next] at hl
    cases hl
  have hgrows : w.invites.Grows w.newGroup.invites := by
    rw [invites_newGroup]
    exact .found w.invites
  unfold startGroup
  simp only
  split
  · have hinv := invites_deleteGroup_of_none hnobody
    have hleads := (leads_newGroup w none).trans (leads_deleteGroup _ w.nextGroup none)
    refine .ok (h.of_none ?_ hleads ?_)
    · rw [hinv]
      exact hfound.drop _
    · rw [hinv]
      exact hgrows.trans (.drop _ _)
  · next w₁ h₁ =>
    obtain ⟨s, l, hs, hnone, hgr₁, hinv₁⟩ := addLeaderInvite_spec hfound.toSymmetric hnew h₁
    have hreg₁ : (w₁.invites.settle w.nextGroup).Regular := by
      rw [hinv₁]
      refine (hfound.settle w.nextGroup).offer hs hnone (l := []) ?_ (Function.update_self ..)
      exact invitees_invites hnew
    have hsymm₁ : w₁.invites.Symmetric := ⟨hreg₁.invited, hreg₁.held⟩
    have hleads₁ := (leads_newGroup w none).trans (leads_addLeaderInvite h₁ none)
    have hgrows₁ : w.invites.Grows w₁.invites := by
      refine .of_fresh (le_refl w.nextGroup) ?_
      rw [hinv₁]
      exact (hgrows.trans (.offer _ _ _ _)).trans (.settle _ _)
    split
    · have hinv := invites_deleteGroup_cleared hsymm₁ hgr₁
      have hleads := (hleads₁.trans (leads_cleared _ w.nextGroup none)).trans
        (leads_deleteGroup _ w.nextGroup none)
      rw [removeAllInvites_eq hsymm₁ hgr₁]
      refine .ok (h.of_none ?_ hleads ?_)
      · rw [hinv]
        have hsame : (w₁.invites.settle w.nextGroup).drop w.nextGroup =
            w₁.invites.drop w.nextGroup := by
          simp only [Invites.settle, Invites.drop, Function.update_idem]
          rfl
        exact hsame ▸ hreg₁.drop _
      · rw [hinv]
        exact hgrows₁.trans (.drop _ _)
    · next w₂ h₂ =>
      obtain ⟨s', hs', hnone', hinv₂⟩ := invites_addInvite hsymm₁ h₂
      obtain ⟨l', hgr₂⟩ := groups_addInvite h₂ hgr₁
      have hreg₂ : (w₂.invites.settle w.nextGroup).Regular := by
        rw [hinv₂]
        exact hreg₁.offer hs' hnone' (invitees_invites hgr₁) (Function.update_self ..)
      have hleads := hleads₁.trans (leads_addInvite h₂ none)
      have hgrows₂ : w.invites.Grows w₂.invites := by
        rw [hinv₂]
        exact hgrows₁.trans (.offer _ _ _ _)
      refine .ok (h.of_none (hreg₂.of_settle fun gr hpend => ?_) hleads hgrows₂)
      rw [pending_invites hgr₂] at hpend
      cases hpend
      refine ⟨⟨rfl, rfl, rfl⟩, [(guid, s'), (actor, s)], ?_, .inr ⟨le_rfl, s, by simp⟩⟩
      have hlist : w₁.invites.invitees w.nextGroup = some [(actor, s)] := by
        have hset := congrFun (congrArg Invites.invitees hinv₁) w.nextGroup
        refine hset.trans ?_
        show Function.update w.newGroup.invites.invitees w.nextGroup _ w.nextGroup = _
        rw [Function.update_self, invitees_invites hnew]
        rfl
      rw [hinv₂]
      show Function.update w₁.invites.invitees w.nextGroup _ w.nextGroup = _
      rw [Function.update_self, hlist]
      rfl

/-! ## Accepting -/

theorem createdBy_same (gr : Group) (guid : ℕ) :
    (gr.createdBy guid).invitees = gr.invitees ∧ (gr.createdBy guid).bgGroup = gr.bgGroup := by
  unfold Group.createdBy
  split <;> exact ⟨rfl, rfl⟩

theorem createdBy_blank (hslots : gr.memberSlots = []) (hcounts : gr.subGroupsCounts = none)
    (guid : ℕ) :
    (gr.createdBy guid).memberSlots = [] ∧ (gr.createdBy guid).leaderGuid = guid ∧
      (gr.createdBy guid).isRaidGroup = gr.isBGGroup ∧
      (gr.createdBy guid).subGroupsCounts = if gr.isBGGroup then some fun _ => 0 else none := by
  unfold Group.createdBy
  split
  · exact ⟨hslots, rfl, rfl, by simp [Group.initRaidSubGroupsCounter, hslots]⟩
  · exact ⟨hslots, rfl, rfl, hcounts⟩

theorem create_eq (hgr : w.groups id = some gr) (hslots : gr.memberSlots = [])
    (hcounts : gr.subGroupsCounts = none) (guid : ℕ) :
    w.create id guid = .ok ((w.editGroup id fun gr => gr.createdBy guid).addToSubGroup id guid 0
      gr.isBGGroup) := by
  have hgr' : (w.editGroup id fun gr => gr.createdBy guid).groups id = some (gr.createdBy guid) := by
    rw [groups_editGroup, if_pos rfl, hgr, Option.map_some]
  have hfree : (gr.createdBy guid).freeSubGroup = some 0 := by
    unfold Group.freeSubGroup
    rw [(createdBy_blank hslots hcounts guid).2.2.2]
    split
    next hnone => rfl
    next c hc =>
      split at hc
      · cases hc
        decide
      · cases hc
  have hsame : (gr.createdBy guid).isBGGroup = gr.isBGGroup :=
    congrArg Option.isSome (createdBy_same gr guid).2
  unfold create addMember
  simp only [hgr', hfree, Option.map_some, hsame]

/-- A group that is created is settled, and its leader forgets his invitation. -/
theorem invites_create (hgr : w.groups id = some gr) (hslots : gr.memberSlots = [])
    (hcounts : gr.subGroupsCounts = none) (guid : ℕ) :
    Yields (w.create id guid) fun w' => w'.invites = (w.invites.forget guid).settle id := by
  rw [create_eq hgr hslots hcounts]
  refine .ok ?_
  rw [invites_addToSubGroup, invites_editPending fun gr _ => createdBy_same gr guid]
  simp only [Invites.forget, Invites.settle, Function.update_idem]

theorem leads_addMember (h : w.addMember id guid = some w') : Leads w w' (some id) := by
  obtain ⟨gr, subGroup, -, -, rfl⟩ := addMember_spec h
  exact leads_addToSubGroup w id guid subGroup gr.isBGGroup

theorem leads_create (hgr : w.groups id = some gr) (hslots : gr.memberSlots = [])
    (hcounts : gr.subGroupsCounts = none) (guid : ℕ) :
    Yields (w.create id guid) fun w' => Leads w w' (some id) := by
  rw [create_eq hgr hslots hcounts]
  exact .ok ((leads_editGroup w id _ _).trans (leads_addToSubGroup _ id guid 0 gr.isBGGroup))

/-- A member who has no invitation is added. -/
theorem orderly_addMember (hw : Orderly w) (h : w.addMember id guid = some w')
    (hnone : w.invites.invite guid = none) (hid : id < w.nextGroup) : Orderly w' := by
  have hinv := invites_addMember h
  rw [Invites.forget_of_none hnone] at hinv
  refine hw.of_leads ?_ (leads_addMember h) ?_ fun id' heq => ?_
  · rw [hinv]
    exact hw.regular.settle id
  · rw [hinv]
    exact .settle w.invites id
  · obtain rfl : id = id' := Option.some.inj heq
    refine ⟨hid.trans_le (le_of_eq (congrArg Invites.nextGroup hinv).symm), ?_⟩
    rw [hinv]
    exact Function.update_self ..

theorem orderly_addMember_getD (hw : Orderly w) (hnone : w.invites.invite guid = none)
    (hid : id < w.nextGroup) : Orderly ((w.addMember id guid).getD w) := by
  cases hadd : w.addMember id guid with
  | none => exact hw
  | some w' => exact orderly_addMember hw hadd hnone hid

theorem lt_nextGroup (hw : w.invites.Regular) (hgr : w.groups id = some gr) :
    id < w.nextGroup := hw.fresh (invitees_invites hgr)

/-- `HandleGroupAcceptOpcode`: where the group is not created, its leader holds an invitation to it,
so taking that back cuts no other tie. -/
theorem orderly_handleGroupAccept (h : Orderly w) (actor : ℕ) :
    Yields (w.handleGroupAccept actor) Orderly := by
  have hw := h.regular
  cases hinv : w.invites.invite actor with
  | none =>
    unfold handleGroupAccept
    rw [show (w.player actor).bind Player.groupInvite = none from hinv]
    exact .ok h
  | some id =>
    obtain ⟨pl, gr, hpl, hpinv, hgr, hmem⟩ := exists_of_invite hw.toSymmetric hinv
    have hgr₁ := groups_withdrawn hpl hgr
    have hsettled := settled_withdrawn hpl (hw.settle id) hinv
    have hsymm := symmetric_withdrawn hpl hw hinv
    have hnone := invite_withdrawn hpl id
    have hleads := leads_removeInvite w id actor none
    have hgrows := grows_withdrawn hpl id
    unfold handleGroupAccept derefGroup
    rw [show (w.player actor).bind Player.groupInvite = some id from hinv]
    simp only [hgr]
    show Yields (if gr.isLeader actor then _ else _) _
    split
    · exact .ok h
    · next hleader =>
      by_cases hslots : gr.memberSlots = []
      · -- a group that is not created has room, and its leader is the other player it has invited
        have hpend : w.invites.pending id = some { gr with invitees := [] } :=
          (pending_invites hgr).trans (if_pos hslots)
        obtain ⟨hcounts, -, hraid⟩ := hw.blank hpend
        obtain ⟨hlead, -⟩ := hw.leader_invited hpend hinv
        have hfull : gr.isFull = false := by
          simp [Group.isFull, hslots, maxRaidSize, maxGroupSize]
        have hcreated : gr.isCreated = false := by simp [Group.isCreated, hslots]
        rw [hfull, hcreated, if_neg (by decide), if_neg (by decide)]
        have hblank : Invites.Regular.Blank ((w.removeInvite id actor).invites.clear id) id := by
          intro gr' hpend'
          rw [show ((w.removeInvite id actor).invites.clear id).pending id =
            some { gr with invitees := [] } from (pending_invites hgr₁).trans (if_pos hslots)] at hpend'
          cases hpend'
          refine ⟨hw.blank hpend, [], ?_, .inl rfl⟩
          simp [Invites.clear, invitees_invites hgr₁]
        split
        · have hcleared : (((w.removeInvite id actor).invites.clear id).settle id).Regular :=
            hsettled.clear id
          have hinv' := invites_cleared hsymm hgr₁
          rw [removeAllInvites_eq hsymm hgr₁]
          refine .ok (h.of_none ?_ (hleads.trans (leads_cleared _ id none)) ?_)
          · rw [hinv']
            exact hcleared.of_settle hblank
          · rw [hinv']
            exact hgrows.trans (.clear _ id)
        · next leader hin =>
          have hconn : ∃ pl', (w.removeInvite id actor).player gr.leaderGuid = some pl' := by
            obtain ⟨hp, -⟩ := Option.filter_eq_some_iff.mp hin
            exact ⟨leader, hp⟩
          obtain ⟨pl', hpl'⟩ := hconn
          have hleads' : (w.removeInvite id actor).invites.invite gr.leaderGuid = some id := by
            have hne : gr.leaderGuid ≠ actor := fun heq => hleader (by simp [Group.isLeader, heq])
            rw [invites_removeInvite w id hpl]
            exact (Function.update_of_ne hne ..).trans hlead
          have hgr₂ := groups_withdrawn hpl' hgr₁
          have hsettled₂ := settled_withdrawn hpl' hsettled hleads'
          have hnone₂ := invite_withdrawn hpl' id
          have hactor : ((w.removeInvite id actor).removeInvite id gr.leaderGuid).invites.invite
              actor = none := by
            have hne : actor ≠ gr.leaderGuid := fun heq => hleader (by simp [Group.isLeader, heq])
            rw [invites_removeInvite _ id hpl']
            exact (Function.update_of_ne hne ..).trans hnone
          have hleads₂ := hleads.trans (leads_removeInvite _ id gr.leaderGuid none)
          have hgrows₂ := hgrows.trans (grows_withdrawn hpl' id)
          have hcreate := (invites_create hgr₂ hslots hcounts gr.leaderGuid).and
            (leads_create hgr₂ hslots hcounts gr.leaderGuid)
          refine hcreate.bind fun w' hw' => ?_
          obtain ⟨hinv', hleads'⟩ := hw'
          rw [Invites.forget_of_none hnone₂] at hinv'
          have hid : id < w'.nextGroup := by
            have hgrows' : w.invites.Grows w'.invites := by
              rw [hinv']
              exact hgrows₂.trans (.settle _ id)
            exact (lt_nextGroup hw hgr).trans_le hgrows'.next
          have hord : Orderly w' := by
            refine h.of_leads (hinv' ▸ hsettled₂) ((hleads₂.mono _).trans hleads') ?_ fun id' heq => ?_
            · rw [hinv']
              exact hgrows₂.trans (.settle _ id)
            · obtain rfl : id = id' := Option.some.inj heq
              rw [hinv']
              exact ⟨hid, Function.update_self ..⟩
          have hactor' : w'.invites.invite actor = none := by
            rw [hinv']
            exact hactor
          exact .ok (orderly_addMember_getD hord hactor' hid)
      · have hpend : (w.removeInvite id actor).invites.pending id = none := by
          rw [pending_invites hgr₁]
          exact pending_of_created hslots
        have hord : Orderly (w.removeInvite id actor) := by
          refine h.of_none (hsettled.of_settle fun gr' hp => ?_) hleads hgrows
          rw [hpend] at hp
          cases hp
        have hcreated : gr.isCreated = true := by
          simpa [Group.isCreated] using List.length_pos_iff.mpr hslots
        split
        · exact .ok hord
        · exact .ok (orderly_addMember_getD hord hnone (lt_nextGroup hord.regular hgr₁))

/-! ## The other packets -/

/-- The steps on which both sides of the invitations are kept: an invitation to a group that is created
is not declined while its leader is connected, and nobody is added to the raid of a battleground while
he has an invitation. -/
def KeepsInvites (w : World) : Op → Prop
  | .decline actor =>
    ∀ id ∈ (w.player actor).bind Player.groupInvite, ∀ gr ∈ w.groups id,
      (w.player gr.leaderGuid).isSome → ¬ gr.isCreated
  | .joinBattleground guid side =>
    (w.player guid).bind Player.groupInvite = none ∨ (w.battleground guid).isSome ∨
      ∃ id ∈ w.bgRaid side, ∃ gr ∈ w.groups id, gr.isMember guid ∨ gr.freeSubGroup = none
  | _ => True

instance : DecidableRel KeepsInvites := fun w op => by
  cases op <;> unfold KeepsInvites <;> infer_instance

variable {actor : ℕ}

theorem orderly_handleGroupDecline (h : Orderly w) (hop : KeepsInvites w (.decline actor)) :
    Yields (w.handleGroupDecline actor) Orderly := by
  have hw := h.regular
  cases hinv : w.invites.invite actor with
  | none =>
    unfold handleGroupDecline
    rw [show (w.player actor).bind Player.groupInvite = none from hinv]
    exact .ok h
  | some id =>
    obtain ⟨pl, gr, hpl, hpinv, hgr, hmem⟩ := exists_of_invite hw.toSymmetric hinv
    unfold handleGroupDecline derefGroup
    rw [show (w.player actor).bind Player.groupInvite = some id from hinv]
    simp only [hgr]
    show Yields (if (w.player gr.leaderGuid).isNone then _ else _) _
    split
    · exact .ok h
    · next hleader =>
      have hcreated : ¬ gr.isCreated := by
        refine hop id hinv gr hgr ?_
        rw [Option.isSome_iff_ne_none]
        exact fun hnone => hleader (by rw [hnone]; rfl)
      have hinv' : (((w.cleared id).deleteGroup id).editPlayer actor fun pl =>
          { pl with groupInvite := none }).invites = w.invites.drop id := by
        rw [invites_setGroupInvite _ actor none (.inr rfl),
          invites_deleteGroup_cleared hw.toSymmetric hgr]
        have hforgot : (w.invites.drop id).invite actor = none := if_pos hinv
        exact Invites.forget_of_none hforgot
      have hleads := ((leads_cleared w id none).trans (leads_deleteGroup _ id none)).trans
        (leads_setGroupInvite _ actor none none)
      rw [if_neg hcreated, removeAllInvites_eq hw.toSymmetric hgr]
      refine .ok (h.of_none ?_ hleads ?_)
      · rw [hinv']
        exact hw.drop id
      · rw [hinv']
        exact .drop w.invites id

/-- A player who declines an invitation to a group that is created stays among the invited. -/
theorem keepsInvites_of_decline (hw : w.invites.Regular)
    (h : Yields (w.handleGroupDecline actor) fun w' => w'.invites.Symmetric) :
    KeepsInvites w (.decline actor) := by
  intro id hinv gr hgr hleader hcreated
  obtain ⟨pl, gr', hpl, -, hgr', hmem⟩ := exists_of_invite hw.toSymmetric hinv
  obtain rfl : gr = gr' := Option.some.inj (hgr.symm.trans hgr')
  unfold handleGroupDecline derefGroup at h
  rw [show (w.player actor).bind Player.groupInvite = some id from hinv] at h
  simp only [show w.groups id = some gr from hgr] at h
  obtain ⟨w', heq, hsymm⟩ := h
  replace heq : (if (w.player gr.leaderGuid).isNone then Except.ok w else do
      let w ← if gr.isCreated then .ok w else do
        let w ← w.removeAllInvites id
        .ok (w.deleteGroup id)
      .ok (w.editPlayer actor fun pl => { pl with groupInvite := none })) = Except.ok w' := heq
  have hsome : (w.player gr.leaderGuid).isNone = false := by
    rw [Option.isNone_eq_false_iff]
    exact hleader
  rw [hsome, if_neg (by decide), if_pos hcreated] at heq
  obtain rfl : w.editPlayer actor (fun pl => { pl with groupInvite := none }) = w' :=
    Except.ok.inj heq
  rw [invites_setGroupInvite _ actor none (.inr rfl)] at hsymm
  have hheld := (hsymm.invited (invitees_invites hgr') hmem).2
  simp only [Function.update_self, reduceCtorEq] at hheld

theorem getInvited_ok {l : List (ℕ × ℕ)} (h : ∀ e ∈ l, w.invites.serial e.1 = some e.2) (guid : ℕ) :
    Yields (w.getInvited guid l) fun _ => True := by
  induction l with
  | nil => exact .ok trivial
  | cons e l ih =>
    obtain ⟨pl, hpl, hserial⟩ := Option.map_eq_some_iff.mp (h e List.mem_cons_self)
    have hderef : w.derefPlayer e = .ok pl := by
      unfold derefPlayer
      rw [hpl]
      exact if_pos hserial
    unfold getInvited
    rw [hderef]
    show Yields (if e.1 = guid then _ else _) _
    split
    · exact .ok trivial
    · exact ih fun e' he' => h e' (List.mem_cons_of_mem _ he')

theorem orderly_uninviteInvited (hw : Orderly w) (hgr : w.groups id = some gr) (guid : ℕ) :
    Yields (w.uninviteInvited id guid) Orderly := by
  have hlive : ∀ e ∈ gr.invitees, w.invites.serial e.1 = some e.2 := fun e he =>
    (hw.regular.invited (invitees_invites hgr) he).1
  unfold uninviteInvited derefGroup
  simp only [hgr]
  refine (getInvited_ok hlive guid).bind fun found _ => ?_
  cases found with
  | none => exact .ok hw
  | some guid => exact (orderly_uninviteFromGroup hw guid).mono fun _ h => h.1

theorem exists_of_groupOf (h : w.groupOf pl = some id) : ∃ gr, w.groups id = some gr := by
  obtain ⟨r, hr, rfl⟩ := Option.map_eq_some_iff.mp h
  exact (live_spec hr).2

theorem exists_of_ownGroupOf (h : w.ownGroupOf pl = some id) : ∃ gr, w.groups id = some gr := by
  unfold ownGroupOf at h
  split at h
  · cases h
  · next id' hid' =>
    split at h
    · obtain ⟨r, hr, rfl⟩ := Option.map_eq_some_iff.mp h
      exact (live_spec hr).2
    · cases h
      exact exists_of_groupOf hid'

theorem exists_of_canUninvite (h : w.canUninviteFromGroup actor = some id) :
    ∃ gr, w.groups id = some gr := by
  obtain ⟨pl, -, hpl⟩ := Option.bind_eq_some_iff.mp h
  exact exists_of_groupOf (Option.filter_eq_some_iff.mp hpl).1

theorem pending_of_ownGroupOf (hw : Orderly w) (hpl : w.player actor = some pl)
    (h : w.ownGroupOf pl = some id) : w.invites.pending id = none := by
  refine (hw.known id (.inl ⟨actor, pl, hpl, ?_⟩)).2
  unfold ownGroupOf groupOf at h
  split at h
  · cases h
  · next id' hid' =>
    split at h
    · obtain ⟨r, hr, rfl⟩ := Option.map_eq_some_iff.mp h
      exact refers_live (.inr hr)
    · cases h
      obtain ⟨r, hr, rfl⟩ := Option.map_eq_some_iff.mp hid'
      exact refers_live (.inl hr)

theorem orderly_handleGroupInvite (hw : Orderly w) (actor guid : ℕ) :
    Yields (w.handleGroupInvite actor guid) Orderly := by
  unfold handleGroupInvite
  split
  · next inviter player hinviter hplayer =>
    split
    · exact .ok hw
    · split
      · exact .ok hw
      · split
        · exact orderly_startGroup hw actor guid
        · next id hid =>
          obtain ⟨gr, hgr⟩ := exists_of_ownGroupOf hid
          unfold derefGroup
          simp only [hgr]
          show Yields (if !gr.isLeader actor && !gr.isAssistant actor then _ else _) _
          split
          · exact .ok hw
          · next hlead =>
            split
            · exact .ok hw
            · refine .ok ?_
              cases hadd : w.addInvite id guid with
              | none => exact hw
              | some w' =>
                obtain ⟨s, hs, hnone, hinv⟩ := invites_addInvite hw.regular.toSymmetric hadd
                have hpend := pending_of_ownGroupOf hw hinviter hid
                refine hw.of_none ?_ (leads_addInvite hadd none) ?_
                · rw [Option.getD_some, hinv]
                  exact hw.regular.offer hs hnone (invitees_invites hgr) hpend
                · rw [Option.getD_some, hinv]
                  exact .offer w.invites id guid s
  · exact .ok hw

end World

end Sunstrider.Groups
