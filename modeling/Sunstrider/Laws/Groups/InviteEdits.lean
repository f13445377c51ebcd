import Sunstrider.Laws.Groups.Invites

/-!
# What each function does to the invitations

`World.invites` reads the two sides of the invitations off a world. Here is what the functions of
`Group.cpp` make of it, one equation for each.
-/

namespace Sunstrider.Groups

/-- A group that is not created, apart from whom it has invited. -/
def Group.pending (gr : Group) : Option Group :=
  if gr.memberSlots = [] then some { gr with invitees := [] } else none

namespace World

/-- What a world says about invitations. -/
def invites (w : World) : Invites where
  serial guid := (w.player guid).map Player.serial
  invite guid := (w.player guid).bind Player.groupInvite
  invitees id := (w.groups id).map Group.invitees
  pending id := (w.groups id).bind Group.pending
  bgGroup id := (w.groups id).map Group.bgGroup
  bgRaid := w.bgRaid
  nextGroup := w.nextGroup

variable {w : World} {id guid : ℕ}

/-! ## Edits -/

theorem player_editPlayer (w : World) (guid : ℕ) (f : Player → Player) (guid' : ℕ) :
    (w.editPlayer guid f).player guid' =
      if guid' = guid then (w.player guid).map f else w.player guid' := by
  unfold editPlayer
  cases hpl : w.player guid with
  | none =>
    show w.player guid' = _
    split
    · next heq => rw [heq, hpl, Option.map_none]
    · rfl
  | some pl => exact Lib.lookup_insert_ite w.players guid guid' (f pl)

@[simp] theorem groups_editPlayer (w : World) (guid : ℕ) (f : Player → Player) :
    (w.editPlayer guid f).groups = w.groups := by
  unfold editPlayer
  split <;> rfl

@[simp] theorem nextGroup_editPlayer (w : World) (guid : ℕ) (f : Player → Player) :
    (w.editPlayer guid f).nextGroup = w.nextGroup := by
  unfold editPlayer
  split <;> rfl

@[simp] theorem bgRaid_editPlayer (w : World) (guid : ℕ) (f : Player → Player) :
    (w.editPlayer guid f).bgRaid = w.bgRaid := by
  unfold editPlayer
  split <;> rfl

@[simp] theorem player_editGroup (w : World) (id : ℕ) (f : Group → Group) (guid : ℕ) :
    (w.editGroup id f).player guid = w.player guid := rfl

theorem groups_editGroup (w : World) (id : ℕ) (f : Group → Group) (id' : ℕ) :
    (w.editGroup id f).groups id' =
      if id' = id then (w.groups id).map f else w.groups id' := by
  show Function.update w.groups id _ id' = _
  rw [Function.update_apply]

variable {f : Group → Group}

theorem map_editGroup {α : Type} {part : Group → α}
    (hf : ∀ gr, w.groups id = some gr → part (f gr) = part gr) (id' : ℕ) :
    ((w.editGroup id f).groups id').map part = (w.groups id').map part := by
  rw [groups_editGroup]
  split
  · next heq =>
    rw [heq]
    cases hgr : w.groups id with
    | none => rfl
    | some gr => exact congrArg some (hf gr hgr)
  · rfl

theorem map_serial_editPlayer {f : Player → Player} (hserial : ∀ pl, (f pl).serial = pl.serial)
    (guid' : ℕ) : ((w.editPlayer guid f).player guid').map Player.serial =
      (w.player guid').map Player.serial := by
  rw [player_editPlayer]
  split
  · next heq =>
    rw [heq, Option.map_map]
    exact congrArg (fun f => Option.map f (w.player guid)) (funext hserial)
  · rfl

/-- An edit of a player that keeps his serial and invitation keeps the invitations. -/
theorem invites_editPlayer {f : Player → Player} (hserial : ∀ pl, (f pl).serial = pl.serial)
    (hinvite : ∀ pl, (f pl).groupInvite = pl.groupInvite) :
    (w.editPlayer guid f).invites = w.invites := by
  have hi : ∀ guid', ((w.editPlayer guid f).player guid').bind Player.groupInvite =
      (w.player guid').bind Player.groupInvite := fun guid' => by
    rw [player_editPlayer]
    split
    · next heq =>
      rw [heq]
      cases w.player guid with
      | none => rfl
      | some pl => exact hinvite pl
    · rfl
  simp [invites, groups_editPlayer, bgRaid_editPlayer, nextGroup_editPlayer,
    map_serial_editPlayer hserial, hi]

theorem invites_editInvite {f : Player → Player} (invite : Option ℕ)
    (hserial : ∀ pl, (f pl).serial = pl.serial) (hinvite : ∀ pl, (f pl).groupInvite = invite)
    (hpl : (w.player guid).isSome ∨ invite = none) :
    (w.editPlayer guid f).invites =
      { w.invites with invite := Function.update w.invites.invite guid invite } := by
  have hi : (fun guid' => ((w.editPlayer guid f).player guid').bind Player.groupInvite) =
      Function.update w.invites.invite guid invite := funext fun guid' => by
    rw [player_editPlayer, Function.update_apply]
    split
    · next heq =>
      cases hguid : w.player guid with
      | none =>
        rcases hpl with hpl | rfl
        · rw [hguid] at hpl
          cases hpl
        · rfl
      | some pl => exact hinvite pl
    · rfl
  simp only [invites, groups_editPlayer, bgRaid_editPlayer, nextGroup_editPlayer,
    map_serial_editPlayer hserial] at hi ⊢
  rw [hi]

theorem invites_setGroupInvite (w : World) (guid : ℕ) (invite : Option ℕ)
    (hpl : (w.player guid).isSome ∨ invite = none) :
    (w.editPlayer guid fun pl => { pl with groupInvite := invite }).invites =
      { w.invites with invite := Function.update w.invites.invite guid invite } :=
  invites_editInvite invite (fun _ => rfl) (fun _ => rfl) hpl

theorem invites_editPending
    (hf : ∀ gr, w.groups id = some gr → (f gr).invitees = gr.invitees ∧ (f gr).bgGroup = gr.bgGroup)
    :
    (w.editGroup id f).invites =
      { w.invites with
        pending :=
          Function.update w.invites.pending id (((w.groups id).map f).bind Group.pending) } := by
  have hi := map_editGroup fun gr hgr => (hf gr hgr).1
  have hb := map_editGroup fun gr hgr => (hf gr hgr).2
  have hp : (fun id' => ((w.editGroup id f).groups id').bind Group.pending) =
      Function.update w.invites.pending id (((w.groups id).map f).bind Group.pending) :=
    funext fun id' => by
      rw [groups_editGroup, Function.update_apply]
      split <;> rfl
  simp only [invites, player_editGroup, hi, hb] at hp ⊢
  rw [hp]
  rfl

/-- An edit of a group that keeps what the invitations see of it keeps the invitations. -/
theorem invites_editGroup (hf : ∀ gr, w.groups id = some gr →
      (f gr).invitees = gr.invitees ∧ (f gr).bgGroup = gr.bgGroup ∧ (f gr).pending = gr.pending) :
    (w.editGroup id f).invites = w.invites := by
  have hsame : ((w.groups id).map f).bind Group.pending = w.invites.pending id := by
    cases hgr : w.groups id with
    | none => exact (congrArg (Option.bind · Group.pending) hgr).symm
    | some gr => exact (hf gr hgr).2.2.trans (congrArg (Option.bind · Group.pending) hgr).symm
  rw [invites_editPending fun gr hgr => ⟨(hf gr hgr).1, (hf gr hgr).2.1⟩, hsame,
    Function.update_eq_self]

theorem invites_setInvitees (w : World) (id : ℕ) (g : List (ℕ × ℕ) → List (ℕ × ℕ)) :
    (w.editGroup id fun gr => { gr with invitees := g gr.invitees }).invites =
      { w.invites with
        invitees := Function.update w.invites.invitees id ((w.invites.invitees id).map g) } := by
  have hi : (fun id' => ((w.editGroup id fun gr => { gr with invitees := g gr.invitees }).groups id').map
      Group.invitees) = Function.update w.invites.invitees id ((w.invites.invitees id).map g) :=
    funext fun id' => by
      rw [groups_editGroup, Function.update_apply]
      split
      · show ((w.groups id).map _).map Group.invitees = ((w.groups id).map Group.invitees).map g
        rw [Option.map_map, Option.map_map]
        rfl
      · rfl
  have hp : ∀ id', ((w.editGroup id fun gr => { gr with invitees := g gr.invitees }).groups id').bind
      Group.pending = (w.groups id').bind Group.pending := fun id' => by
    rw [groups_editGroup]
    split
    · next heq =>
      rw [heq]
      cases w.groups id with
      | none => rfl
      | some gr => rfl
    · rfl
  have hb : ∀ id', ((w.editGroup id fun gr => { gr with invitees := g gr.invitees }).groups id').map
      Group.bgGroup = (w.groups id').map Group.bgGroup := map_editGroup fun gr _ => rfl
  simp only [invites, player_editGroup, hp, hb] at hi ⊢
  rw [hi]
  rfl

/-! ## Single invitations -/

variable {pl : Player}

theorem serial_invites (hpl : w.player guid = some pl) :
    w.invites.serial guid = some pl.serial := congrArg (Option.map Player.serial) hpl

theorem invite_invites (hpl : w.player guid = some pl) :
    w.invites.invite guid = pl.groupInvite := congrArg (Option.bind · Player.groupInvite) hpl

variable {gr : Group}

theorem invitees_invites (hgr : w.groups id = some gr) :
    w.invites.invitees id = some gr.invitees := congrArg (Option.map Group.invitees) hgr

/-- `RemoveInvite` withdraws both sides. -/
theorem invites_removeInvite (w : World) (id : ℕ) (hpl : w.player guid = some pl) :
    (w.removeInvite id guid).invites = w.invites.withdraw id guid pl.serial := by
  unfold removeInvite
  rw [hpl]
  rw [invites_setGroupInvite _ guid none (.inr rfl),
    invites_setInvitees w id fun l => l.erase (guid, pl.serial)]
  rfl

theorem player_removeInvite (w : World) (id guid : ℕ) (hpl : w.player guid = some pl) :
    (w.removeInvite id guid).player guid = some { pl with groupInvite := none } := by
  unfold removeInvite
  rw [hpl]
  rw [player_editPlayer, if_pos rfl, player_editGroup, hpl, Option.map_some]

variable {w' : World}

/-- `AddInvite` offers the group to a player who has no invitation and no group. -/
theorem addInvite_spec (h : w.addInvite id guid = some w') :
    ∃ pl, w.player guid = some pl ∧ pl.groupInvite = none ∧ w.ownGroupOf pl = none ∧
      w' = ((w.removeInvite id guid).editGroup id fun gr =>
        { gr with invitees := (guid, pl.serial) :: gr.invitees }).editPlayer guid fun pl =>
          { pl with groupInvite := some id } := by
  unfold addInvite at h
  cases hpl : w.player guid with
  | none =>
    rw [hpl] at h
    cases h
  | some pl =>
    simp only [hpl] at h
    split at h
    · cases h
    · next hinv =>
      split at h
      · cases h
      · next hown =>
        refine ⟨pl, rfl, ?_, ?_, (Option.some.inj h).symm⟩
        · exact Option.not_isSome_iff_eq_none.mp hinv
        · exact Option.not_isSome_iff_eq_none.mp hown

/-- `AddInvite` offers both sides, to who has no invitation. -/
theorem invites_addInvite (hw : w.invites.Symmetric) (h : w.addInvite id guid = some w') :
    ∃ s, w.invites.serial guid = some s ∧
      w.invites.invite guid = none ∧ w'.invites = w.invites.offer id guid s := by
  obtain ⟨pl, hpl, hinv, -, rfl⟩ := addInvite_spec h
  have hnone : w.invites.invite guid = none := (invite_invites hpl).trans hinv
  refine ⟨pl.serial, serial_invites hpl, hnone, ?_⟩
  have hplayer := player_removeInvite w id guid hpl
  rw [invites_setGroupInvite _ guid (some id) (.inl (by rw [player_editGroup, hplayer]; rfl)),
    invites_setInvitees _ id fun l => (guid, pl.serial) :: l, invites_removeInvite w id hpl,
    hw.withdraw_of_none hnone]
  rfl

/-! ## All invitations to a group -/

/-- The loop of `RemoveAllInvites`, where every pointer can be followed. -/
def forgetAll (w : World) (l : List (ℕ × ℕ)) : World :=
  l.foldl (fun w e => w.editPlayer e.1 fun pl => { pl with groupInvite := none }) w

/-- An invitee who is connected forgets his invitation. -/
theorem uninvite_eq {e : ℕ × ℕ} (hs : w.invites.serial e.1 = some e.2) :
    w.uninvite e = .ok (w.editPlayer e.1 fun pl => { pl with groupInvite := none }) := by
  obtain ⟨pl, hpl, hserial⟩ := Option.map_eq_some_iff.mp hs
  unfold uninvite derefPlayer
  rw [hpl]
  simp only [hserial, if_true]
  rfl

theorem foldlM_uninvite {l : List (ℕ × ℕ)} (h : ∀ e ∈ l, w.invites.serial e.1 = some e.2) :
    l.foldlM uninvite w = .ok (w.forgetAll l) := by
  induction l generalizing w with
  | nil => rfl
  | cons e l ih =>
    rw [List.foldlM_cons, uninvite_eq (h e List.mem_cons_self)]
    refine ih fun e' he' => ?_
    rw [invites_setGroupInvite _ e.1 none (.inr rfl)]
    exact h e' (List.mem_cons_of_mem _ he')

theorem invites_forgetAll (w : World) (l : List (ℕ × ℕ)) :
    (w.forgetAll l).invites =
      { w.invites with
        invite := fun guid => if guid ∈ l.map Prod.fst then none else w.invites.invite guid } := by
  induction l generalizing w with
  | nil => simp only [forgetAll, List.foldl_nil, List.map_nil, List.not_mem_nil, if_false]
  | cons e l ih =>
    have hstep : w.forgetAll (e :: l) =
        (w.editPlayer e.1 fun pl => { pl with groupInvite := none }).forgetAll l := rfl
    rw [hstep, ih, invites_setGroupInvite _ e.1 none (.inr rfl)]
    refine congrArg (fun f => { w.invites with invite := f }) (funext fun guid => ?_)
    by_cases hl : guid ∈ l.map Prod.fst
    · simp [hl]
    · by_cases he : guid = e.1
      · simp [he]
      · simp [hl, he]

/-- A world whose group has withdrawn its invitations. -/
def cleared (w : World) (id : ℕ) : World :=
  (w.forgetAll (((w.groups id).map Group.invitees).getD [])).editGroup id fun gr =>
    { gr with invitees := [] }

/-- `RemoveAllInvites` follows no dead pointer. -/
theorem removeAllInvites_eq (hw : w.invites.Symmetric) (hgr : w.groups id = some gr) :
    w.removeAllInvites id = .ok (w.cleared id) := by
  have hlive : ∀ e ∈ gr.invitees, w.invites.serial e.1 = some e.2 := fun e he =>
    (hw.invited (invitees_invites hgr) he).1
  unfold removeAllInvites derefGroup cleared
  rw [hgr]
  show (gr.invitees.foldlM uninvite w >>= _) = _
  rw [foldlM_uninvite hlive]
  rfl

/-- `RemoveAllInvites` clears the group's side and its invitees' sides. -/
theorem invites_cleared (hw : w.invites.Symmetric) (hgr : w.groups id = some gr) :
    (w.cleared id).invites = w.invites.clear id := by
  have hmem : ∀ guid, guid ∈ gr.invitees.map Prod.fst ↔ w.invites.invite guid = some id := by
    intro guid
    constructor
    · intro h
      obtain ⟨e, he, rfl⟩ := List.mem_map.mp h
      exact (hw.invited (invitees_invites hgr) he).2
    · intro h
      obtain ⟨l, s, hl, -, he⟩ := hw.held h
      rw [invitees_invites hgr] at hl
      cases hl
      exact List.mem_map.mpr ⟨_, he, rfl⟩
  unfold cleared
  rw [invites_setInvitees _ id fun _ => [], invites_forgetAll, hgr]
  simp only [Option.map_some, Option.getD_some, hmem]
  rfl

/-- A group that is deleted takes its own side with it, and leaves the players theirs. -/
theorem invites_deleteGroup (w : World) (id : ℕ) :
    (w.deleteGroup id).invites =
      { w.invites with
        invitees := Function.update w.invites.invitees id none
        pending := Function.update w.invites.pending id none
        bgGroup := Function.update w.invites.bgGroup id none
        bgRaid := fun side =>
          if (w.invites.bgGroup id).any Option.isSome ∧ w.invites.bgRaid side = some id then none
          else w.invites.bgRaid side } := by
  have hread : ∀ {α : Type} (part : Group → Option α), (fun id' => ((w.deleteGroup id).groups id').bind
      part) = Function.update (fun id' => (w.groups id').bind part) id none := fun part =>
    funext fun id' => by
      show (Function.update w.groups id none id').bind part = _
      rw [Function.update_apply, Function.update_apply]
      split <;> rfl
  have hmap : ∀ {α : Type} (part : Group → α), (fun id' => ((w.deleteGroup id).groups id').map part) =
      Function.update (fun id' => (w.groups id').map part) id none := fun part => by
    simp only [Option.map_eq_bind]
    exact hread _
  have hbg : (w.invites.bgGroup id).any Option.isSome = w.isBGGroup id := by
    show ((w.groups id).map Group.bgGroup).any Option.isSome = (w.groups id).any Group.isBGGroup
    rw [Option.any_map]
    rfl
  rw [hbg]
  simp only [invites, hmap, hread]
  rfl

theorem invites_deleteGroup_cleared (hw : w.invites.Symmetric) (hgr : w.groups id = some gr) :
    ((w.cleared id).deleteGroup id).invites = w.invites.drop id := by
  rw [invites_deleteGroup, invites_cleared hw hgr]
  simp only [Invites.clear, Invites.drop, Function.update_idem]
  rfl

/-! ## Members -/

theorem pending_of_created (h : gr.memberSlots ≠ []) : gr.pending = none := if_neg h

theorem invites_settle (hf : ∀ gr, (f gr).invitees = gr.invitees ∧ (f gr).bgGroup = gr.bgGroup)
    (hslots : ∀ gr, (f gr).memberSlots ≠ []) :
    (w.editGroup id f).invites = w.invites.settle id := by
  have hnone : ((w.groups id).map f).bind Group.pending = none := by
    cases w.groups id with
    | none => rfl
    | some gr => exact pending_of_created (hslots gr)
  rw [invites_editPending fun gr _ => hf gr, hnone]
  rfl

theorem invites_editMembers (hf : ∀ gr, w.groups id = some gr →
      (f gr).invitees = gr.invitees ∧ (f gr).bgGroup = gr.bgGroup ∧
        gr.memberSlots ≠ [] ∧ (f gr).memberSlots ≠ []) :
    (w.editGroup id f).invites = w.invites := by
  refine invites_editGroup fun gr hgr => ?_
  obtain ⟨hi, hb, hbefore, hafter⟩ := hf gr hgr
  exact ⟨hi, hb, by rw [pending_of_created hbefore, pending_of_created hafter]⟩

@[simp] theorem serial_joinedBy (w : World) (id subGroup : ℕ) (isBG : Bool) (pl : Player) :
    (w.joinedBy id subGroup isBG pl).serial = pl.serial := by
  unfold joinedBy
  simp only
  split
  · split <;> rfl
  · rfl

@[simp] theorem groupInvite_joinedBy (w : World) (id subGroup : ℕ) (isBG : Bool) (pl : Player) :
    (w.joinedBy id subGroup isBG pl).groupInvite = none := by
  unfold joinedBy
  simp only
  split
  · split <;> rfl
  · rfl

theorem invites_insertRow (w : World) (id guid : ℕ) : (w.insertRow id guid).invites = w.invites := by
  unfold insertRow
  split <;> rfl

/-- Who becomes a member forgets his invitation, and the group is created. -/
theorem invites_addToSubGroup (w : World) (id guid subGroup : ℕ) (isBG : Bool) :
    (w.addToSubGroup id guid subGroup isBG).invites = (w.invites.forget guid).settle id := by
  have hpush : (w.editGroup id fun gr => gr.pushSlot guid subGroup).invites =
      w.invites.settle id :=
    invites_settle (fun gr => ⟨rfl, rfl⟩) fun gr => by
      simp [Group.pushSlot, Group.subGroupCounterIncrease]
  have hedit : ((w.editGroup id fun gr => gr.pushSlot guid subGroup).editPlayer guid
      (w.joinedBy id subGroup isBG)).invites = (w.invites.forget guid).settle id := by
    rw [invites_editInvite none (serial_joinedBy w id subGroup isBG)
      (groupInvite_joinedBy w id subGroup isBG) (.inr rfl), hpush]
    rfl
  unfold addToSubGroup
  split
  · exact hedit
  · rw [invites_insertRow, hedit]

theorem addMember_spec (h : w.addMember id guid = some w') :
    ∃ gr subGroup, w.groups id = some gr ∧ gr.freeSubGroup = some subGroup ∧
      w' = w.addToSubGroup id guid subGroup gr.isBGGroup := by
  unfold addMember at h
  cases hgr : w.groups id with
  | none =>
    rw [hgr] at h
    cases h
  | some gr =>
    rw [hgr] at h
    obtain ⟨subGroup, hfree, rfl⟩ := Option.map_eq_some_iff.mp h
    exact ⟨gr, subGroup, rfl, hfree, rfl⟩

theorem invites_addMember (h : w.addMember id guid = some w') :
    w'.invites = (w.invites.forget guid).settle id := by
  obtain ⟨gr, subGroup, -, -, rfl⟩ := addMember_spec h
  exact invites_addToSubGroup w id guid subGroup gr.isBGGroup

theorem invites_changeLeader (w : World) (id guid : ℕ) :
    (w.changeLeader id guid).invites = w.invites := by
  unfold changeLeader
  split
  · refine invites_editGroup fun gr _ => ?_
    split
    · next hmem =>
      have hslots : gr.memberSlots ≠ [] := by
        intro hnil
        simp [Group.isMember, Group.slotOf, hnil] at hmem
      refine ⟨rfl, rfl, ?_⟩
      rw [pending_of_created hslots]
      exact pending_of_created (by simpa [Group.editSlot] using hslots)
    · exact ⟨rfl, rfl, rfl⟩
  · rfl

theorem invites_pickLeader (w : World) (id guid : ℕ) :
    (w.pickLeader id guid).invites = w.invites := by
  unfold pickLeader
  split
  · rfl
  · split
    · split
      · rfl
      · exact invites_changeLeader w id _
    · rfl

@[simp] theorem serial_leftBy (w : World) (id : ℕ) (isBG : Bool) (pl : Player) :
    (w.leftBy id isBG pl).serial = pl.serial := by
  unfold leftBy
  split
  · rfl
  · split <;> rfl

@[simp] theorem groupInvite_leftBy (w : World) (id : ℕ) (isBG : Bool) (pl : Player) :
    (w.leftBy id isBG pl).groupInvite = pl.groupInvite := by
  unfold leftBy
  split
  · rfl
  · split <;> rfl

theorem delinked_same (id : ℕ) (pl : Player) :
    (delinked id pl).serial = pl.serial ∧ (delinked id pl).groupInvite = pl.groupInvite := by
  unfold delinked
  split
  · exact ⟨rfl, rfl⟩
  · split <;> exact ⟨rfl, rfl⟩

theorem length_eraseSlot (gr : Group) (guid : ℕ) :
    gr.memberSlots.length ≤ (gr.eraseSlot guid).memberSlots.length + 1 := by
  unfold Group.eraseSlot
  split
  · exact Nat.le_succ _
  · show _ ≤ (gr.memberSlots.eraseP _).length + 1
    rw [List.length_eraseP]
    split <;> omega

theorem eraseSlot_same (gr : Group) (guid : ℕ) :
    (gr.eraseSlot guid).invitees = gr.invitees ∧ (gr.eraseSlot guid).bgGroup = gr.bgGroup := by
  unfold Group.eraseSlot
  split <;> exact ⟨rfl, rfl⟩

theorem invites_withoutMember (isBG : Bool) (hgr : w.groups id = some gr)
    (hlen : 1 < gr.memberSlots.length) (guid : ℕ) :
    (w.withoutMember id guid isBG).invites = w.invites := by
  unfold withoutMember
  rw [invites_pickLeader]
  have hleft : (w.editPlayer guid (w.leftBy id isBG)).invites = w.invites :=
    invites_editPlayer (serial_leftBy w id isBG) (groupInvite_leftBy w id isBG)
  have herase : ∀ w' : World, w'.groups = w.groups →
      (w'.editGroup id fun gr =>
        { gr.eraseSlot guid with rolls := gr.rolls.removeMember guid }).invites = w'.invites := by
    intro w' hsame
    refine invites_editMembers fun gr' hgr' => ?_
    rw [hsame, hgr] at hgr'
    cases hgr'
    obtain ⟨hi, hb⟩ := eraseSlot_same gr guid
    refine ⟨hi, hb, fun hnil => by simp [hnil] at hlen, fun hnil => ?_⟩
    have hle := length_eraseSlot gr guid
    rw [show (gr.eraseSlot guid).memberSlots = [] from hnil, List.length_nil] at hle
    omega
  split
  · rw [herase _ (groups_editPlayer w guid _), hleft]
  · rw [herase, invites_editPlayer (fun pl => (delinked_same id pl).1) fun pl => (delinked_same id pl).2]
    · exact hleft
    · rw [groups_editPlayer]
      exact groups_editPlayer w guid _

/-! ## Disbanding -/

/-- The loop of `Disband`, and the slots that it clears. -/
def unlinkAll (w : World) (id : ℕ) (gr : Group) : World :=
  (gr.memberSlots.foldl (fun w m => w.editPlayer m.guid (w.leftBy id gr.isBGGroup)) w).editGroup id
    fun gr => { gr with memberSlots := [] }

/-- `Disband`, where every pointer to an invited player can be followed. -/
def disbanded (w : World) (id : ℕ) (gr : Group) : World :=
  let w := (w.unlinkAll id gr).cleared id
  let w := if gr.isBGGroup then w else
    { w with
      groupMember := fun guid => if w.groupMember guid = some id then none else w.groupMember guid }
  w.deleteGroup id

theorem groups_unlinkLoop (w : World) (id : ℕ) (isBG : Bool) (l : List MemberSlot) :
    (l.foldl (fun w m => w.editPlayer m.guid (w.leftBy id isBG)) w).groups = w.groups := by
  induction l generalizing w with
  | nil => rfl
  | cons m l ih => exact (ih _).trans (groups_editPlayer w m.guid _)

theorem invites_unlinkLoop (w : World) (id : ℕ) (isBG : Bool) (l : List MemberSlot) :
    (l.foldl (fun w m => w.editPlayer m.guid (w.leftBy id isBG)) w).invites = w.invites := by
  induction l generalizing w with
  | nil => rfl
  | cons m l ih =>
    refine (ih _).trans ?_
    exact invites_editPlayer (serial_leftBy w id isBG) (groupInvite_leftBy w id isBG)

theorem groups_unlinkAll (hgr : w.groups id = some gr) :
    (w.unlinkAll id gr).groups id = some { gr with memberSlots := [] } := by
  unfold unlinkAll
  rw [groups_editGroup, if_pos rfl, groups_unlinkLoop, hgr, Option.map_some]

/-- Unlinking the members of a group leaves every invitation. -/
theorem invites_unlinkAll (w : World) (id : ℕ) (gr : Group) :
    ∃ gr', (w.unlinkAll id gr).invites =
      { w.invites with pending := Function.update w.invites.pending id gr' } := by
  have hloop := invites_unlinkLoop w id gr.isBGGroup gr.memberSlots
  unfold unlinkAll
  rw [invites_editPending (f := fun gr => { gr with memberSlots := [] }) fun _ _ => ⟨rfl, rfl⟩, hloop]
  exact ⟨_, rfl⟩

theorem disband_eq (hw : w.invites.Symmetric) (hgr : w.groups id = some gr) :
    w.disband id = .ok (w.disbanded id gr) := by
  obtain ⟨gr', hinv⟩ := invites_unlinkAll w id gr
  have hsymm : (w.unlinkAll id gr).invites.Symmetric := by
    rw [hinv]
    exact ⟨hw.invited, hw.held⟩
  unfold disband derefGroup disbanded
  rw [hgr]
  show (w.unlinkAll id gr).removeAllInvites id >>= _ = _
  rw [removeAllInvites_eq hsymm (groups_unlinkAll hgr)]
  rfl

/-- A group that is disbanded is dropped with its invitations. -/
theorem invites_disbanded (hw : w.invites.Symmetric) (hgr : w.groups id = some gr) :
    (w.disbanded id gr).invites = w.invites.drop id := by
  obtain ⟨gr', hinv⟩ := invites_unlinkAll w id gr
  have hsymm : (w.unlinkAll id gr).invites.Symmetric := by
    rw [hinv]
    exact ⟨hw.invited, hw.held⟩
  have hrows : ∀ w' : World, ∀ rows,
      ({ w' with groupMember := rows }.deleteGroup id).invites = (w'.deleteGroup id).invites :=
    fun w' rows => by rw [invites_deleteGroup, invites_deleteGroup]; rfl
  have hdrop : (((w.unlinkAll id gr).cleared id).deleteGroup id).invites = w.invites.drop id := by
    rw [invites_deleteGroup_cleared hsymm (groups_unlinkAll hgr), hinv]
    simp only [Invites.drop, Function.update_idem]
  unfold disbanded
  split
  · exact hdrop
  · rw [hrows, hdrop]

theorem pending_invites (hgr : w.groups id = some gr) :
    w.invites.pending id = gr.pending := congrArg (Option.bind · Group.pending) hgr

end World

end Sunstrider.Groups
