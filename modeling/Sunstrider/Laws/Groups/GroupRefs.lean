import Sunstrider.Laws.Groups.InviteEdits

/-!
# Groups that something leads to

Besides the invitations, players, rows of the table and battlegrounds lead to groups. No function makes
them lead to a group that is not created, which is what keeps a third player from being invited to one.
-/

namespace Sunstrider.Groups

namespace World

variable {w : World} {id guid : ℕ}

/-- A live reference is one to a group that exists. -/
theorem live_spec {ref : Option GroupReference} {r : GroupReference} (h : w.live ref = some r) :
    ref = some r ∧ ∃ gr, w.groups r.target = some gr := by
  obtain ⟨hr, hlive⟩ := Option.filter_eq_some_iff.mp h
  exact ⟨hr, Option.isSome_iff_exists.mp hlive⟩

/-! ## Groups that are referred to -/

/-- One of the two references of a player goes to the group. -/
def Refers (pl : Player) (id : ℕ) : Prop :=
  (∃ r, pl.group = some r ∧ r.target = id) ∨ ∃ r, pl.originalGroup = some r ∧ r.target = id

/-- Something other than an invitation leads to the group: a player, a row of the table, or a
battleground. -/
def Named (w : World) (id : ℕ) : Prop :=
  (∃ guid pl, w.player guid = some pl ∧ Refers pl id) ∨ (∃ guid, w.groupMember guid = some id) ∨
    ∃ side, w.bgRaid side = some id

/-- No group that is not created is referred to. -/
def Known (w : World) : Prop := ∀ id, Named w id → id < w.nextGroup ∧ w.invites.pending id = none

/-- The references, rows and raids after a change lead to groups they led to before, or to `new`. -/
def Leads (w w' : World) (new : Option ℕ) : Prop := ∀ id, Named w' id → Named w id ∨ new = some id

theorem Leads.refl (w : World) (new : Option ℕ) : Leads w w new := fun _ h => .inl h

variable {w' : World} {new : Option ℕ}

theorem Leads.trans {w w'' : World} (h : Leads w w' new) (h' : Leads w' w'' new) :
    Leads w w'' new := by
  intro id hid
  rcases h' id hid with hid | heq
  · exact h id hid
  · exact .inr heq

theorem Leads.mono {w : World} (h : Leads w w' none) (new : Option ℕ) : Leads w w' new := by
  intro id hid
  rcases h id hid with hid | heq
  · exact .inl hid
  · cases heq

/-- The invitations are as they should be, and so are the groups they have to do with. -/
structure Orderly (w : World) : Prop where
  regular : w.invites.Regular
  known : Known w

/-- Order is kept where invitations stay regular, and nothing new leads to a group that is not
created. -/
theorem Orderly.of_leads (h : Orderly w) (hreg : w'.invites.Regular) (hleads : Leads w w' new)
    (hgrows : w.invites.Grows w'.invites)
    (hnew : ∀ id, new = some id → id < w'.nextGroup ∧ w'.invites.pending id = none) :
    Orderly w' := by
  refine ⟨hreg, fun id hid => ?_⟩
  rcases hleads id hid with hid | heq
  · obtain ⟨hlt, hpend⟩ := h.known id hid
    exact ⟨lt_of_lt_of_le hlt hgrows.next, hgrows.created hlt hpend⟩
  · exact hnew id heq

theorem Orderly.of_none (h : Orderly w) (hreg : w'.invites.Regular) (hleads : Leads w w' none)
    (hgrows : w.invites.Grows w'.invites) : Orderly w' :=
  h.of_leads hreg hleads hgrows fun _ heq => by cases heq

theorem Orderly.of_same (h : Orderly w) (hinv : w'.invites = w.invites) (hleads : Leads w w' none) :
    Orderly w' :=
  h.of_none (hinv ▸ h.regular) hleads (hinv ▸ .refl _)

@[simp] theorem groupMember_editPlayer (w : World) (guid : ℕ) (f : Player → Player) :
    (w.editPlayer guid f).groupMember = w.groupMember := by
  unfold editPlayer
  split <;> rfl

theorem leads_editPlayer {f : Player → Player}
    (hf : ∀ pl id, Refers (f pl) id → Refers pl id ∨ new = some id) :
    Leads w (w.editPlayer guid f) new := by
  rintro id (⟨guid', pl, hpl, href⟩ | hrow | hraid)
  · rw [player_editPlayer] at hpl
    split at hpl
    · next heq =>
      obtain ⟨pl', hpl', rfl⟩ := Option.map_eq_some_iff.mp hpl
      rcases hf pl' id href with href | heq
      · exact .inl (.inl ⟨guid, pl', hpl', href⟩)
      · exact .inr heq
    · exact .inl (.inl ⟨guid', pl, hpl, href⟩)
  · rw [groupMember_editPlayer] at hrow
    exact .inl (.inr (.inl hrow))
  · rw [bgRaid_editPlayer] at hraid
    exact .inl (.inr (.inr hraid))

theorem leads_editGroup (w : World) (id : ℕ) (f : Group → Group) (new : Option ℕ) :
    Leads w (w.editGroup id f) new := fun _ h => .inl h

theorem leads_setGroupInvite (w : World) (guid : ℕ) (invite new : Option ℕ) :
    Leads w (w.editPlayer guid fun pl => { pl with groupInvite := invite }) new :=
  leads_editPlayer fun _ _ h => .inl h

theorem leads_removeInvite (w : World) (id guid : ℕ) (new : Option ℕ) :
    Leads w (w.removeInvite id guid) new := by
  unfold removeInvite
  split
  · exact .refl w new
  · exact (leads_editGroup w id _ new).trans (leads_setGroupInvite _ guid none new)

theorem leads_addInvite (h : w.addInvite id guid = some w') (new : Option ℕ) : Leads w w' new := by
  obtain ⟨pl, -, -, -, rfl⟩ := addInvite_spec h
  exact ((leads_removeInvite w id guid new).trans (leads_editGroup _ id _ new)).trans
    (leads_setGroupInvite _ guid (some id) new)

theorem leads_addLeaderInvite (h : w.addLeaderInvite id guid = some w') (new : Option ℕ) :
    Leads w w' new := by
  obtain ⟨w₁, h₁, rfl⟩ := Option.map_eq_some_iff.mp h
  exact (leads_addInvite h₁ new).trans (leads_editGroup _ id _ new)

theorem leads_newGroup (w : World) (new : Option ℕ) : Leads w w.newGroup new := fun _ h => .inl h

theorem leads_forgetAll (w : World) (l : List (ℕ × ℕ)) (new : Option ℕ) :
    Leads w (w.forgetAll l) new := by
  induction l generalizing w with
  | nil => exact .refl w new
  | cons e l ih => exact (leads_setGroupInvite w e.1 none new).trans (ih _)

theorem leads_cleared (w : World) (id : ℕ) (new : Option ℕ) : Leads w (w.cleared id) new :=
  (leads_forgetAll w _ new).trans (leads_editGroup _ id _ new)

theorem leads_deleteGroup (w : World) (id : ℕ) (new : Option ℕ) : Leads w (w.deleteGroup id) new := by
  rintro id' (hpl | hrow | ⟨side, hraid⟩)
  · exact .inl (.inl hpl)
  · exact .inl (.inr (.inl hrow))
  · refine .inl (.inr (.inr ⟨side, ?_⟩))
    replace hraid : (if w.isBGGroup id ∧ w.bgRaid side = some id then none else w.bgRaid side) =
      some id' := hraid
    split at hraid
    · cases hraid
    · exact hraid

variable {pl : Player}

theorem refers_live {r : GroupReference}
    (h : w.live pl.group = some r ∨ w.live pl.originalGroup = some r) : Refers pl r.target := by
  rcases h with h | h
  · exact .inl ⟨r, (live_spec h).1, rfl⟩
  · exact .inr ⟨r, (live_spec h).1, rfl⟩

variable {id' : ℕ}

/-- Leaving a group makes a player refer to no other. -/
theorem refers_leftBy {isBG : Bool} (h : Refers (w.leftBy id isBG pl) id') : Refers pl id' := by
  unfold leftBy at h
  split at h
  · rcases h with ⟨r, hr, rfl⟩ | ⟨r, hr, -⟩
    · exact refers_live (.inr hr)
    · cases hr
  · split at h
    · rcases h with ⟨r, hr, rfl⟩ | ⟨r, hr, -⟩
      · exact .inl ⟨r, hr, rfl⟩
      · cases hr
    · rcases h with ⟨r, hr, -⟩ | ⟨r, hr, rfl⟩
      · cases hr
      · exact .inr ⟨r, hr, rfl⟩

theorem refers_delinked (h : Refers (delinked id pl) id') : Refers pl id' := by
  unfold delinked at h
  split at h
  · rcases h with ⟨r, hr, -⟩ | ⟨r, hr, rfl⟩
    · cases hr
    · exact .inr ⟨r, hr, rfl⟩
  · split at h
    · rcases h with ⟨r, hr, rfl⟩ | ⟨r, hr, -⟩
      · exact .inl ⟨r, hr, rfl⟩
      · cases hr
    · exact h

/-- A player who joins a group refers to this one besides. -/
theorem refers_joinedBy {subGroup : ℕ} {isBG : Bool}
    (h : Refers (w.joinedBy id subGroup isBG pl) id') : Refers pl id' ∨ some id = some id' := by
  unfold joinedBy at h
  simp only at h
  split at h
  · split at h
    · rcases h with ⟨r, hr, rfl⟩ | ⟨r, hr, rfl⟩
      · cases hr
        exact .inr rfl
      · exact .inl (refers_live (.inl hr))
    · rcases h with ⟨r, hr, rfl⟩ | ⟨r, hr, rfl⟩
      · exact .inl (.inl ⟨r, hr, rfl⟩)
      · cases hr
        exact .inr rfl
  · rcases h with ⟨r, hr, rfl⟩ | ⟨r, hr, rfl⟩
    · cases hr
      exact .inr rfl
    · exact .inl (.inr ⟨r, hr, rfl⟩)

theorem leads_changeLeader (w : World) (id guid : ℕ) (new : Option ℕ) :
    Leads w (w.changeLeader id guid) new := by
  unfold changeLeader
  split
  · exact leads_editGroup w id _ new
  · exact .refl w new

theorem leads_pickLeader (w : World) (id guid : ℕ) (new : Option ℕ) :
    Leads w (w.pickLeader id guid) new := by
  unfold pickLeader
  split
  · exact .refl w new
  · split
    · split
      · exact .refl w new
      · exact leads_changeLeader w id _ new
    · exact .refl w new

theorem leads_rows {rows : ℕ → Option ℕ}
    (h : ∀ guid id, rows guid = some id → w.groupMember guid = some id) (new : Option ℕ) :
    Leads w { w with groupMember := rows } new := by
  rintro id (hpl | ⟨guid, hrow⟩ | hraid)
  · exact .inl (.inl hpl)
  · exact .inl (.inr (.inl ⟨guid, h guid id hrow⟩))
  · exact .inl (.inr (.inr hraid))

/-- Removing a member leads nobody to a group. -/
theorem leads_withoutMember (w : World) (id guid : ℕ) (isBG : Bool) :
    Leads w (w.withoutMember id guid isBG) none := by
  have hleft : Leads w (w.editPlayer guid (w.leftBy id isBG)) none :=
    leads_editPlayer fun _ _ h => .inl (refers_leftBy h)
  unfold withoutMember
  refine (?_ : Leads w _ none).trans (leads_pickLeader _ id guid none)
  refine (?_ : Leads w _ none).trans (leads_editGroup _ id _ none)
  split
  · exact hleft
  · refine (hleft.trans (leads_rows (fun guid' id' hrow => ?_) none)).trans
      (leads_editPlayer fun _ _ h => .inl (refers_delinked h))
    by_cases hguid : guid' = guid
    · rw [hguid, Function.update_self] at hrow
      cases hrow
    · rwa [Function.update_of_ne hguid] at hrow

theorem leads_unlinkLoop (w : World) (id : ℕ) (isBG : Bool) (l : List MemberSlot) :
    Leads w (l.foldl (fun w m => w.editPlayer m.guid (w.leftBy id isBG)) w) none := by
  induction l generalizing w with
  | nil => exact .refl w none
  | cons m l ih =>
    refine Leads.trans ?_ (ih _)
    exact leads_editPlayer fun _ _ h => .inl (refers_leftBy h)

/-- Disbanding leads nobody to a group. -/
theorem leads_disbanded (w : World) (id : ℕ) (gr : Group) : Leads w (w.disbanded id gr) none := by
  have hcleared : Leads w ((w.unlinkAll id gr).cleared id) none :=
    ((leads_unlinkLoop w id gr.isBGGroup gr.memberSlots).trans (leads_editGroup _ id _ none)).trans
      (leads_cleared _ id none)
  unfold disbanded
  refine (?_ : Leads w _ none).trans (leads_deleteGroup _ id none)
  split
  · exact hcleared
  · refine hcleared.trans (leads_rows (fun guid id' hrow => ?_) none)
    split at hrow
    · cases hrow
    · exact hrow

theorem leads_insertRow (w : World) (id guid : ℕ) : Leads w (w.insertRow id guid) (some id) := by
  unfold insertRow
  split
  · rintro id' (hpl | ⟨guid', hrow⟩ | hraid)
    · exact .inl (.inl hpl)
    · replace hrow : Function.update w.groupMember guid (some id) guid' = some id' := hrow
      by_cases hguid : guid' = guid
      · rw [hguid, Function.update_self] at hrow
        exact .inr hrow
      · rw [Function.update_of_ne hguid] at hrow
        exact .inl (.inr (.inl ⟨guid', hrow⟩))
    · exact .inl (.inr (.inr hraid))
  · exact .refl w _

/-- Who is added to a subgroup leads to its group. -/
theorem leads_addToSubGroup (w : World) (id guid subGroup : ℕ) (isBG : Bool) :
    Leads w (w.addToSubGroup id guid subGroup isBG) (some id) := by
  have hjoined : Leads w ((w.editGroup id fun gr => gr.pushSlot guid subGroup).editPlayer guid
      (w.joinedBy id subGroup isBG)) (some id) :=
    (leads_editGroup w id _ (some id)).trans (leads_editPlayer fun _ _ h => refers_joinedBy h)
  unfold addToSubGroup
  split
  · exact hjoined
  · exact hjoined.trans (leads_insertRow _ id guid)

end World

end Sunstrider.Groups
