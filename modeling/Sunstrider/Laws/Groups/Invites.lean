import Sunstrider.Groups.GroupHandler

/-!
# The two sides of the invitations

What a world says about invitations, apart from everything else: which player objects there are, the
invitation of each, the invited of each group, and the groups that are not created yet. Every function
that touches an invitation is one of five changes of this (`offer`, `withdraw`, `clear`, `drop`,
`settle`), and each of the five keeps the two sides together.
-/

namespace Sunstrider.Groups

/-- The invitations of a world. -/
structure Invites where
  /-- The object of a connected player. -/
  serial : ℕ → Option ℕ
  /-- `GetGroupInvite`. -/
  invite : ℕ → Option ℕ
  /-- `m_invitees`, of a group that exists. -/
  invitees : ℕ → Option (List (ℕ × ℕ))
  /-- A group that is not created, apart from whom it has invited. -/
  pending : ℕ → Option Group
  /-- The side of a battleground, of a group that exists. -/
  bgGroup : ℕ → Option (Option ℕ)
  bgRaid : ℕ → Option ℕ
  nextGroup : ℕ

namespace Invites

/-- A player is among the invited of a group just if the group is his invitation. Whoever is among the
invited is connected, and with the object that is pointed to; the group of an invitation exists. -/
structure Symmetric (v : Invites) : Prop where
  invited : ∀ {id l e}, v.invitees id = some l → e ∈ l →
    v.serial e.1 = some e.2 ∧ v.invite e.1 = some id
  held : ∀ {guid id}, v.invite guid = some id →
    ∃ l s, v.invitees id = some l ∧ v.serial guid = some s ∧ (guid, s) ∈ l

/-- What else there is to say of the groups that have invited somebody. -/
structure Regular (v : Invites) : Prop extends Symmetric v where
  nodup : ∀ {id l}, v.invitees id = some l → l.Nodup
  /-- A group that is not created is as good as new, and has invited nobody, or its leader and at most
  one player besides. -/
  blank : ∀ {id gr}, v.pending id = some gr →
    gr.subGroupsCounts = none ∧ gr.bgGroup = none ∧ gr.isRaidGroup = false
  leads : ∀ {id gr l}, v.pending id = some gr → v.invitees id = some l →
    l = [] ∨ l.length ≤ 2 ∧ ∃ s, (gr.leaderGuid, s) ∈ l
  fresh : ∀ {id l}, v.invitees id = some l → id < v.nextGroup
  exists_of_pending : ∀ {id gr}, v.pending id = some gr → ∃ l, v.invitees id = some l
  /-- The raid of a battleground exists, and says so. -/
  raid : ∀ {side id}, v.bgRaid side = some id → ∃ side', v.bgGroup id = some (some side')
  exists_of_bgGroup : ∀ {id side}, v.bgGroup id = some side → ∃ l, v.invitees id = some l

/-- `AddInvite`: both sides are written. -/
def offer (v : Invites) (id guid s : ℕ) : Invites :=
  { v with
    invite := Function.update v.invite guid (some id)
    invitees := Function.update v.invitees id ((v.invitees id).map fun l => (guid, s) :: l) }

/-- `RemoveInvite`: both sides are written. -/
def withdraw (v : Invites) (id guid s : ℕ) : Invites :=
  { v with
    invite := Function.update v.invite guid none
    invitees := Function.update v.invitees id ((v.invitees id).map fun l => l.erase (guid, s)) }

/-- `RemoveAllInvites`. -/
def clear (v : Invites) (id : ℕ) : Invites :=
  { v with
    invite := fun guid => if v.invite guid = some id then none else v.invite guid
    invitees := Function.update v.invitees id ((v.invitees id).map fun _ => []) }

/-- `RemoveAllInvites` of a group that is deleted. -/
def drop (v : Invites) (id : ℕ) : Invites :=
  { v with
    invite := fun guid => if v.invite guid = some id then none else v.invite guid
    invitees := Function.update v.invitees id none
    pending := Function.update v.pending id none
    bgGroup := Function.update v.bgGroup id none
    bgRaid := fun side =>
      if (v.bgGroup id).any Option.isSome ∧ v.bgRaid side = some id then none else v.bgRaid side }

/-- A group is created. -/
def settle (v : Invites) (id : ℕ) : Invites := { v with pending := Function.update v.pending id none }

/-- `new Group`. -/
def found (v : Invites) : Invites :=
  { v with
    invitees := Function.update v.invitees v.nextGroup (some [])
    pending := Function.update v.pending v.nextGroup (some Group.new)
    bgGroup := Function.update v.bgGroup v.nextGroup (some none)
    nextGroup := v.nextGroup + 1 }

/-- `SetBgRaid`. -/
def raise (v : Invites) (id side : ℕ) : Invites :=
  { v with
    bgGroup := Function.update v.bgGroup id (some (some side))
    bgRaid := Function.update v.bgRaid side (some id) }

/-- `SetGroupInvite(nullptr)`, on one side only. -/
def forget (v : Invites) (guid : ℕ) : Invites :=
  { v with invite := Function.update v.invite guid none }

/-- Login and logout. -/
def connect (v : Invites) (guid : ℕ) (s : Option ℕ) : Invites :=
  { v with serial := Function.update v.serial guid s, invite := Function.update v.invite guid none }

variable {v : Invites}

/-- The groups that were created are created still. -/
structure Grows (v v' : Invites) : Prop where
  next : v.nextGroup ≤ v'.nextGroup
  created : ∀ {id}, id < v.nextGroup → v.pending id = none → v'.pending id = none

variable {v' : Invites} {id : ℕ}

namespace Grows

theorem refl (v : Invites) : Grows v v := ⟨le_rfl, fun _ h => h⟩

theorem trans {v v'' : Invites} (h : Grows v v') (h' : Grows v' v'') : Grows v v'' :=
  ⟨h.next.trans h'.next, fun hid hpend => h'.created (hid.trans_le h.next) (h.created hid hpend)⟩

theorem of_pending {v : Invites} (hnext : v.nextGroup ≤ v'.nextGroup)
    (h : v'.pending = Function.update v.pending id none) : Grows v v' := by
  refine ⟨hnext, fun {id'} _ hpend => ?_⟩
  by_cases hid : id' = id
  · rw [h, hid, Function.update_self]
  · rw [h, Function.update_of_ne hid, hpend]

theorem of_fresh {v : Invites} (hid : v.nextGroup ≤ id) (h : Grows v (v'.settle id)) :
    Grows v v' := by
  refine ⟨h.next, fun {id'} hlt hpend => ?_⟩
  exact (Function.update_of_ne (hlt.trans_le hid).ne ..).symm.trans (h.created hlt hpend)

theorem settle (v : Invites) (id : ℕ) : Grows v (v.settle id) := of_pending (le_refl v.nextGroup) rfl

theorem drop (v : Invites) (id : ℕ) : Grows v (v.drop id) := of_pending (le_refl v.nextGroup) rfl

theorem offer (v : Invites) (id guid s : ℕ) : Grows v (v.offer id guid s) :=
  ⟨le_refl v.nextGroup, fun _ h => h⟩

theorem withdraw (v : Invites) (id guid s : ℕ) : Grows v (v.withdraw id guid s) :=
  ⟨le_refl v.nextGroup, fun _ h => h⟩

theorem clear (v : Invites) (id : ℕ) : Grows v (v.clear id) := ⟨le_refl v.nextGroup, fun _ h => h⟩

theorem connect (v : Invites) (guid : ℕ) (s : Option ℕ) : Grows v (v.connect guid s) :=
  ⟨le_refl v.nextGroup, fun _ h => h⟩

theorem found (v : Invites) : Grows v v.found := by
  refine ⟨Nat.le_succ _, fun {id} hid hpend => ?_⟩
  exact (Function.update_of_ne hid.ne ..).trans hpend

end Grows

variable {guid : ℕ}

theorem forget_of_none (h : v.invite guid = none) : v.forget guid = v := by
  have hsame : Function.update v.invite guid none = v.invite := by
    rw [← h, Function.update_eq_self]
  rw [forget, hsame]

variable {l : List (ℕ × ℕ)} {s : ℕ}

namespace Symmetric

section

variable (h : Symmetric v)

include h

theorem not_invited {e : ℕ × ℕ} (hl : v.invitees id = some l)
    (hne : v.invite e.1 ≠ some id) : e ∉ l :=
  fun he => hne (h.invited hl he).2

theorem offer (hs : v.serial guid = some s) (hnone : v.invite guid = none)
    (hl : v.invitees id = some l) : Symmetric (v.offer id guid s) where
  invited := by
    intro id' l' e hl' he
    by_cases hid : id' = id
    · subst hid
      simp only [Invites.offer, Function.update_self, hl, Option.map_some, Option.some.injEq] at hl'
      subst hl'
      rcases List.mem_cons.mp he with rfl | he
      · exact ⟨hs, Function.update_self ..⟩
      · obtain ⟨hse, hinv⟩ := h.invited hl he
        have hne : e.1 ≠ guid := fun heq => by rw [heq, hnone] at hinv; cases hinv
        exact ⟨hse, by simp only [Invites.offer, Function.update_of_ne hne, hinv]⟩
    · simp only [Invites.offer, Function.update_of_ne hid] at hl'
      obtain ⟨hse, hinv⟩ := h.invited hl' he
      have hne : e.1 ≠ guid := fun heq => by rw [heq, hnone] at hinv; cases hinv
      exact ⟨hse, by simp only [Invites.offer, Function.update_of_ne hne, hinv]⟩
  held := by
    intro guid' id' hinv
    by_cases hguid : guid' = guid
    · subst hguid
      simp only [Invites.offer, Function.update_self, Option.some.injEq] at hinv
      subst hinv
      exact ⟨(guid', s) :: l, s, by simp only [Invites.offer, Function.update_self, hl, Option.map_some],
        hs, List.mem_cons_self⟩
    · simp only [Invites.offer, Function.update_of_ne hguid] at hinv
      obtain ⟨l', s', hl', hs', hmem⟩ := h.held hinv
      by_cases hid : id' = id
      · subst hid
        refine ⟨(guid, s) :: l', s', ?_, hs', List.mem_cons_of_mem _ hmem⟩
        simp [Invites.offer, hl']
      · exact ⟨l', s', by simp only [Invites.offer, Function.update_of_ne hid, hl'], hs', hmem⟩

theorem withdraw (hnodup : ∀ {id l}, v.invitees id = some l → l.Nodup)
    (hs : v.serial guid = some s) (hinv : v.invite guid = some id ∨ v.invite guid = none) :
    Symmetric (v.withdraw id guid s) where
  invited := by
    intro id' l' e hl' he
    -- the player himself is in no list any more
    have hold : ∃ l, v.invitees id' = some l ∧ e ∈ l ∧ e.1 ≠ guid := by
      by_cases hid : id' = id
      · subst hid
        simp only [Invites.withdraw, Function.update_self, Option.map_eq_some_iff] at hl'
        obtain ⟨l, hl, rfl⟩ := hl'
        obtain ⟨hne, hmem⟩ := (hnodup hl).mem_erase_iff.mp he
        refine ⟨l, hl, hmem, fun heq => hne (Prod.ext heq ?_)⟩
        have hse := (h.invited hl hmem).1
        rw [heq, hs] at hse
        exact (Option.some.inj hse).symm
      · simp only [Invites.withdraw, Function.update_of_ne hid] at hl'
        refine ⟨l', hl', he, fun heq => ?_⟩
        have hinv' := (h.invited hl' he).2
        rw [heq] at hinv'
        rcases hinv with hinv | hinv
        · exact hid (Option.some.inj (hinv'.symm.trans hinv))
        · rw [hinv] at hinv'
          cases hinv'
    obtain ⟨l, hl, hmem, hne⟩ := hold
    obtain ⟨hse, hinv'⟩ := h.invited hl hmem
    exact ⟨hse, by simp only [Invites.withdraw, Function.update_of_ne hne, hinv']⟩
  held := by
    intro guid' id' hinv'
    by_cases hguid : guid' = guid
    · subst hguid
      simp only [Invites.withdraw, Function.update_self, reduceCtorEq] at hinv'
    · simp only [Invites.withdraw, Function.update_of_ne hguid] at hinv'
      obtain ⟨l, s', hl, hs', hmem⟩ := h.held hinv'
      by_cases hid : id' = id
      · subst hid
        refine ⟨l.erase (guid, s), s', ?_, hs', ?_⟩
        · simp [Invites.withdraw, hl]
        · exact (List.mem_erase_of_ne fun heq => hguid (congrArg Prod.fst heq)).mpr hmem
      · exact ⟨l, s', by simp only [Invites.withdraw, Function.update_of_ne hid, hl], hs', hmem⟩

/-- A player without an invitation is in no list that he could be taken out of. -/
theorem withdraw_of_none (hnone : v.invite guid = none) : v.withdraw id guid s = v := by
  have hlist : (v.invitees id).map (fun l => l.erase (guid, s)) = v.invitees id := by
    cases hl : v.invitees id with
    | none => rfl
    | some l =>
      have hnot : (guid, s) ∉ l := h.not_invited hl (by rw [hnone]; exact nofun)
      rw [Option.map_some, List.erase_of_not_mem hnot]
  have hinvite := congrArg Invites.invite (forget_of_none hnone)
  simp only [Invites.forget] at hinvite
  rw [Invites.withdraw, hlist, Function.update_eq_self, hinvite]

theorem of_forgotten {l : Option (List (ℕ × ℕ))}
    (hl : ∀ l', l = some l' → l' = []) (pending : ℕ → Option Group)
    (bgGroup : ℕ → Option (Option ℕ)) (bgRaid : ℕ → Option ℕ) :
    Symmetric
      { v with
        invite := fun guid => if v.invite guid = some id then none else v.invite guid
        invitees := Function.update v.invitees id l
        pending := pending
        bgGroup := bgGroup
        bgRaid := bgRaid } where
  invited := by
    intro id' l' e hl' he
    replace hl' : Function.update v.invitees id l id' = some l' := hl'
    by_cases hid : id' = id
    · subst hid
      rw [Function.update_self] at hl'
      rw [hl l' hl'] at he
      cases he
    · rw [Function.update_of_ne hid] at hl'
      obtain ⟨hse, hinv⟩ := h.invited hl' he
      refine ⟨hse, ?_⟩
      show (if v.invite e.1 = some id then none else v.invite e.1) = some id'
      rw [hinv, if_neg fun heq => hid (Option.some.inj heq)]
  held := by
    intro guid id' hinv
    have hne : v.invite guid ≠ some id := by
      intro heq
      simp only [heq, if_true, reduceCtorEq] at hinv
    simp only [hne, if_false] at hinv
    obtain ⟨l', s, hl', hs, hmem⟩ := h.held hinv
    have hid : id' ≠ id := fun heq => hne (heq ▸ hinv)
    exact ⟨l', s, (Function.update_of_ne hid ..).trans hl', hs, hmem⟩

theorem clear (id : ℕ) : Symmetric (v.clear id) := by
  refine h.of_forgotten (fun l' hl' => ?_) v.pending v.bgGroup v.bgRaid
  obtain ⟨l, -, rfl⟩ := Option.map_eq_some_iff.mp hl'
  rfl

theorem drop (id : ℕ) : Symmetric (v.drop id) :=
  h.of_forgotten (fun _ hl' => by cases hl') _ _ _

theorem connect (hnone : v.invite guid = none) (s : Option ℕ) : Symmetric (v.connect guid s) where
  invited := by
    intro id l e hl he
    obtain ⟨hse, hinv⟩ := h.invited hl he
    have hne : e.1 ≠ guid := fun heq => by rw [heq, hnone] at hinv; cases hinv
    exact ⟨by simp only [Invites.connect, Function.update_of_ne hne, hse],
      by simp only [Invites.connect, Function.update_of_ne hne, hinv]⟩
  held := by
    intro guid' id hinv
    by_cases hguid : guid' = guid
    · subst hguid
      simp only [Invites.connect, Function.update_self, reduceCtorEq] at hinv
    · simp only [Invites.connect, Function.update_of_ne hguid] at hinv
      obtain ⟨l, s', hl, hs', hmem⟩ := h.held hinv
      exact ⟨l, s', hl, by simp only [Invites.connect, Function.update_of_ne hguid, hs'], hmem⟩

theorem found (hfresh : v.invitees v.nextGroup = none) : Symmetric v.found where
  invited := by
    intro id l e hl he
    by_cases hid : id = v.nextGroup
    · subst hid
      simp only [Invites.found, Function.update_self, Option.some.injEq] at hl
      subst hl
      cases he
    · simp only [Invites.found, Function.update_of_ne hid] at hl
      exact h.invited hl he
  held := by
    intro guid id hinv
    obtain ⟨l, s, hl, hs, hmem⟩ := h.held hinv
    have hid : id ≠ v.nextGroup := fun heq => by rw [heq, hfresh] at hl; cases hl
    exact ⟨l, s, by simp only [Invites.found, Function.update_of_ne hid, hl], hs, hmem⟩

end

end Symmetric

namespace Regular

theorem not_exists_next (h : Regular v) : v.invitees v.nextGroup = none := by
  cases hl : v.invitees v.nextGroup with
  | none => rfl
  | some l => exact absurd (h.fresh hl) (Nat.lt_irrefl _)

/-- Somebody who is invited to a group that is not created: so is its leader, and nobody else. -/
theorem leader_invited (h : Regular v) {gr : Group} (hpend : v.pending id = some gr)
    (hinv : v.invite guid = some id) :
    v.invite gr.leaderGuid = some id ∧ ∃ l, v.invitees id = some l ∧ l.length ≤ 2 := by
  obtain ⟨l, s, hl, -, hmem⟩ := h.held hinv
  rcases h.leads hpend hl with rfl | ⟨hlen, s', hleader⟩
  · cases hmem
  · exact ⟨(h.invited hl hleader).2, l, hl, hlen⟩

/-- What is asked of one group that is not created. -/
def Blank (v : Invites) (id : ℕ) : Prop :=
  ∀ gr, v.pending id = some gr →
    (gr.subGroupsCounts = none ∧ gr.bgGroup = none ∧ gr.isRaidGroup = false) ∧
      ∃ l, v.invitees id = some l ∧ (l = [] ∨ l.length ≤ 2 ∧ ∃ s, (gr.leaderGuid, s) ∈ l)

theorem isBlank (h : Regular v) (id : ℕ) : Blank v id := by
  intro gr hpend
  obtain ⟨l, hl⟩ := h.exists_of_pending hpend
  exact ⟨h.blank hpend, l, hl, h.leads hpend hl⟩

/-- A rule for the changes of the invitations to one group: the other groups are as they should be,
and so is this one. -/
theorem of_settle (h : Regular (v.settle id)) (hblank : Blank v id) : Regular v where
  invited := h.invited
  held := h.held
  nodup := h.nodup
  fresh := h.fresh
  raid := h.raid
  exists_of_bgGroup := h.exists_of_bgGroup
  blank := by
    intro id' gr hpend
    by_cases hid : id' = id
    · subst hid
      exact (hblank gr hpend).1
    · exact h.blank ((Function.update_of_ne hid ..).trans hpend)
  leads := by
    intro id' gr l hpend hl
    by_cases hid : id' = id
    · subst hid
      obtain ⟨-, l', hl', hleads⟩ := hblank gr hpend
      rw [hl'] at hl
      cases hl
      exact hleads
    · exact h.leads ((Function.update_of_ne hid ..).trans hpend) hl
  exists_of_pending := by
    intro id' gr hpend
    by_cases hid : id' = id
    · subst hid
      obtain ⟨-, l, hl, -⟩ := hblank gr hpend
      exact ⟨l, hl⟩
    · exact h.exists_of_pending ((Function.update_of_ne hid ..).trans hpend)

section

variable (h : Regular v)

include h

theorem of_invitees (hsymm : Symmetric v') (hpend : v.pending id = none)
    (hpending : v'.pending = v.pending) (hnext : v.nextGroup ≤ v'.nextGroup)
    (hsame : ∀ id', id' ≠ id → v'.invitees id' = v.invitees id')
    (hid : ∀ l', v'.invitees id = some l' → ∃ l, v.invitees id = some l ∧ (l.Nodup → l'.Nodup))
    (hraid : ∀ side id', v'.bgRaid side = some id' → ∃ side', v'.bgGroup id' = some (some side'))
    (hbg : ∀ id' side, v'.bgGroup id' = some side → ∃ l, v'.invitees id' = some l) :
    Regular v' := by
  have hother : ∀ {id' gr}, v'.pending id' = some gr → id' ≠ id := by
    rintro id' gr hgr rfl
    rw [hpending, hpend] at hgr
    cases hgr
  refine { hsymm with
           raid := hraid _ _, exists_of_bgGroup := hbg _ _, nodup := ?_, blank := ?_, leads := ?_,
           fresh := ?_, exists_of_pending := ?_ }
  · intro id' l' hl'
    by_cases heq : id' = id
    · subst heq
      obtain ⟨l, hl, hnodup⟩ := hid l' hl'
      exact hnodup (h.nodup hl)
    · exact h.nodup (hsame id' heq ▸ hl')
  · intro id' gr hgr
    exact h.blank (hpending ▸ hgr)
  · intro id' gr l hgr hl
    exact h.leads (hpending ▸ hgr) (hsame id' (hother hgr) ▸ hl)
  · intro id' l' hl'
    refine lt_of_lt_of_le ?_ hnext
    by_cases heq : id' = id
    · subst heq
      obtain ⟨l, hl, -⟩ := hid l' hl'
      exact h.fresh hl
    · exact h.fresh (hsame id' heq ▸ hl')
  · intro id' gr hgr
    obtain ⟨l, hl⟩ := h.exists_of_pending (hpending ▸ hgr)
    exact ⟨l, (hsame id' (hother hgr)).trans hl⟩

theorem settle (id : ℕ) : Regular (v.settle id) := by
  have hpend : ∀ {id' gr}, (v.settle id).pending id' = some gr → v.pending id' = some gr := by
    intro id' gr hgr
    by_cases hid : id' = id
    · subst hid
      simp only [Invites.settle, Function.update_self, reduceCtorEq] at hgr
    · simpa only [Invites.settle, Function.update_of_ne hid] using hgr
  exact
    { h.toSymmetric with
      invited := h.invited
      held := h.held
      nodup := h.nodup
      fresh := h.fresh
      blank := fun hgr => h.blank (hpend hgr)
      leads := fun hgr hl => h.leads (hpend hgr) hl
      exists_of_pending := fun hgr => h.exists_of_pending (hpend hgr)
      raid := h.raid
      exists_of_bgGroup := h.exists_of_bgGroup }

theorem exists_of_map (g : List (ℕ × ℕ) → List (ℕ × ℕ)) {id' : ℕ} {side : Option ℕ}
    (hbg : v.bgGroup id' = some side) :
    ∃ l, Function.update v.invitees id ((v.invitees id).map g) id' = some l := by
  obtain ⟨l, hl⟩ := h.exists_of_bgGroup hbg
  by_cases hid : id' = id
  · subst hid
    exact ⟨g l, by rw [Function.update_self, hl, Option.map_some]⟩
  · exact ⟨l, (Function.update_of_ne hid ..).trans hl⟩

theorem offer (hs : v.serial guid = some s) (hnone : v.invite guid = none)
    (hl : v.invitees id = some l) (hpend : v.pending id = none) : Regular (v.offer id guid s) := by
  refine h.of_invitees (h.toSymmetric.offer hs hnone hl) hpend rfl le_rfl
    (fun id' hne => Function.update_of_ne hne ..) (fun l' hl' => ⟨l, hl, fun hnodup => ?_⟩)
    (fun _ _ => h.raid) fun _ _ => h.exists_of_map _
  simp only [Invites.offer, Function.update_self, hl, Option.map_some, Option.some.injEq] at hl'
  subst hl'
  exact List.nodup_cons.mpr ⟨h.not_invited hl (by rw [hnone]; exact nofun), hnodup⟩

theorem withdraw (hs : v.serial guid = some s)
    (hinv : v.invite guid = some id ∨ v.invite guid = none) (hpend : v.pending id = none) :
    Regular (v.withdraw id guid s) := by
  refine h.of_invitees (h.toSymmetric.withdraw h.nodup hs hinv) hpend rfl le_rfl
    (fun id' hne => Function.update_of_ne hne ..) (fun l' hl' => ?_)
    (fun _ _ => h.raid) fun _ _ => h.exists_of_map _
  simp only [Invites.withdraw, Function.update_self, Option.map_eq_some_iff] at hl'
  obtain ⟨l, hl, rfl⟩ := hl'
  exact ⟨l, hl, fun hnodup => hnodup.erase _⟩

theorem clear (id : ℕ) : Regular (v.clear id) := by
  have hs := h.settle id
  have hothers : Regular ((v.clear id).settle id) := by
    refine hs.of_invitees (hs.toSymmetric.clear id) (Function.update_self ..) rfl le_rfl
      (fun id' hne => Function.update_of_ne hne ..) (fun l' hl' => ?_)
      (fun _ _ => h.raid) fun _ _ => h.exists_of_map _
    simp only [Invites.settle, Invites.clear, Function.update_self, Option.map_eq_some_iff] at hl'
    obtain ⟨l, hl, rfl⟩ := hl'
    exact ⟨l, hl, fun _ => List.nodup_nil⟩
  refine of_settle hothers fun gr hgr => ?_
  obtain ⟨hblank, l, hl, -⟩ := h.isBlank id gr hgr
  exact ⟨hblank, [], by simp only [Invites.clear, Function.update_self, hl, Option.map_some], .inl rfl⟩

theorem drop (id : ℕ) : Regular (v.drop id) := by
  refine (h.settle id).of_invitees (h.toSymmetric.drop id) (Function.update_self ..) rfl le_rfl
    (fun id' hne => Function.update_of_ne hne ..) (fun l' hl' => ?_) (fun side id' hraid => ?_)
    fun id' side hbg => ?_
  · simp only [Invites.drop, Function.update_self, reduceCtorEq] at hl'
  · -- the battleground of the group has been told
    replace hraid : (if (v.bgGroup id).any Option.isSome ∧ v.bgRaid side = some id then none
      else v.bgRaid side) = some id' := hraid
    split at hraid
    · cases hraid
    · next hother =>
      obtain ⟨side', hside⟩ := h.raid hraid
      have hid : id' ≠ id := by
        rintro rfl
        exact hother ⟨by rw [hside]; rfl, hraid⟩
      exact ⟨side', (Function.update_of_ne hid ..).trans hside⟩
  · by_cases hid : id' = id
    · subst hid
      simp only [Invites.drop, Function.update_self, reduceCtorEq] at hbg
    · simp only [Invites.drop, Function.update_of_ne hid] at hbg ⊢
      exact h.exists_of_bgGroup hbg

theorem raise (hl : v.invitees id = some l) (hpend : v.pending id = none) (side : ℕ) :
    Regular (v.raise id side) := by
  refine h.of_invitees ⟨h.invited, h.held⟩ hpend rfl le_rfl (fun _ _ => rfl)
    (fun l' hl' => ⟨l', hl', fun hnodup => hnodup⟩) (fun side' id' hraid => ?_) fun id' side' hbg => ?_
  · by_cases hid : id' = id
    · exact ⟨side, by rw [hid]; exact Function.update_self ..⟩
    · have hside : side' ≠ side := by
        rintro rfl
        simp only [Invites.raise, Function.update_self, Option.some.injEq] at hraid
        exact hid hraid.symm
      simp only [Invites.raise, Function.update_of_ne hside, Function.update_of_ne hid] at hraid ⊢
      exact h.raid hraid
  · by_cases hid : id' = id
    · exact ⟨l, hid ▸ hl⟩
    · simp only [Invites.raise, Function.update_of_ne hid] at hbg
      exact h.exists_of_bgGroup hbg

theorem connect (hnone : v.invite guid = none) (s : Option ℕ) : Regular (v.connect guid s) :=
  { h.toSymmetric.connect hnone s with
    nodup := h.nodup
    blank := h.blank
    leads := h.leads
    fresh := h.fresh
    exists_of_pending := h.exists_of_pending
    raid := h.raid
    exists_of_bgGroup := h.exists_of_bgGroup }

theorem found : Regular v.found := by
  have hnone := h.not_exists_next
  have hpend : v.pending v.nextGroup = none := by
    cases hgr : v.pending v.nextGroup with
    | none => rfl
    | some gr =>
      obtain ⟨l, hl⟩ := h.exists_of_pending hgr
      rw [hnone] at hl
      cases hl
  have hsymm := h.toSymmetric.found hnone
  have hold : ∀ {id}, id ≠ v.nextGroup → v.found.invitees id = v.invitees id ∧
      v.found.pending id = v.pending id :=
    fun hne => ⟨Function.update_of_ne hne .., Function.update_of_ne hne ..⟩
  have hnew : v.found.invitees v.nextGroup = some [] ∧ v.found.pending v.nextGroup = some Group.new :=
    ⟨Function.update_self .., Function.update_self ..⟩
  refine { hsymm with
           nodup := ?_, blank := ?_, leads := ?_, fresh := ?_, exists_of_pending := ?_, raid := ?_,
           exists_of_bgGroup := ?_ }
  · intro id l hl
    by_cases hid : id = v.nextGroup
    · rw [hid, hnew.1] at hl
      cases hl
      exact List.nodup_nil
    · exact h.nodup ((hold hid).1 ▸ hl)
  · intro id gr hgr
    by_cases hid : id = v.nextGroup
    · rw [hid, hnew.2] at hgr
      cases hgr
      exact ⟨rfl, rfl, rfl⟩
    · exact h.blank ((hold hid).2 ▸ hgr)
  · intro id gr l hgr hl
    by_cases hid : id = v.nextGroup
    · rw [hid, hnew.1] at hl
      cases hl
      exact .inl rfl
    · exact h.leads ((hold hid).2 ▸ hgr) ((hold hid).1 ▸ hl)
  · intro id l hl
    by_cases hid : id = v.nextGroup
    · rw [hid]
      exact Nat.lt_succ_self _
    · exact Nat.lt_succ_of_lt (h.fresh ((hold hid).1 ▸ hl))
  · intro id gr hgr
    by_cases hid : id = v.nextGroup
    · exact ⟨[], hid ▸ hnew.1⟩
    · obtain ⟨l, hl⟩ := h.exists_of_pending ((hold hid).2 ▸ hgr)
      exact ⟨l, (hold hid).1.trans hl⟩
  · intro side id hraid
    obtain ⟨side', hside⟩ := h.raid hraid
    have hid : id ≠ v.nextGroup := by
      rintro rfl
      obtain ⟨l, hl⟩ := h.exists_of_bgGroup hside
      rw [hnone] at hl
      cases hl
    exact ⟨side', (Function.update_of_ne hid ..).trans hside⟩
  · intro id side hbg
    by_cases hid : id = v.nextGroup
    · exact ⟨[], hid ▸ hnew.1⟩
    · replace hbg : Function.update v.bgGroup v.nextGroup (some none) id = some side := hbg
      rw [Function.update_of_ne hid] at hbg
      obtain ⟨l, hl⟩ := h.exists_of_bgGroup hbg
      exact ⟨l, (hold hid).1.trans hl⟩

end

end Regular

end Invites

end Sunstrider.Groups
