import Sunstrider.Laws.Battlegrounds.ArenaRuns

/-!
# What is left of a disbanded arena team

`DeleteMember` refuses a member in an arena without a word, so the loop of `Disband` comes to that member and stays
there. `Disband` itself refuses a player in an arena, and its callers delete the team all the same.
-/

namespace Sunstrider.Battlegrounds

open Cache (maxArenaSlot)
open Lib

namespace ArenaWorld

variable {s : ArenaWorld} {t : ArenaTeam}

/-- The cache has no team for a character under the slot. -/
def Cleared (s : ArenaWorld) (guid : UInt32) (slot : ℕ) : Prop := ∀ id, s.listed guid slot = some id → id = 0

/-! ## The loop -/

theorem isInArena_uninform (s : ArenaWorld) (t : ArenaTeam) (guid g : UInt32) :
    (s.uninform t guid).isInArena g = s.isInArena g := by
  rw [uninform]
  cases hp : s.players guid with
  | none => rfl
  | some p =>
    by_cases hg : g = guid
    · subst hg
      simp only [isInArena, setPlayer, Function.update_self, hp]
      rfl
    · simp [isInArena, setPlayer, Function.update_of_ne hg]

theorem freed_uninform (s : ArenaWorld) (t : ArenaTeam) (guid : UInt32) :
    (s.uninform t guid).freed = s.freed := by
  rw [uninform]
  cases s.players guid <;> rfl

variable {guid : UInt32}

/-- **What `DeleteMember` does with a member that is in no arena.** -/
theorem deleteMember_member (hslot : t.getSlot.toNat < maxArenaSlot) (hmem : guid ∈ t.members)
    (harena : s.isInArena guid = false) :
    ∃ s', s.deleteMember t guid = .ok (s', { t with members := t.members.erase guid }) ∧
      s'.isInArena = s.isInArena ∧ s'.freed = s.freed ∧
      ∀ g, s'.listed g t.getSlot.toNat =
        if g = guid then (s.listed g t.getSlot.toNat).map fun _ => 0 else s.listed g t.getSlot.toNat := by
  obtain ⟨cache, hcache, hrelists⟩ := updateCharacterArenaTeamId_relists (s := s) guid 0 hslot
  refine ⟨uninform { s with cache } t guid, ?_, funext fun g => ?_, ?_, fun g => ?_⟩
  · rw [deleteMember, if_neg (by simp [harena]), if_pos hmem, hcache]
    rfl
  · exact isInArena_uninform { s with cache } t guid g
  · exact freed_uninform { s with cache } t guid
  · have hlisted : (uninform { s with cache } t guid).listed g t.getSlot.toNat =
        listed { s with cache } g t.getSlot.toNat := by
      rw [listed, (uninform_frame { s with cache } t guid).1]
      rfl
    rw [hlisted, hrelists g]
    simp

/-- The loop has come so far: who is left in the team was in it, and who has left it is cleared. -/
structure Removing (s : ArenaWorld) (t : ArenaTeam) (x : ArenaWorld × ArenaTeam) : Prop where
  arena : x.1.isInArena = s.isInArena
  freed : x.1.freed = s.freed
  team : x.2.teamId = t.teamId ∧ x.2.type = t.type
  members : ∀ g ∈ x.2.members, g ∈ t.members
  cleared : ∀ g ∈ t.members, g ∈ x.2.members ∨ x.1.Cleared g t.getSlot.toNat

theorem Removing.refl (s : ArenaWorld) (t : ArenaTeam) : Removing s t (s, t) :=
  ⟨rfl, rfl, ⟨rfl, rfl⟩, fun _ hg => hg, fun _ hg => .inl hg⟩

theorem Removing.round {x : ArenaWorld × ArenaTeam} (h : Removing s t x)
    (hslot : t.getSlot.toNat < maxArenaSlot) (hmem : guid ∈ x.2.members)
    (harena : s.isInArena guid = false) :
    Yields (x.1.deleteMember x.2 guid) fun x' =>
      Removing s t x' ∧ x'.2.members = x.2.members.erase guid := by
  have hsame : x.2.getSlot = t.getSlot := by rw [ArenaTeam.getSlot, h.team.2]; rfl
  obtain ⟨s', hs', harena', hfreed', hlisted⟩ := deleteMember_member (s := x.1) (t := x.2)
    (by rw [hsame]; exact hslot) hmem (by rw [h.arena]; exact harena)
  refine ⟨_, hs', ⟨harena'.trans h.arena, hfreed'.trans h.freed, h.team,
    fun g hg => h.members g (List.mem_of_mem_erase hg), fun g hg => ?_⟩, rfl⟩
  rw [hsame] at hlisted
  by_cases hguid : g = guid
  · refine .inr fun id hid => ?_
    rw [hlisted g, if_pos hguid] at hid
    obtain ⟨-, -, rfl⟩ := Option.map_eq_some_iff.mp hid
    rfl
  · rcases h.cleared g hg with hstill | hcleared
    · exact .inl ((List.mem_erase_of_ne hguid).mpr hstill)
    · refine .inr fun id hid => hcleared id ?_
      rw [hlisted g, if_neg hguid] at hid
      exact hid

/-- Where no member is in an arena the loop ends with all of them removed. -/
theorem removeMembers_ends (hslot : t.getSlot.toNat < maxArenaSlot)
    (harena : ∀ g ∈ t.members, s.isInArena g = false) :
    Yields (s.removeMembers t.members.length t) fun x => Removing s t x ∧ x.2.members = [] := by
  refine (Yields.drain (Removing s t) (fun x => x.2.members.length) (fun x guid hx hguid => ?_) _
    (Removing.refl s t) le_rfl).mono fun x hx => ⟨hx.1, List.head?_eq_none_iff.mp hx.2⟩
  have hmem : guid ∈ x.2.members := List.mem_of_head? hguid
  refine (hx.round hslot hmem (harena guid (hx.members guid hmem))).mono fun x' hx' => ⟨hx'.1, ?_⟩
  rw [hx'.2, List.length_erase_of_mem hmem]
  have := List.length_pos_of_mem hmem
  omega

/-- **A member in an arena keeps the loop from ending**, however many rounds it has. -/
theorem removeMembers_stuck (hmem : guid ∈ t.members) (harena : s.isInArena guid = true)
    (rounds : ℕ) (x : ArenaWorld × ArenaTeam) : s.removeMembers rounds t ≠ .ok x := by
  intro hx
  have hstays : Answers (s.removeMembers rounds t) fun x =>
      (x.1.isInArena guid = true ∧ guid ∈ x.2.members) ∧ x.2.members.head? = none := by
    refine Answers.drain (fun x : ArenaWorld × ArenaTeam => x.1.isInArena guid = true ∧ guid ∈ x.2.members) ?_
      rounds ⟨harena, hmem⟩
    rintro ⟨s₁, t₁⟩ member ⟨harena₁, hmem₁⟩ -
    rw [deleteMember]
    split_ifs with hmember hlisted
    · exact .ok ⟨harena₁, hmem₁⟩
    · have hother : guid ≠ member := fun heq => hmember (heq ▸ harena₁)
      rw [updateCharacterArenaTeamId]
      cases s₁.cache.updateCharacterArenaTeamId member t₁.getSlot 0 with
      | error fault => exact .error
      | ok cache =>
        refine .ok ⟨?_, (List.mem_erase_of_ne hother).mpr hmem₁⟩
        rw [isInArena_uninform]
        exact harena₁
    · exact .ok ⟨by rw [isInArena_uninform]; exact harena₁, hmem₁⟩
  obtain ⟨⟨-, hstill⟩, hempty⟩ := hstays x hx
  rw [List.head?_eq_none_iff.mp hempty] at hstill
  cases hstill

/-! ## `Disband` -/

/-- `Disband` has refused: nothing is changed. -/
def Refused (s : ArenaWorld) (t : ArenaTeam) (x : ArenaWorld × ArenaTeam) : Prop := x = (s, t)

/-- `Disband` has removed every member, and the team from the store. -/
structure Disbanded (s : ArenaWorld) (t : ArenaTeam) (x : ArenaWorld × ArenaTeam) : Prop where
  members : x.2.members = []
  cleared : ∀ g ∈ t.members, x.1.Cleared g t.getSlot.toNat
  store : t.teamId ∉ x.1.arenaTeamStore
  freed : x.1.freed = s.freed

/-- `Disband` ends, and has done all or nothing. -/
def AllOrNothing (s : ArenaWorld) (t : ArenaTeam) (session : Option UInt32) : Prop :=
  ∃ rounds x, s.disbandBy rounds t session = .ok x ∧ (Refused s t x ∨ Disbanded s t x)

theorem disbandBy_ends {session : Option UInt32} (hslot : t.getSlot.toNat < maxArenaSlot)
    (hsession : session.any s.isInArena = false) (harena : ∀ g ∈ t.members, s.isInArena g = false) :
    Yields (s.disbandBy t.members.length t session) (Disbanded s t) := by
  rw [disbandBy, if_neg (by rw [hsession]; exact Bool.false_ne_true)]
  refine (removeMembers_ends hslot harena).bind fun x hx => .ok ⟨hx.2, fun g hg => ?_, ?_, hx.1.freed⟩
  · refine (hx.1.cleared g hg).resolve_left fun hstill => ?_
    rw [hx.2] at hstill
    cases hstill
  · show t.teamId ∉ x.1.arenaTeamStore.erase x.2.teamId
    rw [hx.1.team.1]
    exact fun hmem => (AList.mem_erase.mp hmem).1 rfl

/-- `Disband` ends just if it refuses or no member is in an arena. -/
theorem allOrNothing_of_slot (hslot : t.getSlot.toNat < maxArenaSlot) (session : Option UInt32) :
    s.AllOrNothing t session ↔
      session.any s.isInArena = true ∨ ∀ g ∈ t.members, s.isInArena g = false := by
  constructor
  · rintro ⟨rounds, x, hx, -⟩
    by_cases hsession : session.any s.isInArena = true
    · exact .inl hsession
    · refine .inr fun g hg => ?_
      by_contra harena
      rw [disbandBy, if_neg hsession, bind_eq_ok] at hx
      obtain ⟨x', hx', -⟩ := hx
      exact removeMembers_stuck hg (by simpa using harena) rounds x' hx'
  · intro h
    by_cases hsession : session.any s.isInArena = true
    · exact ⟨0, (s, t), by rw [disbandBy, if_pos hsession], .inl rfl⟩
    · obtain ⟨x, hx, hdisbanded⟩ := disbandBy_ends hslot (by simpa using hsession) (h.resolve_left hsession)
      exact ⟨_, x, hx, .inr hdisbanded⟩

/-! ## The handlers -/

/-- A handler that ends has not deleted a team that is still in the store. -/
def KeepsOwned (handled : Except ArenaFault ArenaWorld) (id : UInt32) : Prop :=
  Answers handled fun s' => id ∉ s'.freed

section

variable (ht : s.arenaTeamStore.lookup t.teamId = some t)

include ht

/-- The `delete` behind `Disband` is safe just if the player is in no arena. -/
theorem keepsOwned_disband (hfreed : t.teamId ∉ s.freed)
    (hslot : t.getSlot.toNat < maxArenaSlot) (guid : UInt32) :
    KeepsOwned (s.disband t guid >>= fun s' => .ok (s'.delete t.teamId)) t.teamId ↔
      s.isInArena guid = false := by
  rw [disband]
  constructor
  · intro h
    by_contra harena
    have hmem : t.teamId ∈ s.arenaTeamStore := AList.lookup_isSome.mp (by rw [ht]; rfl)
    have hrefused : (s.disbandBy t.members.length t (some guid)).map Prod.fst = .ok s := by
      rw [disbandBy, if_pos (by simpa using harena)]
      rfl
    rw [hrefused] at h
    have hdeleted := h _ rfl
    rw [delete, if_pos hmem] at hdeleted
    exact hdeleted (List.mem_cons_self ..)
  · intro harena
    by_cases hall : ∀ g ∈ t.members, s.isInArena g = false
    · have hsession : (some guid).any s.isInArena = false := by simpa using harena
      obtain ⟨x, hx, hdisbanded⟩ := disbandBy_ends hslot hsession hall
      rw [hx]
      refine Answers.ok ?_
      rw [delete, if_neg hdisbanded.store, hdisbanded.freed]
      exact hfreed
    · -- The loop never ends, so nothing is deleted.
      obtain ⟨g, hg, hin⟩ : ∃ g ∈ t.members, s.isInArena g = true := by simpa using hall
      rw [disbandBy, if_neg (by simp [harena])]
      cases hx : s.removeMembers t.members.length t with
      | error fault => exact .error
      | ok x => exact absurd hx (removeMembers_stuck hg hin _ x)

theorem keepsOwned_leave (hfreed : t.teamId ∉ s.freed)
    (hslot : t.getSlot.toNat < maxArenaSlot) (guid : UInt32) (invitedToBg : Bool) :
    KeepsOwned (s.handleArenaTeamLeaveOpcode guid t.teamId invitedToBg) t.teamId ↔
      (guid = t.captainGuid → t.members.length ≤ 1 → invitedToBg = false → s.isInArena guid = false) := by
  have hget : s.getArenaTeamById t.teamId = .ok (some t) := by rw [getArenaTeamById, if_neg hfreed, ht]
  rw [handleArenaTeamLeaveOpcode, hget]
  show KeepsOwned (if guid = t.captainGuid ∧ t.members.length > 1 then _ else _) _ ↔ _
  split_ifs with hmore hinvited hcaptain
  · exact iff_of_true (.ok hfreed) fun _ hfew => absurd hmore.2 (not_lt.mpr hfew)
  · exact iff_of_true (.ok hfreed) fun _ _ hnot => absurd hinvited (by simp [hnot])
  · rw [keepsOwned_disband ht hfreed hslot]
    have hfew : t.members.length ≤ 1 := not_lt.mp fun hmany => hmore ⟨hcaptain, hmany⟩
    exact ⟨fun h _ _ _ => h, fun h => h hcaptain hfew (by simpa using hinvited)⟩
  · refine iff_of_true ?_ fun h => absurd h hcaptain
    rw [deleteMember]
    split_ifs with harena hmem
    · exact .ok hfreed
    · obtain ⟨cache, hcache, -⟩ := updateCharacterArenaTeamId_relists (s := s) guid 0 hslot
      rw [hcache]
      refine Answers.ok ?_
      show t.teamId ∉ (uninform { s with cache } t guid).freed
      rw [freed_uninform]
      exact hfreed
    · refine Answers.ok ?_
      show t.teamId ∉ (s.uninform t guid).freed
      rw [freed_uninform]
      exact hfreed

theorem keepsOwned_disbandOpcode (hfreed : t.teamId ∉ s.freed)
    (hslot : t.getSlot.toNat < maxArenaSlot) (guid : UInt32) (invitedToBg fighting : Bool) :
    KeepsOwned (s.handleArenaTeamDisbandOpcode guid t.teamId invitedToBg fighting) t.teamId ↔
      (t.captainGuid = guid → invitedToBg = false → fighting = false → s.isInArena guid = false) := by
  have hget : s.getArenaTeamById t.teamId = .ok (some t) := by rw [getArenaTeamById, if_neg hfreed, ht]
  rw [handleArenaTeamDisbandOpcode, hget]
  show KeepsOwned (if t.captainGuid ≠ guid then _ else _) _ ↔ _
  split_ifs with hcaptain hinvited hfighting
  · exact iff_of_true (.ok hfreed) fun h => absurd h hcaptain
  · exact iff_of_true (.ok hfreed) fun _ hnot => absurd hinvited (by simp [hnot])
  · exact iff_of_true (.ok hfreed) fun _ _ hnot => absurd hfighting (by simp [hnot])
  · rw [keepsOwned_disband ht hfreed hslot]
    exact ⟨fun h _ _ _ => h,
      fun h => h (not_not.mp hcaptain) (by simpa using hinvited) (by simpa using hfighting)⟩

end

/-! ## All or nothing -/

/-- **Disbanding a team is all or nothing and ends** just if the session's player is in an arena, where it is
refused, or no member is. The handlers delete no team that is left just if their player is in no arena where they
come to `Disband`. -/
theorem all_or_nothing_iff (hslot : t.getSlot.toNat < maxArenaSlot)
    (ht : s.arenaTeamStore.lookup t.teamId = some t) (hfreed : t.teamId ∉ s.freed) :
    (∀ session, s.AllOrNothing t session ↔
      session.any s.isInArena = true ∨ ∀ g ∈ t.members, s.isInArena g = false) ∧
    (∀ guid invitedToBg, KeepsOwned (s.handleArenaTeamLeaveOpcode guid t.teamId invitedToBg) t.teamId ↔
      (guid = t.captainGuid → t.members.length ≤ 1 → invitedToBg = false → s.isInArena guid = false)) ∧
    ∀ guid invitedToBg onArenaMap,
      KeepsOwned (s.handleArenaTeamDisbandOpcode guid t.teamId invitedToBg (s.isFighting t onArenaMap))
          t.teamId ↔
        (t.captainGuid = guid → invitedToBg = false → s.isFighting t onArenaMap = false →
          s.isInArena guid = false) :=
  ⟨allOrNothing_of_slot hslot, keepsOwned_leave ht hfreed hslot,
    fun guid invitedToBg _ => keepsOwned_disbandOpcode ht hfreed hslot guid invitedToBg _⟩

/-- A team of two characters. -/
def reds : ArenaTeam := ⟨1, 2, "Reds", 1, [1, 2]⟩

/-- The team is disbanded while both are offline. -/
theorem all_or_nothing_offline : ((start threeCharacters).write reds).AllOrNothing reds none :=
  ((all_or_nothing_iff (by decide) (AList.lookup_insert _) List.not_mem_nil).1 none).mpr
    (.inr fun _ _ => rfl)

/-- A captain disbands its team while a member is on its way into an arena, which `IsFighting` does not see: the
loop never ends. A captain that is the only member leaves its team in an arena: `Disband` refuses, and the team is
deleted. -/
theorem not_all_or_nothing :
    (∃ s t, run step (start threeCharacters) [.login 1 [], .setInWorld 1 true, .create 1 2 "Reds", .login 2 [],
        .addMember 1 2, .setInArena 2 true] = .ok s ∧ s.arenaTeamStore.lookup 1 = some t ∧
      s.isFighting t (fun guid => guid == 2) = false ∧ ¬s.AllOrNothing t (some 1)) ∧
    ∃ s t, run step (start threeCharacters) [.login 1 [], .setInWorld 1 true, .create 1 2 "Reds",
        .setInArena 1 true] = .ok s ∧ s.arenaTeamStore.lookup 1 = some t ∧
      ¬KeepsOwned (s.handleArenaTeamLeaveOpcode 1 1 false) 1 := by
  refine ⟨⟨_, _, rfl, rfl, rfl, ?_⟩, ⟨_, _, rfl, rfl, ?_⟩⟩
  · rw [allOrNothing_of_slot (by decide)]
    rintro (hsession | hmembers)
    · exact Bool.false_ne_true hsession
    · exact Bool.false_ne_true (hmembers 2 (by decide)).symm
  · intro h
    exact h _ rfl (by decide +kernel)

end ArenaWorld

end Sunstrider.Battlegrounds
