import Sunstrider.Groups.RoundRobin
import Sunstrider.Lib.Turns

/-!
# Whose turn it is to loot

The two searches of `UpdateLooterGuid` are one search in the order of turns (`searchLooter_eq`), wherever
the iterator stands: at the end, at the looter of now or behind him. So the members of a group take turns
as `Lib.Turns` has it, and in each round every member who may loot has one turn
(`looters_take_turns`). Nothing is said of a round in which a member joins or leaves.
-/

namespace Sunstrider.Groups.LootingGroup

open Lib (turnOrder nextTurn nextTurn_eq_none turns_perm)

variable {gr : LootingGroup} {m : LootingMoment} {ifneed : Bool}

def guids (gr : LootingGroup) : List ℕ := gr.memberSlots.map MemberSlot.guid

/-- The looter of now is a member who may loot. -/
def LooterStays (gr : LootingGroup) (m : LootingMoment) : Prop :=
  ∃ guid ∈ gr.guids, gr.looterGuid = some guid ∧ m.mayLoot guid = true

theorem getLooterGuid_eq (h : gr.lootMethod ≠ .freeForAll) : gr.getLooterGuid = gr.looterGuid :=
  if_neg h

theorem memberCSlot_eq (gr : LootingGroup) (a : Option ℕ) :
    gr.memberCSlot a = gr.guids.findIdx fun guid => some guid = a := by
  rw [guids, List.findIdx_map]
  rfl

theorem searchLooter_eq (gr : LootingGroup) (m : LootingMoment) (i : ℕ) :
    gr.searchLooter m i = (gr.guids.drop i ++ gr.guids.take i).find? m.mayLoot := by
  have hmap : ∀ slots : List MemberSlot, (slots.map MemberSlot.guid).find? m.mayLoot =
      (slots.find? fun slot => m.mayLoot slot.guid).map MemberSlot.guid := fun slots => List.find?_map ..
  rw [searchLooter, guids, ← List.map_drop, ← List.map_take, List.find?_append, hmap, hmap]
  cases (gr.memberSlots.drop i).find? fun slot => m.mayLoot slot.guid with
  | none => rfl
  | some slot => rfl

section

variable (h : gr.lootMethod ≠ .freeForAll)

include h

theorem setLooter_eq (a : Option ℕ) : gr.setLooter a = { gr with looterGuid := a } := by
  cases a with
  | none => rfl
  | some guid =>
    by_cases hsame : gr.looterGuid = some guid
    · rw [setLooter, if_neg (by rw [getLooterGuid_eq h]; exact not_not.mpr hsame), ← hsame]
    · rw [setLooter, if_pos (by rw [getLooterGuid_eq h]; exact hsame)]

/-- **The search of `UpdateLooterGuid` is for the next turn**, unless the looter of now stays. -/
theorem updateLooterGuid_eq (hstays : ifneed = true → ¬ gr.LooterStays m) :
    gr.updateLooterGuid m ifneed =
      { gr with looterGuid := nextTurn m.mayLoot gr.guids gr.looterGuid } := by
  rw [updateLooterGuid, if_neg h, getLooterGuid_eq h, memberCSlot_eq]
  dsimp only
  cases hslot : gr.memberSlots[gr.guids.findIdx fun guid => some guid = gr.looterGuid]? with
  | some slot =>
    obtain ⟨hlt, hget⟩ := List.getElem?_eq_some_iff.mp hslot
    have hmem : slot.guid ∈ gr.guids := List.mem_map_of_mem (hget ▸ List.getElem_mem hlt)
    have hlt' : (gr.guids.findIdx fun guid => some guid = gr.looterGuid) < gr.guids.length := by
      rwa [guids, List.length_map]
    have hlooter : some slot.guid = gr.looterGuid := by
      have hfound := List.findIdx_getElem (w := hlt')
      rw [show gr.guids[gr.guids.findIdx fun guid => some guid = gr.looterGuid] = slot.guid by
        rw [← hget]
        exact List.getElem_map ..] at hfound
      exact of_decide_eq_true hfound
    have hneed : (ifneed && m.mayLoot slot.guid) = false := by
      cases ifneed with
      | false => rfl
      | true => exact Bool.eq_false_iff.mpr fun hmay => hstays rfl ⟨_, hmem, hlooter.symm, hmay⟩
    simp only [hneed, Bool.false_eq_true, if_false]
    rw [setLooter_eq h, searchLooter_eq]
    rfl
  | none =>
    have hend : gr.guids.length ≤ gr.guids.findIdx fun guid => some guid = gr.looterGuid := by
      have hslots := List.getElem?_eq_none_iff.mp hslot
      rwa [guids, List.length_map]
    dsimp only
    rw [setLooter_eq h, searchLooter_eq, nextTurn, turnOrder, List.drop_of_length_le hend,
      List.take_of_length_le hend, List.drop_of_length_le (Nat.le_succ_of_le hend),
      List.take_of_length_le (Nat.le_succ_of_le hend)]

theorem updateLooterGuid_of_stays (hstays : gr.LooterStays m) :
    gr.updateLooterGuid m true = gr := by
  obtain ⟨guid, hmem, hlooter, hmay⟩ := hstays
  have hlt : (gr.guids.findIdx fun guid => some guid = gr.looterGuid) < gr.guids.length :=
    List.findIdx_lt_length_of_exists ⟨guid, hmem, decide_eq_true hlooter.symm⟩
  have hfound : gr.guids[gr.guids.findIdx fun guid => some guid = gr.looterGuid] = guid := by
    have hdec := of_decide_eq_true (List.findIdx_getElem (w := hlt))
    exact Option.some.inj (hdec.trans hlooter)
  rw [updateLooterGuid, if_neg h, getLooterGuid_eq h, memberCSlot_eq]
  dsimp only
  have hlt' : (gr.guids.findIdx fun guid => some guid = gr.looterGuid) < gr.memberSlots.length := by
    rwa [guids, List.length_map] at hlt
  rw [List.getElem?_eq_getElem hlt']
  have hguid : gr.memberSlots[gr.guids.findIdx fun guid => some guid = gr.looterGuid].guid = guid := by
    rw [← hfound]
    exact (List.getElem_map ..).symm
  simp only [hguid, hmay, Bool.and_self, if_true]

theorem iterate_updateLooterGuid (n : ℕ) : (fun gr => gr.updateLooterGuid m false)^[n] gr =
      { gr with looterGuid := (nextTurn m.mayLoot gr.guids)^[n] gr.looterGuid } := by
  induction n with
  | zero => rfl
  | succ n ih =>
    rw [Function.iterate_succ_apply', ih, Function.iterate_succ_apply']
    exact updateLooterGuid_eq h fun hneed => (nomatch hneed)

end

/-- **Round-robin looting is fair**: the looter is the first member behind the last one who may loot, nobody
where nobody may, and with `ifneed` the last one as long as he may. With a fixed set of members who may
loot, as many calls as there are in it are one turn for each, after any number of calls. -/
theorem looters_take_turns (gr : LootingGroup) (m : LootingMoment)
    (hnodup : gr.guids.Nodup) (hmethod : gr.lootMethod ≠ .freeForAll) :
    (gr.LooterStays m → gr.updateLooterGuid m true = gr) ∧
    (∀ ifneed, (ifneed = true → ¬ gr.LooterStays m) → gr.updateLooterGuid m ifneed =
      { gr with looterGuid := (turnOrder gr.guids gr.looterGuid).find? m.mayLoot }) ∧
    (∀ ifneed, (gr.updateLooterGuid m ifneed).looterGuid = none ↔
      ∀ guid ∈ gr.guids, m.mayLoot guid = false) ∧
    ∀ n, ((List.range (gr.guids.filter m.mayLoot).length).map fun i =>
        ((fun gr => gr.updateLooterGuid m false)^[n + i + 1] gr).looterGuid).Perm
      ((gr.guids.filter m.mayLoot).map some) := by
  refine ⟨updateLooterGuid_of_stays hmethod, fun _ h => updateLooterGuid_eq hmethod h,
    fun ifneed => ?_, fun n => ?_⟩
  · by_cases hstays : ifneed = true ∧ gr.LooterStays m
    · obtain ⟨rfl, hstay⟩ := hstays
      rw [updateLooterGuid_of_stays hmethod hstay]
      obtain ⟨guid, hmem, hlooter, hmay⟩ := hstay
      rw [hlooter]
      refine ⟨fun h => (nomatch h), fun h => ?_⟩
      rw [h guid hmem] at hmay
      cases hmay
    · rw [updateLooterGuid_eq hmethod fun hneed hstay => hstays ⟨hneed, hstay⟩]
      exact nextTurn_eq_none
  · have hround := turns_perm (p := m.mayLoot) (a := gr.looterGuid) hnodup n
    simp only [iterate_updateLooterGuid hmethod]
    exact hround

/-- Three members, of whom the second is not there. The looter of now has left the group. -/
def threeMembers : LootingGroup := ⟨[⟨1, 0, false⟩, ⟨2, 0, false⟩, ⟨3, 0, false⟩], .groupLoot, some 4⟩

def secondAway : LootingMoment :=
  ⟨⟨fun _ _ => 0, 74⟩, fun guid => if guid = 2 then none else some ⟨⟨0, 0, 0, 0, 0⟩, true, none⟩,
    ⟨0, 0, 0, 0, 0⟩⟩

theorem looters_take_turns_threeMembers :
    threeMembers.guids.Nodup ∧
      ((List.range (threeMembers.guids.filter secondAway.mayLoot).length).map fun i =>
          ((fun gr : LootingGroup => gr.updateLooterGuid secondAway false)^[5 + i + 1]
            threeMembers).looterGuid).Perm
        ((threeMembers.guids.filter secondAway.mayLoot).map some) := by
  have hnodup : threeMembers.guids.Nodup := by decide
  exact ⟨hnodup, (looters_take_turns threeMembers secondAway hnodup (by decide)).2.2.2 5⟩

end Sunstrider.Groups.LootingGroup
