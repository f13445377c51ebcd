import Sunstrider.Groups.Group
import Sunstrider.Loots.Loot
import Sunstrider.Player.RewardDistance

/-!
# Round-robin looting

`Group::UpdateLooterGuid`. `none` is the empty guid, which no member has. The updates that are sent to the
members are left out.
-/

namespace Sunstrider.Groups

open Sunstrider.Loots (LootMethod)
open Sunstrider.Player (Body Location RewardRules)

/-- What a group has for the turns of its members. -/
structure LootingGroup where
  memberSlots : List MemberSlot
  lootMethod : LootMethod
  looterGuid : Option ℕ

/-- A moment at which an object is looted: `ObjectAccessor::FindPlayer` finds the players who are in the
world. -/
structure LootingMoment where
  rules : RewardRules
  findPlayer : ℕ → Option Body
  lootedObject : Location

/-- The test of both searches: the player is found, and at the distance for a reward. -/
def LootingMoment.mayLoot (m : LootingMoment) (guid : ℕ) : Bool :=
  match m.findPlayer guid with
  | none => false
  | some player => player.isAtGroupRewardDistance m.rules m.lootedObject

namespace LootingGroup

variable (gr : LootingGroup)

def getLooterGuid : Option ℕ :=
  if gr.lootMethod = .freeForAll then none else gr.looterGuid

/-- `_getMemberCSlot`: the index of a slot, or that of the end. -/
def memberCSlot (guid : Option ℕ) : ℕ := gr.memberSlots.findIdx fun slot => some slot.guid = guid

/-- The two searches of `UpdateLooterGuid`, from an iterator to the end and from the start to it. -/
def searchLooter (m : LootingMoment) (guidItr : ℕ) : Option ℕ :=
  match (gr.memberSlots.drop guidItr).find? fun slot => m.mayLoot slot.guid with
  | some slot => some slot.guid
  | none =>
    ((gr.memberSlots.take guidItr).find? fun slot => m.mayLoot slot.guid).map MemberSlot.guid

/-- What `UpdateLooterGuid` does with the new looter, if there is one. -/
def setLooter : Option ℕ → LootingGroup
  | some guid => if gr.getLooterGuid ≠ some guid then { gr with looterGuid := some guid } else gr
  | none => { gr with looterGuid := none }

def updateLooterGuid (m : LootingMoment) (ifneed : Bool) : LootingGroup :=
  if gr.lootMethod = .freeForAll then gr
  else
    let guidItr := gr.memberCSlot gr.getLooterGuid
    match gr.memberSlots[guidItr]? with
    | some slot =>
      if ifneed && m.mayLoot slot.guid then gr
      else gr.setLooter (gr.searchLooter m (guidItr + 1))
    | none => gr.setLooter (gr.searchLooter m guidItr)

end LootingGroup

end Sunstrider.Groups
