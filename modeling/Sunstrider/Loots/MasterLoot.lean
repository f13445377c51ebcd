import Sunstrider.Inventory.Planning
import Sunstrider.Loots.Loot
import Sunstrider.Player.RewardDistance

/-!
# Gifts of the master looter

`WorldSession::HandleLootMasterGiveOpcode`, on the loot that the master looter has open.

The bags of a player are a parameter, with the answers of `CanStoreNewItem` and what `StoreNewItem` makes
of them. A map object is known by the ids of the map and of the instance. Left out: notifications and the
log.
-/

namespace Sunstrider.Loots

open Sunstrider.Inventory (Answer InventoryResult ItemPosCount)
open Sunstrider.Player (Body RewardRules)

inductive LootError
  | didntKill | tooFar | playerNotFound | masterInvFull | masterUniqueItem | masterOther
  deriving DecidableEq

/-- A guid, by the kinds of object that the handler looks for. -/
inductive LootGuid
  /-- `IsCreatureOrVehicle`. -/
  | creature (guid : ℕ)
  | gameObject (guid : ℕ)
  | other (guid : ℕ)
  deriving DecidableEq

/-- A unit that stands for a player, or the player himself. -/
inductive Controller
  | player (guid : ℕ) (group : Option ℕ)
  | creature (guid faction : ℕ)
  deriving DecidableEq

/-- What is asked of the bags of a player, and what is done to them. -/
structure Storage (Bags : Type) where
  canStoreNewItem : Bags → (itemid count : ℕ) → Answer
  storeNewItem : Bags → List ItemPosCount → (itemid : ℕ) → Bags

/-- A player who is in the world, with the answers of `AllowedForPlayer`. -/
structure LootingPlayer where
  guid : ℕ
  group : Option ℕ
  charmerOrOwner : Option Controller
  body : Body
  lootGuid : LootGuid
  allowed : LootItem → Bool

structure LootGroup where
  masterLooterGuid : ℕ
  lootMethod : LootMethod
  deriving DecidableEq

/-- The id of a map, and that of its instance. -/
abbrev MapKey : Type := ℕ × ℕ

structure LootWorld (Bags : Type) where
  players : ℕ → Option LootingPlayer
  groups : ℕ → LootGroup
  /-- The loot of the creatures and of the game objects of a map. -/
  loots : MapKey → LootGuid → Option Loot
  bags : ℕ → Bags

/-- What the handler answers, the error to the sender and the one to the target. -/
inductive GiveAnswer
  | error (error : LootError)
  | slotIsNone
  | noRoom (error : LootError) (msg : InventoryResult)
  | given
  deriving DecidableEq

namespace LootingPlayer

variable (p : LootingPlayer)

def map : MapKey := (p.body.location.mapId, p.body.location.instanceId)

/-- `GetCharmerOrOwnerOrSelf`. -/
def controller : Controller := p.charmerOrOwner.getD (.player p.guid p.group)

/-- `Unit::IsInRaidWith`, with `IsInSameRaidWith` for two players. -/
def isInRaidWith (unit : LootingPlayer) : Bool :=
  if p.guid = unit.guid then true
  else if p.controller = unit.controller then true
  else
    match p.controller, unit.controller with
    | .player u₁ group₁, .player u₂ group₂ => u₁ = u₂ || group₁.isSome && group₁ = group₂
    | .creature _ faction₁, .creature _ faction₂ => faction₁ = faction₂
    | _, _ => false

def isInMap (obj : LootingPlayer) : Bool :=
  p.body.location.mapId = obj.body.location.mapId &&
    p.body.location.instanceId = obj.body.location.instanceId

/-- `IsAtGroupRewardDistance` of another player. -/
def isAtGroupRewardDistance (rules : RewardRules) (target : LootingPlayer) : Bool :=
  p.body.isAtGroupRewardDistance rules target.body.location

end LootingPlayer

/-- The error that tells the sender why the target has no room. -/
def masterError (msg : InventoryResult) : LootError :=
  if msg = .cantCarryMoreOfThis then .masterUniqueItem
  else if msg = .inventoryFull then .masterInvFull
  else .masterOther

namespace LootWorld

variable {Bags : Type} (S : Storage Bags) (rules : RewardRules) (w : LootWorld Bags) (player : LootingPlayer)

/-- `ObjectAccessor::GetPlayer`, on the map of the sender. -/
def getPlayer (guid : ℕ) : Option LootingPlayer :=
  (w.players guid).filter fun p => p.map = player.map

/-- The sender is the master looter of a group that has one. -/
def isMasterLooter : Bool :=
  player.group.any fun group =>
    (w.groups group).masterLooterGuid = player.guid && (w.groups group).lootMethod = .masterLoot

/-- `pLoot`, of the object that the sender has open. -/
def lootOf : Option Loot :=
  match player.lootGuid with
  | .creature guid => w.loots player.map (.creature guid)
  | .gameObject guid => w.loots player.map (.gameObject guid)
  | .other _ => none

/-- What `CanStoreNewItem` answers for the target, unless he is not allowed to have the item. -/
def canStore (target : LootingPlayer) (item : LootItem) : Answer :=
  let (msg, dest) := S.canStoreNewItem (w.bags target.guid) item.itemid item.count
  if item.followLootRules && !target.allowed item then (.youCanNeverUseThatItem, dest) else (msg, dest)

/-- The item of a slot goes to the target. -/
def give (target : LootingPlayer) (loot : Loot) (slotid : ℕ) (item : LootItem)
    (dest : List ItemPosCount) : LootWorld Bags :=
  { w with
    bags := Function.update w.bags target.guid (S.storeNewItem (w.bags target.guid) dest item.itemid)
    loots := Function.update w.loots player.map (Function.update (w.loots player.map) player.lootGuid
      (some (loot.handOut slotid fun item => { item with count := 0 }))) }

def handleLootMasterGive (lootguid : LootGuid) (slotid targetGuid : ℕ) : LootWorld Bags × GiveAnswer :=
  if !w.isMasterLooter player then (w, .error .didntKill)
  else
    match w.getPlayer player targetGuid with
    | none => (w, .error .playerNotFound)
    | some target =>
      if player.lootGuid ≠ lootguid then (w, .error .didntKill)
      else if !player.isInRaidWith target || !player.isInMap target then (w, .error .masterOther)
      -- the target that is near is the one that is refused
      else if player.isAtGroupRewardDistance rules target then (w, .error .tooFar)
      else if player.body.location.instanceId ≠ target.body.location.instanceId then
        (w, .error .masterOther)
      else
        match w.lootOf player with
        | none => (w, .error .masterOther)
        | some loot =>
          -- `itemAt` finds nothing in a slot behind the last quest item
          match loot.itemAt slotid with
          | none => (w, .slotIsNone)
          | some item =>
            match w.canStore S target item with
            | (.ok, dest) => (w.give S player target loot slotid item dest, .given)
            | (msg, _) => (w, .noRoom (masterError msg) msg)

end LootWorld

end Sunstrider.Loots
