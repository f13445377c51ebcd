import Mathlib.Algebra.Order.Round
import Mathlib.Data.Finset.Basic
import Mathlib.Data.Finset.Card
import Mathlib.Data.Rat.Floor
import Sunstrider.Lib.Rounding
import Sunstrider.Lib.Word

/-!
# Pools

`PoolMgr.cpp`: the groups of creatures, gameobjects and pools that spawn together up to a limit, how they
are loaded, and how they spawn and despawn. A pool that is spawned spawns its child pools in turn, so
these functions are given fuel, and answer `none` where it does not last.

A creature or a gameobject is named by its spawn id. What its spawning does on a map, the pools of quests
and the log are left out. The refill of a pool, where its spawning reads the maps, and the pools of
quests have models of their own below.
-/

namespace Sunstrider.Pools

open Sunstrider.Lib (Rounding subU32 toInt32)

/-- `Creature`, `GameObject` and `Pool`, the template parameters of the source. -/
inductive PoolKind
  | creature
  | gameobject
  | pool
  deriving DecidableEq

/-! ## Data -/

structure PoolTemplateData where
  maxLimit : ℕ
  maxLimitPercent : ℚ

structure PoolObject where
  guid : ℕ
  chance : ℚ
  deriving DecidableEq

def PoolObject.new (guid : ℕ) (chance : ℚ) : PoolObject := ⟨guid, |chance|⟩

structure PoolGroup where
  poolId : ℕ
  explicitlyChanced : List PoolObject
  equalChanced : List PoolObject

structure ActivePoolData where
  spawnedCreatures : Finset ℕ
  spawnedGameobjects : Finset ℕ
  spawnedPools : ℕ → Option ℕ

/-- What `SpawnObject` draws: `rand_chance`, and `urand (1, n)` for every `n` in `RandomResize`. -/
structure Dice where
  chance : ℚ
  urand : ℕ → ℕ

/-- `mSpawnedData`, and the dice that are still to be thrown. -/
structure PoolWorld where
  spawns : ActivePoolData
  dice : ℕ → Dice

/-- The loaded groups and maps of `PoolMgr`. A group that is not there is empty. -/
structure PoolMgr where
  poolTemplate : ℕ → Option PoolTemplateData
  groups : PoolKind → ℕ → PoolGroup
  searchMap : PoolKind → ℕ → Option ℕ

/-! ## Active objects -/

namespace ActivePoolData

variable (s : ActivePoolData)

def getActiveObjectCount (poolId : ℕ) : ℕ := (s.spawnedPools poolId).getD 0

def isActiveObject : PoolKind → ℕ → Bool
  | .creature, guid => guid ∈ s.spawnedCreatures
  | .gameobject, guid => guid ∈ s.spawnedGameobjects
  | .pool, subPoolId => (s.spawnedPools subPoolId).isSome

/-- `++mSpawnedPools[pool_id]`. -/
def increase (poolId : ℕ) : ActivePoolData :=
  { s with spawnedPools :=
      Function.update s.spawnedPools poolId (some (s.getActiveObjectCount poolId + 1)) }

/-- A reference to `mSpawnedPools[pool_id]` that is decreased if it can be. -/
def decrease (poolId : ℕ) : ActivePoolData :=
  { s with spawnedPools :=
      Function.update s.spawnedPools poolId (some (s.getActiveObjectCount poolId - 1)) }

def activateObject (kind : PoolKind) (guid poolId : ℕ) : ActivePoolData :=
  match kind with
  | .creature => { s with spawnedCreatures := insert guid s.spawnedCreatures }.increase poolId
  | .gameobject => { s with spawnedGameobjects := insert guid s.spawnedGameobjects }.increase poolId
  | .pool => { s with spawnedPools := Function.update s.spawnedPools guid (some 0) }.increase poolId

def removeObject (kind : PoolKind) (guid poolId : ℕ) : ActivePoolData :=
  match kind with
  | .creature => { s with spawnedCreatures := s.spawnedCreatures.erase guid }.decrease poolId
  | .gameobject => { s with spawnedGameobjects := s.spawnedGameobjects.erase guid }.decrease poolId
  | .pool => { s with spawnedPools := Function.update s.spawnedPools guid none }.decrease poolId

end ActivePoolData

namespace PoolWorld

variable (w : PoolWorld)

def activateObject (kind : PoolKind) (guid poolId : ℕ) : PoolWorld :=
  { w with spawns := w.spawns.activateObject kind guid poolId }

def removeObject (kind : PoolKind) (guid poolId : ℕ) : PoolWorld :=
  { w with spawns := w.spawns.removeObject kind guid poolId }

end PoolWorld

/-! ## Groups -/

/-- The loop of `Trinity::Containers::RandomResize` on a list that is not modified, with what `urand` draws
while so many elements are left. -/
def randomKeep {α : Type} (urand : ℕ → ℕ) : ℕ → List α → List α
  | _, [] => []
  | elementsToKeep, a :: l =>
    if 1 + urand l.length % (l.length + 1) ≤ elementsToKeep then
      a :: randomKeep urand (elementsToKeep - 1) l
    else randomKeep urand elementsToKeep l

def randomResize {α : Type} (urand : ℕ → ℕ) (requestedSize : ℕ) (l : List α) : List α :=
  if l.length ≤ requestedSize then l else randomKeep urand requestedSize l

/-- `std::round` to an unsigned number, of a number that is not negative. -/
def roundToUInt (x : ℚ) : ℕ := (round x).toNat

namespace PoolGroup

variable (g : PoolGroup)

def isEmpty : Bool := g.explicitlyChanced.isEmpty && g.equalChanced.isEmpty

/-- The members of a group. -/
def objects : List PoolObject := g.equalChanced ++ g.explicitlyChanced

def addEntry (poolitem : PoolObject) (maxentries : ℕ) : PoolGroup :=
  if poolitem.chance ≠ 0 && maxentries = 1 then
    { g with explicitlyChanced := g.explicitlyChanced ++ [poolitem] }
  else { g with equalChanced := g.equalChanced ++ [poolitem] }

/-- `PoolGroup<Pool>::RemoveOneRelation`. -/
def removeOneRelation (childPoolId : ℕ) : PoolGroup :=
  { g with
    explicitlyChanced := g.explicitlyChanced.eraseP fun obj => obj.guid = childPoolId
    equalChanced := g.equalChanced.eraseP fun obj => obj.guid = childPoolId }

/-- The limit of `SpawnObject`: the lower of the two, where 0 is none. -/
def spawnLimit (R : Rounding) (t : PoolTemplateData) : ℕ :=
  let limitPercentRatio := R.div t.maxLimitPercent 100
  if limitPercentRatio ≠ 0 then
    let limitFromPercent := roundToUInt (R.mul (R.round g.equalChanced.length) limitPercentRatio)
    if t.maxLimit ≠ 0 then min t.maxLimit limitFromPercent else limitFromPercent
  else t.maxLimit

/-- An object that can be rolled: the trigger, or one that is not spawned. -/
def available (s : ActivePoolData) (kind : PoolKind) (triggerFrom : ℕ) (obj : PoolObject) : Bool :=
  obj.guid = triggerFrom || !s.isActiveObject kind obj.guid

/-- The roll of an object by its chance. -/
def rollExplicit (R : Rounding) (s : ActivePoolData) (kind : PoolKind) (triggerFrom : ℕ) :
    ℚ → List PoolObject → List PoolObject
  | _, [] => []
  | roll, obj :: l =>
    let roll := R.sub roll obj.chance
    if roll < 0 && available s kind triggerFrom obj then [obj]
    else rollExplicit R s kind triggerFrom roll l

/-- The objects to be spawned. -/
def rolledObjects (R : Rounding) (s : ActivePoolData) (kind : PoolKind) (triggerFrom limit count : ℕ)
    (dice : Dice) : List PoolObject :=
  let rolled := rollExplicit R s kind triggerFrom dice.chance g.explicitlyChanced
  if rolled.isEmpty then
    let rolled := g.equalChanced.filter (available s kind triggerFrom)
    if limit ≠ 0 then randomResize dice.urand count rolled else rolled
  else rolled

/-- `PoolGroup::DespawnObject`, with what is done to one object. -/
def despawnObject (despawn1Object : ℕ → PoolWorld → Option PoolWorld) (kind : PoolKind) (guid : ℕ)
    (w : PoolWorld) : Option PoolWorld :=
  g.objects.foldlM (fun w obj =>
    if w.spawns.isActiveObject kind obj.guid && (guid = 0 || obj.guid = guid) then
      (despawn1Object obj.guid w).map fun w => w.removeObject kind obj.guid g.poolId
    else some w) w

/-- The spawning of one object that was rolled, and the trigger, which is 0 once it is respawned. -/
def spawn1Rolled (spawn1Object : ℕ → PoolWorld → Option PoolWorld) (kind : PoolKind) (w : PoolWorld)
    (triggerFrom : ℕ) (obj : PoolObject) : Option (PoolWorld × ℕ) :=
  if obj.guid = triggerFrom then
    if w.spawns.isActiveObject kind obj.guid then some (w, 0)
    else some (w.activateObject kind obj.guid g.poolId, 0)
  else
    (spawn1Object obj.guid (w.activateObject kind obj.guid g.poolId)).map fun w => (w, triggerFrom)

/-- The spawning of the objects that were rolled. -/
def spawnRolled (spawn1Object : ℕ → PoolWorld → Option PoolWorld) (kind : PoolKind)
    (triggerFrom : ℕ) (rolled : List PoolObject) (w : PoolWorld) : Option (PoolWorld × ℕ) :=
  rolled.foldlM (fun out obj => g.spawn1Rolled spawn1Object kind out.1 out.2 obj) (w, triggerFrom)

/-- The `count` of `SpawnObject`: what the limit leaves, and one more for a trigger that is counted. -/
def spawnCount (limit : ℕ) (kind : PoolKind) (triggerFrom : ℕ) (w : PoolWorld) : ℤ :=
  toInt32 (subU32 limit (w.spawns.getActiveObjectCount g.poolId)) +
    if triggerFrom ≠ 0 && w.spawns.isActiveObject kind triggerFrom then 1 else 0

/-- The objects that `SpawnObject` rolls. -/
def objectsToSpawn (R : Rounding) (kind : PoolKind) (t : PoolTemplateData) (triggerFrom : ℕ)
    (w : PoolWorld) : List PoolObject :=
  let limit := g.spawnLimit R t
  let count := g.spawnCount limit kind triggerFrom w
  if 0 < count || limit = 0 then
    g.rolledObjects R w.spawns kind triggerFrom limit count.toNat (w.dice 0)
  else []

def spawnObject (R : Rounding) (spawn1Object despawn1Object : ℕ → PoolWorld → Option PoolWorld)
    (kind : PoolKind) (t : PoolTemplateData) (triggerFrom : ℕ) (w : PoolWorld) : Option PoolWorld :=
  let rolled := g.objectsToSpawn R kind t triggerFrom w
  let w := { w with dice := fun n => w.dice (n + 1) }
  (g.spawnRolled spawn1Object kind triggerFrom rolled w).bind fun (w, triggerFrom) =>
    if triggerFrom ≠ 0 then g.despawnObject despawn1Object kind triggerFrom w else some w

end PoolGroup

/-! ## Loading -/

/-- A row of `pool_pool`. -/
structure PoolPoolRow where
  childPoolId : ℕ
  motherPoolId : ℕ
  chance : ℚ

namespace PoolMgr

variable (mgr : PoolMgr)

/-- `mPoolTemplate[pool_id]`. -/
def template (poolId : ℕ) : PoolTemplateData := (mgr.poolTemplate poolId).getD ⟨0, 0⟩

/-- A write to a group. -/
def setGroup (kind : PoolKind) (poolId : ℕ) (g : PoolGroup) : PoolMgr :=
  { mgr with groups :=
      Function.update mgr.groups kind (Function.update (mgr.groups kind) poolId g) }

/-- A write to a search map. -/
def setSearch (kind : PoolKind) (guid : ℕ) (poolId : Option ℕ) : PoolMgr :=
  { mgr with searchMap :=
      Function.update mgr.searchMap kind (Function.update (mgr.searchMap kind) guid poolId) }

/-- `PoolMgr::LoadEntry`. The search map keeps the pool that came first. -/
def loadEntry (kind : PoolKind) (poolId guid : ℕ) (chance : ℚ) : PoolMgr :=
  let group := ({ mgr.groups kind poolId with poolId := poolId }).addEntry (.new guid chance)
    (mgr.template poolId).maxLimit
  let mgr := mgr.setGroup kind poolId group
  if (mgr.searchMap kind guid).isSome then mgr else mgr.setSearch kind guid (some poolId)

/-- The checks on a row of `pool_pool`. -/
def acceptsRow (row : PoolPoolRow) : Bool :=
  (mgr.poolTemplate row.motherPoolId).isSome && (mgr.poolTemplate row.childPoolId).isSome &&
    row.motherPoolId ≠ row.childPoolId && 0 ≤ row.chance && row.chance ≤ 100

/-- The rows of `pool_pool`. -/
def loadRows (rows : List PoolPoolRow) : PoolMgr :=
  rows.foldl (fun mgr row =>
    if mgr.acceptsRow row then mgr.loadEntry .pool row.motherPoolId row.childPoolId row.chance
    else mgr) mgr

/-- The walk from a pool along its mothers, until one of `checkedPools` comes again: the last relation
of it, of a child and its mother. A walk visits no more pools than there are. -/
def findCircle (search : ℕ → Option ℕ) : ℕ → List ℕ → ℕ → Option (ℕ × ℕ)
  | 0, _, _ => none
  | fuel + 1, checkedPools, child =>
    match search child with
    | none => none
    | some mother =>
      if mother ∈ child :: checkedPools then some (child, mother)
      else findCircle search fuel (child :: checkedPools) mother

/-- The removal of a relation from its mother and from the search map. -/
def removeRelation (child mother : ℕ) : PoolMgr :=
  (mgr.setGroup .pool mother ((mgr.groups .pool mother).removeOneRelation child)).setSearch .pool child
    none

/-- One round of the check for circular references. -/
def removeCircle (pools : ℕ) (poolId : ℕ) : PoolMgr :=
  match findCircle (mgr.searchMap .pool) pools [] poolId with
  | none => mgr
  | some (child, mother) => mgr.removeRelation child mother

/-- The check for circular references, over the pools of `mPoolTemplate` in some order. -/
def removeCircles (order : List ℕ) : PoolMgr :=
  order.foldl (fun mgr poolId => mgr.removeCircle order.length poolId) mgr

/-- The pools of pools in `PoolMgr::LoadFromDB`. -/
def loadPoolPools (order : List ℕ) (rows : List PoolPoolRow) : PoolMgr :=
  (mgr.loadRows rows).removeCircles order

/-! ## Spawning -/

/-- `Spawn1Object` and `Despawn1Object`: only of a pool is there more to do than on a map. -/
def oneObject (onPool : ℕ → PoolWorld → Option PoolWorld) :
    PoolKind → ℕ → PoolWorld → Option PoolWorld
  | .creature, _, w => some w
  | .gameobject, _, w => some w
  | .pool, childPoolId, w => onPool childPoolId w

/-- `PoolMgr::SpawnPool<T>`, with the functions for one child pool. -/
def spawnPoolOf (R : Rounding) (spawn1Pool despawn1Pool : ℕ → PoolWorld → Option PoolWorld)
    (kind : PoolKind) (poolId triggerFrom : ℕ) (w : PoolWorld) : Option PoolWorld :=
  if (mgr.groups kind poolId).isEmpty then some w
  else
    (mgr.groups kind poolId).spawnObject R (oneObject spawn1Pool kind) (oneObject despawn1Pool kind)
      kind (mgr.template poolId) triggerFrom w

/-- `DespawnObject` of all objects of a kind, if there are any. -/
def despawnPoolOf (despawn1Pool : ℕ → PoolWorld → Option PoolWorld) (kind : PoolKind) (poolId : ℕ)
    (w : PoolWorld) : Option PoolWorld :=
  if (mgr.groups kind poolId).isEmpty then some w
  else (mgr.groups kind poolId).despawnObject (oneObject despawn1Pool kind) kind 0 w

def despawnPool : ℕ → ℕ → PoolWorld → Option PoolWorld
  | 0, _, _ => none
  | fuel + 1, poolId, w =>
    (mgr.despawnPoolOf (despawnPool fuel) .creature poolId w).bind fun w =>
      (mgr.despawnPoolOf (despawnPool fuel) .gameobject poolId w).bind fun w =>
        mgr.despawnPoolOf (despawnPool fuel) .pool poolId w

def spawnPool (R : Rounding) : ℕ → ℕ → PoolWorld → Option PoolWorld
  | 0, _, _ => none
  | fuel + 1, poolId, w =>
    (mgr.spawnPoolOf R (spawnPool R fuel) (mgr.despawnPool fuel) .pool poolId 0 w).bind fun w =>
      (mgr.spawnPoolOf R (spawnPool R fuel) (mgr.despawnPool fuel) .gameobject poolId 0 w).bind
        fun w => mgr.spawnPoolOf R (spawnPool R fuel) (mgr.despawnPool fuel) .creature poolId 0 w

/-- `PoolMgr::UpdatePool<T>`: the mother pool, if there is one, is updated instead. -/
def updatePool (R : Rounding) (fuel : ℕ) (kind : PoolKind) (poolId guid : ℕ) (w : PoolWorld) :
    Option PoolWorld :=
  match mgr.searchMap .pool poolId with
  | some motherpoolid =>
    if motherpoolid ≠ 0 then
      mgr.spawnPoolOf R (mgr.spawnPool R fuel) (mgr.despawnPool fuel) .pool motherpoolid poolId w
    else mgr.spawnPoolOf R (mgr.spawnPool R fuel) (mgr.despawnPool fuel) kind poolId guid w
  | none => mgr.spawnPoolOf R (mgr.spawnPool R fuel) (mgr.despawnPool fuel) kind poolId guid w

def removeActiveObject (kind : PoolKind) (poolId guid : ℕ) (w : PoolWorld) : PoolWorld :=
  if w.spawns.isActiveObject kind guid then w.removeObject kind guid poolId else w

/-! ## Runs -/

/-- What is called from outside. -/
inductive Op
  | spawnPool (poolId : ℕ)
  | despawnPool (poolId : ℕ)
  | updatePool (kind : PoolKind) (poolId guid : ℕ)
  | removeActiveObject (kind : PoolKind) (poolId guid : ℕ)

def step (R : Rounding) (fuel : ℕ) (w : PoolWorld) : Op → Option PoolWorld
  | .spawnPool poolId => mgr.spawnPool R fuel poolId w
  | .despawnPool poolId => mgr.despawnPool fuel poolId w
  | .updatePool kind poolId guid => mgr.updatePool R fuel kind poolId guid w
  | .removeActiveObject kind poolId guid => some (removeActiveObject kind poolId guid w)

end PoolMgr

/-- Nothing is spawned. -/
def PoolWorld.start (dice : ℕ → Dice) : PoolWorld := ⟨⟨∅, ∅, fun _ => none⟩, dice⟩

end Sunstrider.Pools

/-!
## The refill of a pool

`PoolMgr::UpdatePool` when a member of a pool is due to respawn, with what `PoolGroup<T>::SpawnObject` asks
of the maps: `ReSpawn1Object` of the trigger, and the calls of `Spawn1Object` for creatures and gameobjects.
The maps stay as they are meanwhile. The loop of `ReSpawn1Object` is given fuel, and answers `none` where
it does not last.

For a child pool the update is `SpawnPool<Pool>` of the mother. A pool is never spawned by `ReSpawn1Object`,
so that is the one of `PoolMgr`; the calls for members of other children are left out.
-/

namespace Sunstrider.Pools

open Sunstrider.Lib (Rounding)

/-- The base maps, as the spawning of one object sees them. -/
structure PoolMaps where
  /-- `GetCreatureData`: the map of the spawn point. -/
  creatureData : ℕ → Option ℕ
  instanceable : ℕ → Bool
  /-- `GetCreatureBySpawnIdStore`: for each of the creatures of a spawn id whether it is in the
  respawn compatibility mode. -/
  creatures : ℕ → List Bool
  /-- Whether `GetGameObjectBySpawnIdStore` has gameobjects of a spawn id. -/
  gameobjects : ℕ → Bool

namespace PoolMaps

variable (maps : PoolMaps)

/-- Something of the spawn id is on the map. -/
def onMap : PoolKind → ℕ → Bool
  | .creature, guid => !(maps.creatures guid).isEmpty
  | .gameobject, guid => maps.gameobjects guid
  | .pool, _ => false

/-- The loop of `PoolGroup<Creature>::ReSpawn1Object`, from an iterator on: the calls of `Spawn1Object`. -/
def reSpawnLoop (guid : ℕ) : ℕ → List Bool → Option (List ℕ)
  | 0, _ => none
  | _ + 1, [] => some []
  | fuel + 1, compatibilityMode :: rest =>
    -- nothing moves the iterator
    if !compatibilityMode then some [guid] else reSpawnLoop guid fuel (compatibilityMode :: rest)

/-- `ReSpawn1Object`: the calls of `Spawn1Object`. -/
def reSpawn1Object (fuel : ℕ) : PoolKind → ℕ → Option (List ℕ)
  | .creature, guid =>
    match maps.creatureData guid with
    | none => some []
    | some map => if !maps.instanceable map then reSpawnLoop guid fuel (maps.creatures guid) else some []
  | .gameobject, _ => some []
  | .pool, _ => some []

end PoolMaps

/-- The world of the pools, and the objects that were passed to `Spawn1Object` and did not die since. -/
structure RefillWorld extends PoolWorld where
  passed : List (PoolKind × ℕ)

namespace PoolGroup

variable (g : PoolGroup) (maps : PoolMaps) (fuel : ℕ)

/-- The spawning of one creature or gameobject that was rolled, and the trigger, which is 0 once it is
respawned. -/
def refill1Rolled (kind : PoolKind) (w : RefillWorld) (triggerFrom : ℕ) (obj : PoolObject) :
    Option (RefillWorld × ℕ) :=
  if obj.guid = triggerFrom then
    let activated : PoolWorld :=
      if w.spawns.isActiveObject kind obj.guid then w.toPoolWorld
      else w.activateObject kind obj.guid g.poolId
    (maps.reSpawn1Object fuel kind obj.guid).map fun calls =>
      (⟨activated, w.passed ++ calls.map fun guid => (kind, guid)⟩, 0)
  else some (⟨w.activateObject kind obj.guid g.poolId, w.passed ++ [(kind, obj.guid)]⟩, triggerFrom)

/-- The spawning of the objects that were rolled. -/
def refillRolled (kind : PoolKind) (triggerFrom : ℕ) (rolled : List PoolObject) (w : RefillWorld) :
    Option (RefillWorld × ℕ) :=
  rolled.foldlM (fun out obj => g.refill1Rolled maps fuel kind out.1 out.2 obj) (w, triggerFrom)

/-- `PoolGroup::SpawnObject`, of creatures and gameobjects. -/
def refillObject (R : Rounding) (kind : PoolKind) (t : PoolTemplateData) (triggerFrom : ℕ)
    (w : RefillWorld) : Option RefillWorld :=
  let rolled := g.objectsToSpawn R kind t triggerFrom w.toPoolWorld
  let w : RefillWorld := ⟨{ w.toPoolWorld with dice := fun n => w.dice (n + 1) }, w.passed⟩
  (g.refillRolled maps fuel kind triggerFrom rolled w).bind fun (w, triggerFrom) =>
    if triggerFrom ≠ 0 then
      (g.despawnObject (fun _ w => some w) kind triggerFrom w.toPoolWorld).map fun w' => ⟨w', w.passed⟩
    else some w

end PoolGroup

namespace PoolMgr

variable (mgr : PoolMgr) (maps : PoolMaps)

/-- `IsPartOfAPool<Pool>`, where 0 is none. -/
def motherOf (poolId : ℕ) : Option ℕ := (mgr.searchMap .pool poolId).filter fun mother => mother ≠ 0

/-- `PoolMgr::SpawnPool<T>`, of creatures and gameobjects. -/
def refillPool (R : Rounding) (fuel : ℕ) (kind : PoolKind) (poolId triggerFrom : ℕ) (w : RefillWorld) :
    Option RefillWorld :=
  if (mgr.groups kind poolId).isEmpty then some w
  else (mgr.groups kind poolId).refillObject maps fuel R kind (mgr.template poolId) triggerFrom w

/-- `PoolMgr::UpdatePool<T>`, of creatures and gameobjects. -/
def updateRefill (R : Rounding) (fuel : ℕ) (kind : PoolKind) (poolId guid : ℕ) (w : RefillWorld) :
    Option RefillWorld :=
  match mgr.motherOf poolId with
  | some mother =>
    (mgr.spawnPoolOf R (mgr.spawnPool R fuel) (mgr.despawnPool fuel) .pool mother poolId
      w.toPoolWorld).map fun w' => ⟨w', w.passed⟩
  | none => mgr.refillPool maps R fuel kind poolId guid w

/-- A member dies, and `RemoveActiveObject` is called. -/
def memberDies (kind : PoolKind) (poolId guid : ℕ) (w : RefillWorld) : RefillWorld :=
  ⟨removeActiveObject kind poolId guid w.toPoolWorld, w.passed.filter (· ≠ (kind, guid))⟩

end PoolMgr

end Sunstrider.Pools

/-!
## Pools of quests

`PoolGroup<Quest>` of `PoolMgr.cpp`, with the quests of `ActivePoolData`. All members of such a pool have
the same chance, since `LoadEntry<Quest>` is given none.

`SelectRandomContainerElement` is a choice of one element for every container. A loop asks for each of
its containers once. Where a quest is given and taken, and `SaveQuestsToDB`, are left out.
-/

namespace Sunstrider.Pools

open Sunstrider.Lib (Rounding subU32)

/-- `ActivePoolData`, with `mActiveQuests`. -/
structure ActiveQuestData extends ActivePoolData where
  activeQuests : Finset ℕ

/-- The choices of `SelectRandomContainerElement`, in the two loops of `SpawnObject`. -/
structure QuestDice where
  recycled : ∀ quests : Finset ℕ, quests.Nonempty → {questId // questId ∈ quests}
  activated : ∀ quests : Finset ℕ, quests.Nonempty → {questId // questId ∈ quests}

namespace ActiveQuestData

variable (s : ActiveQuestData)

def activateQuest (questId poolId : ℕ) : ActiveQuestData :=
  { s with
    toActivePoolData := s.toActivePoolData.increase poolId
    activeQuests := insert questId s.activeQuests }

def removeQuest (questId poolId : ℕ) : ActiveQuestData :=
  { s with
    toActivePoolData := s.toActivePoolData.decrease poolId
    activeQuests := s.activeQuests.erase questId }

end ActiveQuestData

namespace PoolGroup

variable (g : PoolGroup)

/-- `DespawnObject`, of all quests. -/
def despawnQuests (s : ActiveQuestData) : ActiveQuestData :=
  g.objects.foldl (fun s obj =>
    if obj.guid ∈ s.activeQuests then s.removeQuest obj.guid g.poolId else s) s

/-- The quests that are not active, as `newQuests` starts. -/
def inactiveQuests (s : ActiveQuestData) : Finset ℕ :=
  ((g.equalChanced.filter fun obj => obj.guid ∉ s.activeQuests).map PoolObject.guid).toFinset

/-- The loop that takes quests out of `currentQuests`, which has no more rounds than there are quests. -/
def recycleQuests (dice : QuestDice) (limit : ℕ) : ℕ → Finset ℕ → Finset ℕ → Finset ℕ
  | 0, _, newQuests => newQuests
  | n + 1, currentQuests, newQuests =>
    if h : currentQuests.Nonempty then
      if newQuests.card < limit then
        let questId := (dice.recycled currentQuests h).1
        recycleQuests dice limit n (currentQuests.erase questId) (insert questId newQuests)
      else newQuests
    else newQuests

/-- The loop that activates `limit` quests of `newQuests`, and all of them where there is no limit. -/
def activateQuests (dice : QuestDice) : ℕ → ℕ → Finset ℕ → ActiveQuestData → ActiveQuestData
  | 0, _, _, s => s
  | n + 1, limit, newQuests, s =>
    if h : newQuests.Nonempty then
      let questId := (dice.activated newQuests h).1
      if subU32 limit 1 ≠ 0 then
        activateQuests dice n (subU32 limit 1) (newQuests.erase questId) (s.activateQuest questId g.poolId)
      else s.activateQuest questId g.poolId
    else s

/-- The loop over the rows of `CHAR_SEL_POOL_QUEST_SAVE`. -/
def restoreQuests : ℕ → List ℕ → ActiveQuestData → ActiveQuestData
  | _, [], s => s
  | limit, questId :: saved, s =>
    if subU32 limit 1 ≠ 0 then restoreQuests (subU32 limit 1) saved (s.activateQuest questId g.poolId)
    else s.activateQuest questId g.poolId

/-- `PoolGroup<Quest>::SpawnObject`, with the quests that are saved for the pool. -/
def spawnQuests (R : Rounding) (t : PoolTemplateData) (triggerFrom : ℕ) (saved : List ℕ)
    (dice : QuestDice) (s : ActiveQuestData) : ActiveQuestData :=
  let limit := g.spawnLimit R t
  if triggerFrom = 0 ∧ saved ≠ [] then g.restoreQuests limit saved s
  else
    let newQuests := recycleQuests dice limit s.activeQuests.card s.activeQuests (g.inactiveQuests s)
    g.activateQuests dice newQuests.card limit newQuests (g.despawnQuests s)

end PoolGroup

/-- The quest pools that are loaded: their templates and groups, without chances. A pool that is not there
has an empty group. -/
structure QuestPools where
  template : ℕ → PoolTemplateData
  group : ℕ → PoolGroup
  poolId_eq : ∀ poolId, (group poolId).poolId = poolId
  equal : ∀ poolId, (group poolId).explicitlyChanced = []

namespace QuestPools

/-- Templates, before there are quests. -/
def ofTemplates (template : ℕ → PoolTemplateData) : QuestPools :=
  ⟨template, fun poolId => ⟨poolId, [], []⟩, fun _ => rfl, fun _ => rfl⟩

/-- `LoadEntry<Quest>`, in `LoadFromDB`. -/
def loadEntry (pools : QuestPools) (poolId questId : ℕ) : QuestPools where
  template := pools.template
  group := Function.update pools.group poolId
    ((pools.group poolId).addEntry (.new questId 0) (pools.template poolId).maxLimit)
  poolId_eq other := by
    by_cases h : other = poolId
    · subst h
      rw [Function.update_self, PoolGroup.addEntry, if_neg (by simp [PoolObject.new])]
      exact pools.poolId_eq other
    · rw [Function.update_of_ne h]
      exact pools.poolId_eq other
  equal other := by
    by_cases h : other = poolId
    · subst h
      rw [Function.update_self, PoolGroup.addEntry, if_neg (by simp [PoolObject.new])]
      exact pools.equal other
    · rw [Function.update_of_ne h]
      exact pools.equal other

/-- A call that does not load the state, for a pool. -/
structure Change where
  poolId : ℕ
  triggerFrom : ℕ
  isSet : triggerFrom ≠ 0
  dice : QuestDice

def spawnPool (pools : QuestPools) (R : Rounding) (s : ActiveQuestData) (c : Change) : ActiveQuestData :=
  if (pools.group c.poolId).isEmpty then s
  else (pools.group c.poolId).spawnQuests R (pools.template c.poolId) c.triggerFrom [] c.dice s

end QuestPools

end Sunstrider.Pools
