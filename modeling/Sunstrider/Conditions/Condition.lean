import Mathlib.Data.BitVec
import Mathlib.Data.Rat.Defs
import Mathlib.Algebra.Order.Ring.Unbundled.Rat

/-!
# Conditions

`Condition` of `ConditionMgr.cpp`: `Meets`, which checks one condition of a world object, and
`GetSearcherTypeMaskForCondition`, which tells the types of the objects that can meet it.

A world object is what the conditions ask of it. The parts of a unit, of a player and of a creature
belong to the kinds of objects that have them, so `ToUnit` and `ToPlayer` find a part just of those.
Two objects are the same object just if they have one GUID. A float is a rational number.

Left out: logs, and `mLastFailedCondition`, which no condition reads.
-/

namespace Sunstrider.Conditions

/-- A failed assertion, or a recursion that does not come to its end. -/
inductive Fault
  /-- Lists that refer to each other in a circle. -/
  | endless
  /-- A reference to a list that is not there, in the computation of a type mask. -/
  | incorrectReference
  /-- A condition that was not loaded, in the computation of a type mask. -/
  | notLoaded
  /-- A condition type that the computation of a type mask does not handle. -/
  | missingHandling
  /-- A target beyond the targets of a condition. -/
  | conditionTarget
  /-- A comparison of no known type. -/
  | comparisionType
  /-- A count of no items. -/
  | zeroItems
  /-- A source type beyond the store of the conditions. -/
  | sourceType
  /-- A spell that is not there. -/
  | spell
  deriving DecidableEq

/-! ## Types -/

inductive ConditionTypes
  | none
  | aura
  | item
  | itemEquipped
  | zoneId
  | reputationRank
  | team
  | skill
  | questRewarded
  | questTaken
  | drunkenState
  | worldState
  | activeEvent
  | instanceInfo
  | questNone
  | class_
  | race
  | achievement
  | title
  | spawnMask
  | gender
  | unitState
  | mapId
  | areaId
  | creatureType
  | spell
  | phaseMask
  | level
  | questComplete
  | nearCreature
  | nearGameObject
  | objectEntryGuid
  | typeMask
  | relationTo
  | reactionTo
  | distanceTo
  | alive
  | hpVal
  | hpPct
  | realmAchievement
  | inWater
  | terrainSwap
  | standState
  | dailyQuestDone
  | charmed
  | petType
  | taxi
  | questState
  | faction
  | wowPatch
  /-- A number that has no name. -/
  | unnamed (number : ℕ)
  deriving DecidableEq

def conditionMax : ℕ := 62

/-- `ConditionTypes(iConditionTypeOrReference)`. -/
def ConditionTypes.ofNat : ℕ → ConditionTypes
  | 0 => .none
  | 1 => .aura
  | 2 => .item
  | 3 => .itemEquipped
  | 4 => .zoneId
  | 5 => .reputationRank
  | 6 => .team
  | 7 => .skill
  | 8 => .questRewarded
  | 9 => .questTaken
  | 10 => .drunkenState
  | 11 => .worldState
  | 12 => .activeEvent
  | 13 => .instanceInfo
  | 14 => .questNone
  | 15 => .class_
  | 16 => .race
  | 17 => .achievement
  | 18 => .title
  | 19 => .spawnMask
  | 20 => .gender
  | 21 => .unitState
  | 22 => .mapId
  | 23 => .areaId
  | 24 => .creatureType
  | 25 => .spell
  | 26 => .phaseMask
  | 27 => .level
  | 28 => .questComplete
  | 29 => .nearCreature
  | 30 => .nearGameObject
  | 31 => .objectEntryGuid
  | 32 => .typeMask
  | 33 => .relationTo
  | 34 => .reactionTo
  | 35 => .distanceTo
  | 36 => .alive
  | 37 => .hpVal
  | 38 => .hpPct
  | 39 => .realmAchievement
  | 40 => .inWater
  | 41 => .terrainSwap
  | 42 => .standState
  | 43 => .dailyQuestDone
  | 44 => .charmed
  | 45 => .petType
  | 46 => .taxi
  | 47 => .questState
  | 60 => .faction
  | 61 => .wowPatch
  | n => .unnamed n

inductive ConditionSourceType
  | none
  | creatureLootTemplate
  | disenchantLootTemplate
  | fishingLootTemplate
  | gameobjectLootTemplate
  | itemLootTemplate
  | mailLootTemplate
  | millingLootTemplate
  | pickpocketingLootTemplate
  | prospectingLootTemplate
  | referenceLootTemplate
  | skinningLootTemplate
  | spellLootTemplate
  | spellImplicitTarget
  | gossipMenu
  | gossipMenuOption
  | creatureTemplateVehicle
  | spell
  | spellClickEvent
  | questAccept
  | vehicleSpell
  | smartEvent
  | npcVendor
  | spellProc
  | terrainSwap
  | phase
  | graveyard
  /-- A number that has no name. -/
  | unnamed (number : ℕ)
  deriving DecidableEq

def conditionSourceTypeMax : ℕ := 28

/-- `ConditionSourceType(iSourceTypeOrReferenceId)`. -/
def ConditionSourceType.ofNat : ℕ → ConditionSourceType
  | 0 => .none
  | 1 => .creatureLootTemplate
  | 2 => .disenchantLootTemplate
  | 3 => .fishingLootTemplate
  | 4 => .gameobjectLootTemplate
  | 5 => .itemLootTemplate
  | 6 => .mailLootTemplate
  | 7 => .millingLootTemplate
  | 8 => .pickpocketingLootTemplate
  | 9 => .prospectingLootTemplate
  | 10 => .referenceLootTemplate
  | 11 => .skinningLootTemplate
  | 12 => .spellLootTemplate
  | 13 => .spellImplicitTarget
  | 14 => .gossipMenu
  | 15 => .gossipMenuOption
  | 16 => .creatureTemplateVehicle
  | 17 => .spell
  | 18 => .spellClickEvent
  | 19 => .questAccept
  | 21 => .vehicleSpell
  | 22 => .smartEvent
  | 23 => .npcVendor
  | 24 => .spellProc
  | 25 => .terrainSwap
  | 26 => .phase
  | 27 => .graveyard
  | n => .unnamed n

/-- The source type is one of the `CONDITION_SOURCE_TYPE_MAX` that the store of the conditions has. -/
def ConditionSourceType.inStore : ConditionSourceType → Bool
  | .unnamed n => n < conditionSourceTypeMax
  | _ => true

structure Condition where
  sourceType : ConditionSourceType := .none
  sourceGroup : BitVec 32 := 0
  /-- The bits of the `int32`. -/
  sourceEntry : BitVec 32 := 0
  sourceId : ℕ := 0
  elseGroup : ℕ := 0
  conditionType : ConditionTypes := .none
  conditionValue1 : BitVec 32 := 0
  conditionValue2 : BitVec 32 := 0
  conditionValue3 : BitVec 32 := 0
  errorType : ℕ := 0
  errorTextId : ℕ := 0
  referenceId : ℕ := 0
  conditionTarget : ℕ := 0
  negativeCondition : Bool := false
  deriving DecidableEq

namespace Condition

def isLoaded (c : Condition) : Bool := c.conditionType ≠ .none || c.referenceId ≠ 0

def getMaxAvailableConditionTargets (c : Condition) : ℕ :=
  match c.sourceType with
  | .spell
  | .spellImplicitTarget
  | .creatureTemplateVehicle
  | .vehicleSpell
  | .spellClickEvent
  | .gossipMenu
  | .gossipMenuOption
  | .smartEvent
  | .npcVendor
  | .spellProc => 2
  | _ => 1

end Condition

/-! ## World objects -/

inductive QuestStatus
  | none
  | complete
  | incomplete
  | failed
  | rewarded
  deriving DecidableEq

/-- The number of a status. -/
def QuestStatus.toNat : QuestStatus → ℕ
  | .none => 0
  | .complete => 1
  | .incomplete => 3
  | .failed => 5
  | .rewarded => 6

/-- `1 << n`. -/
abbrev bit (n : ℕ) : BitVec 32 := 1#32 <<< n

/-- What the conditions ask of a unit. -/
structure Unit where
  hasAuraEffect : BitVec 32 → BitVec 32 → Bool
  classMask : BitVec 32
  raceMask : BitVec 32
  level : BitVec 8
  alive : Bool
  health : BitVec 32
  healthPct : ℚ
  /-- `m_state`. -/
  state : BitVec 32
  inWater : Bool
  standState : BitVec 8
  charmed : Bool
  faction : BitVec 32
  ownerGUID : ℕ
  creatorGUID : ℕ

/-- What the conditions ask of a player, beside what they ask of each unit. -/
structure Player where
  hasItemCount : BitVec 32 → BitVec 32 → Bool → Bool
  hasItemOrItemWithGemEquipped : BitVec 32 → Bool
  /-- The number of the rank with a faction. -/
  reputationRank : BitVec 32 → ℕ
  team : BitVec 32
  gender : BitVec 8
  hasSkill : BitVec 32 → Bool
  baseSkillValue : BitVec 32 → BitVec 16
  questStatus : BitVec 32 → QuestStatus
  questRewardStatus : BitVec 32 → Bool
  hasSpell : BitVec 32 → Bool
  drunkValue : BitVec 8
  hasTitle : BitVec 32 → Bool
  isDailyQuestDone : BitVec 32 → Bool
  /-- The type of the pet, where there is one. -/
  petType : Option ℕ

/-- What the conditions ask of a creature, beside what they ask of each unit. -/
structure Creature where
  creatureType : BitVec 32
  spawnId : BitVec 32

/-- The objects of the grid. -/
inductive ObjectKind
  | creature (unit : Unit) (creature : Creature)
  | player (unit : Unit) (player : Player)
  | gameObject (spawnId : BitVec 32)
  | dynamicObject
  | corpse

/-- What the conditions ask of an instance script. -/
structure InstanceScript where
  getData : BitVec 32 → BitVec 32
  getData64 : BitVec 32 → BitVec 64

structure WorldObject where
  kind : ObjectKind
  guid : ℕ
  entry : BitVec 32
  zoneId : BitVec 32
  areaId : BitVec 32
  mapId : BitVec 32
  phaseMask : BitVec 32
  /-- `GetMap()->GetSpawnMode()`. -/
  spawnMode : ℕ
  /-- The script of the map, where the map is a dungeon that has one. -/
  instanceScript : Option InstanceScript

namespace WorldObject

def toUnit (object : WorldObject) : Option Unit :=
  match object.kind with
  | .creature unit _ => some unit
  | .player unit _ => some unit
  | _ => none

def toPlayer (object : WorldObject) : Option Player :=
  match object.kind with
  | .player _ player => some player
  | _ => none

def toCreature (object : WorldObject) : Option Creature :=
  match object.kind with
  | .creature _ creature => some creature
  | _ => none

end WorldObject

def typeIdUnit : BitVec 32 := 3

def typeIdPlayer : BitVec 32 := 4

def typeIdGameObject : BitVec 32 := 5

def typeIdDynamicObject : BitVec 32 := 6

def typeIdCorpse : BitVec 32 := 7

/-- `GetTypeId`. -/
def WorldObject.typeId (object : WorldObject) : BitVec 32 :=
  match object.kind with
  | .creature _ _ => typeIdUnit
  | .player _ _ => typeIdPlayer
  | .gameObject _ => typeIdGameObject
  | .dynamicObject => typeIdDynamicObject
  | .corpse => typeIdCorpse

def typeMaskObject : BitVec 32 := 0x1

def typeMaskUnit : BitVec 32 := 0x8

def typeMaskPlayer : BitVec 32 := 0x10

def typeMaskGameObject : BitVec 32 := 0x20

def typeMaskDynamicObject : BitVec 32 := 0x40

def typeMaskCorpse : BitVec 32 := 0x80

/-- `m_objectType`. -/
def WorldObject.objectType (object : WorldObject) : BitVec 32 :=
  match object.kind with
  | .creature _ _ => typeMaskObject ||| typeMaskUnit
  | .player _ _ => typeMaskObject ||| typeMaskUnit ||| typeMaskPlayer
  | .gameObject _ => typeMaskObject ||| typeMaskGameObject
  | .dynamicObject => typeMaskObject ||| typeMaskDynamicObject
  | .corpse => typeMaskObject ||| typeMaskCorpse

def WorldObject.isType (object : WorldObject) (mask : BitVec 32) : Bool :=
  mask &&& object.objectType ≠ 0

/-- What the conditions ask of the world and of two objects in it. -/
structure World where
  isActiveEvent : BitVec 32 → Bool
  worldState : BitVec 32 → BitVec 64
  wowPatch : BitVec 8
  /-- The factions of `sFactionStore`. -/
  hasFaction : BitVec 32 → Bool
  closestCreatureWithEntry : WorldObject → BitVec 32 → BitVec 32 → Bool
  closestGameObjectWithEntry : WorldObject → BitVec 32 → BitVec 32 → Bool
  isInPartyWith : WorldObject → WorldObject → Bool
  isInRaidWith : WorldObject → WorldObject → Bool
  /-- The number of the rank. -/
  reactionTo : WorldObject → WorldObject → ℕ
  distance : WorldObject → WorldObject → ℚ

/-! ## Meets -/

/-- `ConditionSourceInfo`: the `MAX_CONDITION_TARGETS` targets of a check. -/
structure ConditionSourceInfo where
  mConditionTargets : Fin 3 → Option WorldObject

/-- `sourceInfo.mConditionTargets[target]`. -/
def ConditionSourceInfo.target (sourceInfo : ConditionSourceInfo) (target : ℕ) :
    Except Fault (Option WorldObject) :=
  if h : target < 3 then .ok (sourceInfo.mConditionTargets ⟨target, h⟩) else .error .conditionTarget

def compareValues {T : Type} [LT T] [LE T] [DecidableEq T] [DecidableLT T] [DecidableLE T]
    (type : BitVec 32) (val1 val2 : T) : Except Fault Bool :=
  match type.toNat with
  | 0 => .ok (val1 = val2)
  | 1 => .ok (val1 > val2)
  | 2 => .ok (val1 < val2)
  | 3 => .ok (val1 ≥ val2)
  | 4 => .ok (val1 ≤ val2)
  | _ => .error .comparisionType

def getDrunkenstateByValue (value : BitVec 8) : BitVec 32 :=
  if 90 ≤ value then 3
  else if 50 ≤ value then 2
  else if value ≠ 0 then 1
  else 0

namespace Unit

/-- `IsSitState`: on the ground, or on a chair. -/
def isSitState (unit : Unit) : Bool :=
  let s := unit.standState
  s = 2 || s = 4 || s = 5 || s = 6 || s = 1

/-- `IsStandState`: neither sitting nor asleep nor on the knees. -/
def isStandState (unit : Unit) : Bool :=
  !unit.isSitState && unit.standState ≠ 3 && unit.standState ≠ 8

def hasUnitState (unit : Unit) (f : BitVec 32) : Bool := unit.state &&& f ≠ 0

/-- `IsInFlight`: `UNIT_STATE_IN_FLIGHT`. -/
def isInFlight (unit : Unit) : Bool := unit.hasUnitState 0x100

end Unit

namespace Condition

/-- The switch over the types in `Meets`, but for `CONDITION_WOW_PATCH`. -/
def condMeets (c : Condition) (world : World) (sourceInfo : ConditionSourceInfo)
    (object : WorldObject) : Except Fault Bool :=
  match c.conditionType with
  | .none => .ok true
  | .aura => .ok (object.toUnit.any fun unit => unit.hasAuraEffect c.conditionValue1 c.conditionValue2)
  | .item =>
    match object.toPlayer with
    | none => .ok false
    | some player =>
      if c.conditionValue2 = 0 then .error .zeroItems
      else .ok (player.hasItemCount c.conditionValue1 c.conditionValue2 (c.conditionValue3 ≠ 0))
  | .itemEquipped =>
    .ok (object.toPlayer.any fun player => player.hasItemOrItemWithGemEquipped c.conditionValue1)
  | .zoneId => .ok (object.zoneId = c.conditionValue1)
  | .reputationRank => .ok (object.toPlayer.any fun player =>
      world.hasFaction c.conditionValue1 &&
        c.conditionValue2 &&& bit (player.reputationRank c.conditionValue1) ≠ 0)
  | .achievement => .ok true
  | .team => .ok (object.toPlayer.any fun player => player.team = c.conditionValue1)
  | .class_ => .ok (object.toUnit.any fun unit => unit.classMask &&& c.conditionValue1 ≠ 0)
  | .race => .ok (object.toUnit.any fun unit => unit.raceMask &&& c.conditionValue1 ≠ 0)
  | .gender => .ok (object.toPlayer.any fun player => player.gender.zeroExtend 32 = c.conditionValue1)
  | .skill => .ok (object.toPlayer.any fun player =>
      player.hasSkill c.conditionValue1 &&
        (player.baseSkillValue c.conditionValue1).zeroExtend 32 ≥ c.conditionValue2)
  | .questRewarded => .ok (object.toPlayer.any fun player => player.questRewardStatus c.conditionValue1)
  | .questTaken =>
    .ok (object.toPlayer.any fun player => player.questStatus c.conditionValue1 = .incomplete)
  | .questComplete => .ok (object.toPlayer.any fun player =>
      player.questStatus c.conditionValue1 = .complete && !player.questRewardStatus c.conditionValue1)
  | .questNone => .ok (object.toPlayer.any fun player => player.questStatus c.conditionValue1 = .none)
  | .activeEvent => .ok (world.isActiveEvent c.conditionValue1)
  | .instanceInfo => .ok (object.instanceScript.any fun instance_ =>
      match c.conditionValue3.toNat with
      | 0 => instance_.getData c.conditionValue1 = c.conditionValue2
      | 1 => instance_.getData64 c.conditionValue1 = c.conditionValue2.zeroExtend 64
      | 2 => instance_.getData c.conditionValue1 = c.conditionValue2
      | 3 => instance_.getData64 c.conditionValue1 = c.conditionValue2.zeroExtend 64
      | _ => false)
  | .mapId => .ok (object.mapId = c.conditionValue1)
  | .areaId => .ok (object.areaId = c.conditionValue1)
  | .spell => .ok (object.toPlayer.any fun player => player.hasSpell c.conditionValue1)
  | .level =>
    match object.toUnit with
    | none => .ok false
    | some unit => compareValues c.conditionValue2 (unit.level.zeroExtend 32) c.conditionValue1
  | .drunkenState => .ok (object.toPlayer.any fun player =>
      getDrunkenstateByValue player.drunkValue ≥ c.conditionValue1)
  | .nearCreature =>
    .ok (world.closestCreatureWithEntry object c.conditionValue1 c.conditionValue2)
  | .nearGameObject =>
    .ok (world.closestGameObjectWithEntry object c.conditionValue1 c.conditionValue2)
  | .objectEntryGuid =>
    if object.typeId = c.conditionValue1 then
      let condMeets : Bool := c.conditionValue2 = 0 || object.entry = c.conditionValue2
      if c.conditionValue3 ≠ 0 then
        match object.kind with
        | .creature _ creature => .ok (condMeets && creature.spawnId = c.conditionValue3)
        | .gameObject spawnId => .ok (condMeets && spawnId = c.conditionValue3)
        | _ => .ok condMeets
      else .ok condMeets
    else .ok false
  | .typeMask => .ok (object.isType c.conditionValue1)
  | .relationTo => do
    match ← sourceInfo.target c.conditionValue1.toNat with
    | none => .ok false
    | some toObject =>
      match toObject.toUnit, object.toUnit with
      | some _, some unit =>
        match c.conditionValue2.toNat with
        | 0 => .ok (object.guid = toObject.guid)
        | 1 => .ok (world.isInPartyWith object toObject)
        | 2 => .ok (world.isInRaidWith object toObject)
        | 3 => .ok (unit.ownerGUID = toObject.guid)
        | 4 => .ok true
        | 5 => .ok (unit.creatorGUID = toObject.guid)
        | _ => .ok true
      | _, _ => .ok false
  | .reactionTo => do
    match ← sourceInfo.target c.conditionValue1.toNat with
    | none => .ok false
    | some toObject =>
      match toObject.toUnit, object.toUnit with
      | some _, some _ => .ok (bit (world.reactionTo object toObject) &&& c.conditionValue2 ≠ 0)
      | _, _ => .ok false
  | .distanceTo => do
    match ← sourceInfo.target c.conditionValue1.toNat with
    | none => .ok false
    | some toObject =>
      compareValues c.conditionValue3 (world.distance object toObject) c.conditionValue2.toNat
  | .alive => .ok (object.toUnit.any fun unit => unit.alive)
  | .hpVal =>
    match object.toUnit with
    | none => .ok false
    | some unit => compareValues c.conditionValue2 unit.health c.conditionValue1
  | .hpPct =>
    match object.toUnit with
    | none => .ok false
    | some unit => compareValues c.conditionValue2 unit.healthPct c.conditionValue1.toNat
  | .worldState => .ok (c.conditionValue2.zeroExtend 64 = world.worldState c.conditionValue1)
  | .phaseMask => .ok (object.phaseMask &&& c.conditionValue1 ≠ 0)
  | .title => .ok (object.toPlayer.any fun player => player.hasTitle c.conditionValue1)
  | .spawnMask => .ok (bit object.spawnMode &&& c.conditionValue1 ≠ 0)
  | .unitState => .ok (object.toUnit.any fun unit => unit.hasUnitState c.conditionValue1)
  | .creatureType =>
    .ok (object.toCreature.any fun creature => creature.creatureType = c.conditionValue1)
  | .realmAchievement => .ok true
  | .inWater => .ok (object.toUnit.any fun unit => unit.inWater)
  | .standState => .ok (object.toUnit.any fun unit =>
      if c.conditionValue1 = 0 then unit.standState.zeroExtend 32 = c.conditionValue2
      else if c.conditionValue2 = 0 then unit.isStandState
      else if c.conditionValue2 = 1 then unit.isSitState
      else false)
  | .dailyQuestDone => .ok (object.toPlayer.any fun player => player.isDailyQuestDone c.conditionValue1)
  | .charmed => .ok (object.toUnit.any fun unit => unit.charmed)
  | .petType => .ok (object.toPlayer.any fun player =>
      player.petType.any fun petType => bit petType &&& c.conditionValue1 ≠ 0)
  | .taxi => .ok (object.toPlayer.isSome && object.toUnit.any fun unit => unit.isInFlight)
  | .questState => .ok (object.toPlayer.any fun player =>
      let has (status : QuestStatus) : Bool := c.conditionValue2 &&& bit status.toNat ≠ 0
      let status := player.questStatus c.conditionValue1
      has .none && status = .none || has .complete && status = .complete ||
        has .incomplete && status = .incomplete || has .failed && status = .failed ||
        has .rewarded && player.questRewardStatus c.conditionValue1)
  | .faction => .ok (object.toUnit.any fun unit => unit.faction = c.conditionValue1)
  | _ => .ok false

/-- `Meets`. The answer of `CONDITION_WOW_PATCH` is not negated. -/
def meets (c : Condition) (world : World) (sourceInfo : ConditionSourceInfo) : Except Fault Bool := do
  match ← sourceInfo.target c.conditionTarget with
  | none => .ok false
  | some object =>
    if c.conditionType = .wowPatch then
      match c.conditionValue2.toNat with
      | 0 => .ok (world.wowPatch.zeroExtend 32 = c.conditionValue1)
      | 1 => .ok (world.wowPatch.zeroExtend 32 ≥ c.conditionValue1)
      | 2 => .ok (world.wowPatch.zeroExtend 32 ≤ c.conditionValue1)
      | _ => .ok false
    else
      let condMeets ← c.condMeets world sourceInfo object
      .ok (if c.negativeCondition then !condMeets else condMeets)

end Condition

/-! ## Type masks -/

def gridMapTypeMaskCorpse : BitVec 32 := 0x01

def gridMapTypeMaskCreature : BitVec 32 := 0x02

def gridMapTypeMaskDynamicObject : BitVec 32 := 0x04

def gridMapTypeMaskGameObject : BitVec 32 := 0x08

def gridMapTypeMaskPlayer : BitVec 32 := 0x10

def gridMapTypeMaskAll : BitVec 32 := 0x1F

/-- The grid type of an object. -/
def WorldObject.gridMapTypeMask (object : WorldObject) : BitVec 32 :=
  match object.kind with
  | .creature _ _ => gridMapTypeMaskCreature
  | .player _ _ => gridMapTypeMaskPlayer
  | .gameObject _ => gridMapTypeMaskGameObject
  | .dynamicObject => gridMapTypeMaskDynamicObject
  | .corpse => gridMapTypeMaskCorpse

/-- `GetSearcherTypeMaskForCondition`. The case of `CONDITION_FACTION` has no `break`. -/
def Condition.getSearcherTypeMaskForCondition (c : Condition) : Except Fault (BitVec 32) :=
  let unitMask := gridMapTypeMaskCreature ||| gridMapTypeMaskPlayer
  if c.negativeCondition then .ok gridMapTypeMaskAll
  else match c.conditionType with
  | .none => .ok gridMapTypeMaskAll
  | .aura => .ok unitMask
  | .item => .ok gridMapTypeMaskPlayer
  | .itemEquipped => .ok gridMapTypeMaskPlayer
  | .zoneId => .ok gridMapTypeMaskAll
  | .reputationRank => .ok gridMapTypeMaskPlayer
  | .achievement => .ok gridMapTypeMaskPlayer
  | .team => .ok gridMapTypeMaskPlayer
  | .class_ => .ok unitMask
  | .race => .ok unitMask
  | .skill => .ok gridMapTypeMaskPlayer
  | .questRewarded => .ok gridMapTypeMaskPlayer
  | .questTaken => .ok gridMapTypeMaskPlayer
  | .questComplete => .ok gridMapTypeMaskPlayer
  | .questNone => .ok gridMapTypeMaskPlayer
  | .activeEvent => .ok gridMapTypeMaskAll
  | .instanceInfo => .ok gridMapTypeMaskAll
  | .mapId => .ok gridMapTypeMaskAll
  | .areaId => .ok gridMapTypeMaskAll
  | .spell => .ok gridMapTypeMaskPlayer
  | .level => .ok unitMask
  | .drunkenState => .ok gridMapTypeMaskPlayer
  | .nearCreature => .ok gridMapTypeMaskAll
  | .nearGameObject => .ok gridMapTypeMaskAll
  | .objectEntryGuid =>
    if c.conditionValue1 = typeIdUnit then .ok gridMapTypeMaskCreature
    else if c.conditionValue1 = typeIdPlayer then .ok gridMapTypeMaskPlayer
    else if c.conditionValue1 = typeIdGameObject then .ok gridMapTypeMaskGameObject
    else if c.conditionValue1 = typeIdCorpse then .ok gridMapTypeMaskCorpse
    else .ok 0
  | .typeMask =>
    .ok ((if c.conditionValue1 &&& typeMaskUnit ≠ 0 then unitMask else 0) |||
      (if c.conditionValue1 &&& typeMaskPlayer ≠ 0 then gridMapTypeMaskPlayer else 0) |||
      (if c.conditionValue1 &&& typeMaskGameObject ≠ 0 then gridMapTypeMaskGameObject else 0) |||
      (if c.conditionValue1 &&& typeMaskCorpse ≠ 0 then gridMapTypeMaskCorpse else 0))
  | .relationTo => .ok unitMask
  | .reactionTo => .ok unitMask
  | .distanceTo => .ok gridMapTypeMaskAll
  | .alive => .ok unitMask
  | .hpVal => .ok unitMask
  | .hpPct => .ok unitMask
  | .worldState => .ok gridMapTypeMaskAll
  | .phaseMask => .ok gridMapTypeMaskAll
  | .title => .ok gridMapTypeMaskPlayer
  | .spawnMask => .ok gridMapTypeMaskAll
  | .gender => .ok gridMapTypeMaskPlayer
  | .unitState => .ok unitMask
  | .creatureType => .ok gridMapTypeMaskCreature
  | .realmAchievement => .ok gridMapTypeMaskAll
  | .inWater => .ok unitMask
  | .standState => .ok unitMask
  | .dailyQuestDone => .ok gridMapTypeMaskPlayer
  | .charmed => .ok unitMask
  | .petType => .ok gridMapTypeMaskPlayer
  | .taxi => .ok gridMapTypeMaskPlayer
  | .questState => .ok gridMapTypeMaskPlayer
  | .faction => .error .missingHandling
  | _ => .error .missingHandling

end Sunstrider.Conditions
