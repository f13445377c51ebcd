import Sunstrider.Conditions.Condition
import Sunstrider.Lib.Groups

/-!
# Condition lists

`ConditionMgr.cpp`: the lists of conditions that `LoadConditions` fills from the rows of the table
`conditions`, and the two functions that read them, `IsObjectMeetToConditionList` and
`GetSearcherTypeMaskForConditionList`. A condition is a row, or a reference to a list of the reference
store; the rows of one list that have one `ElseGroup` are an and, its groups an or.

The lists outside the reference store, which are in the stores of the manager, at loot items, at gossip
menus and at spell effects, are one store here, whose key names the place (`Place`). What `LoadConditions`
asks of the other managers is a parameter (`GameData`).

Left out: logs, the script of a row, and `Clean`, since a load begins with empty stores. Where a missing
reference is logged, the answer says so (`Answer.missing`).
-/

namespace Sunstrider.Conditions

open Sunstrider.Lib (groupRound groupValues)

abbrev ConditionContainer : Type := List Condition

abbrev ConditionReferenceContainer : Type := AList fun _ : ℕ => ConditionContainer

/-! ## Reading a list -/

/-- What a check of a list comes to. -/
structure Answer where
  met : Bool
  /-- A reference was met whose list is not there. -/
  missing : Bool
  deriving DecidableEq

/-- What a group comes to with one element more. -/
def Answer.and (v r : Answer) : Answer := ⟨v.met && r.met, v.missing || r.missing⟩

section Reading

variable (refs : ConditionReferenceContainer)

/-- One element of a list in `IsObjectMeetToConditionList`. -/
def answerOf (world : World) (sourceInfo : ConditionSourceInfo)
    (meetsList : ConditionContainer → Except Fault Answer) (c : Condition) : Except Fault Answer :=
  if c.referenceId ≠ 0 then
    match refs.lookup c.referenceId with
    | some conditions => meetsList conditions
    | none => .ok ⟨true, true⟩
  else do
    let met ← c.meets world sourceInfo
    .ok ⟨met, false⟩

/-- `IsObjectMeetToConditionList`. More than `fuel` lists one in another are the fault `endless`. -/
def isObjectMeetToConditionList (world : World) (sourceInfo : ConditionSourceInfo) :
    ℕ → ConditionContainer → Except Fault Answer
  | 0, _ => .error .endless
  | fuel + 1, conditions => do
    let elseGroupStore ← groupValues Condition.elseGroup (⟨true, false⟩ : Answer) (fun v => !v.met)
      (fun v c => do
        let r ← answerOf refs world sourceInfo
          (isObjectMeetToConditionList world sourceInfo fuel) c
        .ok (v.and r))
      (conditions.filter Condition.isLoaded)
    .ok ⟨elseGroupStore.entries.any fun e => e.2.met, elseGroupStore.entries.any fun e => e.2.missing⟩

def isObjectMeetToConditions (world : World) (sourceInfo : ConditionSourceInfo) (fuel : ℕ)
    (conditions : ConditionContainer) : Except Fault Answer :=
  if conditions = [] then .ok ⟨true, false⟩
  else isObjectMeetToConditionList refs world sourceInfo fuel conditions

/-- One element of a list in `GetSearcherTypeMaskForConditionList`. -/
def maskOf (maskOfList : ConditionContainer → Except Fault (BitVec 32)) (c : Condition) :
    Except Fault (BitVec 32) :=
  if c.referenceId ≠ 0 then
    match refs.lookup c.referenceId with
    | some conditions => maskOfList conditions
    | none => .error .incorrectReference
  else c.getSearcherTypeMaskForCondition

/-- `GetSearcherTypeMaskForConditionList`. More than `fuel` lists one in another are the fault
`endless`. -/
def getSearcherTypeMaskForConditionList : ℕ → ConditionContainer → Except Fault (BitVec 32)
  | 0, _ => .error .endless
  | fuel + 1, conditions =>
    if conditions = [] then .ok gridMapTypeMaskAll
    else do
      let elseGroupStore ← conditions.foldlM (fun store c =>
        -- the assertion is about every element, also about one that is passed over
        if c.isLoaded then
          groupRound Condition.elseGroup gridMapTypeMaskAll (fun v => v = 0) (fun v c => do
            let mask ← maskOf refs (getSearcherTypeMaskForConditionList fuel) c
            .ok (v &&& mask)) store c
        else .error .notLoaded) ∅
      .ok (elseGroupStore.entries.foldl (fun mask e => mask ||| e.2) 0)

end Reading

/-! ## What the other managers know -/

/-- The loot stores that have conditions. -/
inductive LootStore
  | creature
  | disenchant
  | fishing
  | gameobject
  | item
  | mail
  | pickpocketing
  | prospecting
  | reference
  | skinning
  deriving DecidableEq

structure LootStoreItem where
  itemid : BitVec 32
  reference : ℤ

structure LootTemplate where
  entries : List LootStoreItem
  /-- The explicitly and the equally chanced items of each group, where there is a group. -/
  groups : List (Option (List LootStoreItem × List LootStoreItem))

def LootTemplate.isReference (loot : LootTemplate) (id : BitVec 32) : Bool :=
  loot.entries.any fun item => item.itemid = id && item.reference > 0

/-- The items of a template, in the order in which `addConditionItem` looks at them. -/
def LootTemplate.items (loot : LootTemplate) : List LootStoreItem :=
  loot.entries ++ loot.groups.flatMap fun group =>
    match group with
    | some (explicitlyChanced, equalChanced) => explicitlyChanced ++ equalChanced
    | none => []

/-- What the loader asks of a spell effect. -/
structure SpellEffectInfo where
  /-- `TargetA` or `TargetB` selects nearby targets, a cone, an area or a trajectory. -/
  selectsTargets : Bool
  /-- The target flags of `TargetA` and `TargetB` have one of `TARGET_FLAG_UNIT_MASK`. -/
  unitTargets : Bool
  /-- They have one of `TARGET_FLAG_GAMEOBJECT_MASK`. -/
  gameObjectTargets : Bool
  /-- They have one of `TARGET_FLAG_CORPSE_MASK`. -/
  corpseTargets : Bool

/-- `GossipMenus` and `GossipMenuItems`: the menu, and the text or the option. -/
structure GossipEntry where
  menu : BitVec 32
  entry : BitVec 32

/-- What `LoadConditions` asks of the other managers. -/
structure GameData where
  lootTemplates : LootStore → BitVec 32 → Option LootTemplate
  hasItemTemplate : BitVec 32 → Bool
  /-- The effects of a spell. -/
  spellInfo : BitVec 32 → Option (Fin 3 → SpellEffectInfo)
  hasCreatureTemplate : BitVec 32 → Bool
  hasGameObjectTemplate : BitVec 32 → Bool
  hasQuestTemplate : BitVec 32 → Bool
  gossipMenus : List GossipEntry
  gossipMenuItems : List GossipEntry
  /-- The zone that an area is a part of, which is 0 for a zone. -/
  areaZone : BitVec 32 → Option (BitVec 32)
  hasFaction : BitVec 32 → Bool
  hasSkillLine : BitVec 32 → Bool
  configMaxSkillValue : BitVec 32
  isValidEvent : BitVec 32 → Bool
  hasMap : BitVec 32 → Bool
  /-- The first spawn entry of a creature's data. -/
  creatureSpawnEntry : BitVec 32 → Option (BitVec 32)
  /-- The entry of a game object's data. -/
  gameObjectSpawnEntry : BitVec 32 → Option (BitVec 32)
  worldState : BitVec 32 → BitVec 64
  hasTitle : BitVec 32 → Bool

namespace GameData

/-! ## Validation -/

/-- The check of a spawn in `CONDITION_OBJECT_ENTRY_GUID`. -/
def isSpawnValid (spawnEntry : BitVec 32 → Option (BitVec 32)) (entry spawnId : BitVec 32) : Bool :=
  match spawnEntry spawnId with
  | some spawn => entry = 0 || spawn = entry
  | none => false

/-- The choice of another target in `CONDITION_RELATION_TO` and its siblings. -/
def isTargetSelectionValid (c : Condition) : Bool :=
  c.conditionValue1.toNat < c.getMaxAvailableConditionTargets &&
    c.conditionValue1.toNat ≠ c.conditionTarget

def compTypeMax : BitVec 32 := 5

/-- The checks of `CONDITION_WOW_PATCH`. -/
def isWowPatchValid (c : Condition) : Bool :=
  c.conditionValue1 ≤ 10 && c.conditionValue2 ≤ 0

/-- The switch over the types in `isConditionTypeValid`. The case of `CONDITION_FACTION` has no
`break`. -/
def areValuesValid (g : GameData) (c : Condition) : Bool :=
  match c.conditionType with
  | .aura => (g.spellInfo c.conditionValue1).isSome && c.conditionValue2 ≤ 2
  | .item => g.hasItemTemplate c.conditionValue1 && c.conditionValue2 ≠ 0
  | .itemEquipped => g.hasItemTemplate c.conditionValue1
  | .zoneId =>
    match g.areaZone c.conditionValue1 with
    | some zone => zone = 0
    | none => false
  | .reputationRank => g.hasFaction c.conditionValue1
  | .team => c.conditionValue1 = 469 || c.conditionValue1 = 67
  | .skill => g.hasSkillLine c.conditionValue1 && 1 ≤ c.conditionValue2 &&
      c.conditionValue2 ≤ g.configMaxSkillValue
  | .questRewarded => g.hasQuestTemplate c.conditionValue1
  | .questTaken => g.hasQuestTemplate c.conditionValue1
  | .questNone => g.hasQuestTemplate c.conditionValue1
  | .questComplete => g.hasQuestTemplate c.conditionValue1
  | .activeEvent => g.isValidEvent c.conditionValue1
  | .achievement => true
  -- `CLASSMASK_ALL_PLAYABLE`: the classes 1 to 9 and 11, but for 6 and 10
  | .class_ => c.conditionValue1 &&& 0x5DF ≠ 0
  -- `RACEMASK_ALL_PLAYABLE`: the races 1 to 8, 10 and 11
  | .race => c.conditionValue1 &&& 0x6FF ≠ 0
  | .gender => c.conditionValue1.truncate 8 ≤ 1
  | .mapId => g.hasMap c.conditionValue1
  | .spell => (g.spellInfo c.conditionValue1).isSome
  | .level => c.conditionValue2 < compTypeMax
  | .drunkenState => c.conditionValue1 ≤ 3
  | .nearCreature => g.hasCreatureTemplate c.conditionValue1
  | .nearGameObject => g.hasGameObjectTemplate c.conditionValue1
  | .objectEntryGuid =>
    if c.conditionValue1 = typeIdUnit then
      (c.conditionValue2 = 0 || g.hasCreatureTemplate c.conditionValue2) &&
        (c.conditionValue3 = 0 || isSpawnValid g.creatureSpawnEntry c.conditionValue2 c.conditionValue3)
    else if c.conditionValue1 = typeIdGameObject then
      (c.conditionValue2 = 0 || g.hasGameObjectTemplate c.conditionValue2) &&
        (c.conditionValue3 = 0 ||
          isSpawnValid g.gameObjectSpawnEntry c.conditionValue2 c.conditionValue3)
    else c.conditionValue1 = typeIdPlayer || c.conditionValue1 = typeIdCorpse
  | .typeMask => c.conditionValue1 ≠ 0 && c.conditionValue1 &&&
      ~~~(typeMaskUnit ||| typeMaskPlayer ||| typeMaskGameObject ||| typeMaskCorpse) = 0
  | .relationTo => isTargetSelectionValid c && c.conditionValue2 < 6
  | .reactionTo => isTargetSelectionValid c && c.conditionValue2 ≠ 0
  | .distanceTo => isTargetSelectionValid c && c.conditionValue3 < compTypeMax
  | .hpVal => c.conditionValue2 < compTypeMax
  | .hpPct => c.conditionValue1 ≤ 100 && c.conditionValue2 < compTypeMax
  | .worldState => g.worldState c.conditionValue1 ≠ 0
  | .title => g.hasTitle c.conditionValue1
  -- `SPAWNMASK_RAID_ALL`
  | .spawnMask => c.conditionValue1 ≤ 0
  -- `UNIT_STATE_ALL_STATE_SUPPORTED`
  | .unitState => c.conditionValue1 &&& 0x1FF7FFFF ≠ 0
  | .creatureType => c.conditionValue1 ≠ 0 && c.conditionValue1 ≤ 13
  | .terrainSwap => false
  | .standState =>
    match c.conditionValue1.toNat with
    | 0 => c.conditionValue2 ≤ 9
    | 1 => c.conditionValue2 ≤ 1
    | _ => false
  | .petType => c.conditionValue1 < 32
  | .faction => g.hasFaction c.conditionValue1 && isWowPatchValid c
  | .wowPatch => isWowPatchValid c
  | _ => true

def isConditionTypeValid (g : GameData) (c : Condition) : Bool :=
  let isNumberValid := match c.conditionType with
    | .none => false
    | .unnamed n => n < conditionMax
    | _ => true
  isNumberValid && c.conditionTarget < c.getMaxAvailableConditionTargets && g.areValuesValid c

/-- The checks of a loot template in `isSourceTypeValid`. -/
def isLootSourceValid (g : GameData) (store : LootStore) (c : Condition) : Bool :=
  match g.lootTemplates store c.sourceGroup with
  | some loot => g.hasItemTemplate c.sourceEntry || loot.isReference c.sourceEntry
  | none => false

/-- The effects of a spell, in their order. -/
def spellEffects : List (Fin 3) := [0, 1, 2]

/-- The effects that select no targets are taken out of the group. -/
def correctedSourceGroup (effects : Fin 3 → SpellEffectInfo) (sourceGroup : BitVec 32) : BitVec 32 :=
  spellEffects.foldl (fun group (i : Fin 3) =>
    if bit i &&& group ≠ 0 ∧ (effects i).selectsTargets = false then group &&& ~~~bit i else group)
    sourceGroup

/-- `isSourceTypeValid`: the condition, with the group that is left to it. -/
def isSourceTypeValid (g : GameData) (c : Condition) : Option Condition :=
  let check (valid : Bool) : Option Condition := if valid then some c else none
  match c.sourceType with
  | .none => none
  | .creatureLootTemplate => check (g.isLootSourceValid .creature c)
  | .disenchantLootTemplate => check (g.isLootSourceValid .disenchant c)
  | .fishingLootTemplate => check (g.isLootSourceValid .fishing c)
  | .gameobjectLootTemplate => check (g.isLootSourceValid .gameobject c)
  | .itemLootTemplate => check (g.isLootSourceValid .item c)
  | .mailLootTemplate => check (g.isLootSourceValid .mail c)
  | .pickpocketingLootTemplate => check (g.isLootSourceValid .pickpocketing c)
  | .prospectingLootTemplate => check (g.isLootSourceValid .prospecting c)
  | .referenceLootTemplate => check (g.isLootSourceValid .reference c)
  | .skinningLootTemplate => check (g.isLootSourceValid .skinning c)
  | .spellImplicitTarget =>
    match g.spellInfo c.sourceEntry with
    | none => none
    | some effects =>
      -- `MAX_EFFECT_MASK`
      if c.sourceGroup > 7 ∨ c.sourceGroup = 0 then none
      else
        let sourceGroup := correctedSourceGroup effects c.sourceGroup
        if sourceGroup = 0 then none else some { c with sourceGroup := sourceGroup }
  | .creatureTemplateVehicle => check (g.hasCreatureTemplate c.sourceEntry)
  | .spell => check (g.spellInfo c.sourceEntry).isSome
  | .spellProc => check (g.spellInfo c.sourceEntry).isSome
  | .questAccept => check (g.hasQuestTemplate c.sourceEntry)
  | .spellClickEvent =>
    check (g.hasCreatureTemplate c.sourceGroup && (g.spellInfo c.sourceEntry).isSome)
  | .npcVendor => check (g.hasCreatureTemplate c.sourceGroup && g.hasItemTemplate c.sourceEntry)
  | .terrainSwap => none
  | .phase => none
  | .graveyard => none
  | .unnamed n => check (n < conditionSourceTypeMax)
  | _ => some c

end GameData

def canHaveSourceGroupSet : ConditionSourceType → Bool
  | .creatureLootTemplate
  | .disenchantLootTemplate
  | .fishingLootTemplate
  | .gameobjectLootTemplate
  | .itemLootTemplate
  | .mailLootTemplate
  | .millingLootTemplate
  | .pickpocketingLootTemplate
  | .prospectingLootTemplate
  | .referenceLootTemplate
  | .skinningLootTemplate
  | .spellLootTemplate
  | .gossipMenu
  | .gossipMenuOption
  | .vehicleSpell
  | .spellImplicitTarget
  | .spellClickEvent
  | .smartEvent
  | .npcVendor => true
  | _ => false

def canHaveSourceIdSet (sourceType : ConditionSourceType) : Bool := sourceType = .smartEvent

/-! ## Loading -/

/-- A place that has a list of conditions, beside the reference store. -/
inductive Place
  /-- `ConditionStore`. -/
  | entry (sourceType : ConditionSourceType) (sourceEntry : BitVec 32)
  /-- `SpellClickEventConditionStore`. -/
  | spellClickEvent (creature spell : BitVec 32)
  /-- `SmartEventConditionStore`. -/
  | smartEvent (sourceEntry : BitVec 32) (sourceId : ℕ) (sourceGroup : BitVec 32)
  /-- `NpcVendorConditionContainerStore`. -/
  | npcVendor (creature item : BitVec 32)
  /-- An item of a loot template. -/
  | lootItem (store : LootStore) (template : BitVec 32) (index : ℕ)
  | gossipMenu (index : ℕ)
  | gossipMenuItem (index : ℕ)
  /-- A list that effects of a spell point to. -/
  | implicitTargets (list : ℕ)
  deriving DecidableEq

structure ConditionMgr where
  conditionReferenceStore : ConditionReferenceContainer := ∅
  lists : AList fun _ : Place => ConditionContainer := ∅
  /-- `Effects[i].ImplicitTargetConditions` of a spell. -/
  implicitTargetConditions : BitVec 32 → Fin 3 → Option ℕ := fun _ _ => none
  /-- The number of lists that were made for effects. -/
  implicitTargetLists : ℕ := 0

/-- A row of the table `conditions`. -/
structure ConditionRow where
  sourceTypeOrReferenceId : ℤ
  sourceGroup : BitVec 32 := 0
  sourceEntry : BitVec 32 := 0
  sourceId : ℕ := 0
  elseGroup : ℕ := 0
  conditionTypeOrReference : ℤ
  conditionTarget : ℕ := 0
  conditionValue1 : BitVec 32 := 0
  conditionValue2 : BitVec 32 := 0
  conditionValue3 : BitVec 32 := 0
  negativeCondition : Bool := false
  errorType : ℕ := 0
  errorTextId : ℕ := 0

/-- The condition that a row fills. -/
def ConditionRow.condition (row : ConditionRow) : Condition where
  sourceType :=
    if row.sourceTypeOrReferenceId ≥ 0 then .ofNat row.sourceTypeOrReferenceId.toNat else .none
  sourceGroup := row.sourceGroup
  sourceEntry := row.sourceEntry
  sourceId := row.sourceId
  elseGroup := row.elseGroup
  conditionType :=
    if row.conditionTypeOrReference ≥ 0 then .ofNat row.conditionTypeOrReference.toNat else .none
  conditionValue1 := row.conditionValue1
  conditionValue2 := row.conditionValue2
  conditionValue3 := row.conditionValue3
  errorType := row.errorType
  errorTextId := row.errorTextId
  referenceId := if row.conditionTypeOrReference < 0 then row.conditionTypeOrReference.natAbs else 0
  conditionTarget := row.conditionTarget
  negativeCondition := row.negativeCondition

/-- In `LoadConditions`: only a spell's condition keeps an `ErrorType`, and only with one an
`ErrorTextId`. -/
def Condition.correctError (c : Condition) : Condition :=
  let errorType := if c.sourceType = .spell then c.errorType else 0
  { c with errorType := errorType, errorTextId := if errorType = 0 then 0 else c.errorTextId }

namespace ConditionMgr

/-- `push_back` to the list at a place. -/
def pushBack (m : ConditionMgr) (place : Place) (c : Condition) : ConditionMgr :=
  let conditions := (m.lists.lookup place).getD []
  { m with lists := m.lists.insert place (conditions ++ [c]) }

/-- `push_back` to a list of the reference store. -/
def addReference (m : ConditionMgr) (id : ℕ) (c : Condition) : ConditionMgr :=
  let conditions := (m.conditionReferenceStore.lookup id).getD []
  { m with conditionReferenceStore := m.conditionReferenceStore.insert id (conditions ++ [c]) }

/-- `addToLootTemplate`, with `addConditionItem`. -/
def addToLootTemplate (m : ConditionMgr) (g : GameData) (store : LootStore) (c : Condition) :
    ConditionMgr :=
  match g.lootTemplates store c.sourceGroup with
  | none => m
  | some loot =>
    if c.isLoaded then
      match loot.items.findIdx? fun item => item.itemid = c.sourceEntry with
      | some index => m.pushBack (.lootItem store c.sourceGroup index) c
      | none => m
    else m

/-- The index of the entry that the condition is for, in `addToGossipMenus` and
`addToGossipMenuItems`. -/
def gossipIndex (entries : List GossipEntry) (c : Condition) : Option ℕ :=
  entries.findIdx? fun e => e.menu = c.sourceGroup && e.entry = c.sourceEntry

def addToGossipMenus (m : ConditionMgr) (g : GameData) (c : Condition) : ConditionMgr :=
  match gossipIndex g.gossipMenus c with
  | some index => m.pushBack (.gossipMenu index) c
  | none => m

def addToGossipMenuItems (m : ConditionMgr) (g : GameData) (c : Condition) : ConditionMgr :=
  match gossipIndex g.gossipMenuItems c with
  | some index => m.pushBack (.gossipMenuItem index) c
  | none => m

/-- The effects that point to one list with the effect, from it on. -/
def sharedMask (pointers : Fin 3 → Option ℕ) (i : Fin 3) : BitVec 32 :=
  (GameData.spellEffects.filter fun (j : Fin 3) => i < j ∧ pointers j = pointers i).foldl
    (fun mask (j : Fin 3) => mask ||| bit j) (bit i)

def sharedMasks (pointers : Fin 3 → Option ℕ) : List (BitVec 32) :=
  GameData.spellEffects.foldl (fun masks (i : Fin 3) =>
    if masks.any fun mask => mask &&& bit i ≠ 0 then masks else masks ++ [sharedMask pointers i]) []

/-- The check of `CONDITION_OBJECT_ENTRY_GUID` against the targets of an effect. -/
def meetsTargetsOf (effect : SpellEffectInfo) (c : Condition) : Bool :=
  c.conditionType ≠ .objectEntryGuid ||
    (!effect.unitTargets || c.conditionValue1 = typeIdUnit || c.conditionValue1 = typeIdPlayer) &&
      (!effect.gameObjectTargets || c.conditionValue1 = typeIdGameObject) &&
      (!effect.corpseTargets || c.conditionValue1 = typeIdCorpse)

def addToSpellImplicitTargetConditions (m : ConditionMgr) (g : GameData) (c : Condition) :
    Except Fault ConditionMgr :=
  match g.spellInfo c.sourceEntry with
  | none => .error .spell
  | some effects =>
    let pointers := m.implicitTargetConditions c.sourceEntry
    if GameData.spellEffects.any fun (i : Fin 3) =>
        c.sourceGroup &&& bit i ≠ 0 && !meetsTargetsOf (effects i) c then .ok m
    else
      match (sharedMasks pointers).find? fun mask => mask &&& c.sourceGroup ≠ 0 with
      | none => .ok m
      | some effectMask =>
        match GameData.spellEffects.find? fun (i : Fin 3) => bit i &&& effectMask ≠ 0 with
        | none => .ok m
        | some firstEffIndex =>
          match pointers firstEffIndex with
          | some list =>
            if c.sourceGroup ≠ effectMask then .ok m else .ok (m.pushBack (.implicitTargets list) c)
          | none =>
            let assigned (i : Fin 3) : Bool :=
              firstEffIndex ≤ i && bit i &&& (effectMask &&& c.sourceGroup) ≠ 0
            if GameData.spellEffects.any assigned then
              let list := m.implicitTargetLists
              let made : ConditionMgr := { m with
                implicitTargetConditions := fun spell i =>
                  if spell = c.sourceEntry ∧ assigned i = true then some list
                  else m.implicitTargetConditions spell i,
                implicitTargetLists := list + 1 }
              .ok (made.pushBack (.implicitTargets list) c)
            else .ok m

/-- The grouped conditions of `LoadConditions`. -/
def addGrouped (m : ConditionMgr) (g : GameData) (c : Condition) : Except Fault ConditionMgr :=
  match c.sourceType with
  | .creatureLootTemplate => .ok (m.addToLootTemplate g .creature c)
  | .disenchantLootTemplate => .ok (m.addToLootTemplate g .disenchant c)
  | .fishingLootTemplate => .ok (m.addToLootTemplate g .fishing c)
  | .gameobjectLootTemplate => .ok (m.addToLootTemplate g .gameobject c)
  | .itemLootTemplate => .ok (m.addToLootTemplate g .item c)
  | .mailLootTemplate => .ok (m.addToLootTemplate g .mail c)
  | .pickpocketingLootTemplate => .ok (m.addToLootTemplate g .pickpocketing c)
  | .prospectingLootTemplate => .ok (m.addToLootTemplate g .prospecting c)
  | .referenceLootTemplate => .ok (m.addToLootTemplate g .reference c)
  | .skinningLootTemplate => .ok (m.addToLootTemplate g .skinning c)
  | .gossipMenu => .ok (m.addToGossipMenus g c)
  | .gossipMenuOption => .ok (m.addToGossipMenuItems g c)
  | .spellClickEvent => .ok (m.pushBack (.spellClickEvent c.sourceGroup c.sourceEntry) c)
  | .spellImplicitTarget => m.addToSpellImplicitTargetConditions g c
  | .smartEvent => .ok (m.pushBack (.smartEvent c.sourceEntry c.sourceId c.sourceGroup) c)
  | .npcVendor => .ok (m.pushBack (.npcVendor c.sourceGroup c.sourceEntry) c)
  | _ => .ok m

/-- The conditions that are no reference template, after the checks of their type. -/
def addCondition (m : ConditionMgr) (g : GameData) (c : Condition) : Except Fault ConditionMgr :=
  if c.sourceGroup ≠ 0 ∧ canHaveSourceGroupSet c.sourceType = false then .ok m
  else if c.sourceId ≠ 0 ∧ canHaveSourceIdSet c.sourceType = false then .ok m
  else
    let c := c.correctError
    if c.sourceGroup ≠ 0 then m.addGrouped g c
    else if c.sourceType.inStore then .ok (m.pushBack (.entry c.sourceType c.sourceEntry) c)
    else .error .sourceType

/-- One row of `LoadConditions`. -/
def loadRow (g : GameData) (m : ConditionMgr) (row : ConditionRow) : Except Fault ConditionMgr :=
  let cond := row.condition
  -- a reference template that refers to itself is skipped
  if row.conditionTypeOrReference < 0 ∧
      row.conditionTypeOrReference = row.sourceTypeOrReferenceId then .ok m
  else if row.conditionTypeOrReference ≥ 0 ∧ g.isConditionTypeValid cond = false then .ok m
  else if row.sourceTypeOrReferenceId < 0 then
    .ok (m.addReference row.sourceTypeOrReferenceId.natAbs cond)
  else if row.conditionTypeOrReference ≥ 0 then
    match g.isSourceTypeValid cond with
    | some cond => m.addCondition g cond
    | none => .ok m
  else m.addCondition g cond

def loadConditions (g : GameData) (rows : List ConditionRow) : Except Fault ConditionMgr :=
  rows.foldlM (loadRow g) {}

end ConditionMgr

end Sunstrider.Conditions
