import Sunstrider.Lib.Keyed
import Sunstrider.Lib.Word

/-!
# Loot

`Loot` of `Loot.cpp`: how it is filled, and what hands it out (`Player::StoreLootItem`, the wins of
`Group::CountTheRoll` and `HandleLootMasterGiveOpcode`).

What depends on the players is an answer that comes with them: `AllowedForPlayer`, and whether
`CanStoreNewItem` finds room. It is asked anew in the loop that stores currency tokens, since each token
that is stored can change it. An item is at a place of `items`, or after them at one of `questItems`; the
ghost list `handed` has the places of all that was handed out.

Left out: notifications, random properties, and the copies of a loot in the database.
-/

namespace Sunstrider.Loots

open Lib (decU8 incU8 removeKey replaceKey subU32)

def maxNrLootItems : ℕ := 16

def maxNrQuestItems : ℕ := 32

/-- What is read of `ItemTemplate`: the answers of `GetMaxStackSize` and `IsCurrencyToken`, the flag
`ITEM_FLAG_MULTI_DROP` and the quality. -/
structure ItemTemplate where
  maxStackSize : ℕ
  multiDrop : Bool
  currencyToken : Bool
  quality : ℕ
  deriving DecidableEq

/-- `sObjectMgr->GetItemTemplate`. -/
abbrev ItemTemplates : Type := ℕ → Option ItemTemplate

/-- `LootStoreItem`, with the count that is rolled between its bounds. -/
structure LootStoreItem where
  itemid : ℕ
  needsQuest : Bool
  conditions : List ℕ
  count : ℕ
  deriving DecidableEq

structure LootItem where
  itemid : ℕ
  conditions : List ℕ
  rollWinnerGuid : Option ℕ
  count : ℕ
  isLooted : Bool
  isBlocked : Bool
  freeForAll : Bool
  isUnderThreshold : Bool
  isCounted : Bool
  needsQuest : Bool
  followLootRules : Bool
  deriving DecidableEq

/-- An item of a player's own list, by its place in `items` or `questItems`. -/
structure NotNormalLootItem where
  index : ℕ
  isLooted : Bool
  deriving DecidableEq

/-- `NotNormalLootItemMap`: the lists of the players who have one. -/
abbrev NotNormalLootItemMap : Type := List (ℕ × List NotNormalLootItem)

inductive LootMethod
  | freeForAll
  | roundRobin
  | masterLoot
  | groupLoot
  | needBeforeGreed
  deriving DecidableEq

/-- A player for whom loot is filled: the method and the master looter of the group, if there is one,
whether `AllowedForPlayer` holds of an item, and what holds when the loop over the currency tokens comes
to a slot. -/
structure Looter where
  guid : ℕ
  group : Option (LootMethod × ℕ)
  presentAtLooting : Bool
  allowed : LootItem → Bool
  allowedAt : ℕ → LootItem → Bool
  canStore : ℕ → Bool

structure Loot where
  items : List LootItem
  questItems : List LootItem
  gold : ℕ
  unlootedCount : ℕ
  roundRobinPlayer : Option ℕ
  playerQuestItems : NotNormalLootItemMap
  playerFFAItems : NotNormalLootItemMap
  /-- `PlayerNonQuestNonFFAConditionalItems`. -/
  playerConditionalItems : NotNormalLootItemMap
  handed : List ℕ
  deriving DecidableEq

namespace Loot

def new (gold : ℕ) : Loot := ⟨[], [], gold, 0, none, [], [], [], []⟩

def isLooted (l : Loot) : Bool := l.gold = 0 && l.unlootedCount = 0

/-- The list of a player. -/
def listOf (lists : NotNormalLootItemMap) (guid : ℕ) : Option (List NotNormalLootItem) :=
  (lists.find? fun list => decide (list.1 = guid)).map Prod.snd

/-- A list that is not empty is kept as the player's. -/
def withList (lists : NotNormalLootItemMap) (guid : ℕ) (ql : List NotNormalLootItem) :
    NotNormalLootItemMap :=
  if ql = [] then lists else (guid, ql) :: removeKey Prod.fst guid lists

/-! ## Filling -/

/-- The constructor of `LootItem`. -/
def lootItem (templates : ItemTemplates) (item : LootStoreItem) : LootItem where
  itemid := item.itemid
  conditions := item.conditions
  rollWinnerGuid := none
  count := 0
  isLooted := false
  isBlocked := false
  freeForAll := (templates item.itemid).any (·.multiDrop)
  isUnderThreshold := false
  isCounted := false
  needsQuest := item.needsQuest
  followLootRules := false

/-- The loop of `AddItem` over the stacks. -/
def addStacks (proto : ItemTemplate) (item : LootStoreItem) (generated : LootItem) :
    ℕ → ℕ → Loot → Loot
  | 0, _, l => l
  | n + 1, count, l =>
    let size := if item.needsQuest then l.questItems.length else l.items.length
    let limit := if item.needsQuest then maxNrQuestItems else maxNrLootItems
    if size < limit then
      let generatedLoot := { generated with count := min count proto.maxStackSize % 2 ^ 8 }
      let l :=
        if item.needsQuest then { l with questItems := l.questItems ++ [generatedLoot] }
        else { l with items := l.items ++ [generatedLoot] }
      let l :=
        if !item.needsQuest && item.conditions.isEmpty && !proto.multiDrop then
          { l with unlootedCount := incU8 l.unlootedCount }
        else l
      addStacks proto item generated n (subU32 count proto.maxStackSize) l
    else l

def addItem (templates : ItemTemplates) (l : Loot) (item : LootStoreItem) : Loot :=
  match templates item.itemid with
  | none => l
  | some proto =>
    let stackCount := item.count / proto.maxStackSize +
      if item.count % proto.maxStackSize ≠ 0 then 1 else 0
    addStacks proto item (lootItem templates item) stackCount item.count l

/-- The items that `FillFFALoot` puts on a player's list. -/
def ffaAllowed (p : Looter) (item : LootItem) : Bool :=
  !item.isLooted && item.freeForAll && p.allowed item

/-- The loop of `FillFFALoot`, from a place on: the list of the player, and the counter. -/
def ffaLoop (p : Looter) : ℕ → List LootItem → ℕ → List NotNormalLootItem × ℕ
  | _, [], n => ([], n)
  | i, item :: items, n =>
    if ffaAllowed p item then
      let (ql, n) := ffaLoop p (i + 1) items (incU8 n)
      (⟨i, false⟩ :: ql, n)
    else ffaLoop p (i + 1) items n

def fillFFALoot (l : Loot) (p : Looter) : Loot :=
  let (ql, n) := ffaLoop p 0 l.items l.unlootedCount
  { l with
    playerFFAItems := withList l.playerFFAItems p.guid ql
    unlootedCount := n }

/-- The quest items that come on a player's list. -/
def questAllowed (p : Looter) (item : LootItem) : Bool :=
  !item.isLooted && (p.allowed item || item.followLootRules &&
    p.group.any fun (method, masterLooter) =>
      (method = .masterLoot && masterLooter = p.guid) || method ≠ .masterLoot)

/-- Whether `FillQuestLoot` blocks the items of a player. -/
def blocks (p : Looter) : Bool :=
  p.group.all fun (method, _) => method ≠ .groupLoot && method ≠ .roundRobin

/-- The loop of `FillQuestLoot`, from a place on, with the number of items that the player sees already:
the items, the list of the player, and the counter. -/
def questLoop (p : Looter) : ℕ → ℕ → List LootItem → ℕ → List LootItem × List NotNormalLootItem × ℕ
  | _, _, [], n => ([], [], n)
  | i, seen, item :: items, n =>
    if questAllowed p item then
      let n := if item.freeForAll || !item.isBlocked then incU8 n else n
      let item := if blocks p then { item with isBlocked := true } else item
      if seen + 1 = maxNrLootItems then (item :: items, [⟨i, false⟩], n)
      else
        let (items, ql, n) := questLoop p (i + 1) (seen + 1) items n
        (item :: items, ⟨i, false⟩ :: ql, n)
    else
      let (items, ql, n) := questLoop p (i + 1) seen items n
      (item :: items, ql, n)

def fillQuestLoot (l : Loot) (p : Looter) : Loot :=
  if l.items.length = maxNrLootItems then l
  else
    let (questItems, ql, n) := questLoop p 0 l.items.length l.questItems l.unlootedCount
    { l with
      questItems := questItems
      playerQuestItems := withList l.playerQuestItems p.guid ql
      unlootedCount := n }

/-- The items that `FillNonQuestNonFFAConditionalLoot` puts on a player's list. -/
def conditionalAllowed (p : Looter) (item : LootItem) : Bool :=
  !item.isLooted && !item.freeForAll && p.allowed item && !item.conditions.isEmpty

/-- Its loop, from a place on. -/
def conditionalLoop (p : Looter) : ℕ → List LootItem → ℕ →
    List LootItem × List NotNormalLootItem × ℕ
  | _, [], n => ([], [], n)
  | i, item :: items, n =>
    if conditionalAllowed p item then
      let n := if item.isCounted then n else incU8 n
      let (items, ql, n) := conditionalLoop p (i + 1) items n
      ({ item with isCounted := true } :: items, ⟨i, false⟩ :: ql, n)
    else
      let (items, ql, n) := conditionalLoop p (i + 1) items n
      (item :: items, ql, n)

/-- `FillNonQuestNonFFAConditionalLoot`. -/
def fillConditionalLoot (l : Loot) (p : Looter) : Loot :=
  let (items, ql, n) := conditionalLoop p 0 l.items l.unlootedCount
  { l with
    items := items
    playerConditionalItems := withList l.playerConditionalItems p.guid ql
    unlootedCount := n }

/-! ## Handing out -/

/-- The item at a place. -/
def itemAt (l : Loot) (place : ℕ) : Option LootItem :=
  if l.items.length ≤ place then l.questItems[place - l.items.length]? else l.items[place]?

/-- The item at a place, changed. -/
def modifyAt (l : Loot) (place : ℕ) (f : LootItem → LootItem) : Loot :=
  if l.items.length ≤ place then
    { l with questItems := l.questItems.modify (place - l.items.length) f }
  else { l with items := l.items.modify place f }

/-- The entry with the index, which a list has once, marked as looted in a player's list. -/
def markLooted (lists : NotNormalLootItemMap) (guid index : ℕ) : NotNormalLootItemMap :=
  match listOf lists guid with
  | none => lists
  | some ql =>
    replaceKey Prod.fst (guid, replaceKey NotNormalLootItem.index ⟨index, true⟩ ql) lists

/-- What `LootItemInSlot` finds in a slot of a player: the place of the item, the entry of the player's
own list, if there is one, and whether it is looted. -/
def lootItemInSlot (l : Loot) (guid slot : ℕ) : Option (ℕ × Option NotNormalLootItem × Bool) :=
  if l.items.length ≤ slot then
    match listOf l.playerQuestItems guid with
    | none => none
    | some ql => ql[slot - l.items.length]?.map fun entry =>
        (l.items.length + entry.index, some entry, entry.isLooted)
  else
    match l.items[slot]? with
    | none => none
    | some item =>
      let lists :=
        if item.freeForAll then l.playerFFAItems
        else if item.conditions ≠ [] then l.playerConditionalItems else []
      let entry := (listOf lists guid).bind fun ql => ql.find? fun entry => entry.index = slot
      some (slot, entry, (entry.map (·.isLooted)).getD item.isLooted)

/-- The item at a place, taken out by a player: on the player's own list and, if it is for one, in the
loot. -/
def takeOut (l : Loot) (guid : ℕ) (quest : Bool) (place : ℕ) (entry : Option NotNormalLootItem)
    (item : LootItem) : Loot :=
  let l :=
    match entry with
    | none => l
    | some entry =>
      if quest then { l with playerQuestItems := markLooted l.playerQuestItems guid entry.index }
      else if item.freeForAll then
        { l with playerFFAItems := markLooted l.playerFFAItems guid entry.index }
      else { l with playerConditionalItems := markLooted l.playerConditionalItems guid entry.index }
  let l := if item.freeForAll then l else l.modifyAt place fun item => { item with isLooted := true }
  { l with
    unlootedCount := decU8 l.unlootedCount
    handed := l.handed ++ [place] }

/-- `Player::StoreLootItem`, for a player of whom `allowed` and `canStore` are the answers. -/
def storeLootItem (l : Loot) (guid slot : ℕ) (allowed : LootItem → Bool) (canStore : Bool) : Loot :=
  match l.lootItemInSlot guid slot with
  | none => l
  | some (place, entry, isLooted) =>
    match l.itemAt place with
    | none => l
    | some item =>
      let quest := decide (l.items.length ≤ slot)
      if isLooted then l
      else if !allowed item then l
      else if !quest && item.isBlocked then l
      else if item.rollWinnerGuid.any (· ≠ guid) then l
      else if !canStore then l
      else l.takeOut guid quest place entry item

/-- `GetMaxSlotInLootFor`. -/
def maxSlotFor (l : Loot) (guid : ℕ) : ℕ :=
  l.items.length + ((listOf l.playerQuestItems guid).map List.length).getD 0

/-- One slot of the loop over the currency tokens. -/
def storeToken (templates : ItemTemplates) (p : Looter) (l : Loot) (slot : ℕ) : Loot :=
  match l.itemAt slot with
  | none => l
  | some item =>
    if !item.isLooted && item.freeForAll && p.allowedAt slot item &&
        (templates item.itemid).any (·.currencyToken) then
      l.storeLootItem p.guid slot (p.allowedAt slot) (p.canStore slot)
    else l

def fillNotNormalLootFor (templates : ItemTemplates) (l : Loot) (p : Looter) : Loot :=
  let l := if (listOf l.playerQuestItems p.guid).isNone then l.fillQuestLoot p else l
  let l := if (listOf l.playerFFAItems p.guid).isNone then l.fillFFALoot p else l
  let l := if (listOf l.playerConditionalItems p.guid).isNone then l.fillConditionalLoot p else l
  if p.presentAtLooting then (List.range (l.maxSlotFor p.guid)).foldl (storeToken templates p) l else l

/-- The items below the group's threshold, marked. -/
def markUnderThreshold (templates : ItemTemplates) (threshold : ℕ) (l : Loot) : Loot :=
  { l with
    items := l.items.map fun item =>
      if (templates item.itemid).any (·.quality < threshold) then { item with isUnderThreshold := true }
      else item }

/-- `FillLoot`, where there is a template: with the items that its processing adds, and for the members
of the owner's group with its threshold, or for the owner alone. -/
def fillLoot (templates : ItemTemplates) (l : Loot) (drops : List LootStoreItem) (owner : Looter)
    (group : Option (ℕ × List Looter)) : Loot :=
  let l := drops.foldl (addItem templates) l
  match group with
  | some (threshold, members) =>
    let l := { l with roundRobinPlayer := some owner.guid }
    markUnderThreshold templates threshold (members.foldl (fillNotNormalLootFor templates) l)
  | none => l.fillNotNormalLootFor templates { owner with presentAtLooting := true }

/-- What hands out the item at a place: a roll that was won, or the master looter. -/
inductive Award
  /-- `CountTheRoll`, with the winner and whether there is room for the item. -/
  | win (slot winner : ℕ) (canStore : Bool)
  /-- `HandleLootMasterGiveOpcode`, with the answer of its checks up to the slot, whether the target has
  room for the item, and whether it is allowed to have it. -/
  | give (slot : ℕ) (eligible canStore allowed : Bool)
  deriving DecidableEq

/-- An item handed out by its place, as both do it. -/
def handOut (l : Loot) (slot : ℕ) (f : LootItem → LootItem) : Loot :=
  let l := l.modifyAt slot fun item => { f item with isLooted := true }
  { l with
    unlootedCount := decU8 l.unlootedCount
    handed := l.handed ++ [slot] }

def award (l : Loot) : Award → Loot
  | .win slot winner canStore =>
    match l.itemAt slot with
    | none => l
    | some _ =>
      if canStore then l.handOut slot id
      else l.modifyAt slot fun item =>
        { item with
          isBlocked := false
          rollWinnerGuid := some winner }
  | .give slot eligible canStore allowed =>
    if !eligible then l
    else
      match l.itemAt slot with
      | none => l
      | some item =>
        if !canStore || item.followLootRules && !allowed then l
        else l.handOut slot fun item => { item with count := 0 }

end Loot

end Sunstrider.Loots
