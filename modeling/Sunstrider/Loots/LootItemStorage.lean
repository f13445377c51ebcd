import Sunstrider.Loots.LootMgr

/-!
# Stored loot

`LootItemStorage.cpp`: the loot of the items that can be opened is kept in memory and in two tables. The
statements are executed when they are committed, in their order.

What each item was generated from is kept beside it, in memory and in the table (`Kept`). No column has
it and no function reads it: it is there to say which conditions an item should get. What depends on a
player (`AllowedForPlayer`) is an answer that comes with the player.

An item has the fields that are saved. In a loot that is being looted it is one of `Loots.Loot`
(`LootItem.fresh`), which has those of the looting, too.
-/

namespace Sunstrider.LootItemStorage

open Sunstrider.LootMgr (LootStoreItem LootTemplate LootTemplateMap)

structure LootItem where
  itemid : ℕ
  count : UInt8
  followLootRules : Bool
  freeforall : Bool
  isBlocked : Bool
  isCounted : Bool
  isUnderthreshold : Bool
  needsQuest : Bool
  randomPropertyId : ℤ
  randomSuffix : ℕ
  conditions : List ℕ
  deriving DecidableEq

/-- An item of loot with the entry that it was made from. The constructor copies the conditions. -/
structure Generated where
  item : LootItem
  origin : LootStoreItem
  conditions_eq : item.conditions = origin.conditions

structure Loot where
  containerID : ℕ
  gold : ℕ
  unlootedCount : UInt8
  items : List LootItem
  deriving DecidableEq

def isLooted (gold : ℕ) (unlootedCount : UInt8) : Bool := gold = 0 && unlootedCount = 0

/-- `StoredLootItem`, and the columns of `item_loot_items` but for the first. -/
structure StoredLootItem where
  itemId : ℕ
  count : ℕ
  followRules : Bool
  ffa : Bool
  blocked : Bool
  counted : Bool
  underThreshold : Bool
  needsQuest : Bool
  randomPropertyId : ℤ
  randomSuffix : ℕ
  deriving DecidableEq

namespace StoredLootItem

/-- The constructor. -/
def new (li : LootItem) : StoredLootItem :=
  ⟨li.itemid, li.count.toNat, li.followLootRules, li.freeforall, li.isBlocked, li.isCounted,
    li.isUnderthreshold, li.needsQuest, li.randomPropertyId, li.randomSuffix⟩

/-- The item of loot that is made of a stored one in `LoadStorageFromDB` and in `LoadStoredLoot`. Its
count has eight bits. -/
def lootItem (item : StoredLootItem) : LootItem :=
  ⟨item.itemId, UInt8.ofNat item.count, item.followRules, item.ffa, item.blocked, item.counted,
    item.underThreshold, item.needsQuest, item.randomPropertyId, item.randomSuffix, []⟩

/-- Same item and same count. -/
def Is (itemId count : ℕ) (item : StoredLootItem) : Bool := item.itemId = itemId && item.count = count

end StoredLootItem

structure Kept where
  item : StoredLootItem
  origin : LootStoreItem
  deriving DecidableEq

def Kept.Is (itemId count : ℕ) (k : Kept) : Bool := k.item.Is itemId count

structure StoredLootContainer where
  money : ℕ
  lootItems : List Kept

structure Storage where
  lootItemStore : AList fun _ : ℕ => StoredLootContainer
  /-- `item_loot_items`, whose first column is the container. -/
  itemLootItems : List (ℕ × Kept)
  /-- `item_loot_money`, with the container as its key. -/
  itemLootMoney : AList fun _ : ℕ => ℕ

namespace Storage

/-! ## Statements -/

/-- `CHAR_DEL_ITEMCONTAINER_ITEMS`. -/
def delItems (s : Storage) (containerId : ℕ) : Storage :=
  { s with itemLootItems := s.itemLootItems.filter fun row => row.1 ≠ containerId }

/-- `CHAR_DEL_ITEMCONTAINER_ITEM`. -/
def delItem (s : Storage) (containerId itemId count : ℕ) : Storage :=
  { s with itemLootItems := s.itemLootItems.filter fun row => !(row.1 = containerId && row.2.Is itemId count) }

/-- `CHAR_INS_ITEMCONTAINER_ITEMS`. -/
def insItem (s : Storage) (containerId : ℕ) (k : Kept) : Storage :=
  { s with itemLootItems := s.itemLootItems ++ [(containerId, k)] }

/-- `CHAR_DEL_ITEMCONTAINER_MONEY`. -/
def delMoney (s : Storage) (containerId : ℕ) : Storage :=
  { s with itemLootMoney := s.itemLootMoney.erase containerId }

/-- `CHAR_INS_ITEMCONTAINER_MONEY`. -/
def insMoney (s : Storage) (containerId money : ℕ) : Storage :=
  { s with itemLootMoney := s.itemLootMoney.insert containerId money }

/-! ## Operations -/

/-- The rest of the server. -/
structure Env where
  lootTemplatesItem : LootTemplateMap
  /-- The entry of the item that has the number of the container. -/
  entry : ℕ → ℕ
  /-- There is an item template, and it is not that of a currency token. -/
  isStorable : ℕ → Bool

/-- The container of a number, which is made where there is none. -/
def containerOf (store : AList fun _ : ℕ => StoredLootContainer) (containerId : ℕ) :
    StoredLootContainer :=
  (store.lookup containerId).getD ⟨0, []⟩

def loadStorageFromDB (s : Storage) : Storage :=
  let store := s.itemLootItems.foldl (fun store row =>
    let container := containerOf store row.1
    let k : Kept := ⟨.new row.2.item.lootItem, row.2.origin⟩
    store.insert row.1 { container with lootItems := container.lootItems ++ [k] }) ∅
  { s with
    lootItemStore := s.itemLootMoney.entries.foldl (fun store row =>
      store.insert row.1 { containerOf store row.1 with money := row.2 }) store }

/-- `LoadStoredLoot`: whether there is any, and the loot of the item. -/
def loadStoredLoot (env : Env) (s : Storage) (loot : Loot) : Bool × Loot :=
  match s.lootItemStore.lookup loot.containerID with
  | none => (false, loot)
  | some container =>
    let loot := { loot with gold := container.money }
    match env.lootTemplatesItem.lookup (env.entry loot.containerID) with
    | none => (true, loot)
    | some lt =>
      (true, container.lootItems.foldl (fun loot k =>
        let li := k.item.lootItem
        -- Copy the extra loot conditions from the item in the loot template
        let li := { li with conditions := (lt.copyConditions li.itemid).getD li.conditions }
        { loot with items := loot.items ++ [li], unlootedCount := loot.unlootedCount + 1 }) loot)

def removeStoredMoneyForContainer (s : Storage) (containerId : ℕ) : Storage :=
  match s.lootItemStore.lookup containerId with
  | none => s
  | some container =>
    { s with lootItemStore := s.lootItemStore.insert containerId { container with money := 0 } }.delMoney
      containerId

def removeStoredLootForContainer (s : Storage) (containerId : ℕ) : Storage :=
  let s := { s with lootItemStore := s.lootItemStore.erase containerId }
  (s.delItems containerId).delMoney containerId

def removeStoredLootItemForContainer (s : Storage) (containerId itemId count : ℕ) : Storage :=
  match s.lootItemStore.lookup containerId with
  | none => s
  | some container =>
    { s with
      lootItemStore := s.lootItemStore.insert containerId
        { container with lootItems := container.lootItems.eraseP (Kept.Is itemId count) } }.delItem
      containerId itemId count

/-- The items of a loot that are stored. -/
def storable (env : Env) (allowedForPlayer : LootItem → Bool) (items : List Generated) :
    List Generated :=
  items.filter fun g => allowedForPlayer g.item && env.isStorable g.item.itemid

def addNewStoredLoot (env : Env) (s : Storage) (containerID gold : ℕ) (unlootedCount : UInt8)
    (items : List Generated) (allowedForPlayer : LootItem → Bool) : Storage :=
  if isLooted gold unlootedCount then s
  else if (s.lootItemStore.lookup containerID).isSome then s
  else
    let s := if gold ≠ 0 then (s.delMoney containerID).insMoney containerID gold else s
    let s := s.delItems containerID
    let kept := (storable env allowedForPlayer items).map fun g => (⟨.new g.item, g.origin⟩ : Kept)
    let s := kept.foldl (fun s k => s.insItem containerID k) s
    { s with lootItemStore := s.lootItemStore.insert containerID ⟨gold, kept⟩ }

/-! ## Runs -/

inductive Op
  | addNewStoredLoot (containerID gold : ℕ) (unlootedCount : UInt8) (items : List Generated)
      (allowedForPlayer : LootItem → Bool)
  | removeStoredLootItemForContainer (containerId itemId count : ℕ)
  | removeStoredMoneyForContainer (containerId : ℕ)
  | removeStoredLootForContainer (containerId : ℕ)
  | loadStorageFromDB

def step (env : Env) (s : Storage) : Op → Storage
  | .addNewStoredLoot containerID gold unlootedCount items allowedForPlayer =>
    s.addNewStoredLoot env containerID gold unlootedCount items allowedForPlayer
  | .removeStoredLootItemForContainer containerId itemId count =>
    s.removeStoredLootItemForContainer containerId itemId count
  | .removeStoredMoneyForContainer containerId => s.removeStoredMoneyForContainer containerId
  | .removeStoredLootForContainer containerId => s.removeStoredLootForContainer containerId
  | .loadStorageFromDB => s.loadStorageFromDB

/-- Nothing is stored. -/
def empty : Storage := ⟨∅, [], ∅⟩

end Storage

end Sunstrider.LootItemStorage
