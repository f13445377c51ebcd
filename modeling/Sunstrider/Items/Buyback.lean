import Sunstrider.Items.Item
import Sunstrider.Player.Money

/-!
# Selling and buying back

`HandleSellItemOpcode` and `HandleBuybackItem` of `ItemHandler.cpp`, with what they call of
`Player.cpp`. The items of a player outside the buyback slots are a list, since only their guids matter
here; where an item that is bought back goes is an answer of `CanStoreItem`. The fields of a buyback
slot, which the source counts from the first one, are counted as the slots are.

A packet for a vendor who is not there is no step. Left out: quests, logs, and the stored loot of
containers. All items of the list are the player's own.
-/

namespace Sunstrider.Items

open Lib (mulU32 toInt32 toU32)
open Player (modifyMoney)

def buybackSlotStart : ℕ := 74

def buybackSlotEnd : ℕ := 86

/-- A place for a part of an item that is stored: the stack that is there, if there is one, and how much
goes there. -/
structure ItemPosCount where
  stack : Option ℕ
  count : ℕ
  deriving DecidableEq

structure Seller where
  money : ℕ
  items : List Item
  /-- The slots of `m_items` that are buyback slots. -/
  buyback : ℕ → Option Item
  buybackPrice : ℕ → ℕ
  buybackTimestamp : ℕ → ℕ
  currentBuybackSlot : ℕ
  lootGuid : ℕ
  loginTime : ℕ
  /-- The guid of the next item that is created. -/
  nextGuid : ℕ

/-- What became of a packet. -/
inductive Outcome
  | refused
  /-- An item was sold into a slot. -/
  | sold (item : Item) (slot : ℕ)
  /-- The item of a slot was bought back. -/
  | bought (item : Item) (slot : ℕ)
  deriving DecidableEq

namespace Seller

/-- `GetItemByGuid`, which does not look into the buyback slots. -/
def itemByGuid (p : Seller) (guid : ℕ) : Option Item := p.items.find? fun item => item.guid = guid

/-- The slots after the first one. -/
def laterSlots : List ℕ := List.range' (buybackSlotStart + 1) (buybackSlotEnd - buybackSlotStart - 1)

/-- The search for the oldest slot, from one with its time. At a slot that is empty it stops: the source
remembers that slot, and overwrites it with the oldest one after the loop. -/
def oldestSlot (p : Seller) (oldestTime slot : ℕ) : List ℕ → ℕ
  | [] => slot
  | i :: slots =>
    if (p.buyback i).isNone then slot
    else if p.buybackTimestamp i < oldestTime then p.oldestSlot (p.buybackTimestamp i) i slots
    else p.oldestSlot oldestTime slot slots

/-- The slot that `AddItemToBuyBackSlot` takes. -/
def slotToFill (p : Seller) : ℕ :=
  if (p.buyback p.currentBuybackSlot).isSome then
    p.oldestSlot (p.buybackTimestamp buybackSlotStart) buybackSlotStart laterSlots
  else p.currentBuybackSlot

def removeItemFromBuyBackSlot (p : Seller) (slot : ℕ) : Seller :=
  if buybackSlotStart ≤ slot ∧ slot < buybackSlotEnd then
    let p := { p with
      buyback := Function.update p.buyback slot none
      buybackPrice := Function.update p.buybackPrice slot 0
      buybackTimestamp := Function.update p.buybackTimestamp slot 0 }
    if (p.buyback p.currentBuybackSlot).isSome then { p with currentBuybackSlot := slot } else p
  else p

/-- `AddItemToBuyBackSlot`, for an item with the selling price of its template. -/
def addItemToBuyBackSlot (p : Seller) (item : Item) (sellPrice now : ℕ) : Seller :=
  let slot := p.slotToFill
  let p := p.removeItemFromBuyBackSlot slot
  let etime := toU32 ((now : ℤ) - p.loginTime + 30 * 3600)
  let p := { p with
    buyback := Function.update p.buyback slot (some item)
    buybackPrice := Function.update p.buybackPrice slot (mulU32 sellPrice item.count)
    buybackTimestamp := Function.update p.buybackTimestamp slot etime }
  if p.currentBuybackSlot < buybackSlotEnd - 1 then
    { p with currentBuybackSlot := p.currentBuybackSlot + 1 }
  else p

/-- `GetItemFromBuyBackSlot`. -/
def itemFromBuyBackSlot (p : Seller) (slot : ℕ) : Option Item :=
  if buybackSlotStart ≤ slot ∧ slot < buybackSlotEnd then p.buyback slot else none

/-- What `HandleSellItemOpcode` sells: the item, and how much of it. -/
def saleOf (p : Seller) (sellPrice : ItemTemplates) (guid count : ℕ) : Option (Item × ℕ) :=
  match p.itemByGuid guid with
  | none => none
  | some item =>
    if item.notEmptyBag then none
    else if p.lootGuid = item.guid then none
    else
      let count := if count = 0 then item.count else count
      if item.count < count then none
      else if sellPrice item.entry = 0 then none
      else some (item, count)

/-- The item that is sold is the whole stack, or a part that is cut off it. -/
def takeSold (p : Seller) (item : Item) (count : ℕ) : Seller × Item :=
  if count < item.count then
    ({ p with
        items := p.items.map fun it =>
          if it.guid = item.guid then { it with count := it.count - count } else it
        nextGuid := p.nextGuid + 1 },
      { item with
        guid := p.nextGuid
        count := count })
  else ({ p with items := p.items.eraseP fun it => it.guid = item.guid }, item)

/-- `HandleSellItemOpcode`, where the clone that a part needs can be made. -/
def handleSellItem (p : Seller) (sellPrice : ItemTemplates) (guid count now : ℕ) :
    Seller × Outcome :=
  match p.saleOf sellPrice guid count with
  | none => (p, .refused)
  | some (item, count) =>
    let slot := p.slotToFill
    let (p, soldItem) := p.takeSold item count
    let p := p.addItemToBuyBackSlot soldItem (sellPrice item.entry) now
    ({ p with money := modifyMoney p.money (toInt32 (mulU32 (sellPrice item.entry) count)) },
      .sold soldItem slot)

/-- `_StoreItem`. -/
def storeAt (p : Seller) (pos : ItemPosCount) (item : Item) (clone : Bool) : Seller :=
  match pos.stack with
  | some guid =>
    { p with
      items := p.items.map fun it =>
        if it.guid = guid then { it with count := it.count + pos.count } else it }
  | none =>
    if clone then
      { p with
        items := p.items ++
          [{ item with
            guid := p.nextGuid
            count := pos.count }]
        nextGuid := p.nextGuid + 1 }
    else { p with items := p.items ++ [{ item with count := pos.count }] }

/-- `StoreItem`: the item itself goes to the last place. -/
def storeItem (p : Seller) (item : Item) : List ItemPosCount → Seller
  | [] => p
  | [pos] => p.storeAt pos item false
  | pos :: dest => (p.storeAt pos item true).storeItem item dest

/-- `HandleBuybackItem`, with the places that `CanStoreItem` finds, if it does. -/
def handleBuybackItem (p : Seller) (slot : ℕ) (dest : Option (List ItemPosCount)) :
    Seller × Outcome :=
  match p.itemFromBuyBackSlot slot with
  | none => (p, .refused)
  | some item =>
    let price := p.buybackPrice slot
    if p.money < price then (p, .refused)
    else
      match dest with
      | none => (p, .refused)
      | some dest =>
        let p := { p with money := modifyMoney p.money (-toInt32 price) }
        ((p.removeItemFromBuyBackSlot slot).storeItem item dest, .bought item slot)

/-! ## Runs -/

inductive Op
  | sell (guid count now : ℕ)
  | buyback (slot : ℕ) (dest : Option (List ItemPosCount))
  deriving DecidableEq

def step (sellPrice : ItemTemplates) (p : Seller) : Op → Seller × Outcome
  | .sell guid count now => p.handleSellItem sellPrice guid count now
  | .buyback slot dest => p.handleBuybackItem slot dest

end Seller

end Sunstrider.Items
