import Mathlib.Logic.Function.Basic
import Sunstrider.Guilds.Guild

/-!
# The guild bank

`Guild::_MoveItems` and the classes `MoveItemData`, `PlayerMoveItemData` and `BankMoveItemData` of
`Guild.cpp`. The positions that `CanStore` finds are planned first, then the items are removed, and
then they are stored as planned.

Items move between the tabs of the bank and the inventory of one player. `Player::CanStoreItem` is a
parameter; `MoveItemToInventory` stores at the positions that it found, and `MoveItemFromInventory`
empties a position. The logs, the broadcasts and the database are left out.
-/

namespace Sunstrider.Guilds

open Sunstrider.Items (Item ItemTemplates getMaxStackSize)

def guildBankRightViewTab : ℕ := 0x01

def guildBankRightPutItem : ℕ := 0x02

def guildBankRightDepositItem : ℕ := guildBankRightViewTab ||| guildBankRightPutItem

namespace Guild

variable (g : Guild)

def getRankBankTabRights (rankId tabId : ℕ) : ℕ :=
  ((g.getRankInfo rankId).map fun r => r.getBankTabRights tabId).getD 0

def getRankBankTabSlotsPerDay (rankId tabId : ℕ) : ℤ :=
  if tabId < g.getPurchasedTabsSize then
    ((g.getRankInfo rankId).map fun r => r.getBankTabSlotsPerDay tabId).getD 0
  else 0

/-- `_GetMemberRemainingSlots`, of a member. -/
def getMemberRemainingSlots (m : Member) (tabId : ℕ) : ℤ :=
  if m.rankId = grGuildmaster then Lib.toInt32 guildWithdrawUnlimited
  else if g.getRankBankTabRights m.rankId tabId &&& guildBankRightViewTab ≠ 0 then
    let remaining := g.getRankBankTabSlotsPerDay m.rankId tabId - m.getBankWithdrawValue tabId
    if 0 < remaining then remaining else 0
  else 0

def updateMemberWithdrawSlots (guid tabId : ℕ) : Guild :=
  match g.getMember guid with
  | some m =>
    if m.rankId ≠ grGuildmaster &&
        m.getBankWithdrawValue tabId < g.getRankBankTabSlotsPerDay m.rankId tabId then
      g.writeMember (m.updateBankWithdrawValue tabId 1)
    else g
  | none => g

def memberHasTabRights (guid tabId rights : ℕ) : Bool :=
  match g.getMember guid with
  | some m =>
    m.rankId = grGuildmaster || g.leaderGuid = guid ||
      g.getRankBankTabRights m.rankId tabId &&& rights = rights
  | none => false

end Guild

def Member.resetValues (m : Member) : Member :=
  { m with bankWithdraw := List.replicate (guildBankMaxTabs + 1) 0 }

def Guild.resetTimes (g : Guild) : Guild := { g with members := g.members.map Member.resetValues }

/-! ## Places -/

/-- A bag and a slot of an inventory. -/
abbrev InventoryPos : Type := Fin 256 × Fin 256

/-- Where an item object can be: in a slot of a tab of the bank, or in the inventory. -/
abbrev Location : Type := (Fin guildBankMaxTabs × Fin guildBankMaxSlots) ⊕ InventoryPos

/-- `ItemPosCount`. The count is an 8-bit number. -/
structure ItemPosCount where
  pos : Location
  count : UInt8
  deriving DecidableEq

/-- `ItemPosCount::ItemPosCount`. -/
def ItemPosCount.new (pos : Location) (count : ℕ) : ItemPosCount := ⟨pos, UInt8.ofNat count⟩

/-- What the guild bank knows of items and players: the templates, and `Player::CanStoreItem` of an
inventory, a position in it, an item, and the flag `swap`. It answers with the positions, or refuses. -/
structure BankEnv where
  templates : ItemTemplates
  canStoreItem : (InventoryPos → Option Item) → InventoryPos → Item → Bool →
    Option (List (InventoryPos × UInt8))

/-- `PlayerMoveItemData` and `BankMoveItemData`. The slot of a bank is absent for `NULL_SLOT`. -/
inductive MoveItemData
  | player (pos : InventoryPos)
  | bank (tab : Fin guildBankMaxTabs) (slot : Option (Fin guildBankMaxSlots))
  deriving DecidableEq

namespace MoveItemData

def isBank : MoveItemData → Bool
  | .player _ => false
  | .bank .. => true

/-- Both are of the bank, and of one tab. -/
def sameTab : MoveItemData → MoveItemData → Bool
  | .bank tab _, .bank tab' _ => tab = tab'
  | _, _ => false

/-- The container and the slot. -/
def location : MoveItemData → Option Location
  | .player pos => some (.inr pos)
  | .bank tab slot => slot.map fun slot => .inl (tab, slot)

def hasStoreRights (g : Guild) (player : ℕ) (self other : MoveItemData) : Bool :=
  match self with
  | .player _ => true
  | .bank tab _ => self.sameTab other || g.memberHasTabRights player tab guildBankRightDepositItem

def hasWithdrawRights (g : Guild) (player : ℕ) (self other : MoveItemData) : Bool :=
  match self with
  | .player _ => true
  | .bank tab _ =>
    self.sameTab other ||
      ((g.getMember player).map fun m => g.getMemberRemainingSlots m tab).getD 0 ≠ 0

end MoveItemData

/-! ## Item objects -/

/-- The bank, the inventory of the player, and the next guid of the generator of items. -/
structure BankWorld where
  guild : Guild
  inventory : InventoryPos → Option Item
  nextGuid : ℕ

namespace BankWorld

variable (E : BankEnv) (w : BankWorld)

/-- `Guild::_GetItem` and `Player::GetItemByPos`. -/
def itemAt : Location → Option Item
  | .inl (tab, slot) => (w.guild.bankTabs[tab.val]?).bind fun t => t.items slot
  | .inr pos => w.inventory pos

/-- `BankTab::SetItem`, and a write to a position of the inventory. -/
def setItem (l : Location) (item : Option Item) : BankWorld :=
  match l with
  | .inl (tab, slot) =>
    { w with guild := { w.guild with bankTabs := w.guild.bankTabs.modify tab fun t =>
        { t with items := Function.update t.items slot item } } }
  | .inr pos => { w with inventory := Function.update w.inventory pos item }

/-- `Item::CloneItem`. -/
def cloneItem (item : Item) (count : ℕ) : BankWorld × Option Item :=
  if count < 1 then (w, none)
  else
    ({ w with nextGuid := w.nextGuid + 1 }, some { item with
      guid := w.nextGuid
      count := min count (getMaxStackSize E.templates item.entry)
      notEmptyBag := false })

/-- `InitItem`. A bag that is not empty stays with the player, and so does what he cannot trade. -/
def initItem : MoveItemData → Option Item
  | .player pos => (w.inventory pos).filter fun item => !item.notEmptyBag && item.canBeTraded
  | .bank tab slot => slot.bind fun slot => w.itemAt (.inl (tab, slot))

/-- `MoveItemData::CheckItem`: the amount to split off, which is 0 for all. -/
def checkItem (item : Item) (splitedAmount : ℕ) : Option ℕ :=
  if item.count < splitedAmount then none
  else if splitedAmount = item.count then some 0
  else some splitedAmount

/-! ## Planning -/

/-- `m_vec`, and the number of items that have no position yet. -/
structure Reservation where
  vec : List ItemPosCount
  count : ℕ

def reserveSpace (pos : Location) (item : Item) (itemDest : Option Item) (r : Reservation) :
    Option Reservation :=
  let reserve (requiredSpace : ℕ) : Reservation :=
    let requiredSpace := min requiredSpace r.count
    if r.vec.any fun p => p.pos = pos then r
    else ⟨r.vec ++ [.new pos requiredSpace], r.count - requiredSpace⟩
  match itemDest with
  | some dest =>
    if dest.entry ≠ item.entry || E.templates item.entry ≤ dest.count then none
    else some (reserve (E.templates item.entry - dest.count))
  | none => some (reserve (E.templates item.entry))

/-- The item in a slot of a tab, which is none where it is the item that moves. -/
def itemDest (tab : Fin guildBankMaxTabs) (item : Item) (slot : Fin guildBankMaxSlots) :
    Option Item :=
  (w.itemAt (.inl (tab, slot))).filter fun dest => dest.guid ≠ item.guid

def canStoreItemInTab (tab : Fin guildBankMaxTabs) (item : Item)
    (skipSlotId : Option (Fin guildBankMaxSlots)) (merge : Bool) (r : Reservation) : Reservation :=
  (List.finRange guildBankMaxSlots).foldl (fun r slotId =>
    if r.count = 0 || some slotId = skipSlotId then r
    else if (w.itemDest tab item slotId).isSome ≠ merge then r
    else (reserveSpace E (.inl (tab, slotId)) item (w.itemDest tab item slotId) r).getD r) r

/-- The search of `BankMoveItemData::CanStore` after the slot that is given. -/
def searchTab (tab : Fin guildBankMaxTabs) (slot : Option (Fin guildBankMaxSlots)) (item : Item)
    (r : Reservation) : Option (List ItemPosCount) :=
  let r := if 1 < E.templates item.entry then w.canStoreItemInTab E tab item slot true r else r
  if r.count = 0 then some r.vec
  else
    let r := w.canStoreItemInTab E tab item slot false r
    if r.count = 0 then some r.vec else none

/-- `BankMoveItemData::CanStore`. -/
def bankCanStore (tab : Fin guildBankMaxTabs) (slot : Option (Fin guildBankMaxSlots)) (item : Item)
    (swap : Bool) : Option (List ItemPosCount) :=
  if item.soulBound then none
  else if w.guild.getPurchasedTabsSize ≤ tab then none
  else
    match slot with
    | some slotId =>
      let dest := if swap then none else w.itemDest tab item slotId
      match reserveSpace E (.inl (tab, slotId)) item dest ⟨[], item.count⟩ with
      | none => none
      | some r => if r.count = 0 then some r.vec else w.searchTab E tab slot item r
    | none => w.searchTab E tab slot item ⟨[], item.count⟩

def canStore (self : MoveItemData) (item : Item) (swap : Bool) : Option (List ItemPosCount) :=
  match self with
  | .player pos =>
    (E.canStoreItem w.inventory pos item swap).map fun vec => vec.map fun p => ⟨.inr p.1, p.2⟩
  | .bank tab slot => w.bankCanStore E tab slot item swap

/-! ## Execution -/

/-- `RemoveItem`: a part of the stack, or all of it. -/
def removeItem (player : ℕ) (self other : MoveItemData) (splitedAmount : ℕ) : BankWorld :=
  let w :=
    match self.location with
    | none => w
    | some l =>
      if splitedAmount ≠ 0 then
        w.setItem l ((w.itemAt l).map fun item => { item with count := item.count - splitedAmount })
      else w.setItem l none
  match self with
  | .player _ => w
  | .bank tab _ =>
    if self.sameTab other then w
    else { w with guild := w.guild.updateMemberWithdrawSlots player tab }

/-- `BankMoveItemData::_StoreItem` and `Player::_StoreItem`. -/
def storeItemAt (item : Item) (pos : ItemPosCount) (clone : Bool) : BankWorld :=
  match w.itemAt pos.pos with
  | some dest => w.setItem pos.pos (some { dest with count := dest.count + pos.count.toNat })
  | none =>
    if clone then
      match w.cloneItem E item pos.count.toNat with
      | (w, some item) => w.setItem pos.pos (some item)
      | (w, none) => w
    else w.setItem pos.pos (some { item with count := pos.count.toNat })

/-- `BankMoveItemData::StoreItem` and `Player::StoreItem`. Every position but the last takes a clone. -/
def storeItem (item : Item) : List ItemPosCount → BankWorld → BankWorld
  | [], w => w
  | [pos], w => w.storeItemAt E item pos false
  | pos :: vec, w => storeItem item vec (w.storeItemAt E item pos true)

/-- `Guild::_DoItemsMove`, of the item or of its clone, and with an item to swap for or without. -/
def doItemsMove (player : ℕ) (src dest : MoveItemData) (srcItem : Item) (destItem : Option Item)
    (splitedAmount : ℕ) : Option BankWorld :=
  match w.canStore E dest srcItem destItem.isSome with
  | none => none
  | some vec =>
    match destItem with
    | none => some (storeItem E srcItem vec (w.removeItem player src dest splitedAmount))
    | some destItem =>
      match w.canStore E src destItem true with
      | none => none
      | some srcVec =>
        let w := (w.removeItem player src dest splitedAmount).removeItem player dest src 0
        some (storeItem E destItem srcVec (storeItem E srcItem vec w))

def moveItems (player : ℕ) (src dest : MoveItemData) (splitedAmount : ℕ) : BankWorld :=
  match w.initItem src with
  | none => w
  | some item =>
    match checkItem item splitedAmount with
    | none => w
    | some split =>
      if !dest.hasStoreRights w.guild player src then w
      else if !src.hasWithdrawRights w.guild player dest then w
      else if split ≠ 0 then
        match w.cloneItem E item split with
        | (w, none) => w
        | (w, some clone) => (w.doItemsMove E player src dest clone none split).getD w
      else
        match w.doItemsMove E player src dest item none 0 with
        | some w => w
        | none =>
          match w.initItem dest with
          | none => w
          | some destItem =>
            if !src.hasStoreRights w.guild player dest then w
            else if !dest.hasWithdrawRights w.guild player src then w
            else (w.doItemsMove E player src dest item (some destItem) 0).getD w

/-! ## Requests -/

/-- A slot of a purchased tab. There are at most `GUILD_BANK_MAX_TABS` of these. -/
def bankSlot (tabId slotId : ℕ) : Option MoveItemData :=
  if h : tabId < guildBankMaxTabs ∧ slotId < guildBankMaxSlots then
    if tabId < w.guild.getPurchasedTabsSize then some (.bank ⟨tabId, h.1⟩ (some ⟨slotId, h.2⟩))
    else none
  else none

/-- A slot of a purchased tab, or the tab for `NULL_SLOT`. -/
def bankSlotOrTab (tabId : ℕ) (slotId : Option ℕ) : Option MoveItemData :=
  match slotId with
  | some slotId => w.bankSlot tabId slotId
  | none =>
    if h : tabId < guildBankMaxTabs then
      if tabId < w.guild.getPurchasedTabsSize then some (.bank ⟨tabId, h⟩ none) else none
    else none

def swapItems (player tabId slotId destTabId destSlotId splitedAmount : ℕ) : BankWorld :=
  if !w.guild.bankLoaded then w
  else
    match w.bankSlot tabId slotId, w.bankSlot destTabId destSlotId with
    | some src, some dest =>
      if tabId = destTabId && slotId = destSlotId then w
      else w.moveItems E player src dest splitedAmount
    | _, _ => w

def swapItemsWithInventory (player : ℕ) (toChar : Bool) (tabId : ℕ) (slotId : Option ℕ)
    (pos : InventoryPos) (splitedAmount : ℕ) : BankWorld :=
  if !w.guild.bankLoaded then w
  else
    match w.bankSlotOrTab tabId slotId with
    | some bankData =>
      if toChar then w.moveItems E player bankData (.player pos) splitedAmount
      else w.moveItems E player (.player pos) bankData splitedAmount
    | none => w

/-- What members ask of the bank. A member moves items with the inventory that he has then, and takes
or gives money with his purse. -/
inductive Op
  | withdrawMoney (player purse : ℕ) (amount : UInt32) (repair : Bool)
  | depositMoney (purse : ℕ) (amount : UInt32)
  | swapItems (player : ℕ) (inventory : InventoryPos → Option Item)
      (tabId slotId destTabId destSlotId splitedAmount : ℕ)
  | swapItemsWithInventory (player : ℕ) (inventory : InventoryPos → Option Item) (toChar : Bool)
      (tabId : ℕ) (slotId : Option ℕ) (pos : InventoryPos) (splitedAmount : ℕ)

/-- One request. -/
def step (E : BankEnv) (w : BankWorld) : Op → BankWorld
  | .withdrawMoney player purse amount repair =>
    match w.guild.handleMemberWithdrawMoney player purse amount.toNat repair with
    | some (g, _) => { w with guild := g }
    | none => w
  | .depositMoney purse amount =>
    { w with guild := (w.guild.handleMemberDepositMoney purse amount.toNat).1 }
  | .swapItems player inventory tabId slotId destTabId destSlotId splitedAmount =>
    { w with inventory := inventory }.swapItems E player tabId slotId destTabId destSlotId
      splitedAmount
  | .swapItemsWithInventory player inventory toChar tabId slotId pos splitedAmount =>
    { w with inventory := inventory }.swapItemsWithInventory E player toChar tabId slotId pos
      splitedAmount

end BankWorld

end Sunstrider.Guilds
