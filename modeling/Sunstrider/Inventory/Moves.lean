import Sunstrider.Inventory.Planning

/-!
# Moving items

`Player::SplitItem`, `Player::SwapItem` and the handlers of `ItemHandler.cpp` that move items. A move
is planned while the item still lies in its old place, and carried out when it has been removed.

A position with an item is one of the inventory, of the bank or of the equipment. The errors that the
client is told of are left out.
-/

namespace Sunstrider.Inventory

/-- Where an item goes: to positions that take parts of it, or to a slot where it is worn. -/
inductive Plan
  | stored (dest : List ItemPosCount)
  | equipped (p : Pos)

namespace Player

variable (T : Templates) (R : Rules) (v : Player)

/-- The position is asked for `CanStoreItem`, `CanBankItem` or `CanEquipItem`, as it is one of the
inventory, of the bank or of the equipment. -/
def planItem (item : Item) (p : Pos) (swap : Bool) : Except InventoryResult Plan :=
  let stored : Answer → Except InventoryResult Plan
    | (.ok, dest) => .ok (.stored dest)
    | (res, _) => .error res
  if isInventoryPos p then stored (v.canStoreItem T item p swap)
  else if isBankPos p then stored (v.canBankItem T R item p swap)
  else if isEquipmentPos p then (v.canEquipItem T R item p.2 swap).map .equipped
  else .error .itemDoesntGoToSlot

/-- A plan for an item that changes places with another: what is worn must come off. -/
def planSwap (item : Item) (p : Pos) : Except InventoryResult Plan :=
  match v.planItem T R item p true with
  | .ok (.equipped e) =>
    match v.canUnequipItem T R e true with
    | .ok => .ok (.equipped e)
    | res => .error res
  | answer => answer

/-- `StoreItem`, `BankItem` or `EquipItem`. -/
def carryOut (item : Item) : Plan → Player → Player
  | .stored dest, v => storeItem T item dest v
  | .equipped p, v => v.equipItem T p item

/-- A plan of one item, after which a worn two-handed weapon clears the off-hand slot. -/
def place (item : Item) (plan : Plan) (v : Player) : Player :=
  match plan with
  | .stored _ => carryOut T item plan v
  | .equipped _ => (carryOut T item plan v).autoUnequipOffhandIfNeed T

def splitItem (src dst : Pos) (count : ℕ) : Player :=
  match v.getItemByPos T src with
  | none => v
  | some srcItem =>
    if srcItem.count ≤ count || srcItem.lootGenerated then v
    else
      let (v, newItem) := v.cloneItem T srcItem count
      let rest := v.setCount T src (srcItem.count - count)
      match rest.planItem T R newItem dst false with
      | .ok plan => place T newItem plan rest
      | .error _ => v

/-- The check of an item that is worn, or that is a bag in use, before it is moved elsewhere. -/
def staysOn (p other : Pos) : Bool :=
  (isEquipmentPos p || isBagPos p) && v.canUnequipItem T R p (!isBagPos p || isBagPos other) ≠ .ok

/-- The real swap of `Player::SwapItem`. -/
def exchange (src dst : Pos) (srcItem dstItem : Item) : Player :=
  match v.planSwap T R srcItem dst, v.planSwap T R dstItem src with
  | .ok plan, .ok plan' =>
    let v := (v.removeItem T dst).removeItem T src
    (carryOut T dstItem plan' (carryOut T srcItem plan v)).autoUnequipOffhandIfNeed T
  | _, _ => v

/-- `Player::SwapItem`, where there is an item at the destination: it is merged or filled, and else
changes places. -/
def swapWith (src dst : Pos) (srcItem dstItem : Item) : Player :=
  if dstItem.lootGenerated || v.staysOn T R dst src then v
  else
    match v.planItem T R srcItem dst false with
    | .ok plan =>
      let stackable := (T srcItem.entry).stackable
      if srcItem.count + dstItem.count ≤ stackable then place T srcItem plan (v.removeItem T src)
      else
        (v.setCount T src (srcItem.count + dstItem.count - stackable)).setCount T dst stackable
    | .error _ => v.exchange T R src dst srcItem dstItem

def swapItem (src dst : Pos) : Player :=
  match v.getItemByPos T src with
  | none => v
  | some srcItem =>
    if !v.isAlive || srcItem.lootGenerated || v.staysOn T R src dst then v
    -- a bag is not put into itself, nor equipped in its own slot from its inside
    else if isBagPos src && src.2 = dst.1 then v
    else if isBagPos dst && src.1 = dst.2 then v
    else
      match v.getItemByPos T dst with
      | none =>
        match v.planItem T R srcItem dst false with
        | .ok plan => place T srcItem plan (v.removeItem T src)
        | .error _ => v
      | some dstItem => v.swapWith T R src dst srcItem dstItem

/-! ## Equipping -/

/-- The three places that `_HandleAutoEquipItemOpcode` asks for, for an item that comes off: the
position, its bag, and all. The positions found by one are kept for the next. -/
def planBack (ask : Pos → List ItemPosCount → Answer) (src : Pos) : Answer :=
  match ask src [] with
  | (.ok, dest) => (.ok, dest)
  | (_, dest) =>
    match ask (src.1, nullSlot) dest with
    | (.ok, dest) => (.ok, dest)
    | (_, dest) => ask (nullBag, nullSlot) dest

/-- Where the item that comes off goes to. -/
def planOff (dstItem : Item) (src : Pos) : Except InventoryResult Plan :=
  let stored : Answer → Except InventoryResult Plan
    | (.ok, dest) => .ok (.stored dest)
    | (res, _) => .error res
  if isInventoryPos src then
    stored (planBack (fun p dest => v.canStoreItemFrom T dstItem p true dest) src)
  else if isBankPos src then
    stored (planBack (fun p dest => v.canBankItemFrom T R dstItem p true dest) src)
  else v.planSwap T R dstItem src

/-- `WorldSession::_HandleAutoEquipItemOpcode`. -/
def autoEquipItem (src : Pos) : Player :=
  match v.getItemByPos T src with
  | none => v
  | some srcItem =>
    if srcItem.lootGenerated then v
    else
      match v.canEquipItem T R srcItem nullSlot (!srcItem.isBag T) with
      | .error _ => v
      | .ok dest =>
        if dest = src then v
        else
          match v.getItemByPos T dest with
          | none => place T srcItem (.equipped dest) (v.removeItem T src)
          | some dstItem =>
            if v.canUnequipItem T R dest (!srcItem.isBag T) ≠ .ok then v
            else
              match v.planOff T R dstItem src with
              | .error _ => v
              | .ok plan =>
                let v := (v.removeItem T dest).removeItem T src
                (carryOut T dstItem plan (v.equipItem T dest srcItem)).autoUnequipOffhandIfNeed T

end Player

/-! ## Handlers -/

/-- What a session knows besides its player: whether `CanUseBank`, and whether there is a trade. -/
structure Session where
  canUseBank : Bool
  hasTrader : Bool
  deriving DecidableEq, Repr

/-- A position of the bank, without a banker. -/
def Session.barred (session : Session) (p : Pos) : Bool := isBankPos p && !session.canUseBank

/-- The packets that move items. -/
inductive Packet
  | splitItem (src dst : Pos) (count : UInt8)
  | swapInvItem (srcslot dstslot : Fin 256)
  | swapItem (src dst : Pos)
  | autoEquipItemSlot (item : ℕ) (dstslot : Fin 256)
  | autoEquipItem (src : Pos)
  | autoStoreBagItem (src : Pos) (dstbag : Fin 256)
  | autoBankItem (src : Pos)
  | autoStoreBankItem (src : Pos)
  deriving DecidableEq

namespace Player

variable (T : Templates) (R : Rules) (session : Session) (v : Player)

/-- `WorldSession::HandleSplitItemOpcode`. -/
def handleSplitItem (src dst : Pos) (count : UInt8) : Player :=
  if src = dst || count = 0 then v
  else if !v.isValidPos T src || !v.isValidPos T dst then v
  else v.splitItem T R src dst count.toNat

/-- `WorldSession::HandleSwapInvItemOpcode`. -/
def handleSwapInvItem (srcslot dstslot : Fin 256) : Player :=
  let src : Pos := (inventorySlotBag0, srcslot)
  let dst : Pos := (inventorySlotBag0, dstslot)
  if srcslot = dstslot then v
  else if !v.isValidPos T src || !v.isValidPos T dst then v
  else if session.barred src || session.barred dst then v
  else if session.hasTrader then v
  else v.swapItem T R src dst

/-- `WorldSession::HandleAutoEquipItemSlotOpcode`. -/
def handleAutoEquipItemSlot (item : ℕ) (dstslot : Fin 256) : Player :=
  let dst : Pos := (inventorySlotBag0, dstslot)
  if !isEquipmentPos dst then v
  else
    match v.posByGuid T item with
    | none => v
    | some src => if src = dst then v else v.swapItem T R src dst

/-- `WorldSession::HandleSwapItem`. -/
def handleSwapItem (src dst : Pos) : Player :=
  if src = dst then v
  else if !v.isValidPos T src || !v.isValidPos T dst then v
  else if session.barred src || session.barred dst then v
  else v.swapItem T R src dst

/-- `WorldSession::HandleAutoStoreBagItemOpcode`. -/
def handleAutoStoreBagItem (src : Pos) (dstbag : Fin 256) : Player :=
  match v.getItemByPos T src with
  | none => v
  | some item =>
    if !v.isValidPos T (dstbag, nullSlot) then v
    else if isBagPos src then v
    else if isEquipmentPos src && v.canUnequipItem T R src true ≠ .ok then v
    else
      match v.canStoreItem T item (dstbag, nullSlot) false with
      | (.ok, dest) =>
        if dest.length = 1 && dest.any fun c => c.pos = src then v
        else storeItem T item dest (v.removeItem T src)
      | _ => v

/-- `WorldSession::HandleAutoBankItemOpcode`. -/
def handleAutoBankItem (src : Pos) : Player :=
  if !session.canUseBank then v
  else
    match v.getItemByPos T src with
    | none => v
    | some item =>
      if (isEquipmentPos src || isBagPos src) &&
          v.canUnequipItem T R src (!isBagPos src) ≠ .ok then v
      else if isBankPos src then v
      else
        match v.canBankItem T R item (nullBag, nullSlot) false with
        | (.ok, dest) => storeItem T item dest (v.removeItem T src)
        | _ => v

/-- `WorldSession::HandleAutoStoreBankItemOpcode`. -/
def handleAutoStoreBankItem (src : Pos) : Player :=
  if !session.canUseBank then v
  else
    match v.getItemByPos T src with
    | none => v
    | some item =>
      if (isEquipmentPos src || isBagPos src) &&
          v.canUnequipItem T R src (!isBagPos src) ≠ .ok then v
      else
        let answer :=
          if isBankPos src then v.canStoreItem T item (nullBag, nullSlot) false
          else v.canBankItem T R item (nullBag, nullSlot) false
        match answer with
        | (.ok, dest) => storeItem T item dest (v.removeItem T src)
        | _ => v

/-- One packet. -/
def handle : Packet → Player
  | .splitItem src dst count => v.handleSplitItem T R src dst count
  | .swapInvItem srcslot dstslot => v.handleSwapInvItem T R session srcslot dstslot
  | .swapItem src dst => v.handleSwapItem T R session src dst
  | .autoEquipItemSlot item dstslot => v.handleAutoEquipItemSlot T R item dstslot
  | .autoEquipItem src => v.autoEquipItem T R src
  | .autoStoreBagItem src dstbag => v.handleAutoStoreBagItem T R src dstbag
  | .autoBankItem src => v.handleAutoBankItem T R session src
  | .autoStoreBankItem src => v.handleAutoStoreBankItem T R session src

end Player

end Sunstrider.Inventory
