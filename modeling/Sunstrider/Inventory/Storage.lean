import Mathlib.Data.UInt
import Mathlib.Logic.Function.Basic

/-!
# The storage of a player

The storage system of `Player.cpp`, with `Bag.cpp`: the slots of a player, the bags in some of these
slots, and how an item is taken out of its place and stored in others.

A position is a bag and a slot, both bytes; the bag `INVENTORY_SLOT_BAG_0` is the player himself. What
lies in a bag is part of the bag item. `Item::GetPos` is the position at which the item lies. Stats,
auras, durations, quest counters, packets and the database are left out.
-/

namespace Sunstrider.Inventory

/-! ## Templates -/

inductive InventoryType
  | nonEquip | head | neck | shoulders | body | chest | waist | legs | feet | wrists | hands | finger
  | trinket | weapon | shield | ranged | cloak | twoHandWeapon | bag | tabard | robe | weaponMainhand
  | weaponOffhand | holdable | ammo | thrown | rangedRight | quiver | relic
  deriving DecidableEq, Repr

/-- `ItemBondingType`. -/
inductive Bonding
  | noBind | whenPickedUp | whenEquiped | whenUse | questItem | questItem1
  deriving DecidableEq, Repr

def maxBagSize : ℕ := 36

/-- The part of an `ItemTemplate` that the storage reads. `ObjectMgr::LoadItemTemplates` cuts
`ContainerSlots` off at `MAX_BAG_SIZE`. -/
structure ItemTemplate where
  itemClass : ℕ
  subClass : ℕ
  inventoryType : InventoryType
  bonding : Bonding
  bagFamily : ℕ
  stackable : ℕ
  maxCount : ℕ
  containerSlots : Fin (maxBagSize + 1)
  /-- `Socket[0].Color` is not 0. -/
  socketed : Bool
  /-- `GemProperties` is not 0. -/
  isGem : Bool
  deriving DecidableEq, Repr

/-- `ObjectMgr::GetItemTemplate`, of the entries that items have. -/
abbrev Templates : Type := ℕ → ItemTemplate

def ItemTemplate.getMaxStackSize (proto : ItemTemplate) : ℕ :=
  if proto.stackable = 2147483647 || proto.stackable = 0 then 0x7FFFFFFF - 1 else proto.stackable

def itemClassContainer : ℕ := 1

def itemClassQuiver : ℕ := 11

def itemSubclassContainer : ℕ := 0

def bagFamilyMaskKeys : ℕ := 0x100

/-- `BagFamily & BAG_FAMILY_MASK_KEYS`. -/
def ItemTemplate.isKey (proto : ItemTemplate) : Bool := proto.bagFamily &&& bagFamilyMaskKeys ≠ 0

/-- The bag is a plain container. -/
def ItemTemplate.isPlainContainer (proto : ItemTemplate) : Bool :=
  proto.itemClass = itemClassContainer && proto.subClass = itemSubclassContainer

/-- `ItemCanGoIntoBag`: the family that an item must be of for the class and the subclass of a bag. -/
def itemCanGoIntoBag (proto bagProto : ItemTemplate) : Bool :=
  let family (mask : ℕ) : Bool := proto.bagFamily &&& mask ≠ 0
  if bagProto.itemClass = itemClassContainer then
    match bagProto.subClass with
    | 0 => true
    | 1 => family 0x04
    | 2 => family 0x20
    | 3 => family 0x40
    | 6 => family 0x400
    | 4 => family 0x80
    | 5 => family 0x200
    | 7 => family 0x08
    | _ => false
  else if bagProto.itemClass = itemClassQuiver then
    match bagProto.subClass with
    | 2 => family 0x01
    | 3 => family 0x02
    | _ => false
  else false

/-! ## Items -/

/-- `Item` and `Bag`. -/
structure Item where
  guid : ℕ
  entry : ℕ
  count : ℕ
  owner : ℕ
  soulBound : Bool
  lootGenerated : Bool
  /-- The gems of its enchantments. -/
  gems : List ℕ
  /-- `m_bagslot`. -/
  bagslot : Fin 256 → Option Item

variable (T : Templates)

def Item.isBag (item : Item) : Bool := (T item.entry).inventoryType = .bag

/-- `Bag::GetBagSize`. Only a bag has slots. -/
def Item.getBagSize (item : Item) : ℕ :=
  if item.isBag T then (T item.entry).containerSlots else 0

def Item.getItemByPos (bag : Item) (slot : Fin 256) : Option Item :=
  if slot < bag.getBagSize T then bag.bagslot slot else none

def Item.isEmpty (bag : Item) : Bool :=
  (List.range (bag.getBagSize T)).all fun slot => (bag.bagslot (Fin.ofNat 256 slot)).isNone

def Item.isNotEmptyBag (item : Item) : Bool := item.isBag T && !item.isEmpty T

/-! ## Positions -/

/-- A bag and a slot. -/
abbrev Pos : Type := Fin 256 × Fin 256

def nullBag : Fin 256 := 0

def nullSlot : Fin 256 := 255

def inventorySlotBag0 : Fin 256 := 255

def equipmentSlotMainhand : Fin 256 := 15

def equipmentSlotOffhand : Fin 256 := 16

/-- The slots from a first one to before another. -/
def slotsFrom (first last : ℕ) : List (Fin 256) :=
  (List.range' first (last - first)).map (Fin.ofNat 256)

/-- From `INVENTORY_SLOT_BAG_START` to `INVENTORY_SLOT_BAG_END`. -/
def isInventoryBagSlot (slot : Fin 256) : Bool := 19 ≤ slot.val && slot.val < 23

/-- From `BANK_SLOT_BAG_START` to `BANK_SLOT_BAG_END`. -/
def isBankBagSlot (slot : Fin 256) : Bool := 67 ≤ slot.val && slot.val < 74

/-- From `INVENTORY_SLOT_ITEM_START` to `INVENTORY_SLOT_ITEM_END`. -/
def isInventorySlot (slot : Fin 256) : Bool := 23 ≤ slot.val && slot.val < 39

/-- From `BANK_SLOT_ITEM_START` to `BANK_SLOT_ITEM_END`. -/
def isBankSlot (slot : Fin 256) : Bool := 39 ≤ slot.val && slot.val < 67

/-- From `KEYRING_SLOT_START` to `KEYRING_SLOT_END`. `GetMaxKeyringSize` is the number of these. -/
def isKeyringSlot (slot : Fin 256) : Bool := 86 ≤ slot.val && slot.val < 118

/-- A slot that can hold a bag in use. -/
def isBagSlot (slot : Fin 256) : Bool := isInventoryBagSlot slot || isBankBagSlot slot

def isInventoryPos (p : Pos) : Bool :=
  p.1 = inventorySlotBag0 && p.2 = nullSlot
    || p.1 = inventorySlotBag0 && isInventorySlot p.2
    || isInventoryBagSlot p.1
    || p.1 = inventorySlotBag0 && isKeyringSlot p.2

def isEquipmentPos (p : Pos) : Bool :=
  p.1 = inventorySlotBag0 && p.2.val < 19 || p.1 = inventorySlotBag0 && isInventoryBagSlot p.2

def isBankPos (p : Pos) : Bool :=
  p.1 = inventorySlotBag0 && isBankSlot p.2
    || p.1 = inventorySlotBag0 && isBankBagSlot p.2
    || isBankBagSlot p.1

def isBagPos (p : Pos) : Bool :=
  p.1 = inventorySlotBag0 && isInventoryBagSlot p.2
    || p.1 = inventorySlotBag0 && isBankBagSlot p.2

/-! ## Players -/

/-- The part of a `Player` that is his storage. The last field is the generator of item guids. -/
structure Player where
  guid : ℕ
  isAlive : Bool
  /-- `m_items`. -/
  items : Fin 256 → Option Item
  /-- The number of bank bag slots that he bought. -/
  bankBagSlots : ℕ
  nextGuid : ℕ

def Item.isBindedNotWith (item : Item) (v : Player) : Bool := item.soulBound && item.owner ≠ v.guid

namespace Player

variable (v : Player)

def getItemByPos (p : Pos) : Option Item :=
  if p.1 = inventorySlotBag0 ∧ (p.2.val < 74 ∨ isKeyringSlot p.2) then v.items p.2
  else if isBagSlot p.1 then (v.items p.1).bind fun bag => bag.getItemByPos T p.2
  else none

def hasBankBagSlot (slot : Fin 256) : Bool := slot.val < v.bankBagSlots + 67

def isValidPos (p : Pos) : Bool :=
  if p.1 = nullBag then true
  else if p.1 = inventorySlotBag0 then
    p.2 = nullSlot || p.2.val < 19 || isInventoryBagSlot p.2 || isInventorySlot p.2
      || isKeyringSlot p.2 || isBankSlot p.2 || p.2.val < 74
  else if isBagSlot p.1 then
    match v.getItemByPos T (inventorySlotBag0, p.1) with
    | none => false
    | some bag => p.2 = nullSlot || p.2.val < bag.getBagSize T
  else false

/-- The positions of the items in the bags in some slots, in the order of the loops. -/
def bagPositions (slots : List (Fin 256)) : List Pos :=
  slots.flatMap fun bag =>
    match v.getItemByPos T (inventorySlotBag0, bag) with
    | none => []
    | some b => (slotsFrom 0 (b.getBagSize T)).map fun slot => (bag, slot)

/-- Slots of the player himself. -/
def ownPositions (slots : List (Fin 256)) : List Pos :=
  slots.map fun slot => (inventorySlotBag0, slot)

/-- The item at a position, unless it is the one with this guid. -/
def otherItem (guid : ℕ) (p : Pos) : Option Item :=
  (v.getItemByPos T p).filter fun item => item.guid ≠ guid

/-- `Player::GetItemCount`, with the bank, and with the item that moves as `skipItem`. A gem counts in
the sockets of items as well. -/
def getItemCount (entry : ℕ) (skipItem : Item) : ℕ :=
  let bags := v.bagPositions T (slotsFrom 19 23) ++ v.bagPositions T (slotsFrom 67 74)
  let loose := ownPositions (slotsFrom 0 39) ++ ownPositions (slotsFrom 39 67) ++ bags
  let counts := (loose ++ ownPositions (slotsFrom 86 118)).map fun p =>
    match v.otherItem T skipItem.guid p with
    | some item => if item.entry = entry then item.count else 0
    | none => 0
  let gems := loose.map fun p =>
    match v.otherItem T skipItem.guid p with
    | some item => if (T item.entry).socketed then item.gems.count entry else 0
    | none => 0
  if (T skipItem.entry).isGem then counts.sum + gems.sum else counts.sum

/-- `Player::GetItemByGuid`: the position of the item. The slots of the bank are not searched, the
bags in the bank are. -/
def posByGuid (guid : ℕ) : Option Pos :=
  (ownPositions (slotsFrom 0 39) ++ ownPositions (slotsFrom 86 118)
    ++ v.bagPositions T (slotsFrom 19 23) ++ v.bagPositions T (slotsFrom 67 74)).find? fun p =>
      (v.getItemByPos T p).any fun item => item.guid = guid

/-! ## Changes -/

/-- A write to `m_items`, or to a slot of a bag that is there. -/
def setItem (p : Pos) (o : Option Item) : Player :=
  if p.1 = inventorySlotBag0 then { v with items := Function.update v.items p.2 o }
  else
    { v with items := Function.update v.items p.1 ((v.items p.1).map fun bag =>
        { bag with bagslot := Function.update bag.bagslot p.2 o }) }

def removeItem (p : Pos) : Player :=
  match v.getItemByPos T p with
  | some _ => v.setItem p none
  | none => v

/-- `Item::SetCount`, of the item at a position. -/
def setCount (p : Pos) (count : ℕ) : Player :=
  v.setItem p ((v.getItemByPos T p).map fun item => { item with count := count })

/-- `Item::CloneItem`, which is taken to succeed. -/
def cloneItem (item : Item) (count : ℕ) : Player × Item :=
  ({ v with nextGuid := v.nextGuid + 1 },
    { guid := v.nextGuid
      entry := item.entry
      count := min count (T item.entry).getMaxStackSize
      owner := v.guid
      soulBound := item.soulBound
      lootGenerated := false
      gems := []
      bagslot := fun _ => none })

/-- `SetBinding`, as an item of this template is stored at a position. -/
def binds (proto : ItemTemplate) (p : Pos) : Bool :=
  proto.bonding = .whenPickedUp || proto.bonding = .questItem
    || proto.bonding = .whenEquiped && isBagPos p

end Player

/-- `ItemPosCount`. The count is an 8-bit number. -/
structure ItemPosCount where
  pos : Pos
  count : UInt8
  deriving DecidableEq

namespace Player

variable (v : Player)

/-- `Player::_StoreItem`. -/
def storeItemAt (item : Item) (p : ItemPosCount) (clone : Bool) : Player :=
  match v.getItemByPos T p.pos with
  | some dest =>
    v.setItem p.pos (some { dest with
      count := dest.count + p.count.toNat
      soulBound := dest.soulBound || binds (T dest.entry) p.pos })
  | none =>
    let (v, item) :=
      if clone then v.cloneItem T item p.count.toNat
      else (v, { item with count := p.count.toNat })
    v.setItem p.pos (some { item with
      owner := v.guid
      soulBound := item.soulBound || binds (T item.entry) p.pos })

/-- `Player::StoreItem` and `Player::BankItem`. Every position but the last takes a clone. -/
def storeItem (item : Item) : List ItemPosCount → Player → Player
  | [], v => v
  | [p], v => v.storeItemAt T item p false
  | p :: dest, v => storeItem item dest (v.storeItemAt T item p true)

/-- `Player::EquipItem`, with `VisualizeItem`. -/
def equipItem (p : Pos) (item : Item) : Player :=
  match v.getItemByPos T p with
  | some dest => v.setItem p (some { dest with count := dest.count + item.count })
  | none =>
    let bonding := (T item.entry).bonding
    v.setItem (inventorySlotBag0, p.2) (some { item with
      owner := v.guid
      soulBound := item.soulBound || bonding = .whenEquiped || bonding = .whenPickedUp
        || bonding = .questItem })

end Player

end Sunstrider.Inventory
