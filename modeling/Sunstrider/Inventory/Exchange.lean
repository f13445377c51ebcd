import Sunstrider.Inventory.Counting

/-!
# Storing new items, and exchanging items

`Player::_CanStoreItem` with `no_space_count`, for an item that is there and for one that is to be made,
and what `SwapItems` does with its answer. But for the count the answer is that of `canStoreItem`.

The counts that callers ask for are unsigned 32-bit words, and so is what is said to have no space.
-/

namespace Sunstrider.Inventory

/-- What `_CanStoreItem` returns: the result, the positions, and `*no_space_count`, which is 0 where it
is not written. -/
structure StoreAnswer where
  res : InventoryResult
  dest : List ItemPosCount
  noSpaceCount : UInt32

namespace Player

variable (T : Templates) (v : Player)

/-- An item as `Item::CreateItem` makes it, which takes the next guid. A null `pItem` is searched for as
one: no item that lies somewhere is it. -/
def createItem (entry count : ℕ) : Item where
  guid := v.nextGuid
  entry := entry
  count := min count (T entry).getMaxStackSize
  owner := v.guid
  soulBound := false
  lootGenerated := false
  gems := []
  bagslot := fun _ => none

/-- The item that the searches pass over. -/
def sought (entry : ℕ) (pItem : Option Item) : Item := pItem.getD (v.createItem T entry 1)

/-- `Player::_CanTakeMoreSimilarItems`, with and without an item, and how many are too many. -/
def canTakeMoreSimilar (entry : ℕ) (count : UInt32) (pItem : Option Item) :
    InventoryResult × UInt32 :=
  let maxCount := UInt32.ofNat (T entry).maxCount
  let curcount := UInt32.ofNat <|
    match pItem with
    | some item => v.getItemCount T entry item
    | none => v.getItemCountOf T entry true
  if pItem.any Item.lootGenerated then (.alreadyLooted, 0)
  else if maxCount = 0 then (.ok, 0)
  else if maxCount < curcount + count then (.cantCarryMoreOfThis, count + curcount - maxCount)
  else (.ok, 0)

/-- A `return` with items left over. -/
def refuse (noSimilar : UInt32) (res : InventoryResult) (s : Search) : StoreAnswer :=
  ⟨res, s.dest, UInt32.ofNat s.count + noSimilar⟩

/-- What is returned as soon as all of the stack has a position. -/
def settle (noSimilar : UInt32) (s : Search) : Except StoreAnswer Search :=
  if s.count = 0 then
    .error (if noSimilar = 0 then ⟨.ok, s.dest, 0⟩ else refuse noSimilar .cantCarryMoreOfThis s)
  else .ok s

variable (item : Item)

/-- The search of the position that is asked for. -/
def settleSpecific (p : Pos) (swap : Bool) (noSimilar : UInt32) (s : Search) :
    Except StoreAnswer Search :=
  if p.1 ≠ nullBag && p.2 ≠ nullSlot then
    -- the count of a position that there is not is not written
    if !v.isValidPos T p then .error ⟨.itemDoesntGoToSlot, s.dest, 0⟩
    else
      match v.canStoreItemInSpecificSlot T item p swap s with
      | .ok s => settle noSimilar s
      | .error res => .error (refuse noSimilar res s)
  else .ok s

/-- The search of one bag, as a special one and else as a plain one. -/
def settleOneBag (bag : Fin 256) (merge : Bool) (slot : Fin 256) (noSimilar : UInt32) (s : Search) :
    Except StoreAnswer Search :=
  match v.canStoreItemInBag T item bag merge false (nullBag, slot) s with
  | .ok s => settle noSimilar s
  | .error _ =>
    match v.canStoreItemInBag T item bag merge true (nullBag, slot) s with
    | .ok s => settle noSimilar s
    | .error res => .error (refuse noSimilar res s)

/-- The searches in the bag that is asked for. -/
def settleInBag (p : Pos) (noSimilar : UInt32) (s : Search) : Except StoreAnswer Search := do
  let proto := T item.entry
  let slots (first last : ℕ) (merge : Bool) (s : Search) : Except StoreAnswer Search :=
    settle noSimilar (v.canStoreItemInInventorySlots T item first last merge p s)
  if p.1 = nullBag then return s
  let s ←
    if 1 < proto.stackable then
      if p.1 = inventorySlotBag0 then slots 86 118 true s >>= slots 23 39 true
      else v.settleOneBag T item p.1 true p.2 noSimilar s
    else pure s
  if p.1 = inventorySlotBag0 then
    let s ← if proto.isKey then slots 86 118 false s else pure s
    slots 23 39 false s
  else v.settleOneBag T item p.1 false p.2 noSimilar s

/-- `Player::_CanStoreItem` with no positions found before. -/
def canStoreItemCount (p : Pos) (entry : ℕ) (count : UInt32) (pItem : Option Item) (swap : Bool) :
    StoreAnswer :=
  if pItem.any fun item => item.isBindedNotWith v then ⟨.dontOwnThatItem, [], count⟩
  else
    let (res, noSimilar) := v.canTakeMoreSimilar T entry count pItem
    if res ≠ .ok && count = noSimilar then ⟨res, [], noSimilar⟩
    else
      let item := v.sought T entry pItem
      let search : Except StoreAnswer Search := do
        let s ← v.settleSpecific T item p swap noSimilar ⟨[], (count - noSimilar).toNat⟩
        let s ← v.settleInBag T item p noSimilar s
        (v.storeSearches T item p).foldlM (fun s search => settle noSimilar (search s)) s
      match search with
      | .ok s => refuse noSimilar .inventoryFull s
      | .error a => a

def canStoreNewItem (p : Pos) (entry : ℕ) (count : UInt32) : StoreAnswer :=
  v.canStoreItemCount T p entry count none false

end Player

end Sunstrider.Inventory

/-!
## Exchanging items

`Player::StoreNewItem` and `Player::SwapItems`, which makes items of one entry out of those of another.
What does not go into the inventory is mailed to the player.

The random properties that `StoreNewItem` gives to an item are left out.
-/

namespace Sunstrider.Inventory

namespace Player

variable (T : Templates) (R : Rules)

/-- `Player::StoreItem` of an item that was made. Here a position may take none of it: a clone of no
items is not made. -/
def storeCreated (item : Item) : List ItemPosCount → Player → Player
  | [], v => v
  | [p], v => v.storeItemAt T item p false
  | p :: dest, v =>
    storeCreated item dest <|
      if p.count = 0 && (v.getItemByPos T p.pos).isNone then v else v.storeItemAt T item p true

variable (v : Player)

/-- `Player::StoreNewItem`. `Item::CreateItem` makes no item of none. -/
def storeNewItem (entry : ℕ) (dest : List ItemPosCount) : Player :=
  let count := (dest.map fun p => p.count.toNat).sum
  if count < 1 then v
  else storeCreated T (v.createItem T entry count) dest { v with nextGuid := v.nextGuid + 1 }

/-- `Player::SwapItems`: the player, and the item that is mailed to him. -/
def swapItems (item1 item2 : ℕ) : Player × Option Item :=
  let count := v.getItemCountOf T item1 true
  if count ≠ 0 then
    let v := v.destroyItemCount T R item1 count false true
    let a := v.canStoreNewItem T (nullBag, nullSlot) item2 (UInt32.ofNat count)
    if a.res = .ok then (v.storeNewItem T item2 a.dest, none)
    else ({ v with nextGuid := v.nextGuid + 1 }, some (v.createItem T item2 count))
  else (v, none)

end Player

end Sunstrider.Inventory
