import Sunstrider.Inventory.Storage

/-!
# Where an item can be stored

`Player::CanStoreItem` and `Player::CanBankItem`: which positions take an item, and how many of the
stack each of them. The item that moves does not stand in its own way: the position where it lies is
empty when the plan is carried out.

The answer is the result and the positions that were found. Callers of `CanStoreItem` do not ask how
much there is no space for, so `no_space_count` is left out.
-/

namespace Sunstrider.Inventory

/-- `InventoryResult`, as far as the storage gives it. -/
inductive InventoryResult
  | ok
  | cantEquipLevelI
  | cantEquipSkill
  | itemDoesntGoToSlot
  | bagFull
  | nonemptyBagOverOtherBag
  | cantTradeEquipBags
  | noRequiredProficiency
  | noEquipmentSlotAvailable
  | youCanNeverUseThatItem
  | cantEquipWithTwohanded
  | cantDualWield
  | itemDoesntGoIntoBag
  | cantCarryMoreOfThis
  | itemCantStack
  | itemCantBeEquipped
  | itemsCantBeSwapped
  | itemNotFound
  | canOnlyDoWithEmptyBags
  | cantDoRightNow
  | alreadyLooted
  | inventoryFull
  | bankFull
  | dontOwnThatItem
  | mustPurchaseThatBagSlot
  | youAreDead
  | youAreStunned
  | notInCombat
  | notDuringArenaMatch
  | itemUniqueEquipable
  | canEquipOnlyOneQuiver
  | cantEquipReputation
  deriving DecidableEq, Repr

/-- The positions that are found, and how many of the stack have none yet. -/
structure Search where
  dest : List ItemPosCount
  count : ℕ
  deriving DecidableEq

/-- An answer: the result, and the positions. -/
abbrev Answer : Type := InventoryResult × List ItemPosCount

/-- Whether a position is found already, which is `ItemPosCount::isContainedIn`. -/
def Search.contains (s : Search) (p : Pos) : Bool := s.dest.any fun c => c.pos = p

/-- A position takes what it has space for. -/
def Search.take (s : Search) (p : Pos) (space : ℕ) : Search :=
  if s.contains p then s
  else
    { dest := s.dest ++ [⟨p, UInt8.ofNat (min space s.count)⟩]
      count := s.count - min space s.count }

namespace Player

variable (T : Templates) (v : Player) (item : Item)

/-- The space that a position has for more of an item, where it is searched for stacks or for free
slots. -/
def space (merge : Bool) (p : Pos) : Option ℕ :=
  match v.otherItem T item.guid p with
  | some dest =>
    if merge && (dest.entry = item.entry && dest.count < (T item.entry).stackable) then
      some ((T item.entry).stackable - dest.count)
    else none
  | none => if merge then none else some (T item.entry).stackable

/-- The loops of `_CanStoreItem_InBag` and `_CanStoreItem_InInventorySlots`. -/
def searchPositions (merge : Bool) : List Pos → Search → Search
  | [], s => s
  | p :: ps, s =>
    match v.space T item merge p with
    | none => searchPositions merge ps s
    | some n =>
      if s.contains p then searchPositions merge ps s
      else if (s.take p n).count = 0 then s.take p n
      else searchPositions merge ps (s.take p n)

def canStoreItemInSpecificSlot (p : Pos) (swap : Bool) (s : Search) :
    Except InventoryResult Search :=
  match v.otherItem T item.guid p, swap with
  | some dest, false =>
    if dest.entry ≠ item.entry then .error .itemCantStack
    else if (T item.entry).stackable ≤ dest.count then .error .itemCantStack
    else .ok (s.take p ((T item.entry).stackable - dest.count))
  | _, _ =>
    if p.1 = inventorySlotBag0 then
      if isKeyringSlot p.2 && !(T item.entry).isKey then .error .itemDoesntGoIntoBag
      else if (74 ≤ p.2.val && p.2.val < 86) || 118 ≤ p.2.val then .error .itemDoesntGoIntoBag
      else .ok (s.take p (T item.entry).stackable)
    else
      match v.getItemByPos T (inventorySlotBag0, p.1) with
      | none => .error .itemDoesntGoIntoBag
      | some bag =>
        if itemCanGoIntoBag (T item.entry) (T bag.entry) then
          .ok (s.take p (T item.entry).stackable)
        else .error .itemDoesntGoIntoBag

def canStoreItemInBag (bag : Fin 256) (merge nonSpecialized : Bool) (skip : Pos) (s : Search) :
    Except InventoryResult Search :=
  if bag = skip.1 then .error .itemDoesntGoIntoBag
  else
    match v.getItemByPos T (inventorySlotBag0, bag) with
    | none => .error .itemDoesntGoIntoBag
    | some b =>
      if nonSpecialized ≠ (T b.entry).isPlainContainer then .error .itemDoesntGoIntoBag
      else if !itemCanGoIntoBag (T item.entry) (T b.entry) then .error .itemDoesntGoIntoBag
      else
        .ok (v.searchPositions T item merge
          (((slotsFrom 0 (b.getBagSize T)).filter fun slot => slot ≠ skip.2).map
            fun slot => (bag, slot)) s)

def canStoreItemInInventorySlots (first last : ℕ) (merge : Bool) (skip : Pos) (s : Search) :
    Search :=
  v.searchPositions T item merge
    ((ownPositions (slotsFrom first last)).filter fun p => p ≠ skip) s

/-- A search of a bag that is passed over where the bag does not take the item. -/
def searchBag (bag : Fin 256) (merge nonSpecialized : Bool) (skip : Pos) (s : Search) : Search :=
  match v.canStoreItemInBag T item bag merge nonSpecialized skip s with
  | .ok s => s
  | .error _ => s

/-- `Player::_CanTakeMoreSimilarItems` with the item, and how many are too many. -/
def canTakeMoreSimilarItems (count : ℕ) : InventoryResult × ℕ :=
  let maxCount := (T item.entry).maxCount
  let curcount := v.getItemCount T item.entry item
  if item.lootGenerated then (.alreadyLooted, 0)
  else if maxCount = 0 then (.ok, 0)
  else if maxCount < curcount + count then (.cantCarryMoreOfThis, count + curcount - maxCount)
  else (.ok, 0)

/-- What is returned as soon as all of the stack has a position. -/
def leave (noSimilar : ℕ) (s : Search) : Except Answer Search :=
  if s.count = 0 then
    .error (if noSimilar = 0 then .ok else .cantCarryMoreOfThis, s.dest)
  else .ok s

/-- The answer of a search that ends with items left over. -/
def answer (full : InventoryResult) : Except Answer Search → Answer
  | .ok s => (full, s.dest)
  | .error a => a

/-- The search of one bag, as a special one and else as a plain one. A refusal is the answer. -/
def searchOneBag (bag : Fin 256) (merge : Bool) (slot : Fin 256) (s : Search) :
    Except Answer Search :=
  match v.canStoreItemInBag T item bag merge false (nullBag, slot) s with
  | .ok s => .ok s
  | .error _ =>
    match v.canStoreItemInBag T item bag merge true (nullBag, slot) s with
    | .ok s => .ok s
    | .error res => .error (res, s.dest)

/-! ## Storing -/

/-- The searches of `_CanStoreItem` in the bag that is asked for. -/
def storeInBag (p : Pos) (noSimilar : ℕ) (s : Search) : Except Answer Search := do
  let proto := T item.entry
  let slots (first last : ℕ) (merge : Bool) (s : Search) : Except Answer Search :=
    leave noSimilar (v.canStoreItemInInventorySlots T item first last merge p s)
  if p.1 = nullBag then return s
  let s ←
    if 1 < proto.stackable then
      if p.1 = inventorySlotBag0 then slots 86 118 true s >>= slots 23 39 true
      else v.searchOneBag T item p.1 true p.2 s >>= leave noSimilar
    else pure s
  if p.1 = inventorySlotBag0 then
    let s ← if proto.isKey then slots 86 118 false s else pure s
    slots 23 39 false s
  else v.searchOneBag T item p.1 false p.2 s >>= leave noSimilar

/-- The searches of `_CanStoreItem` in all the inventory, in their order. -/
def storeSearches (p : Pos) : List (Search → Search) :=
  let proto := T item.entry
  let slots (first last : ℕ) (merge : Bool) : Search → Search :=
    v.canStoreItemInInventorySlots T item first last merge p
  let bags (merge nonSpecialized : Bool) : List (Search → Search) :=
    (slotsFrom 19 23).map fun bag => v.searchBag T item bag merge nonSpecialized p
  (if 1 < proto.stackable then
    [slots 86 118 true, slots 23 39 true]
      ++ (if proto.bagFamily ≠ 0 then bags true false else [])
      ++ bags true true
  else [])
    ++ (if proto.bagFamily ≠ 0 then
      (if proto.isKey then [slots 86 118 false] else []) ++ bags false false
    else [])
    ++ [slots 23 39 false]
    ++ bags false true

/-- The search of `_CanStoreItem` in the position that is asked for. -/
def storeSpecific (p : Pos) (swap : Bool) (noSimilar : ℕ) (s : Search) : Except Answer Search :=
  if p.1 ≠ nullBag && p.2 ≠ nullSlot then
    if v.isValidPos T p then
      match v.canStoreItemInSpecificSlot T item p swap s with
      | .ok s => leave noSimilar s
      | .error res => .error (res, s.dest)
    else .error (.itemDoesntGoToSlot, s.dest)
  else .ok s

/-- `Player::_CanStoreItem` of an item, with the positions that are found before. -/
def canStoreItemFrom (p : Pos) (swap : Bool) (dest : List ItemPosCount) : Answer :=
  if item.isBindedNotWith v then (.dontOwnThatItem, dest)
  else
    let (res, noSimilar) := v.canTakeMoreSimilarItems T item item.count
    if res ≠ .ok && item.count = noSimilar then (res, dest)
    else
      -- the difference is an unsigned 32-bit word
      let count :=
        if noSimilar ≤ item.count then item.count - noSimilar else item.count + 2 ^ 32 - noSimilar
      answer .inventoryFull do
        let s ← v.storeSpecific T item p swap noSimilar ⟨dest, count⟩
        let s ← v.storeInBag T item p noSimilar s
        (v.storeSearches T item p).foldlM (fun s search => leave noSimilar (search s)) s

def canStoreItem (p : Pos) (swap : Bool) : Answer := v.canStoreItemFrom T item p swap []

end Player

/-! ## Rules of equipment -/

/-- What the storage asks of the rest of a player: his class, his skills, his state and the limits of
unique equipment. -/
structure Rules where
  getClass : ℕ
  canDualWield : Bool
  canUseItem : Player → Item → InventoryResult
  /-- The state in which no equipment is changed, for `Player::CanEquipItem`. -/
  refusesEquip : Player → Item → Option InventoryResult
  /-- The limits of unique equipment and of quivers, for `Player::CanEquipItem`. -/
  refusesUnique : Player → Item → Fin 256 → Bool → Option InventoryResult
  /-- The state in which no equipment is changed, for `Player::CanUnequipItem`. -/
  refusesUnequip : Player → Item → Option InventoryResult

namespace Player

variable (T : Templates) (R : Rules) (v : Player) (item : Item)

/-! ## Banking -/

/-- The check of a bag, or of another item, for a slot of the bank. -/
def checkBankSlot (slot : Fin 256) : InventoryResult :=
  if item.isBag T then
    if isBankBagSlot slot then
      if !v.hasBankBagSlot slot then .mustPurchaseThatBagSlot
      else R.canUseItem v item
    else if !item.isEmpty T then .nonemptyBagOverOtherBag
    else .ok
  else if isBankBagSlot slot then .itemDoesntGoToSlot
  else .ok

/-- The searches of `CanBankItem` in the bag that is asked for. -/
def bankInBag (p : Pos) (s : Search) : Except Answer Search := do
  let proto := T item.entry
  let slots (merge : Bool) (s : Search) : Except Answer Search :=
    leave 0 (v.canStoreItemInInventorySlots T item 39 67 merge p s)
  if p.1 = nullBag then return s
  if item.isNotEmptyBag T then .error (.nonemptyBagOverOtherBag, s.dest)
  let s ←
    if 1 < proto.stackable then
      if p.1 = inventorySlotBag0 then slots true s
      else v.searchOneBag T item p.1 true p.2 s >>= leave 0
    else pure s
  if p.1 = inventorySlotBag0 then slots false s
  else v.searchOneBag T item p.1 false p.2 s >>= leave 0

/-- The searches of `CanBankItem` in all the bank, in their order. -/
def bankSearches (p : Pos) : List (Search → Search) :=
  let proto := T item.entry
  let slots (merge : Bool) : Search → Search :=
    v.canStoreItemInInventorySlots T item 39 67 merge p
  let bags (merge nonSpecialized : Bool) : List (Search → Search) :=
    (slotsFrom 67 74).map fun bag => v.searchBag T item bag merge nonSpecialized p
  (if 1 < proto.stackable then
    [slots true] ++ (if proto.bagFamily ≠ 0 then bags true false else []) ++ bags true true
  else [])
    ++ (if proto.bagFamily ≠ 0 then bags false false else [])
    ++ [slots false]
    ++ bags false true

/-- The search of `CanBankItem` in the position that is asked for. -/
def bankSpecific (p : Pos) (swap : Bool) (s : Search) : Except Answer Search :=
  if p.1 ≠ nullBag && p.2 ≠ nullSlot then
    if v.checkBankSlot T R item p.2 ≠ .ok then .error (v.checkBankSlot T R item p.2, s.dest)
    else
      match v.canStoreItemInSpecificSlot T item p swap s with
      | .ok s => leave 0 s
      | .error res => .error (res, s.dest)
  else .ok s

/-- `Player::CanBankItem`, with the positions that are found before. -/
def canBankItemFrom (p : Pos) (swap : Bool) (dest : List ItemPosCount) : Answer :=
  if item.isBindedNotWith v then (.dontOwnThatItem, dest)
  else if (v.canTakeMoreSimilarItems T item item.count).1 ≠ .ok then
    ((v.canTakeMoreSimilarItems T item item.count).1, dest)
  else
    answer .bankFull do
      let s ← v.bankSpecific T R item p swap ⟨dest, item.count⟩
      let s ← v.bankInBag T item p s
      (v.bankSearches T item p).foldlM (fun s search => leave 0 (search s)) s

def canBankItem (p : Pos) (swap : Bool) : Answer := v.canBankItemFrom T R item p swap []

/-! ## Equipping -/

scoped instance neZero_slots : NeZero 256 := ⟨by decide⟩

scoped instance (priority := 2000) neZero_sizes : NeZero (maxBagSize + 1) := ⟨by decide⟩

/-- The slots in which items of a template are worn, which is the switch of `FindEquipSlot`. -/
def equipSlots (proto : ItemTemplate) : List (Fin 256) :=
  match proto.inventoryType with
  | .head => [0]
  | .neck => [1]
  | .shoulders => [2]
  | .body => [3]
  | .chest => [4]
  | .robe => [4]
  | .waist => [5]
  | .legs => [6]
  | .feet => [7]
  | .wrists => [8]
  | .hands => [9]
  | .finger => [10, 11]
  | .trinket => [12, 13]
  | .cloak => [14]
  | .weapon => if R.canDualWield then [15, 16] else [15]
  | .shield => [16]
  | .ranged => [17]
  | .twoHandWeapon => [15]
  | .tabard => [18]
  | .weaponMainhand => [15]
  | .weaponOffhand => [16]
  | .holdable => [16]
  | .thrown => [17]
  | .rangedRight => [17]
  | .bag => [19, 20, 21, 22]
  -- a libram for a paladin, an idol for a druid, a totem for a shaman, a sigil for a warlock
  | .relic =>
    if (proto.subClass, R.getClass) ∈ [(7, 2), (8, 11), (9, 7), (0, 9)] then [17] else []
  | .nonEquip | .ammo | .quiver => []

/-- `Player::FindEquipSlot`, where `none` is `NULL_SLOT`. -/
def findEquipSlot (proto : ItemTemplate) (slot : Fin 256) (swap : Bool) : Option (Fin 256) :=
  let free (slot : Fin 256) : Bool := (v.getItemByPos T (inventorySlotBag0, slot)).isNone
  let slots := equipSlots R proto
  if slot ≠ nullSlot then
    if swap || free slot then slots.find? fun i => i = slot else none
  else
    -- the off-hand slot is empty but not free beside a two-handed weapon
    let twoHanded :=
      (v.getItemByPos T (inventorySlotBag0, equipmentSlotMainhand)).any fun mainItem =>
        (T mainItem.entry).inventoryType = .twoHandWeapon
    match slots.find? fun i => free i && !(i = equipmentSlotOffhand && twoHanded) with
    | some i => some i
    | none => if swap then slots.head? else none

def canUnequipItem (p : Pos) (swap : Bool) : InventoryResult :=
  if !isEquipmentPos p && !isBagPos p then .ok
  else
    match v.getItemByPos T p with
    | none => .ok
    | some item =>
      match R.refusesUnequip v item with
      | some res => res
      | none => if !swap && item.isNotEmptyBag T then .canOnlyDoWithEmptyBags else .ok

/-- `Player::CanEquipItem`: the result, and the slot. -/
def canEquipItem (slot : Fin 256) (swap : Bool) : Except InventoryResult Pos :=
  let proto := T item.entry
  if item.isBindedNotWith v then .error .dontOwnThatItem
  else if (v.canTakeMoreSimilarItems T item item.count).1 ≠ .ok then
    .error (v.canTakeMoreSimilarItems T item item.count).1
  else
    match R.refusesEquip v item with
    | some res => .error res
    | none =>
      match v.findEquipSlot T R proto slot swap with
      | none => .error .itemCantBeEquipped
      | some eslot =>
        if R.canUseItem v item ≠ .ok then .error (R.canUseItem v item)
        else if !swap && (v.getItemByPos T (inventorySlotBag0, eslot)).isSome then
          .error .noEquipmentSlotAvailable
        else
          match R.refusesUnique v item eslot swap with
          | some res => .error res
          | none =>
            let offhand := eslot = equipmentSlotOffhand
            if offhand && (proto.inventoryType = .weapon || proto.inventoryType = .weaponOffhand)
                && !R.canDualWield then .error .cantDualWield
            else if offhand &&
                (v.getItemByPos T (inventorySlotBag0, equipmentSlotMainhand)).any fun mainItem =>
                  (T mainItem.entry).inventoryType = .twoHandWeapon then
              .error .cantEquipWithTwohanded
            else if proto.inventoryType = .twoHandWeapon then
              if eslot ≠ equipmentSlotMainhand then .error .itemCantBeEquipped
              else
                let off : Pos := (inventorySlotBag0, equipmentSlotOffhand)
                match v.getItemByPos T off with
                | none => .ok (inventorySlotBag0, eslot)
                | some offItem =>
                  if v.canUnequipItem T R off false ≠ .ok
                      || (v.canStoreItem T offItem (nullBag, nullSlot) false).1 ≠ .ok then
                    .error (if swap then .itemsCantBeSwapped else .inventoryFull)
                  else .ok (inventorySlotBag0, eslot)
            else .ok (inventorySlotBag0, eslot)

def autoUnequipOffhandIfNeed : Player :=
  let off : Pos := (inventorySlotBag0, equipmentSlotOffhand)
  match v.getItemByPos T off, v.getItemByPos T (inventorySlotBag0, equipmentSlotMainhand) with
  | some offItem, some mainItem =>
    if (T mainItem.entry).inventoryType ≠ .twoHandWeapon then v
    else
      match v.canStoreItem T offItem (nullBag, nullSlot) false with
      | (.ok, dest) => storeItem T offItem dest (v.removeItem T off)
      | _ => v
  | _, _ => v

end Player

end Sunstrider.Inventory
