import Sunstrider.Inventory.Planning

/-!
# Counting and destroying items

`Player::GetItemCount` without an item to skip, `Player::HasItemCount`, `Player::DestroyItem` and
`Player::DestroyItemCount`.

`Stackable` is read as a 16-bit number, so that the 32-bit sums over all places of a player do not wrap:
they are natural numbers here.
-/

namespace Sunstrider.Inventory

namespace Player

variable (T : Templates) (R : Rules) (v : Player) (entry : ℕ)

/-! ## Counting -/

/-- The positions that `GetItemCount` and `HasItemCount` go through, in their order. -/
def countedPositions (inBankAlso : Bool) : List Pos :=
  ownPositions (slotsFrom 0 39) ++ ownPositions (slotsFrom 86 118)
    ++ v.bagPositions T (slotsFrom 19 23)
    ++ if inBankAlso then ownPositions (slotsFrom 39 67) ++ v.bagPositions T (slotsFrom 67 74) else []

/-- What the item at a position adds to the number of items of an entry. -/
def countAt (p : Pos) : ℕ :=
  match v.getItemByPos T p with
  | some item => if item.entry = entry then item.count else 0
  | none => 0

/-- `Player::GetItemCount` without an item to skip. -/
def getItemCountOf (inBankAlso : Bool) : ℕ :=
  ((v.countedPositions T inBankAlso).map (v.countAt T entry)).sum

/-- The loops of `HasItemCount`, with `tempcount`. -/
def hasItemCountFrom (count : ℕ) : ℕ → List Pos → Bool
  | _, [] => false
  | tempcount, p :: ps =>
    match v.getItemByPos T p with
    | some item =>
      if item.entry = entry then
        if count ≤ tempcount + item.count then true
        else hasItemCountFrom count (tempcount + item.count) ps
      else hasItemCountFrom count tempcount ps
    | none => hasItemCountFrom count tempcount ps

def hasItemCount (count : ℕ) (inBankAlso : Bool) : Bool :=
  if count = 0 then true
  else v.hasItemCountFrom T entry count 0 (v.countedPositions T inBankAlso)

/-! ## Destroying -/

/-- `Item::IsEquipped`, of the item at a position. -/
def isEquipped (p : Pos) : Bool := p.1 = inventorySlotBag0 && p.2.val < 19

/-- `Player::DestroyItem`, with a bound on how deep the calls for what lies in a bag go. A bag that is
not equipped is destroyed with what lies in it, and the slots of the bags are none of the equipment:
the bound is never reached (`destroyItem_eq`). -/
def destroyItem : ℕ → Pos → Player → Player
  | 0, _, v => v
  | depth + 1, p, v =>
    match v.getItemByPos T p with
    | none => v
    | some item =>
      let v :=
        if item.isBag T && isEquipped p then
          (slotsFrom 0 maxBagSize).foldl (fun v slot => destroyItem depth (p.2, slot) v) v
        else v
      v.setItem p none

/-- A round of the loops of `DestroyItemCount`, with `remcount`. The error is the player at a
`return`. -/
def destroyRound (count : ℕ) (mayDestroy : Player → Pos → Bool) (s : Player × ℕ) (p : Pos) :
    Except Player (Player × ℕ) :=
  match s.1.getItemByPos T p with
  | none => .ok s
  | some item =>
    if item.entry ≠ entry then .ok s
    else if item.count + s.2 ≤ count then
      if mayDestroy s.1 p then
        let v := s.1.destroyItem T 2 p
        if count ≤ s.2 + item.count then .error v else .ok (v, s.2 + item.count)
      else .ok s
    else .error (s.1.setCount T p (item.count + s.2 - count))

def destroyItemCount (count : ℕ) (unequipCheck inBankAlso : Bool) : Player :=
  let free (_ : Player) (_ : Pos) : Bool := true
  let mayUnequip (v : Player) (p : Pos) : Bool :=
    !unequipCheck || v.canUnequipItem T R p false = .ok
  let slots (first last : ℕ) (s : Player × ℕ) : Except Player (Player × ℕ) :=
    (ownPositions (slotsFrom first last)).foldlM (destroyRound T entry count free) s
  let bags (first last : ℕ) (s : Player × ℕ) : Except Player (Player × ℕ) :=
    (slotsFrom first last).foldlM (fun s bag =>
      (s.1.bagPositions T [bag]).foldlM (destroyRound T entry count free) s) s
  let rounds : Except Player (Player × ℕ) := do
    let s ← slots 23 39 (v, 0)
    let s ← slots 86 118 s
    let s ← bags 19 23 s
    let s ← (ownPositions (slotsFrom 0 23)).foldlM (destroyRound T entry count mayUnequip) s
    if inBankAlso then slots 39 67 s >>= bags 67 74 else pure s
  match rounds with
  | .ok s => s.1
  | .error v => v

end Player

end Sunstrider.Inventory
