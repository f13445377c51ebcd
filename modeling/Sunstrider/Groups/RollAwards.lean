import Mathlib.Data.List.Sort
import Sunstrider.Groups.Roll
import Sunstrider.Loots.Loot

/-!
# Who wins a loot roll

`Group::CountTheRoll` on the loot that the roll is for. The votes are counted in the order of the guids, as
a `std::map` has them, and `none` is the empty guid, which no player has.

What comes from outside is a moment: the players who are connected, the map that `EndRoll` allows, the
dice, and whether `CanStoreNewItem` finds room. The roll is erased by `Rolls.countTheRoll`; messages are
left out.
-/

namespace Sunstrider.Groups

open Lib (decU8)

/-- What is read of a player who is connected. -/
structure ConnectedPlayer where
  isInWorld : Bool
  map : ℕ
  hasSession : Bool
  deriving DecidableEq

structure RollMoment where
  /-- `ObjectAccessor::FindConnectedPlayer`. -/
  findConnectedPlayer : ℕ → Option ConnectedPlayer
  allowedMap : Option ℕ
  /-- The outcomes of `urand(1, 100)`, from 0 on. -/
  urand : RollVote → ℕ → Fin 100
  /-- Whether the player has room when one of the two kinds of vote is counted. -/
  canStore : RollVote → ℕ → Bool

namespace RollMoment

variable (m : RollMoment)

/-- `ObjectAccessor::FindPlayer`. -/
def findPlayer (guid : ℕ) : Option ConnectedPlayer :=
  (m.findConnectedPlayer guid).filter ConnectedPlayer.isInWorld

/-- A player whose vote counts. -/
def present (guid : ℕ) : Bool :=
  match m.findPlayer guid with
  | none => false
  | some player => m.allowedMap.all fun allowedMap => player.map = allowedMap

def randomN (vote : RollVote) (guid : ℕ) : ℕ := m.urand vote guid + 1

end RollMoment

/-- A roll, with the loot and the slot of its item. -/
structure LootRoll where
  roll : Roll
  itemSlot : ℕ
  /-- `getLoot`. -/
  loot : Option Loots.Loot

/-- The entries of `playerVote` in their order. -/
def Roll.entries (r : Roll) : List (ℕ × RollVote) := r.playerVote.insertionSort fun e e' => e.1 ≤ e'.1

/-- The variables of a loop over the votes of one kind. -/
structure RollCount where
  total : ℕ
  maxguid : Option ℕ
  maxresul : ℕ
  deriving DecidableEq

/-- What the roll comes to: the loot, and those who were given the item. -/
structure RollOutcome where
  loot : Loots.Loot
  given : List ℕ
  deriving DecidableEq

namespace RollMoment

variable (m : RollMoment)

/-- The round of a loop for one entry. -/
def countEntry (vote : RollVote) (c : RollCount) (e : ℕ × RollVote) : RollCount :=
  if e.2 ≠ vote then c
  else if !m.present e.1 then { c with total := decU8 c.total }
  else if c.maxresul < m.randomN vote e.1 then
    { c with
      maxguid := some e.1
      maxresul := m.randomN vote e.1 }
  else c

/-- The item goes to the winner, or is reserved for him, if he is found and has a session. -/
def giveTo (vote : RollVote) (slot : ℕ) (winner : Option ConnectedPlayer) (guid : ℕ) (o : RollOutcome) :
    RollOutcome :=
  if winner.any ConnectedPlayer.hasSession then
    ⟨o.loot.award (.win slot guid (m.canStore vote guid)), o.given ++ [guid]⟩
  else o

/-- The votes for need: what is left of `totalNeed`, and the outcome. The winner is the first player of the
list until somebody's dice are counted. -/
def countNeed (r : LootRoll) (o : RollOutcome) : ℕ × RollOutcome :=
  if 0 < r.roll.totalNeed then
    match r.roll.entries with
    | [] => (r.roll.totalNeed, o)
    | first :: rest =>
      let c := (first :: rest).foldl (m.countEntry .need) ⟨r.roll.totalNeed, some first.1, 0⟩
      match c.maxguid with
      | some guid => (c.total, m.giveTo .need r.itemSlot (m.findPlayer guid) guid o)
      | none => (0, o)
  else (r.roll.totalNeed, o)

/-- The votes for greed: what is left of `totalGreed`, and the outcome. -/
def countGreed (r : LootRoll) (totalNeed : ℕ) (o : RollOutcome) : ℕ × RollOutcome :=
  if totalNeed = 0 ∧ 0 < r.roll.totalGreed then
    match r.roll.entries with
    | [] => (r.roll.totalGreed, o)
    | first :: rest =>
      let c := (first :: rest).foldl (m.countEntry .greed) ⟨r.roll.totalGreed, none, 0⟩
      match c.maxguid with
      | some guid => (c.total, m.giveTo .greed r.itemSlot (m.findConnectedPlayer guid) guid o)
      | none => (0, o)
  else (r.roll.totalGreed, o)

/-- `Group::CountTheRoll`, of a roll whose loot is still there. -/
def countLootRoll (r : LootRoll) (loot : Loots.Loot) : RollOutcome :=
  let (totalNeed, o) := m.countNeed r ⟨loot, []⟩
  let (totalGreed, o) := m.countGreed r totalNeed o
  if totalNeed = 0 ∧ totalGreed = 0 then
    { o with loot := o.loot.modifyAt r.itemSlot fun item => { item with isBlocked := false } }
  else o

def countTheRoll (r : LootRoll) : Option RollOutcome := r.loot.map (m.countLootRoll r)

end RollMoment

end Sunstrider.Groups
