import Sunstrider.Player.Money
import Mathlib.Logic.Function.Basic
import Mathlib.Data.List.FinRange

/-!
# Trades

`TradeData.cpp` and `TradeHandler.cpp`: two players put money and items on offer, each accepts, and
the second accept exchanges the offers. A trade slot names an item by its guid, and is read through
the inventory of its player, so what a slot offers is what the inventory has under that guid.

A `Moment` has what the handlers ask of the rest of the server: distances, bindings, spells, and what
`Player::CanStoreItems`, `CanStoreItem` and `MoveItemToInventory` answer. The flag `_acceptProccess`,
which nothing reads, and packets and logs are left out.

`TradeWorld.agreed` records the two offers as they stand when a player's flag is set, and
`TradeWorld.deals` what each execution hands over.
-/

namespace Sunstrider.Trade

open Sunstrider.Lib (toInt32 subU32)
open Sunstrider.Player (hasEnoughMoney modifyMoney maxMoneyAmount)

/-- The two players of a trade. -/
inductive Side
  | initiator
  | target
  deriving DecidableEq, Repr

/-- The other player. -/
def Side.trader : Side → Side
  | initiator => target
  | target => initiator

def tradeSlotCount : ℕ := 7

def tradeSlotTradedCount : ℕ := 6

abbrev TradeSlot : Type := Fin tradeSlotCount

abbrev TradedSlot : Type := Fin tradeSlotTradedCount

def tradeSlotNonTraded : TradeSlot := ⟨6, by decide⟩

def TradedSlot.slot (i : TradedSlot) : TradeSlot := ⟨i, Nat.lt_of_lt_of_le i.2 (by decide)⟩

/-- An item object, with its stack count. -/
structure Item where
  guid : ℕ
  count : ℕ
  deriving DecidableEq, Repr

/-- The items of a player: the stack count under each guid that he has. -/
abbrev Inventory : Type := ℕ → Option ℕ

/-- `TradeData`. An empty guid is `none`. -/
structure TradeData where
  accepted : Bool
  money : ℕ
  spell : ℕ
  spellCastItem : Option ℕ
  items : TradeSlot → Option ℕ

/-- The `TradeData` of both players. -/
abbrev Trades : Type := Side → TradeData

/-- What a player offers: the money, and the items in his traded slots as his inventory has them. -/
structure Offer where
  money : ℕ
  items : TradedSlot → Option Item

/-- What an execution did. -/
structure Deal where
  /-- The offers of both, as they were when each player's flag was last set. -/
  agreed : Side → Option (Side → Offer)
  /-- The money that each player's purse lost for his offer. -/
  lost : Side → ℤ
  /-- The money that the other's purse got for it. -/
  gained : Side → ℤ
  /-- The items of each player that the other stored. -/
  items : Side → TradedSlot → Option Item

structure TradeWorld where
  purse : Side → ℕ
  inventory : Side → Inventory
  /-- `m_trade` of both players: they are made and deleted together. -/
  trade : Option Trades
  agreed : Side → Option (Side → Offer)
  deals : List Deal
  /-- Items that an execution took and that nobody could store. -/
  ownerless : List Item
  /-- How often a `TradeData` was read after it was deleted. -/
  staleReads : ℕ

/-- A position and a count of a plan for storing an item. -/
structure ItemPosCount where
  pos : ℕ
  count : ℕ
  deriving DecidableEq, Repr

/-- The answers of the server at one moment. `canStoreItem` appends to a plan. -/
structure Moment where
  canTrade : Bool
  isWithinDistInMap : Bool
  canBeTraded : ℕ → Bool
  isBindedNotWith : ℕ → Side → Bool
  spellExists : ℕ → Bool
  checkCast : Side → Bool
  canStoreItems : Side → Inventory → (TradedSlot → Option Item) → Bool
  canStoreItem : Side → Inventory → List ItemPosCount → Item → List ItemPosCount × Bool
  moveItemToInventory : Side → Inventory → List ItemPosCount → Item → Inventory

/-! ## TradeData -/

def TradeData.new : TradeData := ⟨false, 0, 0, none, fun _ => none⟩

def TradeData.getItem (d : TradeData) (inventory : Inventory) (slot : TradeSlot) : Option Item :=
  (d.items slot).bind fun guid => (inventory guid).map fun count => ⟨guid, count⟩

def TradeData.hasItem (d : TradeData) (guid : ℕ) : Bool :=
  (List.finRange tradeSlotCount).any fun i => d.items i = some guid

/-- `TradeData::HasSpellCastItem`, without `GetSpellCastItem`. -/
def TradeData.missesSpellCastItem (d : TradeData) (inventory : Inventory) : Bool :=
  d.spellCastItem.any fun guid => (inventory guid).isNone

namespace Trades

def setAccepted (t : Trades) (s : Side) (state : Bool) : Trades :=
  Function.update t s { t s with accepted := state }

/-- `SetAccepted(false)` of both, as every setter ends. -/
def clearAccepted (t : Trades) (s : Side) : Trades :=
  (t.setAccepted s false).setAccepted s.trader false

def setSpell (t : Trades) (s : Side) (spell : ℕ) (castItem : Option ℕ) : Trades :=
  if (t s).spell = spell ∧ (t s).spellCastItem = castItem then t
  else clearAccepted (Function.update t s { t s with spell := spell, spellCastItem := castItem }) s

def setItem (t : Trades) (s : Side) (slot : TradeSlot) (guid : Option ℕ) (update : Bool) : Trades :=
  if (t s).items slot = guid ∧ !update then t
  else
    let t := clearAccepted
      (Function.update t s { t s with items := Function.update (t s).items slot guid }) s
    let t := if slot = tradeSlotNonTraded then setSpell t s.trader 0 none else t
    setSpell t s 0 none

/-- `TradeData::SetMoney`, with the player's purse. -/
def setMoney (t : Trades) (s : Side) (purse money : ℕ) : Trades :=
  if (t s).money = money then t
  else if !hasEnoughMoney purse (toInt32 money) then t
  else clearAccepted (Function.update t s { t s with money := money }) s

end Trades

namespace TradeWorld

/-- No trade. -/
def initial (purse : Side → ℕ) (inventory : Side → Inventory) : TradeWorld :=
  ⟨purse, inventory, none, fun _ => none, [], [], 0⟩

/-- The item in a slot. -/
def getItem (w : TradeWorld) (t : Trades) (s : Side) (slot : TradeSlot) : Option Item :=
  (t s).getItem (w.inventory s) slot

/-- The offers that stand. -/
def offers (w : TradeWorld) (t : Trades) (s : Side) : Offer :=
  ⟨(t s).money, fun i => w.getItem t s i.slot⟩

/-! ## Handlers of the offers -/

def handleInitiateTrade (w : TradeWorld) (m : Moment) : TradeWorld :=
  match w.trade with
  | some _ => w
  | none => if m.canTrade then { w with trade := some fun _ => TradeData.new } else w

def tradeCancel (w : TradeWorld) : TradeWorld := { w with trade := none }

def handleSetTradeGold (w : TradeWorld) (s : Side) (gold : UInt32) : TradeWorld :=
  { w with trade := w.trade.map fun t => t.setMoney s (w.purse s) gold.toNat }

/-- `WorldSession::HandleSetTradeItemOpcode`. The request names a place in the inventory, and `guid` is
of the item there. -/
def handleSetTradeItem (w : TradeWorld) (m : Moment) (s : Side) (tradeSlot guid : ℕ) : TradeWorld :=
  match w.trade with
  | none => w
  | some t =>
    if h : tradeSlot < tradeSlotCount then
      let slot : TradeSlot := ⟨tradeSlot, h⟩
      if (w.inventory s guid).isNone || slot ≠ tradeSlotNonTraded && !m.canBeTraded guid then w
      else if (t s).hasItem guid then w
      else { w with trade := some (t.setItem s slot (some guid) false) }
    else w

def handleClearTradeItem (w : TradeWorld) (s : Side) (tradeSlot : ℕ) : TradeWorld :=
  match w.trade with
  | none => w
  | some t =>
    if h : tradeSlot < tradeSlotCount then
      { w with trade := some (t.setItem s ⟨tradeSlot, h⟩ none false) }
    else w

def handleUnacceptTrade (w : TradeWorld) (s : Side) : TradeWorld :=
  { w with trade := w.trade.map fun t => t.setAccepted s false }

/-! ## The accept -/

section Accept

variable (w : TradeWorld) (m : Moment) (p : Side) (t : Trades)

/-- Some item may not be traded. `IsBindedNotWith` is asked of the accepting player's items only. -/
def untradable : Bool :=
  (List.finRange tradeSlotTradedCount).any fun i =>
    (w.getItem t p (TradedSlot.slot i)).any (fun item =>
      !m.canBeTraded item.guid || m.isBindedNotWith item.guid p.trader) ||
    (w.getItem t p.trader (TradedSlot.slot i)).any fun item => !m.canBeTraded item.guid

/-- The spell that a player offers cannot be cast. -/
def spellFails (s : Side) : Bool :=
  (t s).spell ≠ 0 &&
    (!m.spellExists (t s).spell || (w.getItem t s.trader tradeSlotNonTraded).isNone ||
      (t s).missesSpellCastItem (w.inventory s) || !m.checkCast s)

/-- The checks of `WorldSession::HandleAcceptTradeOpcode`, after it has set the flag: what a check
that fails makes of the two `TradeData`, and `none` where all pass. -/
def refuseAccept : Option Trades :=
  let q := p.trader
  if !m.isWithinDistInMap then some (t.setAccepted p false)
  else if !hasEnoughMoney (w.purse p) (toInt32 (t p).money) then some (t.setAccepted p false)
  else if !hasEnoughMoney (w.purse q) (toInt32 (t q).money) then some (t.setAccepted q false)
  else if subU32 maxMoneyAmount (t q).money ≤ w.purse p then some (t.setAccepted p false)
  else if subU32 maxMoneyAmount (t p).money ≤ w.purse q then some (t.setAccepted q false)
  else if w.untradable m p t then some t
  else if !(t q).accepted then some t
  else if w.spellFails m t p then some (t.setSpell p 0 none)
  else if w.spellFails m t q then some (t.setSpell q 0 none)
  else if !m.canStoreItems p (w.inventory p) (w.offers t q).items then some (t.clearAccepted p)
  else if !m.canStoreItems q (w.inventory q) (w.offers t p).items then some (t.clearAccepted p)
  else none

end Accept

/-! ## The execution -/

/-- The removal of the offered items from an inventory. -/
def removeItems (inventory : Inventory) (items : TradedSlot → Option Item) : Inventory :=
  (List.finRange tradeSlotTradedCount).foldl (fun inventory i =>
    match items i with
    | some item => Function.update inventory item.guid none
    | none => inventory) inventory

/-- The loop of `moveItems` at work: inventories, items that found their new owner, items without
an owner. -/
structure Moving where
  inventory : Side → Inventory
  moved : Side → TradedSlot → Option Item
  ownerless : List Item

section MoveItems

variable (m : Moment) (items : Side → TradedSlot → Option Item)

/-- The plan for storing an item that `s` gets, and whether it can be stored. No item can. -/
def canTrade (st : Moving) (s : Side) (i : TradedSlot) : List ItemPosCount × Bool :=
  match items s.trader i with
  | none => ([], true)
  | some item => m.canStoreItem s (st.inventory s) [] item

/-- `MoveItemToInventory` of the item that `s` gets. -/
def storeTraded (st : Moving) (s : Side) (i : TradedSlot) (dst : List ItemPosCount) : Moving :=
  match items s.trader i with
  | none => st
  | some item =>
    { st with
      inventory := Function.update st.inventory s
        (m.moveItemToInventory s (st.inventory s) dst item)
      moved := Function.update st.moved s.trader
        (Function.update (st.moved s.trader) i (some item)) }

/-- The item that `s` gave goes back to him. The plan `dst` has been used before, and the new
positions come after its old ones. -/
def giveBack (st : Moving) (s : Side) (i : TradedSlot) (dst : List ItemPosCount) : Moving :=
  match items s i with
  | none => st
  | some item =>
    let (dst, fits) := m.canStoreItem s (st.inventory s) dst item
    if fits then
      { st with
        inventory := Function.update st.inventory s
          (m.moveItemToInventory s (st.inventory s) dst item) }
    else { st with ownerless := st.ownerless ++ [item] }

/-- One round of `WorldSession::moveItems`, called by `p`. -/
def moveItem (p : Side) (st : Moving) (i : TradedSlot) : Moving :=
  let (traderDst, traderCanTrade) := canTrade m items st p.trader i
  let (playerDst, playerCanTrade) := canTrade m items st p i
  if traderCanTrade && playerCanTrade then
    storeTraded m items (storeTraded m items st p.trader i traderDst) p i playerDst
  else giveBack m items (giveBack m items st p i playerDst) p.trader i traderDst

def moveItems (p : Side) (st : Moving) : Moving :=
  (List.finRange tradeSlotTradedCount).foldl (moveItem m items p) st

end MoveItems

/-- The execution phase of `WorldSession::HandleAcceptTradeOpcode`. The log at its end reads the money
of both `TradeData` after they are deleted. -/
def executeTrade (w : TradeWorld) (m : Moment) (p : Side) (t : Trades) : TradeWorld :=
  let items : Side → TradedSlot → Option Item := fun s => (w.offers t s).items
  let taken : Moving := ⟨fun s => removeItems (w.inventory s) (items s), fun _ _ => none, []⟩
  let moved := moveItems m items p taken
  -- each purse gives before it gets
  let given : Side → ℕ := fun s => modifyMoney (w.purse s) (-toInt32 (t s).money)
  let got : Side → ℕ := fun s => modifyMoney (given s) (toInt32 (t s.trader).money)
  let deal : Deal :=
    { agreed := w.agreed
      lost := fun s => w.purse s - given s
      gained := fun s => got s.trader - given s.trader
      items := moved.moved }
  { w with
    purse := got
    inventory := moved.inventory
    trade := none
    deals := w.deals ++ [deal]
    ownerless := w.ownerless ++ moved.ownerless
    staleReads := w.staleReads + 2 }

/-- `my_trade->SetAccepted(true)`, with a record of the offers. -/
def accept (w : TradeWorld) (p : Side) (t : Trades) : TradeWorld :=
  { w with
    trade := some (t.setAccepted p true)
    agreed := Function.update w.agreed p (some (w.offers t)) }

def handleAcceptTrade (w : TradeWorld) (m : Moment) (p : Side) : TradeWorld :=
  match w.trade with
  | none => w
  | some t =>
    match (w.accept p t).refuseAccept m p (t.setAccepted p true) with
    | some t' => { w.accept p t with trade := some t' }
    | none => (w.accept p t).executeTrade m p (t.setAccepted p true)

/-! ## Steps -/

/-- What the two sessions and the rest of the server do. -/
inductive Op
  | initiateTrade
  | cancelTrade
  | setTradeGold (s : Side) (gold : UInt32)
  | setTradeItem (s : Side) (tradeSlot guid : ℕ)
  | clearTradeItem (s : Side) (tradeSlot : ℕ)
  | unacceptTrade (s : Side)
  | acceptTrade (s : Side)
  /-- Other code changes a stack of a player: `Item::SetCount`, an item removed, an item stored. -/
  | inventory (s : Side) (guid : ℕ) (now : Option ℕ)
  /-- Other code calls `ModifyMoney`. -/
  | modifyMoney (s : Side) (amount : ℤ)

/-- One step, at a moment of the server. -/
def step (w : TradeWorld) : Moment × Op → TradeWorld
  | (m, .initiateTrade) => w.handleInitiateTrade m
  | (_, .cancelTrade) => w.tradeCancel
  | (_, .setTradeGold s gold) => w.handleSetTradeGold s gold
  | (m, .setTradeItem s slot guid) => w.handleSetTradeItem m s slot guid
  | (_, .clearTradeItem s slot) => w.handleClearTradeItem s slot
  | (_, .unacceptTrade s) => w.handleUnacceptTrade s
  | (m, .acceptTrade s) => w.handleAcceptTrade m s
  | (_, .inventory s guid now) =>
    { w with inventory := Function.update w.inventory s (Function.update (w.inventory s) guid now) }
  | (_, .modifyMoney s amount) =>
    { w with purse := Function.update w.purse s (Player.modifyMoney (w.purse s) amount) }

end TradeWorld

end Sunstrider.Trade
