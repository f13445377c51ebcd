import Sunstrider.Laws.Trade.Accept
import Mathlib.Algebra.BigOperators.Finprod

/-!
# What an accept keeps

`Conserves` is the duty of an accept: where it refuses, inventories and purses stay; where it
executes, no money and no piece of an item is made or lost, no item is left without an owner, and no
`TradeData` is read after it was deleted.

A sound execution does all of this but the last (`executeTrade_exchanges`), and no run of sound
executions makes or loses anything (`trades_conserve`). The log at the end of every execution reads the
money of both deleted `TradeData`, so an accept keeps its duty just where it does not execute
(`accept_conserves_iff`).
-/

namespace Sunstrider.Trade

open Sunstrider.Lib (toInt32 AllAlong)
open Sunstrider.Player (modifyMoney maxMoneyAmount)

/-! ## Pieces of an inventory -/

namespace Inventory

/-- How many pieces an inventory has, over all its stacks. -/
noncomputable def pieces (inventory : Inventory) : ℕ := finsum fun guid => (inventory guid).getD 0

/-- An inventory as a player has it: finitely many stacks. -/
def Bounded (inventory : Inventory) : Prop :=
  (Function.support fun guid => (inventory guid).getD 0).Finite

variable {inventory : Inventory} (guid : ℕ) (now : Option ℕ)

theorem getD_update : (fun g => (Function.update inventory guid now g).getD 0) =
    Function.update (fun g => (inventory g).getD 0) guid (now.getD 0) :=
  funext fun g => Function.apply_update (fun _ (c : Option ℕ) => c.getD 0) inventory guid now g

theorem support_update_subset :
    (Function.support fun g => (Function.update inventory guid now g).getD 0) ⊆
      insert guid (Function.support fun g => (inventory g).getD 0) := by
  intro g hg
  by_cases h : g = guid
  · exact .inl h
  · rw [Function.mem_support, Function.update_of_ne h] at hg
    exact .inr hg

theorem Bounded.update (h : inventory.Bounded) :
    Bounded (Function.update inventory guid now) :=
  (h.insert guid).subset (support_update_subset guid now)

theorem pieces_update (h : inventory.Bounded) :
    pieces (Function.update inventory guid now) + (inventory guid).getD 0 =
      inventory.pieces + now.getD 0 := by
  have hmem : guid ∈ insert guid h.toFinset := Finset.mem_insert_self _ _
  have hinsert : (↑(insert guid h.toFinset) : Set ℕ) =
      insert guid (Function.support fun g => (inventory g).getD 0) := by
    rw [Finset.coe_insert, h.coe_toFinset]
  have hbefore : inventory.pieces = ∑ g ∈ insert guid h.toFinset, (inventory g).getD 0 :=
    finsum_eq_sum_of_support_subset _ (hinsert ▸ Set.subset_insert _ _)
  have hafter : pieces (Function.update inventory guid now) =
      ∑ g ∈ insert guid h.toFinset, (Function.update inventory guid now g).getD 0 :=
    finsum_eq_sum_of_support_subset _ (hinsert ▸ support_update_subset guid now)
  rw [hbefore, hafter, getD_update, Finset.sum_update_of_mem hmem,
    Finset.sum_eq_add_sum_sdiff_singleton_of_mem hmem]
  omega

end Inventory

namespace TradeWorld

variable {w : TradeWorld} {m : Moment} {p : Side} {t t' : Trades}

/-- Money went from purse to purse, in bounds, and pieces from inventory to inventory. -/
structure Exchanges (w w' : TradeWorld) : Prop where
  money : w'.purse .initiator + w'.purse .target = w.purse .initiator + w.purse .target
  bound : ∀ s, w'.purse s ≤ maxMoneyAmount
  items : (w'.inventory .initiator).pieces + (w'.inventory .target).pieces =
    (w.inventory .initiator).pieces + (w.inventory .target).pieces

/-- What an accept owes to both players. -/
structure Conserves (w w' : TradeWorld) : Prop where
  kept : w'.inventory = w.inventory ∧ w'.purse = w.purse ∨ Exchanges w w'
  owned : w'.ownerless = w.ownerless
  alive : w'.staleReads = w.staleReads

/-- The accept passes every check. -/
def Executes (w : TradeWorld) (m : Moment) (p : Side) : Prop :=
  ∃ t, w.trade = some t ∧ (w.accept p t).refuseAccept m p (t.setAccepted p true) = none

/-! ## Money -/

/-- A purse after an execution, for amounts in the range of signed words. -/
theorem executeTrade_purse (passed : w.Passed p t) (money : ∀ s, (t s).money < 2 ^ 31) (s : Side) :
    (t s).money ≤ w.purse s ∧
      (w.executeTrade m p t).purse s = w.purse s - (t s).money + (t s.trader).money := by
  obtain ⟨hle, hgiven⟩ := given_eq (money s) (passed.enough s)
  refine ⟨hle, ?_⟩
  show modifyMoney (modifyMoney (w.purse s) (-toInt32 (t s).money)) (toInt32 (t s.trader).money) = _
  rw [hgiven]
  exact got_eq (money s.trader) (Nat.sub_le _ _) (passed.room s)

/-- The room that the accept checks for is room for the sum. -/
theorem executeTrade_purse_le (passed : w.Passed p t) (money : ∀ s, (t s).money < 2 ^ 31) (s : Side) :
    (w.executeTrade m p t).purse s ≤ maxMoneyAmount := by
  have hmax : (t s.trader).money ≤ maxMoneyAmount := Nat.le_pred_of_lt (money s.trader)
  have hroom := passed.room s
  rw [Lib.subU32_eq hmax (by decide)] at hroom
  rw [(executeTrade_purse passed money s).2]
  omega

/-! ## Items -/

/-- `MoveItemToInventory` adds the pieces of an item that `CanStoreItem` has found room for. -/
def Storing (m : Moment) : Prop :=
  ∀ s (inventory : Inventory) item, inventory.Bounded →
    (m.canStoreItem s inventory [] item).2 = true →
    let stored := m.moveItemToInventory s inventory (m.canStoreItem s inventory [] item).1 item
    stored.Bounded ∧ stored.pieces = inventory.pieces + item.count

/-- The pieces in some slots of an offer. -/
def offeredPieces (items : TradedSlot → Option Item) (l : List TradedSlot) : ℕ :=
  (l.map fun i => ((items i).map Item.count).getD 0).sum

theorem offeredPieces_cons (items : TradedSlot → Option Item) (i : TradedSlot) (l : List TradedSlot) :
    offeredPieces items (i :: l) = ((items i).map Item.count).getD 0 + offeredPieces items l := rfl

/-- No two slots offer the same item: `HandleSetTradeItemOpcode` asks `HasItem`. -/
def Distinct (items : TradedSlot → Option Item) : Prop :=
  ∀ i j x y, items i = some x → items j = some y → x.guid = y.guid → i = j

theorem foldl_removeItems {items : TradedSlot → Option Item} (distinct : Distinct items)
    {l : List TradedSlot} (hl : l.Nodup) {inventory : Inventory} (hb : inventory.Bounded)
    (hitems : ∀ i ∈ l, ∀ item, items i = some item → inventory item.guid = some item.count) :
    let rest := l.foldl (fun inventory i =>
      match items i with
      | some item => Function.update inventory item.guid none
      | none => inventory) inventory
    rest.Bounded ∧ rest.pieces + offeredPieces items l = inventory.pieces := by
  induction l generalizing inventory with
  | nil => exact ⟨hb, rfl⟩
  | cons i l ih =>
    rw [List.nodup_cons] at hl
    rw [List.foldl_cons, offeredPieces_cons]
    have htail := fun j hj => hitems j (List.mem_cons_of_mem i hj)
    cases hi : items i with
    | none =>
      obtain ⟨hbounded, hpieces⟩ := ih hl.2 hb htail
      refine ⟨hbounded, ?_⟩
      rw [Option.map_none, Option.getD_none, Nat.zero_add]
      exact hpieces
    | some item =>
      have hcount := hitems i List.mem_cons_self item hi
      have hupdate := Inventory.pieces_update item.guid none hb
      rw [hcount, Option.getD_some, Option.getD_none] at hupdate
      -- the other slots name other stacks
      have hothers : ∀ j ∈ l, ∀ x, items j = some x →
          Function.update inventory item.guid none x.guid = some x.count := by
        intro j hj x hx
        have hne : x.guid ≠ item.guid := fun h => hl.1 (distinct j i x item hx hi h ▸ hj)
        rw [Function.update_of_ne hne]
        exact htail j hj x hx
      obtain ⟨hbounded, hpieces⟩ := ih hl.2 (hb.update item.guid none) hothers
      refine ⟨hbounded, ?_⟩
      rw [Option.map_some, Option.getD_some]
      dsimp only at hpieces ⊢
      omega

theorem offered_spec {s : Side} {i : TradedSlot} {item : Item} (h : w.offered t s i = some item) :
    w.inventory s item.guid = some item.count := by
  obtain ⟨guid, -, hguid⟩ := Option.bind_eq_some_iff.mp h
  obtain ⟨count, hcount, rfl⟩ := Option.map_eq_some_iff.mp hguid
  exact hcount

section MoveItems

variable {items : Side → TradedSlot → Option Item} {st : Moving} {s : Side} {i : TradedSlot}

theorem storeTraded_ownerless (dst : List ItemPosCount) :
    (storeTraded m items st s i dst).ownerless = st.ownerless := by
  unfold storeTraded
  cases items s.trader i <;> rfl

/-- Storing what a player gets leaves the other's inventory. -/
theorem storeTraded_inventory_trader (dst : List ItemPosCount) {q : Side} (h : q ≠ s) :
    (storeTraded m items st s i dst).inventory q = st.inventory q := by
  unfold storeTraded
  cases items s.trader i with
  | none => rfl
  | some item => exact Function.update_of_ne h _ _

/-- A plan made for the inventory as it is stores the pieces. -/
theorem storeTraded_pieces (storing : Storing m) (hb : (st.inventory s).Bounded)
    (h : (canTrade m items st s i).2 = true) :
    let stored := (storeTraded m items st s i (canTrade m items st s i).1).inventory s
    stored.Bounded ∧ stored.pieces =
      (st.inventory s).pieces + ((items s.trader i).map Item.count).getD 0 := by
  unfold storeTraded canTrade at *
  cases hi : items s.trader i with
  | none => exact ⟨hb, rfl⟩
  | some item =>
    rw [hi] at h
    dsimp only
    rw [Function.update_self]
    exact storing s (st.inventory s) item hb h

/-- The first of two stores does not change the plan of the second. -/
theorem canTrade_congr {st' : Moving} (h : st'.inventory s = st.inventory s) :
    canTrade m items st' s i = canTrade m items st s i := by
  unfold canTrade
  rw [h]

theorem moveItem_stores (htrader : (canTrade m items st p.trader i).2 = true)
    (hplayer : (canTrade m items st p i).2 = true) :
    moveItem m items p st i =
      storeTraded m items (storeTraded m items st p.trader i (canTrade m items st p.trader i).1) p i
        (canTrade m items st p i).1 := by
  unfold moveItem
  dsimp only
  rw [htrader, hplayer, Bool.and_self, if_pos rfl]

theorem moveItem_pieces (storing : Storing m) (hb : ∀ s, (st.inventory s).Bounded)
    (htrader : (canTrade m items st p.trader i).2 = true)
    (hplayer : (canTrade m items st p i).2 = true) (s : Side) :
    ((moveItem m items p st i).inventory s).Bounded ∧ ((moveItem m items p st i).inventory s).pieces =
      (st.inventory s).pieces + ((items s.trader i).map Item.count).getD 0 := by
  rw [moveItem_stores htrader hplayer]
  rcases Side.eq_or_eq_trader p s with rfl | rfl
  · let before := storeTraded m items st s.trader i (canTrade m items st s.trader i).1
    have hsame : before.inventory s = st.inventory s :=
      storeTraded_inventory_trader _ (Side.trader_ne s).symm
    have hplan : canTrade m items before s i = canTrade m items st s i := canTrade_congr hsame
    have hstored := storeTraded_pieces storing (hsame ▸ hb s) (hplan ▸ hplayer)
    rw [hplan, hsame] at hstored
    exact hstored
  · rw [storeTraded_inventory_trader _ (Side.trader_ne p)]
    exact storeTraded_pieces storing (hb _) htrader

/-- A loop that can store every item gives each player the pieces of the other's offer, and leaves
none without an owner. -/
theorem foldl_moveItem (storing : Storing m) {l : List TradedSlot} (hb : ∀ s, (st.inventory s).Bounded)
    (h : StoresAll m items p l st) :
    let moved := l.foldl (moveItem m items p) st
    moved.ownerless = st.ownerless ∧ ∀ s, (moved.inventory s).Bounded ∧
      (moved.inventory s).pieces = (st.inventory s).pieces + offeredPieces (items s.trader) l := by
  induction l generalizing st with
  | nil => exact ⟨rfl, fun s => ⟨hb s, rfl⟩⟩
  | cons i l ih =>
    obtain ⟨htrader, hplayer, hrest⟩ := h
    have hround := moveItem_pieces storing hb htrader hplayer
    obtain ⟨hownerless, hpieces⟩ := ih (fun s => (hround s).1) hrest
    refine ⟨?_, fun s => ⟨(hpieces s).1, ?_⟩⟩
    · rw [List.foldl_cons, hownerless, moveItem_stores htrader hplayer, storeTraded_ownerless,
        storeTraded_ownerless]
    · rw [List.foldl_cons, (hpieces s).2, (hround s).2, offeredPieces_cons, Nat.add_assoc]

end MoveItems

/-- **A sound execution makes and loses nothing**: money goes from purse to purse, pieces go from
inventory to inventory, and every item has an owner. -/
theorem executeTrade_exchanges (passed : w.Passed p t) (sound : w.Sound m p t) (storing : Storing m)
    (hb : ∀ s, (w.inventory s).Bounded) (distinct : ∀ s, Distinct (w.offered t s)) :
    Exchanges w (w.executeTrade m p t) ∧ (w.executeTrade m p t).ownerless = w.ownerless ∧
      ∀ s, ((w.executeTrade m p t).inventory s).Bounded := by
  let slots := List.finRange tradeSlotTradedCount
  let moved := moveItems m (w.offered t) p (w.taken t)
  have htaken : ∀ s, ((w.taken t).inventory s).Bounded ∧
      ((w.taken t).inventory s).pieces + offeredPieces (w.offered t s) slots =
        (w.inventory s).pieces := fun s =>
    foldl_removeItems (distinct s) (List.nodup_finRange _) (hb s) fun i _ item => offered_spec
  obtain ⟨hownerless, hmoved⟩ : moved.ownerless = [] ∧ ∀ s, (moved.inventory s).Bounded ∧
      (moved.inventory s).pieces =
        ((w.taken t).inventory s).pieces + offeredPieces (w.offered t s.trader) slots :=
    foldl_moveItem storing (fun s => (htaken s).1) sound.stores
  have hpurse := executeTrade_purse (m := m) passed sound.money
  refine ⟨⟨?_, executeTrade_purse_le passed sound.money, ?_⟩, ?_, fun s => (hmoved s).1⟩
  · obtain ⟨hle, hinitiator⟩ := hpurse .initiator
    obtain ⟨hle', htarget⟩ := hpurse .target
    rw [hinitiator, htarget]
    dsimp only [Side.trader]
    omega
  · show (moved.inventory .initiator).pieces + (moved.inventory .target).pieces = _
    rw [(hmoved .initiator).2, (hmoved .target).2, ← (htaken .initiator).2, ← (htaken .target).2]
    dsimp only [Side.trader]
    omega
  · show w.ownerless ++ moved.ownerless = w.ownerless
    rw [hownerless, List.append_nil]

/-! ## Every run -/

/-- Each item is in one slot of a player at most. -/
def Apart (t : Trades) : Prop :=
  ∀ s i j guid, (t s).items i = some guid → (t s).items j = some guid → i = j

theorem clearAccepted_items (t : Trades) (s q : Side) : (t.clearAccepted s q).items = (t q).items :=
  (Trades.setAccepted_items ..).trans (t.setAccepted_items s false q)

theorem update_items (t : Trades) (s q : Side) {d : TradeData} (h : d.items = (t s).items) :
    (Function.update t s d q).items = (t q).items := by
  rw [Function.update_apply]
  split
  · next hq => rw [h, hq]
  · rfl

theorem setSpell_items (t : Trades) (s : Side) (spell : ℕ) (castItem : Option ℕ) (q : Side) :
    (t.setSpell s spell castItem q).items = (t q).items := by
  unfold Trades.setSpell
  split
  · rfl
  · exact (clearAccepted_items ..).trans (update_items t s q rfl)

theorem refuseAccept_items (h : w.refuseAccept m p t = some t') (s : Side) : (t' s).items = (t s).items := by
  suffices hall : ∀ t', w.refuseAccept m p t = some t' → (t' s).items = (t s).items from hall t' h
  unfold refuseAccept
  repeat
    refine of_ite_some
      (by simp only [Trades.setAccepted_items, clearAccepted_items, setSpell_items]) ?_
  exact fun _ h => nomatch h

theorem Apart.congr (h : Apart t) (hitems : ∀ s, (t' s).items = (t s).items) : Apart t' := by
  intro s i j guid
  rw [hitems]
  exact h s i j guid

/-- A slot is cleared, or gets an item that is in no slot: `HandleSetTradeItemOpcode` asks `HasItem`. -/
theorem Apart.setItem (h : Apart t) (s : Side) (slot : TradeSlot) (guid : Option ℕ)
    (hnew : ∀ i g, guid = some g → (t s).items i ≠ some g) : Apart (t.setItem s slot guid false) := by
  have hput : Apart (Function.update t s { t s with items := Function.update (t s).items slot guid }) := by
    intro q i j g hi hj
    have hbefore := h q i j g
    by_cases hq : q = s
    · subst hq
      simp only [Function.update_self, Function.update_apply] at hi hj
      grind
    · rw [Function.update_of_ne hq] at hi hj
      exact hbefore hi hj
  unfold Trades.setItem
  split
  · exact h
  · refine hput.congr fun q => ?_
    split <;> simp only [clearAccepted_items, setSpell_items]

/-- The offered items are apart, and nothing is without an owner. -/
structure Tidy (w : TradeWorld) : Prop where
  apart : ∀ t, w.trade = some t → Apart t
  bounded : ∀ s, (w.inventory s).Bounded
  owned : w.ownerless = []

/-- The money and the pieces of both players. -/
noncomputable def wealth (w : TradeWorld) : ℕ × ℕ :=
  (w.purse .initiator + w.purse .target, (w.inventory .initiator).pieces + (w.inventory .target).pieces)

/-- The step stores what it promises to store. -/
def Stores (w : TradeWorld) (op : Moment × Op) : Prop :=
  Storing op.1 ∧ ∀ p, op.2 = .acceptTrade p → w.Admits op

/-- Code outside the trade does it. -/
def Op.Outside : Op → Prop
  | .inventory _ _ _ => True
  | .modifyMoney _ _ => True
  | _ => False

/-- A step of the trade keeps what both players have. -/
def Settles (w : TradeWorld) (op : Moment × Op) (w' : TradeWorld) : Prop :=
  w'.Tidy ∧ (¬ op.2.Outside → w'.wealth = w.wealth)

/-- The items on offer may change, and nothing else that the players have. -/
theorem Tidy.offer (h : w.Tidy) (op : Moment × Op) {trade : Option Trades}
    (apart : ∀ t, trade = some t → Apart t) : w.Settles op { w with trade := trade } :=
  ⟨⟨apart, h.bounded, h.owned⟩, fun _ => rfl⟩

theorem Tidy.map (h : w.Tidy) (op : Moment × Op) {f : Trades → Trades}
    (hf : ∀ t s, (f t s).items = (t s).items) : w.Settles op { w with trade := w.trade.map f } := by
  refine h.offer op fun t' ht' => ?_
  obtain ⟨t, ht, rfl⟩ := Option.map_eq_some_iff.mp ht'
  exact (h.apart t ht).congr (hf t)

theorem handleAcceptTrade_settles (h : w.Tidy) (p : Side) (stores : w.Stores (m, .acceptTrade p)) :
    w.Settles (m, .acceptTrade p) (w.handleAcceptTrade m p) := by
  obtain ⟨storing, hsound⟩ := stores
  unfold handleAcceptTrade
  cases ht : w.trade with
  | none => exact ⟨h, fun _ => rfl⟩
  | some t =>
    have hkept (s : Side) : (t.setAccepted p true s).items = (t s).items := t.setAccepted_items p true s
    dsimp only
    cases hr : (w.accept p t).refuseAccept m p (t.setAccepted p true) with
    | some t' =>
      refine ⟨⟨?_, h.bounded, h.owned⟩, fun _ => rfl⟩
      rintro _ ⟨⟩
      exact (h.apart t ht).congr fun s => (refuseAccept_items hr s).trans (hkept s)
    | none =>
      have hdistinct (s : Side) : Distinct ((w.accept p t).offered (t.setAccepted p true) s) := by
        intro i j x y hx hy hguid
        have hslot {i : TradedSlot} {x : Item}
            (hx : (w.accept p t).offered (t.setAccepted p true) s i = some x) :
            (t s).items i.slot = some x.guid := by
          obtain ⟨guid, hitem, hread⟩ := Option.bind_eq_some_iff.mp hx
          obtain ⟨count, -, rfl⟩ := Option.map_eq_some_iff.mp hread
          rw [← hkept s]
          exact hitem
        have hsame := h.apart t ht s i.slot j.slot x.guid (hslot hx) (hguid ▸ hslot hy)
        have hval : (i.slot : ℕ) = j.slot := congrArg Fin.val hsame
        exact Fin.ext hval
      obtain ⟨hexchanges, howned, hbounded⟩ := executeTrade_exchanges (passed_of_refuseAccept hr)
        (hsound p rfl t ht hr) storing h.bounded hdistinct
      refine ⟨⟨nofun, hbounded, howned.trans h.owned⟩, fun _ => ?_⟩
      exact Prod.ext hexchanges.money hexchanges.items

theorem step_settles (h : w.Tidy) (op : Moment × Op) (stores : w.Stores op) :
    w.Settles op (w.step op) := by
  obtain ⟨m, op⟩ := op
  have hsame : w.Settles (m, op) w := ⟨h, fun _ => rfl⟩
  cases op with
  | initiateTrade =>
    unfold step handleInitiateTrade
    dsimp only
    split
    · exact hsame
    · split
      · refine h.offer _ ?_
        rintro _ ⟨⟩ s i j guid hi
        cases hi
      · exact hsame
  | cancelTrade => exact h.offer _ nofun
  | setTradeGold s gold =>
    refine h.map _ fun t q => ?_
    unfold Trades.setMoney
    split_ifs
    · rfl
    · rfl
    · exact (clearAccepted_items ..).trans (update_items t s q rfl)
  | setTradeItem s slot guid =>
    unfold step handleSetTradeItem
    cases ht : w.trade with
    | none => exact hsame
    | some t =>
      dsimp only
      split_ifs
      · exact hsame
      · exact hsame
      next hhas =>
        refine h.offer _ ?_
        rintro _ ⟨⟩
        refine (h.apart t ht).setItem s _ _ fun i g hg hi => hhas ?_
        exact List.any_eq_true.mpr ⟨i, List.mem_finRange i, by simpa [hg] using hi⟩
      · exact hsame
  | clearTradeItem s slot =>
    unfold step handleClearTradeItem
    cases ht : w.trade with
    | none => exact hsame
    | some t =>
      dsimp only
      split_ifs
      · refine h.offer _ ?_
        rintro _ ⟨⟩
        exact (h.apart t ht).setItem s _ none nofun
      · exact hsame
  | unacceptTrade s => exact h.map _ fun t => t.setAccepted_items s false
  | acceptTrade p => exact handleAcceptTrade_settles h p stores
  | inventory s guid now =>
    refine ⟨⟨h.apart, fun q => ?_, h.owned⟩, fun hinside => absurd trivial hinside⟩
    rcases Side.eq_or_eq_trader s q with rfl | rfl
    · simpa only [step, Function.update_self] using (h.bounded q).update guid now
    · simpa only [step, Function.update_of_ne (Side.trader_ne s)] using h.bounded s.trader
  | modifyMoney s amount => exact ⟨⟨h.apart, h.bounded, h.owned⟩, fun hinside => absurd trivial hinside⟩

/-- **Trades make and lose nothing.** In every run whose accepts are sound, no step of the two sessions
changes how much money and how many pieces both players have together, and nothing is ever without an
owner. -/
theorem trades_conserve (purse : Side → ℕ) (inventory : Side → Inventory) (ops : List (Moment × Op))
    (bounded : ∀ s, (inventory s).Bounded) (stores : AllAlong step Stores (initial purse inventory) ops) :
    AllAlong step (fun w op => ¬ op.2.Outside → (w.step op).wealth = w.wealth) (initial purse inventory) ops ∧
      (ops.foldl step (initial purse inventory)).ownerless = [] := by
  have init : (initial purse inventory).Tidy := ⟨nofun, bounded, rfl⟩
  have keeps (w : TradeWorld) (op : Moment × Op) (h : w.Tidy) (stores : w.Stores op) :
      w.Settles op (w.step op) := step_settles h op stores
  exact ⟨stores.mono_of_keeps (fun w op h s => (keeps w op h s).1) (fun w op h s => (keeps w op h s).2) init,
    (Lib.foldl_keeps_of_allAlong (fun w op h s => (keeps w op h s).1) init stores).owned⟩

/-! ## Deleted trades -/

/-- **An accept keeps its duty just where it does not execute the trade.** -/
theorem accept_conserves_iff (w : TradeWorld) (m : Moment) (p : Side) :
    Conserves w (w.handleAcceptTrade m p) ↔ ¬ w.Executes m p := by
  unfold handleAcceptTrade Executes
  cases w.trade with
  | none => exact iff_of_true ⟨.inl ⟨rfl, rfl⟩, rfl, rfl⟩ fun ⟨_, ht, _⟩ => nomatch ht
  | some t =>
    dsimp only
    cases hr : (w.accept p t).refuseAccept m p (t.setAccepted p true) with
    | some t' =>
      refine iff_of_true ⟨.inl ⟨rfl, rfl⟩, rfl, rfl⟩ ?_
      rintro ⟨_, ⟨⟩, hpass⟩
      exact nomatch hr.symm.trans hpass
    | none =>
      refine iff_of_false (fun h => ?_) fun h => h ⟨t, rfl, hr⟩
      -- both logged amounts are of deleted trades
      have hreads : w.staleReads + 2 = w.staleReads := h.alive
      omega

/-- Items are stored where their guids are free. -/
def storingMoment : Moment :=
  { allowingMoment with canStoreItem := fun _ inventory dst item => (dst, (inventory item.guid).isNone) }

theorem storing_storingMoment : Storing storingMoment := by
  intro s inventory item hb hfree
  have hupdate := Inventory.pieces_update item.guid (some item.count) hb
  rw [Option.isNone_iff_eq_none.mp hfree] at hupdate
  exact ⟨hb.update _ _, hupdate⟩

/-- The stack of twenty goes for 50. -/
def stackSold : List (Moment × Op) :=
  [.initiateTrade, .setTradeItem .initiator 0 1, .setTradeGold .target 50, .acceptTrade .target,
    .acceptTrade .initiator].map fun op => (storingMoment, op)

theorem stackSold_conserves :
    AllAlong step (fun w op => ¬ op.2.Outside → (w.step op).wealth = w.wealth)
        (initial (fun _ => 100) stackOfTwenty) stackSold ∧
      (stackSold.foldl step (initial (fun _ => 100) stackOfTwenty)).ownerless = [] := by
  refine trades_conserve _ _ _ (fun s => ?_) ?_
  · refine (Set.finite_singleton 1).subset fun guid hguid => ?_
    by_contra hne
    exact hguid (congrArg (fun c : Option ℕ => c.getD 0) (if_neg fun h => hne h.2))
  · have hsound {w : TradeWorld} {p : Side} (h : ∀ t, w.trade = some t →
        (w.accept p t).Sound storingMoment p (t.setAccepted p true)) :
        w.Stores (storingMoment, .acceptTrade p) :=
      ⟨storing_storingMoment, fun _ heq t ht _ => by cases heq; exact h t ht⟩
    refine ⟨⟨storing_storingMoment, nofun⟩, ⟨storing_storingMoment, nofun⟩, ⟨storing_storingMoment, nofun⟩,
      hsound ?_, hsound ?_, trivial⟩
    all_goals
      rintro t ⟨⟩
      refine ⟨fun s => by cases s <;> decide, moved_eq_iff.mpr fun s => funext fun i => ?_⟩
      revert i
      cases s <;> decide +kernel

/-- The stack of twenty is offered, and both accept. -/
def stackAgreed : TradeWorld :=
  ([.initiateTrade, .setTradeItem .initiator 0 1, .setTradeGold .target 50, .acceptTrade .target].map
    fun op => (allowingMoment, op)).foldl step (initial (fun _ => 100) stackOfTwenty)

theorem stackAgreed_not_conserved :
    ¬ Conserves stackAgreed (stackAgreed.handleAcceptTrade allowingMoment .initiator) := by
  intro h
  have hreads : (stackAgreed.handleAcceptTrade allowingMoment .initiator).staleReads = 2 := by
    decide +kernel
  have hnone : stackAgreed.staleReads = 0 := by decide +kernel
  have := h.alive
  omega

end TradeWorld

end Sunstrider.Trade
