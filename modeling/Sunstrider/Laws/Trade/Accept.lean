import Sunstrider.Trade.TradeData
import Sunstrider.Lib.Run

/-!
# What both sides accepted

`AcceptsStand` says that a set accept flag means the offers that stand: they are the ones that were on
the table when the flag was set. The setters of `TradeData` keep this, since each clears both flags
when it changes something. `Item::SetCount` and the removal of an item do not tell the trade.

`trade_executes_agreed_offers_iff` says exactly when a run keeps to what was accepted: when nothing
but the setters changes an offer under a set flag, the money of an execution is in the range of
signed words, and its items can be stored as `CanStoreItems` promised.
-/

namespace Sunstrider.Trade

open Sunstrider.Lib (toInt32 toInt32_eq subU32 subU32_eq AllAlong always_iff_allAlong)
open Sunstrider.Player (hasEnoughMoney modifyMoney maxMoneyAmount modifyMoney_pay modifyMoney_gain)

@[simp] theorem Side.trader_trader (s : Side) : s.trader.trader = s := by cases s <;> rfl

@[simp] theorem Side.trader_ne (s : Side) : s.trader ≠ s := by cases s <;> decide

theorem Side.eq_or_eq_trader (p s : Side) : s = p ∨ s = p.trader := by
  cases p <;> cases s <;> simp [Side.trader]

/-- The deal hands over what both players' accepts were about. -/
def Deal.Honest (d : Deal) : Prop :=
  ∀ p, ∃ o, d.agreed p = some o ∧
    ∀ s, d.lost s = (o s).money ∧ d.gained s = (o s).money ∧ d.items s = (o s).items

/-! ## The setters clear both flags -/

namespace Trades

variable (t : Trades) (s : Side)

/-- Nobody has accepted. -/
def Open (t : Trades) : Prop := ∀ p, (t p).accepted = false

theorem clearAccepted_open : (t.clearAccepted s).Open := fun p => by
  cases s <;> cases p <;> rfl

theorem setSpell_open (spell : ℕ) (castItem : Option ℕ) :
    t.setSpell s spell castItem = t ∨ (t.setSpell s spell castItem).Open := by
  unfold setSpell
  split
  · exact .inl rfl
  · exact .inr (clearAccepted_open _ s)

theorem setItem_open (slot : TradeSlot) (guid : Option ℕ) (update : Bool) :
    t.setItem s slot guid update = t ∨ (t.setItem s slot guid update).Open := by
  have hspell : ∀ {t' : Trades} (s' : Side), t'.Open → (t'.setSpell s' 0 none).Open := by
    intro t' s' h
    rcases setSpell_open t' s' 0 none with heq | hopen
    · rw [heq]
      exact h
    · exact hopen
  unfold setItem
  split
  · exact .inl rfl
  · refine .inr (hspell s ?_)
    split
    · exact hspell s.trader (clearAccepted_open _ s)
    · exact clearAccepted_open _ s

theorem setMoney_open (purse money : ℕ) :
    t.setMoney s purse money = t ∨ (t.setMoney s purse money).Open := by
  unfold setMoney
  split
  · exact .inl rfl
  · split
    · exact .inl rfl
    · exact .inr (clearAccepted_open _ s)

theorem setAccepted_money (state : Bool) (p : Side) :
    (t.setAccepted s state p).money = (t p).money := by
  unfold setAccepted
  rw [Function.update_apply]
  split
  · next h => rw [h]
  · rfl

theorem setAccepted_items (state : Bool) (p : Side) :
    (t.setAccepted s state p).items = (t p).items := by
  unfold setAccepted
  rw [Function.update_apply]
  split
  · next h => rw [h]
  · rfl

theorem accepted_of_setAccepted_false {p : Side} (h : (t.setAccepted s false p).accepted) :
    (t p).accepted := by
  unfold setAccepted at h
  rw [Function.update_apply] at h
  split at h
  · cases h
  · exact h

end Trades

namespace TradeWorld

variable {w w' : TradeWorld} {m : Moment} {p : Side} {t t' : Trades}

/-! ## Offers -/

theorem offers_congr (hmoney : ∀ s, (t' s).money = (t s).money)
    (hitems : ∀ s, (t' s).items = (t s).items) (hinventory : w'.inventory = w.inventory) :
    w'.offers t' = w.offers t := by
  funext s
  unfold offers getItem TradeData.getItem
  rw [hmoney, hitems, hinventory]

theorem offers_setAccepted (w : TradeWorld) (t : Trades) (s : Side) (state : Bool) :
    w.offers (t.setAccepted s state) = w.offers t :=
  offers_congr (t.setAccepted_money s state) (t.setAccepted_items s state) rfl

/-- A flag that is still set was set before, and means the same offers. -/
def Lowers (w : TradeWorld) (t t' : Trades) : Prop :=
  ∀ p, (t' p).accepted → (t p).accepted ∧ w.offers t' = w.offers t

theorem lowers_of_open (h : t' = t ∨ t'.Open) : w.Lowers t t' := by
  intro p hp
  rcases h with rfl | h
  · exact ⟨hp, rfl⟩
  · rw [h p] at hp
    cases hp

theorem lowers_setAccepted (w : TradeWorld) (t : Trades) (s : Side) :
    w.Lowers t (t.setAccepted s false) := fun _ hp =>
  ⟨t.accepted_of_setAccepted_false s hp, w.offers_setAccepted t s false⟩

/-! ## Flags that stand -/

/-- A set flag was set over the offers that stand. -/
def AcceptsStand (w : TradeWorld) : Prop :=
  ∀ t, w.trade = some t → ∀ p, (t p).accepted → w.agreed p = some (w.offers t)

theorem AcceptsStand.lower (h : w.AcceptsStand) (ht : w.trade = some t) (hl : w.Lowers t t') :
    ({ w with trade := some t' } : TradeWorld).AcceptsStand := by
  intro t₁ ht₁ p hp
  cases ht₁
  obtain ⟨hp, hoffers⟩ := hl p hp
  exact (h t ht p hp).trans (congrArg some hoffers.symm)

theorem AcceptsStand.map (h : w.AcceptsStand) {f : Trades → Trades}
    (hf : ∀ t, w.Lowers t (f t)) :
    ({ w with trade := w.trade.map f } : TradeWorld).AcceptsStand := by
  cases ht : w.trade with
  | none => exact fun _ ht => nomatch ht
  | some t => exact h.lower ht (hf t)

theorem AcceptsStand.accept (h : w.AcceptsStand) (ht : w.trade = some t) (p : Side) :
    (w.accept p t).AcceptsStand := by
  intro t' ht' q hq
  cases ht'
  have hoffers : (w.accept p t).offers (t.setAccepted p true) = w.offers t :=
    offers_setAccepted w t p true
  rw [hoffers]
  show Function.update w.agreed p (some (w.offers t)) q = _
  unfold Trades.setAccepted at hq
  rw [Function.update_apply] at hq ⊢
  split
  · rfl
  · next hne =>
    rw [if_neg hne] at hq
    exact h t ht q hq

/-! ## The checks of an accept -/

theorem of_ite_some {α : Type} {P : α → Prop} {c : Prop} [Decidable c] {x : α} {y : Option α}
    (hx : P x) (hy : ∀ z, y = some z → P z) : ∀ z, (if c then some x else y) = some z → P z := by
  intro z hz
  split at hz
  · cases hz
    exact hx
  · exact hy z hz

/-- A check that fails clears flags and changes no offer. -/
theorem refuseAccept_lowers (h : w.refuseAccept m p t = some t') : w.Lowers t t' := by
  have hself : w.Lowers t t := fun _ hp => ⟨hp, rfl⟩
  have hspell (s : Side) : w.Lowers t (t.setSpell s 0 none) := lowers_of_open (t.setSpell_open s 0 none)
  have hclear : w.Lowers t (t.clearAccepted p) := lowers_of_open (.inr (t.clearAccepted_open p))
  have haccepted (s : Side) := lowers_setAccepted w t s
  suffices hall : ∀ t', w.refuseAccept m p t = some t' → w.Lowers t t' from hall t' h
  unfold refuseAccept
  refine of_ite_some (haccepted p) ?_
  refine of_ite_some (haccepted p) ?_
  refine of_ite_some (haccepted p.trader) ?_
  refine of_ite_some (haccepted p) ?_
  refine of_ite_some (haccepted p.trader) ?_
  -- untradable items, or a trade that the other has not accepted
  refine of_ite_some hself ?_
  refine of_ite_some hself ?_
  -- spells
  refine of_ite_some (hspell p) ?_
  refine of_ite_some (hspell p.trader) ?_
  -- room for the items
  refine of_ite_some hclear ?_
  refine of_ite_some hclear ?_
  exact fun _ h => nomatch h

/-- What an execution has checked. -/
structure Passed (w : TradeWorld) (p : Side) (t : Trades) : Prop where
  enough : ∀ s, hasEnoughMoney (w.purse s) (toInt32 (t s).money) = true
  room : ∀ s, w.purse s < subU32 maxMoneyAmount (t s.trader).money
  accepted : (t p.trader).accepted = true

theorem ite_some_eq_none {α : Type} {c : Prop} [Decidable c] {x : α} {y : Option α} :
    (if c then some x else y) = none ↔ ¬ c ∧ y = none := by
  by_cases h : c <;> simp [h]

theorem passed_of_refuseAccept (h : w.refuseAccept m p t = none) : w.Passed p t := by
  simp only [refuseAccept, ite_some_eq_none] at h
  obtain ⟨-, hp, hq, hroom, hroom', -, hacc, -⟩ := h
  refine ⟨fun s => ?_, fun s => ?_, by simpa using hacc⟩
  · rcases Side.eq_or_eq_trader p s with rfl | rfl
    · simpa using hp
    · simpa using hq
  · rcases Side.eq_or_eq_trader p s with rfl | rfl
    · exact not_le.mp hroom
    · rw [Side.trader_trader]
      exact not_le.mp hroom'

/-! ## Money of an execution -/

variable {money purse : ℕ}

theorem given_eq (hlt : money < 2 ^ 31) (h : hasEnoughMoney purse (toInt32 money) = true) :
    money ≤ purse ∧ modifyMoney purse (-toInt32 money) = purse - money := by
  rw [toInt32_eq hlt] at h ⊢
  have hle : money ≤ purse := by
    unfold hasEnoughMoney at h
    split at h
    · simpa using h
    · next h0 => omega
  exact ⟨hle, modifyMoney_pay hle⟩

theorem given_ne (h : 2 ^ 31 ≤ money) :
    (purse : ℤ) - modifyMoney purse (-toInt32 money) ≠ money := by
  have hsmall : toInt32 money < 2 ^ 31 := by
    unfold toInt32
    split <;> omega
  unfold modifyMoney
  split
  · omega
  · split
    · split <;> omega
    · split <;> omega

theorem got_eq {given : ℕ} (hlt : money < 2 ^ 31) (hle : given ≤ purse)
    (hroom : purse < subU32 maxMoneyAmount money) :
    modifyMoney given (toInt32 money) = given + money := by
  have hmax : money ≤ maxMoneyAmount := by
    unfold maxMoneyAmount
    omega
  rw [subU32_eq hmax (by decide)] at hroom
  rw [toInt32_eq hlt]
  exact modifyMoney_gain (by omega)

/-! ## Items of an execution -/

section MoveItems

variable {items : Side → TradedSlot → Option Item}

/-- Every item can be stored when its turn comes. -/
def StoresAll (m : Moment) (items : Side → TradedSlot → Option Item) (p : Side) :
    List TradedSlot → Moving → Prop
  | [], _ => True
  | i :: l, st =>
    (canTrade m items st p.trader i).2 = true ∧ (canTrade m items st p i).2 = true ∧
      StoresAll m items p l (moveItem m items p st i)

theorem storeTraded_moved (st : Moving) (s : Side) (i : TradedSlot) (dst : List ItemPosCount)
    (q : Side) (j : TradedSlot) : (storeTraded m items st s i dst).moved q j =
      if q = s.trader ∧ j = i ∧ (items q i).isSome then items q i else st.moved q j := by
  unfold storeTraded
  cases h : items s.trader i with
  | none =>
    rw [if_neg]
    rintro ⟨rfl, -, hs⟩
    rw [h] at hs
    cases hs
  | some item =>
    show Function.update st.moved s.trader (Function.update (st.moved s.trader) i (some item)) q j = _
    by_cases hq : q = s.trader
    · subst hq
      by_cases hj : j = i
      · subst hj
        simp [h]
      · simp [hj]
    · simp [hq]

theorem giveBack_moved (st : Moving) (s : Side) (i : TradedSlot) (dst : List ItemPosCount) :
    (giveBack m items st s i dst).moved = st.moved := by
  unfold giveBack
  cases items s i with
  | none => rfl
  | some item =>
    dsimp only
    split <;> rfl

/-- One round moves the items of its slot, if both can be stored, and no other. -/
theorem moveItem_moved (st : Moving) (i : TradedSlot) (q : Side) (j : TradedSlot) :
    (moveItem m items p st i).moved q j =
      if j = i ∧ (canTrade m items st p.trader i).2 = true ∧ (canTrade m items st p i).2 = true ∧
        (items q i).isSome then items q i else st.moved q j := by
  unfold moveItem
  dsimp only
  split
  next h =>
    rw [Bool.and_eq_true] at h
    rw [storeTraded_moved, storeTraded_moved, Side.trader_trader]
    rcases Side.eq_or_eq_trader p q with rfl | rfl
    · simp [h, Side.trader_ne q |>.symm]
    · simp [h]
  next h =>
    rw [Bool.and_eq_true] at h
    rw [giveBack_moved, giveBack_moved, if_neg fun hc => h ⟨hc.2.1, hc.2.2.1⟩]

theorem foldl_moved_of_not_mem {l : List TradedSlot} (st : Moving) (q : Side) {j : TradedSlot}
    (h : j ∉ l) : (l.foldl (moveItem m items p) st).moved q j = st.moved q j := by
  induction l generalizing st with
  | nil => rfl
  | cons i l ih =>
    rw [List.mem_cons, not_or] at h
    rw [List.foldl_cons, ih _ h.2, moveItem_moved, if_neg fun hc => h.1 hc.1]

/-- The loop moves all items just if each can be stored when its turn comes. -/
theorem storesAll_iff {l : List TradedSlot} (hl : l.Nodup) (st : Moving)
    (hnone : ∀ q, ∀ j ∈ l, st.moved q j = none) :
    StoresAll m items p l st ↔
      ∀ q, ∀ j ∈ l, (l.foldl (moveItem m items p) st).moved q j = items q j := by
  induction l generalizing st with
  | nil => exact ⟨fun _ _ _ h => (nomatch h), fun _ => trivial⟩
  | cons i l ih =>
    rw [List.nodup_cons] at hl
    have hrest : ∀ q, ∀ j ∈ l, (moveItem m items p st i).moved q j = none := fun q j hj => by
      have hne : j ≠ i := fun h => hl.1 (h ▸ hj)
      rw [moveItem_moved, if_neg fun hc => hne hc.1]
      exact hnone q j (List.mem_cons_of_mem i hj)
    -- the slot of this round is not touched again
    have hhead : ∀ q, ((i :: l).foldl (moveItem m items p) st).moved q i =
        if (canTrade m items st p.trader i).2 = true ∧ (canTrade m items st p i).2 = true ∧
          (items q i).isSome then items q i else none := fun q => by
      rw [List.foldl_cons, foldl_moved_of_not_mem _ q hl.1, moveItem_moved,
        hnone q i List.mem_cons_self]
      simp
    constructor
    · rintro ⟨htrader, hplayer, hstores⟩ q j hj
      rcases List.mem_cons.mp hj with rfl | hj
      · rw [hhead, htrader, hplayer]
        cases items q j <;> simp
      · exact (ih hl.2 _ hrest).mp hstores q j hj
    · intro h
      have hi : ∀ q, (items q i).isSome →
          (canTrade m items st p.trader i).2 = true ∧ (canTrade m items st p i).2 = true := by
        intro q hs
        have hq := h q i List.mem_cons_self
        rw [hhead] at hq
        split at hq
        · next hc => exact ⟨hc.1, hc.2.1⟩
        · rw [← hq] at hs
          cases hs
      -- what cannot be stored is an item, and then it has not moved
      have hcan : ∀ s, (canTrade m items st s i).2 = true := by
        intro s
        cases hs : items s.trader i with
        | none =>
          unfold canTrade
          rw [hs]
        | some item =>
          obtain ⟨htrader, hplayer⟩ := hi s.trader (by rw [hs]; rfl)
          rcases Side.eq_or_eq_trader p s with rfl | rfl
          · exact hplayer
          · exact htrader
      refine ⟨hcan p.trader, hcan p, (ih hl.2 _ hrest).mpr fun q j hj => ?_⟩
      exact h q j (List.mem_cons_of_mem i hj)

end MoveItems

/-! ## An execution -/

/-- The items of both offers. -/
abbrev offered (w : TradeWorld) (t : Trades) : Side → TradedSlot → Option Item :=
  fun s => (w.offers t s).items

/-- The inventories when the items are taken, at the start of `moveItems`. -/
def taken (w : TradeWorld) (t : Trades) : Moving :=
  ⟨fun s => removeItems (w.inventory s) (w.offered t s), fun _ _ => none, []⟩

/-- Money in the range of signed words, and items that can be stored. -/
structure Sound (w : TradeWorld) (m : Moment) (p : Side) (t : Trades) : Prop where
  money : ∀ s, (t s).money < 2 ^ 31
  stores : StoresAll m (w.offered t) p (List.finRange tradeSlotTradedCount) (w.taken t)

theorem moved_eq_iff : StoresAll m (w.offered t) p (List.finRange tradeSlotTradedCount) (w.taken t) ↔
    ∀ s, (moveItems m (w.offered t) p (w.taken t)).moved s = w.offered t s := by
  rw [storesAll_iff (List.nodup_finRange _) _ fun _ _ _ => rfl]
  constructor
  · exact fun h s => funext fun j => h s j (List.mem_finRange j)
  · exact fun h s j _ => congrFun (h s) j

theorem executeTrade_deals (w : TradeWorld) (m : Moment) (p : Side) (t : Trades) :
    (w.executeTrade m p t).deals = w.deals ++ [
      { agreed := w.agreed
        lost := fun s => w.purse s - modifyMoney (w.purse s) (-toInt32 (t s).money)
        gained := fun s =>
          modifyMoney (modifyMoney (w.purse s.trader) (-toInt32 (t s.trader).money))
            (toInt32 (t s.trader.trader).money) -
          modifyMoney (w.purse s.trader) (-toInt32 (t s.trader).money)
        items := (moveItems m (w.offered t) p (w.taken t)).moved }] := rfl

/-- An execution hands over what both accepted just if it is sound. -/
theorem honest_iff_sound (m : Moment) (h : w.AcceptsStand) (ht : w.trade = some t)
    (hacc : ∀ s, (t s).accepted) (passed : w.Passed p t) :
    (∀ d ∈ (w.executeTrade m p t).deals, d.Honest) ↔ (∀ d ∈ w.deals, d.Honest) ∧ w.Sound m p t := by
  have hagreed : ∀ s, w.agreed s = some (w.offers t) := fun s => h t ht s (hacc s)
  rw [executeTrade_deals, List.forall_mem_append, List.forall_mem_singleton]
  refine and_congr_right fun _ => ⟨fun hd => ?_, fun hs q => ?_⟩
  · obtain ⟨o, ho, hdeal⟩ := hd p
    cases (hagreed p).symm.trans ho
    refine ⟨fun s => ?_, moved_eq_iff.mpr fun s => (hdeal s).2.2⟩
    by_contra hge
    exact given_ne (not_lt.mp hge) (hdeal s).1
  · refine ⟨w.offers t, hagreed q, fun s => ⟨?_, ?_, moved_eq_iff.mp hs.stores s⟩⟩
    · obtain ⟨hle, hgiven⟩ := given_eq (hs.money s) (passed.enough s)
      dsimp only
      rw [hgiven]
      exact (Int.ofNat_sub hle ▸ Int.sub_sub_self _ _)
    · obtain ⟨-, hgiven⟩ := given_eq (hs.money s.trader) (passed.enough s.trader)
      have hroom := passed.room s.trader
      rw [Side.trader_trader] at hroom
      have hgot := got_eq (hs.money s) (Nat.sub_le (w.purse s.trader) (t s.trader).money) hroom
      dsimp only
      rw [hgiven, Side.trader_trader, hgot, Nat.cast_add]
      exact add_sub_cancel_left _ _

/-! ## Steps -/

/-- The deals are honest, and the flags that are set stand. -/
structure HonestTrade (w : TradeWorld) : Prop where
  deals : ∀ d ∈ w.deals, d.Honest
  stand : w.AcceptsStand

/-- What keeps a step honest. -/
def Admits (w : TradeWorld) : Moment × Op → Prop
  | (m, .acceptTrade p) => ∀ t, w.trade = some t →
      (w.accept p t).refuseAccept m p (t.setAccepted p true) = none →
      (w.accept p t).Sound m p (t.setAccepted p true)
  | (_, .inventory s guid now) => ∀ t, w.trade = some t → (∃ p, (t p).accepted) →
      (∃ i : TradedSlot, (t s).items i.slot = some guid) → w.inventory s guid = now
  | _ => True

theorem initial_honest (purse : Side → ℕ) (inventory : Side → Inventory) :
    (initial purse inventory).HonestTrade :=
  ⟨fun _ h => (nomatch h), fun _ h => (nomatch h)⟩

section Steps

theorem accepted_both (passed : (w.accept p t).Passed p (t.setAccepted p true)) (s : Side) :
    (t.setAccepted p true s).accepted = true := by
  rcases Side.eq_or_eq_trader p s with rfl | rfl
  · rw [Trades.setAccepted, Function.update_self]
  · exact passed.accepted

theorem handleAcceptTrade_honest_iff (h : w.HonestTrade) (m : Moment) (p : Side) :
    (w.handleAcceptTrade m p).HonestTrade ↔ w.Admits (m, .acceptTrade p) := by
  unfold handleAcceptTrade Admits
  cases ht : w.trade with
  | none => exact ⟨fun _ _ h => (nomatch h), fun _ => h⟩
  | some t =>
    have hstand := h.stand.accept ht p
    dsimp only
    cases hr : (w.accept p t).refuseAccept m p (t.setAccepted p true) with
    | some t' =>
      refine ⟨fun _ t₁ ht₁ hr₁ => ?_, fun _ => ⟨h.deals, hstand.lower rfl (refuseAccept_lowers hr)⟩⟩
      cases ht₁
      rw [hr] at hr₁
      cases hr₁
    | none =>
      have passed := passed_of_refuseAccept hr
      have hiff := honest_iff_sound m hstand rfl (accepted_both passed) passed
      constructor
      · intro hw t₁ ht₁ _
        cases ht₁
        exact (hiff.mp hw.deals).2
      · intro hs
        exact ⟨hiff.mpr ⟨h.deals, hs t rfl hr⟩, fun _ h => (nomatch h)⟩

/-- Offers read an inventory under the guids of the traded slots only. -/
theorem offers_inventory {s : Side} {guid : ℕ} {now : Option ℕ}
    (h : (∃ i : TradedSlot, (t s).items i.slot = some guid) → w.inventory s guid = now) :
    ({ w with inventory :=
        Function.update w.inventory s (Function.update (w.inventory s) guid now) } :
      TradeWorld).offers t = w.offers t := by
  funext q
  unfold offers getItem TradeData.getItem
  congr 1
  funext i
  cases hi : (t q).items i.slot with
  | none => rfl
  | some g =>
    by_cases hq : q = s
    · subst hq
      by_cases hg : g = guid
      · subst hg
        simp [h ⟨i, hi⟩]
      · simp [hg]
    · simp [hq]

theorem inventory_honest_iff (h : w.HonestTrade) (m : Moment) (s : Side) (guid : ℕ)
    (now : Option ℕ) :
    (w.step (m, .inventory s guid now)).HonestTrade ↔ w.Admits (m, .inventory s guid now) := by
  constructor
  · rintro hw t ht ⟨p, hp⟩ ⟨i, hi⟩
    -- the player's accept is about the offers of before and of now
    have hold := h.stand t ht p hp
    have hnew := hw.stand t ht p hp
    have heq := congrFun (congrArg Offer.items (congrFun (Option.some.inj (hold.symm.trans hnew)) s)) i
    simp only [offers, getItem, TradeData.getItem, hi, Option.bind_some, step, Function.update_self]
      at heq
    cases hw : w.inventory s guid <;> cases now <;> simp_all
  · intro hadm
    refine ⟨h.deals, fun t ht p hp => ?_⟩
    have hoffers := offers_inventory (hadm t ht ⟨p, hp⟩)
    exact (h.stand t ht p hp).trans (congrArg some hoffers.symm)

/-- **A step keeps the trade honest just if it is admitted.** -/
theorem step_honest_iff (h : w.HonestTrade) (op : Moment × Op) :
    (w.step op).HonestTrade ↔ w.Admits op := by
  obtain ⟨m, op⟩ := op
  have hset : ∀ f : Trades → Trades, (∀ t, w.Lowers t (f t)) →
      ({ w with trade := w.trade.map f } : TradeWorld).HonestTrade := fun f hf =>
    ⟨h.deals, h.stand.map hf⟩
  cases op with
  | acceptTrade p => exact handleAcceptTrade_honest_iff h m p
  | inventory s guid now => exact inventory_honest_iff h m s guid now
  | initiateTrade =>
    refine iff_of_true ?_ trivial
    show (w.handleInitiateTrade m).HonestTrade
    unfold handleInitiateTrade
    cases ht : w.trade with
    | some t => exact h
    | none =>
      dsimp only
      split
      · refine ⟨h.deals, fun t ht p hp => ?_⟩
        cases ht
        cases hp
      · exact h
  | cancelTrade => exact iff_of_true ⟨h.deals, fun _ ht => (nomatch ht)⟩ trivial
  | setTradeGold s gold =>
    exact iff_of_true (hset _ fun t => lowers_of_open (t.setMoney_open s _ _)) trivial
  | setTradeItem s slot guid =>
    refine iff_of_true ?_ trivial
    show (w.handleSetTradeItem m s slot guid).HonestTrade
    unfold handleSetTradeItem
    cases ht : w.trade with
    | none => exact h
    | some t =>
      dsimp only
      split
      · split
        · exact h
        · split
          · exact h
          · exact ⟨h.deals, h.stand.lower ht (lowers_of_open (t.setItem_open s _ _ _))⟩
      · exact h
  | clearTradeItem s slot =>
    refine iff_of_true ?_ trivial
    show (w.handleClearTradeItem s slot).HonestTrade
    unfold handleClearTradeItem
    cases ht : w.trade with
    | none => exact h
    | some t =>
      dsimp only
      split
      · exact ⟨h.deals, h.stand.lower ht (lowers_of_open (t.setItem_open s _ _ _))⟩
      · exact h
  | unacceptTrade s => exact iff_of_true (hset _ fun t => lowers_setAccepted w t s) trivial
  | modifyMoney s amount => exact iff_of_true ⟨h.deals, h.stand⟩ trivial

end Steps

/-! ## Every run -/

/-- **A run keeps to what was accepted just if every step is admitted**: no stack that lies in a traded
slot changes under a set flag, and an execution has its money in range and can store its items. -/
theorem trade_executes_agreed_offers_iff (purse : Side → ℕ) (inventory : Side → Inventory)
    (ops : List (Moment × Op)) :
    (∀ l, l <+: ops → (l.foldl step (initial purse inventory)).HonestTrade) ↔
      AllAlong step Admits (initial purse inventory) ops := by
  have keeps : ∀ (w : TradeWorld) op, w.HonestTrade → w.Admits op → (w.step op).HonestTrade :=
    fun _ op h => (step_honest_iff h op).mpr
  have breaks : ∀ (w : TradeWorld) op, w.HonestTrade → (w.step op).HonestTrade → w.Admits op :=
    fun _ op h => (step_honest_iff h op).mp
  exact always_iff_allAlong keeps (fun _ h => h) breaks (initial_honest purse inventory) ops

/-! ## A stack that shrinks after the accept -/

/-- A server that allows everything and stores items as they are. -/
def allowingMoment : Moment :=
  { canTrade := true
    isWithinDistInMap := true
    canBeTraded := fun _ => true
    isBindedNotWith := fun _ _ => false
    spellExists := fun _ => false
    checkCast := fun _ => false
    canStoreItems := fun _ _ _ => true
    canStoreItem := fun _ _ dst _ => (dst, true)
    moveItemToInventory := fun _ inventory _ item =>
      Function.update inventory item.guid (some item.count) }

/-- One player has a stack of 20 under the guid 1. -/
def stackOfTwenty : Side → Inventory := fun s guid =>
  if s = .initiator ∧ guid = 1 then some 20 else none

/-- The stack is offered, the other accepts, all but one are split off, and the offer is accepted. -/
def splitAfterAccept : List (Moment × Op) :=
  [.initiateTrade, .setTradeItem .initiator 0 1, .acceptTrade .target, .inventory .initiator 1 (some 1),
    .acceptTrade .initiator].map fun op => (allowingMoment, op)

theorem split_after_accept_executes :
    ¬ (splitAfterAccept.foldl step (initial (fun _ => 0) stackOfTwenty)).HonestTrade := by
  have hdeals : (splitAfterAccept.foldl step (initial (fun _ => 0) stackOfTwenty)).deals.map
      (fun d => (d.items .initiator ⟨0, by decide⟩,
        (d.agreed .target).map fun o => (o .initiator).items ⟨0, by decide⟩)) =
      [(some ⟨1, 1⟩, some (some ⟨1, 20⟩))] := by decide +kernel
  intro h
  obtain ⟨d, hd, heq⟩ := List.map_eq_singleton_iff.mp hdeals
  obtain ⟨o, ho, hdeal⟩ := h.deals d (by rw [hd]; exact List.mem_singleton_self d) .target
  -- the stack that was handed over is not the stack that was agreed on
  rw [Prod.mk.injEq, ho, (hdeal .initiator).2.2, Option.map_some, Option.some.injEq] at heq
  cases heq.1.symm.trans heq.2

end TradeWorld

end Sunstrider.Trade
