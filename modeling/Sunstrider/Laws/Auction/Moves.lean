import Sunstrider.Auction.AuctionHouse
import Sunstrider.Lib.Run
import Mathlib.Logic.Relation

/-!
# What the auction house can do

`Move` lists the five changes that the handlers make, each with what the handler has checked by then.
`step_moves` says that every operation is some moves, one after another: none where a check fails, one
for a request of a player, and one for each auction that ends in an update. An invariant is then a
matter of the five moves (`keeps_of_move`).

`AuctionWorld.Inv` is the invariant that all the rest builds on: auctions keep their ids apart, money
stays in range, and a standing bid is below the buyout.
-/

namespace Sunstrider.Auction.AuctionWorld

open Sunstrider.Lib (addU32 subU32 mulU32 toInt32 replaceKey removeKey mem_replaceKey mem_removeKey
  map_key_replaceKey nodup_removeKey find_spec eq_of_key)
open Sunstrider.Player (maxMoneyAmount modifyMoney_le)

variable {C : Type} {cfg : AuctionConfig} {acc : Accounts C} {m : Moment C} {w : AuctionWorld C}

/-! ## Which fields the mails leave alone -/

/-- Mails and items that come and go: purses, auctions, events and ids are as before. -/
structure SameDeals (w w' : AuctionWorld C) : Prop where
  purse : w'.purse = w.purse
  auctions : w'.auctions = w.auctions
  history : w'.history = w.history
  nextAuctionId : w'.nextAuctionId = w.nextAuctionId

theorem SameDeals.refl (w : AuctionWorld C) : w.SameDeals w := ⟨rfl, rfl, rfl, rfl⟩

theorem sendMail_sameDeals (mail : Mail C) : w.SameDeals (w.sendMail mail) := ⟨rfl, rfl, rfl, rfl⟩

section

variable (a : AuctionEntry C)

include a

theorem outbidded_sameDeals (b : C) : w.SameDeals (w.sendAuctionOutbiddedMail cfg acc m a b) := by
  unfold sendAuctionOutbiddedMail
  split <;> exact ⟨rfl, rfl, rfl, rfl⟩

theorem cancelledToBidder_sameDeals (b : C) :
    w.SameDeals (w.sendAuctionCancelledToBidderMail acc m a b) := by
  unfold sendAuctionCancelledToBidderMail
  split <;> exact ⟨rfl, rfl, rfl, rfl⟩

theorem salePending_sameDeals : w.SameDeals (w.sendAuctionSalePendingMail cfg acc m a) := by
  unfold sendAuctionSalePendingMail
  split <;> exact ⟨rfl, rfl, rfl, rfl⟩

theorem successful_sameDeals : w.SameDeals (w.sendAuctionSuccessfulMail cfg acc m a) := by
  unfold sendAuctionSuccessfulMail
  split <;> exact ⟨rfl, rfl, rfl, rfl⟩

theorem won_sameDeals : w.SameDeals (w.sendAuctionWonMail acc m a) := by
  unfold sendAuctionWonMail
  split
  · split <;> exact ⟨rfl, rfl, rfl, rfl⟩
  · exact .refl w

theorem expired_sameDeals : w.SameDeals (w.sendAuctionExpiredMail acc m a) := by
  unfold sendAuctionExpiredMail
  split
  · split <;> exact ⟨rfl, rfl, rfl, rfl⟩
  · exact .refl w

end

/-! ## The basic invariant -/

/-- Ids are apart, money is in range, and a standing bid is below the buyout. -/
structure Inv (w : AuctionWorld C) : Prop where
  purse : ∀ c, w.purse c ≤ maxMoneyAmount
  unique : ∀ h, ((w.auctions h).map AuctionEntry.id).Nodup
  apart : ∀ {h h' a a'}, a ∈ w.auctions h → a' ∈ w.auctions h' → a.id = a'.id → h = h'
  fresh : ∀ {h a}, a ∈ w.auctions h → a.id < w.nextAuctionId
  deposit : ∀ {h a}, a ∈ w.auctions h → a.deposit ≤ maxMoneyAmount
  bid : ∀ {h a}, a ∈ w.auctions h → a.bid ≤ maxMoneyAmount
  unbid : ∀ {h a}, a ∈ w.auctions h → a.bidder = none → a.bid = 0
  buyout : ∀ {h a}, a ∈ w.auctions h → a.buyout ≠ 0 → a.bid < a.buyout

theorem initial_inv (purse : C → Player.Purse) : (initial purse).Inv where
  purse c := (purse c).2
  unique _ := List.nodup_nil
  apart h := nomatch h
  fresh h := nomatch h
  deposit h := nomatch h
  bid h := nomatch h
  unbid h := nomatch h
  buyout h := nomatch h

section Writes

variable {w' : AuctionWorld C} {h : House} {a a' : AuctionEntry C}

theorem Inv.of_write (i : w.Inv) (live : a ∈ w.auctions h) (hid : a'.id = a.id)
    (hdeposit : a'.deposit ≤ maxMoneyAmount) (hbid : a'.bid ≤ maxMoneyAmount)
    (hunbid : a'.bidder = none → a'.bid = 0) (hbuyout : a'.buyout ≠ 0 → a'.bid < a'.buyout)
    (hauctions : w'.auctions =
      Function.update w.auctions h (replaceKey AuctionEntry.id a' (w.auctions h)))
    (hnext : w'.nextAuctionId = w.nextAuctionId) (hpurse : ∀ c, w'.purse c ≤ maxMoneyAmount) :
    w'.Inv := by
  -- an auction is the written one, or one of before
  have hmem : ∀ {h' b}, b ∈ w'.auctions h' → h' = h ∧ b = a' ∨ b ∈ w.auctions h' := by
    intro h' b hb
    rw [hauctions] at hb
    by_cases hh : h' = h
    · subst hh
      rw [Function.update_self] at hb
      exact (mem_replaceKey hb).imp (fun hb => ⟨rfl, hb⟩) And.left
    · rw [Function.update_of_ne hh] at hb
      exact .inr hb
  have hold : ∀ {h' b}, b ∈ w'.auctions h' → ∃ c ∈ w.auctions h', c.id = b.id := by
    intro h' b hb
    rcases hmem hb with ⟨rfl, rfl⟩ | hb
    · exact ⟨a, live, hid.symm⟩
    · exact ⟨b, hb, rfl⟩
  refine ⟨hpurse, fun h' => ?_, fun {h₁ h₂ b c} hb hc hbc => ?_, fun {h' b} hb => ?_,
    fun {h' b} hb => ?_, fun {h' b} hb => ?_, fun {h' b} hb => ?_, fun {h' b} hb => ?_⟩
  · rw [hauctions]
    by_cases hh : h' = h
    · subst hh
      rw [Function.update_self, map_key_replaceKey]
      exact i.unique h'
    · rw [Function.update_of_ne hh]
      exact i.unique h'
  · obtain ⟨b', hb', hib⟩ := hold hb
    obtain ⟨c', hc', hic⟩ := hold hc
    exact i.apart hb' hc' (hib.trans (hbc.trans hic.symm))
  · obtain ⟨c, hc, hic⟩ := hold hb
    rw [hnext, ← hic]
    exact i.fresh hc
  · rcases hmem hb with ⟨-, rfl⟩ | hb
    · exact hdeposit
    · exact i.deposit hb
  · rcases hmem hb with ⟨-, rfl⟩ | hb
    · exact hbid
    · exact i.bid hb
  · rcases hmem hb with ⟨-, rfl⟩ | hb
    · exact hunbid
    · exact i.unbid hb
  · rcases hmem hb with ⟨-, rfl⟩ | hb
    · exact hbuyout
    · exact i.buyout hb

theorem Inv.of_subset (i : w.Inv) (hsub : ∀ h', (w'.auctions h').Sublist (w.auctions h'))
    (hnext : w'.nextAuctionId = w.nextAuctionId) (hpurse : ∀ c, w'.purse c ≤ maxMoneyAmount) :
    w'.Inv where
  purse := hpurse
  unique h' := (i.unique h').sublist ((hsub h').map _)
  apart hb hc := i.apart ((hsub _).subset hb) ((hsub _).subset hc)
  fresh hb := hnext ▸ i.fresh ((hsub _).subset hb)
  deposit hb := i.deposit ((hsub _).subset hb)
  bid hb := i.bid ((hsub _).subset hb)
  unbid hb := i.unbid ((hsub _).subset hb)
  buyout hb := i.buyout ((hsub _).subset hb)

end Writes

/-! ## Changes -/

/-- The purses, auctions and events after a move. -/
structure Changes (w w' : AuctionWorld C) (purse : C → ℕ) (auctions : House → List (AuctionEntry C))
    (events : List (Event C)) : Prop where
  purse : w'.purse = purse
  auctions : w'.auctions = auctions
  history : w'.history = w.history ++ events
  nextAuctionId : w'.nextAuctionId = w.nextAuctionId

variable {w₁ : AuctionWorld C} {purse : C → ℕ} {events : List (Event C)}

theorem Changes.sameDeals {w₂ : AuctionWorld C} {auctions : House → List (AuctionEntry C)}
    (hc : w.Changes w₁ purse auctions events) (hs : w₁.SameDeals w₂) :
    w.Changes w₂ purse auctions events :=
  ⟨hs.purse.trans hc.purse, hs.auctions.trans hc.auctions, hs.history.trans hc.history,
    hs.nextAuctionId.trans hc.nextAuctionId⟩

theorem Changes.record {auctions : House → List (AuctionEntry C)}
    (hc : w.Changes w₁ purse auctions events) (e : Event C) :
    w.Changes (w₁.record e) purse auctions (events ++ [e]) := by
  refine ⟨hc.purse, hc.auctions, ?_, hc.nextAuctionId⟩
  show w₁.history ++ [e] = _
  rw [hc.history, List.append_assoc]

theorem changes_refl (w : AuctionWorld C) : w.Changes w w.purse w.auctions [] :=
  ⟨rfl, rfl, (List.append_nil _).symm, rfl⟩

private theorem remove_changes (hc : w.Changes w₁ purse w.auctions events) (h : House)
    (a : AuctionEntry C) :
    w.Changes ((w₁.removeAItem a.itemGuid).removeAuction h a.id) purse
      (Function.update w.auctions h (removeKey AuctionEntry.id a.id (w.auctions h))) events := by
  refine ⟨hc.purse, ?_, hc.history, hc.nextAuctionId⟩
  show Function.update w₁.auctions h (removeKey AuctionEntry.id a.id (w₁.auctions h)) = _
  rw [hc.auctions]

theorem finishAuction_changes (h : House) (a : AuctionEntry C) :
    w.Changes (w.finishAuction cfg acc m h a) w.purse
      (Function.update w.auctions h (removeKey AuctionEntry.id a.id (w.auctions h)))
      [if a.bidder.isNone then .expired a else .sold a] := by
  unfold finishAuction
  by_cases hb : a.bidder.isNone
  · simp only [hb, if_true]
    exact remove_changes (((changes_refl w).sameDeals (expired_sameDeals a)).record _) h a
  · simp only [hb]
    exact remove_changes ((((changes_refl w).sameDeals (successful_sameDeals a)).sameDeals
      (won_sameDeals a)).record _) h a

theorem sublist_update_removeKey (w : AuctionWorld C) (h : House) (id : ℕ) (h' : House) :
    (Function.update w.auctions h (removeKey AuctionEntry.id id (w.auctions h)) h').Sublist
      (w.auctions h') := by
  rw [Function.update_apply]
  split
  · next heq =>
    subst heq
    exact List.filter_sublist
  · exact List.Sublist.refl _

variable {id : ℕ}

theorem Changes.inv_of_remove {w' : AuctionWorld C} {h : House} (hc : w.Changes w' purse
      (Function.update w.auctions h (removeKey AuctionEntry.id id (w.auctions h))) events)
    (i : w.Inv) (hpurse : ∀ c, purse c ≤ maxMoneyAmount) : w'.Inv := by
  refine i.of_subset (fun h' => ?_) hc.nextAuctionId fun c => hc.purse ▸ hpurse c
  rw [hc.auctions]
  exact sublist_update_removeKey w h id h'

variable {price : ℕ}

theorem isBuyout_iff {a : AuctionEntry C} :
    a.isBuyout price = true ↔ a.buyout ≠ 0 ∧ a.buyout ≤ price := by
  simp only [AuctionEntry.isBuyout, Bool.not_eq_true', Bool.or_eq_false_iff, decide_eq_false_iff_not,
    not_lt]
  exact and_comm

/-- A bid that does not buy out is below the buyout. -/
theorem lt_buyout_of_not_isBuyout {a : AuctionEntry C} (h : a.isBuyout price = false)
    (hb : a.buyout ≠ 0) : price < a.buyout := by
  by_contra hlt
  have := isBuyout_iff.mpr ⟨hb, not_lt.mp hlt⟩
  rw [h] at this
  cases this

theorem mem_of_getAuction {h : House} {a : AuctionEntry C} (hg : w.getAuction h id = some a) :
    a ∈ w.auctions h := (find_spec hg).1

variable [DecidableEq C]

/-! ## Moves -/

/-- The changes that the handlers make. `Ok` is what is asked of a bid beyond what the handler
checks. -/
inductive Move (cfg : AuctionConfig) (acc : Accounts C) (Ok : AuctionEntry C → ℕ → Prop) (m : Moment C)
    (w : AuctionWorld C) : AuctionWorld C → Prop
  | start (pl : C) (h : House) (entry : AuctionHouseEntry) (r : SellRequest) (it : SellItem)
      (etime : ℕ) {deposit : ℕ} (money : deposit ≤ w.purse pl) :
      Move cfg acc Ok m w (w.startAuction cfg m pl h entry r it etime deposit)
  | bid (pl : C) {h : House} {a : AuctionEntry C} {price : ℕ} (live : a ∈ w.auctions h)
      (above : a.bid < price) (below : a.isBuyout price = false)
      (enough : addU32 a.bid a.getAuctionOutBid ≤ price) (money : price ≤ w.purse pl)
      (ok : Ok a price) :
      Move cfg acc Ok m w (w.placeBid cfg acc m pl h a price)
  | buyOut (pl : C) {h : House} {a : AuctionEntry C} (live : a ∈ w.auctions h)
      (hasBuyout : a.buyout ≠ 0) (money : a.buyout ≤ w.purse pl) :
      Move cfg acc Ok m w (w.buyOut cfg acc m pl h a)
  | cancel (pl : C) {h : House} {a : AuctionEntry C} (item : ℕ) (live : a ∈ w.auctions h)
      (money : a.bidder.isSome → a.getAuctionCut cfg ≤ w.purse pl) :
      Move cfg acc Ok m w (w.cancelAuction cfg acc m pl h a item)
  | finish {h : House} {a : AuctionEntry C} (live : a ∈ w.auctions h) :
      Move cfg acc Ok m w (w.finishAuction cfg acc m h a)

/-- Moves, one after another. -/
abbrev Moves (cfg : AuctionConfig) (acc : Accounts C) (Ok : AuctionEntry C → ℕ → Prop)
    (m : Moment C) : AuctionWorld C → AuctionWorld C → Prop :=
  Relation.ReflTransGen (Move cfg acc Ok m)

theorem keeps_of_moves {Ok : AuctionEntry C → ℕ → Prop} {Inv : AuctionWorld C → Prop}
    (keeps : ∀ w w', Inv w → Move cfg acc Ok m w w' → Inv w') {w w' : AuctionWorld C} (i : Inv w)
    (h : Moves cfg acc Ok m w w') : Inv w' := by
  induction h with
  | refl => exact i
  | tail _ hm ih => exact keeps _ _ ih hm

/-! ## What each move does -/

/-- The purse after a payment. -/
def pay (w : AuctionWorld C) (c : C) (amount : ℕ) : C → ℕ :=
  Function.update w.purse c (Player.modifyMoney (w.purse c) (-toInt32 amount))

theorem pay_le (i : w.Inv) (c : C) (amount : ℕ) (d : C) : w.pay c amount d ≤ maxMoneyAmount := by
  unfold pay
  rw [Function.update_apply]
  split
  · exact modifyMoney_le _ (i.purse c)
  · exact i.purse d

/-- What the bidder pays: the whole price, or what he adds to his own bid. -/
def due (a : AuctionEntry C) (pl : C) (price : ℕ) : ℕ :=
  if a.bidder = some pl then subU32 price a.bid else price

private theorem write_changes (hs : w.SameDeals w₁) (pl : C) (amount : ℕ) (h : House)
    (a : AuctionEntry C) (e : Event C) :
    w.Changes (((w₁.modifyMoney pl (-toInt32 amount)).writeAuction h a).record e) (w.pay pl amount)
      (Function.update w.auctions h (replaceKey AuctionEntry.id a (w.auctions h))) [e] := by
  refine ⟨?_, ?_, ?_, hs.nextAuctionId⟩
  · show Function.update w₁.purse pl (Player.modifyMoney (w₁.purse pl) _) = _
    rw [hs.purse]
    rfl
  · show Function.update w₁.auctions h (replaceKey AuctionEntry.id a (w₁.auctions h)) = _
    rw [hs.auctions]
  · show w₁.history ++ [e] = _
    rw [hs.history]

theorem placeBid_changes (pl : C) (h : House) (a : AuctionEntry C) (price : ℕ) :
    w.Changes (w.placeBid cfg acc m pl h a price) (w.pay pl (due a pl price))
      (Function.update w.auctions h
        (replaceKey AuctionEntry.id { a with bidder := some pl, bid := price } (w.auctions h)))
      [.bid a pl price] := by
  unfold placeBid due
  cases hb : a.bidder with
  | none => exact write_changes (.refl w) pl price h _ _
  | some bidder =>
    by_cases hp : bidder = pl
    · subst hp
      simp only [if_true]
      exact write_changes (.refl w) bidder _ h _ _
    · have hp' : ¬ some bidder = some pl := fun h => hp (Option.some.inj h)
      simp only [if_neg hp, if_neg hp']
      exact write_changes (outbidded_sameDeals a bidder) pl price h _ _

theorem changes_pay (w : AuctionWorld C) (pl : C) (amount : ℕ) :
    w.Changes (w.modifyMoney pl (-toInt32 amount)) (w.pay pl amount) w.auctions [] :=
  ⟨rfl, rfl, (List.append_nil _).symm, rfl⟩

theorem SameDeals.changes_pay (hs : w.SameDeals w₁) (pl : C) (amount : ℕ) :
    w.Changes (w₁.modifyMoney pl (-toInt32 amount)) (w.pay pl amount) w.auctions [] := by
  refine ⟨?_, hs.auctions, by rw [List.append_nil]; exact hs.history, hs.nextAuctionId⟩
  show Function.update w₁.purse pl (Player.modifyMoney (w₁.purse pl) _) = _
  rw [hs.purse]
  rfl

/-- The sold auction, at its buyout. -/
def boughtOut (a : AuctionEntry C) (pl : C) : AuctionEntry C :=
  { a with bidder := some pl, bid := a.buyout }

theorem buyOut_changes (pl : C) (h : House) (a : AuctionEntry C) :
    w.Changes (w.buyOut cfg acc m pl h a) (w.pay pl (due a pl a.buyout))
      (Function.update w.auctions h (removeKey AuctionEntry.id a.id (w.auctions h)))
      [.boughtOut a pl, .sold (boughtOut a pl)] := by
  have rest : ∀ {w₁ : AuctionWorld C} {purse : C → ℕ}, w.Changes w₁ purse w.auctions [] →
      w.Changes (((((((w₁.record (.boughtOut a pl)).sendAuctionSalePendingMail cfg acc m
        (boughtOut a pl)).sendAuctionSuccessfulMail cfg acc m (boughtOut a pl)).sendAuctionWonMail
        acc m (boughtOut a pl)).record (.sold (boughtOut a pl))).removeAItem
        a.itemGuid).removeAuction h a.id) purse
        (Function.update w.auctions h (removeKey AuctionEntry.id a.id (w.auctions h)))
        [.boughtOut a pl, .sold (boughtOut a pl)] := fun hc =>
    remove_changes ((((hc.record _).sameDeals (salePending_sameDeals _)).sameDeals
      (successful_sameDeals _)).sameDeals (won_sameDeals _) |>.record _) h a
  unfold buyOut due
  cases hb : a.bidder with
  | none => exact rest (changes_pay w pl _)
  | some bidder =>
    by_cases hp : bidder = pl
    · subst hp
      simp only [if_true]
      exact rest (changes_pay w bidder _)
    · have hp' : ¬ some bidder = some pl := fun h => hp (Option.some.inj h)
      simp only [if_neg hp, if_neg hp']
      exact rest ((changes_pay w pl _).sameDeals (outbidded_sameDeals a bidder))

theorem cancelAuction_changes (pl : C) (h : House) (a : AuctionEntry C) (item : ℕ) :
    w.Changes (w.cancelAuction cfg acc m pl h a item)
      (if a.bidder.isSome then w.pay pl (a.getAuctionCut cfg) else w.purse)
      (Function.update w.auctions h (removeKey AuctionEntry.id a.id (w.auctions h)))
      [.cancelled a] := by
  have rest : ∀ {w₁ : AuctionWorld C} {purse : C → ℕ}, w.Changes w₁ purse w.auctions [] →
      w.Changes ((((w₁.sendMail (a.mail pl .canceled none 0 a.deposit 0 0 (some item) 0)).record
        (.cancelled a)).removeAItem a.itemGuid).removeAuction h a.id) purse
        (Function.update w.auctions h (removeKey AuctionEntry.id a.id (w.auctions h)))
        [.cancelled a] := fun hc =>
    remove_changes ((hc.sameDeals (sendMail_sameDeals _)).record _) h a
  unfold cancelAuction
  cases hb : a.bidder with
  | none => exact rest (changes_refl w)
  | some bidder => exact rest ((cancelledToBidder_sameDeals a bidder).changes_pay pl _)

/-! ## The moves keep the invariant -/

theorem startAuction_inv (i : w.Inv) (pl : C) (h : House) (entry : AuctionHouseEntry)
    (r : SellRequest) (it : SellItem) (etime : ℕ) {deposit : ℕ} (money : deposit ≤ w.purse pl) :
    (w.startAuction cfg m pl h entry r it etime deposit).Inv := by
  let a := w.newAuction cfg m pl entry r it etime deposit
  let w' := w.startAuction cfg m pl h entry r it etime deposit
  have hauctions : w'.auctions = Function.update w.auctions h (w.auctions h ++ [a]) := rfl
  have hmem : ∀ {h' b}, b ∈ w'.auctions h' → h' = h ∧ b = a ∨ b ∈ w.auctions h' := by
    intro h' b hb
    rw [hauctions] at hb
    by_cases hh : h' = h
    · subst hh
      rw [Function.update_self, List.mem_append, List.mem_singleton] at hb
      exact hb.elim .inr fun hb => .inl ⟨rfl, hb⟩
    · rw [Function.update_of_ne hh] at hb
      exact .inr hb
  refine ⟨fun c => pay_le i pl deposit c, fun h' => ?_, fun {h₁ h₂ b c} hb hc hbc => ?_,
    fun {h' b} hb => ?_, fun {h' b} hb => ?_, fun {h' b} hb => ?_, fun {h' b} hb => ?_,
    fun {h' b} hb => ?_⟩
  · -- the new id is higher than all ids
    show ((w'.auctions h').map AuctionEntry.id).Nodup
    rw [hauctions]
    by_cases hh : h' = h
    · subst hh
      rw [Function.update_self, List.map_append, List.nodup_append]
      refine ⟨i.unique h', List.nodup_singleton _, fun x hx y hy => ?_⟩
      obtain ⟨b, hb, rfl⟩ := List.mem_map.mp hx
      rw [List.map_singleton, List.mem_singleton] at hy
      rw [hy]
      exact (i.fresh hb).ne
    · rw [Function.update_of_ne hh]
      exact i.unique h'
  · rcases hmem hb with ⟨rfl, rfl⟩ | hb' <;> rcases hmem hc with ⟨rfl, rfl⟩ | hc'
    · rfl
    · exact absurd hbc (i.fresh hc').ne'
    · exact absurd hbc (i.fresh hb').ne
    · exact i.apart hb' hc' hbc
  · show b.id < w.nextAuctionId + 1
    rcases hmem hb with ⟨-, rfl⟩ | hb
    · exact Nat.lt_succ_self _
    · exact (i.fresh hb).trans (Nat.lt_succ_self _)
  · rcases hmem hb with ⟨-, rfl⟩ | hb
    · exact money.trans (i.purse pl)
    · exact i.deposit hb
  · rcases hmem hb with ⟨-, rfl⟩ | hb
    · exact Nat.zero_le _
    · exact i.bid hb
  · rcases hmem hb with ⟨-, rfl⟩ | hb
    · exact fun _ => rfl
    · exact i.unbid hb
  · rcases hmem hb with ⟨-, rfl⟩ | hb
    · exact fun hb => Nat.pos_of_ne_zero hb
    · exact i.buyout hb

theorem placeBid_inv (i : w.Inv) (pl : C) {h : House} {a : AuctionEntry C} (live : a ∈ w.auctions h)
    (below : a.isBuyout price = false) (money : price ≤ w.purse pl) :
    (w.placeBid cfg acc m pl h a price).Inv := by
  have hc : w.Changes (w.placeBid cfg acc m pl h a price) _ _ _ := placeBid_changes pl h a price
  have hid : ({ a with bidder := some pl, bid := price } : AuctionEntry C).id = a.id := rfl
  have hdeposit := i.deposit live
  refine i.of_write live hid hdeposit (money.trans (i.purse pl)) (fun hn => (nomatch hn))
    (lt_buyout_of_not_isBuyout below) hc.auctions hc.nextAuctionId fun c => ?_
  rw [hc.purse]
  exact pay_le i pl _ c

theorem move_inv {Ok : AuctionEntry C → ℕ → Prop} {w' : AuctionWorld C} (i : w.Inv)
    (hm : Move cfg acc Ok m w w') : w'.Inv := by
  cases hm with
  | start pl h entry r it etime money => exact startAuction_inv i pl h entry r it etime money
  | bid pl live above below enough money ok => exact placeBid_inv i pl live below money
  | buyOut pl live hasBuyout money => exact (buyOut_changes pl _ _).inv_of_remove i (pay_le i pl _)
  | cancel pl item live money =>
    refine (cancelAuction_changes pl _ _ item).inv_of_remove i fun c => ?_
    split
    · exact pay_le i pl _ c
    · exact i.purse c
  | finish live => exact (finishAuction_changes _ _).inv_of_remove i i.purse

/-! ## Every operation is moves -/

theorem finishAll_moves (Ok : AuctionEntry C → ℕ → Prop) (h : House)
    (ends : AuctionEntry C → Prop) [DecidablePred ends] (l : List (AuctionEntry C))
    (hl : (l.map AuctionEntry.id).Nodup) (live : ∀ a ∈ l, a ∈ w.auctions h) :
    Moves cfg acc Ok m w
      (l.foldl (fun w a => if ends a then w.finishAuction cfg acc m h a else w) w) := by
  induction l generalizing w with
  | nil => exact .refl
  | cons a l ih =>
    rw [List.map_cons, List.nodup_cons] at hl
    rw [List.foldl_cons]
    split
    · refine .head (.finish (live a List.mem_cons_self)) (ih hl.2 fun b hb => ?_)
      have hne : b.id ≠ a.id := fun h => hl.1 (h ▸ List.mem_map_of_mem hb)
      rw [(finishAuction_changes h a).auctions, Function.update_self]
      exact mem_removeKey.mpr ⟨live b (List.mem_cons_of_mem a hb), hne⟩
    · exact ih hl.2 fun b hb => live b (List.mem_cons_of_mem a hb)

theorem removeAllAuctionsOfIn_moves (Ok : AuctionEntry C → ℕ → Prop) (i : w.Inv) (h : House)
    (owner : C) : Moves cfg acc Ok m w (w.removeAllAuctionsOfIn cfg acc m h owner) :=
  finishAll_moves Ok h (fun a => a.owner = owner) _ (i.unique h) fun _ ha => ha

theorem moves_inv {Ok : AuctionEntry C → ℕ → Prop} {w' : AuctionWorld C} (i : w.Inv)
    (h : Moves cfg acc Ok m w w') : w'.Inv := keeps_of_moves (fun _ _ => move_inv) i h

/-- The checks of `HandleAuctionPlaceBid`, for a bid that does not buy out. -/
structure Accepts (acc : Accounts C) (m : Moment C) (w : AuctionWorld C) (pl : C)
    (a : AuctionEntry C) (id price : ℕ) : Prop where
  nonzero : ¬ (id = 0 || price = 0)
  foreign : a.owner ≠ pl
  account : ¬ (!m.findPlayer a.owner && acc.accountId a.owner = acc.accountId pl)
  wait : ¬ (m.gameTime < a.depositTime + 60 &&
    (m.findPlayer a.owner && m.remoteAddress a.owner ≠ m.remoteAddress pl))
  above : a.bid < price
  enough : addU32 a.bid a.getAuctionOutBid ≤ price
  money : price ≤ w.purse pl
  below : a.isBuyout price = false

/-- What is asked of a request: `Ok`, where it is a bid that is accepted. -/
def Asks (acc : Accounts C) (Ok : AuctionEntry C → ℕ → Prop) (w : AuctionWorld C) :
    Moment C × Op C → Prop
  | (m, .placeBid pl (some h) id price) =>
    ∀ a, w.getAuction h id = some a → Accepts acc m w pl a id price → Ok a price
  | _ => True

section Handlers

variable {Ok : AuctionEntry C → ℕ → Prop}

/-- A check of a handler: the world is as it was, or the check did not fail. -/
theorem moves_unless {w' : AuctionWorld C} {c : Prop} [Decidable c]
    (h : ¬ c → Moves cfg acc Ok m w w') : Moves cfg acc Ok m w (if c then w else w') := by
  split
  · exact .refl
  · next hc => exact h hc

theorem handleAuctionSellItem_moves (pl : C) (r : SellRequest) :
    Moves cfg acc Ok m w (w.handleAuctionSellItem cfg m pl r) := by
  unfold handleAuctionSellItem
  refine moves_unless fun _ => ?_
  cases r.auctioneer with
  | none => exact .refl
  | some npc =>
    dsimp only
    cases npc.entry with
    | none => exact .refl
    | some entry =>
      refine moves_unless fun _ => moves_unless fun _ => moves_unless fun _ => ?_
      cases r.item with
      | none => exact .refl
      | some it =>
        refine moves_unless fun _ => moves_unless fun _ => moves_unless fun money => ?_
        exact .single (.start pl npc.house entry r it _ (not_lt.mp money))

theorem handleAuctionPlaceBid_moves (pl : C) (auctioneer : Option House) (id price : ℕ)
    (asks : Asks acc Ok w (m, .placeBid pl auctioneer id price)) :
    Moves cfg acc Ok m w (w.handleAuctionPlaceBid cfg acc m pl auctioneer id price) := by
  unfold handleAuctionPlaceBid
  refine moves_unless fun nonzero => ?_
  cases auctioneer with
  | none => exact .refl
  | some h =>
    dsimp only
    cases hg : w.getAuction h id with
    | none => exact .refl
    | some a =>
      refine moves_unless fun foreign => moves_unless fun account => moves_unless fun wait =>
        moves_unless fun above => moves_unless fun enough => moves_unless fun money => ?_
      have live := mem_of_getAuction hg
      split
      next hnb =>
        have below : a.isBuyout price = false := by simpa using hnb
        have enough : addU32 a.bid a.getAuctionOutBid ≤ price := by simpa [below] using enough
        have accepts : Accepts acc m w pl a id price :=
          ⟨nonzero, foreign, account, wait, not_le.mp above, enough, not_lt.mp money, below⟩
        exact .single (.bid pl live accepts.above below enough accepts.money (asks a hg accepts))
      next hb =>
        obtain ⟨hne, hle⟩ := isBuyout_iff.mp (by simpa using hb)
        exact .single (.buyOut pl live hne (hle.trans (not_lt.mp money)))

theorem handleAuctionPlaceBid_of_accepts {pl : C} {h : House} {a : AuctionEntry C}
    (hg : w.getAuction h id = some a) (accepts : Accepts acc m w pl a id price) :
    w.handleAuctionPlaceBid cfg acc m pl (some h) id price = w.placeBid cfg acc m pl h a price := by
  unfold handleAuctionPlaceBid
  rw [if_neg accepts.nonzero]
  simp only [hg, accepts.below]
  rw [if_neg accepts.foreign, if_neg accepts.account, if_neg accepts.wait,
    if_neg (not_le.mpr accepts.above), if_neg (by simpa using accepts.enough),
    if_neg (not_lt.mpr accepts.money)]
  rfl

theorem handleAuctionRemoveItem_moves (pl : C) (auctioneer : Option House) (id : ℕ) :
    Moves cfg acc Ok m w (w.handleAuctionRemoveItem cfg acc m pl auctioneer id) := by
  unfold handleAuctionRemoveItem
  cases auctioneer with
  | none => exact .refl
  | some h =>
    dsimp only
    cases hg : w.getAuction h id with
    | none => exact .refl
    | some a =>
      refine moves_unless fun _ => ?_
      cases w.getAItem a.itemGuid with
      | none => exact .refl
      | some item =>
        refine moves_unless fun money => .single (.cancel pl item (mem_of_getAuction hg) ?_)
        intro hb
        simpa [hb] using money

/-- **Every operation is moves.** -/
theorem step_moves (i : w.Inv) (op : Op C) (asks : Asks acc Ok w (m, op)) :
    Moves cfg acc Ok m w (w.step cfg acc (m, op)) := by
  cases op with
  | sellItem pl r => exact handleAuctionSellItem_moves pl r
  | placeBid pl npc id price => exact handleAuctionPlaceBid_moves pl npc id price asks
  | removeItem pl npc id => exact handleAuctionRemoveItem_moves pl npc id
  | update h =>
    exact finishAll_moves Ok h (fun a => a.expireTime < m.gameTime) _ (i.unique h) fun _ ha => ha
  | removeAllAuctionsOf owner =>
    have h₁ : Moves cfg acc Ok m w _ := removeAllAuctionsOfIn_moves Ok i .horde owner
    have i₁ := moves_inv i h₁
    have h₂ : Moves cfg acc Ok m _ _ := removeAllAuctionsOfIn_moves Ok i₁ .alliance owner
    have i₂ := moves_inv i₁ h₂
    exact (h₁.trans h₂).trans (removeAllAuctionsOfIn_moves Ok i₂ .neutral owner)

end Handlers

end Sunstrider.Auction.AuctionWorld
