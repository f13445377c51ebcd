import Sunstrider.Laws.Auction.Moves
import Mathlib.Data.List.Chain

/-!
# Bids and the seller's terms

What the bids of an auction keep to. `HandleAuctionPlaceBid` compares a price with the standing bid,
the minimal raise and the buyout. It nowhere looks at the starting price, so the first bid of an
auction may be below it. `bids_keep_terms_iff` says that this is all that goes wrong: the terms hold
all along a run just if every first bid that is accepted is at least the starting price.
-/

namespace Sunstrider.Auction

open Sunstrider.Lib (addU32 mulU32 addU32_eq mulU32_eq replaceKey removeKey mem_replaceKey
  mem_removeKey eq_of_key find_spec AllAlong always_iff_allAlong)
open Sunstrider.Player (maxMoneyAmount)

variable {C : Type}

/-- `GetAuctionOutBid`, of an auction whose bid is `bid`. -/
def outBid (bid : ℕ) : ℕ := if bid / 100 * 5 = 0 then 1 else bid / 100 * 5

variable {a : AuctionEntry C}

/-- The raise is computed without overflow. -/
theorem getAuctionOutBid_eq (h : a.bid ≤ maxMoneyAmount) : a.getAuctionOutBid = outBid a.bid := by
  unfold maxMoneyAmount at h
  unfold AuctionEntry.getAuctionOutBid
  rw [mulU32_eq (by omega)]
  rfl

theorem add_getAuctionOutBid_eq (h : a.bid ≤ maxMoneyAmount) :
    addU32 a.bid a.getAuctionOutBid = a.bid + outBid a.bid := by
  rw [getAuctionOutBid_eq h]
  refine addU32_eq ?_
  unfold maxMoneyAmount at h
  unfold outBid
  split <;> omega

/-- The price that an event bids on the auction with this id. -/
def Event.bidOn (id : ℕ) : Event C → List ℕ
  | .bid a _ price => if a.id = id then [price] else []
  | _ => []

namespace AuctionWorld

/-- The prices of the accepted bids on an auction, one after another. -/
def bidsOn (w : AuctionWorld C) (id : ℕ) : List ℕ := w.history.flatMap (Event.bidOn id)

/-- The seller's terms. -/
structure KeepsTerms (w : AuctionWorld C) : Prop where
  /-- A standing bid is at least the starting price. -/
  startbid : ∀ h, ∀ a ∈ w.auctions h, a.bidder.isSome → a.startbid ≤ a.bid
  /-- A standing bid is below the buyout. -/
  buyout : ∀ h, ∀ a ∈ w.auctions h, a.buyout ≠ 0 → a.bid < a.buyout
  /-- Every accepted bid raises the one before. -/
  raises : ∀ id, (w.bidsOn id).IsChain fun p q => p + outBid p ≤ q
  /-- A buyout is more than the bid that stood. -/
  boughtOut : ∀ a pl, Event.boughtOut a pl ∈ w.history → a.bid < a.buyout
  /-- A sale is at the starting price or above, or at a buyout that is lower. -/
  sold : ∀ a, Event.sold a ∈ w.history →
    a.startbid ≤ a.bid ∨ a.buyout ≠ 0 ∧ a.bid = a.buyout ∧ a.buyout < a.startbid

/-- What is asked of an accepted bid. -/
def AtLeastStartbid (a : AuctionEntry C) (price : ℕ) : Prop := a.bidder = none → a.startbid ≤ price

variable {cfg : AuctionConfig} {acc : Accounts C} {m : Moment C} {w w' : AuctionWorld C}

/-- The terms, with what carries them through a run: the last accepted bid is the one that stands. -/
structure TermsInv (w : AuctionWorld C) : Prop where
  inv : w.Inv
  terms : w.KeepsTerms
  unbid : ∀ {h a}, a ∈ w.auctions h → a.bidder = none → w.bidsOn a.id = []
  last : ∀ {h a}, a ∈ w.auctions h → a.bidder.isSome → (w.bidsOn a.id).getLast? = some a.bid
  fresh : ∀ id, w.nextAuctionId ≤ id → w.bidsOn id = []

theorem initial_termsInv (purse : C → Player.Purse) : (initial purse).TermsInv where
  inv := initial_inv purse
  terms :=
    ⟨fun _ _ h => (nomatch h), fun _ _ h => (nomatch h), fun _ => List.IsChain.nil,
      fun _ _ h => (nomatch h), fun _ h => (nomatch h)⟩
  unbid h := nomatch h
  last h := nomatch h
  fresh _ _ := rfl

theorem bidsOn_eq {events : List (Event C)} (hhistory : w'.history = w.history ++ events)
    (hnone : ∀ id, events.flatMap (Event.bidOn id) = []) (id : ℕ) : w'.bidsOn id = w.bidsOn id := by
  rw [bidsOn, hhistory, List.flatMap_append, hnone, List.append_nil]
  rfl

theorem TermsInv.of_remove (t : w.TermsInv) (i : w'.Inv) {purse : C → ℕ} {h : House} {id : ℕ}
    {events : List (Event C)}
    (hc : w.Changes w' purse
      (Function.update w.auctions h (removeKey AuctionEntry.id id (w.auctions h))) events)
    (hnone : ∀ id, events.flatMap (Event.bidOn id) = [])
    (hboughtOut : ∀ a pl, Event.boughtOut a pl ∈ events → a.bid < a.buyout)
    (hsold : ∀ a, Event.sold a ∈ events →
      a.startbid ≤ a.bid ∨ a.buyout ≠ 0 ∧ a.bid = a.buyout ∧ a.buyout < a.startbid) :
    w'.TermsInv := by
  have hlive : ∀ {h' a}, a ∈ w'.auctions h' → a ∈ w.auctions h' := fun {h' a} ha => by
    rw [hc.auctions] at ha
    exact (sublist_update_removeKey w h id h').subset ha
  have hbids := bidsOn_eq hc.history hnone
  refine ⟨i, ⟨fun h' a ha => t.terms.startbid h' a (hlive ha),
    fun h' a ha => t.terms.buyout h' a (hlive ha), fun id => hbids id ▸ t.terms.raises id,
    fun a pl ha => ?_, fun a ha => ?_⟩, fun ha hn => hbids _ ▸ t.unbid (hlive ha) hn,
    fun ha hs => hbids _ ▸ t.last (hlive ha) hs, fun id hid => ?_⟩
  · rw [hc.history, List.mem_append] at ha
    exact ha.elim (t.terms.boughtOut a pl) (hboughtOut a pl)
  · rw [hc.history, List.mem_append] at ha
    exact ha.elim (t.terms.sold a) (hsold a)
  · rw [hbids]
    exact t.fresh id (hc.nextAuctionId ▸ hid)

variable [DecidableEq C]

theorem startAuction_termsInv (t : w.TermsInv) (pl : C) (h : House) (entry : AuctionHouseEntry)
    (r : SellRequest) (it : SellItem) (etime : ℕ) {deposit : ℕ} (money : deposit ≤ w.purse pl) :
    (w.startAuction cfg m pl h entry r it etime deposit).TermsInv := by
  let a := w.newAuction cfg m pl entry r it etime deposit
  let w' := w.startAuction cfg m pl h entry r it etime deposit
  have i : w'.Inv := startAuction_inv t.inv pl h entry r it etime money
  have hmem : ∀ {h' b}, b ∈ w'.auctions h' → b = a ∨ b ∈ w.auctions h' := by
    intro h' b hb
    change b ∈ Function.update w.auctions h (w.auctions h ++ [a]) h' at hb
    rw [Function.update_apply] at hb
    split at hb
    · next heq =>
      subst heq
      rw [List.mem_append, List.mem_singleton] at hb
      exact hb.symm
    · exact .inr hb
  refine ⟨i, ⟨fun h' b hb hs => ?_, fun h' b hb => i.buyout hb, t.terms.raises, t.terms.boughtOut,
    t.terms.sold⟩, fun {h' b} hb hn => ?_, fun {h' b} hb hs => ?_, fun id hid => ?_⟩
  · rcases hmem hb with rfl | hb
    · cases hs
    · exact t.terms.startbid h' b hb hs
  · rcases hmem hb with rfl | hb
    · exact t.fresh _ le_rfl
    · exact t.unbid hb hn
  · rcases hmem hb with rfl | hb
    · cases hs
    · exact t.last hb hs
  · exact t.fresh id ((Nat.le_succ _).trans hid)

/-- A bid is the next of its auction, and of no other. -/
theorem placeBid_termsInv (t : w.TermsInv) (pl : C) {h : House} {price : ℕ}
    (live : a ∈ w.auctions h) (above : a.bid < price) (below : a.isBuyout price = false)
    (enough : addU32 a.bid a.getAuctionOutBid ≤ price) (money : price ≤ w.purse pl)
    (ok : AtLeastStartbid a price) : (w.placeBid cfg acc m pl h a price).TermsInv := by
  let a' : AuctionEntry C := { a with bidder := some pl, bid := price }
  have i : (w.placeBid cfg acc m pl h a price).Inv := placeBid_inv t.inv pl live below money
  have hc : w.Changes (w.placeBid cfg acc m pl h a price) _ _ _ := placeBid_changes pl h a price
  rw [add_getAuctionOutBid_eq (t.inv.bid live)] at enough
  have hbids : ∀ id, (w.placeBid cfg acc m pl h a price).bidsOn id =
      w.bidsOn id ++ if a.id = id then [price] else [] := fun id => by
    rw [bidsOn, hc.history, List.flatMap_append, List.flatMap_singleton]
    rfl
  -- a live auction is the one with the bid, or an other one of before
  have hmem : ∀ {h' b}, b ∈ (w.placeBid cfg acc m pl h a price).auctions h' →
      b = a' ∨ b ∈ w.auctions h' ∧ a.id ≠ b.id := by
    intro h' b hb
    rw [hc.auctions, Function.update_apply] at hb
    split at hb
    next heq =>
      subst heq
      exact (mem_replaceKey hb).imp_right fun hb => ⟨hb.1, fun h => hb.2 h.symm⟩
    next hne => exact .inr ⟨hb, fun heq => hne (t.inv.apart hb live heq.symm)⟩
  have hstart : a.startbid ≤ price := by
    cases hb : a.bidder with
    | none => exact ok hb
    | some bidder => exact (t.terms.startbid h a live (by rw [hb]; rfl)).trans above.le
  refine ⟨i, ⟨fun h' b hb hs => ?_, fun h' b hb => i.buyout hb, fun id => ?_, fun b pl' hb => ?_,
    fun b hb => ?_⟩, fun {h' b} hb hn => ?_, fun {h' b} hb hs => ?_, fun id hid => ?_⟩
  · rcases hmem hb with rfl | hb
    · exact hstart
    · exact t.terms.startbid h' b hb.1 hs
  · rw [hbids]
    split
    · next heq =>
      subst heq
      refine (t.terms.raises a.id).append (List.isChain_singleton price) fun p hp q hq => ?_
      cases hb : a.bidder with
      | none =>
        rw [t.unbid live hb] at hp
        cases hp
      | some bidder =>
        rw [t.last live (by rw [hb]; rfl)] at hp
        cases hp
        cases hq
        exact enough
    · rw [List.append_nil]
      exact t.terms.raises id
  · rw [hc.history, List.mem_append] at hb
    refine hb.elim (t.terms.boughtOut b pl') fun hb => ?_
    cases List.mem_singleton.mp hb
  · rw [hc.history, List.mem_append] at hb
    refine hb.elim (t.terms.sold b) fun hb => ?_
    cases List.mem_singleton.mp hb
  · rcases hmem hb with rfl | hb
    · cases hn
    · rw [hbids, if_neg hb.2, List.append_nil]
      exact t.unbid hb.1 hn
  · rcases hmem hb with rfl | hb
    · rw [hbids]
      have hid : a.id = a'.id := rfl
      rw [if_pos hid, List.getLast?_concat]
    · rw [hbids, if_neg hb.2, List.append_nil]
      exact t.last hb.1 hs
  · have hlt := t.inv.fresh live
    rw [hc.nextAuctionId] at hid
    rw [hbids, if_neg (by omega), List.append_nil]
    exact t.fresh id hid

/-- **Every move whose bid is at least the starting price keeps the terms.** -/
theorem move_termsInv (t : w.TermsInv) (hm : Move cfg acc AtLeastStartbid m w w') :
    w'.TermsInv := by
  have i := move_inv t.inv hm
  cases hm with
  | start pl h entry r it etime money => exact startAuction_termsInv t pl h entry r it etime money
  | bid pl live above below enough money ok =>
    exact placeBid_termsInv t pl live above below enough money ok
  | @buyOut pl h a live hasBuyout money =>
    refine t.of_remove i (buyOut_changes pl h a) (fun _ => rfl) (fun b pl' hb => ?_) fun b hb => ?_
    · rcases List.mem_pair.mp hb with hb | hb <;> cases hb
      exact t.inv.buyout live hasBuyout
    · rcases List.mem_pair.mp hb with hb | hb <;> cases hb
      exact (le_or_gt a.startbid a.buyout).imp_right fun hlt => ⟨hasBuyout, rfl, hlt⟩
  | @cancel pl h a item live money =>
    refine t.of_remove i (cancelAuction_changes pl h a item) (fun _ => rfl) (fun b pl' hb => ?_)
      fun b hb => ?_
    · cases List.mem_singleton.mp hb
    · cases List.mem_singleton.mp hb
  | @finish h a live =>
    have hc : w.Changes (w.finishAuction cfg acc m h a) _ _ _ := finishAuction_changes h a
    cases hb : a.bidder with
    | none =>
      simp only [hb, Option.isNone_none, if_true] at hc
      refine t.of_remove i hc (fun _ => rfl) (fun b pl' hb => ?_) fun b hb => ?_
      · cases List.mem_singleton.mp hb
      · cases List.mem_singleton.mp hb
    | some bidder =>
      simp only [hb, Option.isNone_some, Bool.false_eq_true, if_false] at hc
      refine t.of_remove i hc (fun _ => rfl) (fun b pl' hb => ?_) fun b hs => ?_
      · cases List.mem_singleton.mp hb
      · cases List.mem_singleton.mp hs
        exact .inl (t.terms.startbid h a live (by rw [hb]; rfl))

/-- Every accepted first bid of the request is at least the starting price. -/
abbrev BidsFair (acc : Accounts C) (w : AuctionWorld C) (op : Moment C × Op C) : Prop :=
  Asks acc AtLeastStartbid w op

theorem step_termsInv (t : w.TermsInv) (op : Moment C × Op C) (fair : BidsFair acc w op) :
    (w.step cfg acc op).TermsInv :=
  keeps_of_moves (fun _ _ => move_termsInv) t (step_moves t.inv op.2 fair)

/-- An accepted first bid below the starting price stands. -/
theorem fair_of_keepsTerms (op : Moment C × Op C) (h : (w.step cfg acc op).KeepsTerms) : BidsFair acc w op := by
  obtain ⟨m, op⟩ := op
  unfold BidsFair Asks
  split
  · next m' pl house id price heq =>
    cases heq
    intro a hg accepts hn
    have hc : w.Changes (w.placeBid cfg acc m pl house a price) _ _ _ :=
      placeBid_changes pl house a price
    have hstep : w.step cfg acc (m, .placeBid pl (some house) id price) = _ :=
      handleAuctionPlaceBid_of_accepts hg accepts
    have hlive : { a with bidder := some pl, bid := price } ∈
        (w.placeBid cfg acc m pl house a price).auctions house := by
      rw [hc.auctions, Function.update_self]
      exact List.mem_map.mpr ⟨a, mem_of_getAuction hg, if_pos rfl⟩
    rw [hstep] at h
    exact h.startbid house _ hlive rfl
  · trivial

/-! ## Every run -/

/-- **The terms hold all along a run just if every accepted first bid is at least the starting
price.** -/
theorem bids_keep_terms_iff (cfg : AuctionConfig) (acc : Accounts C) (purse : C → Player.Purse)
    (ops : List (Moment C × Op C)) :
    (∀ l, l <+: ops → (l.foldl (step cfg acc) (initial purse)).KeepsTerms) ↔
      AllAlong (step cfg acc) (BidsFair acc) (initial purse) ops := by
  have keeps : ∀ (w : AuctionWorld C) op, w.TermsInv → BidsFair acc w op →
      (w.step cfg acc op).TermsInv := fun _ op t fair => step_termsInv t op fair
  have breaks : ∀ (w : AuctionWorld C) op, w.TermsInv → (w.step cfg acc op).KeepsTerms →
      BidsFair acc w op := fun _ op _ h => fair_of_keepsTerms op h
  exact always_iff_allAlong keeps (fun _ t => t.terms) breaks (initial_termsInv purse) ops

/-! ## A first bid below the starting price -/

/-- A house without cuts and deposits. -/
def plainConfig : AuctionConfig := ⟨false, fun _ => 0, fun _ _ _ => 0, fun etime => etime.toUInt32, 0⟩

/-- Two characters of two accounts. -/
def twoAccounts : Accounts Bool := ⟨fun c => if c then 1 else 2, fun c => by cases c <;> decide⟩

/-- Both are online, at one address. -/
def bothOnline : Moment Bool := ⟨fun _ => true, fun _ => true, fun _ => 0, 0⟩

/-- One character offers an item for at least 1000, and the other bids 1. -/
def lowBidOps : List (Moment Bool × Op Bool) :=
  [(bothOnline, .sellItem true ⟨some ⟨.neutral, some ⟨7, 15⟩⟩, 1, some ⟨1, 1, 0, true, false, 0⟩, 1000, 0,
      720⟩),
    (bothOnline, .placeBid false (some .neutral) 1 1)]

theorem first_bid_below_startbid_stands :
    ¬ (lowBidOps.foldl (step plainConfig twoAccounts) (initial fun _ => ⟨1000, by decide⟩)).KeepsTerms := by
  intro h
  have hlive := h.startbid .neutral
  revert hlive
  decide +kernel

end AuctionWorld

end Sunstrider.Auction
