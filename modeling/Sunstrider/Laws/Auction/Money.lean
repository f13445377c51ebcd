import Sunstrider.Laws.Auction.Moves
import Mathlib.Algebra.BigOperators.Group.Finset.Basic
import Mathlib.Algebra.Order.BigOperators.Group.Finset

/-!
# The auction house conserves money

`total` is all the money there is: in purses, in mails that were sent, in standing bids and in the
deposits of live auctions. Each move keeps it, but for what `Event.sink` names: the cut of a sale,
and the deposit and the cut of an auction that is cancelled or expires.

A bidder is displaced when somebody else bids, buys out, or when the owner cancels. `refunds` reads
the refunds off the mails and `displacements` the displaced bids off the events, and the two lists
are the same, in order: every displaced bidder gets his bid back, once, and nobody else does.
-/

namespace Sunstrider.Auction

open Sunstrider.Lib (addU32 subU32 mulU32 toInt32 toInt32_eq addU32_eq subU32_eq replaceKey removeKey
  sum_replaceKey sum_removeKey foldl_keeps)
open Sunstrider.Player (maxMoneyAmount modifyMoney_pay)

variable {C : Type}

/-! ## What is counted -/

instance : Fintype House := ⟨{.horde, .alliance, .neutral}, fun h => by cases h <;> decide⟩

/-- The money that a live auction holds: the standing bid and the deposit. -/
def AuctionEntry.held (a : AuctionEntry C) : ℕ := (if a.bidder.isSome then a.bid else 0) + a.deposit

/-- The money that an event takes out of the world. -/
def Event.sink (cfg : AuctionConfig) : Event C → ℕ
  | .bid _ _ _ => 0
  | .boughtOut _ _ => 0
  | .sold a => a.getAuctionCut cfg
  | .cancelled a => a.deposit + if a.bidder.isSome then a.getAuctionCut cfg else 0
  | .expired a => a.deposit

/-- The money that an event makes up: a sale whose cut is more than the bid and the deposit has a
profit that wraps around. -/
def Event.overflow (cfg : AuctionConfig) : Event C → ℕ
  | .sold a => if a.bid + a.deposit < a.getAuctionCut cfg then 2 ^ 32 else 0
  | _ => 0

/-- The bidder whom a bid of `pl` displaces, with the auction and his bid. -/
def AuctionEntry.displacedBy [DecidableEq C] (a : AuctionEntry C) (pl : C) : List (ℕ × C × ℕ) :=
  match a.bidder with
  | some bidder => if bidder = pl then [] else [(a.id, bidder, a.bid)]
  | none => []

/-- The bidder whom an event displaces. -/
def Event.displaced [DecidableEq C] : Event C → List (ℕ × C × ℕ)
  | .bid a pl _ => a.displacedBy pl
  | .boughtOut a pl => a.displacedBy pl
  | .sold _ => []
  | .cancelled a => a.bidder.toList.map fun bidder => (a.id, bidder, a.bid)
  | .expired _ => []

/-- The refund that a mail is: the auction, the receiver and the money. -/
def Mail.refund (m : Mail C) : List (ℕ × C × ℕ) :=
  if m.response = .outbidded || m.response = .cancelledToBidder then
    [(m.auction, m.receiver, m.money)]
  else []

namespace AuctionWorld

def moneySent (w : AuctionWorld C) : ℕ := (w.mails.map Mail.money).sum

def refunds (w : AuctionWorld C) : List (ℕ × C × ℕ) := w.mails.flatMap Mail.refund

def displacements [DecidableEq C] (w : AuctionWorld C) : List (ℕ × C × ℕ) :=
  w.history.flatMap Event.displaced

def sinks (cfg : AuctionConfig) (w : AuctionWorld C) : ℕ := (w.history.map (Event.sink cfg)).sum

def overflows (cfg : AuctionConfig) (w : AuctionWorld C) : ℕ :=
  (w.history.map (Event.overflow cfg)).sum

/-- The money in live auctions. -/
def moneyHeld (w : AuctionWorld C) : ℕ := ∑ h, ((w.auctions h).map AuctionEntry.held).sum

/-- All the money there is. -/
def total [Fintype C] (w : AuctionWorld C) : ℕ := ∑ c, w.purse c + w.moneySent + w.moneyHeld

/-! ## Money in mails -/

/-- The mails that were sent carry the money and make the refunds. -/
structure Posts (w w' : AuctionWorld C) (money : ℕ) (refunds : List (ℕ × C × ℕ)) : Prop where
  money : w'.moneySent = w.moneySent + money
  refunds : w'.refunds = w.refunds ++ refunds
  mails : w.mails ⊆ w'.mails

variable {money : ℕ}

section Posts

variable {cfg : AuctionConfig} {acc : Accounts C} {m : Moment C} {w w' w'' : AuctionWorld C}

theorem posts_of_mails (h : w'.mails = w.mails) : w.Posts w' 0 [] := by
  refine ⟨?_, ?_, h ▸ List.Subset.refl _⟩
  · rw [moneySent, h]
    rfl
  · rw [refunds, h, List.append_nil]
    rfl

theorem Posts.trans {money' : ℕ} {l l' : List (ℕ × C × ℕ)} (h : w.Posts w' money l)
    (h' : w'.Posts w'' money' l') : w.Posts w'' (money + money') (l ++ l') :=
  ⟨by rw [h'.money, h.money, add_assoc], by rw [h'.refunds, h.refunds, List.append_assoc],
    List.Subset.trans h.mails h'.mails⟩

theorem Posts.then {l : List (ℕ × C × ℕ)} (h : w.Posts w' money l) (h' : w''.mails = w'.mails) :
    w.Posts w'' money l := by
  have := h.trans (posts_of_mails h')
  rwa [add_zero, List.append_nil] at this

theorem sendMail_posts (mail : Mail C) : w.Posts (w.sendMail mail) mail.money mail.refund := by
  refine ⟨?_, ?_, List.subset_append_left _ _⟩
  · show ((w.mails ++ [mail]).map Mail.money).sum = _
    rw [List.map_append, List.sum_append, List.map_singleton, List.sum_singleton]
    rfl
  · show (w.mails ++ [mail]).flatMap Mail.refund = _
    rw [List.flatMap_append, List.flatMap_singleton]
    rfl

/-- Every character is known, so a mail that asks for an online or a known receiver is sent. -/
theorem receiver_exists (acc : Accounts C) (c : C) (b : Bool) :
    (b || decide (acc.accountId c ≠ 0)) = true := by
  rw [decide_eq_true (acc.known c), Bool.or_true]

section Mails

variable (cfg acc m)

section

variable (a : AuctionEntry C)

include a

theorem outbidded_posts (b : C) :
    w.Posts (w.sendAuctionOutbiddedMail cfg acc m a b) a.bid [(a.id, b, a.bid)] := by
  unfold sendAuctionOutbiddedMail
  rw [if_pos (receiver_exists acc b _)]
  exact sendMail_posts _

theorem cancelledToBidder_posts (b : C) :
    w.Posts (w.sendAuctionCancelledToBidderMail acc m a b) a.bid [(a.id, b, a.bid)] := by
  unfold sendAuctionCancelledToBidderMail
  rw [if_pos (receiver_exists acc b _)]
  exact sendMail_posts _

theorem salePending_posts : w.Posts (w.sendAuctionSalePendingMail cfg acc m a) 0 [] := by
  unfold sendAuctionSalePendingMail
  rw [if_pos (receiver_exists acc a.owner _)]
  exact sendMail_posts _

theorem successful_posts : w.Posts (w.sendAuctionSuccessfulMail cfg acc m a)
    (subU32 (addU32 a.bid a.deposit) (a.getAuctionCut cfg)) [] := by
  unfold sendAuctionSuccessfulMail
  rw [if_pos (receiver_exists acc a.owner _)]
  exact sendMail_posts _

theorem pending_posts :
    w.Posts ((w.sendAuctionSalePendingMail cfg acc m a).sendAuctionSuccessfulMail cfg acc m a)
      (subU32 (addU32 a.bid a.deposit) (a.getAuctionCut cfg)) [] := by
  have hpending : w.Posts (w.sendAuctionSalePendingMail cfg acc m a) 0 [] := salePending_posts cfg acc m a
  have hboth := hpending.trans (successful_posts cfg acc m a)
  rwa [zero_add, List.append_nil] at hboth

theorem won_posts : w.Posts (w.sendAuctionWonMail acc m a) 0 [] := by
  unfold sendAuctionWonMail
  split
  · next item bidder _ _ =>
    rw [if_pos (receiver_exists acc bidder _)]
    exact sendMail_posts _
  · exact posts_of_mails rfl

theorem expired_posts : w.Posts (w.sendAuctionExpiredMail acc m a) 0 [] := by
  unfold sendAuctionExpiredMail
  split
  · next item _ =>
    rw [if_pos (receiver_exists acc a.owner _)]
    exact sendMail_posts _
  · exact posts_of_mails rfl

end

/-- The money that the mails of a displacement carry. -/
def refunded (l : List (ℕ × C × ℕ)) : ℕ := (l.map fun r => r.2.2).sum

theorem finishAuction_posts (h : House) (a : AuctionEntry C) :
    w.Posts (w.finishAuction cfg acc m h a)
      (if a.bidder.isNone then 0 else subU32 (addU32 a.bid a.deposit) (a.getAuctionCut cfg)) [] := by
  unfold finishAuction
  by_cases hb : a.bidder.isNone
  · simp only [hb, if_true]
    have hpost : w.Posts (w.sendAuctionExpiredMail acc m a) 0 [] := expired_posts acc m a
    exact hpost.then rfl
  · simp only [if_neg hb]
    have hsold : w.Posts (w.sendAuctionSuccessfulMail cfg acc m a) _ _ :=
      successful_posts cfg acc m a
    have hboth := hsold.trans (won_posts acc m a)
    exact hboth.then rfl

variable [DecidableEq C]

theorem placeBid_posts (pl : C) (h : House) (a : AuctionEntry C) (price : ℕ) :
    w.Posts (w.placeBid cfg acc m pl h a price) (refunded (a.displacedBy pl)) (a.displacedBy pl) := by
  unfold placeBid AuctionEntry.displacedBy
  cases hb : a.bidder with
  | none => exact posts_of_mails rfl
  | some bidder =>
    by_cases hp : bidder = pl
    · simp only [if_pos hp]
      exact posts_of_mails rfl
    · simp only [if_neg hp]
      have hpost : w.Posts (w.sendAuctionOutbiddedMail cfg acc m a bidder) _ _ :=
        outbidded_posts cfg acc m a bidder
      exact hpost.then rfl

theorem buyOut_posts (pl : C) (h : House) (a : AuctionEntry C) :
    w.Posts (w.buyOut cfg acc m pl h a) (refunded (a.displacedBy pl) +
      subU32 (addU32 a.buyout a.deposit) ((boughtOut a pl).getAuctionCut cfg)) (a.displacedBy pl) := by
  have rest : ∀ {w₁ : AuctionWorld C} {l : List (ℕ × C × ℕ)}, w.Posts w₁ (refunded l) l →
      w.Posts (((((((w₁.record (.boughtOut a pl)).sendAuctionSalePendingMail cfg acc m
        (boughtOut a pl)).sendAuctionSuccessfulMail cfg acc m (boughtOut a pl)).sendAuctionWonMail
        acc m (boughtOut a pl)).record (.sold (boughtOut a pl))).removeAItem
        a.itemGuid).removeAuction h a.id) (refunded l +
          subU32 (addU32 a.buyout a.deposit) ((boughtOut a pl).getAuctionCut cfg)) l := by
    intro w₁ l hp
    have hbought : w.Posts (w₁.record (.boughtOut a pl)) (refunded l) l := hp.then rfl
    have hsent := (hbought.trans (pending_posts cfg acc m (boughtOut a pl))).trans (won_posts acc m (boughtOut a pl))
    simp only [add_zero, List.append_nil] at hsent
    exact hsent.then rfl
  unfold buyOut AuctionEntry.displacedBy
  cases hb : a.bidder with
  | none => exact rest (posts_of_mails rfl)
  | some bidder =>
    by_cases hp : bidder = pl
    · simp only [if_pos hp]
      exact rest (posts_of_mails rfl)
    · simp only [if_neg hp]
      have hpaid : w.Posts (w.modifyMoney pl (-toInt32 a.buyout)) 0 [] := posts_of_mails rfl
      have hpost := hpaid.trans (outbidded_posts cfg acc m a bidder)
      rw [zero_add, List.nil_append] at hpost
      exact rest hpost

theorem cancelAuction_posts (pl : C) (h : House) (a : AuctionEntry C) (item : ℕ) :
    w.Posts (w.cancelAuction cfg acc m pl h a item)
      (refunded (Event.cancelled a).displaced) (Event.cancelled a).displaced := by
  have rest : ∀ {w₁ : AuctionWorld C} {l : List (ℕ × C × ℕ)}, w.Posts w₁ (refunded l) l →
      w.Posts ((((w₁.sendMail (a.mail pl .canceled none 0 a.deposit 0 0 (some item) 0)).record
        (.cancelled a)).removeAItem a.itemGuid).removeAuction h a.id) (refunded l) l := by
    intro w₁ l hp
    have hsent := hp.trans (sendMail_posts (a.mail pl .canceled none 0 a.deposit 0 0 (some item) 0))
    have hnil : (a.mail pl .canceled none 0 a.deposit 0 0 (some item) 0).refund = [] := rfl
    rw [hnil, List.append_nil] at hsent
    exact hsent.then rfl
  unfold cancelAuction
  cases hb : a.bidder with
  | none =>
    have hnone : (Event.cancelled a).displaced = [] := by simp [Event.displaced, hb]
    rw [hnone]
    exact rest (posts_of_mails rfl)
  | some bidder =>
    have hsome : (Event.cancelled a).displaced = [(a.id, bidder, a.bid)] := by
      simp [Event.displaced, hb]
    have hpost : w.Posts (w.sendAuctionCancelledToBidderMail acc m a bidder) _ _ :=
      cancelledToBidder_posts acc m a bidder
    rw [hsome]
    exact rest (hpost.then rfl)

end Mails

end Posts

/-! ## The balance of a move -/

section Balance

variable {cfg : AuctionConfig} {acc : Accounts C} {m : Moment C} {w w' : AuctionWorld C}

/-- A change in one house changes the money held by the difference there. -/
theorem moneyHeld_update (h : House) {l : List (AuctionEntry C)}
    (hauctions : w'.auctions = Function.update w.auctions h l) :
    w'.moneyHeld + ((w.auctions h).map AuctionEntry.held).sum =
      w.moneyHeld + (l.map AuctionEntry.held).sum := by
  have hrest : ∀ h' ∈ Finset.univ.erase h, ((w'.auctions h').map AuctionEntry.held).sum =
      ((w.auctions h').map AuctionEntry.held).sum := fun h' hh => by
    rw [hauctions, Function.update_of_ne (Finset.ne_of_mem_erase hh)]
  rw [moneyHeld, moneyHeld, ← Finset.add_sum_erase _ _ (Finset.mem_univ h),
    ← Finset.add_sum_erase _ _ (Finset.mem_univ h), Finset.sum_congr rfl hrest, hauctions,
    Function.update_self]
  omega

variable {h : House} {a : AuctionEntry C}

theorem moneyHeld_remove (i : w.Inv) (live : a ∈ w.auctions h) (hauctions : w'.auctions =
      Function.update w.auctions h (removeKey AuctionEntry.id a.id (w.auctions h))) :
    w'.moneyHeld + a.held = w.moneyHeld := by
  have h₁ := moneyHeld_update h hauctions
  have h₂ := sum_removeKey AuctionEntry.held (i.unique h) live
  omega

theorem moneyHeld_write (i : w.Inv) {a' : AuctionEntry C} (live : a ∈ w.auctions h)
    (hid : a'.id = a.id) (hauctions : w'.auctions =
      Function.update w.auctions h (replaceKey AuctionEntry.id a' (w.auctions h))) :
    w'.moneyHeld + a.held = w.moneyHeld + a'.held := by
  have h₁ := moneyHeld_update h hauctions
  have h₂ := sum_replaceKey AuctionEntry.held (i.unique h) live hid
  omega

/-- The seller's profit, with the cut: the bid and the deposit, unless it wraps. -/
theorem profit_add_cut (cfg : AuctionConfig) (a : AuctionEntry C) (hb : a.bid ≤ maxMoneyAmount)
    (hd : a.deposit ≤ maxMoneyAmount) :
    subU32 (addU32 a.bid a.deposit) (a.getAuctionCut cfg) + a.getAuctionCut cfg =
      a.bid + a.deposit + (Event.sold a).overflow cfg := by
  have hcut : a.getAuctionCut cfg < 2 ^ 32 := UInt32.toNat_lt _
  unfold maxMoneyAmount at hb hd
  rw [addU32_eq (by omega), subU32, Nat.mod_eq_of_lt hcut, Event.overflow]
  split <;> omega

/-- The seller has a mail with the bid and the deposit, without the cut. -/
def SellerPaid (cfg : AuctionConfig) (w : AuctionWorld C) (a : AuctionEntry C) : Prop :=
  ∃ mail ∈ w.mails, mail.response = .successful ∧ mail.receiver = a.owner ∧ mail.auction = a.id ∧
    mail.money + a.getAuctionCut cfg = a.bid + a.deposit + (Event.sold a).overflow cfg

theorem sellerPaid_of_mails
    (hmails : ∃ w₁ : AuctionWorld C, (w₁.sendAuctionSuccessfulMail cfg acc m a).mails ⊆ w'.mails)
    (hb : a.bid ≤ maxMoneyAmount) (hd : a.deposit ≤ maxMoneyAmount) : w'.SellerPaid cfg a := by
  obtain ⟨w₁, hmails⟩ := hmails
  unfold sendAuctionSuccessfulMail at hmails
  rw [if_pos (receiver_exists acc a.owner _)] at hmails
  exact ⟨_, hmails (List.mem_append_right _ (List.mem_singleton_self _)), rfl, rfl, rfl,
    profit_add_cut cfg a hb hd⟩

variable [DecidableEq C]

variable {price : ℕ}

/-- What a bidder pays, with the bid that the auction has held, is the price and the refund. -/
theorem due_add_bid (a : AuctionEntry C) (pl : C) (hprice : a.bid ≤ price)
    (hmax : price ≤ maxMoneyAmount) :
    due a pl price + (if a.bidder.isSome then a.bid else 0) =
      price + refunded (a.displacedBy pl) := by
  have hlt : price < 2 ^ 32 := by
    unfold maxMoneyAmount at hmax
    omega
  unfold due AuctionEntry.displacedBy refunded
  cases hb : a.bidder with
  | none => simp
  | some bidder =>
    by_cases hp : bidder = pl
    · simp only [hp, if_true, subU32_eq hprice hlt, Option.isSome_some, List.map_nil, List.sum_nil]
      omega
    · have hp' : ¬ some bidder = some pl := fun h => hp (Option.some.inj h)
      simp [if_neg hp]

theorem due_le (a : AuctionEntry C) (pl : C) (hprice : a.bid ≤ price)
    (hmax : price ≤ maxMoneyAmount) : due a pl price ≤ price := by
  unfold maxMoneyAmount at hmax
  unfold due
  split
  · exact (subU32_eq hprice (by omega)).le.trans (Nat.sub_le _ _)
  · exact le_rfl

variable [Fintype C]

/-- A payment that the purse can make leaves the purses by its amount. -/
theorem sum_pay (i : w.Inv) {pl : C} {amount : ℕ} (h : amount ≤ w.purse pl) :
    ∑ c, w.pay pl amount c + amount = ∑ c, w.purse c := by
  have hlt : amount < 2 ^ 31 := by
    have := i.purse pl
    unfold maxMoneyAmount at this
    omega
  have hpay : w.pay pl amount pl = w.purse pl - amount := by
    rw [pay, Function.update_self, toInt32_eq hlt, modifyMoney_pay h]
  have hrest : ∑ c ∈ Finset.univ.erase pl, w.pay pl amount c =
      ∑ c ∈ Finset.univ.erase pl, w.purse c :=
    Finset.sum_congr rfl fun c hc => Function.update_of_ne (Finset.ne_of_mem_erase hc) _ _
  have hnew := Finset.add_sum_erase Finset.univ (w.pay pl amount) (Finset.mem_univ pl)
  have hold := Finset.add_sum_erase Finset.univ w.purse (Finset.mem_univ pl)
  omega

/-- The books of a run that began with the money `start`: the total has lost the sinks, the refunds
that were sent are the bids that were displaced, and the sellers are paid. -/
structure Books (cfg : AuctionConfig) (start : ℕ) (w : AuctionWorld C) : Prop where
  total : w.total + w.sinks cfg = start + w.overflows cfg
  refunds : w.refunds = w.displacements
  sellers : ∀ a, Event.sold a ∈ w.history → w.SellerPaid cfg a

variable {start : ℕ}

theorem Books.of_posts (b : w.Books cfg start) {events : List (Event C)}
    {refunds : List (ℕ × C × ℕ)} (hp : w.Posts w' money refunds)
    (hhistory : w'.history = w.history ++ events)
    (hrefunds : refunds = events.flatMap Event.displaced)
    (hsellers : ∀ a, Event.sold a ∈ events → w'.SellerPaid cfg a)
    (hmoney : ∑ c, w'.purse c + money + w'.moneyHeld + (events.map (Event.sink cfg)).sum =
      ∑ c, w.purse c + w.moneyHeld + (events.map (Event.overflow cfg)).sum) :
    w'.Books cfg start := by
  constructor
  · have hold := b.total
    unfold AuctionWorld.total sinks overflows at hold ⊢
    rw [hp.money, hhistory, List.map_append, List.sum_append, List.map_append, List.sum_append]
    omega
  · rw [hp.refunds, b.refunds, hrefunds, displacements, displacements, hhistory,
      List.flatMap_append]
  · intro a ha
    rw [hhistory, List.mem_append] at ha
    rcases ha with ha | ha
    · obtain ⟨mail, hmail, rest⟩ := b.sellers a ha
      exact ⟨mail, hp.mails hmail, rest⟩
    · exact hsellers a ha

theorem startAuction_books (i : w.Inv) (b : w.Books cfg start) (pl : C) (h : House)
    (entry : AuctionHouseEntry) (r : SellRequest) (it : SellItem) (etime : ℕ) {deposit : ℕ}
    (money : deposit ≤ w.purse pl) :
    (w.startAuction cfg m pl h entry r it etime deposit).Books cfg start := by
  let a := w.newAuction cfg m pl entry r it etime deposit
  let w' := w.startAuction cfg m pl h entry r it etime deposit
  have hp : w.Posts w' 0 [] := posts_of_mails rfl
  refine b.of_posts hp (List.append_nil _).symm rfl (fun _ h => nomatch h) ?_
  have hauctions : w'.auctions = Function.update w.auctions h (w.auctions h ++ [a]) := rfl
  have hheld := moneyHeld_update h hauctions
  have hnew : a.held = deposit := Nat.zero_add deposit
  rw [List.map_append, List.sum_append, List.map_singleton, List.sum_singleton, hnew] at hheld
  have hpaid : ∑ c, w'.purse c + deposit = ∑ c, w.purse c := sum_pay i money
  show ∑ c, w'.purse c + 0 + w'.moneyHeld + 0 = _ + 0
  omega

theorem placeBid_books (i : w.Inv) (b : w.Books cfg start) (pl : C) (live : a ∈ w.auctions h)
    (above : a.bid < price) (money : price ≤ w.purse pl) :
    (w.placeBid cfg acc m pl h a price).Books cfg start := by
  let a' : AuctionEntry C := { a with bidder := some pl, bid := price }
  let w' := w.placeBid cfg acc m pl h a price
  have hc : w.Changes w' _ _ _ := placeBid_changes pl h a price
  have hmax := money.trans (i.purse pl)
  refine b.of_posts (placeBid_posts cfg acc m pl h a price) hc.history ?_ ?_ ?_
  · rw [List.flatMap_singleton]
    rfl
  · intro b hb
    cases List.mem_singleton.mp hb
  · have hpaid := sum_pay i ((due_le a pl above.le hmax).trans money)
    have hid : a'.id = a.id := rfl
    have hheld := moneyHeld_write i live hid hc.auctions
    have hdue := due_add_bid a pl above.le hmax
    have hnew : a'.held = price + a.deposit := rfl
    show ∑ c, w'.purse c + _ + w'.moneyHeld + 0 = _ + 0
    rw [hc.purse]
    unfold AuctionEntry.held at hheld hnew
    omega

theorem buyOut_books (i : w.Inv) (b : w.Books cfg start) (pl : C) (live : a ∈ w.auctions h)
    (hasBuyout : a.buyout ≠ 0) (money : a.buyout ≤ w.purse pl) :
    (w.buyOut cfg acc m pl h a).Books cfg start := by
  have hc : w.Changes (w.buyOut cfg acc m pl h a) _ _ _ := buyOut_changes pl h a
  have hmax := money.trans (i.purse pl)
  have hdeposit := i.deposit live
  have hbid := (i.buyout live hasBuyout).le
  refine b.of_posts (buyOut_posts cfg acc m pl h a) hc.history ?_ ?_ ?_
  · rw [List.flatMap_cons, List.flatMap_singleton]
    exact (List.append_nil _).symm
  · intro b hb
    rcases List.mem_pair.mp hb with hb | hb
    · cases hb
    · cases hb
      have hmails : ∃ w₁ : AuctionWorld C,
          (w₁.sendAuctionSuccessfulMail cfg acc m (boughtOut a pl)).mails ⊆
            (w.buyOut cfg acc m pl h a).mails := ⟨_, (won_posts acc m (boughtOut a pl)).mails⟩
      exact sellerPaid_of_mails hmails hmax hdeposit
  · have hpaid := sum_pay i ((due_le a pl hbid hmax).trans money)
    have hheld := moneyHeld_remove i live hc.auctions
    have hdue := due_add_bid a pl hbid hmax
    have hprofit := profit_add_cut cfg (boughtOut a pl) hmax hdeposit
    rw [hc.purse]
    simp only [List.map_cons, List.map_nil, List.sum_cons, List.sum_nil, Event.sink]
    unfold AuctionEntry.held at hheld
    have hzero : (Event.boughtOut a pl).overflow cfg = 0 := rfl
    have hsold : (boughtOut a pl).bid = a.buyout ∧ (boughtOut a pl).deposit = a.deposit := ⟨rfl, rfl⟩
    rw [hsold.1, hsold.2] at hprofit
    omega

theorem cancelAuction_books (i : w.Inv) (b : w.Books cfg start) (pl : C) (item : ℕ)
    (live : a ∈ w.auctions h) (money : a.bidder.isSome → a.getAuctionCut cfg ≤ w.purse pl) :
    (w.cancelAuction cfg acc m pl h a item).Books cfg start := by
  have hc : w.Changes (w.cancelAuction cfg acc m pl h a item) _ _ _ :=
    cancelAuction_changes pl h a item
  refine b.of_posts (cancelAuction_posts cfg acc m pl h a item) hc.history ?_ ?_ ?_
  · rw [List.flatMap_singleton]
  · intro b hb
    cases List.mem_singleton.mp hb
  · have hheld := moneyHeld_remove i live hc.auctions
    rw [hc.purse]
    simp only [List.map_singleton, List.sum_singleton, Event.sink, Event.displaced, refunded]
    unfold AuctionEntry.held at hheld
    have hzero : (Event.cancelled a).overflow cfg = 0 := rfl
    cases hb : a.bidder with
    | none =>
      simp only [hb, Option.isSome_none, Bool.false_eq_true, if_false] at hheld ⊢
      simp
      omega
    | some bidder =>
      have hpaid := sum_pay i (money (by rw [hb]; rfl))
      simp only [hb, Option.isSome_some, if_true] at hheld ⊢
      simp
      omega

theorem finishAuction_books (i : w.Inv) (b : w.Books cfg start) (live : a ∈ w.auctions h) :
    (w.finishAuction cfg acc m h a).Books cfg start := by
  have hc : w.Changes (w.finishAuction cfg acc m h a) _ _ _ := finishAuction_changes h a
  have hheld := moneyHeld_remove i live hc.auctions
  have hp : w.Posts (w.finishAuction cfg acc m h a) _ _ := finishAuction_posts cfg acc m h a
  unfold AuctionEntry.held at hheld
  cases hb : a.bidder with
  | none =>
    refine b.of_posts hp hc.history ?_ ?_ ?_
    · simp [hb, Event.displaced]
    · intro b hs
      simp [hb] at hs
    · rw [hc.purse]
      simp only [hb, Option.isSome_none, Bool.false_eq_true, if_false] at hheld
      simp [hb, Event.sink, Event.overflow]
      omega
  | some bidder =>
    have hprofit := profit_add_cut cfg a (i.bid live) (i.deposit live)
    refine b.of_posts hp hc.history ?_ ?_ ?_
    · simp [hb, Event.displaced]
    · intro b hs
      simp only [hb, Option.isNone_some, Bool.false_eq_true, if_false, List.mem_singleton] at hs
      cases hs
      have hmails : ∃ w₁ : AuctionWorld C, (w₁.sendAuctionSuccessfulMail cfg acc m a).mails ⊆
          (w.finishAuction cfg acc m h a).mails := by
        unfold finishAuction
        simp only [hb, Option.isNone_some]
        exact ⟨_, (won_posts acc m a).mails⟩
      exact sellerPaid_of_mails hmails (i.bid live) (i.deposit live)
    · rw [hc.purse]
      simp only [hb, Option.isSome_some, if_true] at hheld
      simp only [hb, Option.isNone_some, Bool.false_eq_true, if_false, List.map_singleton,
        List.sum_singleton, Event.sink]
      omega

/-- **Every move keeps the books.** -/
theorem move_books {Ok : AuctionEntry C → ℕ → Prop} (i : w.Inv) (b : w.Books cfg start)
    (hm : Move cfg acc Ok m w w') : w'.Books cfg start := by
  cases hm with
  | start pl h entry r it etime money => exact startAuction_books i b pl h entry r it etime money
  | bid pl live above below enough money ok => exact placeBid_books i b pl live above money
  | buyOut pl live hasBuyout money => exact buyOut_books i b pl live hasBuyout money
  | cancel pl item live money => exact cancelAuction_books i b pl item live money
  | finish live => exact finishAuction_books i b live

theorem step_books (i : w.Inv) (b : w.Books cfg start) (op : Moment C × Op C) :
    (w.step cfg acc op).Inv ∧ (w.step cfg acc op).Books cfg start := by
  obtain ⟨m, op⟩ := op
  have asks : Asks acc (fun _ _ => True) w (m, op) := by
    unfold Asks
    split
    · exact fun _ _ _ => trivial
    · trivial
  have keeps : ∀ w w' : AuctionWorld C, w.Inv ∧ w.Books cfg start →
      Move cfg acc (fun _ _ => True) m w w' → w'.Inv ∧ w'.Books cfg start := fun _ _ hw hm =>
    ⟨move_inv hw.1 hm, move_books hw.1 hw.2 hm⟩
  exact keeps_of_moves keeps ⟨i, b⟩ (step_moves i op asks)

end Balance

/-! ## Every run -/

/-- **The auction house conserves money.** After any operations, at any moments:

- the refunds that were sent are the bids that were displaced, one by one;
- the purses, the mails and the live auctions have what the purses had at first, without the cuts of
  sales and cancellations and the deposits of cancelled and expired auctions; only a sale whose cut is
  more than its bid and deposit together would make up money;
- where the cut of a sale is at most the bid, the seller's mail has the bid and the deposit, without
  the cut. -/
theorem auction_house_conserves_money [DecidableEq C] [Fintype C] (cfg : AuctionConfig) (acc : Accounts C)
    (purse : C → Player.Purse) (ops : List (Moment C × Op C)) :
    let w := ops.foldl (step cfg acc) (initial purse)
    w.refunds = w.displacements ∧
      w.total + w.sinks cfg = ∑ c, (purse c : ℕ) + w.overflows cfg ∧
      (∀ a, Event.sold a ∈ w.history → a.getAuctionCut cfg ≤ a.bid →
        (Event.sold a).overflow cfg = 0 ∧
        ∃ mail ∈ w.mails, mail.response = .successful ∧ mail.receiver = a.owner ∧
          mail.auction = a.id ∧ mail.money = a.bid + a.deposit - a.getAuctionCut cfg) := by
  intro w
  have hinit : (initial purse).Books cfg (∑ c, (purse c : ℕ)) := ⟨rfl, rfl, fun _ h => nomatch h⟩
  have keeps : ∀ (w : AuctionWorld C) (op : Moment C × Op C),
      w.Inv ∧ w.Books cfg (∑ c, (purse c : ℕ)) →
      (w.step cfg acc op).Inv ∧ (w.step cfg acc op).Books cfg (∑ c, (purse c : ℕ)) :=
    fun w op hw => step_books hw.1 hw.2 op
  obtain ⟨-, b⟩ := foldl_keeps keeps ops ⟨initial_inv purse, hinit⟩
  refine ⟨b.refunds, b.total, fun a ha hcut => ?_⟩
  have hzero : (Event.sold a).overflow cfg = 0 := if_neg (by omega)
  obtain ⟨mail, hmail, hresponse, hreceiver, hauction, hmoney⟩ := b.sellers a ha
  exact ⟨hzero, mail, hmail, hresponse, hreceiver, hauction, by omega⟩

end AuctionWorld

end Sunstrider.Auction
