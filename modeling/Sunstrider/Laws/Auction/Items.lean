import Sunstrider.Laws.Auction.Moves

/-!
# Where the items are

An item that is put up for sale is in its auction until a mail takes it, to the buyer or back to the
seller. `Kept` says that the guids in `mAitems` are the items of the live auctions, each in one of
them. The end of an auction puts its item into one mail (`Kept.ends`), so nothing is lost and nothing
doubled of what was put up for sale (`auction_house_conserves_items`).
-/

namespace Sunstrider.Auction.AuctionWorld

open Sunstrider.Lib (removeKey mem_removeKey countP_removeKey countP_replaceKey)

variable {C : Type} {cfg : AuctionConfig} {acc : Accounts C} {m : Moment C} {w w' : AuctionWorld C}
  {h : House} {a : AuctionEntry C}

/-- How many live auctions have the item. -/
def auctioned (w : AuctionWorld C) (guid : ℕ) : ℕ :=
  let count := fun h => (w.auctions h).countP fun a => a.itemGuid = guid
  count .horde + count .alliance + count .neutral

/-- How many mails have it. -/
def mailed (w : AuctionWorld C) (guid : ℕ) : ℕ := w.mails.countP fun mail => mail.item = some guid

def Kept (w : AuctionWorld C) : Prop := ∀ guid, w.auctioned guid = if guid ∈ w.aItems then 1 else 0

/-- No item is lost or doubled beside those that are put up for sale. -/
def Balanced (w w' : AuctionWorld C) (sold : ℕ → ℕ) : Prop :=
  w'.Kept ∧ ∀ guid, w'.auctioned guid + w'.mailed guid = w.auctioned guid + w.mailed guid + sold guid

theorem Kept.refl (k : w.Kept) : Balanced w w 0 := ⟨k, fun _ => rfl⟩

theorem Balanced.trans {u : AuctionWorld C} {s s' : ℕ → ℕ} (b : Balanced w w' s) (b' : Balanced w' u s') :
    Balanced w u (s + s') :=
  ⟨b'.1, fun guid => by rw [b'.2, b.2, Pi.add_apply, Nat.add_assoc]⟩

theorem auctioned_update {l : List (AuctionEntry C)} (hl : w'.auctions = Function.update w.auctions h l)
    (guid : ℕ) : w'.auctioned guid + (w.auctions h).countP (fun a => a.itemGuid = guid) =
      w.auctioned guid + l.countP fun a => a.itemGuid = guid := by
  unfold auctioned
  rw [hl]
  cases h <;> simp <;> omega

theorem Kept.mem (k : w.Kept) (live : a ∈ w.auctions h) : a.itemGuid ∈ w.aItems := by
  by_contra hnot
  have hzero := k a.itemGuid
  have hpos : 0 < (w.auctions h).countP fun b => b.itemGuid = a.itemGuid :=
    List.countP_pos_iff.mpr ⟨a, live, decide_eq_true rfl⟩
  rw [if_neg hnot] at hzero
  cases h <;> simp only [auctioned] at hzero <;> omega

/-! ## What the moves do -/

/-- An auction is over, with its item in one more mail. -/
theorem Kept.ends (k : w.Kept) (i : w.Inv) (live : a ∈ w.auctions h) (hauctions : w'.auctions = w.auctions)
    (hitems : w'.aItems = w.aItems)
    (hmails : ∀ guid, w'.mailed guid = w.mailed guid + if a.itemGuid = guid then 1 else 0) :
    Balanced w ((w'.removeAItem a.itemGuid).removeAuction h a.id) 0 := by
  let v := (w'.removeAItem a.itemGuid).removeAuction h a.id
  have hv : v.auctions = Function.update w.auctions h (removeKey AuctionEntry.id a.id (w.auctions h)) := by
    rw [← hauctions]
    rfl
  have hcount (guid : ℕ) : v.auctioned guid + (if a.itemGuid = guid then 1 else 0) = w.auctioned guid := by
    have hupdate := auctioned_update hv guid
    have hremove := countP_removeKey (fun b => decide (b.itemGuid = guid)) (i.unique h) live
    simp only [decide_eq_true_eq] at hremove
    omega
  refine ⟨fun guid => ?_, fun guid => ?_⟩
  · have hafter := hcount guid
    have hmem : guid ∈ v.aItems ↔ guid ∈ w.aItems ∧ guid ≠ a.itemGuid := by
      rw [← hitems]
      simp [v, removeAuction, removeAItem, setAuctions]
    rw [k guid] at hafter
    show v.auctioned guid = if guid ∈ v.aItems then 1 else 0
    split_ifs at hafter ⊢ <;> grind
  · show v.auctioned guid + w'.mailed guid = _
    rw [hmails, ← hcount guid, Pi.zero_apply, Nat.add_zero, Nat.add_right_comm, Nat.add_assoc]

theorem finishAuction_balanced (i : w.Inv) (k : w.Kept) (live : a ∈ w.auctions h) :
    Balanced w (w.finishAuction cfg acc m h a) 0 := by
  refine k.ends i live ?_ ?_ fun guid => ?_ <;>
  · unfold sendAuctionExpiredMail sendAuctionSuccessfulMail sendAuctionWonMail
    cases a.bidder <;>
    simp [getAItem, k.mem live, acc.known, sendMail, record, mailed, AuctionEntry.mail, List.countP_cons]

variable [DecidableEq C]

theorem buyOut_balanced (i : w.Inv) (k : w.Kept) (live : a ∈ w.auctions h) (pl : C) :
    Balanced w (w.buyOut cfg acc m pl h a) 0 := by
  have hitem := k.mem live
  refine k.ends i live ?_ ?_ fun guid => ?_ <;>
  · unfold sendAuctionOutbiddedMail sendAuctionSalePendingMail sendAuctionSuccessfulMail sendAuctionWonMail
    by_cases hp : a.bidder = some pl <;> cases hb : a.bidder <;>
    simp_all [getAItem, acc.known, sendMail, record, mailed, modifyMoney, AuctionEntry.mail,
      List.countP_cons]

theorem cancelAuction_balanced (i : w.Inv) (k : w.Kept) (live : a ∈ w.auctions h) (pl : C) :
    Balanced w (w.cancelAuction cfg acc m pl h a a.itemGuid) 0 := by
  refine k.ends i live ?_ ?_ fun guid => ?_ <;>
  · unfold sendAuctionCancelledToBidderMail
    cases a.bidder <;>
    simp [acc.known, sendMail, record, mailed, modifyMoney, AuctionEntry.mail, List.countP_cons]

theorem placeBid_balanced (i : w.Inv) (k : w.Kept) (live : a ∈ w.auctions h) (pl : C) (price : ℕ) :
    Balanced w (w.placeBid cfg acc m pl h a price) 0 := by
  let v := w.placeBid cfg acc m pl h a price
  have hchanges : w.Changes v _ _ _ := placeBid_changes pl h a price
  obtain ⟨hitems, hmails⟩ : v.aItems = w.aItems ∧ ∀ guid, v.mailed guid = w.mailed guid := by
    refine ⟨?_, fun guid => ?_⟩ <;>
    · unfold v placeBid sendAuctionOutbiddedMail
      by_cases hp : a.bidder = some pl <;> cases hb : a.bidder <;>
      simp_all [acc.known, sendMail, record, writeAuction, setAuctions, mailed, modifyMoney,
        AuctionEntry.mail]
  have hcount (guid : ℕ) : v.auctioned guid = w.auctioned guid := by
    have hid : { a with bidder := some pl, bid := price }.id = a.id := rfl
    have hreplace := countP_replaceKey (fun b => decide (b.itemGuid = guid)) (i.unique h) live hid
    exact Nat.add_right_cancel ((auctioned_update hchanges.auctions guid).trans
      (congrArg _ (Nat.add_right_cancel hreplace)))
  exact ⟨fun guid => by rw [hcount, k guid, hitems], fun guid => by rw [hcount, hmails]; rfl⟩

/-- An auction of this item was started. -/
def started (w w' : AuctionWorld C) (itemGuid guid : ℕ) : ℕ :=
  if itemGuid = guid ∧ w'.nextAuctionId ≠ w.nextAuctionId then 1 else 0

/-- A new auction has an item that no auction has. -/
theorem startAuction_balanced (k : w.Kept) (pl : C) (entry : AuctionHouseEntry) {r : SellRequest}
    (it : SellItem) (etime deposit : ℕ) (hnew : r.itemGuid ∉ w.aItems) :
    Balanced w (w.startAuction cfg m pl h entry r it etime deposit)
      (started w (w.startAuction cfg m pl h entry r it etime deposit) r.itemGuid) := by
  let v := w.startAuction cfg m pl h entry r it etime deposit
  have hv : v.auctions = Function.update w.auctions h
    (w.auctions h ++ [w.newAuction cfg m pl entry r it etime deposit]) := rfl
  have hcount (guid : ℕ) : v.auctioned guid = w.auctioned guid + if r.itemGuid = guid then 1 else 0 := by
    have hupdate := auctioned_update hv guid
    simp only [List.countP_append, List.countP_singleton, decide_eq_true_eq, newAuction] at hupdate
    omega
  refine ⟨fun guid => ?_, fun guid => ?_⟩
  · have hmem : guid ∈ v.aItems ↔ guid = r.itemGuid ∨ guid ∈ w.aItems := List.mem_cons
    show v.auctioned guid = if guid ∈ v.aItems then 1 else 0
    rw [hcount, k guid]
    split_ifs <;> grind
  · have hstarted : started w v r.itemGuid guid = if r.itemGuid = guid then 1 else 0 :=
      if_congr (and_iff_left (Nat.succ_ne_self _)) rfl rfl
    rw [hcount, hstarted, Nat.add_right_comm]
    rfl

/-! ## Every operation -/

theorem handleAuctionSellItem_balanced (k : w.Kept) (pl : C) (r : SellRequest) :
    Balanced w (w.handleAuctionSellItem cfg m pl r)
      (started w (w.handleAuctionSellItem cfg m pl r) r.itemGuid) := by
  -- it refuses, or it starts an auction of an item that is in none
  have hcases : w.handleAuctionSellItem cfg m pl r = w ∨ r.itemGuid ∉ w.aItems ∧
      ∃ h entry it etime deposit,
        w.handleAuctionSellItem cfg m pl r = w.startAuction cfg m pl h entry r it etime deposit := by
    unfold handleAuctionSellItem
    dsimp only
    repeat' split
    all_goals first | exact .inl rfl | exact .inr ⟨‹_›, _, _, _, _, _, rfl⟩
  rcases hcases with hsame | ⟨hnew, h, entry, it, etime, deposit, hstart⟩
  · rw [hsame]
    exact ⟨k, fun guid => by simp [started]⟩
  · rw [hstart]
    exact startAuction_balanced k pl entry it etime deposit hnew

theorem handleAuctionPlaceBid_balanced (i : w.Inv) (k : w.Kept) (pl : C) (npc : Option House)
    (id price : ℕ) : Balanced w (w.handleAuctionPlaceBid cfg acc m pl npc id price) 0 := by
  unfold handleAuctionPlaceBid
  repeat' split
  all_goals first
    | exact k.refl
    | exact placeBid_balanced i k (mem_of_getAuction ‹_›) pl price
    | exact buyOut_balanced i k (mem_of_getAuction ‹_›) pl

theorem handleAuctionRemoveItem_balanced (i : w.Inv) (k : w.Kept) (pl : C) (npc : Option House)
    (id : ℕ) : Balanced w (w.handleAuctionRemoveItem cfg acc m pl npc id) 0 := by
  have hitem {h : House} {a : AuctionEntry C} {item : ℕ} (hg : w.getAuction h id = some a)
      (hi : w.getAItem a.itemGuid = some item) :
      Balanced w (w.cancelAuction cfg acc m pl h a item) 0 := by
    have live := mem_of_getAuction hg
    rw [getAItem, if_pos (k.mem live)] at hi
    cases hi
    exact cancelAuction_balanced i k live pl
  unfold handleAuctionRemoveItem
  repeat' split
  all_goals first | exact k.refl | exact hitem ‹_› ‹_›

omit [DecidableEq C] in
/-- The loops of `Update` and `RemoveAllAuctionsOf`. -/
theorem finishAll_balanced (i : w.Inv) (k : w.Kept) (ends : AuctionEntry C → Prop) [DecidablePred ends]
    {l : List (AuctionEntry C)} (hl : (l.map AuctionEntry.id).Nodup) (live : ∀ a ∈ l, a ∈ w.auctions h) :
    Balanced w (l.foldl (fun w a => if ends a then w.finishAuction cfg acc m h a else w) w) 0 := by
  induction l generalizing w with
  | nil => exact k.refl
  | cons a l ih =>
    rw [List.map_cons, List.nodup_cons] at hl
    rw [List.foldl_cons]
    split
    · have hc : w.Changes (w.finishAuction cfg acc m h a) _ _ _ := finishAuction_changes h a
      have hb : Balanced w (w.finishAuction cfg acc m h a) 0 :=
        finishAuction_balanced i k (live a List.mem_cons_self)
      refine hb.trans (ih (hc.inv_of_remove i i.purse) hb.1 hl.2 fun b hb => ?_)
      have hne : b.id ≠ a.id := fun h => hl.1 (h ▸ List.mem_map_of_mem hb)
      rw [hc.auctions, Function.update_self]
      exact mem_removeKey.mpr ⟨live b (List.mem_cons_of_mem a hb), hne⟩
    · exact ih i k hl.2 fun b hb => live b (List.mem_cons_of_mem a hb)

/-- What an operation puts up for sale. -/
def sold (cfg : AuctionConfig) (w : AuctionWorld C) : Moment C × Op C → ℕ → ℕ
  | (m, .sellItem pl r) => started w (w.handleAuctionSellItem cfg m pl r) r.itemGuid
  | _ => 0

theorem step_balanced (i : w.Inv) (k : w.Kept) (op : Moment C × Op C) :
    (w.step cfg acc op).Inv ∧ Balanced w (w.step cfg acc op) (w.sold cfg op) := by
  obtain ⟨m, op⟩ := op
  have asks : Asks acc (fun _ _ => True) w (m, op) := by
    unfold Asks
    split <;> simp
  refine ⟨moves_inv i (step_moves i op asks), ?_⟩
  cases op with
  | sellItem pl r => exact handleAuctionSellItem_balanced k pl r
  | placeBid pl npc id price => exact handleAuctionPlaceBid_balanced i k pl npc id price
  | removeItem pl npc id => exact handleAuctionRemoveItem_balanced i k pl npc id
  | update h =>
    exact finishAll_balanced i k (fun a => a.expireTime < m.gameTime) (i.unique h) fun _ ha => ha
  | removeAllAuctionsOf owner =>
    have hin {w : AuctionWorld C} (i : w.Inv) (k : w.Kept) (h : House) :
        (w.removeAllAuctionsOfIn cfg acc m h owner).Inv ∧
          Balanced w (w.removeAllAuctionsOfIn cfg acc m h owner) 0 :=
      ⟨moves_inv i (removeAllAuctionsOfIn_moves (fun _ _ => True) i h owner),
        finishAll_balanced i k (fun a => a.owner = owner) (i.unique h) fun _ ha => ha⟩
    obtain ⟨i₁, b₁⟩ := hin i k .horde
    obtain ⟨i₂, b₂⟩ := hin i₁ b₁.1 .alliance
    exact (b₁.trans b₂).trans (hin i₂ b₂.1 .neutral).2

/-- What a run puts up for sale. -/
def sales (cfg : AuctionConfig) (acc : Accounts C) : AuctionWorld C → List (Moment C × Op C) → ℕ → ℕ
  | _, [] => 0
  | w, op :: ops => w.sold cfg op + sales cfg acc (w.step cfg acc op) ops

/-- **The auction house conserves items.** After any operations, at any moments, an item is in at most
one live auction, and in one exactly while it is in `mAitems`. It was put up for sale as often as mails
have carried it and auctions have it. -/
theorem auction_house_conserves_items (cfg : AuctionConfig) (acc : Accounts C) (purse : C → Player.Purse)
    (ops : List (Moment C × Op C)) (guid : ℕ) :
    let w := ops.foldl (step cfg acc) (initial purse)
    w.auctioned guid = (if guid ∈ w.aItems then 1 else 0) ∧
      w.auctioned guid + w.mailed guid = sales cfg acc (initial purse) ops guid := by
  have hrun (w : AuctionWorld C) (i : w.Inv) (k : w.Kept) :
      Balanced w (ops.foldl (step cfg acc) w) (sales cfg acc w ops) := by
    induction ops generalizing w with
    | nil => exact k.refl
    | cons op ops ih =>
      obtain ⟨hinv, hstep⟩ : (w.step cfg acc op).Inv ∧ Balanced w _ _ := step_balanced i k op
      exact hstep.trans (ih _ hinv hstep.1)
  obtain ⟨hkept, hsales⟩ := hrun (initial purse) (initial_inv purse) fun _ => rfl
  exact ⟨hkept guid, (hsales guid).trans (Nat.zero_add _)⟩

end Sunstrider.Auction.AuctionWorld
