import Sunstrider.Auction.AuctionHouse
import Mathlib.Algebra.Order.Floor.Semifield
import Mathlib.Data.Rat.Floor

/-!
# The cut of an auction

`GetAuctionCut` multiplies the bid by the percentage as 32-bit words, before the rate and the division by
100. Where the product fits, the cut is the stated percentage, and the cut and the seller's profit grow
with the bid. Where it does not, the cut is too low (`cutAsStated_iff`).
These are laws for the rate 1; how another rate rounds is left open.
-/

namespace Sunstrider.Auction

open Sunstrider.Lib (addU32 subU32 mulU32 addU32_eq subU32_eq mulU32_eq)
open Sunstrider.Player (maxMoneyAmount)

variable {C : Type}

/-- `uint32(n * rate / 100.f)`, of a rate and with exact division. -/
def scaleCut (rate : ℚ) (n : ℕ) : UInt32 := UInt32.ofNat ⌊n * rate / 100⌋₊

theorem scaleCut_one {n : ℕ} (h : n < 2 ^ 32) : (scaleCut 1 n).toNat = n / 100 := by
  have hfloor : ⌊(n : ℚ) * 1 / 100⌋₊ = n / 100 := by
    rw [mul_one]
    exact Nat.floor_div_eq_div (K := ℚ) n 100
  rw [scaleCut, hfloor, UInt32.toNat_ofNat']
  exact Nat.mod_eq_of_lt (by omega)

namespace AuctionEntry

variable {cfg : AuctionConfig} {a : AuctionEntry C}

/-- The percentage of the house, or of a server on which both sides share it. -/
def cutPercent (cfg : AuctionConfig) (a : AuctionEntry C) : ℕ :=
  if cfg.allowTwoSideInteraction then 5 else a.auctionHouseEntry.cutPercent

/-- What `SendAuctionSuccessfulMail` sends to the seller. -/
def profit (cfg : AuctionConfig) (a : AuctionEntry C) : ℕ :=
  subU32 (addU32 a.bid a.deposit) (a.getAuctionCut cfg)

/-- The cut is the percentage of the bid, rounded down. It is no more than the bid, and a higher bid has
no lower cut and no lower profit. -/
structure CutAsStated (cfg : AuctionConfig) (a : AuctionEntry C) : Prop where
  percentage : a.getAuctionCut cfg = a.bid * a.cutPercent cfg / 100
  le_bid : a.getAuctionCut cfg ≤ a.bid
  cut_mono : ∀ bid ≤ a.bid, { a with bid }.getAuctionCut cfg ≤ a.getAuctionCut cfg
  profit_mono : ∀ bid ≤ a.bid, { a with bid }.profit cfg ≤ a.profit cfg

/-- The cut of any bid: the percentage of what is left of the product. -/
theorem getAuctionCut_eq (hrate : cfg.scaleCut = scaleCut 1) :
    a.getAuctionCut cfg = a.cutPercent cfg * a.bid % 2 ^ 32 / 100 := by
  show (cfg.scaleCut (mulU32 (a.cutPercent cfg) a.bid)).toNat = _
  rw [hrate]
  exact scaleCut_one (Nat.mod_lt _ (by decide))

theorem getAuctionCut_of_lt (hrate : cfg.scaleCut = scaleCut 1)
    (h : a.cutPercent cfg * a.bid < 2 ^ 32) :
    a.getAuctionCut cfg = a.bid * a.cutPercent cfg / 100 := by
  rw [getAuctionCut_eq hrate, Nat.mod_eq_of_lt h, Nat.mul_comm]

/-- A percentage of a difference is no more than the difference. -/
theorem percentage_le_add {pct bid bid' : ℕ} (hpct : pct ≤ 100) (h : bid ≤ bid') :
    bid' * pct / 100 + bid ≤ bid * pct / 100 + bid' := by
  obtain ⟨d, rfl⟩ := Nat.exists_eq_add_of_le h
  have hd : d * pct ≤ d * 100 := Nat.mul_le_mul_left d hpct
  rw [Nat.add_mul]
  omega

theorem percentage_le {pct : ℕ} (bid : ℕ) (hpct : pct ≤ 100) : bid * pct / 100 ≤ bid := by
  have h := percentage_le_add hpct (Nat.zero_le bid)
  rw [Nat.zero_mul] at h
  omega

/-- Below the wrap of the product nothing in the profit wraps. -/
theorem profit_of_lt (hrate : cfg.scaleCut = scaleCut 1) (hpct : a.cutPercent cfg ≤ 100)
    (hbid : a.bid ≤ maxMoneyAmount) (hdeposit : a.deposit ≤ maxMoneyAmount)
    (h : a.cutPercent cfg * a.bid < 2 ^ 32) :
    a.profit cfg = a.bid + a.deposit - a.bid * a.cutPercent cfg / 100 := by
  have hle := percentage_le a.bid hpct
  unfold maxMoneyAmount at hbid hdeposit
  rw [profit, getAuctionCut_of_lt hrate h, addU32_eq (by omega)]
  exact subU32_eq (by omega) (by omega)

/-- **When the cut is the stated percentage**: at the rate 1, just if the product of the percentage and
the bid is a 32-bit word. -/
theorem cutAsStated_iff (cfg : AuctionConfig) (a : AuctionEntry C)
    (hrate : cfg.scaleCut = scaleCut 1) (hpct : a.cutPercent cfg ≤ 100)
    (hbid : a.bid ≤ maxMoneyAmount) (hdeposit : a.deposit ≤ maxMoneyAmount) :
    a.CutAsStated cfg ↔ a.cutPercent cfg * a.bid < 2 ^ 32 := by
  constructor
  · intro h
    have hcut := h.percentage
    rw [getAuctionCut_eq hrate, Nat.mul_comm a.bid] at hcut
    omega
  · intro h
    have hless : ∀ bid ≤ a.bid, { a with bid }.cutPercent cfg * bid < 2 ^ 32 := fun bid hle =>
      (Nat.mul_le_mul_left _ hle).trans_lt h
    refine ⟨getAuctionCut_of_lt hrate h, ?_, fun bid hle => ?_, fun bid hle => ?_⟩
    · rw [getAuctionCut_of_lt hrate h]
      exact percentage_le a.bid hpct
    · rw [getAuctionCut_of_lt hrate h, getAuctionCut_of_lt hrate (hless bid hle)]
      exact Nat.div_le_div_right (Nat.mul_le_mul_right _ hle)
    · rw [profit_of_lt hrate hpct hbid hdeposit h,
        profit_of_lt (a := { a with bid }) hrate hpct (hle.trans hbid) hdeposit (hless bid hle)]
      have hdiff : a.bid * a.cutPercent cfg / 100 + bid ≤ bid * a.cutPercent cfg / 100 + a.bid :=
        percentage_le_add hpct hle
      show bid + a.deposit - bid * a.cutPercent cfg / 100 ≤
        a.bid + a.deposit - a.bid * a.cutPercent cfg / 100
      have hlow := percentage_le bid hpct
      have hhigh := percentage_le a.bid hpct
      omega

/-- A server at the rate 1 on which both sides share the auction house. -/
def sharedHouse : AuctionConfig := ⟨true, scaleCut 1, fun _ _ _ => 0, fun _ => 0, 0⟩

def soldFor (bid : ℕ) : AuctionEntry Unit :=
  ⟨1, 1, 1, 1, (), 1, bid, 0, 0, some (), 100, 0, ⟨1, 5⟩⟩

theorem cutAsStated_ten_gold :
    (soldFor 100000).CutAsStated sharedHouse ∧ (soldFor 100000).getAuctionCut sharedHouse = 5000 := by
  have hstated : (soldFor 100000).CutAsStated sharedHouse :=
    (cutAsStated_iff sharedHouse (soldFor 100000) rfl (by decide) (by decide) (by decide)).mpr (by decide)
  exact ⟨hstated, hstated.percentage⟩

/-- For 85899 gold 34 silver and 60 copper, five percent of which are 4294 gold, the cut is nothing. -/
theorem not_cutAsStated_of_wrap :
    (soldFor 858993460).bid ≤ maxMoneyAmount ∧
      (soldFor 858993460).getAuctionCut sharedHouse = 0 ∧
      ¬ (soldFor 858993460).CutAsStated sharedHouse := by
  have hcut : (soldFor 858993460).getAuctionCut sharedHouse = 0 := getAuctionCut_eq rfl
  refine ⟨by decide, hcut, fun h => ?_⟩
  have hstated := h.percentage
  rw [hcut] at hstated
  exact absurd hstated (by decide)

end AuctionEntry

end Sunstrider.Auction
