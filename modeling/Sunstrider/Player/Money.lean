import Sunstrider.Lib.Word

/-!
# A player's purse

`Player::ModifyMoney` and its bound. The purse is the field `PLAYER_FIELD_COINAGE`; a character is
loaded with at most `MAX_MONEY_AMOUNT` in it.
-/

namespace Sunstrider.Player

def maxMoneyAmount : ℕ := 2 ^ 31 - 1

/-- A purse as a character has it: `Player::LoadFromDB` cuts it off at the bound. -/
abbrev Purse : Type := {money : ℕ // money ≤ maxMoneyAmount}

/-- `Player::ModifyMoney`, of a purse and a signed amount: a loss empties the purse at most, and a
gain that would reach the bound is refused. -/
def modifyMoney (money : ℕ) (amount : ℤ) : ℕ :=
  if amount = 0 then money
  else if amount < 0 then
    if (-amount).toNat < money then money - (-amount).toNat else 0
  else if money < maxMoneyAmount - amount.toNat then money + amount.toNat
  else money

/-- The result of `Player::ModifyMoney`: only a gain can be refused. -/
def modifyMoneyResult (money : ℕ) (amount : ℤ) : Bool :=
  amount ≤ 0 || money < maxMoneyAmount - amount.toNat

/-- `Player::HasEnoughMoney`: a negative amount is always there. -/
def hasEnoughMoney (money : ℕ) (amount : ℤ) : Bool :=
  if 0 < amount then amount.toNat ≤ money else true

variable {money : ℕ}

/-- Paying an amount that the purse holds. -/
theorem modifyMoney_pay {amount : ℕ} (h : amount ≤ money) :
    modifyMoney money (-(amount : ℤ)) = money - amount := by
  unfold modifyMoney
  split
  next h0 => omega
  next h0 =>
    rw [if_pos (by omega), neg_neg, Int.toNat_natCast]
    split
    · rfl
    · omega

/-- Gaining an amount that the purse has room for. -/
theorem modifyMoney_gain {amount : ℕ} (h : money + amount < maxMoneyAmount) :
    modifyMoney money amount = money + amount := by
  unfold modifyMoney
  split
  next h0 => omega
  next h0 => rw [if_neg (by omega), Int.toNat_natCast, if_pos (by omega)]

theorem modifyMoney_le (amount : ℤ) (h : money ≤ maxMoneyAmount) :
    modifyMoney money amount ≤ maxMoneyAmount := by
  unfold modifyMoney
  split
  · exact h
  · split
    · split <;> omega
    · split <;> omega

end Sunstrider.Player
