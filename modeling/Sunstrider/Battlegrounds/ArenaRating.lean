import Mathlib.Algebra.Order.Floor.Defs
import Mathlib.Algebra.Order.Ring.Defs

/-!
# Changes of arena ratings

`ArenaTeam::GetRatingMod`, for a match in exact arithmetic. The chance to win against a team is any function with
the properties of the one that `GetChanceAgainst` computes.
-/

namespace Sunstrider.Battlegrounds.ArenaRating

variable {K : Type} [Ring K] [LinearOrder K]

/-- `GetChanceAgainst`: the chance to win against a team, by one's own rating and that of the enemy. -/
structure WinChance (K : Type) [Ring K] [LinearOrder K] where
  against : UInt32 → UInt32 → K
  pos : ∀ own enemy, 0 < against own enemy
  lt_one : ∀ own enemy, against own enemy < 1
  anti : ∀ own {enemy enemy'}, enemy < enemy' → against own enemy' < against own enemy
  symm : ∀ own enemy, against own enemy + against enemy own = 1

/-- Whether two teams change by the alternate rating. -/
def isAlternate (alternateRating : Bool) (ownRating opponentRating : UInt32) : Bool :=
  alternateRating && ownRating < 1900 && opponentRating < 1900 && ownRating > 1450 && opponentRating > 1450

variable [FloorRing K]

def getRatingMod (c : WinChance K) (alternateRating : Bool) (ownRating opponentRating : UInt32) (won : Bool) : ℤ :=
  let chance := c.against ownRating opponentRating
  let mod : ℤ :=
    if isAlternate alternateRating ownRating opponentRating then 15
    else if ⌊32 * (1 - chance)⌋ < 1 then 1 else ⌊32 * (1 - chance)⌋
  if won then mod else -mod

end Sunstrider.Battlegrounds.ArenaRating
