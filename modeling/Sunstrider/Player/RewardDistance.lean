import Mathlib.Algebra.Order.Ring.Rat

/-!
# The distance at which a group shares rewards

`Player::IsAtGroupRewardDistance`. The distance between two objects is a parameter: the source takes it
from their positions and sizes in floating point.
-/

namespace Sunstrider.Player

/-- Where a `WorldObject` is. -/
structure Location where
  mapId : ℕ
  instanceId : ℕ
  x : ℚ
  y : ℚ
  z : ℚ
  deriving DecidableEq

structure RewardRules where
  getDistance : Location → Location → ℚ
  /-- `CONFIG_GROUP_XP_DISTANCE`. -/
  groupXPDistance : ℚ

/-- What is read of a player: where he is, and where his corpse is. -/
structure Body where
  location : Location
  isAlive : Bool
  corpse : Option Location
  deriving DecidableEq

/-- The object that stands for the player. -/
def Body.present (b : Body) : Location :=
  match b.corpse with
  | none => b.location
  | some corpse => if b.isAlive then b.location else corpse

def Body.isAtGroupRewardDistance (rules : RewardRules) (b : Body) (rewardSource : Location) : Bool :=
  if b.present.mapId ≠ rewardSource.mapId || b.present.instanceId ≠ rewardSource.instanceId then false
  else rules.getDistance rewardSource b.present ≤ rules.groupXPDistance

end Sunstrider.Player
