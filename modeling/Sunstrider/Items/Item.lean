import Mathlib.Data.Nat.Notation

/-!
# Items

What the guild bank reads of an item object, and of the templates of items.
-/

namespace Sunstrider.Items

/-- `Item`, with the answers of `IsSoulBound`, `CanBeTraded` and `IsNotEmptyBag`. -/
structure Item where
  guid : ℕ
  entry : ℕ
  count : ℕ
  soulBound : Bool
  canBeTraded : Bool
  notEmptyBag : Bool
  deriving DecidableEq, Repr

/-- `Stackable` of the template of every entry, which is `Item::GetMaxStackCount`. -/
abbrev ItemTemplates : Type := ℕ → ℕ

def getMaxStackSize (templates : ItemTemplates) (entry : ℕ) : ℕ :=
  if templates entry = 2147483647 || templates entry = 0 then 0x7FFFFFFF - 1 else templates entry

end Sunstrider.Items
