import Mathlib.Algebra.Order.Field.Basic
import Mathlib.Algebra.Order.Floor.Ring
import Mathlib.Data.Rat.Floor
import Mathlib.Tactic.Linarith
import Mathlib.Tactic.FieldSimp
import Mathlib.Tactic.NormNum
import Sunstrider.Battlegrounds.ArenaRating

/-!
# Which rating changes follow Elo

The points of a match are 32 times the chance to lose it, for the winner and for the loser: the winner gains what
the rules of Elo give, and the loser loses what it would have gained. A loss to a stronger team costs more, and a
match takes as much as it gives only between teams of nearly the same chance. The chance is any `WinChance`; that
the one of the source is such a chance to the last bit is not shown.
-/

namespace Sunstrider.Battlegrounds.ArenaRating

variable {K : Type} [Field K] [LinearOrder K] [IsStrictOrderedRing K] [FloorRing K]

variable {c : WinChance K} {alternate : Bool} {own opponent : UInt32}

/-! ## Whole points -/

omit [IsStrictOrderedRing K] in
/-- Points count from 1, and in whole numbers. -/
theorem max_one_floor_lt_iff (x y : K) :
    max 1 ⌊x⌋ < max 1 ⌊y⌋ ↔ ∃ k : ℤ, 2 ≤ k ∧ x < k ∧ (k : K) ≤ y := by
  constructor
  · intro h
    refine ⟨max 1 ⌊y⌋, by omega, ?_, ?_⟩
    · exact Int.floor_lt.mp (by omega)
    · exact Int.le_floor.mp (by omega)
  · rintro ⟨k, htwo, hx, hy⟩
    have hfloor : ⌊x⌋ < k := Int.floor_lt.mpr hx
    have hle : k ≤ ⌊y⌋ := Int.le_floor.mpr hy
    omega

/-- The whole points of two parts of 32 differ by one at most just if both parts are near the half. -/
theorem abs_whole_sub_le_one_iff (x : K) :
    |max 1 ⌊32 - x⌋ - max 1 ⌊x⌋| ≤ 1 ↔ 15 < x ∧ x < 17 := by
  constructor
  · intro h
    rw [abs_le] at h
    constructor
    · by_contra hle
      have hx : ⌊x⌋ ≤ 15 := Int.floor_le_iff.mpr (by push_cast; linarith [not_lt.mp hle])
      have hrest : 17 ≤ ⌊32 - x⌋ := Int.le_floor.mpr (by push_cast; linarith [not_lt.mp hle])
      omega
    · by_contra hle
      have hx : 17 ≤ ⌊x⌋ := Int.le_floor.mpr (by push_cast; linarith [not_lt.mp hle])
      have hrest : ⌊32 - x⌋ ≤ 15 := Int.floor_le_iff.mpr (by push_cast; linarith [not_lt.mp hle])
      omega
  · rintro ⟨hlow, hhigh⟩
    have hx : 15 ≤ ⌊x⌋ ∧ ⌊x⌋ < 17 :=
      ⟨Int.le_floor.mpr (by push_cast; linarith), Int.floor_lt.mpr (by push_cast; linarith)⟩
    have hrest : 15 ≤ ⌊32 - x⌋ ∧ ⌊32 - x⌋ < 17 :=
      ⟨Int.le_floor.mpr (by push_cast; linarith), Int.floor_lt.mpr (by push_cast; linarith)⟩
    rw [abs_le]
    omega

/-! ## The points of a match -/

scoped instance atLeastTwo_range : Nat.AtLeastTwo 32 := ⟨by decide⟩

/-- The points of a match before they are made whole. -/
def points (c : WinChance K) (alternate : Bool) (own opponent : UInt32) : K :=
  if isAlternate alternate own opponent then 15 else 32 * (1 - c.against own opponent)

theorem getRatingMod_eq (won : Bool) :
    getRatingMod c alternate own opponent won =
      if won then max 1 ⌊points c alternate own opponent⌋
      else -max 1 ⌊points c alternate own opponent⌋ := by
  have hmod : (if isAlternate alternate own opponent then (15 : ℤ)
      else if ⌊32 * (1 - c.against own opponent)⌋ < 1 then 1 else ⌊32 * (1 - c.against own opponent)⌋) =
        max 1 ⌊points c alternate own opponent⌋ := by
    unfold points
    split
    · have hfloor : ⌊(15 : K)⌋ = 15 := Int.floor_ofNat 15
      rw [hfloor]
      rfl
    · split
      next hlow => exact (max_eq_left hlow.le).symm
      next hhigh => exact (max_eq_right (not_lt.mp hhigh)).symm
  rw [← hmod]
  rfl

theorem isAlternate_comm (own opponent : UInt32) :
    isAlternate alternate own opponent = isAlternate alternate opponent own := by
  unfold isAlternate
  grind

theorem isAlternate_iff : isAlternate alternate own opponent = true ↔
    alternate = true ∧ own < 1900 ∧ opponent < 1900 ∧ 1450 < own ∧ 1450 < opponent := by
  simp [isAlternate, and_assoc]

/-- Against a team of one's own rating the chance is even. -/
theorem against_self (c : WinChance K) (own : UInt32) : c.against own own = 1 / 2 := by
  have := c.symm own own
  linarith

/-- The whole points grow with the opponent: 15 lies between the points against a weaker and a stronger team. -/
theorem floor_points_mono (c : WinChance K) (alternate : Bool) (own : UInt32) {b b' : UInt32} (hle : b ≤ b') :
    ⌊points c alternate own b⌋ ≤ ⌊points c alternate own b'⌋ := by
  have hchance : c.against own b' ≤ c.against own b := by
    by_cases heq : b = b'
    · rw [heq]
    · exact (c.anti own (UInt32.lt_of_le_of_ne hle heq)).le
  have hself := against_self c own
  unfold points
  split <;> split
  · exact le_rfl
  · next h h' =>
    obtain ⟨hon, hown, -, hlow, hb⟩ := isAlternate_iff.mp h
    have hstrong : own < b' := by
      by_contra hnot
      have hb' := UInt32.lt_of_lt_of_le hb hle
      exact h' (isAlternate_iff.mpr ⟨hon, hown, UInt32.lt_of_le_of_lt (UInt32.not_lt.mp hnot) hown, hlow, hb'⟩)
    have hhalf := c.anti own hstrong
    refine Int.floor_mono ?_
    linarith
  · next h h' =>
    obtain ⟨hon, hown, hb', hlow, -⟩ := isAlternate_iff.mp h'
    have hweak : b < own := by
      by_contra hnot
      have hb := UInt32.lt_of_lt_of_le hlow (UInt32.not_lt.mp hnot)
      exact h (isAlternate_iff.mpr ⟨hon, hown, UInt32.lt_of_le_of_lt hle hb', hlow, hb⟩)
    have hhalf := c.anti own hweak
    rw [show ⌊(15 : K)⌋ = 15 from Int.floor_ofNat 15]
    exact Int.floor_le_iff.mpr (by push_cast; linarith)
  · refine Int.floor_mono ?_
    linarith

/-! ## Which changes follow Elo -/

/-- **A win follows Elo always.** A loss to another team costs no more just if its points are in no higher whole
point, and a match takes as much as it gives, but for one point, just between teams by the alternate rating or of
nearly the same chance. -/
theorem getRatingMod_elo (c : WinChance K) (alternate : Bool) :
    (∀ own, (∀ opponent, 1 ≤ getRatingMod c alternate own opponent true) ∧
      ∀ b b', b ≤ b' → getRatingMod c alternate own b true ≤ getRatingMod c alternate own b' true) ∧
    (∀ own opponent, getRatingMod c alternate own opponent false ≤ -1) ∧
    (∀ own b b', getRatingMod c alternate own b false ≤ getRatingMod c alternate own b' false ↔
      ¬∃ k : ℤ, 2 ≤ k ∧ points c alternate own b < k ∧ (k : K) ≤ points c alternate own b') ∧
    ∀ a b, |getRatingMod c alternate a b true + getRatingMod c alternate b a false| ≤ 1 ↔
      isAlternate alternate a b = true ∨ 15 / 32 < c.against a b ∧ c.against a b < 17 / 32 := by
  refine ⟨fun own => ⟨fun opponent => ?_, fun b b' hle => ?_⟩, fun own opponent => ?_, fun own b b' => ?_,
    fun a b => ?_⟩
  · rw [getRatingMod_eq, if_pos rfl]
    exact le_max_left _ _
  · rw [getRatingMod_eq, getRatingMod_eq, if_pos rfl, if_pos rfl]
    exact max_le_max_left 1 (floor_points_mono c alternate own hle)
  · rw [getRatingMod_eq, if_neg Bool.false_ne_true]
    exact neg_le_neg (le_max_left _ _)
  · rw [getRatingMod_eq, getRatingMod_eq, if_neg Bool.false_ne_true, if_neg Bool.false_ne_true,
      neg_le_neg_iff, ← max_one_floor_lt_iff, not_lt]
  · rw [getRatingMod_eq, getRatingMod_eq, if_pos rfl, if_neg Bool.false_ne_true]
    unfold points
    rw [isAlternate_comm b a]
    by_cases halternate : isAlternate alternate a b = true
    · rw [if_pos halternate, if_pos halternate]
      exact iff_of_true (by simp) (.inl halternate)
    · rw [if_neg halternate, if_neg halternate]
      have hsymm : 32 * (1 - c.against b a) = 32 * c.against a b := by
        have := c.symm a b
        linarith
      rw [hsymm, show 32 * (1 - c.against a b) = 32 - 32 * c.against a b by ring, ← sub_eq_add_neg,
        abs_whole_sub_le_one_iff]
      refine ⟨fun ⟨hlow, hhigh⟩ => .inr ⟨by linarith, by linarith⟩, fun h => ?_⟩
      obtain ⟨hlow, hhigh⟩ := h.resolve_left halternate
      exact ⟨by linarith, by linarith⟩

/-! ## A chance -/

/-- A chance that is the share of the two ratings. -/
def shareChance : WinChance ℚ where
  against own enemy := ((own.toNat : ℚ) + 1) / (own.toNat + enemy.toNat + 2)
  pos own enemy := by positivity
  lt_one own enemy := by
    rw [div_lt_one (by positivity)]
    have : (0 : ℚ) ≤ enemy.toNat := Nat.cast_nonneg _
    linarith
  anti own {a b} hlt := by
    have hcast : (a.toNat : ℚ) < b.toNat := Nat.cast_lt.mpr (UInt32.lt_iff_toNat_lt.mp hlt)
    refine div_lt_div_of_pos_left (by positivity) (by positivity) ?_
    linarith
  symm own enemy := by
    rw [add_comm (enemy.toNat : ℚ) own.toNat, ← add_div, div_eq_one_iff_eq (by positivity)]
    ring

/-- The first of two teams of the same rating, by a chance that is there. -/
theorem getRatingMod_elo_share : 1 ≤ getRatingMod shareChance false 1500 1500 true :=
  ((getRatingMod_elo shareChance false).1 1500).1 1500

/-- A team of 1500 loses more to one of 2000 than to one of 1500, and gains 18 points from it, which loses 13. -/
theorem not_getRatingMod_elo :
    ¬getRatingMod shareChance false 1500 1500 false ≤ getRatingMod shareChance false 1500 2000 false ∧
      ¬|getRatingMod shareChance false 1500 2000 true + getRatingMod shareChance false 2000 1500 false| ≤ 1 := by
  decide +kernel

end Sunstrider.Battlegrounds.ArenaRating
