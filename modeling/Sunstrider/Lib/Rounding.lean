import Mathlib.Algebra.Order.Ring.Rat
import Mathlib.Order.Monotone.Basic

/-!
# Rounded arithmetic

A binary floating-point format, as far as comparisons of results need it: the reals a format can
represent, and a rounding onto them that is monotone and leaves them alone. An operation of the
format is the exact operation, rounded. The format's infinities and its not-a-number are outside
the model: the operations are those whose exact results the format reaches.

Two consequences are what a user of the format relies on. An exact result on one side of a
representable number rounds to the same side (`le_add_of_nonneg`, `mul_le_of_le_one` and their
companions), and a rounded operation is monotone in each of its arguments (`add_le_add_right`).
-/

namespace Sunstrider.Lib

/-- A rounding of the rationals onto the numbers of a format. -/
structure Rounding where
  round : ℚ → ℚ
  monotone : Monotone round
  idempotent : ∀ x, round (round x) = round x
  zero : round 0 = 0
  one : round 1 = 1

namespace Rounding

/-- The format that represents every rational: no result is rounded. -/
def exact : Rounding := ⟨id, monotone_id, fun _ => rfl, rfl, rfl⟩

variable (R : Rounding)

/-- The format's sum. -/
def add (x y : ℚ) : ℚ := R.round (x + y)

/-- The format's difference. -/
def sub (x y : ℚ) : ℚ := R.round (x - y)

/-- The format's product. -/
def mul (x y : ℚ) : ℚ := R.round (x * y)

/-- The format's quotient. -/
def div (x y : ℚ) : ℚ := R.round (x / y)

/-- A number of the format. -/
def Represents (x : ℚ) : Prop := R.round x = x

variable {R}

theorem represents_round (x : ℚ) : R.Represents (R.round x) := R.idempotent x

theorem represents_zero : R.Represents 0 := R.zero

variable {x y : ℚ}

/-- The larger of two numbers of the format is one of them. -/
theorem Represents.max (hx : R.Represents x) (hy : R.Represents y) : R.Represents (max x y) := by
  rcases max_choice x y with h | h <;> rw [h]
  · exact hx
  · exact hy

theorem add_le_add_right (h : x ≤ y) (z : ℚ) : R.add x z ≤ R.add y z :=
  R.monotone (add_le_add h (le_refl z))

theorem add_le_add_left (h : x ≤ y) (z : ℚ) : R.add z x ≤ R.add z y :=
  R.monotone (add_le_add (le_refl z) h)

theorem le_add_of_nonneg (hx : R.Represents x) (hy : 0 ≤ y) : x ≤ R.add x y :=
  hx.symm.trans_le (R.monotone (le_add_of_nonneg_right hy))

theorem add_le_of_nonpos (hx : R.Represents x) (hy : y ≤ 0) : R.add x y ≤ x :=
  (R.monotone (add_le_of_nonpos_right hy)).trans_eq hx

theorem nonneg_mul (hx : 0 ≤ x) (hy : 0 ≤ y) : 0 ≤ R.mul x y :=
  R.zero.symm.trans_le (R.monotone (mul_nonneg hx hy))

theorem le_mul_of_one_le (hr : R.Represents x) (hx : 0 ≤ x) (hy : 1 ≤ y) : x ≤ R.mul x y :=
  hr.symm.trans_le (R.monotone (le_mul_of_one_le_right hx hy))

theorem mul_le_of_le_one (hr : R.Represents x) (hx : 0 ≤ x) (hy : y ≤ 1) : R.mul x y ≤ x :=
  (R.monotone (mul_le_of_le_one_right hx hy)).trans_eq hr

end Rounding

end Sunstrider.Lib
