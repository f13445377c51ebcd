import Mathlib.Algebra.Ring.Int.Defs
import Mathlib.Data.Int.Init
import Mathlib.Data.List.Basic
import Mathlib.Tactic.Ring

/-!
# Fixed-width arithmetic

Numbers of a fixed-width type as natural numbers, with the wrap of each operation written out, and the
signed reading of an unsigned word. A user of these shows once that its values stay in range and then
reasons about plain numbers (`addU32_eq`, `subU32_eq`, `toInt32_eq`). The bytes of such numbers in a
packet are the second part.
-/

namespace Sunstrider.Lib

/-- `a + b`, as unsigned 32-bit words. -/
def addU32 (a b : ℕ) : ℕ := (a + b) % 2 ^ 32

/-- `a - b`, as unsigned 32-bit words. -/
def subU32 (a b : ℕ) : ℕ := (a + (2 ^ 32 - b % 2 ^ 32)) % 2 ^ 32

/-- `a * b`, as unsigned 32-bit words. -/
def mulU32 (a b : ℕ) : ℕ := (a * b) % 2 ^ 32

/-- An unsigned 32-bit word, read as a signed one. -/
def toInt32 (a : ℕ) : ℤ :=
  if a % 2 ^ 32 < 2 ^ 31 then (a % 2 ^ 32 : ℕ) else (a % 2 ^ 32 : ℕ) - 2 ^ 32

/-- A number, as an unsigned 32-bit word. -/
def toU32 (x : ℤ) : ℕ := (x % 2 ^ 32).toNat

/-- `++a`, as an unsigned 8-bit word. -/
def incU8 (a : ℕ) : ℕ := (a + 1) % 2 ^ 8

/-- `--a`, as an unsigned 8-bit word. -/
def decU8 (a : ℕ) : ℕ := (a + (2 ^ 8 - 1)) % 2 ^ 8

variable {a b : ℕ}

theorem addU32_eq (h : a + b < 2 ^ 32) : addU32 a b = a + b := Nat.mod_eq_of_lt h

theorem subU32_eq (h : b ≤ a) (ha : a < 2 ^ 32) : subU32 a b = a - b := by
  unfold subU32
  omega

theorem mulU32_eq (h : a * b < 2 ^ 32) : mulU32 a b = a * b := Nat.mod_eq_of_lt h

theorem toInt32_eq (h : a < 2 ^ 31) : toInt32 a = a := by
  unfold toInt32
  rw [Nat.mod_eq_of_lt (by omega), if_pos h]

theorem toU32_eq {x : ℤ} (h : 0 ≤ x) (hlt : x < 2 ^ 32) : (toU32 x : ℤ) = x := by
  unfold toU32
  omega

theorem toU32_le {x : ℤ} (h : 0 ≤ x) : (toU32 x : ℤ) ≤ x := by
  unfold toU32
  omega

theorem incU8_eq (h : a + 1 < 2 ^ 8) : incU8 a = a + 1 := Nat.mod_eq_of_lt h

theorem decU8_eq (h : a + 1 < 2 ^ 8) : decU8 (a + 1) = a := by
  unfold decU8
  omega

end Sunstrider.Lib

/-!
## Bytes of a packet

Numbers as little-endian bytes of a fixed width, into which a number wraps (`ofBytes_toBytes`), and a
reader that takes a number of frames from the front of a packet, where the bytes at the front tell the
size of the next one. Such a reader gets back just the frames that were written when each tells its own
size (`takeFrames_flatten`), and whatever it gets was written one frame after another
(`takeFrames_eq_some`).
-/

namespace Sunstrider.Lib

/-! ## Numbers -/

/-- The lowest bytes of a number, the lowest first. -/
def toBytes : ℕ → ℕ → List UInt8
  | 0, _ => []
  | width + 1, n => UInt8.ofNat n :: toBytes width (n / 256)

/-- The number that bytes stand for. -/
def ofBytes : List UInt8 → ℕ
  | [] => 0
  | b :: bytes => b.toNat + 256 * ofBytes bytes

@[simp] theorem length_toBytes (width n : ℕ) : (toBytes width n).length = width := by
  induction width generalizing n with
  | zero => rfl
  | succ width ih => rw [toBytes, List.length_cons, ih]

theorem ofBytes_toBytes (width n : ℕ) : ofBytes (toBytes width n) = n % 256 ^ width := by
  induction width generalizing n with
  | zero => rw [toBytes, ofBytes, Nat.pow_zero, Nat.mod_one]
  | succ width ih =>
    have hmod : n % 256 ^ (width + 1) = n % 256 + 256 * (n / 256 % 256 ^ width) := by
      rw [Nat.pow_succ', Nat.mod_mul]
    rw [toBytes, ofBytes, ih, hmod, UInt8.toNat_ofNat']

/-- Bytes that are all zero. -/
theorem toBytes_eq_replicate_iff (width n : ℕ) :
    toBytes width n = List.replicate width 0 ↔ 256 ^ width ∣ n := by
  induction width generalizing n with
  | zero => simp [toBytes]
  | succ width ih =>
    rw [toBytes, List.replicate_succ, List.cons.injEq, ih, Nat.pow_succ', Nat.dvd_iff_mod_eq_zero,
      Nat.dvd_iff_mod_eq_zero, Nat.mod_mul, ← UInt8.toNat_inj, UInt8.toNat_ofNat']
    have : (0 : UInt8).toNat = 0 := rfl
    omega

/-! ## Frames -/

/-- The next frames of a packet, and what is behind them. A packet that is too short has none. -/
def takeFrames (size : List UInt8 → ℕ) : ℕ → List UInt8 → Option (List (List UInt8) × List UInt8)
  | 0, bytes => some ([], bytes)
  | count + 1, bytes =>
    if bytes.length < size bytes then none
    else (takeFrames size count (bytes.drop (size bytes))).map fun r =>
      (bytes.take (size bytes) :: r.1, r.2)

variable {size : List UInt8 → ℕ}

/-- **Frames that tell their sizes are read back.** -/
theorem takeFrames_flatten {frames : List (List UInt8)} (rest : List UInt8)
    (h : ∀ frame ∈ frames, ∀ later, size (frame ++ later) = frame.length) :
    takeFrames size frames.length (frames.flatten ++ rest) = some (frames, rest) := by
  induction frames with
  | nil => rfl
  | cons frame frames ih =>
    have hsize := h frame List.mem_cons_self (frames.flatten ++ rest)
    rw [List.length_cons, List.flatten_cons, List.append_assoc, takeFrames, hsize,
      if_neg (by rw [List.length_append]; omega), List.drop_left, List.take_left,
      ih fun f hf => h f (List.mem_cons_of_mem frame hf)]
    rfl

/-- What a reader takes stands in the packet, each frame with the size that its bytes tell. -/
theorem takeFrames_eq_some {count : ℕ} {bytes rest : List UInt8} {frames : List (List UInt8)}
    (h : takeFrames size count bytes = some (frames, rest)) :
    frames.length = count ∧ bytes = frames.flatten ++ rest ∧
      ∀ frame ∈ frames, ∃ later, frame.length = size (frame ++ later) := by
  induction count generalizing bytes frames with
  | zero =>
    cases h
    exact ⟨rfl, rfl, fun _ h => nomatch h⟩
  | succ count ih =>
    unfold takeFrames at h
    split at h
    · cases h
    · next hsize =>
      obtain ⟨r, hr, heq⟩ := Option.map_eq_some_iff.mp h
      cases heq
      obtain ⟨hlength, hbytes, hframes⟩ := ih hr
      refine ⟨congrArg (· + 1) hlength, ?_, List.forall_mem_cons.mpr ⟨?_, hframes⟩⟩
      · rw [List.flatten_cons, List.append_assoc, ← hbytes, List.take_append_drop]
      · refine ⟨bytes.drop (size bytes), ?_⟩
        rw [List.take_append_drop, List.length_take, min_eq_left (not_lt.mp hsize)]

end Sunstrider.Lib
