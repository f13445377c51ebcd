import Mathlib.Algebra.Group.Nat.Defs
import Mathlib.Data.List.Basic

/-!
# Formatted input

Extraction from a stream of characters, as `istringstream` does it in the classic locale. A stream that has
failed, or has come to its end, extracts nothing more and leaves the variable that it should read into
as it is, which is answered by `none`.
-/

namespace Sunstrider.Lib

structure Stream where
  rest : List Char
  /-- Neither `failbit` nor `eofbit` is set. -/
  good : Bool
  deriving DecidableEq

namespace Stream

def isSpace (c : Char) : Bool := c = ' ' || ('\t' ≤ c && c ≤ '\r')

variable {c : Char}

theorem isSpace_eq_false_of_isAlpha (h : c.isAlpha = true) : isSpace c = false := by
  change (decide (c.val ≥ 'A'.val ∧ c.val ≤ 'Z'.val) || c.val ≥ 'a'.val && c.val ≤ 'z'.val) = true at h
  rw [isSpace, Bool.or_eq_false_iff]
  simp only [decide_eq_false_iff_not, Bool.and_eq_false_iff, Char.le_def, Char.ext_iff,
    UInt32.le_iff_toNat_le, ← UInt32.toNat_inj] at h ⊢
  simp at h ⊢
  omega

def new (text : List Char) : Stream := ⟨text, true⟩

/-- Extraction of a character. -/
def readChar (s : Stream) : Option Char × Stream :=
  if s.good then
    match s.rest.dropWhile isSpace with
    | [] => (none, ⟨[], false⟩)
    | c :: rest => (some c, ⟨rest, true⟩)
  else (none, s)

/-- The number of a row of digits. -/
def value (digits : List Char) : ℕ := digits.foldl (fun v c => 10 * v + (c.toNat - 48)) 0

/-- A sign, and what is behind it. -/
def sign : List Char → Bool × List Char
  | '-' :: rest => (true, rest)
  | '+' :: rest => (false, rest)
  | rest => (false, rest)

/-- Extraction of an unsigned number of 32 bits. What is no number fails with 0, and what is too large
with the greatest number. -/
def readUInt32 (s : Stream) : Option ℕ × Stream :=
  if s.good then
    match s.rest.dropWhile isSpace with
    | [] => (none, ⟨[], false⟩)
    | c :: rest =>
      let (negative, rest) := sign (c :: rest)
      let digits := rest.takeWhile Char.isDigit
      let rest := rest.dropWhile Char.isDigit
      if digits = [] then (some 0, ⟨rest, false⟩)
      else if 2 ^ 32 ≤ value digits then (some (2 ^ 32 - 1), ⟨rest, false⟩)
      else (some (if negative then (2 ^ 32 - value digits) % 2 ^ 32 else value digits), ⟨rest, rest ≠ []⟩)
  else (none, s)

/-- The numbers that so many extractions read, where each of them reads something. -/
def readNumbers : ℕ → Stream → Option (List ℕ)
  | 0, _ => some []
  | n + 1, s =>
    match s.readUInt32 with
    | (none, _) => none
    | (some v, s) => (readNumbers n s).map (v :: ·)

theorem readNumbers_succ {n : ℕ} {s : Stream} {l : List ℕ} (h : readNumbers (n + 1) s = some l) :
    ∃ v s' l', s.readUInt32 = (some v, s') ∧ readNumbers n s' = some l' ∧ l = v :: l' := by
  rw [readNumbers] at h
  split at h
  · exact nomatch h
  · next v s' heq =>
    obtain ⟨l', hl', rfl⟩ := Option.map_eq_some_iff.mp h
    exact ⟨v, s', l', heq, hl', rfl⟩

theorem length_readNumbers {n : ℕ} {s : Stream} {l : List ℕ} (h : readNumbers n s = some l) :
    l.length = n := by
  induction n generalizing s l with
  | zero =>
    cases h
    rfl
  | succ n ih =>
    obtain ⟨v, s', l', -, hl', rfl⟩ := readNumbers_succ h
    rw [List.length_cons, ih hl']

/-- A character that is no space is read over the spaces before it. -/
theorem readChar_cons (hc : isSpace c = false) {spaces : List Char}
    (hspaces : ∀ x ∈ spaces, isSpace x = true) (rest : List Char) :
    readChar ⟨spaces ++ c :: rest, true⟩ = (some c, ⟨rest, true⟩) := by
  have hdrop : (spaces ++ c :: rest).dropWhile isSpace = c :: rest := by
    rw [List.dropWhile_append_of_pos hspaces, List.dropWhile_cons_of_neg (by simp [hc])]
  rw [readChar, if_pos rfl, hdrop]

/-- A digit that stands alone is read as its number. -/
theorem readUInt32_digit (hc : c.isDigit = true) (hspace : isSpace c = false) {spaces : List Char}
    (hspaces : ∀ x ∈ spaces, isSpace x = true) {d : Char} (hd : d.isDigit = false)
    (rest : List Char) :
    readUInt32 ⟨spaces ++ c :: d :: rest, true⟩ = (some (c.toNat - 48), ⟨d :: rest, true⟩) := by
  have hdrop : (spaces ++ c :: d :: rest).dropWhile isSpace = c :: d :: rest := by
    rw [List.dropWhile_append_of_pos hspaces, List.dropWhile_cons_of_neg (by simp [hspace])]
  have hsign : sign (c :: d :: rest) = (false, c :: d :: rest) := by
    rw [sign.eq_def]
    split
    · next heq =>
      rw [(List.cons.inj heq).1] at hc
      exact absurd hc (by decide)
    · next heq =>
      rw [(List.cons.inj heq).1] at hc
      exact absurd hc (by decide)
    · rfl
  have htake : (c :: d :: rest).takeWhile Char.isDigit = [c] := by
    rw [List.takeWhile_cons_of_pos hc, List.takeWhile_cons_of_neg (by simp [hd])]
  have hdropDigits : (c :: d :: rest).dropWhile Char.isDigit = d :: rest := by
    rw [List.dropWhile_cons_of_pos hc, List.dropWhile_cons_of_neg (by simp [hd])]
  have hvalue : value [c] = c.toNat - 48 := by simp [value]
  have hlt : c.toNat - 48 < 2 ^ 32 := by
    have hle : c.toNat < 2 ^ 32 := c.val.toNat_lt
    omega
  rw [readUInt32, if_pos rfl, hdrop]
  dsimp only
  rw [hsign]
  rw [htake, hdropDigits, hvalue, if_neg (List.cons_ne_nil _ _), if_neg (by omega)]
  simp

end Stream

end Sunstrider.Lib
