import Mathlib.Data.List.TakeWhile
import Sunstrider.Utilities.Util

/-!
# Numbers and tokens of a text

A number is printed in digits, of which none is a separator or a space, and is read as the number.
-/

namespace Sunstrider.Utilities

/-! ## Printed numbers -/

theorem isDigit_of_mem_digits {n : UInt32} {c : Char} (h : c ∈ digits n) : c.isDigit = true :=
  Nat.isDigit_of_mem_toDigits (by decide) (by decide) h

theorem not_mem_digits {n : UInt32} {c : Char} (h : c.isDigit = false) : c ∉ digits n := fun hmem => by
  rw [isDigit_of_mem_digits hmem] at h
  cases h

/-- **A printed number is read as the number.** -/
theorem atoul_digits (n : UInt32) : atoul (digits n) = n := by
  obtain ⟨c, cs, hcs⟩ := List.exists_cons_of_ne_nil (Nat.toDigits_ne_nil (n := n.toNat) (b := 10))
  have hc : c.isDigit = true := isDigit_of_mem_digits (n := n) (by rw [digits, hcs]; exact List.mem_cons_self ..)
  have hlow : 48 ≤ c.toNat := by
    simp only [Char.isDigit, Bool.and_eq_true, decide_eq_true_eq] at hc
    exact hc.1
  have hne : ∀ c' : Char, c'.toNat < 48 → c ≠ c' := by
    rintro c' hc' rfl
    omega
  have hspace : isSpace c = false := by
    simp only [isSpace, hne ' ' (by decide), decide_false, Bool.false_or, Bool.and_eq_false_iff,
      decide_eq_false_iff_not]
    omega
  have hnumber : leadingNumber (digits n) = n.toNat := by
    rw [leadingNumber, List.takeWhile_eq_self_iff.mpr fun _ hmem => isDigit_of_mem_digits hmem]
    exact Nat.ofDigitChars_ten_toDigits
  have hlt := n.toNat_lt
  have hread : strtoul (digits n) = .ofNat n.toNat := by
    have htrim : (digits n).dropWhile isSpace = c :: cs := by
      rw [digits, hcs, List.dropWhile_cons_of_neg (by simp [hspace])]
    rw [strtoul, htrim]
    split
    · next heq => exact absurd (List.cons.inj heq).1 (hne '-' (by decide))
    · next heq => exact absurd (List.cons.inj heq).1 (hne '+' (by decide))
    · rw [← hcs, ← digits, hnumber, Nat.min_eq_right]
      simp only [ulongMax]
      omega
  rw [atoul, hread]
  apply UInt32.toNat_inj.mp
  rw [UInt64.toNat_toUInt32, UInt64.toNat_ofNat']
  omega

/-! ## Tokens -/

theorem tokenizer_append {sep : Char} {word : List Char} (hsep : sep ∉ word) (hend : '\x00' ∉ word)
    (token rest : List Char) :
    tokenizer sep token (word ++ sep :: rest) = (token ++ word) :: tokenizer sep [] rest := by
  induction word generalizing token with
  | nil => simp [tokenizer]
  | cons c cs ih =>
    rw [List.mem_cons, not_or] at hsep hend
    rw [List.cons_append, tokenizer, if_neg (Ne.symm hsep.1), if_neg (Ne.symm hend.1), ih hsep.2 hend.2]
    simp

/-- A text has no token just if it is empty, or ends where it starts. -/
theorem tokenizer_eq_nil_iff {sep : Char} (hsep : sep ≠ '\x00') (cs : List Char) :
    tokenizer sep [] cs = [] ↔ cs = [] ∨ cs.head? = some '\x00' := by
  cases cs with
  | nil => simp [tokenizer]
  | cons c cs =>
    by_cases hc : c = sep
    · subst hc
      simp [tokenizer, hsep]
    · by_cases hend : c = '\x00'
      · subst hend
        simp [tokenizer, hc]
      · have hkeeps : ∀ (token cs : List Char), token ≠ [] → tokenizer sep token cs ≠ [] := by
          intro token cs htoken
          induction cs generalizing token with
          | nil => simp [tokenizer, htoken]
          | cons c cs ih =>
            rw [tokenizer]
            split_ifs
            · exact List.cons_ne_nil _ _
            · exact List.cons_ne_nil _ _
            · exact ih _ (by simp)
        rw [tokenizer, if_neg hc, if_neg hend]
        simp [hkeeps, hend]

end Sunstrider.Utilities
