import Mathlib.Data.List.Infix
import Sunstrider.Utilities.Util

/-!
# The stem of a declined name

An ending that is no longer than the word is compared with the end of the word and cut off. An ending that is
longer makes `wname.size()-len` wrap around, and `substr` throws. The endings of five declensions are one letter
long, so a word that gets as far as the loop has room for them; the sixth starts with the endings of two.
-/

namespace Sunstrider.Utilities

variable {wname : List WChar} {declension : UInt32} {ends : List DropEnd}

variable {e : DropEnd}

/-- The field for the length of an ending holds its length. -/
theorem len_of_mem_dropEnds (h : e ∈ dropEnds declension) : e.len = e.text.length := by
  unfold dropEnds at h
  split at h <;> revert e <;> decide

theorem len_le_of_mem_dropEnds (h : e ∈ dropEnds declension) :
    e.len ≤ 2 ∧ (declension ≠ 4 → e.len = 1) := by
  unfold dropEnds at h
  split at h
  case h_5 => exact ⟨by revert e; decide, fun hne => absurd rfl hne⟩
  all_goals
    refine ⟨?_, fun _ => ?_⟩ <;> revert e <;> decide

/-- An ending with room in the word is compared with the end of the word. -/
theorem substr_sizeMinus {len : ℕ} (h : len ≤ wname.length) :
    substr wname (sizeMinus wname len) len = some (wname.drop (wname.length - len)) := by
  rw [sizeMinus, if_pos h, substr, if_neg (by omega)]
  congr 1
  exact List.take_of_length_le (by rw [List.length_drop]; omega)

theorem substr_zero {len : ℕ} (h : len ≤ wname.length) :
    substr wname 0 (sizeMinus wname len) = some (wname.take (wname.length - len)) := by
  rw [sizeMinus, if_pos h, substr, if_neg (by omega), List.drop_zero]

theorem dropEnd_of_fits (h : ∀ e ∈ ends, e.len = e.text.length ∧ e.len ≤ wname.length) :
    ∃ stem, dropEnd wname ends = some stem ∧ stem <+: wname ∧
      ((∀ e ∈ ends, ¬e.text <:+ wname) → stem = wname) := by
  induction ends with
  | nil => exact ⟨wname, rfl, List.prefix_rfl, fun _ => rfl⟩
  | cons e ends ih =>
    obtain ⟨hlen, hroom⟩ := h e (List.mem_cons_self ..)
    simp only [dropEnd, substr_sizeMinus hroom, substr_zero hroom, Option.bind_eq_bind, Option.bind_some]
    split
    · next heq =>
      refine ⟨_, rfl, List.take_prefix _ _, fun hnone => absurd ?_ (hnone e (List.mem_cons_self ..))⟩
      rw [← heq]
      exact List.drop_suffix _ _
    · obtain ⟨stem, hstem, hstarts, hnone⟩ := ih fun e' he' => h e' (List.mem_cons_of_mem _ he')
      exact ⟨stem, hstem, hstarts, fun hends => hnone fun e' he' => hends e' (List.mem_cons_of_mem _ he')⟩

/-- The first ending that is longer than the word makes `substr` throw. -/
theorem dropEnd_of_long (h : wname.length < e.len) (hlen : e.len < 2 ^ 63) :
    dropEnd wname (e :: ends) = none := by
  have hwrap : wname.length < sizeMinus wname e.len := by
    rw [sizeMinus, if_neg (by omega)]
    omega
  simp only [dropEnd]
  rw [substr, if_pos hwrap]
  rfl

/-! ## Which stems are safe -/

/-- The first letter of the word is Cyrillic. -/
def StartsCyrillic (wname : List WChar) : Prop := ∃ first ∈ wname.head?, isCyrillicCharacter first = true

/-- The stem of a word: nothing is read or cut outside the word, the stem starts the word, and it is the word
where the word does not start in Cyrillic letters or has none of the declension's endings. -/
def Stemmed (wname : List WChar) (declension : UInt32) : Prop :=
  ∃ stem, getMainPartOfName wname declension = some stem ∧ stem <+: wname ∧
    (¬StartsCyrillic wname ∨ (∀ e ∈ dropEnds declension, ¬e.text <:+ wname) → stem = wname)

theorem stemmed_of_unchanged (h : getMainPartOfName wname declension = some wname) : Stemmed wname declension :=
  ⟨wname, h, List.prefix_rfl, fun _ => rfl⟩

theorem stemmed_of_fits {first : WChar} {rest : List WChar}
    (h : ∀ e ∈ dropEnds declension, e.len ≤ (first :: rest).length) : Stemmed (first :: rest) declension := by
  by_cases hskip : (!isCyrillicCharacter first || declension > 5) = true
  · exact stemmed_of_unchanged (by rw [getMainPartOfName, if_pos hskip])
  · obtain ⟨stem, hstem, hstarts, hnone⟩ := dropEnd_of_fits fun e he => ⟨len_of_mem_dropEnds he, h e he⟩
    have hcyrillic : StartsCyrillic (first :: rest) := ⟨first, rfl, by simp_all⟩
    refine ⟨stem, by rw [getMainPartOfName, if_neg hskip]; exact hstem, hstarts, ?_⟩
    rintro (hnot | hends)
    · exact absurd hcyrillic hnot
    · exact hnone hends

/-- A word has a safe stem but for one Cyrillic letter in the declension whose first endings have two. -/
theorem stemmed_iff (wname : List WChar) (declension : UInt32) :
    Stemmed wname declension ↔ ¬(wname.length = 1 ∧ StartsCyrillic wname ∧ declension = 4) := by
  constructor
  · rintro ⟨stem, hstem, -⟩ ⟨hone, ⟨first, hfirst, hcyrillic⟩, rfl⟩
    obtain ⟨letter, rfl⟩ := List.length_eq_one_iff.mp hone
    obtain rfl : letter = first := by simpa using hfirst
    have hthrows : getMainPartOfName [letter] 4 = none := by
      rw [getMainPartOfName, if_neg (by simp [hcyrillic])]
      exact dropEnd_of_long (Nat.lt_succ_self 1) (by decide)
    rw [hthrows] at hstem
    cases hstem
  · intro h
    cases wname with
    | nil => exact stemmed_of_unchanged rfl
    | cons first rest =>
      by_cases hcyrillic : isCyrillicCharacter first = true
      · refine stemmed_of_fits fun e he => ?_
        obtain ⟨htwo, hone⟩ := len_le_of_mem_dropEnds he
        by_cases hrow : declension = 4
        · have hlong : (first :: rest).length ≠ 1 := fun hlen => h ⟨hlen, ⟨first, rfl, hcyrillic⟩, hrow⟩
          simp only [List.length_cons] at hlong ⊢
          omega
        · rw [hone hrow]
          simp
      · exact stemmed_of_unchanged (by rw [getMainPartOfName, if_pos (by simp [hcyrillic])])

/-- A client sends the one letter as a declined name, and the fifth form is compared with the fifth row. -/
theorem not_stemmed_letter : getMainPartOfName [0x0410] 4 = none ∧ ¬Stemmed [0x0410] 4 := by
  have hthrows : getMainPartOfName [0x0410] 4 = none := by decide
  refine ⟨hthrows, ?_⟩
  rintro ⟨stem, hstem, -⟩
  rw [hthrows] at hstem
  cases hstem

example : getMainPartOfName [0x0418, 0x0432, 0x0430] 0 = some [0x0418, 0x0432] := by decide

end Sunstrider.Utilities
