import Mathlib.Data.Bool.Count
import Mathlib.Data.Nat.Choose.Basic
import Mathlib.Data.Fintype.Fin
import Mathlib.Probability.HasLawExists
import Mathlib.Probability.UniformOn

/-!
# Selection in one pass

One pass over `n` elements keeps `k` of them: with `m + 1` elements left, the next one is kept when a draw
out of `m + 1` falls under the number that is still to be kept. A selection is a list of marks, one for each
element. A pass always keeps as many as it should (`count_selection`), and a selection comes out exactly when
every draw falls among its own outcomes (`selection_eq_iff`). So independent uniform draws give every
selection the same probability (`UniformDraws.selection`).
-/

namespace Sunstrider.Lib

open MeasureTheory ProbabilityTheory

variable {α β : Type}

/-- What is drawn while `m + 1` elements are left, from 0 on. -/
abbrev Draws : Type := (m : ℕ) → Fin (m + 1)

/-! ## Marks -/

/-- The elements that are marked. Those behind the last mark are not. -/
def marked : List Bool → List α → List α
  | b :: marks, a :: l => if b then a :: marked marks l else marked marks l
  | _, _ => []

@[simp] theorem marked_nil_right (marks : List Bool) : marked marks ([] : List α) = [] := by
  cases marks <;> rfl

theorem marked_sublist (marks : List Bool) (l : List α) : (marked marks l).Sublist l := by
  induction marks generalizing l with
  | nil => exact List.nil_sublist l
  | cons b marks ih =>
    cases l with
    | nil => exact List.Sublist.slnil
    | cons a l =>
      cases b with
      | true => exact (ih l).cons_cons a
      | false => exact (ih l).cons a

/-- Marks that fit keep one element each. -/
theorem length_marked (marks : List Bool) (l : List α) (h : marks.length ≤ l.length) :
    (marked marks l).length = marks.count true := by
  induction marks generalizing l with
  | nil => rfl
  | cons b marks ih =>
    cases l with
    | nil => exact absurd h (Nat.not_succ_le_zero _)
    | cons a l =>
      have hmarks := ih l (Nat.le_of_succ_le_succ h)
      cases b with
      | true => rw [marked, if_pos rfl, List.length_cons, hmarks, List.count_cons_self]
      | false => rw [marked, if_neg Bool.false_ne_true, hmarks, List.count_cons_of_ne Bool.false_ne_true]

theorem marked_map (marks : List Bool) (f : α → β) (l : List α) :
    marked marks (l.map f) = (marked marks l).map f := by
  induction marks generalizing l with
  | nil => rfl
  | cons b marks ih =>
    cases l with
    | nil => rfl
    | cons a l => cases b <;> simp [marked, ih]

/-- Only the elements in front of the last mark matter. -/
theorem marked_take (marks : List Bool) (l : List α) : marked marks (l.take marks.length) = marked marks l := by
  induction marks generalizing l with
  | nil => rfl
  | cons b marks ih =>
    cases l with
    | nil => rfl
    | cons a l => simp [marked, ih]

variable {marks : List Bool} {l : List α}

theorem mem_marked_cons {b : Bool} {a x : α} :
    x ∈ marked (b :: marks) (a :: l) ↔ b = true ∧ x = a ∨ x ∈ marked marks l := by
  cases b <;> simp [marked]

/-- Where no element occurs twice, the marks can be read off what is kept. -/
theorem forall_mem_marked_iff [DecidableEq α] (S : Finset α) (hl : l.Nodup)
    (hlen : marks.length = l.length) :
    (∀ x ∈ l, x ∈ marked marks l ↔ x ∈ S) ↔ marks = l.map fun a => decide (a ∈ S) := by
  induction l generalizing marks with
  | nil => simpa using hlen
  | cons a l ih =>
    cases marks with
    | nil => exact absurd hlen (Nat.succ_ne_zero _).symm
    | cons b marks =>
      obtain ⟨ha, hl⟩ := List.nodup_cons.mp hl
      have hrest : ∀ x ∈ l, x ∈ marked (b :: marks) (a :: l) ↔ x ∈ marked marks l := fun x hx => by
        rw [mem_marked_cons]
        exact or_iff_right fun h => ha (h.2 ▸ hx)
      have hfirst : a ∈ marked (b :: marks) (a :: l) ↔ b = true := by
        rw [mem_marked_cons, or_iff_left fun h => ha ((marked_sublist marks l).subset h)]
        exact and_iff_left rfl
      rw [List.forall_mem_cons, List.map_cons, List.cons_eq_cons, ← ih hl (Nat.succ.inj hlen), hfirst]
      refine and_congr ?_ (forall₂_congr fun x hx => by rw [hrest x hx])
      cases b <;> simp

theorem toFinset_marked_eq_iff [DecidableEq α] {S : Finset α} (hl : l.Nodup)
    (hlen : marks.length = l.length) (hS : S ⊆ l.toFinset) :
    (marked marks l).toFinset = S ↔ marks = l.map fun a => decide (a ∈ S) := by
  rw [← forall_mem_marked_iff S hl hlen, Finset.ext_iff]
  refine ⟨fun h x _ => by rw [← h x, List.mem_toFinset], fun h x => ?_⟩
  by_cases hx : x ∈ l
  · rw [List.mem_toFinset, h x hx]
  · rw [List.mem_toFinset]
    exact iff_of_false (fun hm => hx ((marked_sublist marks l).subset hm))
      fun hm => hx (List.mem_toFinset.mp (hS hm))

/-- The marks of a set of elements are as many as it has. -/
theorem count_marks [DecidableEq α] {S : Finset α} (hl : l.Nodup) (hS : S ⊆ l.toFinset) :
    (l.map fun a => decide (a ∈ S)).count true = S.card := by
  have hset : (l.filter fun a => a ∈ S).toFinset = S := by
    ext x
    simpa using fun hx : x ∈ S => List.mem_toFinset.mp (hS hx)
  calc (l.map fun a => decide (a ∈ S)).count true
      = (l.filter fun a => a ∈ S).length := by
        rw [List.count, List.countP_map, List.countP_eq_length_filter]
        congr 2
        funext a
        simp
    _ = S.card := by rw [← hset, List.toFinset_card_of_nodup (hl.filter _), hset]

/-! ## One pass -/

/-- The marks of one pass over `n` elements that has `k` of them to keep. -/
def selection (draws : Draws) : (n k : ℕ) → List Bool
  | 0, _ => []
  | m + 1, k =>
    if (draws m).val + 1 ≤ k then true :: selection draws m (k - 1) else false :: selection draws m k

@[simp] theorem length_selection (draws : Draws) (n k : ℕ) : (selection draws n k).length = n := by
  induction n generalizing k with
  | zero => rfl
  | succ m ih => unfold selection; split <;> simp [ih]

/-- A pass keeps as many as it has to keep, or all where there are fewer. -/
theorem count_selection (draws : Draws) (n k : ℕ) : (selection draws n k).count true = min n k := by
  induction n generalizing k with
  | zero => exact (Nat.zero_min k).symm
  | succ m ih =>
    have hdraw : (draws m).val < m + 1 := (draws m).isLt
    unfold selection
    split
    next h =>
      rw [List.count_cons_self, ih]
      omega
    next h =>
      rw [List.count_cons_of_ne Bool.false_ne_true, ih]
      omega

/-- The draws with `m + 1` elements left that lead on to a selection. -/
def outcomes : List Bool → (m : ℕ) → Finset (Fin (m + 1))
  | [], _ => Finset.univ
  | b :: marks, m =>
    if m = marks.length then Finset.univ.filter fun r => decide (r.val + 1 ≤ (b :: marks).count true) = b
    else outcomes marks m

/-- A selection comes out exactly when every draw falls among its own outcomes. -/
theorem selection_eq_iff (draws : Draws) (marks : List Bool) :
    selection draws marks.length (marks.count true) = marks ↔
      ∀ m ∈ Finset.range marks.length, draws m ∈ outcomes marks m := by
  induction marks with
  | nil => simp [selection]
  | cons b marks ih =>
    have hrest : (∀ m ∈ Finset.range marks.length, draws m ∈ outcomes (b :: marks) m) ↔
        ∀ m ∈ Finset.range marks.length, draws m ∈ outcomes marks m :=
      forall₂_congr fun m hm => by rw [outcomes, if_neg (Finset.mem_range.mp hm).ne]
    have hfirst : draws marks.length ∈ outcomes (b :: marks) marks.length ↔
        decide ((draws marks.length).val + 1 ≤ (b :: marks).count true) = b := by
      rw [outcomes, if_pos rfl, Finset.mem_filter_univ]
    rw [List.length_cons, Finset.range_add_one, Finset.forall_mem_insert, hrest, ← ih, hfirst, selection]
    cases b with
    | true =>
      rw [List.count_cons_self]
      split
      next h => simp [h]
      next h => simp [h]
    | false =>
      rw [List.count_cons_of_ne Bool.false_ne_true]
      split
      next h => simp [h]
      next h => simp [h]

theorem card_outcomes_cons (b : Bool) (marks : List Bool) :
    (outcomes (b :: marks) marks.length).card = (b :: marks).count b := by
  set kept := (b :: marks).count true with hkept
  have hle : kept ≤ marks.length + 1 := List.count_le_length
  have hunder : (Finset.univ.filter fun r : Fin (marks.length + 1) => r.val < kept).card = kept := by
    rw [Fin.card_filter_val_lt, Nat.min_eq_right hle]
  rw [outcomes, if_pos rfl, ← hkept]
  cases b with
  | true => simpa only [decide_eq_true_iff, Nat.add_one_le_iff] using hunder
  | false =>
    have hall := Finset.card_filter_add_card_filter_not (s := Finset.univ)
      fun r : Fin (marks.length + 1) => r.val < kept
    have hcount := List.count_true_add_count_false (false :: marks)
    rw [hunder, Finset.card_univ, Fintype.card_fin] at hall
    rw [← hkept, List.length_cons] at hcount
    simp only [decide_eq_false_iff_not, Nat.add_one_le_iff]
    omega

/-- The outcomes that lead to a selection, over the whole pass. -/
theorem prod_card_outcomes (marks : List Bool) :
    ∏ m ∈ Finset.range marks.length, (outcomes marks m).card =
      (marks.count true).factorial * (marks.count false).factorial := by
  induction marks with
  | nil => rfl
  | cons b marks ih =>
    have hrest : ∏ m ∈ Finset.range marks.length, (outcomes (b :: marks) m).card =
        ∏ m ∈ Finset.range marks.length, (outcomes marks m).card :=
      Finset.prod_congr rfl fun m hm => by rw [outcomes, if_neg (Finset.mem_range.mp hm).ne]
    rw [List.length_cons, Finset.prod_range_succ, hrest, ih, card_outcomes_cons]
    cases b with
    | true =>
      rw [List.count_cons_self, List.count_cons_of_ne (Ne.symm Bool.false_ne_true), Nat.factorial_succ]
      ring
    | false =>
      rw [List.count_cons_self, List.count_cons_of_ne Bool.false_ne_true, Nat.factorial_succ]
      ring

/-! ## Independent uniform draws -/

variable {Ω : Type} [MeasurableSpace Ω] {P : Measure Ω} {urand : (m : ℕ) → Ω → Fin (m + 1)}

/-- Each draw is uniform, and they are independent. -/
structure UniformDraws (P : Measure Ω) (urand : (m : ℕ) → Ω → Fin (m + 1)) : Prop where
  independent : iIndepFun urand P
  uniform : ∀ m, HasLaw (urand m) (uniformOn Set.univ) P

/-- There are such draws. -/
theorem exists_uniformDraws :
    ∃ (Ω : Type) (_ : MeasurableSpace Ω) (P : Measure Ω) (urand : (m : ℕ) → Ω → Fin (m + 1)),
      UniformDraws P urand := by
  obtain ⟨Ω, mΩ, P, urand, -, hlaw, hind, -⟩ :=
    exists_hasLaw_indepFun (fun m : ℕ => Fin (m + 1)) fun _ => uniformOn Set.univ
  exact ⟨Ω, mΩ, P, urand, hind, hlaw⟩

namespace UniformDraws

/-- A draw falls among some of its values as often as there are such values. -/
theorem measure_mem (h : UniformDraws P urand) (m : ℕ) (s : Finset (Fin (m + 1))) :
    P.real (Set.preimage (urand m) s) = s.card / (m + 1 : ℕ) := by
  have hs : MeasurableSet (s : Set (Fin (m + 1))) := s.measurableSet
  calc P.real (Set.preimage (urand m) s)
      = (uniformOn (Set.univ : Set (Fin (m + 1)))).real s := (h.uniform m).measureReal_eq hs
    _ = s.card / (m + 1 : ℕ) := by
      rw [measureReal_def, uniformOn_univ, Measure.count_apply_finset, Fintype.card_fin, ENNReal.toReal_div,
        ENNReal.toReal_natCast, ENNReal.toReal_natCast]

/-- The draws of a pass fall among the outcomes of a selection. -/
theorem measure_outcomes (h : UniformDraws P urand) (marks : List Bool) :
    P.real (⋂ m ∈ Finset.range marks.length, Set.preimage (urand m) (outcomes marks m)) =
      1 / marks.length.choose (marks.count true) := by
  have hkept : marks.count true ≤ marks.length := List.count_le_length
  have hleft : marks.count false = marks.length - marks.count true := by
    have hcount := List.count_true_add_count_false marks
    omega
  have hsets : ∀ m ∈ Finset.range marks.length, MeasurableSet (outcomes marks m : Set (Fin (m + 1))) :=
    fun m _ => (outcomes marks m).measurableSet
  calc P.real (⋂ m ∈ Finset.range marks.length, Set.preimage (urand m) (outcomes marks m))
      = ∏ m ∈ Finset.range marks.length, P.real (Set.preimage (urand m) (outcomes marks m)) := by
        rw [measureReal_def, h.independent.measure_inter_preimage_eq_mul (Finset.range marks.length) hsets,
          ENNReal.toReal_prod]
        rfl
    _ = ∏ m ∈ Finset.range marks.length, ((outcomes marks m).card : ℝ) / (m + 1 : ℕ) :=
        Finset.prod_congr rfl fun m _ => h.measure_mem m (outcomes marks m)
    _ = ((marks.count true).factorial * (marks.count false).factorial : ℕ) / (marks.length.factorial : ℕ) := by
        rw [Finset.prod_div_distrib, ← Nat.cast_prod, ← Nat.cast_prod, prod_card_outcomes,
          Finset.prod_range_add_one_eq_factorial]
    _ = 1 / marks.length.choose (marks.count true) := by
        have hpos : (((marks.count true).factorial * (marks.count false).factorial : ℕ) : ℝ) ≠ 0 :=
          Nat.cast_ne_zero.mpr (Nat.mul_ne_zero (Nat.factorial_ne_zero _) (Nat.factorial_ne_zero _))
        rw [← Nat.choose_mul_factorial_mul_factorial hkept, ← hleft, mul_assoc, Nat.cast_mul (Nat.choose _ _),
          div_mul_cancel_right₀ hpos, one_div]

/-- Every selection comes out with the same probability. -/
theorem selection (h : UniformDraws P urand) {n k : ℕ} (hn : marks.length = n)
    (hk : marks.count true = k) :
    P.real {ω | Lib.selection (fun m => urand m ω) n k = marks} = 1 / n.choose k := by
  subst hn hk
  rw [← h.measure_outcomes marks]
  congr 1
  ext ω
  simp [selection_eq_iff]

end UniformDraws

end Sunstrider.Lib
