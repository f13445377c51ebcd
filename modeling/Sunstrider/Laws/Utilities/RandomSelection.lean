import Sunstrider.Pools.PoolMgr
import Sunstrider.Utilities.Containers

/-!
# Random selection keeps a subset

While `RandomResize` walks its container, the elements that are kept so far stand in front, those that are not
reached yet at the end, and what is between is done with (`Resizing.Holds`). So what remains are the elements
marked by one pass of selection (`randomResize_eq`), wherever the moves went, and every subset of the requested
size is as likely as any other (`randomResize_fair_iff`). The counters are narrower than the sizes they start
from: a container of 2³² elements or more is not walked to its end.
-/

namespace Sunstrider.Utilities

open MeasureTheory
open Sunstrider.Lib

variable {α : Type} {moved : α → α} {urand : Draws}

/-! ## The walk -/

namespace Resizing

/-- `kept` stands in front, `rest` at the end, and the iterators are behind the first and before the second. -/
structure Holds (kept rest : List α) (s : Resizing α) : Prop where
  container : ∃ gap, s.container = kept ++ gap ++ rest ∧ s.curIt = (kept ++ gap).length
  keepIt : s.keepIt = kept.length

variable {kept rest : List α} {a : α} {s : Resizing α}

theorem Holds.pass (h : Holds kept (a :: rest) s) : Holds kept rest { s with curIt := s.curIt + 1 } := by
  obtain ⟨gap, hcontainer, hcur⟩ := h.container
  refine ⟨⟨gap ++ [a], ?_, ?_⟩, h.keepIt⟩
  · simpa using hcontainer
  · simp only [hcur, List.length_append, List.length_singleton, Nat.add_assoc]

/-- An element that is kept moves over the first of the gap. -/
theorem Holds.keep (moved : α → α) (h : Holds kept (a :: rest) s) :
    Holds (kept ++ [a]) rest { s.keep moved with curIt := (s.keep moved).curIt + 1 } := by
  obtain ⟨gap, hcontainer, hcur⟩ := h.container
  cases gap with
  | nil =>
    have hsame : s.keepIt = s.curIt := by rw [h.keepIt, hcur, List.append_nil]
    refine ⟨⟨[], ?_, ?_⟩, ?_⟩
    · simp [Resizing.keep, hsame, hcontainer]
    · simp [Resizing.keep, hcur]
    · simp [Resizing.keep, h.keepIt]
  | cons b gap =>
    refine ⟨⟨gap ++ [moved a], ?_, ?_⟩, ?_⟩
    · simp [Resizing.keep, moveTo, hcontainer, hcur, h.keepIt]
    · simp [Resizing.keep, hcur]
      omega
    · simp [Resizing.keep, h.keepIt]

theorem Holds.loop (moved : α → α) (urand : Draws) (left : ℕ) (h : Holds kept rest s) (hleft : left ≤ rest.length) :
    Holds (kept ++ marked (selection urand left s.elementsToKeep) rest) (rest.drop left)
      (Resizing.loop moved urand left s) := by
  induction left generalizing kept rest s with
  | zero => simpa [selection, marked, Resizing.loop] using h
  | succ left ih =>
    cases rest with
    | nil => exact absurd hleft (Nat.not_succ_le_zero _)
    | cons a rest =>
      have hrest := Nat.le_of_succ_le_succ hleft
      rw [Resizing.loop, Resizing.round, List.drop_succ_cons, selection]
      split
      next hkept =>
        have := ih (h.keep moved) hrest
        simpa [marked, Resizing.keep] using this
      next hpassed => simpa [marked] using ih h.pass hrest

end Resizing

theorem randomResize_eq (moved : α → α) (urand : Draws) (container : List α) (requestedSize : ℕ) (h : requestedSize < container.length) :
    randomResize moved urand container requestedSize =
      marked (selection urand (container.length % 2 ^ 32) (requestedSize % 2 ^ 32)) container := by
  have hstart : Resizing.Holds [] container
      { container, keepIt := 0, curIt := 0, elementsToKeep := requestedSize % 2 ^ 32 } :=
    ⟨⟨[], rfl, rfl⟩, rfl⟩
  have hend := hstart.loop moved urand (container.length % 2 ^ 32)
    (Nat.mod_le container.length (2 ^ 32))
  obtain ⟨gap, hcontainer, -⟩ := hend.container
  rw [randomResize, if_neg (Nat.not_le.mpr h)]
  dsimp only
  rw [hcontainer, hend.keepIt, List.append_assoc]
  exact List.take_left

/-- The same positions are kept whatever the elements are. -/
theorem randomResize_map {β : Type} (moved : α → α) (moved' : β → β) (f : α → β) (container : List α) (requestedSize : ℕ) :
    randomResize moved' urand (container.map f) requestedSize =
      (randomResize moved urand container requestedSize).map f := by
  by_cases h : container.length ≤ requestedSize
  · rw [randomResize, randomResize, List.length_map, if_pos h, if_pos h]
  · rw [randomResize_eq _ _ _ _ (by rw [List.length_map]; exact Nat.lt_of_not_le h),
      randomResize_eq _ _ _ _ (Nat.lt_of_not_le h), List.length_map, marked_map]

/-! ## What is kept -/

/-- The positions of `n` elements that are kept. -/
def keptPositions (urand : Draws) (n requestedSize : ℕ) : List ℕ :=
  randomResize id urand (List.range n) requestedSize

/-- Whatever is drawn, as many positions are kept as there should be, in their order and none twice. -/
structure Exact (container : List α) (requestedSize : ℕ) : Prop where
  elements : ∀ (moved : α → α) (urand : Draws), randomResize moved urand container requestedSize =
    (keptPositions urand container.length requestedSize).filterMap fun i => container[i]?
  sublist : ∀ urand : Draws,
    (keptPositions urand container.length requestedSize).Sublist (List.range container.length)
  length : ∀ urand : Draws,
    (keptPositions urand container.length requestedSize).length = min container.length requestedSize

/-- Under independent uniform draws, every subset of the requested size is kept with the same probability. -/
def Fair (n requestedSize : ℕ) : Prop :=
  ∀ (Ω : Type) [MeasurableSpace Ω] (P : Measure Ω) (urand : (m : ℕ) → Ω → Fin (m + 1)), UniformDraws P urand →
    ∀ S ⊆ Finset.range n, S.card = requestedSize →
      P.real {ω | (keptPositions (fun m => urand m ω) n requestedSize).toFinset = S} =
        1 / n.choose requestedSize

section Kept

variable {n requestedSize : ℕ}

theorem keptPositions_eq (h : requestedSize < n) :
    keptPositions urand n requestedSize =
      marked (selection urand (n % 2 ^ 32) (requestedSize % 2 ^ 32)) (List.range n) := by
  have heq := randomResize_eq id urand (List.range n) requestedSize
    (by rw [List.length_range]; exact h)
  rwa [List.length_range] at heq

theorem keptPositions_of_le (h : n ≤ requestedSize) : keptPositions urand n requestedSize = List.range n :=
  if_pos (by rw [List.length_range]; exact h)

theorem keptPositions_sublist : (keptPositions urand n requestedSize).Sublist (List.range n) := by
  by_cases h : n ≤ requestedSize
  · rw [keptPositions_of_le h]
  · rw [keptPositions_eq (Nat.lt_of_not_le h)]
    exact marked_sublist _ _

/-- So many positions are kept: the counters are taken modulo 2³². -/
theorem length_keptPositions (h : requestedSize < n) :
    (keptPositions urand n requestedSize).length = min (n % 2 ^ 32) (requestedSize % 2 ^ 32) := by
  have hfits : (selection urand (n % 2 ^ 32) (requestedSize % 2 ^ 32)).length ≤ (List.range n).length := by
    rw [length_selection, List.length_range]
    exact Nat.mod_le n (2 ^ 32)
  rw [keptPositions_eq h, length_marked _ _ hfits, count_selection]

/-- The walk ends where the counter is used up. -/
theorem keptPositions_lt (h : requestedSize < n) {i : ℕ} (hi : i ∈ keptPositions urand n requestedSize) :
    i < n % 2 ^ 32 := by
  rw [keptPositions_eq h, ← marked_take, length_selection, List.take_range] at hi
  have hmem := (marked_sublist _ _).subset hi
  exact (List.mem_range.mp hmem).trans_le (Nat.min_le_left _ _)

/-- The elements that remain are those at the positions that are kept. -/
theorem randomResize_elements (moved : α → α) (urand : Draws) (container : List α) (requestedSize : ℕ) :
    randomResize moved urand container requestedSize =
      (keptPositions urand container.length requestedSize).filterMap fun i => container[i]? := by
  have hcontainer : container.map some = (List.range container.length).map fun i => container[i]? :=
    List.ext_getElem (by simp) fun i _ _ => by simp
  have hkept : (randomResize moved urand container requestedSize).map some =
      (keptPositions urand container.length requestedSize).map fun i => container[i]? := by
    rw [← randomResize_map moved id, hcontainer, randomResize_map id id, keptPositions]
  calc randomResize moved urand container requestedSize
      = ((randomResize moved urand container requestedSize).map some).filterMap id := by
        rw [List.filterMap_map, Function.id_comp, List.filterMap_some]
    _ = (keptPositions urand container.length requestedSize).filterMap fun i => container[i]? := by
        rw [hkept, List.filterMap_map, Function.id_comp]

theorem fair_of_lt (hfits : n < 2 ^ 32) (h : requestedSize < n) : Fair n requestedSize := by
  intro Ω _ P urand hdraws S hS hcard
  have hrange : S ⊆ (List.range n).toFinset := by rwa [List.toFinset_range]
  have hcount := count_marks List.nodup_range hrange
  have hlength : ((List.range n).map fun a => decide (a ∈ S)).length = n := by
    rw [List.length_map, List.length_range]
  rw [← hdraws.selection hlength (hcount.trans hcard)]
  congr 1
  ext ω
  rw [Set.mem_ofPred_eq, Set.mem_ofPred_eq, keptPositions_eq h, Nat.mod_eq_of_lt hfits,
    Nat.mod_eq_of_lt (h.trans hfits)]
  exact toFinset_marked_eq_iff List.nodup_range (by rw [length_selection, List.length_range]) hrange

theorem fair_zero (h : 0 < n) : Fair n 0 := by
  intro Ω _ P urand hdraws S _ hcard
  have := hdraws.independent.isProbabilityMeasure
  have hnone : ∀ draws : Draws, keptPositions draws n 0 = [] := fun draws =>
    List.length_eq_zero_iff.mp (by rw [length_keptPositions h, Nat.zero_mod, Nat.min_zero])
  simp [hnone, Finset.card_eq_zero.mp hcard]

/-- The last subset is never kept where the walk does not reach the end. -/
theorem not_fair (hwide : 2 ^ 32 ≤ n) (h : requestedSize < n) (hpos : 0 < requestedSize) :
    ¬ Fair n requestedSize := by
  intro hfair
  obtain ⟨Ω, mΩ, P, urand, hdraws⟩ := exists_uniformDraws
  have hlast := hfair Ω P urand hdraws (Finset.Ico (n - requestedSize) n)
    (fun i hi => Finset.mem_range.mpr (Finset.mem_Ico.mp hi).2) (by rw [Nat.card_Ico]; omega)
  have hnever : {ω | (keptPositions (fun m => urand m ω) n requestedSize).toFinset =
      Finset.Ico (n - requestedSize) n} = ∅ := by
    refine Set.eq_empty_iff_forall_notMem.mpr fun ω hω => ?_
    have hmem : n - 1 ∈ keptPositions (fun m => urand m ω) n requestedSize := by
      rw [← List.mem_toFinset, Set.mem_ofPred_eq.mp hω, Finset.mem_Ico]
      omega
    have hreach := keptPositions_lt h hmem
    omega
  rw [hnever, measureReal_empty] at hlast
  have hchoose : (n.choose requestedSize : ℝ) ≠ 0 := Nat.cast_ne_zero.mpr (Nat.choose_pos h.le).ne'
  exact one_div_ne_zero hchoose hlast.symm

end Kept

theorem exact_of_fits {container : List α} {requestedSize : ℕ}
    (h : container.length < 2 ^ 32 ∨ container.length ≤ requestedSize ∨ requestedSize = 0) :
    Exact container requestedSize := by
  refine ⟨fun moved urand => randomResize_elements moved urand container requestedSize,
    fun urand => keptPositions_sublist, fun urand => ?_⟩
  by_cases hle : container.length ≤ requestedSize
  · rw [keptPositions_of_le hle, List.length_range, Nat.min_eq_left hle]
  · rw [length_keptPositions (Nat.lt_of_not_le hle)]
    rcases h with h | h | h
    · rw [Nat.mod_eq_of_lt h, Nat.mod_eq_of_lt ((Nat.lt_of_not_le hle).trans h)]
    · exact absurd h hle
    · rw [h, Nat.zero_mod, Nat.min_zero, Nat.min_zero]

/-- So many elements remain and every choice of them is as likely, as long as the counters hold the sizes. -/
theorem randomResize_fair_iff (container : List α) (requestedSize : ℕ) :
    (Exact container requestedSize ∧
        (requestedSize < container.length → Fair container.length requestedSize)) ↔
      container.length < 2 ^ 32 ∨ container.length ≤ requestedSize ∨ requestedSize = 0 := by
  constructor
  · rintro ⟨-, hfair⟩
    by_contra h
    obtain ⟨hwide, hlt, hpos⟩ : 2 ^ 32 ≤ container.length ∧ requestedSize < container.length ∧
        0 < requestedSize := by omega
    exact not_fair hwide hlt hpos (hfair hlt)
  · refine fun h => ⟨exact_of_fits h, fun hlt => ?_⟩
    rcases h with h | h | h
    · exact fair_of_lt h hlt
    · exact absurd hlt (Nat.not_lt.mpr h)
    · rw [h] at hlt ⊢
      exact fair_zero hlt

/-- Of 2³² elements none remains, where one should. -/
theorem not_randomResize_exact : ¬ Exact (List.replicate (2 ^ 32) 0) 1 := by
  intro h
  have hlen := h.length fun m => 0
  rw [length_keptPositions (by rw [List.length_replicate]; decide), List.length_replicate, Nat.mod_self] at hlen
  exact absurd hlen (by decide)

/-! ## The form without moves

The pools roll their objects with a list of its own for what is kept. -/

/-- One pass of selection marks what is kept. -/
theorem randomKeep_eq_marked (urand : ℕ → ℕ) (n : ℕ) (l : List α) :
    Pools.randomKeep urand n l =
      marked (selection (fun m => ⟨urand m % (m + 1), Nat.mod_lt _ m.succ_pos⟩) l.length n) l := by
  induction l generalizing n with
  | nil => rfl
  | cons a l ih =>
    rw [Pools.randomKeep, List.length_cons, selection, Nat.add_comm 1]
    split
    · rw [ih, marked, if_pos rfl]
    · rw [ih, marked, if_neg Bool.false_ne_true]

/-- **The two forms are one**, for a list whose size fits into the counters. -/
theorem poolsRandomResize_eq (moved : α → α) (urand : ℕ → ℕ) {n : ℕ} {l : List α} (h : l.length < 2 ^ 32) :
    Pools.randomResize urand n l =
      randomResize moved (fun m => ⟨urand m % (m + 1), Nat.mod_lt _ m.succ_pos⟩) l n := by
  unfold Pools.randomResize
  split
  next hfits => rw [randomResize, if_pos hfits]
  next hmore =>
    have hlt := Nat.lt_of_not_le hmore
    rw [randomResize_eq _ _ _ _ hlt, Nat.mod_eq_of_lt h, Nat.mod_eq_of_lt (hlt.trans h),
      randomKeep_eq_marked]

end Sunstrider.Utilities
