import Mathlib.Algebra.Order.Group.Multiset
import Mathlib.Data.List.Sort
import Mathlib.Data.List.TakeWhile

/-!
# Multimaps in the order of their keys

A list of pairs in the order of its keys, as an iterator over a multimap walks over it. A new pair comes
after the pairs with its key.
-/

namespace Sunstrider.Lib

variable {K V : Type} [LinearOrder K]

/-- Insertion, at the upper bound of the key. -/
def multimapInsert (l : List (K × V)) (e : K × V) : List (K × V) :=
  l.takeWhile (fun x => x.1 ≤ e.1) ++ e :: l.dropWhile fun x => x.1 ≤ e.1

/-- The pairs are in the order of their keys. -/
def KeyOrdered (l : List (K × V)) : Prop := l.Pairwise fun x y => x.1 ≤ y.1

theorem multimapInsert_perm (l : List (K × V)) (e : K × V) : (multimapInsert l e).Perm (e :: l) := by
  have h : (multimapInsert l e).Perm (e :: (l.takeWhile _ ++ l.dropWhile fun x => x.1 ≤ e.1)) :=
    List.perm_middle
  rwa [List.takeWhile_append_dropWhile] at h

theorem coe_multimapInsert (l : List (K × V)) (e : K × V) :
    (multimapInsert l e : Multiset (K × V)) = e ::ₘ (l : Multiset (K × V)) :=
  Multiset.coe_eq_coe.mpr (multimapInsert_perm l e)

variable {l : List (K × V)} {e x : K × V}

theorem mem_multimapInsert : x ∈ multimapInsert l e ↔ x = e ∨ x ∈ l := by
  rw [(multimapInsert_perm l e).mem_iff, List.mem_cons]

/-- A pair with a key that is not smaller comes behind the first. -/
theorem multimapInsert_cons {k : K} {v : V} (h : k ≤ e.1) (l : List (K × V)) :
    multimapInsert ((k, v) :: l) e = (k, v) :: multimapInsert l e := by
  simp [multimapInsert, h]

theorem keyOrdered_insert (h : KeyOrdered l) (e : K × V) : KeyOrdered (multimapInsert l e) := by
  have hsplit : l.takeWhile (fun x => x.1 ≤ e.1) ++ l.dropWhile (fun x => x.1 ≤ e.1) = l :=
    List.takeWhile_append_dropWhile
  have hpair := h
  rw [KeyOrdered, ← hsplit, List.pairwise_append] at hpair
  obtain ⟨hbefore, hafter, hacross⟩ := hpair
  have hle : ∀ x ∈ l.takeWhile (fun x => x.1 ≤ e.1), x.1 ≤ e.1 := by
    intro x hx
    have hx' := List.mem_takeWhile_imp hx
    exact of_decide_eq_true hx'
  have hge : ∀ y ∈ l.dropWhile (fun x => x.1 ≤ e.1), e.1 ≤ y.1 := by
    intro y hy
    cases hdrop : l.dropWhile (fun x => x.1 ≤ e.1) with
    | nil =>
      rw [hdrop] at hy
      cases hy
    | cons z rest =>
      have hz : ¬ z.1 ≤ e.1 := by
        have hhead := List.head_dropWhile_not (fun x : K × V => decide (x.1 ≤ e.1)) (l := l)
          (by rw [hdrop]; exact List.cons_ne_nil z rest)
        simp only [hdrop, List.head_cons, decide_eq_false_iff_not] at hhead
        exact hhead
      have hlt : e.1 ≤ z.1 := le_of_lt (lt_of_not_ge hz)
      rw [hdrop] at hy hafter
      rcases List.mem_cons.mp hy with rfl | hy
      · exact hlt
      · exact hlt.trans ((List.pairwise_cons.mp hafter).1 y hy)
  rw [KeyOrdered, multimapInsert, List.pairwise_append, List.pairwise_cons]
  refine ⟨hbefore, ⟨hge, hafter⟩, fun x hx y hy => ?_⟩
  rcases List.mem_cons.mp hy with rfl | hy
  · exact hle x hx
  · exact hacross x hx y hy

/-- The assignment of a map, which has one pair for each key. -/
def mapAssign (l : List (K × V)) (e : K × V) : List (K × V) := multimapInsert (l.filter fun x => x.1 ≠ e.1) e

theorem mem_mapAssign : x ∈ mapAssign l e ↔ x = e ∨ x ∈ l ∧ x.1 ≠ e.1 := by
  rw [mapAssign, mem_multimapInsert, List.mem_filter, decide_eq_true_iff]

theorem mapAssign_ordered (h : l.Pairwise fun x y => x.1 < y.1) (e : K × V) :
    (mapAssign l e).Pairwise fun x y => x.1 < y.1 := by
  have hfilter := h.filter fun x => x.1 ≠ e.1
  have hle : KeyOrdered (mapAssign l e) := keyOrdered_insert (hfilter.imp le_of_lt) e
  have hne : (mapAssign l e).Pairwise fun x y => x.1 ≠ y.1 := by
    rw [mapAssign, (multimapInsert_perm _ e).pairwise_iff fun h => h.symm, List.pairwise_cons]
    refine ⟨fun x hx => ?_, hfilter.imp ne_of_lt⟩
    exact (of_decide_eq_true (List.mem_filter.mp hx).2).symm
  exact hle.imp₂ (fun _ _ hxy hxy' => lt_of_le_of_ne hxy hxy') hne

theorem coe_foldl_multimapInsert (l l' : List (K × V)) :
    ((l'.foldl multimapInsert l : List (K × V)) : Multiset (K × V)) =
      (l : Multiset (K × V)) + (l' : Multiset (K × V)) := by
  induction l' generalizing l with
  | nil => exact (add_zero _).symm
  | cons e l' ih =>
    rw [List.foldl_cons, ih, coe_multimapInsert, Multiset.cons_add, ← Multiset.add_cons]
    rfl

theorem keyOrdered_foldl_insert (h : KeyOrdered l) (l' : List (K × V)) :
    KeyOrdered (l'.foldl multimapInsert l) := by
  induction l' generalizing l with
  | nil => exact h
  | cons e l' ih => exact ih (keyOrdered_insert h e)

theorem keyOrdered_filter (h : KeyOrdered l) (p : K × V → Bool) :
    KeyOrdered (l.filter p) := List.Pairwise.filter p h

variable {α : Type}

/-- The pairs that meet `p` are taken out, changed, and put back. -/
theorem coe_filter_add_map (l : List α) (p : α → Bool) (f : α → α) :
    (l.filter (fun x => !p x) : Multiset α) + ((l.filter p).map f : List α) =
      (l : Multiset α).map fun x => if p x then f x else x := by
  induction l with
  | nil => rfl
  | cons x l ih =>
    rw [← Multiset.cons_coe x l, Multiset.map_cons, ← ih]
    cases hp : p x with
    | true =>
      rw [List.filter_cons_of_neg (by simp [hp]), List.filter_cons_of_pos hp, List.map_cons, if_pos rfl,
        ← Multiset.cons_coe, Multiset.add_cons]
    | false =>
      rw [List.filter_cons_of_pos (by simp [hp]), List.filter_cons_of_neg (by simp [hp]),
        if_neg (by decide), ← Multiset.cons_coe, Multiset.cons_add]

/-- What is inserted at its upper bound keeps the order of the keys. -/
theorem pairwise_orderedInsert {key : V → K} {l : List V} (h : l.Pairwise fun a b => key a ≤ key b) (a : V) :
    (l.orderedInsert (fun a b => key a < key b) a).Pairwise fun a b => key a ≤ key b := by
  induction l with
  | nil => exact List.pairwise_singleton _ a
  | cons b l ih =>
    obtain ⟨hb, hl⟩ := List.pairwise_cons.mp h
    rw [List.orderedInsert_cons]
    split
    next hlt =>
      refine List.pairwise_cons.mpr ⟨List.forall_mem_cons.mpr ⟨hlt.le, fun c hc => ?_⟩, h⟩
      exact hlt.le.trans (hb c hc)
    next hle =>
      refine List.pairwise_cons.mpr ⟨fun c hc => ?_, ih hl⟩
      obtain rfl | hc := (List.mem_orderedInsert _).mp hc
      · exact not_lt.mp hle
      · exact hb c hc

/-! ## Iterators

An iterator is at the first pair that does not meet `p`. -/

/-- Where a pair is put in or taken out, the others behind the iterator are the same. -/
theorem mem_dropWhile_append_cons {p : α → Bool} {a : α} (ha : p a = true) (l₁ l₂ : List α)
    {x : α} :
    x ∈ (l₁ ++ a :: l₂).dropWhile p ↔
      (x = a ∧ l₁.dropWhile p ≠ []) ∨ x ∈ (l₁ ++ l₂).dropWhile p := by
  rw [List.dropWhile_append, List.dropWhile_append, List.dropWhile_cons_of_pos ha]
  by_cases h : l₁.dropWhile p = []
  · simp [h]
  · simp only [List.isEmpty_iff, h, if_false, List.mem_append, List.mem_cons]
    tauto

/-- What is behind the iterator after a pair before it or behind it has been put in its place anew. -/
theorem mem_dropWhile_insert {p : K × V → Bool} (he : p e = true)
    (hx : x ∈ (multimapInsert l e).dropWhile p) : x = e ∨ x ∈ l.dropWhile p := by
  rw [multimapInsert, mem_dropWhile_append_cons he, List.takeWhile_append_dropWhile] at hx
  exact hx.imp_left And.left

theorem mem_dropWhile_of_eraseP {p q : α → Bool} {l : List α} {x : α}
    (hq : ∀ a, q a = true → p a = true) (hx : x ∈ (l.eraseP q).dropWhile p) :
    x ∈ l.dropWhile p := by
  by_cases h : ∃ a ∈ l, q a = true
  · obtain ⟨a, ha, hqa⟩ := h
    obtain ⟨b, l₁, l₂, -, hb, rfl, heq⟩ := List.exists_of_eraseP ha hqa
    rw [heq] at hx
    exact (mem_dropWhile_append_cons (hq b hb) l₁ l₂).mpr (.inr hx)
  · rwa [List.eraseP_of_forall_not fun a ha hqa => h ⟨a, ha, hqa⟩] at hx

theorem keyOrdered_nil : KeyOrdered ([] : List (K × V)) := List.Pairwise.nil

end Sunstrider.Lib
