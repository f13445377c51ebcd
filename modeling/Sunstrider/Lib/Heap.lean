import Mathlib.Data.Finset.Insert
import Mathlib.Data.Finset.Erase
import Mathlib.Order.Basic
import Mathlib.Data.List.Sort

/-!
# Mutable priority heaps

A priority heap whose elements are handles and whose priorities live elsewhere: the heap compares
two handles by reading their keys at that moment. An owner that changes a key must tell the heap,
and must say in which direction the key moved. `increase` is the notice that it did not drop,
`decrease` that it did not rise.

`MutableHeap` is that interface with its contract, as a structure over an arbitrary carrier, so a
library's heap is one value of it:

- the content laws (`elems_push`, `elems_erase`, `elems_increase`, `elems_decrease`) hold of every
  call, a wrong notice included;
- the order laws say when a heap that is well structured (`Ordered`) stays so: `increase` asks that
  the key moved up, `decrease` that it moved down, and both that no other key in the heap moved;
- `top_max` is what the order is for.

`MutableHeap.sortedList` is the heap as a sorted list: the contract has a model.
-/

namespace Sunstrider.Lib

/-- A heap of handles of type `α`, ordered by keys of type `K` that are stored elsewhere. -/
structure MutableHeap (α K : Type) [DecidableEq α] [LinearOrder K] where
  Carrier : Type
  empty : Carrier
  push : (α → K) → Carrier → α → Carrier
  erase : (α → K) → Carrier → α → Carrier
  increase : (α → K) → Carrier → α → Carrier
  decrease : (α → K) → Carrier → α → Carrier
  top : Carrier → Option α
  ordered : (α → K) → Carrier → List α
  elems : Carrier → Finset α
  Ordered : (α → K) → Carrier → Prop
  elems_empty : elems empty = ∅
  elems_push : ∀ key h a, elems (push key h a) = insert a (elems h)
  elems_erase : ∀ key h a, elems (erase key h a) = (elems h).erase a
  elems_increase : ∀ key h a, a ∈ elems h → elems (increase key h a) = elems h
  elems_decrease : ∀ key h a, a ∈ elems h → elems (decrease key h a) = elems h
  top_mem : ∀ h a, top h = some a → a ∈ elems h
  top_eq_none : ∀ h, top h = none ↔ elems h = ∅
  mem_ordered : ∀ key h a, a ∈ ordered key h ↔ a ∈ elems h
  ordered_nodup : ∀ key h, (ordered key h).Nodup
  ordered_congr : ∀ key key' h, (∀ a ∈ elems h, key a = key' a) → Ordered key h → Ordered key' h
  ordered_empty : ∀ key, Ordered key empty
  ordered_push : ∀ key h a, Ordered key h → a ∉ elems h → Ordered key (push key h a)
  ordered_erase : ∀ key h a, Ordered key h → Ordered key (erase key h a)
  ordered_increase : ∀ old key h a, Ordered old h → a ∈ elems h → old a ≤ key a →
    (∀ b ∈ elems h, b ≠ a → key b = old b) → Ordered key (increase key h a)
  ordered_decrease : ∀ old key h a, Ordered old h → a ∈ elems h → key a ≤ old a →
    (∀ b ∈ elems h, b ≠ a → key b = old b) → Ordered key (decrease key h a)
  top_max : ∀ key h a, Ordered key h → top h = some a → ∀ b ∈ elems h, key b ≤ key a
  ordered_sorted : ∀ key h, Ordered key h → (ordered key h).Pairwise (fun a b => key b ≤ key a)

/-- The direction in which an owner says that a key moved. -/
inductive Direction
  | increased
  | decreased
  deriving DecidableEq, Repr

/-- The notice is true of the two keys: the key did not move against it. -/
def Direction.Agrees {K : Type} [LE K] : Direction → K → K → Prop
  | .increased, old, new => old ≤ new
  | .decreased, old, new => new ≤ old

instance {K : Type} [LE K] [DecidableLE K] (d : Direction) (old new : K) :
    Decidable (d.Agrees old new) := by
  cases d <;> exact inferInstanceAs (Decidable (_ ≤ _))

namespace MutableHeap

variable {α K : Type} [DecidableEq α] [LinearOrder K] (H : MutableHeap α K)

/-- The notice of a moved key, in either direction. -/
def notify (d : Direction) (key : α → K) (h : H.Carrier) (a : α) : H.Carrier :=
  match d with
  | .increased => H.increase key h a
  | .decreased => H.decrease key h a

variable {a : α}

theorem elems_notify (d : Direction) (key : α → K) (h : H.Carrier) (ha : a ∈ H.elems h) :
    H.elems (H.notify d key h a) = H.elems h := by
  cases d with
  | increased => exact H.elems_increase key h a ha
  | decreased => exact H.elems_decrease key h a ha

/-- A true notice keeps the heap well structured. -/
theorem ordered_notify {d : Direction} {old key : α → K} {h : H.Carrier} (ho : H.Ordered old h)
    (ha : a ∈ H.elems h) (hd : d.Agrees (old a) (key a))
    (hrest : ∀ b ∈ H.elems h, b ≠ a → key b = old b) : H.Ordered key (H.notify d key h a) := by
  cases d with
  | increased => exact H.ordered_increase old key h a ho ha hd hrest
  | decreased => exact H.ordered_decrease old key h a ho ha hd hrest

/-- An element is taken out by its handle: its own key, which may have moved without a notice, is not
looked at. -/
def ErasesByHandle : Prop :=
  ∀ (old key : α → K) (h : H.Carrier) (a : α), H.Ordered old h →
    (∀ b ∈ H.elems h, b ≠ a → key b = old b) → H.Ordered key (H.erase key h a)

/-! ## The contract has a model -/

section SortedList

variable (α K)

/-- `a` may stand before `b`: its key is at least as high. -/
def Above {α K : Type} [LE K] (key : α → K) (a b : α) : Prop := key b ≤ key a

instance {α K : Type} [LE K] [DecidableLE K] (key : α → K) : DecidableRel (Above key) :=
  fun a b => inferInstanceAs (Decidable (key b ≤ key a))

instance {α K : Type} [LinearOrder K] (key : α → K) : IsTrans α (Above key) :=
  ⟨fun _ _ _ h h' => le_trans h' h⟩

instance {α K : Type} [LinearOrder K] (key : α → K) : Std.Total (Above key) :=
  ⟨fun a b => le_total (key b) (key a)⟩

/-- Taking `a` out and putting it back by its key of now. -/
private def reinsert {α K : Type} [DecidableEq α] [LinearOrder K] (key : α → K)
    (h : {l : List α // l.Nodup}) (a : α) : {l : List α // l.Nodup} :=
  ⟨(h.1.erase a).orderedInsert (Above key) a,
    (List.perm_orderedInsert (Above key) a _).nodup_iff.mpr
      (List.nodup_cons.mpr ⟨h.2.not_mem_erase, h.2.erase a⟩)⟩

private theorem mem_reinsert (key : α → K) (h : {l : List α // l.Nodup}) (a b : α) :
    b ∈ (reinsert key h a).1 ↔ b = a ∨ b ∈ h.1 := by
  simp only [reinsert, List.mem_orderedInsert, h.2.mem_erase_iff]
  tauto

/-- Only the key of `a` may have moved: the rest is sorted by the new keys as by the old. -/
private theorem reinsert_pairwise {old key : α → K} {h : {l : List α // l.Nodup}}
    (ho : h.1.Pairwise (Above old)) (hrest : ∀ b ∈ h.1, b ≠ a → key b = old b) :
    (reinsert key h a).1.Pairwise (Above key) := by
  have hers : (h.1.erase a).Pairwise (Above old) := ho.sublist List.erase_sublist
  refine List.Pairwise.orderedInsert a _ (hers.imp_of_mem fun {b c} hb hc hbc => ?_)
  have hb' := h.2.mem_erase_iff.mp hb
  have hc' := h.2.mem_erase_iff.mp hc
  show key c ≤ key b
  rw [hrest b hb'.2 hb'.1, hrest c hc'.2 hc'.1]
  exact hbc

/-- The heap as a list sorted by the keys at its last call. -/
def sortedList : MutableHeap α K where
  Carrier := {l : List α // l.Nodup}
  empty := ⟨[], List.nodup_nil⟩
  push := reinsert
  erase _ h a := ⟨h.1.erase a, h.2.erase a⟩
  increase := reinsert
  decrease := reinsert
  top h := h.1.head?
  ordered key h := h.1.insertionSort (Above key)
  elems h := h.1.toFinset
  Ordered key h := h.1.Pairwise (Above key)
  elems_empty := rfl
  elems_push key h a := by
    ext b
    rw [List.mem_toFinset, mem_reinsert, Finset.mem_insert, List.mem_toFinset]
  elems_erase _ h a := by
    ext b
    rw [List.mem_toFinset, h.2.mem_erase_iff, Finset.mem_erase, List.mem_toFinset]
  elems_increase key h a ha := by
    ext b
    rw [List.mem_toFinset, mem_reinsert, List.mem_toFinset, or_iff_right_iff_imp]
    rintro rfl
    exact List.mem_toFinset.mp ha
  elems_decrease key h a ha := by
    ext b
    rw [List.mem_toFinset, mem_reinsert, List.mem_toFinset, or_iff_right_iff_imp]
    rintro rfl
    exact List.mem_toFinset.mp ha
  top_mem h a ha := List.mem_toFinset.mpr (List.mem_of_mem_head? ha)
  top_eq_none h := by rw [List.head?_eq_none_iff, List.toFinset_eq_empty_iff]
  mem_ordered key h a := by rw [List.mem_insertionSort, List.mem_toFinset]
  ordered_nodup key h := (List.perm_insertionSort (Above key) h.1).nodup_iff.mpr h.2
  ordered_congr key key' h heq ho := ho.imp_of_mem fun {a b} ha hb hab => by
    show key' b ≤ key' a
    rw [← heq a (List.mem_toFinset.mpr ha), ← heq b (List.mem_toFinset.mpr hb)]
    exact hab
  ordered_empty _ := List.Pairwise.nil
  ordered_push _ _ _ ho _ := reinsert_pairwise α K ho fun _ _ _ => rfl
  ordered_erase _ _ _ ho := ho.sublist List.erase_sublist
  ordered_increase _ _ _ _ ho _ _ hrest :=
    reinsert_pairwise α K ho fun b hb => hrest b (List.mem_toFinset.mpr hb)
  ordered_decrease _ _ _ _ ho _ _ hrest :=
    reinsert_pairwise α K ho fun b hb => hrest b (List.mem_toFinset.mpr hb)
  top_max key h a ho ha b hb := by
    obtain ⟨l, hl⟩ := List.head?_eq_some_iff.mp ha
    rw [hl, List.pairwise_cons] at ho
    rw [List.mem_toFinset, hl] at hb
    rcases List.mem_cons.mp hb with rfl | hb
    · exact le_refl _
    · exact ho.1 b hb
  ordered_sorted key h _ := List.pairwise_insertionSort (Above key) h.1

theorem sortedList_erasesByHandle : (sortedList α K).ErasesByHandle := by
  intro old key h a ho hrest
  have hers : (h.1.erase a).Pairwise (Above old) := ho.sublist List.erase_sublist
  refine hers.imp_of_mem fun {b c} hb hc hbc => ?_
  have hb' := h.2.mem_erase_iff.mp hb
  have hc' := h.2.mem_erase_iff.mp hc
  show key c ≤ key b
  rw [hrest b (List.mem_toFinset.mpr hb'.2) hb'.1, hrest c (List.mem_toFinset.mpr hc'.2) hc'.1]
  exact hbc

end SortedList

end MutableHeap

end Sunstrider.Lib
