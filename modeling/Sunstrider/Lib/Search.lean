import Mathlib.Data.Finset.Card
import Mathlib.Logic.Relation

/-!
# Searching a graph from a set of nodes

A graph gives each node that it knows a set of successors; a successor may be unknown. `Reached` are the
known nodes at the end of a path of known nodes that begins in a set.

A search keeps the nodes that it has still to look at and those that it has found. `Searching` is its
invariant; `Searching.skip` and `Searching.visit` are the two things that a round does, and
`Searching.found_iff` reads the answer off when nothing is left. `Searching.weight` goes down in each
round, whatever order the nodes are taken in.
-/

namespace Sunstrider.Lib

open Relation

variable {α : Type}

/-- A step from a node to a successor that is known. -/
def StepsTo (next : α → Option (Finset α)) (a b : α) : Prop :=
  (∃ succs, next a = some succs ∧ b ∈ succs) ∧ (next b).isSome

/-- The known nodes that a path from the set comes to. -/
def Reached (next : α → Option (Finset α)) (s : Finset α) (b : α) : Prop :=
  ∃ a ∈ s, (next a).isSome ∧ ReflTransGen (StepsTo next) a b

variable {next : α → Option (Finset α)} {s t : Finset α} {a b : α}

theorem Reached.of_mem (ha : a ∈ s) (hknown : (next a).isSome) : Reached next s a :=
  ⟨a, ha, hknown, .refl⟩

variable {succs : Finset α}

theorem Reached.step (h : Reached next s a) (ha : next a = some succs) (hb : b ∈ succs)
    (hknown : (next b).isSome) : Reached next s b := by
  obtain ⟨c, hc, hcknown, hpath⟩ := h
  exact ⟨c, hc, hcknown, hpath.tail ⟨⟨succs, ha, hb⟩, hknown⟩⟩

theorem not_reached_empty : ¬ Reached next ∅ b := by
  rintro ⟨a, ha, -⟩
  exact absurd ha (Finset.notMem_empty a)

/-- A set that holds the known nodes of another, and with a node its known successors, holds all that
can be reached. -/
theorem Reached.mem_of_closed (h : Reached next s b)
    (hstart : ∀ a ∈ s, (next a).isSome → a ∈ t)
    (hclosed : ∀ a ∈ t, ∀ b, StepsTo next a b → b ∈ t) : b ∈ t := by
  obtain ⟨a, ha, hknown, hpath⟩ := h
  induction hpath with
  | refl => exact hstart a ha hknown
  | tail _ hstep ih => exact hclosed _ ih _ hstep

/-! ## The invariant of a search -/

/-- A search from `s` that has `todo` to look at and has found `found`, over nodes of `all`. -/
structure Searching (next : α → Option (Finset α)) (all s todo found : Finset α) : Prop where
  todo_sub : todo ⊆ all
  found_sub : found ⊆ all
  start : ∀ a ∈ s, (next a).isSome → a ∈ todo ∨ a ∈ found
  closed : ∀ a ∈ found, ∀ b, StepsTo next a b → b ∈ todo ∨ b ∈ found
  todo_reached : ∀ a ∈ todo, (next a).isSome → Reached next s a
  found_reached : ∀ a ∈ found, Reached next s a
  apart : ∀ a ∈ todo, a ∉ found

namespace Searching

variable [DecidableEq α] {all todo found : Finset α}

omit [DecidableEq α] in
theorem begin (hs : s ⊆ all) : Searching next all s s ∅ where
  todo_sub := hs
  found_sub := Finset.empty_subset all
  start _ ha _ := .inl ha
  closed a ha := absurd ha (Finset.notMem_empty a)
  todo_reached _ ha hknown := .of_mem ha hknown
  found_reached a ha := absurd ha (Finset.notMem_empty a)
  apart a _ := Finset.notMem_empty a

/-- A node that is not known is dropped. -/
theorem skip (h : Searching next all s todo found) (hunknown : next a = none) :
    Searching next all s (todo.erase a) found := by
  have hstay : ∀ b, (next b).isSome → b ∈ todo → b ∈ todo.erase a := fun b hb hmem => by
    refine Finset.mem_erase.mpr ⟨?_, hmem⟩
    rintro rfl
    rw [hunknown] at hb
    cases hb
  exact {
    todo_sub := (Finset.erase_subset a todo).trans h.todo_sub
    found_sub := h.found_sub
    start := fun b hb hknown => (h.start b hb hknown).imp_left (hstay b hknown)
    closed := fun b hb c hc => (h.closed b hb c hc).imp_left (hstay c hc.2)
    todo_reached := fun b hb => h.todo_reached b (Finset.mem_of_mem_erase hb)
    found_reached := h.found_reached
    apart := fun b hb => h.apart b (Finset.mem_of_mem_erase hb) }

/-- A known node is found, and what it leads to is to be looked at, unless it is found already. -/
theorem visit (h : Searching next all s todo found) (ha : a ∈ todo) (hnext : next a = some succs)
    (hsuccs : succs ⊆ all) :
    Searching next all s (todo.erase a ∪ succs.filter (· ∉ insert a found)) (insert a found) := by
  have hknown : (next a).isSome := by rw [hnext]; rfl
  have hreached : Reached next s a := h.todo_reached a ha hknown
  have hstay : ∀ b, b ∈ todo ∨ b ∈ found →
      b ∈ todo.erase a ∪ succs.filter (· ∉ insert a found) ∨ b ∈ insert a found := by
    rintro b (hb | hb)
    · by_cases hba : b = a
      · exact .inr (hba ▸ Finset.mem_insert_self a found)
      · exact .inl (Finset.mem_union_left _ (Finset.mem_erase.mpr ⟨hba, hb⟩))
    · exact .inr (Finset.mem_insert_of_mem hb)
  refine ⟨?_, ?_, fun b hb hk => hstay b (h.start b hb hk), ?_, ?_, ?_, ?_⟩
  · intro b hb
    rcases Finset.mem_union.mp hb with hb | hb
    · exact h.todo_sub (Finset.mem_of_mem_erase hb)
    · exact hsuccs (Finset.mem_filter.mp hb).1
  · exact Finset.insert_subset (h.todo_sub ha) h.found_sub
  · intro b hb c hc
    rcases Finset.mem_insert.mp hb with rfl | hb
    · by_cases hin : c ∈ insert b found
      · exact .inr hin
      · obtain ⟨⟨succs', hs', hmem⟩, -⟩ := hc
        rw [hnext] at hs'
        cases hs'
        exact .inl (Finset.mem_union_right _ (Finset.mem_filter.mpr ⟨hmem, hin⟩))
    · exact hstay c (h.closed b hb c hc)
  · intro b hb hk
    rcases Finset.mem_union.mp hb with hb | hb
    · exact h.todo_reached b (Finset.mem_of_mem_erase hb) hk
    · exact hreached.step hnext (Finset.mem_filter.mp hb).1 hk
  · intro b hb
    rcases Finset.mem_insert.mp hb with rfl | hb
    · exact hreached
    · exact h.found_reached b hb
  · intro b hb hin
    rcases Finset.mem_union.mp hb with hb | hb
    · obtain ⟨hne, hmem⟩ := Finset.mem_erase.mp hb
      exact h.apart b hmem (Finset.mem_of_mem_insert_of_ne hin hne)
    · exact (Finset.mem_filter.mp hb).2 hin

omit [DecidableEq α] in
/-- **What a search finds** when nothing is left to look at. -/
theorem found_iff (h : Searching next all s ∅ found) : b ∈ found ↔ Reached next s b := by
  refine ⟨h.found_reached b, fun hb => hb.mem_of_closed (fun a ha hk => ?_) fun a ha c hc => ?_⟩
  · exact (h.start a ha hk).resolve_left (Finset.notMem_empty a)
  · exact (h.closed a ha c hc).resolve_left (Finset.notMem_empty c)

/-! ## Its end -/

/-- The rounds that are left, at most. -/
def weight (all todo found : Finset α) : ℕ := (all \ found).card * (all.card + 1) + todo.card

theorem weight_le (h : Searching next all s todo found) :
    weight all todo found ≤ all.card * (all.card + 1) + all.card :=
  Nat.add_le_add (Nat.mul_le_mul_right _ (Finset.card_le_card Finset.sdiff_subset))
    (Finset.card_le_card h.todo_sub)

theorem weight_skip (ha : a ∈ todo) : weight all (todo.erase a) found < weight all todo found :=
  Nat.add_lt_add_left (Finset.card_erase_lt_of_mem ha) _

theorem weight_visit (h : Searching next all s todo found) (ha : a ∈ todo)
    (hnext : next a = some succs) (hsuccs : succs ⊆ all) :
    weight all (todo.erase a ∪ succs.filter (· ∉ insert a found)) (insert a found) <
      weight all todo found := by
  have hcard : (all \ insert a found).card + 1 = (all \ found).card := by
    have hmem : a ∈ all \ found := Finset.mem_sdiff.mpr ⟨h.todo_sub ha, h.apart a ha⟩
    rw [← Finset.card_erase_add_one hmem, Finset.sdiff_insert]
  have htodo := Finset.card_le_card (h.visit ha hnext hsuccs).todo_sub
  simp only [weight, ← hcard, Nat.add_mul, Nat.one_mul]
  omega

end Searching

end Sunstrider.Lib
