import Mathlib.Data.List.Rotate

/-!
# Taking turns

The members of a list take turns. After the turn of one of them the search for the next begins behind it,
goes on from the start of the list, and comes to the member itself at last (`turnOrder`). Some members may
take no turn: `queue` are those that may, in the order of their turns.

Each turn moves the head of the queue to its end (`queue_iterate`), so as many turns as there are members
in the queue are one turn for each of them (`turns_perm`).
-/

namespace Sunstrider.Lib

variable {α : Type} [DecidableEq α]

/-- The list from behind `a` on, and then up to `a`. Where `a` is not a member, it is the list itself. -/
def turnOrder (l : List α) (a : Option α) : List α :=
  let i := l.findIdx (fun b => some b = a) + 1
  l.drop i ++ l.take i

/-- The first member behind `a` that may take a turn. -/
def nextTurn (p : α → Bool) (l : List α) (a : Option α) : Option α := (turnOrder l a).find? p

/-- The members that may take a turn, in the order of their turns. -/
def queue (p : α → Bool) (l : List α) (a : Option α) : List α := (turnOrder l a).filter p

variable {p : α → Bool} {l : List α} {a : Option α}

theorem turnOrder_perm (l : List α) (a : Option α) : (turnOrder l a).Perm l := by
  have h : (turnOrder l a).Perm (l.take _ ++ l.drop _) := List.perm_append_comm
  rwa [List.take_append_drop] at h

theorem turnOrder_isRotated (l : List α) (a : Option α) : l.IsRotated (turnOrder l a) := by
  have h : (l.take _ ++ l.drop _).IsRotated (turnOrder l a) := List.isRotated_append
  rwa [List.take_append_drop] at h

variable {c : α}

/-- The member comes last. -/
theorem turnOrder_append_cons {s t : List α} (h : c ∉ s) :
    turnOrder (s ++ c :: t) (some c) = t ++ s ++ [c] := by
  have hidx : (s ++ c :: t).findIdx (fun b => some b = some c) = s.length := by
    rw [List.findIdx_append, if_neg]
    · rw [List.findIdx_cons]
      simp
    · rw [List.findIdx_eq_length.mpr fun b hb => decide_eq_false fun heq => ?_]
      · exact Nat.lt_irrefl _
      · exact h (Option.some.inj heq ▸ hb)
  have htake : (s ++ c :: t).take (s.length + 1) = s ++ [c] := by
    simp [List.take_append]
  have hdrop : (s ++ c :: t).drop (s.length + 1) = t := by
    simp
  rw [turnOrder, hidx, htake, hdrop, List.append_assoc]

omit [DecidableEq α] in
/-- Two rotations of a list without duplicates that end with one member are the same. -/
theorem eq_of_isRotated_concat {x y : List α} (hnodup : (x ++ [c]).Nodup)
    (h : (x ++ [c]).IsRotated (y ++ [c])) : x ++ [c] = y ++ [c] := by
  obtain ⟨n, hn, hrotate⟩ := List.isRotated_iff_mod.mp h
  rw [List.rotate_eq_drop_append_take hn] at hrotate
  by_cases hdrop : (x ++ [c]).drop n = []
  · rw [hdrop, List.nil_append, List.take_of_length_le (List.drop_eq_nil_iff.mp hdrop)] at hrotate
    exact hrotate
  by_cases htake : (x ++ [c]).take n = []
  · have hsplit := List.take_append_drop n (x ++ [c])
    rw [htake, List.nil_append] at hsplit
    rw [htake, List.append_nil, hsplit] at hrotate
    exact hrotate
  -- otherwise the member is both before the cut and behind it
  exfalso
  have hlast : ∀ u v w : List α, v ≠ [] → u ++ v = w ++ [c] → c ∈ v := fun u v w hv huv => by
    have hend := congrArg List.getLast? huv
    rw [List.getLast?_append_of_ne_nil _ hv, List.getLast?_append_of_ne_nil _ (List.cons_ne_nil c []),
      List.getLast?_singleton] at hend
    exact List.mem_of_getLast? hend
  have hbehind := hlast _ _ x hdrop (List.take_append_drop n (x ++ [c]))
  have hbefore := hlast _ _ y htake hrotate
  rw [← List.take_append_drop n (x ++ [c])] at hnodup
  exact (List.nodup_append'.mp hnodup).2.2 hbefore hbehind

/-- The next order begins behind the member whose turn it was, wherever the search began. -/
theorem turnOrder_next (hnodup : l.Nodup) {s t : List α} (h : turnOrder l a = s ++ c :: t) :
    turnOrder l (some c) = t ++ s ++ [c] := by
  have hmem : c ∈ l := (turnOrder_perm l a).mem_iff.mp (by rw [h]; simp)
  obtain ⟨u, v, rfl⟩ := List.append_of_mem hmem
  have hu : c ∉ u := fun hc => (List.nodup_append'.mp hnodup).2.2 hc List.mem_cons_self
  rw [turnOrder_append_cons hu]
  have hown : (u ++ c :: v).IsRotated (v ++ u ++ [c]) := by
    have hrot := turnOrder_isRotated (u ++ c :: v) (some c)
    rwa [turnOrder_append_cons hu] at hrot
  have hother : (u ++ c :: v).IsRotated (t ++ s ++ [c]) := by
    have hrot := turnOrder_isRotated (u ++ c :: v) a
    rw [h] at hrot
    refine hrot.trans ?_
    have hcut : s ++ c :: t = (s ++ [c]) ++ t := by simp
    rw [hcut, List.append_assoc t s [c]]
    exact List.isRotated_append
  exact eq_of_isRotated_concat ((hown.perm.nodup_iff).mp hnodup) (hown.symm.trans hother)

/-- Somebody has the next turn unless nobody may take one. -/
theorem nextTurn_eq_none : nextTurn p l a = none ↔ ∀ b ∈ l, p b = false := by
  rw [nextTurn, List.find?_eq_none]
  simp only [(turnOrder_perm l a).mem_iff, Bool.not_eq_true]

theorem head?_queue : (queue p l a).head? = nextTurn p l a := List.head?_filter

theorem queue_perm : (queue p l a).Perm (l.filter p) := (turnOrder_perm l a).filter p

/-- A turn moves the head of the queue to its end. -/
theorem queue_nextTurn (hnodup : l.Nodup) : queue p l (nextTurn p l a) = (queue p l a).rotate 1 := by
  cases hq : queue p l a with
  | nil =>
    have hnone : l.filter p = [] := List.Perm.eq_nil (hq ▸ queue_perm).symm
    exact List.Perm.eq_nil (hnone ▸ queue_perm)
  | cons c q =>
    have hnext : nextTurn p l a = some c := by
      rw [← head?_queue, hq]
      rfl
    obtain ⟨s, t, horder, hs, hc, ht⟩ := List.filter_eq_cons_iff.mp hq
    have hpast : s.filter p = [] := List.filter_eq_nil_iff.mpr hs
    rw [hnext, queue, turnOrder_next hnodup horder, List.filter_append, List.filter_append, ht, hpast,
      List.append_nil, List.filter_cons_of_pos hc, List.filter_nil, List.rotate_cons_succ,
      List.rotate_zero]

theorem queue_iterate (hnodup : l.Nodup) (n : ℕ) :
    queue p l ((nextTurn p l)^[n] a) = (queue p l a).rotate n := by
  induction n with
  | zero => exact (List.rotate_zero _).symm
  | succ n ih =>
    rw [Function.iterate_succ_apply', queue_nextTurn hnodup, ih, List.rotate_rotate]

/-- **A round of turns is one turn for each member that may take one**, wherever it begins. -/
theorem turns_perm (hnodup : l.Nodup) (n : ℕ) :
    ((List.range (l.filter p).length).map fun i => (nextTurn p l)^[n + i + 1] a).Perm
      ((l.filter p).map some) := by
  have hlength : (l.filter p).length = (queue p l ((nextTurn p l)^[n] a)).length :=
    queue_perm.length_eq.symm
  have hround : ((List.range (l.filter p).length).map fun i => (nextTurn p l)^[n + i + 1] a) =
      (queue p l ((nextTurn p l)^[n] a)).map some := by
    refine List.ext_getElem (by simp [hlength]) fun i hi hi' => ?_
    have hlt : i < (queue p l ((nextTurn p l)^[n] a)).length := by simpa using hi'
    rw [List.getElem_map, List.getElem_map, List.getElem_range, Function.iterate_succ_apply',
      ← head?_queue, Nat.add_comm n i, Function.iterate_add_apply, queue_iterate hnodup i,
      List.head?_rotate hlt, List.getElem?_eq_getElem hlt]
  rw [hround]
  exact queue_perm.map some

end Sunstrider.Lib
