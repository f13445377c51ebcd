import Mathlib.Algebra.GroupWithZero.Nat
import Mathlib.Algebra.Order.BigOperators.Group.List
import Mathlib.Data.List.Nodup

/-!
# Filling rooms in order

A search comes to one room after another, places with what they have room for, and each takes what it can
of what is left (`fill`). A place that it comes to again is passed over: `enroll` adds a room to those of
the places so far, and `survey` a whole list of rooms.
-/

namespace Sunstrider.Lib

variable {σ : Type}

/-! ## Filling -/

/-- How much of `n` things goes to which place, until nothing is left. -/
def fill : List (σ × ℕ) → ℕ → List (σ × ℕ)
  | [], _ => []
  | (x, r) :: rooms, n => if n = 0 then [] else (x, min r n) :: fill rooms (n - r)

/-- What there is room for. -/
def capacity (rooms : List (σ × ℕ)) : ℕ := (rooms.map Prod.snd).sum

variable {rooms more : List (σ × ℕ)} {n : ℕ}

@[simp] theorem capacity_nil : capacity ([] : List (σ × ℕ)) = 0 := rfl

@[simp] theorem capacity_cons (c : σ × ℕ) (rooms : List (σ × ℕ)) :
    capacity (c :: rooms) = c.2 + capacity rooms := by
  simp [capacity]

theorem capacity_append (rooms more : List (σ × ℕ)) :
    capacity (rooms ++ more) = capacity rooms + capacity more := by
  simp [capacity]

@[simp] theorem fill_nil (n : ℕ) : fill ([] : List (σ × ℕ)) n = [] := rfl

@[simp] theorem fill_zero (rooms : List (σ × ℕ)) : fill rooms 0 = [] := by
  cases rooms with
  | nil => rfl
  | cons c rooms => exact if_pos rfl

theorem fill_cons (c : σ × ℕ) (rooms : List (σ × ℕ)) (h : n ≠ 0) :
    fill (c :: rooms) n = (c.1, min c.2 n) :: fill rooms (n - c.2) := if_neg h

/-- Of two lists of rooms, the second gets what the first leaves. -/
theorem fill_append (rooms more : List (σ × ℕ)) (n : ℕ) :
    fill (rooms ++ more) n = fill rooms n ++ fill more (n - capacity rooms) := by
  induction rooms generalizing n with
  | nil => rfl
  | cons c rooms ih =>
    by_cases h : n = 0
    · simp [h]
    · rw [List.cons_append, fill_cons c _ h, fill_cons c _ h, ih, capacity_cons, List.cons_append,
        Nat.sub_sub]

/-- As much is filled as there is room for. -/
theorem sum_fill (rooms : List (σ × ℕ)) (n : ℕ) : capacity (fill rooms n) = min (capacity rooms) n := by
  induction rooms generalizing n with
  | nil => simp
  | cons c rooms ih =>
    by_cases h : n = 0
    · simp [h]
    · rw [fill_cons c _ h, capacity_cons, capacity_cons, ih]
      omega

/-- What is more than there is room for fills all rooms. -/
theorem fill_of_lt (h : capacity rooms < n) : fill rooms n = rooms := by
  induction rooms generalizing n with
  | nil => rfl
  | cons c rooms ih =>
    rw [capacity_cons] at h
    rw [fill_cons c _ (by omega), ih (by omega), Nat.min_eq_left (by omega)]

/-- The places that are filled come first. -/
theorem prefix_of_fill (rooms : List (σ × ℕ)) (n : ℕ) :
    ((fill rooms n).map Prod.fst) <+: rooms.map Prod.fst := by
  induction rooms generalizing n with
  | nil => exact List.prefix_rfl
  | cons c rooms ih =>
    by_cases h : n = 0
    · simp [h]
    · rw [fill_cons c _ h]
      exact List.prefix_cons_iff.mpr (.inr ⟨_, rfl, ih (n - c.2)⟩)

variable {c : σ × ℕ}

/-- No place gets more than it has room for. -/
theorem fill_le (h : c ∈ fill rooms n) : ∃ r, (c.1, r) ∈ rooms ∧ c.2 ≤ r := by
  induction rooms generalizing n with
  | nil => cases h
  | cons d rooms ih =>
    by_cases hn : n = 0
    · rw [hn, fill_zero] at h
      cases h
    · rw [fill_cons d _ hn] at h
      rcases List.mem_cons.mp h with rfl | h
      · exact ⟨d.2, List.mem_cons_self, Nat.min_le_left ..⟩
      · obtain ⟨r, hr, hle⟩ := ih h
        exact ⟨r, List.mem_cons_of_mem d hr, hle⟩

/-- **What holds of all amounts**, in terms of the rooms that the filling comes to. -/
theorem forall_fill_iff (P : ℕ → Prop) (rooms : List (σ × ℕ)) (n : ℕ) :
    (∀ c ∈ fill rooms n, P c.2) ↔ ∀ before c after, rooms = before ++ c :: after →
      capacity before < n → P (min c.2 (n - capacity before)) := by
  induction rooms generalizing n with
  | nil => simp
  | cons d rooms ih =>
    by_cases hn : n = 0
    · simp [hn]
    · rw [fill_cons d _ hn, List.forall_mem_cons, ih]
      constructor
      · rintro ⟨hfirst, hrest⟩ before c after heq hlt
        cases before with
        | nil =>
          cases heq
          exact hfirst
        | cons b before =>
          cases heq
          rw [capacity_cons] at hlt ⊢
          rw [← Nat.sub_sub]
          exact hrest before c after rfl (by omega)
      · intro h
        refine ⟨h [] d rooms rfl (Nat.pos_of_ne_zero hn), ?_⟩
        intro before c after heq hlt
        have hcons := h (d :: before) c after (by rw [heq, List.cons_append])
        rw [capacity_cons, ← Nat.sub_sub] at hcons
        exact hcons (by omega)

/-! ## Rooms in the order of a search -/

variable [DecidableEq σ]

/-- A room is added, unless its place is there already. -/
def enroll (rooms : List (σ × ℕ)) (c : σ × ℕ) : List (σ × ℕ) :=
  if c.1 ∈ rooms.map Prod.fst then rooms else rooms ++ [c]

/-- Rooms are added one after another. -/
def survey (rooms found : List (σ × ℕ)) : List (σ × ℕ) := found.foldl enroll rooms

@[simp] theorem survey_nil (rooms : List (σ × ℕ)) : survey rooms [] = rooms := rfl

theorem survey_cons (rooms : List (σ × ℕ)) (c : σ × ℕ) (found : List (σ × ℕ)) :
    survey rooms (c :: found) = survey (enroll rooms c) found := rfl

theorem survey_append (rooms found more : List (σ × ℕ)) :
    survey rooms (found ++ more) = survey (survey rooms found) more := List.foldl_append

theorem enroll_of_mem (h : c.1 ∈ rooms.map Prod.fst) : enroll rooms c = rooms := if_pos h

theorem enroll_of_notMem (h : c.1 ∉ rooms.map Prod.fst) : enroll rooms c = rooms ++ [c] := if_neg h

theorem prefix_of_survey (rooms found : List (σ × ℕ)) : rooms <+: survey rooms found := by
  induction found generalizing rooms with
  | nil => exact List.prefix_rfl
  | cons c found ih =>
    rw [survey_cons]
    refine List.IsPrefix.trans ?_ (ih (enroll rooms c))
    unfold enroll
    split
    · exact List.prefix_rfl
    · exact List.prefix_append ..

variable {found : List (σ × ℕ)}

theorem nodup_survey (h : (rooms.map Prod.fst).Nodup) :
    ((survey rooms found).map Prod.fst).Nodup := by
  induction found generalizing rooms with
  | nil => exact h
  | cons c found ih =>
    rw [survey_cons]
    apply ih
    unfold enroll
    split
    · exact h
    · next hnew =>
      rw [List.map_append, List.map_singleton]
      exact h.append (List.nodup_singleton _) (List.disjoint_singleton.mpr hnew)

theorem mem_of_mem_survey (h : c ∈ survey rooms found) :
    c ∈ rooms ∨ c ∈ found ∧ c.1 ∉ rooms.map Prod.fst := by
  induction found generalizing rooms with
  | nil => exact .inl h
  | cons d found ih =>
    rw [survey_cons] at h
    unfold enroll at h
    split at h
    · rcases ih h with hold | ⟨hnew, hnot⟩
      · exact .inl hold
      · exact .inr ⟨List.mem_cons_of_mem d hnew, hnot⟩
    · next hd =>
      rcases ih h with hold | ⟨hnew, hnot⟩
      · rcases List.mem_append.mp hold with hold | hlast
        · exact .inl hold
        · rw [List.mem_singleton.mp hlast]
          exact .inr ⟨List.mem_cons_self, hd⟩
      · refine .inr ⟨List.mem_cons_of_mem d hnew, ?_⟩
        intro hmem
        apply hnot
        rw [List.map_append]
        exact List.mem_append_left _ hmem

/-- The place of every room that was found is there. -/
theorem mem_survey_places (h : c ∈ found) : c.1 ∈ (survey rooms found).map Prod.fst := by
  induction found generalizing rooms with
  | nil => cases h
  | cons d found ih =>
    rw [survey_cons]
    rcases List.mem_cons.mp h with rfl | h
    · apply ((prefix_of_survey (enroll rooms c) found).map Prod.fst).subset
      unfold enroll
      split
      · next hmem => exact hmem
      · simp
    · exact ih h

end Sunstrider.Lib
