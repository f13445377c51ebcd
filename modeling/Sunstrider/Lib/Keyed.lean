import Mathlib.Algebra.BigOperators.Group.List.Basic
import Mathlib.Algebra.GroupWithZero.Nat
import Mathlib.Data.List.Nodup

/-!
# Records under unique keys

A list of records, each under a key that no other has: the contents of an ordered map whose records
carry their own keys. `replaceKey` writes one record in place, `removeKey` takes it out. The rules
here say which records are left, that keys stay unique, and how a sum over the records changes, which
is what a conservation argument needs.
-/

namespace Sunstrider.Lib

variable {α K : Type} [DecidableEq K]

/-- The record under the key of `a`, replaced by `a`. -/
def replaceKey (key : α → K) (a : α) (l : List α) : List α :=
  l.map fun b => if key b = key a then a else b

/-- All records but the one under the key. -/
def removeKey (key : α → K) (k : K) (l : List α) : List α := l.filter fun b => key b ≠ k

variable {key : α → K} {l : List α} {a : α} {k : K}

/-- The record under a key. -/
theorem find_spec (h : l.find? (fun b => decide (key b = k)) = some a) : a ∈ l ∧ key a = k :=
  ⟨List.mem_of_find?_eq_some h, by simpa using List.find?_some h⟩

/-- A record is found under its key after it has been replaced, and the others as before. -/
theorem find_replaceKey (key : α → K) (a : α) (l : List α) (k : K) :
    (replaceKey key a l).find? (fun b => decide (key b = k)) =
      if key a = k then (l.find? fun b => decide (key b = k)).map fun _ => a
      else l.find? fun b => decide (key b = k) := by
  induction l with
  | nil => simp [replaceKey]
  | cons b l ih =>
    have hcons : replaceKey key a (b :: l) =
        (if key b = key a then a else b) :: replaceKey key a l := rfl
    rw [hcons]
    by_cases hk : key b = k
    · by_cases hb : key b = key a
      · rw [if_pos hb, if_pos (hb.symm.trans hk), List.find?_cons_of_pos (by simp [← hb, hk]),
          List.find?_cons_of_pos (by simp [hk]), Option.map_some]
      · rw [if_neg hb, if_neg fun ha => hb (hk.trans ha.symm),
          List.find?_cons_of_pos (by simp [hk]), List.find?_cons_of_pos (by simp [hk])]
    · have hne : key (if key b = key a then a else b) ≠ k := by
        split
        · next hb => rwa [← hb]
        · exact hk
      rw [List.find?_cons_of_neg (by simpa using hne), ih, List.find?_cons_of_neg (by simpa using hk)]

variable {b : α}

omit [DecidableEq K] in
/-- Two records under one key are one. -/
theorem eq_of_key (hl : (l.map key).Nodup) {a : α} (ha : a ∈ l) (hb : b ∈ l) (h : key a = key b) :
    a = b := List.inj_on_of_nodup_map hl ha hb h

/-- Where only one element of a list yields anything, that is what the list yields. -/
theorem flatMap_of_unique {α β : Type} {l : List α} {a : α} {f : α → List β} (hl : l.Nodup)
    (ha : a ∈ l) (h : ∀ b ∈ l, b ≠ a → f b = []) : l.flatMap f = f a := by
  induction l with
  | nil => cases ha
  | cons b l ih =>
    rw [List.nodup_cons] at hl
    rw [List.flatMap_cons]
    rcases List.mem_cons.mp ha with rfl | ha
    · have hnone : l.flatMap f = [] := by
        refine List.flatMap_eq_nil_iff.mpr fun c hc => ?_
        exact h c (List.mem_cons_of_mem _ hc) fun hca => hl.1 (hca ▸ hc)
      rw [hnone, List.append_nil]
    · have hfirst := h b List.mem_cons_self fun hba => hl.1 (hba ▸ ha)
      rw [hfirst, List.nil_append]
      exact ih hl.2 ha fun c hc => h c (List.mem_cons_of_mem _ hc)

theorem mem_replaceKey (h : b ∈ replaceKey key a l) : b = a ∨ b ∈ l ∧ key b ≠ key a := by
  obtain ⟨c, hc, rfl⟩ := List.mem_map.mp h
  split
  · exact .inl rfl
  · next hne => exact .inr ⟨hc, hne⟩

theorem map_key_replaceKey (key : α → K) (a : α) (l : List α) :
    (replaceKey key a l).map key = l.map key := by
  rw [replaceKey, List.map_map]
  refine List.map_congr_left fun b _ => ?_
  by_cases h : key b = key a
  · rw [Function.comp_apply, if_pos h, h]
  · rw [Function.comp_apply, if_neg h]

variable {a' : α}

/-- One record of a list is replaced, in its place. -/
theorem replaceKey_middle {l' : List α} (hl : ((l ++ a :: l').map key).Nodup)
    (hkey : key a' = key a) : replaceKey key a' (l ++ a :: l') = l ++ a' :: l' := by
  rw [List.map_append, List.map_cons, List.nodup_middle, List.nodup_cons, ← List.map_append] at hl
  have hother : ∀ b ∈ l ++ l', (if key b = key a' then a' else b) = b := fun b hb => by
    have hne : key b ≠ key a' := fun h => hl.1 (List.mem_map.mpr ⟨b, hb, h.trans hkey⟩)
    rw [if_neg hne]
  have hleft := List.map_congr_left fun b hb => hother b (List.mem_append_left l' hb)
  have hright := List.map_congr_left fun b hb => hother b (List.mem_append_right l hb)
  rw [List.map_id'] at hleft hright
  rw [replaceKey, List.map_append, List.map_cons, if_pos hkey.symm, hleft, hright]

theorem mem_removeKey : b ∈ removeKey key k l ↔ b ∈ l ∧ key b ≠ k := by
  simp only [removeKey, List.mem_filter, decide_eq_true_eq]

theorem nodup_removeKey (hl : (l.map key).Nodup) : ((removeKey key k l).map key).Nodup :=
  hl.sublist (List.filter_sublist.map key)

/-- What replaces a record is taken out with it. -/
theorem removeKey_replaceKey (key : α → K) (a : α) (l : List α) :
    removeKey key (key a) (replaceKey key a l) = removeKey key (key a) l := by
  induction l with
  | nil => rfl
  | cons b l ih =>
    have hcons : replaceKey key a (b :: l) =
        (if key b = key a then a else b) :: replaceKey key a l := rfl
    rw [hcons]
    unfold removeKey at ih ⊢
    by_cases hb : key b = key a
    · rw [if_pos hb, List.filter_cons_of_neg (by simp), List.filter_cons_of_neg (by simpa using hb), ih]
    · rw [if_neg hb, List.filter_cons_of_pos (by simpa using hb),
        List.filter_cons_of_pos (by simpa using hb), ih]

/-- Taking a record out takes its share out of a sum. -/
theorem sum_removeKey (f : α → ℕ) (hl : (l.map key).Nodup) (ha : a ∈ l) :
    ((removeKey key (key a) l).map f).sum + f a = (l.map f).sum := by
  induction l with
  | nil => cases ha
  | cons b l ih =>
    rw [List.map_cons, List.nodup_cons] at hl
    rcases List.mem_cons.mp ha with rfl | ha
    · -- no other record is under the key
      have hsame : removeKey key (key a) l = l := by
        refine List.filter_eq_self.mpr fun c hc => ?_
        have hne : key c ≠ key a := fun h => hl.1 (h ▸ List.mem_map_of_mem hc)
        simpa using hne
      rw [removeKey, List.filter_cons_of_neg (by simp), ← removeKey, hsame, List.map_cons,
        List.sum_cons, add_comm]
    · have hne : key b ≠ key a := fun h => hl.1 (h ▸ List.mem_map_of_mem ha)
      rw [removeKey, List.filter_cons_of_pos (by simpa using hne), ← removeKey, List.map_cons,
        List.sum_cons, List.map_cons, List.sum_cons, add_assoc, ih hl.2 ha]

/-- Writing a record in place of another changes a sum by the difference of the two. -/
theorem sum_replaceKey (f : α → ℕ) (hl : (l.map key).Nodup) (ha : a ∈ l) (hkey : key a' = key a) :
    ((replaceKey key a' l).map f).sum + f a = (l.map f).sum + f a' := by
  induction l with
  | nil => cases ha
  | cons b l ih =>
    rw [List.map_cons, List.nodup_cons] at hl
    rcases List.mem_cons.mp ha with rfl | ha
    · have hsame : replaceKey key a' l = l := by
        refine (List.map_congr_left fun c hc => ?_).trans (List.map_id l)
        have hne : key c ≠ key a' := fun h => hl.1 (hkey ▸ h ▸ List.mem_map_of_mem hc)
        rw [if_neg hne, id]
      rw [replaceKey, List.map_cons, ← replaceKey, hsame, if_pos hkey.symm, List.map_cons,
        List.map_cons, List.sum_cons, List.sum_cons]
      omega
    · have hne : key b ≠ key a' := fun h => hl.1 (h.trans hkey ▸ List.mem_map_of_mem ha)
      have := ih hl.2 ha
      rw [replaceKey, List.map_cons, ← replaceKey, if_neg hne, List.map_cons, List.map_cons,
        List.sum_cons, List.sum_cons]
      omega

omit [DecidableEq K] in
/-- A number of records, as a sum over them. -/
theorem countP_eq_sum (p : α → Bool) (l : List α) :
    l.countP p = (l.map fun b => if p b then 1 else 0).sum := by
  induction l with
  | nil => rfl
  | cons b l ih => rw [List.countP_cons, List.map_cons, List.sum_cons, ih, add_comm]

/-- Taking a record out of a count. -/
theorem countP_removeKey (p : α → Bool) (hl : (l.map key).Nodup) (ha : a ∈ l) :
    (removeKey key (key a) l).countP p + (if p a then 1 else 0) = l.countP p := by
  rw [countP_eq_sum, countP_eq_sum]
  exact sum_removeKey (fun b => if p b then 1 else 0) hl ha

/-- Writing a record in place of another one changes a count by the two. -/
theorem countP_replaceKey (p : α → Bool) (hl : (l.map key).Nodup) (ha : a ∈ l)
    (hkey : key a' = key a) :
    (replaceKey key a' l).countP p + (if p a then 1 else 0) =
      l.countP p + if p a' then 1 else 0 := by
  rw [countP_eq_sum, countP_eq_sum]
  exact sum_replaceKey (fun b => if p b then 1 else 0) hl ha hkey

/-- All records but one. -/
theorem length_removeKey (hl : (l.map key).Nodup) (ha : a ∈ l) :
    (removeKey key (key a) l).length + 1 = l.length := by
  have hcount := countP_removeKey (fun _ => true) hl ha
  rwa [if_pos rfl, List.countP_true] at hcount

end Sunstrider.Lib
