import Mathlib.Data.List.Induction
import Sunstrider.Lib.Map
import Sunstrider.Lib.Run

/-!
# Loops over the groups of a list

A loop that keeps one value for each group of its elements: a group begins with a value of its own, each
element of the group changes it, and elements of a group whose value can change no more are passed over
(`groupValues`). Passing over is no more than a saving: where it is sound, each group ends with the fold
over its elements (`groupValues_spec`), and a bit that every element can only take away is left in a group
just if no element of the group takes it (`groupValues_bit`). So the loop is an or of ands, in which the
order of the elements does not matter.
-/

namespace Sunstrider.Lib

variable {F α κ β : Type} [DecidableEq κ]

/-- One round of such a loop. -/
def groupRound (key : α → κ) (init : β) (skip : β → Bool) (step : β → α → Except F β)
    (store : AList fun _ : κ => β) (a : α) : Except F (AList fun _ : κ => β) :=
  match store.lookup (key a) with
  | none => do
    let v ← step init a
    pure (store.insert (key a) v)
  | some v => do
    if skip v then pure store
    else
      let v ← step v a
      pure (store.insert (key a) v)

/-- The values of the groups, after the loop. -/
def groupValues (key : α → κ) (init : β) (skip : β → Bool) (step : β → α → Except F β) (l : List α) :
    Except F (AList fun _ : κ => β) :=
  l.foldlM (groupRound key init skip step) ∅

/-- What is in one of the values of a store. -/
theorem exists_mem_entries (store : AList fun _ : κ => β) (p : β → Prop) :
    (∃ e ∈ store.entries, p e.2) ↔ ∃ k v, store.lookup k = some v ∧ p v := by
  constructor
  · rintro ⟨e, he, hp⟩
    exact ⟨e.1, e.2, AList.mem_lookup_iff.mpr he, hp⟩
  · rintro ⟨k, v, hk, hp⟩
    exact ⟨⟨k, v⟩, AList.mem_lookup_iff.mp hk, hp⟩

variable {key : α → κ} {init : β} {skip : β → Bool} {step : β → α → Except F β} {l : List α}

/-! ## Loops that fault -/

/-- The first element of the list meets a group that is not there yet. -/
theorem groupValues_cons (a : α) : groupValues key init skip step (a :: l) =
    step init a >>= fun v => l.foldlM (groupRound key init skip step)
      ((∅ : AList fun _ : κ => β).insert (key a) v) := by
  rw [groupValues, List.foldlM_cons, groupRound, AList.lookup_empty]
  cases step init a <;> rfl

/-- The last element of the list meets what the others left. -/
theorem groupValues_concat (a : α) : groupValues key init skip step (l ++ [a]) =
    groupValues key init skip step l >>= fun store => groupRound key init skip step store a := by
  rw [groupValues, List.foldlM_append]
  refine bind_congr fun store => ?_
  rw [List.foldlM_cons]
  cases groupRound key init skip step store a <;> rfl

variable {a : α}

/-- A fault that the element does not end in. -/
theorem groupRound_avoids {bad : F} (h : ∀ v, Avoids bad (step v a) fun _ => True)
    (store : AList fun _ : κ => β) :
    Avoids bad (groupRound key init skip step store a) fun _ => True := by
  rw [groupRound]
  cases store.lookup (key a) with
  | none => exact (h init).bind fun v _ => trivial
  | some v =>
    show Avoids bad (if skip v then _ else _) _
    split
    · trivial
    · exact (h v).bind fun v _ => trivial

/-- What a value keeps through every element is kept by one of the groups. -/
theorem foldlM_groupRound_keeps {Q : β → Prop} (h : ∀ v a, Q v → Answers (step v a) Q)
    {store : AList fun _ : κ => β} (hstore : ∃ k v, store.lookup k = some v ∧ Q v) :
    Answers (l.foldlM (groupRound key init skip step) store)
      fun store => ∃ k v, store.lookup k = some v ∧ Q v := by
  refine Answers.foldlM l hstore fun store a _ hinv => ?_
  obtain ⟨k, v, hk, hv⟩ := hinv
  have hother (w : β) (hne : k ≠ key a) :
      ∃ k v, (store.insert (key a) w).lookup k = some v ∧ Q v :=
    ⟨k, v, by rw [AList.lookup_insert_ne hne, hk], hv⟩
  have hwrite (w : β) (hw : k = key a → Q w) :
      ∃ k v, (store.insert (key a) w).lookup k = some v ∧ Q v := by
    by_cases hka : k = key a
    · exact ⟨key a, w, AList.lookup_insert store, hw hka⟩
    · exact hother w hka
  rw [groupRound]
  cases hl : store.lookup (key a) with
  | none =>
    have hne : k ≠ key a := by
      rintro rfl
      rw [hk] at hl
      cases hl
    exact Answers.bind (fun _ _ => trivial : Answers _ fun _ => True) fun w _ => .ok (hother w hne)
  | some u =>
    show Answers (if skip u then _ else _) _
    split
    · exact .ok ⟨k, v, hk, hv⟩
    · have hstep : Answers (step u a) fun w => k = key a → Q w := by
        intro w hw hka
        subst hka
        rw [hk] at hl
        cases hl
        exact h v a hv w hw
      exact hstep.bind fun w hw => .ok (hwrite w hw)

/-! ## Loops that do not -/

/-- The elements of a group. -/
def members (key : α → κ) (l : List α) (k : κ) : List α := l.filter fun a => key a = k

theorem members_concat (a : α) (k : κ) :
    members key (l ++ [a]) k = members key l k ++ if key a = k then [a] else [] := by
  by_cases h : key a = k <;> simp [members, h]

/-- The value of a group, where it has elements. -/
def groupValue (key : α → κ) (init : β) (op : β → α → β) (l : List α) (k : κ) : Option β :=
  if members key l k = [] then none else some ((members key l k).foldl op init)

variable {op : β → α → β}

variable {k : κ}

theorem groupValue_concat_of_ne (h : key a ≠ k) :
    groupValue key init op (l ++ [a]) k = groupValue key init op l k := by
  simp only [groupValue, members_concat, if_neg h, List.append_nil]

/-- What the elements of a group keep holds of its value. -/
theorem groupValue_keeps {Q : β → Prop} (hinit : Q init) (hop : ∀ v, ∀ a ∈ l, Q v → Q (op v a))
    {v : β} (h : groupValue key init op l k = some v) : Q v := by
  rw [groupValue] at h
  split at h
  · cases h
  · cases h
    exact List.foldlRecOn (members key l k) op hinit fun v hv a ha =>
      hop v a (List.mem_of_mem_filter ha) hv

/-- The value that an element meets: that of its group, from the elements in front of it. -/
def valueAt (key : α → κ) (init : β) (op : β → α → β) (l₁ : List α) (a : α) : β :=
  (members key l₁ (key a)).foldl op init

theorem groupValue_eq_none (h : groupValue key init op l (key a) = none) :
    valueAt key init op l a = init := by
  rw [groupValue] at h
  split at h
  next hnil => rw [valueAt, hnil, List.foldl_nil]
  · cases h

theorem groupValue_eq_some {v : β} (h : groupValue key init op l (key a) = some v) :
    valueAt key init op l a = v := by
  rw [groupValue] at h
  split at h
  · cases h
  · exact Option.some.inj h

theorem groupValue_concat_self (a : α) :
    groupValue key init op (l ++ [a]) (key a) = some (op (valueAt key init op l a) a) := by
  simp [groupValue, valueAt, members_concat]

/-- One round, on a store with the values of the elements in front. -/
theorem groupRound_eq {store : AList fun _ : κ => β} (hinit : skip init = false)
    (hstore : ∀ k, store.lookup k = groupValue key init op l k) :
    groupRound key init skip step store a =
      if skip (valueAt key init op l a) then .ok store
      else step (valueAt key init op l a) a >>= fun v => .ok (store.insert (key a) v) := by
  rw [groupRound, hstore]
  cases hl : groupValue key init op l (key a) with
  | none =>
    rw [groupValue_eq_none hl, hinit]
    rfl
  | some v =>
    rw [groupValue_eq_some hl]
    rfl

/-- **Each group ends with the fold over its elements**, where an element that is passed over would
have changed nothing. -/
theorem groupValues_values (op : β → α → β) (hinit : skip init = false)
    (hstep : ∀ v, ∀ a ∈ l, ∀ w, step v a = .ok w → w = op v a)
    (hskip : ∀ v, ∀ a ∈ l, skip v = true → op v a = v) :
    Answers (groupValues key init skip step l)
      fun store => ∀ k, store.lookup k = groupValue key init op l k := by
  induction l using List.reverseRecOn with
  | nil => exact .ok fun k => rfl
  | append_singleton l a ih =>
    have hmem : ∀ b ∈ l, b ∈ l ++ [a] := fun b hb => List.mem_append_left _ hb
    have ha : a ∈ l ++ [a] := List.mem_append_right _ List.mem_cons_self
    rw [groupValues_concat]
    refine (ih (fun v b hb => hstep v b (hmem b hb)) fun v b hb => hskip v b (hmem b hb)).bind
      fun store hstore => ?_
    rw [groupRound_eq hinit hstore]
    by_cases hv : skip (valueAt key init op l a) = true
    · rw [if_pos hv]
      refine .ok fun k => ?_
      by_cases hk : k = key a
      · subst hk
        rw [groupValue_concat_self, hskip _ a ha hv, hstore]
        cases hl : groupValue key init op l (key a) with
        | none =>
          rw [groupValue_eq_none hl, hinit] at hv
          cases hv
        | some v => rw [groupValue_eq_some hl]
      · rw [hstore, groupValue_concat_of_ne (Ne.symm hk)]
    · rw [if_neg hv]
      intro store' h k
      obtain ⟨w, hw, hok⟩ := bind_eq_ok.mp h
      cases hok
      rw [lookup_insert_ite]
      by_cases hk : k = key a
      · rw [if_pos hk, hk, groupValue_concat_self, hstep _ a ha w hw]
      · rw [if_neg hk, hstore, groupValue_concat_of_ne (Ne.symm hk)]

theorem forall_split_concat {Q : List α → α → Prop} (l : List α) (a : α) :
    (∀ l₁ b l₂, l ++ [a] = l₁ ++ b :: l₂ → Q l₁ b) ↔
      (∀ l₁ b l₂, l = l₁ ++ b :: l₂ → Q l₁ b) ∧ Q l a := by
  refine ⟨fun h => ⟨fun l₁ b l₂ hl => h l₁ b (l₂ ++ [a]) (by simp [hl]), h l a [] rfl⟩, ?_⟩
  rintro ⟨h, ha⟩ l₁ b l₂ hl
  obtain rfl | ⟨l₃, c, rfl⟩ := List.eq_nil_or_concat' l₂
  · obtain ⟨rfl, hb⟩ := List.append_inj' hl rfl
    cases hb
    exact ha
  · rw [← List.cons_append, ← List.append_assoc] at hl
    exact h l₁ b l₃ (List.append_inj' hl rfl).1

/-- **The loop ends without a fault** just if no element that it comes to faults: it comes to an
element, unless the value of its group can change no more. -/
theorem groupValues_ok_iff (op : β → α → β) (hinit : skip init = false)
    (hstep : ∀ v, ∀ a ∈ l, ∀ w, step v a = .ok w → w = op v a)
    (hskip : ∀ v, ∀ a ∈ l, skip v = true → op v a = v) :
    (∃ store, groupValues key init skip step l = .ok store) ↔
      ∀ l₁ a l₂, l = l₁ ++ a :: l₂ → skip (valueAt key init op l₁ a) = false →
        ∃ w, step (valueAt key init op l₁ a) a = .ok w := by
  induction l using List.reverseRecOn with
  | nil => exact ⟨fun _ l₁ a l₂ h => by simp at h, fun _ => ⟨∅, rfl⟩⟩
  | append_singleton l a ih =>
    have hmem : ∀ b ∈ l, b ∈ l ++ [a] := fun b hb => List.mem_append_left _ hb
    have hstep' : ∀ v, ∀ b ∈ l, ∀ w, step v b = .ok w → w = op v b := fun v b hb => hstep v b (hmem b hb)
    have hskip' : ∀ v, ∀ b ∈ l, skip v = true → op v b = v := fun v b hb => hskip v b (hmem b hb)
    have hround {store : AList fun _ : κ => β} (hl : groupValues key init skip step l = .ok store) :
        (∃ store', groupValues key init skip step (l ++ [a]) = .ok store') ↔
          (skip (valueAt key init op l a) = false → ∃ w, step (valueAt key init op l a) a = .ok w) := by
      have hlast : groupValues key init skip step (l ++ [a]) =
          groupRound key init skip step store a := by
        rw [groupValues_concat, hl]
        rfl
      rw [hlast, groupRound_eq hinit (groupValues_values op hinit hstep' hskip' store hl)]
      cases skip (valueAt key init op l a) with
      | true => exact ⟨fun _ h => (nomatch h), fun _ => ⟨store, rfl⟩⟩
      | false =>
        rw [if_neg Bool.false_ne_true]
        constructor
        · rintro ⟨store', h⟩ -
          obtain ⟨w, hw, -⟩ := bind_eq_ok.mp h
          exact ⟨w, hw⟩
        · intro h
          obtain ⟨w, hw⟩ := h rfl
          exact ⟨_, by rw [hw]; rfl⟩
    rw [forall_split_concat, ← ih hstep' hskip']
    constructor
    · rintro ⟨store', h⟩
      have hconcat := h
      rw [groupValues_concat] at hconcat
      obtain ⟨store, hl, -⟩ := bind_eq_ok.mp hconcat
      exact ⟨⟨store, hl⟩, (hround hl).mp ⟨store', h⟩⟩
    · rintro ⟨⟨store, hl⟩, ha⟩
      exact (hround hl).mpr ha

/-- A loop none of whose elements faults. -/
theorem groupValues_spec (op : β → α → β) (hinit : skip init = false)
    (hstep : ∀ v, ∀ a ∈ l, step v a = .ok (op v a))
    (hskip : ∀ v, ∀ a ∈ l, skip v = true → op v a = v) :
    Yields (groupValues key init skip step l)
      fun store => ∀ k, store.lookup k = groupValue key init op l k := by
  have hop : ∀ v, ∀ a ∈ l, ∀ w, step v a = .ok w → w = op v a := fun v a ha w hw =>
    Except.ok.inj (hw.symm.trans (hstep v a ha))
  have hends : ∃ store, groupValues key init skip step l = .ok store :=
    (groupValues_ok_iff op hinit hop hskip).mpr fun l₁ a l₂ hl _ =>
      ⟨_, hstep _ a (hl ▸ List.mem_append_right _ List.mem_cons_self)⟩
  obtain ⟨store, hstore⟩ := hends
  exact ⟨store, hstore, groupValues_values op hinit hop hskip store hstore⟩

/-- A bit that the elements can only take away. -/
theorem bit_foldl {bit : β → Bool} {keepsBit : α → Bool} {l : List α}
    (hop : ∀ v, ∀ a ∈ l, bit (op v a) = (bit v && keepsBit a)) :
    bit (l.foldl op init) = true ↔ bit init = true ∧ ∀ a ∈ l, keepsBit a = true := by
  induction l generalizing init with
  | nil => simp
  | cons a l ih =>
    rw [List.foldl_cons, ih fun v b hb => hop v b (List.mem_cons_of_mem a hb),
      hop init a List.mem_cons_self, Bool.and_eq_true, List.forall_mem_cons, and_assoc]

theorem mem_members {b : α} : b ∈ members key l k ↔ b ∈ l ∧ key b = k := by
  rw [members, List.mem_filter, decide_eq_true_iff]

/-- An element meets the bit, if no element in front of it in its group takes it. -/
theorem bit_valueAt (bit : β → Bool) (keepsBit : α → Bool) (a : α)
    (hop : ∀ v, ∀ b ∈ l, bit (op v b) = (bit v && keepsBit b)) :
    bit (valueAt key init op l a) = true ↔
      bit init = true ∧ ∀ b ∈ l, key b = key a → keepsBit b = true := by
  rw [valueAt, bit_foldl fun v b hb => hop v b (mem_members.mp hb).1]
  simp only [mem_members, and_imp]

/-- **An or of ands.** Some group keeps the bit just if there is an element in whose group every element
keeps it. -/
theorem exists_groupValue_bit (bit : β → Bool) (keepsBit : α → Bool)
    (hop : ∀ v, ∀ a ∈ l, bit (op v a) = (bit v && keepsBit a)) :
    (∃ k v, groupValue key init op l k = some v ∧ bit v = true) ↔
      bit init = true ∧ ∃ a ∈ l, ∀ b ∈ l, key b = key a → keepsBit b = true := by
  constructor
  · rintro ⟨k, v, hv, hbit⟩
    have hv' := hv
    rw [groupValue] at hv'
    split at hv'
    · cases hv'
    next hne =>
      obtain ⟨a, ha⟩ := List.exists_mem_of_ne_nil _ hne
      obtain ⟨hal, rfl⟩ := mem_members.mp ha
      rw [← groupValue_eq_some hv, bit_valueAt bit keepsBit a hop] at hbit
      exact ⟨hbit.1, a, hal, hbit.2⟩
  · rintro ⟨hinit, a, ha, hall⟩
    have hne : members key l (key a) ≠ [] := List.ne_nil_of_mem (mem_members.mpr ⟨ha, rfl⟩)
    exact ⟨key a, _, if_neg hne, (bit_valueAt bit keepsBit a hop).mpr ⟨hinit, hall⟩⟩

end Sunstrider.Lib
