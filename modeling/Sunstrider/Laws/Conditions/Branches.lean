import Mathlib.Tactic.IntervalCases
import Sunstrider.Laws.Conditions.Prefilter

/-!
# Branches of condition lists

A list is an or of ands, and a reference stands for another one. So a list has branches: the conditions
of one of its groups, with those of a branch of its template for each reference (`Branch`). Where the
references come to an end, a list is true just if all conditions of some branch are met (`exists_value`),
and its mask has the types of object that are in the masks of all conditions of some branch
(`isMask_of_ok`).

The computation of the mask passes over the rest of a group whose elements have no type in common, and
what it does not come to (`Reaches`) trips no assertion and filters nothing. So a list is filtered soundly
just if two things hold (`prefilters_iff`): what the computation comes to has a mask, and where a
condition that it comes to is not of a filterable kind, no searched object meets a branch with that
condition, but those of a type that some branch has. Without such conditions the second is nothing.

Whether an object meets all of a branch is a question to `Meets` that the kinds of its conditions do not
answer: a faulty condition does no harm beside others that leave its group no more objects than its mask.
That the references lead to templates and in no circle is assumed of the list, not of the table; without
it there is no mask and no value to compare.
-/

namespace Sunstrider.Conditions

open Sunstrider.Lib

variable {g : GameData} {rows : List ConditionRow} {m : ConditionMgr}
  {refs : ConditionReferenceContainer} {world : World} {sourceInfo : ConditionSourceInfo}
  {c : Condition} {l : ConditionContainer} {p : Condition → Prop}

/-! ## Branches -/

section Branches

variable (refs : ConditionReferenceContainer)

mutual

/-- The conditions of a branch of a list: those of the parts of all elements of one group. -/
inductive Branch : ConditionContainer → Set Condition → Prop
  | group {l : ConditionContainer} {c : Condition} (hc : c ∈ l) (part : Condition → Set Condition)
      (h : ∀ c' ∈ l, c'.elseGroup = c.elseGroup → Part c' (part c')) :
      Branch l {d | ∃ c' ∈ l, c'.elseGroup = c.elseGroup ∧ d ∈ part c'}

/-- The part of an element in a branch: the condition itself, or a branch of the template that it refers
to. -/
inductive Part : Condition → Set Condition → Prop
  | own {c : Condition} (href : c.referenceId = 0) : Part c {c}
  | template {c : Condition} {l : ConditionContainer} {s : Set Condition} (href : c.referenceId ≠ 0)
      (hl : refs.lookup c.referenceId = some l) (h : Branch l s) : Part c s

end

/-- All conditions of some branch of the list are such. -/
def SomeBranch (p : Condition → Prop) (l : ConditionContainer) : Prop :=
  ∃ s, Branch refs l s ∧ ∀ c ∈ s, p c

/-- All conditions of some part of the element are such. -/
def SomePart (p : Condition → Prop) (c : Condition) : Prop :=
  ∃ s, Part refs c s ∧ ∀ d ∈ s, p d

end Branches

/-- **An or of ands.** -/
theorem someBranch_iff : SomeBranch refs p l ↔
    ∃ c ∈ l, ∀ c' ∈ l, c'.elseGroup = c.elseGroup → SomePart refs p c' := by
  constructor
  · rintro ⟨_, ⟨hc, part, hpart⟩, hall⟩
    exact ⟨_, hc, fun c' hc' hgroup =>
      ⟨part c', hpart c' hc' hgroup, fun d hd => hall d ⟨c', hc', hgroup, hd⟩⟩⟩
  · rintro ⟨c, hc, h⟩
    choose! part hpart using h
    refine ⟨_, .group hc part fun c' hc' hgroup => (hpart c' hc' hgroup).1, ?_⟩
    rintro d ⟨c', hc', hgroup, hd⟩
    exact (hpart c' hc' hgroup).2 d hd

theorem somePart_of_plain (href : c.referenceId = 0) : SomePart refs p c ↔ p c := by
  constructor
  · rintro ⟨_, ⟨-⟩ | ⟨hne⟩, hall⟩
    · exact hall c rfl
    · exact absurd href hne
  · intro hc
    refine ⟨{c}, .own href, ?_⟩
    rintro d rfl
    exact hc

theorem somePart_of_reference (href : c.referenceId ≠ 0) (hl : refs.lookup c.referenceId = some l) :
    SomePart refs p c ↔ SomeBranch refs p l := by
  constructor
  · rintro ⟨s, ⟨heq⟩ | ⟨-, hl', hs⟩, hall⟩
    · exact absurd heq href
    · rw [hl] at hl'
      cases hl'
      exact ⟨s, hs, hall⟩
  · rintro ⟨s, hs, hall⟩
    exact ⟨s, .template href hl hs, hall⟩

/-! ## References that come to an end -/

/-- The references of the list lead to templates, and so do those of the templates, until there are
none. -/
inductive Resolves (refs : ConditionReferenceContainer) : ConditionContainer → Prop
  | intro {l : ConditionContainer}
      (found : ∀ c ∈ l, c.referenceId ≠ 0 → ∃ l', refs.lookup c.referenceId = some l')
      (ends : ∀ c ∈ l, c.referenceId ≠ 0 → ∀ l', refs.lookup c.referenceId = some l' →
        Resolves refs l') : Resolves refs l

/-- All lists do, where the references of all lists lead to templates and in no circle. -/
theorem resolves_of_acyclic (hfound : m.ReferencesFound)
    (hacyclic : Acyclic (Refers m.conditionReferenceStore)) (hl : m.Stored l) :
    Resolves m.conditionReferenceStore l := by
  obtain ⟨-, h⟩ := exists_fuel (P := fun _ l => Resolves m.conditionReferenceStore l) m.Stored hfound
    (fun id _ hl => .inl ⟨id, hl⟩) hacyclic (fun _ l hl h => .intro (hfound l hl) h) hl
  exact h

/-- One fuel for all elements of a list. -/
theorem exists_fuel_forall {P : ℕ → Condition → Prop} (h : ∀ c ∈ l, ∃ n, ∀ fuel ≥ n, P fuel c) :
    ∃ n, ∀ fuel ≥ n, ∀ c ∈ l, P fuel c := by
  choose! n hn using h
  refine ⟨l.toFinset.sup n, fun fuel hfuel c hc => hn c hc fuel ?_⟩
  exact (Finset.le_sup (f := n) (List.mem_toFinset.mpr hc)).trans hfuel

theorem ConditionMgr.AllStored.isLoaded (hm : m.AllStored (Condition.Accepted g)) (hl : m.Stored l) :
    ∀ c ∈ l, c.isLoaded = true := fun c hc => ((hm l hl).2 c hc).isLoaded

/-- **The value of a list**: it is true just if all conditions of some branch are met. -/
theorem exists_value (hm : m.AllStored (Condition.Accepted g)) (hl : m.Stored l)
    (hrefs : Resolves m.conditionReferenceStore l) (world : World) (sourceInfo : ConditionSourceInfo) :
    ∃ b, Comes m.conditionReferenceStore world sourceInfo l b ∧
      (b = true ↔ SomeBranch m.conditionReferenceStore
        (fun c => c.meets world sourceInfo = .ok true) l) := by
  induction hrefs with
  | @intro l found ends ih =>
  have hone : ∀ c ∈ l, ∃ b, (∃ n, ∀ fuel ≥ n, answerOf m.conditionReferenceStore world sourceInfo
        (isObjectMeetToConditionList m.conditionReferenceStore world sourceInfo fuel) c =
          .ok ⟨b, false⟩) ∧
      (b = true ↔ SomePart m.conditionReferenceStore
        (fun c => c.meets world sourceInfo = .ok true) c) := by
    intro c hc
    obtain href | ⟨href, hvalid⟩ := (hm l hl).2 c hc
    · obtain ⟨l', hl'⟩ := found c hc href
      obtain ⟨b, ⟨n, hn⟩, hb⟩ := ih c hc href l' hl' (.inl ⟨_, hl'⟩)
      refine ⟨b, ⟨n, fun fuel hfuel => ?_⟩, hb.trans (somePart_of_reference href hl').symm⟩
      rw [answerOf, if_pos href, hl']
      exact hn fuel hfuel
    · obtain ⟨b, hb, -⟩ : Yields (c.meets world sourceInfo) fun _ => True := meets_of_valid hvalid
      refine ⟨b, ⟨0, fun fuel _ => ?_⟩, ?_⟩
      · rw [answerOf, if_neg (not_not.mpr href), hb]
        rfl
      · rw [somePart_of_plain href, hb, Except.ok.injEq]
  choose! value hvalue hmet using hone
  obtain ⟨n, hn⟩ := exists_fuel_forall hvalue
  refine ⟨decide (∃ c ∈ l, ∀ c' ∈ l, c'.elseGroup = c.elseGroup → value c' = true),
    ⟨n + 1, fun fuel hfuel => ?_⟩, ?_⟩
  · obtain ⟨fuel, rfl⟩ : ∃ k, fuel = k + 1 := ⟨fuel - 1, by omega⟩
    exact isObjectMeetToConditionList_eq (hm.isLoaded hl) (hn fuel (by omega))
  · rw [decide_eq_true_iff, someBranch_iff]
    refine exists_congr fun c => and_congr_right fun _ => ?_
    exact forall_congr' fun c' => forall_congr' fun hc' => imp_congr_right fun _ => hmet c' hc'

/-! ## The mask of a list -/

theorem getLsbD_foldl_or {T : Type} (f : T → BitVec 32) (l : List T) (mask : BitVec 32) (i : ℕ) :
    (l.foldl (fun mask t => mask ||| f t) mask).getLsbD i = true ↔
      mask.getLsbD i = true ∨ ∃ t ∈ l, (f t).getLsbD i = true := by
  induction l generalizing mask with
  | nil => simp
  | cons t l ih => simp [ih, or_assoc]

/-- The mask of the condition has the type of object. -/
def Condition.HasType (type : ℕ) (c : Condition) : Prop :=
  ∃ mask, c.getSearcherTypeMaskForCondition = .ok mask ∧ mask.getLsbD type = true

theorem getLsbD_all (i : ℕ) : gridMapTypeMaskAll.getLsbD i = true ↔ i < 5 := by
  by_cases hi : i < 5
  · rw [iff_true_right hi]
    interval_cases i <;> rfl
  · rw [iff_false_right hi, Bool.not_eq_true]
    exact Nat.testBit_lt_two_pow ((by decide : 0x1F < 2 ^ 5).trans_le
      (Nat.pow_le_pow_right (by decide) (not_lt.mp hi)))

variable {mask : BitVec 32}

theorem mask_and_all (h : c.getSearcherTypeMaskForCondition = .ok mask) :
    mask &&& gridMapTypeMaskAll = mask := by
  rw [Condition.getSearcherTypeMaskForCondition] at h
  split at h
  · cases h
    rfl
  · cases htype : c.conditionType <;> simp only [htype] at h
    case objectEntryGuid => split_ifs at h <;> cases h <;> rfl
    case typeMask =>
      cases h
      split_ifs <;> rfl
    all_goals
      cases h
      try rfl

theorem Condition.HasType.lt {type : ℕ} (h : c.HasType type) : type < 5 := by
  obtain ⟨mask, hmask, hbit⟩ := h
  rw [← mask_and_all hmask, BitVec.getLsbD_and, Bool.and_eq_true, getLsbD_all] at hbit
  exact hbit.2

theorem exists_bits (P : ℕ → Prop) : ∃ v : BitVec 32, ∀ i, v.getLsbD i = true ↔ i < 5 ∧ P i := by
  classical
  refine ⟨(BitVec.ofBoolListLE ((List.range 5).map fun i => decide (P i))).setWidth 32, fun i => ?_⟩
  rw [BitVec.getLsbD_setWidth, BitVec.getLsbD_ofBoolListLE]
  by_cases hi : i < 5
  · interval_cases i <;> simp [List.range, List.range.loop]
  · simp [hi]

theorem ne_zero_iff_exists_bit (v : BitVec 32) : v ≠ 0 ↔ ∃ i, v.getLsbD i = true := by
  constructor
  · intro hne
    by_contra! h
    exact hne (BitVec.eq_of_getLsbD_eq fun i _ => by simpa using h i)
  · rintro ⟨i, hi⟩ rfl
    simp at hi

variable {fuel : ℕ}

/-- **One list**, where the masks of its elements are known as far as they are computed: which types its
mask has, and when it is computed at all. -/
theorem getSearcherTypeMaskForConditionList_spec {maskFor : Condition → BitVec 32}
    (hloaded : ∀ c ∈ l, c.isLoaded = true) (hne : l ≠ []) (hmask : ∀ c ∈ l, ∀ mask,
      maskOf refs (getSearcherTypeMaskForConditionList refs fuel) c = .ok mask → mask = maskFor c) :
    (Answers (getSearcherTypeMaskForConditionList refs (fuel + 1) l) fun mask => ∀ i,
      mask.getLsbD i = true ↔ i < 5 ∧ ∃ c ∈ l, ∀ c' ∈ l, c'.elseGroup = c.elseGroup →
        (maskFor c').getLsbD i = true) ∧
    ((∃ mask, getSearcherTypeMaskForConditionList refs (fuel + 1) l = .ok mask) ↔
      ∀ l₁ c l₂, l = l₁ ++ c :: l₂ →
        (∃ i < 5, ∀ c' ∈ l₁, c'.elseGroup = c.elseGroup → (maskFor c').getLsbD i = true) →
        ∃ mask, maskOf refs (getSearcherTypeMaskForConditionList refs fuel) c = .ok mask) := by
  let step (v : BitVec 32) (c : Condition) : Except Fault (BitVec 32) := do
    let mask ← maskOf refs (getSearcherTypeMaskForConditionList refs fuel) c
    .ok (v &&& mask)
  let op (v : BitVec 32) (c : Condition) : BitVec 32 := v &&& maskFor c
  let values := groupValues Condition.elseGroup gridMapTypeMaskAll (fun v => v = 0) step l
  have hlist : getSearcherTypeMaskForConditionList refs (fuel + 1) l =
      values >>= fun store => .ok (store.entries.foldl (fun mask e => mask ||| e.2) 0) := by
    rw [getSearcherTypeMaskForConditionList, if_neg hne]
    show l.foldlM _ ∅ >>= _ = _
    rw [foldlM_congr (fun store c hc => if_pos (hloaded c hc)) ∅]
    rfl
  have hstep : ∀ v, ∀ c ∈ l, ∀ w, step v c = .ok w → w = op v c := by
    intro v c hc w hw
    obtain ⟨mask, hok, hw⟩ := bind_eq_ok.mp hw
    cases hw
    rw [hmask c hc mask hok]
  have hskip : ∀ v, ∀ c ∈ l, decide (v = 0) = true → op v c = v := by
    intro v c _ hv
    rw [of_decide_eq_true hv]
    exact BitVec.zero_and
  have hbit (i : ℕ) (l' : ConditionContainer) : ∀ v, ∀ c ∈ l',
      (op v c).getLsbD i = (v.getLsbD i && (maskFor c).getLsbD i) := fun v c _ => BitVec.getLsbD_and
  rw [hlist]
  constructor
  · refine (groupValues_values op rfl hstep hskip).bind fun store hlookup => .ok fun i => ?_
    rw [getLsbD_foldl_or, exists_mem_entries store fun v => v.getLsbD i = true]
    simp only [hlookup]
    rw [exists_groupValue_bit (fun v : BitVec 32 => v.getLsbD i) _ (hbit i l), getLsbD_all]
    simp
  · have hends : (∃ mask, (values >>= fun store =>
        .ok (store.entries.foldl (fun mask e => mask ||| e.2) 0) : Except Fault (BitVec 32)) = .ok mask) ↔
        ∃ store, values = .ok store := by
      constructor
      · rintro ⟨mask, h⟩
        obtain ⟨store, hstore, -⟩ := bind_eq_ok.mp h
        exact ⟨store, hstore⟩
      · rintro ⟨store, hstore⟩
        exact ⟨_, by rw [hstore]; rfl⟩
    rw [hends, groupValues_ok_iff op rfl hstep hskip]
    refine forall_congr' fun l₁ => forall_congr' fun c => forall_congr' fun l₂ =>
      imp_congr_right fun _ => ?_
    rw [decide_eq_false_iff_not, ← ne_eq, ne_zero_iff_exists_bit]
    simp only [bit_valueAt (fun v : BitVec 32 => v.getLsbD _) _ c (hbit _ l₁), getLsbD_all]
    refine imp_congr_right fun _ => ?_
    constructor
    · rintro ⟨w, hw⟩
      obtain ⟨mask, hok, -⟩ := bind_eq_ok.mp hw
      exact ⟨mask, hok⟩
    · rintro ⟨mask, hok⟩
      exact ⟨_, by simp only [step, hok]; rfl⟩

/-- The mask has just the types that are in the masks of all conditions of some branch. -/
def IsMask (refs : ConditionReferenceContainer) (l : ConditionContainer) (mask : BitVec 32) : Prop :=
  ∀ i, mask.getLsbD i = true ↔ i < 5 ∧ SomeBranch refs (Condition.HasType i) l

theorem IsMask.unique {mask' : BitVec 32} (h : IsMask refs l mask) (h' : IsMask refs l mask') :
    mask = mask' :=
  BitVec.eq_of_getLsbD_eq fun i _ => Bool.eq_iff_iff.mpr ((h i).trans (h' i).symm)

/-- The types of an element, where its mask is computed. -/
theorem maskOf_bits (h : ∀ l, refs.lookup c.referenceId = some l →
      Answers (getSearcherTypeMaskForConditionList refs fuel l) (IsMask refs l)) :
    Answers (maskOf refs (getSearcherTypeMaskForConditionList refs fuel) c) fun mask =>
      ∀ i, mask.getLsbD i = true ↔ i < 5 ∧ SomePart refs (Condition.HasType i) c := by
  rw [maskOf]
  split
  next href =>
    cases hl : refs.lookup c.referenceId with
    | none => exact .error
    | some l =>
      intro mask hmask i
      rw [somePart_of_reference href hl]
      exact h l hl mask hmask i
  next href =>
    intro mask hmask i
    rw [somePart_of_plain (not_not.mp href)]
    constructor
    · exact fun hbit => ⟨Condition.HasType.lt ⟨mask, hmask, hbit⟩, mask, hmask, hbit⟩
    · rintro ⟨-, mask', hmask', hbit⟩
      rw [hmask] at hmask'
      cases hmask'
      exact hbit

theorem exists_maskFor (h : ∀ id l, refs.lookup id = some l →
      Answers (getSearcherTypeMaskForConditionList refs fuel l) (IsMask refs l)) :
    ∃ maskFor : Condition → BitVec 32,
      (∀ c i, (maskFor c).getLsbD i = true ↔ i < 5 ∧ SomePart refs (Condition.HasType i) c) ∧
      ∀ c mask, maskOf refs (getSearcherTypeMaskForConditionList refs fuel) c = .ok mask →
        mask = maskFor c := by
  choose maskFor hmaskFor using fun c => exists_bits fun i => SomePart refs (Condition.HasType i) c
  refine ⟨maskFor, hmaskFor, fun c mask hmask => BitVec.eq_of_getLsbD_eq fun i _ => ?_⟩
  rw [Bool.eq_iff_iff, maskOf_bits (h c.referenceId) mask hmask i, hmaskFor]

/-- **The types of a list**, where its mask is computed: those in the masks of all conditions of some
branch. -/
theorem isMask_of_ok (hm : m.AllStored (Condition.Accepted g)) (fuel : ℕ) : ∀ {l}, m.Stored l →
    Answers (getSearcherTypeMaskForConditionList m.conditionReferenceStore fuel l)
      (IsMask m.conditionReferenceStore l) := by
  induction fuel with
  | zero => exact fun _ => .error
  | succ fuel ih =>
    intro l hl mask hmask i
    obtain ⟨maskFor, hbits, hmaskFor⟩ := exists_maskFor fun id l hl => ih (.inl ⟨id, hl⟩)
    rw [(getSearcherTypeMaskForConditionList_spec (hm.isLoaded hl) (hm l hl).1
      fun c _ => hmaskFor c).1 mask hmask i, someBranch_iff]
    refine and_congr_right fun hi => ?_
    simp [hbits, hi]

/-! ## What the computation of the mask comes to -/

section Reaches

variable (refs : ConditionReferenceContainer)

/-- The elements of a group have a type in common. -/
def Open (l : ConditionContainer) (group : ℕ) : Prop :=
  ∃ i < 5, ∀ c ∈ l, c.elseGroup = group → SomePart refs (Condition.HasType i) c

/-- The computation of the mask of the list comes to the condition: in the list, if the elements in front
of it in its group have a type in common, or in a template that it comes to. -/
inductive Reaches : ConditionContainer → Condition → Prop
  | own {l l₁ l₂ : ConditionContainer} {c : Condition} (hl : l = l₁ ++ c :: l₂)
      (hopen : Open refs l₁ c.elseGroup) (href : c.referenceId = 0) : Reaches l c
  | template {l l₁ l₂ l' : ConditionContainer} {c d : Condition} (hl : l = l₁ ++ c :: l₂)
      (hopen : Open refs l₁ c.elseGroup) (href : c.referenceId ≠ 0)
      (hl' : refs.lookup c.referenceId = some l') (h : Reaches l' d) : Reaches l d

end Reaches

/-- One step of the computation. -/
theorem mask_ok_iff (hm : m.AllStored (Condition.Accepted g)) (hl : m.Stored l) (fuel : ℕ) :
    (∃ mask, getSearcherTypeMaskForConditionList m.conditionReferenceStore (fuel + 1) l = .ok mask) ↔
      ∀ l₁ c l₂, l = l₁ ++ c :: l₂ → Open m.conditionReferenceStore l₁ c.elseGroup →
        ∃ mask, maskOf m.conditionReferenceStore
          (getSearcherTypeMaskForConditionList m.conditionReferenceStore fuel) c = .ok mask := by
  obtain ⟨maskFor, hbits, hmaskFor⟩ := exists_maskFor fun id l hl => isMask_of_ok hm fuel (.inl ⟨id, hl⟩)
  rw [(getSearcherTypeMaskForConditionList_spec (hm.isLoaded hl) (hm l hl).1 fun c _ => hmaskFor c).2]
  refine forall_congr' fun l₁ => forall_congr' fun c => forall_congr' fun l₂ =>
    imp_congr_right fun _ => ?_
  refine imp_congr_left (exists_congr fun i => and_congr_right fun hi => ?_)
  simp [hbits, hi]

/-- Where the mask is computed, each condition that the computation comes to has a mask. -/
theorem Reaches.exists_mask (hm : m.AllStored (Condition.Accepted g)) (hl : m.Stored l)
    (h : Reaches m.conditionReferenceStore l c)
    (hmask : getSearcherTypeMaskForConditionList m.conditionReferenceStore fuel l = .ok mask) :
    ∃ mask, c.getSearcherTypeMaskForCondition = .ok mask := by
  induction h generalizing fuel mask with
  | own hsplit hopen href =>
    cases fuel with
    | zero => cases hmask
    | succ fuel =>
      have hone := (mask_ok_iff hm hl fuel).mp ⟨mask, hmask⟩ _ _ _ hsplit hopen
      rwa [maskOf, if_neg (not_not.mpr href)] at hone
  | template hsplit hopen href hl' _ ih =>
    cases fuel with
    | zero => cases hmask
    | succ fuel =>
      obtain ⟨mask', hone⟩ := (mask_ok_iff hm hl fuel).mp ⟨mask, hmask⟩ _ _ _ hsplit hopen
      rw [maskOf, if_pos href, hl'] at hone
      exact ih (.inl ⟨_, hl'⟩) hone

/-- **The mask of a list is computed** where each condition that the computation comes to has one. -/
theorem exists_mask_of_reaches (hm : m.AllStored (Condition.Accepted g)) (hl : m.Stored l)
    (hrefs : Resolves m.conditionReferenceStore l)
    (h : ∀ c, Reaches m.conditionReferenceStore l c →
      ∃ mask, c.getSearcherTypeMaskForCondition = .ok mask) :
    ∃ n, ∀ fuel ≥ n, ∃ mask,
      getSearcherTypeMaskForConditionList m.conditionReferenceStore fuel l = .ok mask := by
  induction hrefs with
  | @intro l found ends ih =>
  have hone : ∀ c ∈ l, ∃ n, ∀ fuel ≥ n, (∃ l₁ l₂, l = l₁ ++ c :: l₂ ∧
      Open m.conditionReferenceStore l₁ c.elseGroup) → ∃ mask, maskOf m.conditionReferenceStore
        (getSearcherTypeMaskForConditionList m.conditionReferenceStore fuel) c = .ok mask := by
    intro c hc
    by_cases hreached : ∃ l₁ l₂, l = l₁ ++ c :: l₂ ∧ Open m.conditionReferenceStore l₁ c.elseGroup
    · obtain ⟨l₁, l₂, hsplit, hopen⟩ := hreached
      simp only [maskOf]
      by_cases href : c.referenceId = 0
      · exact ⟨0, fun fuel _ _ => by
          rw [if_neg (not_not.mpr href)]
          exact h c (.own hsplit hopen href)⟩
      · obtain ⟨l', hl'⟩ := found c hc href
        obtain ⟨n, hn⟩ := ih c hc href l' hl' (.inl ⟨_, hl'⟩) fun d hd =>
          h d (.template hsplit hopen href hl' hd)
        exact ⟨n, fun fuel hfuel _ => by
          rw [if_pos href, hl']
          exact hn fuel hfuel⟩
    · exact ⟨0, fun _ _ hreached' => absurd hreached' hreached⟩
  obtain ⟨n, hn⟩ := exists_fuel_forall hone
  refine ⟨n + 1, fun fuel hfuel => ?_⟩
  obtain ⟨fuel, rfl⟩ : ∃ k, fuel = k + 1 := ⟨fuel - 1, by omega⟩
  refine (mask_ok_iff hm hl fuel).mpr fun l₁ c l₂ hsplit hopen =>
    hn fuel (by omega) c ?_ ⟨l₁, l₂, hsplit, hopen⟩
  rw [hsplit]
  exact List.mem_append_right _ List.mem_cons_self

/-! ## Pre-filtering -/

/-- The list has a mask, and where it is true of a searched object, the grid type of the object is in the
mask. -/
def Prefilters (refs : ConditionReferenceContainer) (conditions : ConditionContainer) : Prop :=
  ∃ (mask : BitVec 32) (n : ℕ),
    (∀ fuel ≥ n, getSearcherTypeMaskForConditionList refs fuel conditions = .ok mask) ∧
    ∀ world sourceInfo object, sourceInfo.target 0 = .ok (some object) →
      Comes refs world sourceInfo conditions true → object.gridMapTypeMask &&& mask ≠ 0

/-- The types that have a case of their own, with a `break`, in the switch of the masks. -/
def ConditionTypes.isHandled : ConditionTypes → Bool
  | .faction | .wowPatch | .terrainSwap | .unnamed _ => false
  | _ => true

/-- The condition is negative, or its type has a mask. -/
def Condition.IsHandled (c : Condition) : Prop :=
  c.negativeCondition = false → c.conditionType.isHandled = true

/-- The condition is negative, or of a filterable kind. -/
def Condition.IsFilterable (c : Condition) : Prop :=
  c.negativeCondition = false → Filterable c.conditionType c.conditionTarget = true

theorem exists_mask_iff : (∃ mask, c.getSearcherTypeMaskForCondition = .ok mask) ↔ c.IsHandled := by
  rw [Condition.getSearcherTypeMaskForCondition, Condition.IsHandled]
  cases c.negativeCondition with
  | true => simp
  | false =>
    rw [if_neg Bool.false_ne_true]
    cases c.conditionType
    case objectEntryGuid =>
      dsimp only
      split_ifs <;> simp [ConditionTypes.isHandled]
    all_goals simp [ConditionTypes.isHandled]

/-- The part of an element whose conditions are all met by the searched object. -/
theorem hasType_of_part {object : WorldObject} {s : Set Condition} (haccepted : c.Accepted g)
    (hobject : sourceInfo.mConditionTargets 0 = some object) (hs : Part refs c s)
    (hmet : ∀ d ∈ s, d.meets world sourceInfo = .ok true)
    (hplain : c.referenceId = 0 → c ∈ s → c.IsFilterable)
    (htemplate : ∀ l, c.referenceId ≠ 0 → refs.lookup c.referenceId = some l → Branch refs l s →
      ∀ d ∈ s, d.HasType object.gridBit) : ∀ d ∈ s, d.HasType object.gridBit := by
  cases hs with
  | own href =>
    rintro d rfl
    have hvalid := haccepted.resolve_left (not_not.mpr href)
    have hkind := hplain href rfl
    obtain ⟨mask, hmask⟩ := exists_mask hvalid.2 hkind
    exact ⟨mask, hmask, (inMask_iff object mask).mp
      (meets_inMask hvalid.2 hkind hmask hobject (hmet d rfl))⟩
  | template href hl h => exact htemplate _ href hl h

/-- **A branch without an unsound condition that the mask comes to.** Where all its conditions are met by
the searched object, they all have the type of the object in their masks: so no element in front of
another one of them closes the group. -/
theorem hasType_of_met {object : WorldObject} (hm : m.AllStored (Condition.Accepted g))
    (hl : m.Stored l) (hrefs : Resolves m.conditionReferenceStore l)
    (hobject : sourceInfo.mConditionTargets 0 = some object) {s : Set Condition}
    (hs : Branch m.conditionReferenceStore l s)
    (hkinds : ∀ c ∈ s, Reaches m.conditionReferenceStore l c → c.IsFilterable)
    (hmet : ∀ c ∈ s, c.meets world sourceInfo = .ok true) : ∀ c ∈ s, c.HasType object.gridBit := by
  induction hrefs generalizing s with
  | @intro l found ends ih =>
  cases hs with
  | @group _ c₀ hc₀ part hpart =>
  have hfront : ∀ l₁ l₂, l = l₁ ++ l₂ → ∀ c ∈ l₁, c.elseGroup = c₀.elseGroup →
      ∀ d ∈ part c, d.HasType object.gridBit := by
    intro l₁
    induction l₁ using List.reverseRecOn with
    | nil => exact fun _ _ c hc => absurd hc List.not_mem_nil
    | append_singleton l₁ a ihl =>
      intro l₂ hsplit c hc hsame
      rw [List.append_assoc, List.singleton_append] at hsplit
      have hbefore := ihl (a :: l₂) hsplit
      have hmem : ∀ b ∈ l₁, b ∈ l := fun b hb => hsplit ▸ List.mem_append_left _ hb
      rw [List.mem_append, List.mem_singleton] at hc
      obtain hc | rfl := hc
      · exact hbefore c hc hsame
      · have hcl : c ∈ l := hsplit ▸ List.mem_append_right _ List.mem_cons_self
        have hopen : Open m.conditionReferenceStore l₁ c.elseGroup :=
          ⟨object.gridBit, gridBit_lt object, fun b hb hgroup =>
            ⟨part b, hpart b (hmem b hb) (hgroup.trans hsame), hbefore b hb (hgroup.trans hsame)⟩⟩
        have hin : ∀ d ∈ part c, ∃ c' ∈ l, c'.elseGroup = c₀.elseGroup ∧ d ∈ part c' :=
          fun d hd => ⟨c, hcl, hsame, hd⟩
        refine hasType_of_part ((hm l hl).2 c hcl) hobject (hpart c hcl hsame)
          (fun d hd => hmet d (hin d hd))
          (fun href hself => hkinds c (hin c hself) (.own hsplit hopen href))
          fun l' href hl' hbranch => ?_
        exact ih c hcl href l' hl' (.inl ⟨_, hl'⟩) hbranch
          (fun d hd hreach => hkinds d (hin d hd) (.template hsplit hopen href hl' hreach))
          fun d hd => hmet d (hin d hd)
  rintro d ⟨c, hc, hsame, hd⟩
  exact hfront l [] (List.append_nil l).symm c hc hsame d hd

/-- **When a list is filtered soundly.** No condition that the computation of the mask comes to trips the
assertion; and where a branch has a condition that the mask comes to and that is not filterable, each
searched object that meets the whole branch is of a type in the masks of all conditions of some branch. -/
theorem prefilters_iff (hload : ConditionMgr.loadConditions g rows = .ok m) (hl : m.Stored l)
    (hrefs : Resolves m.conditionReferenceStore l) :
    Prefilters m.conditionReferenceStore l ↔
      (∀ c, Reaches m.conditionReferenceStore l c → c.IsHandled) ∧
      ∀ s, Branch m.conditionReferenceStore l s →
        (∃ c ∈ s, Reaches m.conditionReferenceStore l c ∧ ¬ c.IsFilterable) →
        ∀ world sourceInfo object, sourceInfo.target 0 = .ok (some object) →
          (∀ c ∈ s, c.meets world sourceInfo = .ok true) →
          SomeBranch m.conditionReferenceStore (Condition.HasType object.gridBit) l := by
  have hm : m.AllStored (Condition.Accepted g) := fun l hl =>
    ⟨(loadConditions_stored hload l hl).1, fun c hc => by
      obtain ⟨row, -, hrow⟩ := (loadConditions_stored hload l hl).2 c hc
      exact hrow.accepted⟩
  have hin {mask : BitVec 32} (hmask : IsMask m.conditionReferenceStore l mask) (object : WorldObject) :
      object.gridMapTypeMask &&& mask ≠ 0 ↔
        SomeBranch m.conditionReferenceStore (Condition.HasType object.gridBit) l := by
    rw [← WorldObject.InMask, inMask_iff, hmask, and_iff_right (gridBit_lt object)]
  constructor
  · rintro ⟨mask, n, hmask, hsound⟩
    have hok := hmask n (le_refl n)
    refine ⟨fun c hc => exists_mask_iff.mp (hc.exists_mask hm hl hok), ?_⟩
    intro s hs _ world sourceInfo object hobject hmet
    obtain ⟨b, hcomes, hb⟩ := exists_value hm hl hrefs world sourceInfo
    rw [hb.mpr ⟨s, hs, hmet⟩] at hcomes
    exact (hin (isMask_of_ok hm n hl mask hok) object).mp
      (hsound world sourceInfo object hobject hcomes)
  · rintro ⟨hhandled, hbranches⟩
    obtain ⟨n, hn⟩ := exists_mask_of_reaches hm hl hrefs fun c hc => exists_mask_iff.mpr (hhandled c hc)
    obtain ⟨mask, hok⟩ := hn n (le_refl n)
    have hmask := isMask_of_ok hm n hl mask hok
    refine ⟨mask, n, fun fuel hfuel => ?_, fun world sourceInfo object hobject hcomes => ?_⟩
    · obtain ⟨mask', hok'⟩ := hn fuel hfuel
      rw [hok', (isMask_of_ok hm fuel hl mask' hok').unique hmask]
    · obtain ⟨b, hcomes', hb⟩ := exists_value hm hl hrefs world sourceInfo
      obtain ⟨s, hs, hmet⟩ := hb.mp (hcomes.unique hcomes').symm
      rw [hin hmask]
      by_cases hkinds : ∃ c ∈ s, Reaches m.conditionReferenceStore l c ∧ ¬ c.IsFilterable
      · exact hbranches s hs hkinds world sourceInfo object hobject hmet
      · push Not at hkinds
        exact ⟨s, hs, hasType_of_met hm hl hrefs (Except.ok.inj hobject) hs hkinds hmet⟩

/-! ## Tables that are loaded -/

/-- The other managers know an item, a faction and spells with effects that select targets. -/
def knowingData : GameData := { (default : GameData) with
  hasItemTemplate := fun _ => true
  hasFaction := fun _ => true
  spellInfo := fun _ => some fun _ => ⟨true, false, false, false⟩ }

/-- An item and a type of creature, and after them a faction. -/
def unreachedFaction : ConditionContainer := [
  { conditionType := .item, conditionValue1 := 1, conditionValue2 := 1 },
  { conditionType := .creatureType, conditionValue1 := 1 },
  { conditionType := .faction }]

/-- The targets of spell 5 are those of template 1, or players of the Alliance. -/
def targetsOfTemplate : ConditionContainer := [
  { sourceType := .spellImplicitTarget, sourceGroup := 1, sourceEntry := 5, referenceId := 1 },
  { sourceType := .spellImplicitTarget, sourceGroup := 1, sourceEntry := 5, elseGroup := 1,
    conditionType := .team, conditionValue1 := 469 }]

/-- The targets of spell 6 are of a faction. -/
def targetsOfFaction : ConditionContainer := [
  { sourceType := .spellImplicitTarget, sourceGroup := 1, sourceEntry := 6, conditionType := .faction }]

/-- The rows of the three lists. -/
def rowsOfTargets : List ConditionRow := [
  { sourceTypeOrReferenceId := -1, conditionTypeOrReference := 2, conditionValue1 := 1,
    conditionValue2 := 1 },
  { sourceTypeOrReferenceId := -1, conditionTypeOrReference := 24, conditionValue1 := 1 },
  { sourceTypeOrReferenceId := -1, conditionTypeOrReference := 60 },
  { sourceTypeOrReferenceId := 13, sourceGroup := 1, sourceEntry := 5, conditionTypeOrReference := -1 },
  { sourceTypeOrReferenceId := 13, sourceGroup := 1, sourceEntry := 5, elseGroup := 1,
    conditionTypeOrReference := 6, conditionValue1 := 469 },
  { sourceTypeOrReferenceId := 13, sourceGroup := 1, sourceEntry := 6, conditionTypeOrReference := 60 }]

theorem rowsOfTargets_load : ∃ m, ConditionMgr.loadConditions knowingData rowsOfTargets = .ok m ∧
    m.conditionReferenceStore.lookup 1 = some unreachedFaction ∧
    m.lists.lookup (.implicitTargets 0) = some targetsOfTemplate ∧
    m.lists.lookup (.implicitTargets 1) = some targetsOfFaction :=
  ⟨_, rfl, rfl, rfl, rfl⟩

theorem resolves_of_plain (h : ∀ c ∈ l, c.referenceId = 0) : Resolves refs l :=
  .intro (fun c hc href => absurd (h c hc) href) fun c hc href => absurd (h c hc) href

/-- What the computation of a mask comes to is in the list, or in a template that it refers to. -/
theorem Reaches.mem_or (h : Reaches refs l c) : c ∈ l ∧ c.referenceId = 0 ∨
    ∃ r ∈ l, r.referenceId ≠ 0 ∧ ∃ l', refs.lookup r.referenceId = some l' ∧ Reaches refs l' c := by
  cases h with
  | own hl hopen href => exact .inl ⟨hl ▸ List.mem_append_right _ List.mem_cons_self, href⟩
  | template hl hopen href hl' h =>
    exact .inr ⟨_, hl ▸ List.mem_append_right _ List.mem_cons_self, href, _, hl', h⟩

/-- No type of object has an item and a type of creature, so the faction behind them is not come to. -/
theorem unreachedFaction_filterable (h : Reaches refs unreachedFaction c) :
    c.IsFilterable ∧ c.IsHandled := by
  cases h with
  | template hl hopen href =>
    have hplain : ∀ r ∈ unreachedFaction, r.referenceId = 0 := by decide
    exact absurd (hplain _ (hl ▸ List.mem_append_right _ List.mem_cons_self)) href
  | @own _ l₁ l₂ _ hl hopen href =>
    obtain _ | ⟨a, _ | ⟨b, _ | ⟨d, l₁⟩⟩⟩ := l₁
    · cases hl
      exact ⟨fun _ => rfl, fun _ => rfl⟩
    · cases hl
      exact ⟨fun _ => rfl, fun _ => rfl⟩
    · cases hl
      obtain ⟨i, hi, hall⟩ := hopen
      obtain ⟨mask, hmask, hbit⟩ := (somePart_of_plain rfl).mp (hall _ List.mem_cons_self rfl)
      obtain ⟨mask', hmask', hbit'⟩ :=
        (somePart_of_plain rfl).mp (hall _ (List.mem_cons_of_mem _ List.mem_cons_self) rfl)
      cases hmask
      cases hmask'
      interval_cases i <;> simp [gridMapTypeMaskPlayer, gridMapTypeMaskCreature] at hbit hbit'
    · simp [unreachedFaction] at hl

/-- **A good list beside a bad one**: a faction that the mask does not come to, and one that it does. -/
theorem prefilters_unreached : ∃ m, ConditionMgr.loadConditions knowingData rowsOfTargets = .ok m ∧
    m.Stored targetsOfTemplate ∧ Prefilters m.conditionReferenceStore targetsOfTemplate ∧
    m.Stored targetsOfFaction ∧ ¬ Prefilters m.conditionReferenceStore targetsOfFaction := by
  obtain ⟨m, hload, htemplate, hgood, hbad⟩ := rowsOfTargets_load
  have hgood : m.Stored targetsOfTemplate := .inr ⟨_, hgood⟩
  have hbad : m.Stored targetsOfFaction := .inr ⟨_, hbad⟩
  have hids : ∀ c ∈ targetsOfTemplate, c.referenceId ≠ 0 → c.referenceId = 1 := by decide
  have hrefs : Resolves m.conditionReferenceStore targetsOfTemplate := by
    refine .intro (fun c hc href => ⟨_, hids c hc href ▸ htemplate⟩) fun c hc href l hl => ?_
    rw [hids c hc href, htemplate] at hl
    cases hl
    exact resolves_of_plain (by decide)
  have hreached : ∀ c, Reaches m.conditionReferenceStore targetsOfTemplate c →
      c.IsFilterable ∧ c.IsHandled := by
    intro c hc
    obtain ⟨hmem, href⟩ | ⟨r, hr, href, l, hl, hc⟩ := hc.mem_or
    · have hteam : ∀ c ∈ targetsOfTemplate, c.referenceId = 0 →
          c.conditionType = .team ∧ c.conditionTarget = 0 := by decide
      obtain ⟨htype, htarget⟩ := hteam c hmem href
      simp [Condition.IsFilterable, Condition.IsHandled, htype, htarget, Filterable,
        ConditionTypes.isHandled]
    · rw [hids r hr href, htemplate] at hl
      cases hl
      exact unreachedFaction_filterable hc
  have hfaction : ∀ refs, Resolves refs targetsOfFaction := fun _ => resolves_of_plain (by decide)
  refine ⟨m, hload, hgood, (prefilters_iff hload hgood hrefs).mpr ⟨fun c hc => (hreached c hc).2, ?_⟩,
    hbad, fun h => ?_⟩
  · rintro s - ⟨c, -, hc, hnot⟩
    exact absurd (hreached c hc).1 hnot
  · have hreach : Reaches m.conditionReferenceStore targetsOfFaction _ :=
      .own (List.nil_append _).symm ⟨0, by decide, fun c hc => absurd hc List.not_mem_nil⟩ rfl
    cases ((prefilters_iff hload hbad (hfaction _)).mp h).1 _ hreach rfl

theorem faction_trips_assertion :
    ¬ ∀ (g : GameData) (rows : List ConditionRow) (m : ConditionMgr),
      ConditionMgr.loadConditions g rows = .ok m → ∀ l, m.Stored l →
      Resolves m.conditionReferenceStore l → Prefilters m.conditionReferenceStore l := by
  intro h
  obtain ⟨m, hload, -, -, hbad⟩ := rowsOfTargets_load
  have hbad : m.Stored targetsOfFaction := .inr ⟨_, hbad⟩
  obtain ⟨mask, n, hmask, -⟩ := h _ _ m hload _ hbad (resolves_of_plain (by decide))
  have hok := hmask (n + 1) (Nat.le_succ n)
  cases hok

end Sunstrider.Conditions
