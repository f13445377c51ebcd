import Sunstrider.Conditions.ConditionMgr

/-!
# Loaded conditions and their evaluation

What `LoadConditions` puts into a list came from a row of the table, and is a reference or passed
`isConditionTypeValid` (`loadConditions_stored`). The list of a reference template is the conditions of
its rows, in their order (`loadConditions_references`). So an evaluation reads accepted conditions only.
-/

namespace Sunstrider.Conditions

open Sunstrider.Lib

variable {g : GameData} {m : ConditionMgr} {c : Condition} {P : Condition → Prop}

namespace ConditionMgr

/-- A list of conditions that was loaded: that of a reference template, or of a place. -/
def Stored (m : ConditionMgr) (conditions : ConditionContainer) : Prop :=
  (∃ id, m.conditionReferenceStore.lookup id = some conditions) ∨
    ∃ place, m.lists.lookup place = some conditions

/-- Every stored list has elements, and they meet `P`. -/
def AllStored (P : Condition → Prop) (m : ConditionMgr) : Prop :=
  ∀ conditions, m.Stored conditions → conditions ≠ [] ∧ ∀ c ∈ conditions, P c

/-! ## Places -/

/-- The condition came to the end of one list outside the reference store, or to none. -/
structure Placed (m : ConditionMgr) (c : Condition) (m' : ConditionMgr) : Prop where
  references : m'.conditionReferenceStore = m.conditionReferenceStore
  lists : m'.lists = m.lists ∨ ∃ place, m'.lists = (m.pushBack place c).lists

theorem Placed.nowhere : m.Placed c m := ⟨rfl, .inl rfl⟩

theorem Placed.at (place : Place) : m.Placed c (m.pushBack place c) := ⟨rfl, .inr ⟨place, rfl⟩⟩

theorem addToLootTemplate_placed (store : LootStore) :
    m.Placed c (m.addToLootTemplate g store c) := by
  rw [ConditionMgr.addToLootTemplate]
  cases g.lootTemplates store c.sourceGroup with
  | none => exact .nowhere
  | some loot =>
    dsimp only
    split
    · cases loot.items.findIdx? _ with
      | none => exact .nowhere
      | some index => exact .at _
    · exact .nowhere

theorem addToGossipMenus_placed : m.Placed c (m.addToGossipMenus g c) := by
  rw [ConditionMgr.addToGossipMenus]
  cases gossipIndex g.gossipMenus c with
  | none => exact .nowhere
  | some index => exact .at _

theorem addToGossipMenuItems_placed : m.Placed c (m.addToGossipMenuItems g c) := by
  rw [ConditionMgr.addToGossipMenuItems]
  cases gossipIndex g.gossipMenuItems c with
  | none => exact .nowhere
  | some index => exact .at _

theorem addToSpellImplicitTargetConditions_placed :
    Answers (m.addToSpellImplicitTargetConditions g c) (m.Placed c) := by
  rw [ConditionMgr.addToSpellImplicitTargetConditions]
  cases g.spellInfo c.sourceEntry with
  | none => exact .error
  | some effects =>
    dsimp only
    split
    · exact .ok .nowhere
    split
    · exact .ok .nowhere
    split
    · exact .ok .nowhere
    split
    · split
      · exact .ok .nowhere
      · exact .ok (.at _)
    · split
      · -- the new list is empty, and no other list changes
        exact .ok ⟨rfl, .inr ⟨_, rfl⟩⟩
      · exact .ok .nowhere

theorem addGrouped_placed : Answers (m.addGrouped g c) (m.Placed c) := by
  rw [ConditionMgr.addGrouped]
  split
  case h_11 => exact .ok addToGossipMenus_placed
  case h_12 => exact .ok addToGossipMenuItems_placed
  case h_14 => exact addToSpellImplicitTargetConditions_placed
  case h_17 => exact .ok .nowhere
  all_goals first
    | exact .ok (addToLootTemplate_placed _)
    | exact .ok (.at _)

theorem addCondition_placed : Answers (m.addCondition g c) (m.Placed c.correctError) := by
  rw [ConditionMgr.addCondition]
  split
  · exact .ok .nowhere
  split
  · exact .ok .nowhere
  dsimp only
  split
  · exact addGrouped_placed
  split
  · exact .ok (.at _)
  · exact .error

/-! ## Elements of the lists -/

theorem append_elements {conditions : Option ConditionContainer} (hc : P c)
    (h : ∀ l, conditions = some l → ∀ c ∈ l, P c) :
    conditions.getD [] ++ [c] ≠ [] ∧ ∀ c' ∈ conditions.getD [] ++ [c], P c' := by
  refine ⟨List.append_ne_nil_of_right_ne_nil _ (List.cons_ne_nil c []), fun c' hc' => ?_⟩
  rw [List.mem_append, List.mem_singleton] at hc'
  obtain hold | rfl := hc'
  · cases hl : conditions with
    | none =>
      rw [hl] at hold
      cases hold
    | some l =>
      rw [hl] at hold
      exact h l hl c' hold
  · exact hc

theorem AllStored.place (h : m.AllStored P) {m' : ConditionMgr} (hplaced : m.Placed c m')
    (hc : P c) : m'.AllStored P := by
  rintro conditions (⟨id, hid⟩ | ⟨place, hplace⟩)
  · rw [hplaced.references] at hid
    exact h conditions (.inl ⟨id, hid⟩)
  · obtain hlists | ⟨place', hlists⟩ := hplaced.lists
    · rw [hlists] at hplace
      exact h conditions (.inr ⟨place, hplace⟩)
    · rw [hlists, ConditionMgr.pushBack, lookup_insert_ite] at hplace
      split at hplace
      · cases hplace
        exact append_elements hc fun l hl => (h l (.inr ⟨place', hl⟩)).2
      · exact h conditions (.inr ⟨place, hplace⟩)

theorem AllStored.addReference (h : m.AllStored P) (id : ℕ) (hc : P c) :
    (m.addReference id c).AllStored P := by
  rintro conditions (⟨id', hid⟩ | ⟨place, hplace⟩)
  · rw [ConditionMgr.addReference, lookup_insert_ite] at hid
    split at hid
    · cases hid
      exact append_elements hc fun l hl => (h l (.inl ⟨id, hl⟩)).2
    · exact h conditions (.inl ⟨id', hid⟩)
  · exact h conditions (.inr ⟨place, hplace⟩)

end ConditionMgr

/-! ## Rows -/

/-- The condition is that of a row, but for what the checks of its source change, and it is a reference
or passed the checks of its type. -/
def FromRow (g : GameData) (row : ConditionRow) (c : Condition) : Prop :=
  (∃ sourceGroup errorType errorTextId, c = { row.condition with
      sourceGroup := sourceGroup, errorType := errorType, errorTextId := errorTextId }) ∧
    (row.conditionTypeOrReference < 0 ∨ g.isConditionTypeValid row.condition = true)

theorem isSourceTypeValid_eq {c' : Condition} (h : g.isSourceTypeValid c = some c') :
    ∃ sourceGroup, c' = { c with sourceGroup := sourceGroup } := by
  have hcheck {valid : Bool} (h : (if valid then some c else none) = some c') :
      ∃ sourceGroup, c' = { c with sourceGroup := sourceGroup } := by
    split at h
    · cases h
      exact ⟨c.sourceGroup, rfl⟩
    · cases h
  rw [GameData.isSourceTypeValid] at h
  split at h
  case h_12 =>
    split at h
    · cases h
    · split at h
      · cases h
      · dsimp only at h
        split at h
        · cases h
        · cases h
          exact ⟨_, rfl⟩
  all_goals first
    | exact hcheck h
    | cases h
  exact ⟨c.sourceGroup, rfl⟩

/-- The row is one of the reference template, and not skipped. -/
def ConditionRow.isTemplateOf (g : GameData) (id : ℕ) (row : ConditionRow) : Bool :=
  row.sourceTypeOrReferenceId < 0 && row.sourceTypeOrReferenceId.natAbs = id &&
    (if row.conditionTypeOrReference < 0 then
      row.conditionTypeOrReference ≠ row.sourceTypeOrReferenceId
    else g.isConditionTypeValid row.condition)

/-- **What one row does.** It goes to the list of its reference template, or its condition to a place. -/
theorem loadRow_spec (m : ConditionMgr) (row : ConditionRow) :
    Answers (ConditionMgr.loadRow g m row) fun m' =>
      (row.isTemplateOf g row.sourceTypeOrReferenceId.natAbs = true ∧
        m' = m.addReference row.sourceTypeOrReferenceId.natAbs row.condition) ∨
      ((∀ id, row.isTemplateOf g id = false) ∧
        (m' = m ∨ ∃ c, FromRow g row c ∧ m.Placed c m')) := by
  rw [ConditionMgr.loadRow]
  split
  next hself =>
    refine .ok (.inr ⟨fun id => ?_, .inl rfl⟩)
    rw [ConditionRow.isTemplateOf, if_pos hself.1]
    simp [hself.2]
  next hself =>
  split
  next hinvalid =>
    refine .ok (.inr ⟨fun id => ?_, .inl rfl⟩)
    simp [ConditionRow.isTemplateOf, not_lt.mpr hinvalid.1, hinvalid.2]
  next hvalid =>
  have hchecked : row.conditionTypeOrReference < 0 ∨
      g.isConditionTypeValid row.condition = true := by
    by_cases hneg : row.conditionTypeOrReference < 0
    · exact .inl hneg
    · exact .inr (by simpa [not_lt.mp hneg] using hvalid)
  have hplaced (sourceGroup : BitVec 32) :
      FromRow g row { row.condition with sourceGroup := sourceGroup }.correctError :=
    ⟨⟨sourceGroup, _, _, rfl⟩, hchecked⟩
  split
  next htemplate =>
    refine .ok (.inl ⟨?_, rfl⟩)
    by_cases hneg : row.conditionTypeOrReference < 0
    · simpa [ConditionRow.isTemplateOf, htemplate, hneg] using hself
    · simpa [ConditionRow.isTemplateOf, htemplate, hneg] using hchecked
  next htemplate =>
  have hno (id : ℕ) : row.isTemplateOf g id = false := by
    simp [ConditionRow.isTemplateOf, htemplate]
  split
  · cases hsource : g.isSourceTypeValid row.condition with
    | none => exact .ok (.inr ⟨hno, .inl rfl⟩)
    | some c =>
      obtain ⟨sourceGroup, rfl⟩ := isSourceTypeValid_eq hsource
      intro m' hm'
      exact .inr ⟨hno, .inr ⟨_, hplaced sourceGroup, ConditionMgr.addCondition_placed m' hm'⟩⟩
  · intro m' hm'
    exact .inr ⟨hno, .inr ⟨_, hplaced row.sourceGroup, ConditionMgr.addCondition_placed m' hm'⟩⟩

theorem ConditionRow.fromRow_of_isTemplateOf {row : ConditionRow} {id : ℕ}
    (h : row.isTemplateOf g id = true) : FromRow g row row.condition := by
  refine ⟨⟨row.sourceGroup, row.errorType, row.errorTextId, rfl⟩, ?_⟩
  rw [ConditionRow.isTemplateOf, Bool.and_eq_true] at h
  by_cases hneg : row.conditionTypeOrReference < 0
  · exact .inl hneg
  · exact .inr (by simpa [hneg] using h.2)

/-! ## Tables -/

variable {rows : List ConditionRow}

/-- **What `LoadConditions` stores** came from rows of the table. -/
theorem loadConditions_stored (h : ConditionMgr.loadConditions g rows = .ok m) :
    m.AllStored fun c => ∃ row ∈ rows, FromRow g row c := by
  refine Answers.foldlM rows (?_ : ConditionMgr.AllStored (fun c => ∃ row ∈ rows, FromRow g row c) {})
    (fun m row hrow hm m' hm' => ?_) m h
  · rintro conditions (⟨id, hid⟩ | ⟨place, hplace⟩)
    · cases hid
    · cases hplace
  · obtain ⟨htemplate, rfl⟩ | ⟨-, rfl | ⟨c, hc, hplaced⟩⟩ := loadRow_spec m row m' hm'
    · exact hm.addReference _ ⟨row, hrow, ConditionRow.fromRow_of_isTemplateOf htemplate⟩
    · exact hm
    · exact hm.place hplaced ⟨row, hrow, hc⟩

/-- The list of a reference template. -/
def templateOf (g : GameData) (rows : List ConditionRow) (id : ℕ) : ConditionContainer :=
  (rows.filter (ConditionRow.isTemplateOf g id)).map ConditionRow.condition

/-- **The reference templates** are those of the table. -/
theorem loadConditions_references (h : ConditionMgr.loadConditions g rows = .ok m) (id : ℕ) :
    m.conditionReferenceStore.lookup id =
      if templateOf g rows id = [] then none else some (templateOf g rows id) := by
  induction rows using List.reverseRecOn generalizing m with
  | nil =>
    cases h
    rfl
  | append_singleton rows row ih =>
    rw [ConditionMgr.loadConditions, List.foldlM_append] at h
    obtain ⟨m₀, hm₀, hrow⟩ := bind_eq_ok.mp h
    have hstore := ih hm₀
    have hrow : ConditionMgr.loadRow g m₀ row = .ok m := by
      obtain ⟨m₁, hm₁, hnil⟩ := bind_eq_ok.mp hrow
      cases hnil
      exact hm₁
    have htemplates : templateOf g (rows ++ [row]) id =
        templateOf g rows id ++ if row.isTemplateOf g id = true then [row.condition] else [] := by
      by_cases hof : row.isTemplateOf g id = true <;> simp [templateOf, hof]
    rw [htemplates]
    obtain ⟨hof, rfl⟩ | ⟨hno, rfl | ⟨c, -, hplaced⟩⟩ := loadRow_spec m₀ row m hrow
    · rw [ConditionMgr.addReference, lookup_insert_ite]
      by_cases hid : id = row.sourceTypeOrReferenceId.natAbs
      · subst hid
        rw [if_pos rfl, hof, if_pos rfl, hstore]
        by_cases hnil : templateOf g rows row.sourceTypeOrReferenceId.natAbs = [] <;> simp [hnil]
      · have hother : row.isTemplateOf g id = false := by
          simp [ConditionRow.isTemplateOf, Ne.symm hid]
        rw [if_neg hid, hother, hstore]
        simp
    · rw [hno id, hstore]
      simp
    · rw [hno id, hplaced.references, hstore]
      simp

/-! ## Accepted conditions -/

/-- A reference, or a condition that passed the checks of its type. -/
def Condition.Accepted (g : GameData) (c : Condition) : Prop :=
  c.referenceId ≠ 0 ∨ c.referenceId = 0 ∧ g.isConditionTypeValid c = true

theorem FromRow.accepted {row : ConditionRow} (h : FromRow g row c) : c.Accepted g := by
  obtain ⟨⟨sourceGroup, errorType, errorTextId, rfl⟩, hvalid⟩ := h
  by_cases hneg : row.conditionTypeOrReference < 0
  · refine .inl ?_
    show (if row.conditionTypeOrReference < 0 then _ else 0) ≠ 0
    rw [if_pos hneg]
    omega
  · exact .inr ⟨if_neg hneg, hvalid.resolve_left hneg⟩

theorem Condition.Accepted.isLoaded (h : c.Accepted g) : c.isLoaded = true := by
  obtain href | ⟨-, hvalid⟩ := h
  · simp [Condition.isLoaded, href]
  · have hne : c.conditionType ≠ .none := by
      intro hnone
      simp [GameData.isConditionTypeValid, hnone] at hvalid
    simp [Condition.isLoaded, hne]

end Sunstrider.Conditions

/-!
## Evaluation of condition lists

A condition that was accepted is checked without a failed assertion (`meets_of_valid`), and passing over
the rest of a group that is false already is no more than a saving. So a list whose elements have values
is an or of ands (`isObjectMeetToConditionList_eq`), whatever the order of its rows and of those of the
templates (`exists_listWorth`).
-/

namespace Sunstrider.Conditions

open Sunstrider.Lib

variable {g : GameData} {m : ConditionMgr} {refs : ConditionReferenceContainer}
  {world : World} {sourceInfo : ConditionSourceInfo} {c : Condition}

/-! ## One condition -/

theorem target_of_lt {i : ℕ} (h : i < 3) : Yields (sourceInfo.target i) fun _ => True := by
  rw [ConditionSourceInfo.target, dif_pos h]
  exact .ok trivial

theorem compareValues_of_lt {T : Type} [LT T] [LE T] [DecidableEq T] [DecidableLT T] [DecidableLE T]
    {type : BitVec 32} (h : type < GameData.compTypeMax) (val1 val2 : T) :
    Yields (compareValues type val1 val2) fun _ => True := by
  have hlt : type.toNat < 5 := h
  have hcases : type.toNat = 0 ∨ type.toNat = 1 ∨ type.toNat = 2 ∨ type.toNat = 3 ∨
      type.toNat = 4 := by omega
  rw [compareValues]
  obtain h | h | h | h | h := hcases <;> rw [h] <;> exact .ok trivial

theorem maxTargets_le (c : Condition) : c.getMaxAvailableConditionTargets ≤ 2 := by
  rw [Condition.getMaxAvailableConditionTargets]
  split <;> omega

theorem selected_of_valid (h : GameData.isTargetSelectionValid c = true) :
    Yields (sourceInfo.target c.conditionValue1.toNat) fun _ => True := by
  rw [GameData.isTargetSelectionValid, Bool.and_eq_true, decide_eq_true_iff] at h
  exact target_of_lt (by have := maxTargets_le c; omega)

/-- The switch of `Meets` fails no assertion on valid values. -/
theorem condMeets_of_valid (h : g.areValuesValid c = true) (object : WorldObject) :
    Yields (c.condMeets world sourceInfo object) fun _ => True := by
  rw [Condition.condMeets]
  rw [GameData.areValuesValid] at h
  cases htype : c.conditionType <;> simp only [htype] at h ⊢
  case item =>
    split
    · exact .ok trivial
    · rw [Bool.and_eq_true, decide_eq_true_iff] at h
      rw [if_neg h.2]
      exact .ok trivial
  case level =>
    split
    · exact .ok trivial
    · exact compareValues_of_lt (of_decide_eq_true h) _ _
  case objectEntryGuid =>
    split
    · split
      · split <;> exact .ok trivial
      · exact .ok trivial
    · exact .ok trivial
  case relationTo =>
    rw [Bool.and_eq_true] at h
    refine (selected_of_valid h.1).bind fun toObject _ => ?_
    split
    · exact .ok trivial
    · split
      · split <;> exact .ok trivial
      · exact .ok trivial
  case reactionTo =>
    rw [Bool.and_eq_true] at h
    refine (selected_of_valid h.1).bind fun toObject _ => ?_
    split
    · exact .ok trivial
    · split <;> exact .ok trivial
  case distanceTo =>
    rw [Bool.and_eq_true, decide_eq_true_iff] at h
    refine (selected_of_valid h.1).bind fun toObject _ => ?_
    split
    · exact .ok trivial
    · exact compareValues_of_lt h.2 _ _
  case hpVal =>
    split
    · exact .ok trivial
    · exact compareValues_of_lt (of_decide_eq_true h) _ _
  case hpPct =>
    rw [Bool.and_eq_true, decide_eq_true_iff, decide_eq_true_iff] at h
    split
    · exact .ok trivial
    · exact compareValues_of_lt h.2 _ _
  all_goals exact .ok trivial

/-- **A condition that passed the checks of its type** fails no assertion. -/
theorem meets_of_valid (h : g.isConditionTypeValid c = true) :
    Yields (c.meets world sourceInfo) fun _ => True := by
  rw [GameData.isConditionTypeValid, Bool.and_eq_true, Bool.and_eq_true, decide_eq_true_iff] at h
  obtain ⟨⟨-, htarget⟩, hvalues⟩ := h
  have hlt : c.conditionTarget < 3 := by have := maxTargets_le c; omega
  refine (target_of_lt hlt).bind fun object _ => ?_
  cases object with
  | none => exact .ok trivial
  | some object =>
    dsimp only
    split
    · split <;> exact .ok trivial
    · exact (condMeets_of_valid hvalues object).bind fun _ _ => .ok trivial

/-! ## One list -/

variable {conditions : ConditionContainer}

/-- **A list is an or of ands**: true just if some element's group has only true elements. -/
theorem isObjectMeetToConditionList_eq {fuel : ℕ} {value : Condition → Bool}
    (hloaded : ∀ c ∈ conditions, c.isLoaded = true)
    (hvalue : ∀ c ∈ conditions, answerOf refs world sourceInfo
      (isObjectMeetToConditionList refs world sourceInfo fuel) c = .ok ⟨value c, false⟩) :
    isObjectMeetToConditionList refs world sourceInfo (fuel + 1) conditions =
      .ok ⟨decide (∃ c ∈ conditions, ∀ c' ∈ conditions,
        c'.elseGroup = c.elseGroup → value c' = true), false⟩ := by
  let op (v : Answer) (c : Condition) : Answer := v.and ⟨value c, false⟩
  obtain ⟨store, hstore, hlookup⟩ : Yields
      (groupValues Condition.elseGroup (⟨true, false⟩ : Answer) (fun v => !v.met)
        (fun v c => do
          let r ← answerOf refs world sourceInfo
            (isObjectMeetToConditionList refs world sourceInfo fuel) c
          .ok (v.and r)) conditions)
      fun store => ∀ k, store.lookup k = groupValue Condition.elseGroup ⟨true, false⟩ op conditions k := by
    refine groupValues_spec op rfl (fun v c hc => ?_) fun v c _ hskip => ?_
    · rw [hvalue c hc]
      rfl
    · have hmet : v.met = false := by simpa using hskip
      show (⟨v.met && value c, v.missing || false⟩ : Answer) = v
      rw [hmet, Bool.false_and, Bool.or_false, ← hmet]
  rw [isObjectMeetToConditionList, List.filter_eq_self.mpr hloaded, hstore]
  have hmet : (store.entries.any fun e => e.2.met) = decide (∃ c ∈ conditions, ∀ c' ∈ conditions,
      c'.elseGroup = c.elseGroup → value c' = true) := by
    rw [Bool.eq_iff_iff, List.any_eq_true, decide_eq_true_iff,
      exists_mem_entries store fun v => v.met = true]
    simp only [hlookup]
    exact (exists_groupValue_bit Answer.met value fun v c _ => rfl).trans (and_iff_right rfl)
  have hmissing : (store.entries.any fun e => e.2.missing) = false := by
    rw [Bool.eq_false_iff, ne_eq, List.any_eq_true, exists_mem_entries store fun v => v.missing = true]
    rintro ⟨k, v, hk, hv⟩
    rw [hlookup] at hk
    have hkept : v.missing = false :=
      groupValue_keeps (Q := fun v => v.missing = false) rfl (fun v c _ hv => by
        simpa [op, Answer.and] using hv) hk
    rw [hv] at hkept
    cases hkept
  show Except.ok _ = _
  rw [hmet, hmissing]

/-- The computation of a list's mask ends in no fault that none of its elements ends in. -/
theorem mask_avoids {bad : Fault} {fuel : ℕ} (hloaded : ∀ c ∈ conditions, c.isLoaded = true)
    (hmask : ∀ c ∈ conditions, Avoids bad
      (maskOf refs (getSearcherTypeMaskForConditionList refs fuel) c) fun _ => True) :
    Avoids bad (getSearcherTypeMaskForConditionList refs (fuel + 1) conditions) fun _ => True := by
  rw [getSearcherTypeMaskForConditionList]
  split
  · trivial
  · refine Avoids.bind (P := fun _ => True)
      (Avoids.foldlM conditions trivial fun store c hc _ => ?_) fun _ _ => .ok trivial
    rw [if_pos (hloaded c hc)]
    refine groupRound_avoids (fun v => ?_) store
    exact (hmask c hc).bind fun _ _ => .ok trivial

/-! ## References -/

/-- The evaluation of the list comes to the answer, and meets no missing reference on its way. -/
def Comes (refs : ConditionReferenceContainer) (world : World) (sourceInfo : ConditionSourceInfo)
    (conditions : ConditionContainer) (b : Bool) : Prop :=
  ∃ n, ∀ fuel ≥ n,
    isObjectMeetToConditionList refs world sourceInfo fuel conditions = .ok ⟨b, false⟩

/-- The computation of the list's type mask comes to its end, and meets no missing reference on its
way: the one fault that it may end in is a type that is not handled. -/
def MaskEnds (refs : ConditionReferenceContainer) (conditions : ConditionContainer) : Prop :=
  ∃ n, ∀ fuel ≥ n, ∀ fault,
    getSearcherTypeMaskForConditionList refs fuel conditions = .error fault → fault = .missingHandling

/-- The condition is met, or the list that it refers to is true. -/
def IsTrue (refs : ConditionReferenceContainer) (world : World) (sourceInfo : ConditionSourceInfo)
    (c : Condition) : Prop :=
  if c.referenceId ≠ 0 then
    ∃ conditions, refs.lookup c.referenceId = some conditions ∧
      Comes refs world sourceInfo conditions true
  else c.meets world sourceInfo = .ok true

/-- The reference templates, with their rows in another order. -/
def Reordered (refs refs' : ConditionReferenceContainer) : Prop :=
  ∀ id, Option.Rel List.Perm (refs.lookup id) (refs'.lookup id)

/-- The one template has a reference to the other. -/
def Refers (refs : ConditionReferenceContainer) (a b : ℕ) : Prop :=
  ∃ conditions, refs.lookup a = some conditions ∧ ∃ c ∈ conditions, c.referenceId = b ∧ b ≠ 0

variable {b : Bool}

theorem Comes.unique {b' : Bool} (h : Comes refs world sourceInfo conditions b)
    (h' : Comes refs world sourceInfo conditions b') : b = b' := by
  obtain ⟨n, hn⟩ := h
  obtain ⟨n', hn'⟩ := h'
  have heq := (hn (max n n') (le_max_left n n')).symm.trans (hn' (max n n') (le_max_right n n'))
  cases heq
  rfl

theorem Reordered.refl (refs : ConditionReferenceContainer) : Reordered refs refs := fun id => by
  cases refs.lookup id with
  | none => exact .none
  | some l => exact .some (List.Perm.refl l)

theorem Reordered.lookup {refs' : ConditionReferenceContainer} (h : Reordered refs refs') {id : ℕ}
    {l : ConditionContainer} (hl : refs.lookup id = some l) :
    ∃ l', refs'.lookup id = some l' ∧ l.Perm l' := by
  have hid := h id
  rw [hl] at hid
  cases hl' : refs'.lookup id with
  | none =>
    rw [hl'] at hid
    cases hid
  | some l' =>
    rw [hl'] at hid
    cases hid with
    | some hperm => exact ⟨l', rfl, hperm⟩

/-! ## Lists whose references come to an end -/

section Values

variable (refs world sourceInfo)

/-- The value of an element, from the fuel on and in every order of the templates. -/
def Worth (n : ℕ) (c : Condition) (b : Bool) : Prop :=
  ∀ refs', Reordered refs refs' → ∀ fuel ≥ n, answerOf refs' world sourceInfo
    (isObjectMeetToConditionList refs' world sourceInfo fuel) c = .ok ⟨b, false⟩

/-- The value of a list, from the fuel on and in every order. -/
def ListWorth (n : ℕ) (conditions : ConditionContainer) (b : Bool) : Prop :=
  ∀ refs', Reordered refs refs' → ∀ conditions', conditions.Perm conditions' → ∀ fuel ≥ n,
    isObjectMeetToConditionList refs' world sourceInfo fuel conditions' = .ok ⟨b, false⟩

end Values

theorem Worth.of_plain (href : c.referenceId = 0) (hvalid : g.isConditionTypeValid c = true) (n : ℕ) :
    ∃ b, Worth refs world sourceInfo n c b := by
  obtain ⟨b, hb, -⟩ : Yields (c.meets world sourceInfo) fun _ => True := meets_of_valid hvalid
  refine ⟨b, fun refs' _ fuel _ => ?_⟩
  rw [answerOf, if_neg (not_not.mpr href), hb]
  rfl

variable {n : ℕ}

theorem Worth.of_reference {l : ConditionContainer} (href : c.referenceId ≠ 0)
    (hl : refs.lookup c.referenceId = some l) (h : ListWorth refs world sourceInfo n l b) :
    Worth refs world sourceInfo n c b := by
  intro refs' hrefs fuel hfuel
  obtain ⟨l', hl', hperm⟩ := hrefs.lookup hl
  rw [answerOf, if_pos href, hl']
  exact h refs' hrefs l' hperm fuel hfuel

/-- The value of an element tells whether it is true. -/
theorem Worth.isTrue_iff (h : Worth refs world sourceInfo n c b) :
    b = true ↔ IsTrue refs world sourceInfo c := by
  have hself := h refs (.refl refs)
  by_cases href : c.referenceId = 0
  · have hmeets := hself n (le_refl n)
    rw [answerOf, if_neg (not_not.mpr href)] at hmeets
    obtain ⟨b', hb', hok⟩ := bind_eq_ok.mp hmeets
    cases hok
    rw [IsTrue, if_neg (not_not.mpr href), hb', Except.ok.injEq]
  · simp only [answerOf, if_pos (Ne.intro href)] at hself
    rw [IsTrue, if_pos href]
    cases hl : refs.lookup c.referenceId with
    | none =>
      simp only [hl] at hself
      cases hself n (le_refl n)
    | some l =>
      simp only [hl] at hself
      have hcomes : Comes refs world sourceInfo l b := ⟨n, hself⟩
      constructor
      · rintro rfl
        exact ⟨l, rfl, hcomes⟩
      · rintro ⟨l', hl', hcomes'⟩
        cases hl'
        exact hcomes.unique hcomes'

/-- **The value of a list**, from those of its elements. -/
theorem exists_listWorth (hloaded : ∀ c ∈ conditions, c.isLoaded = true)
    (hworth : ∀ c ∈ conditions, ∃ b, Worth refs world sourceInfo n c b) :
    ∃ b, ListWorth refs world sourceInfo (n + 1) conditions b ∧
      (b = true ↔ ∃ c ∈ conditions, ∀ c' ∈ conditions,
        c'.elseGroup = c.elseGroup → IsTrue refs world sourceInfo c') := by
  choose! value hvalue using hworth
  refine ⟨decide (∃ c ∈ conditions, ∀ c' ∈ conditions, c'.elseGroup = c.elseGroup → value c' = true),
    fun refs' hrefs conditions' hperm fuel hfuel => ?_, ?_⟩
  · obtain ⟨fuel, rfl⟩ : ∃ k, fuel = k + 1 := ⟨fuel - 1, by omega⟩
    rw [isObjectMeetToConditionList_eq (fun c hc => hloaded c (hperm.mem_iff.mpr hc))
      fun c hc => hvalue c (hperm.mem_iff.mpr hc) refs' hrefs fuel (by omega)]
    simp only [hperm.mem_iff]
  · rw [decide_eq_true_iff]
    refine exists_congr fun c => and_congr_right fun _ => ?_
    exact forall_congr' fun c' => forall_congr' fun hc' => imp_congr_right fun _ =>
      (hvalue c' hc').isTrue_iff

end Sunstrider.Conditions
