import Sunstrider.Laws.Conditions.Evaluation
import Sunstrider.Lib.Graph

/-!
# References between condition lists

Nothing at loading asks whether a referenced list is there, and of the circles of references only a
template that refers to itself is refused. A missing list is met when its reference is the first of its
group (`missing_of_head`), and a circle is followed for ever when on each of its templates the reference
to the next one comes first (`endless_of_circle`). So the evaluation comes to its end and meets no missing
reference, whatever the order of the rows, just if every reference leads to a template and no references
lead in a circle (`evaluates_iff`).
-/

namespace Sunstrider.Conditions

open Sunstrider.Lib

variable {g : GameData} {rows : List ConditionRow} {m : ConditionMgr}
  {refs : ConditionReferenceContainer} {world : World} {sourceInfo : ConditionSourceInfo}
  {c : Condition}

/-! ## References that come to an end -/

/-- The list is as `LoadConditions` leaves it, and its references lead to templates. -/
def Sound (g : GameData) (refs : ConditionReferenceContainer) (conditions : ConditionContainer) : Prop :=
  (∀ c ∈ conditions, c.Accepted g) ∧
    ∀ c ∈ conditions, c.referenceId ≠ 0 → ∃ l, refs.lookup c.referenceId = some l

/-- The mask of a list ends, from the fuel on and in every order. -/
def ListMaskEnds (refs : ConditionReferenceContainer) (n : ℕ) (conditions : ConditionContainer) :
    Prop :=
  ∀ refs', Reordered refs refs' → ∀ conditions', conditions.Perm conditions' → ∀ fuel ≥ n,
    ∀ bad, bad ≠ .missingHandling →
      Avoids bad (getSearcherTypeMaskForConditionList refs' fuel conditions') fun _ => True

/-- Both functions come to the end of the list, from the fuel on and in every order. -/
def Evaluates (refs : ConditionReferenceContainer) (world : World)
    (sourceInfo : ConditionSourceInfo) (n : ℕ) (conditions : ConditionContainer) : Prop :=
  (∃ b, ListWorth refs world sourceInfo n conditions b ∧
    (b = true ↔ ∃ c ∈ conditions, ∀ c' ∈ conditions,
      c'.elseGroup = c.elseGroup → IsTrue refs world sourceInfo c')) ∧
    ListMaskEnds refs n conditions

theorem getSearcherTypeMaskForCondition_avoids {bad : Fault} (hbad : bad ≠ .missingHandling) :
    Avoids bad c.getSearcherTypeMaskForCondition fun _ => True := by
  rw [Condition.getSearcherTypeMaskForCondition]
  split
  · trivial
  · cases c.conditionType
    case objectEntryGuid =>
      dsimp only
      split_ifs <;> trivial
    all_goals first
      | trivial
      | exact hbad.symm

variable {l : ConditionContainer}

/-- **One list**, where its references come to their ends. -/
theorem Evaluates.of_references {n : ℕ} (hl : Sound g refs l)
    (h : ∀ c ∈ l, c.referenceId ≠ 0 → ∀ l', refs.lookup c.referenceId = some l' →
      Evaluates refs world sourceInfo n l') : Evaluates refs world sourceInfo (n + 1) l := by
  have hloaded : ∀ c ∈ l, c.isLoaded = true := fun c hc => (hl.1 c hc).isLoaded
  refine ⟨exists_listWorth hloaded fun c hc => ?_,
    fun refs' hrefs l' hperm fuel hfuel bad hbad => ?_⟩
  · obtain href | ⟨href, hvalid⟩ := hl.1 c hc
    · obtain ⟨l', hl'⟩ := hl.2 c hc href
      obtain ⟨⟨b, hb, -⟩, -⟩ := h c hc href l' hl'
      exact ⟨b, Worth.of_reference href hl' hb⟩
    · exact Worth.of_plain href hvalid n
  · obtain ⟨fuel, rfl⟩ : ∃ k, fuel = k + 1 := ⟨fuel - 1, by omega⟩
    refine mask_avoids (fun c hc => hloaded c (hperm.mem_iff.mpr hc)) fun c hc => ?_
    have hc := hperm.mem_iff.mpr hc
    rw [maskOf]
    split
    next href =>
      obtain ⟨l₁, hl₁⟩ := hl.2 c hc href
      obtain ⟨l₂, hl₂, hperm₂⟩ := hrefs.lookup hl₁
      rw [hl₂]
      exact (h c hc href l₁ hl₁).2 refs' hrefs l₂ hperm₂ fuel (by omega) bad hbad
    · exact getSearcherTypeMaskForCondition_avoids hbad

/-- **The rule for lists whose references lead in no circle.** What a list has with one more fuel than
the lists that it refers to, every list has with some fuel. -/
theorem exists_fuel {P : ℕ → ConditionContainer → Prop} (Good : ConditionContainer → Prop)
    (hfound : ∀ l, Good l → ∀ c ∈ l, c.referenceId ≠ 0 → ∃ l', refs.lookup c.referenceId = some l')
    (htemplates : ∀ id l, refs.lookup id = some l → Good l) (hacyclic : Acyclic (Refers refs))
    (step : ∀ n l, Good l → (∀ c ∈ l, c.referenceId ≠ 0 → ∀ l', refs.lookup c.referenceId = some l' →
      P n l') → P (n + 1) l) (hl : Good l) : ∃ n, P n l := by
  obtain ⟨rank, hrank⟩ := exists_rank refs.keys.toFinset (fun a b hab => by
    obtain ⟨l, hl, c, hc, rfl, href⟩ := hab
    obtain ⟨l', hl'⟩ := hfound l (htemplates a l hl) c hc href
    rw [List.mem_toFinset, mem_keys_iff_lookup]
    exact ⟨l', hl'⟩) hacyclic
  have hbelow (n : ℕ) : ∀ id l, rank id < n → refs.lookup id = some l → P n l := by
    induction n with
    | zero => exact fun id l h => absurd h (Nat.not_lt_zero _)
    | succ n ih =>
      intro id l hid hl
      refine step n l (htemplates id l hl) fun c hc href l' hl' => ih c.referenceId l' ?_ hl'
      have := hrank id c.referenceId ⟨l, hl, c, hc, rfl, href⟩
      omega
  let n := l.toFinset.sup fun c => rank c.referenceId
  refine ⟨n + 2, step (n + 1) l hl fun c hc _ l' hl' => ?_⟩
  have hle : rank c.referenceId ≤ n :=
    Finset.le_sup (f := fun c : Condition => rank c.referenceId) (List.mem_toFinset.mpr hc)
  exact hbelow (n + 1) c.referenceId l' (by omega) hl'

/-- **Every list comes to its end** where no references lead in a circle. -/
theorem exists_evaluates (htemplates : ∀ id l, refs.lookup id = some l → Sound g refs l)
    (hacyclic : Acyclic (Refers refs)) (hl : Sound g refs l) :
    ∃ n, Evaluates refs world sourceInfo n l :=
  exists_fuel (Sound g refs) (fun _ hl => hl.2) htemplates hacyclic
    (fun _ _ hl h => .of_references hl h) hl

/-! ## References that do not -/

theorem missing_of_head (href : c.referenceId ≠ 0) (hmissing : refs.lookup c.referenceId = none)
    (fuel : ℕ) (conditions : ConditionContainer) :
    Answers (isObjectMeetToConditionList refs world sourceInfo fuel (c :: conditions))
      fun a => a.missing = true := by
  cases fuel with
  | zero => exact .error
  | succ fuel =>
    have hloaded : c.isLoaded = true := by simp [Condition.isLoaded, href]
    have hanswer (meetsList : ConditionContainer → Except Fault Answer) :
        answerOf refs world sourceInfo meetsList c = .ok ⟨true, true⟩ := by
      rw [answerOf, if_pos href, hmissing]
    rw [isObjectMeetToConditionList, List.filter_cons_of_pos hloaded, groupValues_cons, hanswer]
    refine Answers.bind (P := fun store => ∃ k v, store.lookup k = some v ∧ v.missing = true) ?_ ?_
    · refine foldlM_groupRound_keeps (fun v a hv => ?_)
        ⟨c.elseGroup, ⟨true, true⟩, AList.lookup_insert _, rfl⟩
      refine Answers.bind (P := fun _ => True) (fun _ _ => trivial) fun r _ => .ok ?_
      show (v.missing || r.missing) = true
      rw [hv, Bool.true_or]
    · intro store hstore
      refine .ok ?_
      rw [List.any_eq_true, exists_mem_entries store fun v => v.missing = true]
      exact hstore

/-- A list whose first reference is followed for ever. -/
theorem endless_of_head {fuel : ℕ} (href : c.referenceId ≠ 0)
    (hl : refs.lookup c.referenceId = some l)
    (hendless : isObjectMeetToConditionList refs world sourceInfo fuel l = .error .endless)
    (conditions : ConditionContainer) :
    isObjectMeetToConditionList refs world sourceInfo (fuel + 1) (c :: conditions) =
      .error .endless := by
  have hloaded : c.isLoaded = true := by simp [Condition.isLoaded, href]
  have hanswer : answerOf refs world sourceInfo
      (isObjectMeetToConditionList refs world sourceInfo fuel) c = .error .endless := by
    rw [answerOf, if_pos href, hl]
    exact hendless
  rw [isObjectMeetToConditionList, List.filter_cons_of_pos hloaded, groupValues_cons, hanswer]
  rfl

/-- The templates, each with a reference to the next one in front. -/
def inFront (next : ℕ → ℕ) (id : ℕ) (conditions : ConditionContainer) : ConditionContainer :=
  match conditions.find? fun c => c.referenceId = next id with
  | some c => c :: conditions.erase c
  | none => conditions

theorem inFront_perm (next : ℕ → ℕ) (id : ℕ) (conditions : ConditionContainer) :
    conditions.Perm (inFront next id conditions) := by
  rw [inFront]
  cases hc : conditions.find? fun c => c.referenceId = next id with
  | none => exact List.Perm.refl _
  | some c => exact List.perm_cons_erase (List.mem_of_find?_eq_some hc)

theorem inFront_reordered (next : ℕ → ℕ) (refs : ConditionReferenceContainer) :
    Reordered refs (mapValues (inFront next) refs) := fun id => by
  rw [lookup_mapValues]
  cases refs.lookup id with
  | none => exact .none
  | some l => exact .some (inFront_perm next id l)

/-- **A circle is followed for ever**, when on each of its templates the reference to the next one comes
first. -/
theorem endless_of_circle (next : ℕ → ℕ) (onCircle : ℕ → Prop)
    (hnext : ∀ id, onCircle id → Refers refs id (next id) ∧ onCircle (next id)) (fuel : ℕ) :
    ∀ id l, onCircle id → refs.lookup id = some l →
      isObjectMeetToConditionList (mapValues (inFront next) refs) world sourceInfo fuel
        (inFront next id l) = .error .endless := by
  induction fuel with
  | zero => exact fun _ _ _ _ => rfl
  | succ fuel ih =>
    intro id l hid hl
    obtain ⟨⟨l₀, hl₀, c, hc, href, hne⟩, hcircle⟩ := hnext id hid
    rw [hl] at hl₀
    cases hl₀
    -- the reference that is in front
    obtain ⟨c', hc'⟩ : ∃ c', (l.find? fun c => c.referenceId = next id) = some c' := by
      rw [← Option.isSome_iff_exists, List.find?_isSome]
      exact ⟨c, hc, decide_eq_true href⟩
    have href' : c'.referenceId = next id := by simpa using List.find?_some hc'
    -- and its template
    obtain ⟨l₁, hl₁, -⟩ := (hnext (next id) hcircle).1
    rw [inFront, hc']
    refine endless_of_head (by rw [href']; exact hne) ?_ (ih (next id) l₁ hcircle hl₁) _
    rw [href', lookup_mapValues, hl₁]
    rfl

/-! ## Every stored list -/

/-- Every reference of a stored list leads to a template. -/
def ConditionMgr.ReferencesFound (m : ConditionMgr) : Prop :=
  ∀ conditions, m.Stored conditions → ∀ c ∈ conditions, c.referenceId ≠ 0 →
    ∃ l, m.conditionReferenceStore.lookup c.referenceId = some l

/-- What is expected of a stored list: it has a value, true just if some element's group has only true
elements, and in every order of its rows and of those of the templates both functions come to their end,
the one with that value, and meet no missing reference. -/
def EvaluatesInEveryOrder (refs : ConditionReferenceContainer) (world : World)
    (sourceInfo : ConditionSourceInfo) (conditions : ConditionContainer) : Prop :=
  ∃ b, (b = true ↔ ∃ c ∈ conditions, ∀ c' ∈ conditions,
      c'.elseGroup = c.elseGroup → IsTrue refs world sourceInfo c') ∧
    ∀ refs' conditions', Reordered refs refs' → conditions.Perm conditions' →
      Comes refs' world sourceInfo conditions' b ∧ MaskEnds refs' conditions'

theorem Evaluates.inEveryOrder {n : ℕ} {conditions : ConditionContainer}
    (h : Evaluates refs world sourceInfo n conditions) :
    EvaluatesInEveryOrder refs world sourceInfo conditions := by
  obtain ⟨⟨b, hb, hiff⟩, hmask⟩ := h
  refine ⟨b, hiff, fun refs' conditions' hrefs hperm =>
    ⟨⟨n, hb refs' hrefs conditions' hperm⟩, n, fun fuel hfuel fault hfault => ?_⟩⟩
  by_contra hne
  have havoids := hmask refs' hrefs conditions' hperm fuel hfuel fault hne
  rw [hfault] at havoids
  exact havoids rfl

/-- A world in which nothing is met. -/
instance : Inhabited World := ⟨{
  isActiveEvent := fun _ => false
  worldState := fun _ => 0
  wowPatch := 0
  hasFaction := fun _ => false
  closestCreatureWithEntry := fun _ _ _ => false
  closestGameObjectWithEntry := fun _ _ _ => false
  isInPartyWith := fun _ _ => false
  isInRaidWith := fun _ _ => false
  reactionTo := fun _ _ => 0
  distance := fun _ _ => 0 }⟩

instance : Inhabited ConditionSourceInfo := ⟨⟨fun _ => none⟩⟩

/-- The other managers know nothing. -/
instance : Inhabited GameData := ⟨{
  lootTemplates := fun _ _ => none
  hasItemTemplate := fun _ => false
  spellInfo := fun _ => none
  hasCreatureTemplate := fun _ => false
  hasGameObjectTemplate := fun _ => false
  hasQuestTemplate := fun _ => false
  gossipMenus := []
  gossipMenuItems := []
  areaZone := fun _ => none
  hasFaction := fun _ => false
  hasSkillLine := fun _ => false
  configMaxSkillValue := 0
  isValidEvent := fun _ => false
  hasMap := fun _ => false
  creatureSpawnEntry := fun _ => none
  gameObjectSpawnEntry := fun _ => none
  worldState := fun _ => 0
  hasTitle := fun _ => false }⟩

/-- **Evaluation terminates and is an or of ands** on every loaded list, whatever the order of the rows,
just if every reference leads to a template and no references lead in a circle. -/
theorem evaluates_iff (hload : ConditionMgr.loadConditions g rows = .ok m) :
    (∀ conditions, m.Stored conditions → ∀ world sourceInfo,
      EvaluatesInEveryOrder m.conditionReferenceStore world sourceInfo conditions) ↔
    m.ReferencesFound ∧ Acyclic (Refers m.conditionReferenceStore) := by
  have hstored := loadConditions_stored hload
  constructor
  · refine fun h => ⟨fun conditions hconditions c hc href => ?_, fun id hcircle => ?_⟩
    · by_contra hmissing
      rw [← Option.isSome_iff_exists, Bool.not_eq_true, Option.isSome_eq_false_iff,
        Option.isNone_iff_eq_none] at hmissing
      obtain ⟨b, -, hall⟩ := h conditions hconditions default default
      obtain ⟨⟨n, hn⟩, -⟩ := hall m.conditionReferenceStore (c :: conditions.erase c) (.refl _)
        (List.perm_cons_erase hc)
      have hfound := missing_of_head href hmissing n (conditions.erase c) _ (hn n (le_refl n))
      cases hfound
    · obtain ⟨id', hid', hback⟩ := Relation.TransGen.head'_iff.mp hcircle
      obtain ⟨next, -, -, horbit⟩ := exists_circle hid' hback
      obtain ⟨l, hl, -⟩ := hid'
      obtain ⟨b, -, hall⟩ := h l (.inl ⟨id, hl⟩) default default
      obtain ⟨⟨n, hn⟩, -⟩ := hall _ (inFront next id l) (inFront_reordered next _)
        (inFront_perm next id l)
      have hcircle : ∀ a, (∃ i, next^[i] id = a) →
          Refers m.conditionReferenceStore a (next a) ∧ ∃ i, next^[i] id = next a := by
        rintro a ⟨i, rfl⟩
        rw [← Function.iterate_succ_apply' next]
        exact ⟨horbit i, i + 1, rfl⟩
      have hvalue := hn n (le_refl n)
      rw [endless_of_circle next _ hcircle n id l ⟨0, rfl⟩ hl] at hvalue
      cases hvalue
  · rintro ⟨hfound, hacyclic⟩ conditions hconditions world sourceInfo
    have hsound {l : ConditionContainer} (hl : m.Stored l) : Sound g m.conditionReferenceStore l := by
      refine ⟨fun c hc => ?_, hfound l hl⟩
      obtain ⟨row, -, hrow⟩ := (hstored l hl).2 c hc
      exact hrow.accepted
    obtain ⟨n, hn⟩ := exists_evaluates (fun id l hl => hsound (.inl ⟨id, hl⟩)) hacyclic
      (hsound hconditions)
    exact hn.inEveryOrder

/-! ## The rows of the table -/

/-- The references between the templates are those of their rows. -/
theorem refers_iff (hload : ConditionMgr.loadConditions g rows = .ok m) (a b : ℕ) :
    Refers m.conditionReferenceStore a b ↔ ∃ row ∈ rows, row.isTemplateOf g a = true ∧
      row.conditionTypeOrReference < 0 ∧ row.conditionTypeOrReference.natAbs = b := by
  have hmem {c : Condition} : c ∈ templateOf g rows a ↔
      ∃ row ∈ rows, row.isTemplateOf g a = true ∧ row.condition = c := by
    simp only [templateOf, List.mem_map, List.mem_filter, and_assoc]
  have hreference (row : ConditionRow) : row.condition.referenceId = b ∧ b ≠ 0 ↔
      row.conditionTypeOrReference < 0 ∧ row.conditionTypeOrReference.natAbs = b := by
    show (if row.conditionTypeOrReference < 0 then _ else 0) = b ∧ b ≠ 0 ↔ _
    split <;> omega
  have hlookup := loadConditions_references hload a
  constructor
  · rintro ⟨l, hl, c, hc, href⟩
    rw [hlookup] at hl
    split at hl
    · cases hl
    · cases hl
      obtain ⟨row, hrow, hof, rfl⟩ := hmem.mp hc
      exact ⟨row, hrow, hof, (hreference row).mp href⟩
  · rintro ⟨row, hrow, hof, href⟩
    have hc : row.condition ∈ templateOf g rows a := hmem.mpr ⟨row, hrow, hof, rfl⟩
    refine ⟨templateOf g rows a, ?_, row.condition, hc, (hreference row).mpr href⟩
    rw [hlookup, if_neg (List.ne_nil_of_mem hc)]

/-- It is enough that the table has a row for each template that its rows refer to. -/
theorem referencesFound_of_rows (hload : ConditionMgr.loadConditions g rows = .ok m)
    (h : ∀ row ∈ rows, row.conditionTypeOrReference < 0 →
      templateOf g rows row.conditionTypeOrReference.natAbs ≠ []) : m.ReferencesFound := by
  intro conditions hconditions c hc href
  obtain ⟨row, hrow, ⟨sourceGroup, errorType, errorTextId, rfl⟩, -⟩ :=
    (loadConditions_stored hload conditions hconditions).2 c hc
  have hid : row.condition.referenceId ≠ 0 := href
  have hneg : row.conditionTypeOrReference < 0 := by
    by_contra hpos
    exact hid (if_neg hpos)
  have heq : row.condition.referenceId = row.conditionTypeOrReference.natAbs := if_pos hneg
  refine ⟨templateOf g rows row.conditionTypeOrReference.natAbs, ?_⟩
  show m.conditionReferenceStore.lookup row.condition.referenceId = _
  rw [heq, loadConditions_references hload, if_neg (h row hrow hneg)]

/-! ## Tables that are loaded -/

/-- A spell's condition that refers to a template, which refers to another one. -/
def chainOfTemplates : List ConditionRow := [
  { sourceTypeOrReferenceId := -2, conditionTypeOrReference := 36 },
  { sourceTypeOrReferenceId := -1, conditionTypeOrReference := -2 },
  { sourceTypeOrReferenceId := 17, sourceEntry := 5, conditionTypeOrReference := -1 }]

/-- Two templates that refer to each other. -/
def circleOfTemplates : List ConditionRow := [
  { sourceTypeOrReferenceId := -1, conditionTypeOrReference := -2 },
  { sourceTypeOrReferenceId := -2, conditionTypeOrReference := -1 }]

theorem evaluates_chain : ∃ m, ConditionMgr.loadConditions default chainOfTemplates = .ok m ∧
    ∀ conditions, m.Stored conditions → ∀ world sourceInfo,
      EvaluatesInEveryOrder m.conditionReferenceStore world sourceInfo conditions := by
  obtain ⟨m, hm⟩ : ∃ m, ConditionMgr.loadConditions default chainOfTemplates = .ok m := ⟨_, rfl⟩
  refine ⟨m, hm, (evaluates_iff hm).mpr ⟨referencesFound_of_rows hm (by decide), fun a ha => ?_⟩⟩
  have hlt : ∀ a b, Refers m.conditionReferenceStore a b → a < b := by
    intro a b hab
    obtain ⟨row, hrow, hof, hneg, rfl⟩ := (refers_iff hm a b).mp hab
    simp only [chainOfTemplates, List.mem_cons, List.not_mem_nil, or_false] at hrow
    obtain rfl | rfl | rfl := hrow
    · exact absurd hneg (by decide)
    · have ha : 1 = a := by simpa [ConditionRow.isTemplateOf] using hof
      subst ha
      decide
    · simp [ConditionRow.isTemplateOf] at hof
  have hself := Relation.TransGen.mono hlt _ _ ha
  rw [Relation.transGen_eq_self] at hself
  exact lt_irrefl a hself

theorem circle_is_endless :
    ¬ ∀ (g : GameData) (rows : List ConditionRow) (m : ConditionMgr),
      ConditionMgr.loadConditions g rows = .ok m → ∀ conditions, m.Stored conditions →
        ∀ world sourceInfo,
          EvaluatesInEveryOrder m.conditionReferenceStore world sourceInfo conditions := by
  intro h
  obtain ⟨m, hm⟩ : ∃ m, ConditionMgr.loadConditions default circleOfTemplates = .ok m := ⟨_, rfl⟩
  let first : Condition := { referenceId := 2 }
  let second : Condition := { referenceId := 1 }
  have hfirst : m.conditionReferenceStore.lookup 1 = some [first] := by
    rw [loadConditions_references hm]
    rfl
  have hsecond : m.conditionReferenceStore.lookup 2 = some [second] := by
    rw [loadConditions_references hm]
    rfl
  have hendless (fuel : ℕ) :
      isObjectMeetToConditionList m.conditionReferenceStore default default fuel [first] =
          .error .endless ∧
        isObjectMeetToConditionList m.conditionReferenceStore default default fuel [second] =
          .error .endless := by
    induction fuel with
    | zero => exact ⟨rfl, rfl⟩
    | succ fuel ih =>
      exact ⟨endless_of_head (by decide) hsecond ih.2 [], endless_of_head (by decide) hfirst ih.1 []⟩
  obtain ⟨b, -, hall⟩ := h default circleOfTemplates m hm [first] (.inl ⟨1, hfirst⟩) default default
  obtain ⟨⟨n, hn⟩, -⟩ := hall m.conditionReferenceStore [first] (.refl _) (List.Perm.refl _)
  have hvalue := hn n (le_refl n)
  rw [(hendless n).1] at hvalue
  cases hvalue

end Sunstrider.Conditions
