import Sunstrider.Laws.Conditions.References

/-!
# Target pre-filtering

`GetSearcherTypeMaskForConditionList` tells a grid search which objects it need not ask. That is sound
where an object of another type is never accepted, and it is a mask only where no assertion fails.

For each type of condition the mask speaks of the object that the condition is about, though a search is
for condition target 0. So a condition about target 1 is filtered as if it were about the searched object,
unless its mask has every type or it relates the two targets. An achievement is met by everything and
filtered as if only players met it, and three kinds of conditions that loading lets through trip the
assertion: a faction, whose case has no `break`, a patch, and the numbers that have no name. The kinds of
conditions for which pre-filtering is sound are the others (`Filterable`). Which lists are filtered
soundly is more than a matter of kinds, and is left to the branches of the list.
-/

namespace Sunstrider.Conditions

open Sunstrider.Lib

variable {g : GameData} {m : ConditionMgr} {refs : ConditionReferenceContainer} {world : World}
  {sourceInfo : ConditionSourceInfo} {c : Condition} {object : WorldObject}

/-! ## Masks -/

/-- The grid type of the object is in the mask. -/
def WorldObject.InMask (object : WorldObject) (mask : BitVec 32) : Prop :=
  object.gridMapTypeMask &&& mask ≠ 0

/-- The number of the grid type's bit. -/
def WorldObject.gridBit (object : WorldObject) : ℕ :=
  match object.kind with
  | .corpse => 0
  | .creature _ _ => 1
  | .dynamicObject => 2
  | .gameObject _ => 3
  | .player _ _ => 4

theorem gridMapTypeMask_eq (object : WorldObject) :
    object.gridMapTypeMask = BitVec.twoPow 32 object.gridBit := by
  rw [WorldObject.gridMapTypeMask, WorldObject.gridBit]
  cases object.kind <;> rfl

theorem gridBit_lt (object : WorldObject) : object.gridBit < 5 := by
  rw [WorldObject.gridBit]
  cases object.kind <;> simp

/-- An object is in a mask that has its bit. -/
theorem inMask_iff (object : WorldObject) (mask : BitVec 32) :
    object.InMask mask ↔ mask.getLsbD object.gridBit = true := by
  have hlt : object.gridBit < 32 := (gridBit_lt object).trans (by decide)
  rw [WorldObject.InMask, gridMapTypeMask_eq, BitVec.and_comm, BitVec.and_twoPow]
  cases mask.getLsbD object.gridBit
  · simp
  · have hne : BitVec.twoPow 32 object.gridBit ≠ 0 := by
      intro h
      have hbit := congrArg (fun v => v.getLsbD object.gridBit) h
      simp [hlt] at hbit
    simpa using hne

theorem WorldObject.InMask.or_left {x : BitVec 32} (h : object.InMask x) (y : BitVec 32) :
    object.InMask (x ||| y) := by
  rw [inMask_iff] at h ⊢
  rw [BitVec.getLsbD_or, h, Bool.true_or]

theorem WorldObject.InMask.or_right {y : BitVec 32} (h : object.InMask y) (x : BitVec 32) :
    object.InMask (x ||| y) := by
  rw [inMask_iff] at h ⊢
  rw [BitVec.getLsbD_or, h, Bool.or_true]

theorem inMask_all (object : WorldObject) : object.InMask gridMapTypeMaskAll := by
  rw [WorldObject.InMask, WorldObject.gridMapTypeMask]
  cases object.kind <;> dsimp only <;> decide

theorem inMask_of_unit {unit : Unit} (h : object.toUnit = some unit) :
    object.InMask (gridMapTypeMaskCreature ||| gridMapTypeMaskPlayer) := by
  rw [WorldObject.InMask, WorldObject.gridMapTypeMask]
  rw [WorldObject.toUnit] at h
  cases hkind : object.kind <;> simp only [hkind, reduceCtorEq] at h ⊢ <;> decide

theorem inMask_of_player {player : Player} (h : object.toPlayer = some player) :
    object.InMask gridMapTypeMaskPlayer := by
  rw [WorldObject.InMask, WorldObject.gridMapTypeMask]
  rw [WorldObject.toPlayer] at h
  cases hkind : object.kind <;> simp only [hkind, reduceCtorEq] at h ⊢
  decide

theorem inMask_of_creature {creature : Creature} (h : object.toCreature = some creature) :
    object.InMask gridMapTypeMaskCreature := by
  rw [WorldObject.InMask, WorldObject.gridMapTypeMask]
  rw [WorldObject.toCreature] at h
  cases hkind : object.kind <;> simp only [hkind, reduceCtorEq] at h ⊢
  decide

theorem exists_of_any {T : Type} {part : Option T} {f : T → Bool}
    (h : (Except.ok (part.any f) : Except Fault Bool) = .ok true) : ∃ t, part = some t := by
  cases part with
  | none => cases h
  | some t => exact ⟨t, rfl⟩

/-- The three words for the type of an object agree. -/
theorem types_of_object (object : WorldObject) :
    object.typeId = typeIdUnit ∧ object.objectType = typeMaskObject ||| typeMaskUnit ∧
        object.gridMapTypeMask = gridMapTypeMaskCreature ∨
      object.typeId = typeIdPlayer ∧
        object.objectType = typeMaskObject ||| typeMaskUnit ||| typeMaskPlayer ∧
        object.gridMapTypeMask = gridMapTypeMaskPlayer ∨
      object.typeId = typeIdGameObject ∧ object.objectType = typeMaskObject ||| typeMaskGameObject ∧
        object.gridMapTypeMask = gridMapTypeMaskGameObject ∨
      object.typeId = typeIdDynamicObject ∧
        object.objectType = typeMaskObject ||| typeMaskDynamicObject ∧
        object.gridMapTypeMask = gridMapTypeMaskDynamicObject ∨
      object.typeId = typeIdCorpse ∧ object.objectType = typeMaskObject ||| typeMaskCorpse ∧
        object.gridMapTypeMask = gridMapTypeMaskCorpse := by
  rw [WorldObject.typeId, WorldObject.objectType, WorldObject.gridMapTypeMask]
  cases object.kind <;> simp

theorem inMask_of_typeId {type : BitVec 32} (h : object.typeId = type)
    (hne : type ≠ typeIdDynamicObject) :
    object.InMask (if type = typeIdUnit then gridMapTypeMaskCreature
      else if type = typeIdPlayer then gridMapTypeMaskPlayer
      else if type = typeIdGameObject then gridMapTypeMaskGameObject
      else if type = typeIdCorpse then gridMapTypeMaskCorpse else 0) := by
  subst h
  rw [WorldObject.InMask]
  obtain ⟨ht, -, hg⟩ | ⟨ht, -, hg⟩ | ⟨ht, -, hg⟩ | ⟨ht, -, -⟩ | ⟨ht, -, hg⟩ := types_of_object object
  case inr.inr.inr.inl => exact absurd ht hne
  all_goals
    rw [ht, hg]
    decide

theorem and_eq_zero_of_and_not {v x y : BitVec 32} (h : v &&& ~~~x = 0) (hy : y &&& ~~~x = y) :
    v &&& y = 0 := by
  rw [← hy, BitVec.and_comm y, ← BitVec.and_assoc, h]
  exact BitVec.zero_and

/-- An object of a type in a type mask is in the grid types that the mask is turned into. -/
theorem inMask_of_isType {value : BitVec 32} (h : object.isType value = true)
    (hvalid : value &&&
      ~~~(typeMaskUnit ||| typeMaskPlayer ||| typeMaskGameObject ||| typeMaskCorpse) = 0) :
    object.InMask
      ((if value &&& typeMaskUnit ≠ 0 then gridMapTypeMaskCreature ||| gridMapTypeMaskPlayer else 0) |||
        (if value &&& typeMaskPlayer ≠ 0 then gridMapTypeMaskPlayer else 0) |||
        (if value &&& typeMaskGameObject ≠ 0 then gridMapTypeMaskGameObject else 0) |||
        (if value &&& typeMaskCorpse ≠ 0 then gridMapTypeMaskCorpse else 0)) := by
  have hobject : value &&& typeMaskObject = 0 := and_eq_zero_of_and_not hvalid (by decide)
  have hdynamic : value &&& typeMaskDynamicObject = 0 := and_eq_zero_of_and_not hvalid (by decide)
  have hself {mask : BitVec 32} (h : object.gridMapTypeMask = mask) (hne : mask &&& mask ≠ 0) :
      object.InMask mask := by
    rw [WorldObject.InMask, h]
    exact hne
  have hbits (x y : BitVec 32) : value &&& (x ||| y) ≠ 0 → value &&& x ≠ 0 ∨ value &&& y ≠ 0 := by
    rw [BitVec.and_or_distrib_left]
    intro hne
    by_contra! h
    exact hne (by rw [h.1, h.2]; rfl)
  rw [WorldObject.isType, decide_eq_true_iff] at h
  obtain ⟨-, ho, hg⟩ | ⟨-, ho, hg⟩ | ⟨-, ho, hg⟩ | ⟨-, ho, -⟩ | ⟨-, ho, hg⟩ := types_of_object object
  all_goals rw [ho] at h
  · rw [if_pos ((hbits _ _ h).resolve_left (not_not.mpr hobject))]
    exact (((hself hg (by decide)).or_left _).or_left _).or_left _ |>.or_left _
  · obtain h | h := hbits _ _ h
    · rw [if_pos ((hbits _ _ h).resolve_left (not_not.mpr hobject))]
      exact (((hself hg (by decide)).or_right _).or_left _).or_left _ |>.or_left _
    · rw [if_pos h]
      exact (((hself hg (by decide)).or_right _).or_left _).or_left _
  · rw [if_pos ((hbits _ _ h).resolve_left (not_not.mpr hobject))]
    exact ((hself hg (by decide)).or_right _).or_left _
  · exact absurd ((hbits _ _ h).resolve_left (not_not.mpr hobject)) (not_not.mpr hdynamic)
  · rw [if_pos ((hbits _ _ h).resolve_left (not_not.mpr hobject))]
    exact (hself hg (by decide)).or_right _

/-! ## One condition -/

/-- The types whose mask has every type of object. -/
def ConditionTypes.searchesAll : ConditionTypes → Bool
  | .zoneId
  | .activeEvent
  | .instanceInfo
  | .mapId
  | .areaId
  | .nearCreature
  | .nearGameObject
  | .distanceTo
  | .worldState
  | .phaseMask
  | .spawnMask
  | .realmAchievement => true
  | _ => false

/-- The kinds of conditions, by their type and target, for which pre-filtering is sound. -/
def Filterable (type : ConditionTypes) (target : ℕ) : Bool :=
  match type with
  | .achievement => false
  | .faction => false
  | .wowPatch => false
  | .unnamed _ => false
  | .relationTo => true
  | .reactionTo => true
  | type => type.searchesAll || target = 0

theorem getSearcherTypeMaskForCondition_all (htype : c.conditionType.searchesAll = true) :
    c.getSearcherTypeMaskForCondition = .ok gridMapTypeMaskAll := by
  rw [Condition.getSearcherTypeMaskForCondition]
  split
  · rfl
  · cases h : c.conditionType <;> rw [h] at htype <;> first
      | rfl
      | cases htype

theorem condMeets_inMask {mask : BitVec 32} (hvalid : g.areValuesValid c = true)
    (htype : c.conditionType ≠ .achievement) (hneg : c.negativeCondition = false)
    (hmask : c.getSearcherTypeMaskForCondition = .ok mask)
    (hmeets : c.condMeets world sourceInfo object = .ok true) : object.InMask mask := by
  rw [Condition.getSearcherTypeMaskForCondition, hneg, if_neg Bool.false_ne_true] at hmask
  rw [Condition.condMeets] at hmeets
  rw [GameData.areValuesValid] at hvalid
  cases h : c.conditionType <;> simp only [h] at hmask hmeets hvalid htype
  case achievement => exact absurd rfl htype
  case terrainSwap | faction | wowPatch | unnamed => cases hmask
  -- a part of the object is asked for
  case aura | class_ | race | alive | unitState | inWater | standState | charmed =>
    cases hmask
    obtain ⟨unit, hunit⟩ := exists_of_any hmeets
    exact inMask_of_unit hunit
  case itemEquipped | reputationRank | team | gender | skill | questRewarded | questTaken |
      questComplete | questNone | spell | drunkenState | title | dailyQuestDone | petType |
      questState =>
    cases hmask
    obtain ⟨player, hplayer⟩ := exists_of_any hmeets
    exact inMask_of_player hplayer
  case creatureType =>
    cases hmask
    obtain ⟨creature, hcreature⟩ := exists_of_any hmeets
    exact inMask_of_creature hcreature
  case item =>
    cases hmask
    cases hplayer : object.toPlayer with
    | none =>
      rw [hplayer] at hmeets
      cases hmeets
    | some player => exact inMask_of_player hplayer
  case taxi =>
    cases hmask
    cases hplayer : object.toPlayer with
    | none =>
      rw [hplayer] at hmeets
      cases hmeets
    | some player => exact inMask_of_player hplayer
  case level | hpVal | hpPct =>
    cases hmask
    cases hunit : object.toUnit with
    | none =>
      rw [hunit] at hmeets
      cases hmeets
    | some unit => exact inMask_of_unit hunit
  -- the object and another target are both units
  case relationTo | reactionTo =>
    cases hmask
    obtain ⟨toObject, -, hmeets⟩ := bind_eq_ok.mp hmeets
    cases hunit : object.toUnit with
    | none => cases toObject <;> simp [hunit] at hmeets
    | some unit => exact inMask_of_unit hunit
  case objectEntryGuid =>
    split at hmeets
    next htypeId =>
      have hne : c.conditionValue1 ≠ typeIdDynamicObject := by
        intro heq
        rw [heq, if_neg (by decide), if_neg (by decide)] at hvalid
        exact absurd hvalid (by decide)
      have hin := inMask_of_typeId htypeId hne
      split_ifs at hmask hin <;> cases hmask <;> exact hin
    · cases hmeets
  case typeMask =>
    cases hmask
    rw [Bool.and_eq_true, decide_eq_true_iff, decide_eq_true_iff] at hvalid
    exact inMask_of_isType (Except.ok.inj hmeets) hvalid.2
  all_goals
    cases hmask
    exact inMask_all object

theorem condMeets_selected {toObject : WorldObject}
    (htype : c.conditionType = .relationTo ∨ c.conditionType = .reactionTo)
    (hselected : sourceInfo.target c.conditionValue1.toNat = .ok (some toObject))
    (hmeets : c.condMeets world sourceInfo object = .ok true) :
    toObject.InMask (gridMapTypeMaskCreature ||| gridMapTypeMaskPlayer) := by
  rw [Condition.condMeets] at hmeets
  obtain htype | htype := htype <;> simp only [htype, hselected] at hmeets
  all_goals
    cases hunit : toObject.toUnit with
    | none => simp [bind, Except.bind, hunit] at hmeets
    | some unit => exact inMask_of_unit hunit

theorem exists_mask (hvalid : g.isConditionTypeValid c = true)
    (hkind : c.negativeCondition = false → Filterable c.conditionType c.conditionTarget = true) :
    ∃ mask, c.getSearcherTypeMaskForCondition = .ok mask := by
  rw [Condition.getSearcherTypeMaskForCondition]
  cases hneg : c.negativeCondition with
  | true => exact ⟨_, rfl⟩
  | false =>
    have hkind := hkind hneg
    cases htype : c.conditionType
    case objectEntryGuid =>
      dsimp only
      split_ifs <;> exact ⟨_, rfl⟩
    case terrainSwap =>
      simp [GameData.isConditionTypeValid, GameData.areValuesValid, htype] at hvalid
    case faction | wowPatch | unnamed =>
      rw [htype] at hkind
      cases hkind
    all_goals exact ⟨_, rfl⟩

/-- **One condition.** Where its kind is filterable, it accepts a searched object only of a type in its
mask. -/
theorem meets_inMask {mask : BitVec 32} (hvalid : g.isConditionTypeValid c = true)
    (hkind : c.negativeCondition = false → Filterable c.conditionType c.conditionTarget = true)
    (hmask : c.getSearcherTypeMaskForCondition = .ok mask)
    (hobject : sourceInfo.mConditionTargets 0 = some object)
    (hmeets : c.meets world sourceInfo = .ok true) : object.InMask mask := by
  cases hneg : c.negativeCondition with
  | true =>
    rw [Condition.getSearcherTypeMaskForCondition, hneg, if_pos rfl] at hmask
    cases hmask
    exact inMask_all object
  | false =>
    have hkind := hkind hneg
    rw [GameData.isConditionTypeValid, Bool.and_eq_true, Bool.and_eq_true, decide_eq_true_iff] at hvalid
    obtain ⟨⟨-, htarget⟩, hvalues⟩ := hvalid
    have hpatch : c.conditionType ≠ .wowPatch := by
      intro htype
      rw [htype] at hkind
      cases hkind
    have hachievement : c.conditionType ≠ .achievement := by
      intro htype
      rw [htype] at hkind
      cases hkind
    -- the object that the condition is about
    obtain ⟨found, hfound, hmeets⟩ := bind_eq_ok.mp hmeets
    cases found with
    | none => cases hmeets
    | some about =>
    have hmeets : c.condMeets world sourceInfo about = .ok true := by
      simp only [if_neg hpatch, hneg, if_neg Bool.false_ne_true] at hmeets
      obtain ⟨b, hb, hok⟩ := bind_eq_ok.mp hmeets
      cases hok
      exact hb
    have hin := condMeets_inMask hvalues hachievement hneg hmask hmeets
    have hsearched : sourceInfo.target 0 = .ok (some object) := by
      rw [ConditionSourceInfo.target, dif_pos (by decide)]
      exact congrArg Except.ok hobject
    by_cases hzero : c.conditionTarget = 0
    · rw [hzero, hsearched] at hfound
      cases hfound
      exact hin
    · by_cases hall : c.conditionType.searchesAll = true
      · rw [getSearcherTypeMaskForCondition_all hall] at hmask
        cases hmask
        exact inMask_all object
      · -- a relation of target 1 to the searched object
        have htype : c.conditionType = .relationTo ∨ c.conditionType = .reactionTo := by
          cases htype : c.conditionType <;> rw [htype] at hkind hall <;>
            simp_all [Filterable, ConditionTypes.searchesAll]
        have hmax := maxTargets_le c
        have hselect : c.conditionValue1.toNat = 0 := by
          have hselection : GameData.isTargetSelectionValid c = true := by
            obtain htype | htype := htype <;>
              · simp only [GameData.areValuesValid, htype, Bool.and_eq_true] at hvalues
                exact hvalues.1
          rw [GameData.isTargetSelectionValid, Bool.and_eq_true, decide_eq_true_iff,
            decide_eq_true_iff] at hselection
          omega
        have hunits : mask = gridMapTypeMaskCreature ||| gridMapTypeMaskPlayer := by
          rw [Condition.getSearcherTypeMaskForCondition, hneg, if_neg Bool.false_ne_true] at hmask
          obtain htype | htype := htype <;>
            · simp only [htype, Except.ok.injEq] at hmask
              exact hmask.symm
        rw [hunits]
        exact condMeets_selected htype (by rw [hselect, hsearched]) hmeets

end Sunstrider.Conditions
