import Mathlib.Algebra.GroupWithZero.Nat
import Mathlib.Data.List.Basic
import Sunstrider.Player.Skills

/-!
# Which skills are restored

The rows that are valid are put one behind the other, up to the limit of the client (`Holds.loadRows`). The step of a
skill is looked for at the first entry of its tier only (`skillStep_eq`), so it is restored just if the skill's maximum
is at no later entry (`skills_restored_iff`).
-/

namespace Sunstrider.Skills

open Lib (lookup_insert_ite)

/-! ## The step -/

theorem stepLoop_eq (skillTier : SkillTiersEntry) (max : UInt16) (skillStep i : Fin maxSkillStep)
    (rest : List (Fin maxSkillStep)) :
    skillTier.stepLoop max skillStep (i :: rest) =
      if skillTier.maxSkill skillStep = max.toUInt32 then (i.val + 1).toUInt16 else skillStep.val.toUInt16 := by
  induction rest generalizing i with
  | nil => rfl
  | cons j rest ih =>
    rw [SkillTiersEntry.stepLoop]
    by_cases h : skillTier.maxSkill skillStep = max.toUInt32
    · rw [if_pos h, if_pos h]
    · rw [if_neg h, if_neg h, ih j, if_neg h]

variable {stores : Stores}

theorem skillStep_eq (saved : SavedSkill) :
    stores.skillStep saved =
      if (stores.skillTiersStore saved.skillTier).any fun t => t.maxSkill 0 = saved.max.toUInt32 then 1 else 0 := by
  rw [Stores.skillStep]
  cases stores.skillTiersStore saved.skillTier with
  | none => rfl
  | some skillTier =>
    have hrange : List.finRange maxSkillStep = 0 :: (List.finRange 15).map Fin.succ := List.finRange_succ ..
    show skillTier.stepLoop saved.max 0 (List.finRange maxSkillStep) = _
    rw [hrange, stepLoop_eq]
    simp

scoped instance neZero_steps : NeZero maxSkillStep := ⟨by decide⟩

/-- The step is the place of the maximum in its tier, from 1 on, or 0 if it is not there. -/
def IsStep (stores : Stores) (saved : SavedSkill) (step : UInt16) : Prop :=
  (∀ t ∈ stores.skillTiersStore saved.skillTier, ∀ k, t.maxSkill k = saved.max.toUInt32 →
      step = (k.val + 1).toUInt16) ∧
    ((∀ t ∈ stores.skillTiersStore saved.skillTier, ∀ k, t.maxSkill k ≠ saved.max.toUInt32) → step = 0)

/-- No entry of the tier but the first is the maximum. -/
def FirstOnly (stores : Stores) (saved : SavedSkill) : Prop :=
  ∀ t ∈ stores.skillTiersStore saved.skillTier, ∀ k, k ≠ 0 → t.maxSkill k ≠ saved.max.toUInt32

theorem step_ne_zero : ∀ k : Fin maxSkillStep, (k.val + 1).toUInt16 ≠ 0 := by decide

theorem step_eq_one_iff : ∀ k : Fin maxSkillStep, (k.val + 1).toUInt16 = 1 ↔ k = 0 := by decide

theorem isStep_skillStep_iff (saved : SavedSkill) :
    IsStep stores saved (stores.skillStep saved) ↔ FirstOnly stores saved := by
  rw [skillStep_eq, IsStep, FirstOnly]
  cases stores.skillTiersStore saved.skillTier with
  | none => simp
  | some t =>
    simp only [Option.mem_some_iff, forall_eq', Option.any_some, decide_eq_true_eq]
    constructor
    · rintro ⟨hstep, -⟩ k hk heq
      have hk' := hstep k heq
      split at hk'
      · exact hk ((step_eq_one_iff k).mp hk'.symm)
      · exact step_ne_zero k hk'.symm
    · refine fun h => ⟨fun k heq => ?_, fun hnone => if_neg (hnone 0)⟩
      obtain rfl : k = 0 := by
        by_contra hk
        exact h k hk heq
      exact if_pos heq

/-! ## Pairs -/

theorem toNat_makePair32 (l h : UInt16) : (makePair32 l h).toNat = h.toNat * 2 ^ 16 + l.toNat := by
  have hl := l.toNat_lt
  have hh := h.toNat_lt
  have hshift : (h.toUInt32 <<< 16).toNat = h.toNat <<< 16 := by
    exact Nat.mod_eq_of_lt (by rw [Nat.shiftLeft_eq]; show h.toNat * 2 ^ 16 < 2 ^ 32; omega)
  rw [makePair32, UInt32.or_comm, UInt32.toNat_or, hshift, UInt16.toNat_toUInt32,
    ← Nat.shiftLeft_add_eq_or_of_lt hl, Nat.shiftLeft_eq]

theorem makePair32_inj {l l' h h' : UInt16} (heq : makePair32 l h = makePair32 l' h') : l = l' ∧ h = h' := by
  have hnat := congrArg UInt32.toNat heq
  rw [toNat_makePair32, toNat_makePair32] at hnat
  have hl := l.toNat_lt
  have hl' := l'.toNat_lt
  exact ⟨UInt16.toNat_inj.mp (by omega), UInt16.toNat_inj.mp (by omega)⟩

/-! ## The rows that are put -/

/-- The skills of the valid rows, in their order. -/
def validSkills (stores : Stores) (race class_ : UInt8) (rows : List SkillRow) : List SavedSkill :=
  rows.filterMap fun row =>
    match stores.readRow race class_ row with
    | .valid saved => some saved
    | _ => none

/-- The fields of a skill. -/
def FieldsAt (values : ℕ → UInt32) (x : ℕ) (skill value bonus : UInt32) : Prop :=
  values (x * 3) = skill ∧ values (x * 3 + 1) = value ∧ values (x * 3 + 2) = bonus

section Put

variable (p : Player) (x : ℕ) (skill value bonus : UInt32)

theorem fieldsAt_setSkillFields : FieldsAt (p.setSkillFields x skill value bonus).uint32Values x skill value bonus := by
  simp [FieldsAt, Player.setSkillFields]

theorem setSkillFields_of_ne {index : ℕ} (h : index / 3 ≠ x) :
    (p.setSkillFields x skill value bonus).uint32Values index = p.uint32Values index := by
  simp only [Player.setSkillFields]
  rw [if_neg (by omega), if_neg (by omega), if_neg (by omega)]

theorem FieldsAt.congr {values values' : ℕ → UInt32} (h : FieldsAt values x skill value bonus)
    (hsame : ∀ index, index / 3 = x → values' index = values index) : FieldsAt values' x skill value bonus := by
  obtain ⟨hskill, hvalue, hbonus⟩ := h
  exact ⟨(hsame _ (by omega)).trans hskill, (hsame _ (by omega)).trans hvalue, (hsame _ (by omega)).trans hbonus⟩

variable (data : SkillStatusData)

@[simp] theorem insertSkillStatus_uint32Values :
    (p.insertSkillStatus skill data).uint32Values = p.uint32Values := by
  unfold Player.insertSkillStatus
  split <;> rfl

@[simp] theorem insertSkillStatus_race : (p.insertSkillStatus skill data).race = p.race := by
  unfold Player.insertSkillStatus
  split <;> rfl

@[simp] theorem insertSkillStatus_class_ : (p.insertSkillStatus skill data).class_ = p.class_ := by
  unfold Player.insertSkillStatus
  split <;> rfl

theorem lookup_insertSkillStatus (skill' : UInt32) :
    (p.insertSkillStatus skill data).skillStatus.lookup skill' =
      (p.skillStatus.lookup skill').or (if skill' = skill then some data else none) := by
  unfold Player.insertSkillStatus
  split
  next hmem =>
    by_cases heq : skill' = skill
    · obtain ⟨old, hold⟩ := Option.isSome_iff_exists.mp (AList.lookup_isSome.mpr hmem)
      rw [heq, hold]
      rfl
    · rw [if_neg heq, Option.or_none]
  next hmem =>
    rw [lookup_insert_ite]
    by_cases heq : skill' = skill
    · rw [if_pos heq, if_pos heq, heq, AList.lookup_eq_none.mpr hmem, Option.none_or]
    · rw [if_neg heq, if_neg heq, Option.or_none]

end Put

/-- The skills are put one behind the other, and nothing is put behind them. -/
structure Holds (stores : Stores) (p : Player) (skills : List SavedSkill) (s : Loading) : Prop where
  count : s.count = skills.length
  race : s.player.race = p.race
  class_ : s.player.class_ = p.class_
  fields : ∀ i saved, skills[i]? = some saved →
    FieldsAt s.player.uint32Values i (makePair32 saved.skill (stores.skillStep saved))
      (makePair32 saved.value saved.max) 0
  rest : ∀ index, skills.length * 3 ≤ index → s.player.uint32Values index = p.uint32Values index
  status : ∀ skill, s.player.skillStatus.lookup skill =
    (skills.findIdx? fun saved => saved.skill.toUInt32 = skill).map fun i => ⟨i.toUInt8, .unchanged⟩

namespace Holds

variable {p : Player} {skills : List SavedSkill} {s : Loading}

theorem start (hfresh : p.skillStatus = ∅) : Holds stores p [] ⟨p, 0, ∅⟩ where
  count := rfl
  race := rfl
  class_ := rfl
  fields i saved h := by cases h
  rest _ _ := rfl
  status skill := by simp [hfresh]

theorem delete (h : Holds stores p skills s) (skill : UInt16) : Holds stores p skills (s.delete skill) :=
  ⟨h.count, h.race, h.class_, h.fields, h.rest, h.status⟩

theorem put (h : Holds stores p skills s) (saved : SavedSkill) :
    Holds stores p (skills ++ [saved]) (s.put stores saved) where
  count := by rw [Loading.put, h.count, List.length_append, List.length_singleton]
  race := by simpa [Loading.put, Player.setSkillFields] using h.race
  class_ := by simpa [Loading.put, Player.setSkillFields] using h.class_
  fields i a ha := by
    rw [Loading.put, insertSkillStatus_uint32Values, h.count]
    rcases Nat.lt_trichotomy i skills.length with hi | rfl | hi
    · rw [List.getElem?_append_left hi] at ha
      exact (h.fields i a ha).congr _ _ _ _ fun index hindex => setSkillFields_of_ne _ _ _ _ _ (by omega)
    · rw [List.getElem?_concat_length] at ha
      cases ha
      exact fieldsAt_setSkillFields ..
    · rw [List.getElem?_eq_none (by rw [List.length_append, List.length_singleton]; omega)] at ha
      cases ha
  rest index hindex := by
    rw [List.length_append, List.length_singleton] at hindex
    rw [Loading.put, insertSkillStatus_uint32Values, h.count, setSkillFields_of_ne _ _ _ _ _ (by omega)]
    exact h.rest index (by omega)
  status skill := by
    have hlast : ([saved].findIdx? fun a => a.skill.toUInt32 = skill) =
        if skill = saved.skill.toUInt32 then some 0 else none := by
      simp [List.findIdx?_cons, eq_comm]
    have hold : (s.player.setSkillFields s.count (makePair32 saved.skill (stores.skillStep saved))
        (makePair32 saved.value saved.max) 0).skillStatus = s.player.skillStatus := rfl
    rw [Loading.put, lookup_insertSkillStatus, List.findIdx?_append, Option.map_or, hold, h.status skill, hlast,
      h.count]
    split <;> simp

theorem loadRows (h : Holds stores p skills s) (rows : List SkillRow) (hlimit : skills.length < playerMaxSkills) :
    Holds stores p
      (skills ++ (validSkills stores p.race p.class_ rows).take (playerMaxSkills - skills.length))
      (Loading.loadRows stores rows s) := by
  induction rows generalizing skills s with
  | nil => simpa [validSkills, Loading.loadRows] using h
  | cons row rows ih =>
    rw [Loading.loadRows, validSkills, List.filterMap_cons, h.race, h.class_]
    cases hread : stores.readRow p.race p.class_ row with
    | incompatible => exact ih h hlimit
    | valueless skill => exact ih (h.delete skill) hlimit
    | valid saved =>
      have hput := h.put saved
      have hlength : (skills ++ [saved]).length = skills.length + 1 := List.length_append
      have hleft : playerMaxSkills - skills.length = playerMaxSkills - (skills.length + 1) + 1 := by omega
      have htake (rest : List SavedSkill) :
          skills ++ (saved :: rest).take (playerMaxSkills - skills.length) =
            skills ++ [saved] ++ rest.take (playerMaxSkills - (skills ++ [saved]).length) := by
        rw [hleft, List.take_succ_cons, hlength, List.append_assoc, List.singleton_append]
      show Holds stores p (skills ++ (saved :: validSkills stores p.race p.class_ rows).take _)
        (if playerMaxSkills ≤ (s.put stores saved).count then s.put stores saved
          else Loading.loadRows stores rows (s.put stores saved))
      rw [htake]
      by_cases hfull : playerMaxSkills ≤ (s.put stores saved).count
      · rw [hput.count] at hfull
        rw [if_pos (by rw [hput.count]; exact hfull), Nat.sub_eq_zero_of_le hfull, List.take_zero, List.append_nil]
        exact hput
      · rw [if_neg hfull]
        rw [hput.count] at hfull
        exact ih hput (by omega)

end Holds

/-! ## The fields that are left -/

theorem clear_uint32Values (p : Player) (n count index : ℕ) :
    ((List.range' count n).foldl (fun p x => p.setSkillFields x 0 0 0) p).uint32Values index =
      if count ≤ index / 3 ∧ index / 3 < count + n then 0 else p.uint32Values index := by
  induction n generalizing p count with
  | zero => rw [if_neg (by omega)]; rfl
  | succ n ih =>
    rw [List.range'_succ, List.foldl_cons, ih]
    by_cases hcount : index / 3 = count
    · have hzero : (p.setSkillFields count 0 0 0).uint32Values index = 0 := by
        simp only [Player.setSkillFields]
        split_ifs <;> first | rfl | omega
      rw [if_neg (by omega), if_pos (by omega), hzero]
    · rw [setSkillFields_of_ne _ _ _ _ _ hcount]
      have hrange : (count + 1 ≤ index / 3 ∧ index / 3 < count + 1 + n) ↔
          (count ≤ index / 3 ∧ index / 3 < count + (n + 1)) := by omega
      simp only [hrange]

theorem clear_skillStatus (p : Player) (xs : List ℕ) :
    (xs.foldl (fun p x => p.setSkillFields x 0 0 0) p).skillStatus = p.skillStatus := by
  induction xs generalizing p with
  | nil => rfl
  | cons x xs ih => exact ih _

theorem clearFrom_uint32Values {p : Player} {count : ℕ} (hcount : count ≤ playerMaxSkills) (index : ℕ) :
    (p.clearFrom count).uint32Values index =
      if count ≤ index / 3 ∧ index / 3 < playerMaxSkills then 0 else p.uint32Values index := by
  rw [Player.clearFrom, clear_uint32Values, Nat.add_sub_cancel' hcount]

/-! ## Loading -/

/-- The skills that are loaded. -/
def loadedSkills (stores : Stores) (p : Player) (rows : List SkillRow) : List SavedSkill :=
  (validSkills stores p.race p.class_ rows).take playerMaxSkills

/-- Every skill that is loaded has its fields, with the step of its maximum, and its place in the status map; the fields
behind them are empty, and nothing is written behind the last. -/
structure Restored (stores : Stores) (p : Player) (rows : List SkillRow) (p' : Player) : Prop where
  fields : ∀ i saved, (loadedSkills stores p rows)[i]? = some saved → ∃ step, IsStep stores saved step ∧
    FieldsAt p'.uint32Values i (makePair32 saved.skill step) (makePair32 saved.value saved.max) 0
  status : ∀ (i : ℕ) (saved : SavedSkill), (loadedSkills stores p rows)[i]? = some saved →
    p'.skillStatus.lookup saved.skill.toUInt32 = some ⟨i.toUInt8, .unchanged⟩
  cleared : ∀ x, (loadedSkills stores p rows).length ≤ x → x < playerMaxSkills → FieldsAt p'.uint32Values x 0 0 0
  beyond : ∀ index, playerMaxSkills * 3 ≤ index → p'.uint32Values index = p.uint32Values index

section Load

variable {env : Env} {p : Player} {rows : List SkillRow}

variable {saved : SavedSkill}

theorem readRow_skill {race class_ : UInt8} {row : SkillRow}
    (h : stores.readRow race class_ row = .valid saved) : saved.skill = row.skill.toUInt16 := by
  have hput (value max : UInt16) (tier : UInt32)
      (h : (if value = 0 then ReadRow.valueless row.skill.toUInt16
        else .valid ⟨row.skill.toUInt16, value, max, tier⟩) = .valid saved) : saved.skill = row.skill.toUInt16 := by
    split at h
    · cases h
    · cases h
      rfl
  unfold Stores.readRow at h
  dsimp only at h
  split at h
  · cases h
  · exact hput _ _ _ h

theorem exists_row_of_mem (h : saved ∈ loadedSkills stores p rows) :
    ∃ row ∈ rows, saved.skill = row.skill.toUInt16 := by
  obtain ⟨row, hrow, hread⟩ := List.mem_filterMap.mp (List.mem_of_mem_take h)
  split at hread
  · next hvalid =>
    cases hread
    exact ⟨row, hrow, readRow_skill hvalid⟩
  · cases hread

theorem length_loadedSkills_le (stores : Stores) (p : Player) (rows : List SkillRow) :
    (loadedSkills stores p rows).length ≤ playerMaxSkills :=
  List.length_take_le ..

theorem findIdx?_of_nodup {skills : List SavedSkill} (hnodup : (skills.map (·.skill)).Nodup) {i : ℕ}
    (hi : skills[i]? = some saved) :
    (skills.findIdx? fun a => a.skill.toUInt32 = saved.skill.toUInt32) = some i := by
  obtain ⟨hlt, rfl⟩ := List.getElem?_eq_some_iff.mp hi
  have hpairs := List.pairwise_iff_getElem.mp (List.pairwise_map.mp hnodup)
  refine List.findIdx?_eq_some_iff_getElem.mpr ⟨hlt, decide_eq_true rfl, fun j hj => ?_⟩
  have hne := hpairs j i (by omega) hlt hj
  simpa only [decide_eq_true_eq] using fun heq => hne (UInt16.toUInt32_inj.mp heq)

theorem loadSkills_eq (hquiet : env.learnSkillRewardedSpells = fun _ _ p => p)
    (hfist : ∀ row ∈ rows, row.skill.toUInt16.toUInt32 ≠ skillFistWeapons) (hfresh : p.skillStatus = ∅) :
    ∃ s, Holds env.toStores p (loadedSkills env.toStores p rows) s ∧
      env.loadSkills rows p = s.player.clearFrom s.count := by
  let s := Loading.loadRows env.toStores rows ⟨p, 0, ∅⟩
  have hs : Holds env.toStores p (loadedSkills env.toStores p rows) s :=
    (Holds.start hfresh).loadRows rows (by decide)
  have hnone : s.player.skillStatus.lookup skillFistWeapons = none := by
    rw [hs.status, Option.map_eq_none_iff, List.findIdx?_eq_none_iff]
    intro saved hsaved
    obtain ⟨row, hrow, hskill⟩ := exists_row_of_mem hsaved
    exact decide_eq_false (hskill ▸ hfist row hrow)
  have hhas : (s.player.clearFrom s.count).hasSkill skillFistWeapons = false := by
    rw [Player.hasSkill, Player.clearFrom, clear_skillStatus, hnone]
    rfl
  have hfold (entries : List (Sigma fun _ : UInt32 => UInt32)) (q : Player) :
      entries.foldl (fun p _ => p) q = q := List.foldl_fixed ..
  refine ⟨s, hs, ?_⟩
  simp only [Env.loadSkills, hquiet, hfold]
  exact if_neg (by rw [hhas]; exact Bool.false_ne_true)

/-- The player after the loading: the rows that are put, with the step that the code finds. -/
structure Loaded (stores : Stores) (p : Player) (rows : List SkillRow) (p' : Player) : Prop where
  fields : ∀ i saved, (loadedSkills stores p rows)[i]? = some saved →
    FieldsAt p'.uint32Values i (makePair32 saved.skill (stores.skillStep saved)) (makePair32 saved.value saved.max) 0
  status : ∀ skill, p'.skillStatus.lookup skill =
    ((loadedSkills stores p rows).findIdx? fun saved => saved.skill.toUInt32 = skill).map
      fun i => ⟨i.toUInt8, .unchanged⟩
  cleared : ∀ x, (loadedSkills stores p rows).length ≤ x → x < playerMaxSkills → FieldsAt p'.uint32Values x 0 0 0
  beyond : ∀ index, playerMaxSkills * 3 ≤ index → p'.uint32Values index = p.uint32Values index

theorem loaded_loadSkills (hquiet : env.learnSkillRewardedSpells = fun _ _ p => p)
    (hfist : ∀ row ∈ rows, row.skill.toUInt16.toUInt32 ≠ skillFistWeapons) (hfresh : p.skillStatus = ∅) :
    Loaded env.toStores p rows (env.loadSkills rows p) := by
  obtain ⟨s, hs, hload⟩ := loadSkills_eq hquiet hfist hfresh
  have hlength := length_loadedSkills_le env.toStores p rows
  have hvalues (index : ℕ) := clearFrom_uint32Values (p := s.player) (hs.count ▸ hlength) index
  rw [hs.count] at hvalues
  rw [hload, hs.count]
  refine ⟨fun i saved hi => ?_, fun skill => ?_, fun x hx hmax => ?_, fun index hindex => ?_⟩
  · have hlt := (List.getElem?_eq_some_iff.mp hi).1
    exact (hs.fields i saved hi).congr _ _ _ _ fun index hindex => by rw [hvalues, if_neg (by omega)]
  · rw [Player.clearFrom, clear_skillStatus, hs.status]
  · refine ⟨?_, ?_, ?_⟩ <;> rw [hvalues, if_pos (by omega)]
  · rw [hvalues, if_neg (by omega)]
    exact hs.rest index (by omega)

namespace Loaded

variable {p' : Player}

/-- A skill has one step, the one that the code finds. -/
theorem firstOnly (h : Loaded stores p rows p') (hrestored : Restored stores p rows p')
    (hsaved : saved ∈ loadedSkills stores p rows) : FirstOnly stores saved := by
  obtain ⟨i, hi⟩ := List.getElem?_of_mem hsaved
  obtain ⟨step, hstep, hfield, -⟩ := hrestored.fields i saved hi
  have hsame : step = stores.skillStep saved := (makePair32_inj (hfield.symm.trans (h.fields i saved hi).1)).2
  rw [hsame] at hstep
  exact (isStep_skillStep_iff saved).mp hstep

theorem restored (h : Loaded stores p rows p') (hfirst : ∀ saved ∈ loadedSkills stores p rows, FirstOnly stores saved)
    (hnodup : ((loadedSkills stores p rows).map (·.skill)).Nodup) : Restored stores p rows p' where
  fields i saved hi :=
    ⟨_, (isStep_skillStep_iff saved).mpr (hfirst saved (List.mem_of_getElem? hi)), h.fields i saved hi⟩
  status i saved hi := by
    rw [h.status, findIdx?_of_nodup hnodup hi]
    rfl
  cleared := h.cleared
  beyond := h.beyond

end Loaded

theorem Restored.nodup {p' : Player} (h : Restored stores p rows p') :
    ((loadedSkills stores p rows).map (·.skill)).Nodup := by
  refine List.pairwise_map.mpr (List.pairwise_iff_getElem.mpr fun i j hi hj hij heq => ?_)
  have hlength := length_loadedSkills_le stores p rows
  have hlimit : playerMaxSkills = 127 := rfl
  have hposi := h.status i _ (List.getElem?_eq_getElem hi)
  have hposj := h.status j _ (List.getElem?_eq_getElem hj)
  rw [heq, hposj, Option.some_inj] at hposi
  have hpos := congrArg (fun data => data.pos.toNat) hposi
  simp only [UInt8.toNat_ofNat', Nat.toUInt8] at hpos
  omega

/-- The skills are restored just if none has its maximum behind the first entry of its tier, and none is saved twice. -/
theorem skills_restored_iff (hquiet : env.learnSkillRewardedSpells = fun _ _ p => p)
    (hfist : ∀ row ∈ rows, row.skill.toUInt16.toUInt32 ≠ skillFistWeapons) (hfresh : p.skillStatus = ∅) :
    Restored env.toStores p rows (env.loadSkills rows p) ↔
      (∀ saved ∈ loadedSkills env.toStores p rows, FirstOnly env.toStores saved) ∧
        ((loadedSkills env.toStores p rows).map (·.skill)).Nodup := by
  have hloaded := loaded_loadSkills hquiet hfist hfresh
  constructor
  · exact fun h => ⟨fun saved hsaved => hloaded.firstOnly h hsaved, h.nodup⟩
  · rintro ⟨hfirst, hnodup⟩
    exact hloaded.restored hfirst hnodup

end Load

/-! ## A profession -/

/-- Every skill is a profession, with tiers of 75, 150, 225 and so on. -/
def professions : Env where
  skillLineStore _ := some ⟨11⟩
  skillTiersStore _ := some ⟨fun k => (75 * (k.val + 1)).toUInt32⟩
  skillRaceClassInfoBySkill := [⟨171, 0, 0, 41⟩, ⟨164, 0, 0, 41⟩]
  learnSkillRewardedSpells _ _ p := p
  setFistWeapons p := p

def newPlayer : Player where
  race := 1
  class_ := 1
  uint32Values _ := 0
  skillStatus := ∅
  deletedRows := []

/-- Two professions of an apprentice, and between them one that the race cannot have. -/
def savedRows : List SkillRow := [⟨171, 60, 75⟩, ⟨999, 1, 75⟩, ⟨164, 75, 75⟩]

theorem skills_restored_apprentice :
    Restored professions.toStores newPlayer savedRows (professions.loadSkills savedRows newPlayer) := by
  refine (skills_restored_iff rfl (by decide) rfl).mpr ?_
  refine ⟨?_, by decide⟩
  rintro saved hsaved t ⟨⟩
  revert saved
  decide

/-- A journeyman's profession is saved with a maximum of 150, and restored with the step 0. -/
theorem not_skills_restored :
    ¬∀ (env : Env) (p : Player) (rows : List SkillRow), env.learnSkillRewardedSpells = (fun _ _ p => p) →
      (∀ row ∈ rows, row.skill.toUInt16.toUInt32 ≠ skillFistWeapons) → p.skillStatus = ∅ →
      (rows.map fun row => row.skill.toUInt16).Nodup →
      (∀ id, ∀ t ∈ env.skillTiersStore id, ∀ i j, i < j → t.maxSkill i < t.maxSkill j) →
      Restored env.toStores p rows (env.loadSkills rows p) := by
  intro h
  have hrestored := h professions newPlayer [⟨171, 100, 150⟩] rfl (by decide) rfl (by decide)
    (by rintro id t ⟨⟩; decide)
  have hloaded : Loaded professions.toStores newPlayer [⟨171, 100, 150⟩]
      (professions.loadSkills [⟨171, 100, 150⟩] newPlayer) := loaded_loadSkills rfl (by decide) rfl
  have hmem : ⟨171, 100, 150, 41⟩ ∈ loadedSkills professions.toStores newPlayer [⟨171, 100, 150⟩] := by decide
  exact hloaded.firstOnly hrestored hmem _ rfl 1 (by decide) (by decide)

end Sunstrider.Skills
