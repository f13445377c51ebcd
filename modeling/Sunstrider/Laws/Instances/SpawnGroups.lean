import Sunstrider.Laws.Instances.BossProgress
import Sunstrider.Lib.Map

/-!
# The spawn groups of an instance

`UpdateSpawnGroups` folds the rows of the table into one value for each group. The value that blocks is
absorbing, so the order of the rows does not matter (`lookup_newStates`), and each group of the table is
then active just if it should be (`groupsRight_updateSpawnGroups`).
-/

namespace Sunstrider.InstanceScripts

open Lib

/-- The groups of the table are groups of the map. -/
def Setup.GroupsOfMap (u : Setup) : Prop :=
  ∀ info ∈ u.spawnGroups, ∃ data, u.spawnGroupData info.spawnGroupId = some data ∧ data.system = false

namespace InstanceScript

variable {u : Setup} {s : InstanceScript}

/-- The row is about the group, and the state of its boss is one of its states. -/
def Matches (u : Setup) (s : InstanceScript) (groupId : ℕ) (info : InstanceSpawnGroupInfo) : Prop :=
  info.spawnGroupId = groupId ∧ info.bossStates.testBit (s.stateFor u info).toNat = true

/-- Some activating row matches the state of its boss, and no blocking row does. -/
def Wanted (u : Setup) (s : InstanceScript) (groupId : ℕ) : Prop :=
  (∃ info ∈ u.spawnGroups, info.activateSpawn = true ∧ Matches u s groupId info) ∧
    ¬ ∃ info ∈ u.spawnGroups, info.blockSpawn = true ∧ Matches u s groupId info

/-- Each group of the table is active just if it is wanted. -/
def GroupsRight (u : Setup) (s : InstanceScript) : Prop :=
  ∀ info ∈ u.spawnGroups,
    s.isSpawnGroupActive u info.spawnGroupId = true ↔ s.Wanted u info.spawnGroupId

/-! ## The fold -/

variable {groupId : ℕ}

theorem fold_of_not_matches {info : InstanceSpawnGroupInfo} (hgroup : info.spawnGroupId = groupId)
    (h : ¬ Matches u s groupId info) (curValue : States) : s.fold u curValue info = curValue := by
  have hbit : info.bossStates.testBit (s.stateFor u info).toNat = false :=
    Bool.eq_false_iff.mpr fun hbit => h ⟨hgroup, hbit⟩
  rw [fold, hbit]
  simp

theorem fold_of_matches {info : InstanceSpawnGroupInfo} (h : Matches u s groupId info)
    (curValue : States) :
    s.fold u curValue info =
      if curValue = .forceBlock ∨ info.blockSpawn = true then .forceBlock
      else if info.activateSpawn = true then .spawn
      else curValue := by
  rw [fold, h.2]
  cases curValue <;> simp

/-- The rows of a group, folded in their order. -/
def foldRows (u : Setup) (s : InstanceScript) (groupId : ℕ) (rows : List InstanceSpawnGroupInfo)
    (curValue : States) : States :=
  (rows.filter fun info => info.spawnGroupId = groupId).foldl (s.fold u) curValue

/-- **The order of the rows does not matter**: what they are folded to blocks if one of them blocks, and
spawns if none does and one of them spawns. -/
theorem foldRows_iff (groupId : ℕ) (rows : List InstanceSpawnGroupInfo) (curValue : States) :
    (s.foldRows u groupId rows curValue = .forceBlock ↔
      curValue = .forceBlock ∨ ∃ info ∈ rows, info.blockSpawn = true ∧ Matches u s groupId info) ∧
    (s.foldRows u groupId rows curValue = .spawn ↔
      (curValue = .spawn ∨
        (curValue ≠ .forceBlock ∧ ∃ info ∈ rows, info.activateSpawn = true ∧ Matches u s groupId info)) ∧
      ¬ ∃ info ∈ rows, info.blockSpawn = true ∧ Matches u s groupId info) := by
  induction rows generalizing curValue with
  | nil => simp [foldRows]
  | cons info rows ih =>
    by_cases hgroup : info.spawnGroupId = groupId
    · have hstep : s.foldRows u groupId (info :: rows) curValue =
          s.foldRows u groupId rows (s.fold u curValue info) := by
        rw [foldRows, List.filter_cons_of_pos (by simpa using hgroup), List.foldl_cons, foldRows]
      rw [hstep, (ih _).1, (ih _).2]
      simp only [List.exists_mem_cons_iff]
      by_cases hmatches : Matches u s groupId info
      · rw [fold_of_matches hmatches]
        cases curValue <;> cases hblock : info.blockSpawn <;> cases hactivate : info.activateSpawn <;>
          simp [hmatches]
      · rw [fold_of_not_matches hgroup hmatches]
        simp [hmatches]
    · have hstep : s.foldRows u groupId (info :: rows) curValue = s.foldRows u groupId rows curValue := by
        rw [foldRows, List.filter_cons_of_neg (by simpa using hgroup), foldRows]
      have hnot : ¬ Matches u s groupId info := fun h => hgroup h.1
      rw [hstep, (ih _).1, (ih _).2]
      simp [hnot]

theorem foldRows_eq_spawn_iff (u : Setup) (s : InstanceScript) (groupId : ℕ) :
    s.foldRows u groupId u.spawnGroups .block = .spawn ↔ s.Wanted u groupId := by
  rw [(foldRows_iff groupId u.spawnGroups .block).2]
  simp [Wanted]

theorem lookup_foldl_rows (groupId : ℕ) (rows : List InstanceSpawnGroupInfo)
    (m : AList fun _ : ℕ => States) :
    (rows.foldl (fun newStates info =>
        let curValue := (newStates.lookup info.spawnGroupId).getD .block
        newStates.insert info.spawnGroupId (s.fold u curValue info)) m).lookup groupId =
      if groupId ∈ rows.map InstanceSpawnGroupInfo.spawnGroupId then
        some (s.foldRows u groupId rows ((m.lookup groupId).getD .block))
      else m.lookup groupId := by
  induction rows generalizing m with
  | nil => rfl
  | cons info rows ih =>
    rw [List.foldl_cons, ih]
    rw [lookup_insert_ite, List.map_cons, foldRows, foldRows]
    by_cases hgroup : info.spawnGroupId = groupId
    · subst hgroup
      rw [List.filter_cons_of_pos (by simp), List.foldl_cons, if_pos rfl, if_pos List.mem_cons_self]
      split_ifs with hmem
      · rfl
      · have hnil : rows.filter (fun i => i.spawnGroupId = info.spawnGroupId) = [] := by
          refine List.filter_eq_nil_iff.mpr fun i hi heq => hmem ?_
          rw [← of_decide_eq_true heq]
          exact List.mem_map_of_mem hi
        rw [hnil]
        rfl
    · rw [List.filter_cons_of_neg (by simpa using hgroup), if_neg (Ne.symm hgroup)]
      simp [Ne.symm hgroup]

theorem lookup_newStates (u : Setup) (s : InstanceScript) (groupId : ℕ) :
    (s.newStates u).lookup groupId =
      if groupId ∈ u.spawnGroups.map InstanceSpawnGroupInfo.spawnGroupId then
        some (s.foldRows u groupId u.spawnGroups .block)
      else none :=
  lookup_foldl_rows groupId u.spawnGroups ∅

/-! ## The groups of the map -/

/-- What `SetSpawnGroupActive` does to what `IsSpawnGroupActive` answers. -/
theorem isSpawnGroupActive_set {data : SpawnGroupTemplateData}
    (hdata : u.spawnGroupData groupId = some data) (hsystem : data.system = false) (state : Bool)
    (g : ℕ) :
    (s.setSpawnGroupActive u groupId state).isSpawnGroupActive u g =
      if g = groupId then state else s.isSpawnGroupActive u g := by
  rw [setSpawnGroupActive, hdata]
  dsimp only
  rw [hsystem, if_neg Bool.false_ne_true]
  by_cases hg : g = groupId
  · subst hg
    rw [isSpawnGroupActive, hdata, if_pos rfl]
    dsimp only
    rw [hsystem, if_neg Bool.false_ne_true]
    cases state <;> cases data.manualSpawn <;> simp
  · rw [if_neg hg, isSpawnGroupActive, isSpawnGroupActive]
    split_ifs <;> simp [hg]

/-- After the loop over `newStates`, each of its groups is active just if it is to spawn. -/
theorem isSpawnGroupActive_foldl {l : List (Σ _ : ℕ, States)} (hl : l.NodupKeys)
    (hdata : ∀ pair ∈ l, ∃ data, u.spawnGroupData pair.1 = some data ∧ data.system = false)
    (s : InstanceScript) (g : ℕ) :
    (l.foldl (fun s pair =>
        let doSpawn := decide (pair.2 = States.spawn)
        if s.isSpawnGroupActive u pair.1 = doSpawn then s else s.setSpawnGroupActive u pair.1 doSpawn)
      s).isSpawnGroupActive u g =
      match l.dlookup g with
      | some v => decide (v = States.spawn)
      | none => s.isSpawnGroupActive u g := by
  induction l generalizing s with
  | nil => rfl
  | cons pair l ih =>
    obtain ⟨k, v⟩ := pair
    obtain ⟨hk, hl⟩ := List.nodupKeys_cons.mp hl
    obtain ⟨⟨data, hkdata, hsystem⟩, hdata⟩ := List.forall_mem_cons.mp hdata
    rw [List.foldl_cons, ih hl hdata]
    have hone : ∀ g, (let doSpawn := decide (v = States.spawn)
        if s.isSpawnGroupActive u k = doSpawn then s
        else s.setSpawnGroupActive u k doSpawn).isSpawnGroupActive u g =
          if g = k then decide (v = .spawn) else s.isSpawnGroupActive u g := by
      intro g
      dsimp only
      split
      · next heq =>
        split_ifs with hg
        · rw [hg, heq]
        · rfl
      · exact isSpawnGroupActive_set hkdata hsystem _ g
    by_cases hg : g = k
    · subst hg
      rw [List.dlookup_eq_none.mpr hk, List.dlookup_cons_eq]
      exact (hone g).trans (if_pos rfl)
    · rw [List.dlookup_cons_ne _ _ hg]
      split
      · rfl
      · exact (hone g).trans (if_neg hg)

theorem wanted_congr {s' : InstanceScript} (h : s'.stateOf = s.stateOf) (groupId : ℕ) :
    s'.Wanted u groupId ↔ s.Wanted u groupId := by
  have hmatches : ∀ info, Matches u s' groupId info ↔ Matches u s groupId info := by
    intro info
    have hstate : s'.stateFor u info = s.stateFor u info := by
      have hboss := congrFun h info.bossStateId
      rw [stateOf, stateOf] at hboss
      rw [stateFor, stateFor, getBossState, getBossState, hboss]
    rw [Matches, Matches, hstate]
  simp [Wanted, hmatches]

/-- **After `UpdateSpawnGroups` each group of the table is active just if it is wanted.** -/
theorem groupsRight_updateSpawnGroups (hmap : u.GroupsOfMap) (s : InstanceScript) :
    (s.updateSpawnGroups u).GroupsRight u := by
  intro info hinfo
  rw [wanted_congr (stateOf_updateSpawnGroups s), ← foldRows_eq_spawn_iff]
  have hlookup : (s.newStates u).entries.dlookup info.spawnGroupId =
      some (s.foldRows u info.spawnGroupId u.spawnGroups .block) :=
    (lookup_newStates u s info.spawnGroupId).trans (if_pos (List.mem_map_of_mem hinfo))
  rw [updateSpawnGroups, isSpawnGroupActive_foldl (s.newStates u).nodupKeys, hlookup]
  · exact decide_eq_true_iff
  · intro pair hpair
    have hsome := List.mem_dlookup (s.newStates u).nodupKeys hpair
    have hmem : pair.1 ∈ u.spawnGroups.map InstanceSpawnGroupInfo.spawnGroupId := by
      by_contra hnot
      have hnone := (lookup_newStates u s pair.1).trans (if_neg hnot)
      exact absurd (hsome.symm.trans hnone) (by simp)
    obtain ⟨row, hrow, heq⟩ := List.mem_map.mp hmem
    rw [← heq]
    exact hmap row hrow

end InstanceScript

end Sunstrider.InstanceScripts
