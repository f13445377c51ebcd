import Sunstrider.Laws.Pools.Members

/-!
# The group of a pool refills

`SpawnObject` with the member that died as trigger is the `spawnObject` of the limits, with a record of what
is passed to `Spawn1Object` beside it (`refillObject_eq`). So the pool is full again but where the count is
read as a negative number, or it has no entries of equal chance (`Vacant.full_iff`). What is rolled is
passed to `Spawn1Object`, but for the trigger, which comes back in some states of the map only
(`PoolMaps.comesBack_iff`).
-/

namespace Sunstrider.Pools

open Sunstrider.Lib (Rounding subU32_eq toInt32 toInt32_eq foldlM_isSome)

/-! ## The respawn of the trigger -/

namespace PoolMaps

variable (maps : PoolMaps) (kind : PoolKind) (guid : ℕ)

/-- The trigger is on the map after its respawn, or was passed to `Spawn1Object`: a creature of a
continent where the first one on the map is not in the compatibility mode, any other object where there is
one on the map. -/
def comesBack : Bool :=
  if kind = .creature ∧ (maps.creatureData guid).any (fun map => !maps.instanceable map) then
    (maps.creatures guid).head? = some false
  else maps.onMap kind guid

variable {maps kind guid}

theorem reSpawnLoop_compatibility (fuel : ℕ) (rest : List Bool) :
    reSpawnLoop guid fuel (true :: rest) = none := by
  induction fuel with
  | zero => rfl
  | succ fuel ih =>
    rw [reSpawnLoop, if_neg (by decide)]
    exact ih

/-- **When the trigger comes back**: its respawn ends, and it is on the map or passed to
`Spawn1Object`. -/
theorem comesBack_iff : maps.comesBack kind guid ↔
    (∃ fuel, (maps.reSpawn1Object fuel kind guid).isSome) ∧
      ∀ fuel calls, maps.reSpawn1Object fuel kind guid = some calls →
        maps.onMap kind guid ∨ guid ∈ calls := by
  have hnothing (h : ∀ fuel, maps.reSpawn1Object fuel kind guid = some []) :
      (∃ fuel, (maps.reSpawn1Object fuel kind guid).isSome) ∧
        (∀ fuel calls, maps.reSpawn1Object fuel kind guid = some calls →
          maps.onMap kind guid ∨ guid ∈ calls) ↔ maps.onMap kind guid := by
    constructor
    · rintro ⟨-, hall⟩
      exact (hall 0 [] (h 0)).resolve_right List.not_mem_nil
    · intro hon
      exact ⟨⟨0, by rw [h 0]; rfl⟩, fun fuel calls _ => .inl hon⟩
  unfold comesBack
  split
  next hcreature =>
    obtain ⟨rfl, hdata⟩ := hcreature
    obtain ⟨map, hmap, hcontinent⟩ := Option.any_eq_true _ _ |>.mp hdata
    have hloop (fuel : ℕ) :
        maps.reSpawn1Object fuel .creature guid = reSpawnLoop guid fuel (maps.creatures guid) := by
      rw [reSpawn1Object, hmap]
      exact if_pos hcontinent
    simp only [hloop, onMap, decide_eq_true_eq]
    cases hcreatures : maps.creatures guid with
    | nil =>
      constructor
      · intro h
        cases h
      · rintro ⟨-, hall⟩
        exact (hall 1 [] rfl).elim (fun h => (nomatch h)) fun h => (nomatch h)
    | cons mode rest =>
      cases mode with
      | false =>
        refine iff_of_true rfl ⟨⟨1, rfl⟩, fun fuel calls _ => .inl rfl⟩
      | true =>
        refine iff_of_false (by simp) ?_
        rintro ⟨⟨fuel, hsome⟩, -⟩
        rw [reSpawnLoop_compatibility] at hsome
        cases hsome
  next hother =>
    refine (hnothing fun fuel => ?_).symm
    cases kind with
    | gameobject => rfl
    | pool => rfl
    | creature =>
      rw [reSpawn1Object]
      cases hdata : maps.creatureData guid with
      | none => rfl
      | some map =>
        refine if_neg fun hcontinent => hother ⟨rfl, ?_⟩
        rw [hdata]
        exact hcontinent

end PoolMaps

/-! ## What is spawned, and what is passed on -/

namespace PoolGroup

open ActivePoolData

variable {R : Rounding} {g : PoolGroup} {maps : PoolMaps} {fuel : ℕ} {kind : PoolKind}
  {triggerFrom : ℕ} {calls : List ℕ} {rolled : List PoolObject}

/-- What `SpawnObject` passes to `Spawn1Object` for one object that was rolled. -/
def passes (kind : PoolKind) (triggerFrom : ℕ) (calls : List ℕ) (obj : PoolObject) : List (PoolKind × ℕ) :=
  if obj.guid = triggerFrom then calls.map fun guid => (kind, guid) else [(kind, obj.guid)]

theorem flatMap_passes_of_notMem (h : triggerFrom ∉ rolled.map PoolObject.guid) :
    rolled.flatMap (passes kind triggerFrom calls) = rolled.map fun obj => (kind, obj.guid) := by
  induction rolled with
  | nil => rfl
  | cons obj rolled ih =>
    rw [List.map_cons, List.mem_cons, not_or] at h
    rw [List.flatMap_cons, List.map_cons, ih h.2, passes, if_neg (Ne.symm h.1), List.singleton_append]

theorem refillRolled_eq (hnodup : (rolled.map PoolObject.guid).Nodup)
    (hzero : 0 ∉ rolled.map PoolObject.guid) (hcalls : triggerFrom ∈ rolled.map PoolObject.guid →
      maps.reSpawn1Object fuel kind triggerFrom = some calls) (w : RefillWorld) :
    g.refillRolled maps fuel kind triggerFrom rolled w =
      (g.spawnRolled (fun _ w => some w) kind triggerFrom rolled w.toPoolWorld).map fun out =>
        (⟨out.1, w.passed ++ rolled.flatMap (passes kind triggerFrom calls)⟩, out.2) := by
  unfold refillRolled spawnRolled
  induction rolled generalizing w triggerFrom with
  | nil => simp
  | cons obj rolled ih =>
    rw [List.map_cons, List.nodup_cons] at hnodup
    rw [List.map_cons, List.mem_cons, not_or] at hzero
    rw [List.foldlM_cons, List.foldlM_cons, List.flatMap_cons]
    by_cases htrigger : obj.guid = triggerFrom
    · -- from now on the trigger is 0, and no object is
      have hrest : rolled.flatMap (passes kind triggerFrom calls) =
          rolled.flatMap (passes kind 0 calls) := by
        rw [flatMap_passes_of_notMem (htrigger ▸ hnodup.1), flatMap_passes_of_notMem hzero.2]
      have hcall := hcalls (by rw [List.map_cons, htrigger]; exact List.mem_cons_self)
      have hround : g.refill1Rolled maps fuel kind w triggerFrom obj =
          (g.spawn1Rolled (fun _ w => some w) kind w.toPoolWorld triggerFrom obj).map fun out =>
            (⟨out.1, w.passed ++ calls.map fun guid => (kind, guid)⟩, out.2) := by
        unfold refill1Rolled spawn1Rolled
        rw [if_pos htrigger, if_pos htrigger, htrigger, hcall]
        split <;> rfl
      obtain ⟨w', hw'⟩ : ∃ w', g.spawn1Rolled (fun _ w => some w) kind w.toPoolWorld triggerFrom obj =
          some (w', 0) := by
        rw [spawn1Rolled, if_pos htrigger]
        split <;> exact ⟨_, rfl⟩
      rw [hround, hw', passes, if_pos htrigger, hrest, ← List.append_assoc]
      exact ih hnodup.2 hzero.2 (fun h => absurd h hzero.2) ⟨w', w.passed ++ calls.map fun guid => (kind, guid)⟩
    · rw [refill1Rolled, if_neg htrigger, spawn1Rolled, if_neg htrigger, passes, if_neg htrigger,
        ← List.append_assoc]
      refine ih hnodup.2 hzero.2 (fun h => hcalls ?_) ⟨_, w.passed ++ [(kind, obj.guid)]⟩
      exact List.mem_cons_of_mem _ h

theorem refillRolled_eq_none (htrigger : triggerFrom ∈ rolled.map PoolObject.guid)
    (hnone : maps.reSpawn1Object fuel kind triggerFrom = none) (w : RefillWorld) :
    g.refillRolled maps fuel kind triggerFrom rolled w = none := by
  unfold refillRolled
  induction rolled generalizing w with
  | nil => cases htrigger
  | cons obj rolled ih =>
    rw [List.foldlM_cons]
    by_cases hobj : obj.guid = triggerFrom
    · rw [refill1Rolled, if_pos hobj, hobj, hnone]
      rfl
    · rw [refill1Rolled, if_neg hobj]
      rw [List.map_cons, List.mem_cons] at htrigger
      exact ih (htrigger.resolve_left (Ne.symm hobj)) _

variable {t : PoolTemplateData} (w : RefillWorld)

/-- **The update of a pool is the one of the limits**, and passes what was rolled on. -/
theorem refillObject_eq (hnodup : g.guids.Nodup) (hzero : 0 ∉ g.guids)
    (hcalls : triggerFrom ∈ (g.objectsToSpawn R kind t triggerFrom w.toPoolWorld).map PoolObject.guid →
      maps.reSpawn1Object fuel kind triggerFrom = some calls) :
    g.refillObject maps fuel R kind t triggerFrom w =
      (g.spawnObject R (fun _ w => some w) (fun _ w => some w) kind t triggerFrom w.toPoolWorld).map
        fun w' => ⟨w', w.passed ++ (g.objectsToSpawn R kind t triggerFrom w.toPoolWorld).flatMap
          (passes kind triggerFrom calls)⟩ := by
  have hsub := (g.objectsToSpawn_sublist R kind t triggerFrom w.toPoolWorld).map PoolObject.guid
  unfold refillObject spawnObject
  dsimp only
  rw [refillRolled_eq (hsub.nodup hnodup) (fun h => hzero (hsub.subset h)) hcalls]
  generalize g.spawnRolled (fun _ w => some w) kind triggerFrom _ _ = out
  cases out with
  | none => rfl
  | some out =>
    simp only [Option.map_some, Option.bind_some]
    split <;> rfl

theorem refillObject_eq_none
    (htrigger : triggerFrom ∈ (g.objectsToSpawn R kind t triggerFrom w.toPoolWorld).map PoolObject.guid)
    (hnone : maps.reSpawn1Object fuel kind triggerFrom = none) :
    g.refillObject maps fuel R kind t triggerFrom w = none := by
  unfold refillObject
  dsimp only
  rw [refillRolled_eq_none htrigger hnone]
  rfl

/-! ## The pool is full again -/

/-- A pool with a limit after one of its active members died. Members have chances of their own only
where the limit is 1. -/
structure Vacant (g : PoolGroup) (R : Rounding) (kind : PoolKind) (t : PoolTemplateData) (triggerFrom : ℕ)
    (s : ActivePoolData) : Prop where
  kind_ne : kind ≠ .pool
  nodup : g.guids.Nodup
  zero : 0 ∉ g.guids
  explicit : g.explicitlyChanced = [] ∨ t.maxLimit = 1
  limit_lt : g.spawnLimit R t < 2 ^ 32
  counted : Counted g kind s
  below : (g.activeMembers kind s).card < g.spawnLimit R t
  trigger : triggerFrom ∈ g.guids
  inactive : s.isActiveObject kind triggerFrom = false

namespace Vacant

variable {s : ActivePoolData}

section

variable (h : g.Vacant R kind t triggerFrom s)

include h

theorem trigger_ne : triggerFrom ≠ 0 := fun he =>
  h.zero (he ▸ h.trigger)

theorem trigger_notMem : triggerFrom ∉ g.activeMembers kind s := by
  rw [mem_activeMembers, h.inactive]
  simp

theorem available_eq (obj : PoolObject) :
    available s kind triggerFrom obj = !s.isActiveObject kind obj.guid := by
  unfold available
  by_cases hobj : obj.guid = triggerFrom
  · rw [hobj, h.inactive]
    simp
  · simp [hobj]

/-- With chances of their own, one member at most is active. -/
theorem of_explicit (hne : g.explicitlyChanced ≠ []) :
    g.spawnLimit R t = 1 ∧ (g.activeMembers kind s).card = 0 := by
  have hmax := h.explicit.resolve_left hne
  have hbelow := h.below
  have hle : g.spawnLimit R t ≤ 1 := by
    unfold spawnLimit
    dsimp only
    rw [hmax]
    split
    · exact Nat.min_le_left ..
    · exact le_rfl
  omega

/-- **What can be rolled with equal chance**: the entries that are not active. -/
theorem length_available :
    (g.equalChanced.filter (available s kind triggerFrom)).length + (g.activeMembers kind s).card =
      g.equalChanced.length := by
  have hfilter : g.equalChanced.filter (available s kind triggerFrom) =
      g.equalChanced.filter fun obj => !s.isActiveObject kind obj.guid :=
    List.filter_congr fun obj _ => h.available_eq obj
  by_cases hexplicit : g.explicitlyChanced = []
  · have hguids : g.guids = g.equalChanced.map PoolObject.guid := by
      rw [guids, PoolGroup.objects, hexplicit, List.append_nil]
    have hnodup := h.nodup
    rw [hguids] at hnodup
    have hactive : (g.activeMembers kind s).card =
        (g.equalChanced.filter fun obj => s.isActiveObject kind obj.guid).length := by
      rw [activeMembers, hguids, ← List.toFinset_filter, List.toFinset_card_of_nodup]
      · rw [List.filter_map, List.length_map]
        congr 1
      · exact hnodup.filter _
    rw [hfilter, hactive, Nat.add_comm]
    exact (List.length_eq_length_filter_add _).symm
  · have hnone : g.activeMembers kind s = ∅ := Finset.card_eq_zero.mp (h.of_explicit hexplicit).2
    have hall : ∀ obj ∈ g.equalChanced, !s.isActiveObject kind obj.guid := by
      intro obj hobj
      by_contra hactive
      have hmem : obj.guid ∈ g.activeMembers kind s :=
        g.mem_activeMembers.mpr ⟨g.mem_guids (List.mem_append_left _ hobj), by simpa using hactive⟩
      rw [hnone] at hmem
      exact absurd hmem (Finset.notMem_empty _)
    rw [hfilter, List.filter_eq_self.mpr hall, hnone, Finset.card_empty, Nat.add_zero]

/-- Before the update the pool is not full, unless it has no entries of equal chance. -/
theorem card_lt : (g.activeMembers kind s).card = min (g.spawnLimit R t) g.equalChanced.length ↔
      g.equalChanced = [] := by
  have hbelow := h.below
  have havailable := h.length_available
  constructor
  · intro hfull
    by_contra hne
    by_cases hexplicit : g.explicitlyChanced = []
    · obtain ⟨obj, hobj, hguid⟩ := List.mem_map.mp h.trigger
      rw [PoolGroup.objects, hexplicit, List.append_nil] at hobj
      have hmem : obj ∈ g.equalChanced.filter (available s kind triggerFrom) :=
        List.mem_filter.mpr ⟨hobj, by simp [available, hguid]⟩
      have hpos := List.length_pos_of_mem hmem
      omega
    · have hpos := List.length_pos_iff.mpr hne
      have hone := h.of_explicit hexplicit
      omega
  · intro hempty
    rw [hempty, List.length_nil] at havailable ⊢
    omega

end

variable {w : PoolWorld}

section

variable (h : g.Vacant R kind t triggerFrom w.spawns)

include h

theorem spawnCount_eq : g.spawnCount (g.spawnLimit R t) kind triggerFrom w =
      toInt32 (g.spawnLimit R t - (g.activeMembers kind w.spawns).card) := by
  have hcounted : w.spawns.getActiveObjectCount g.poolId = _ := h.counted
  unfold spawnCount
  rw [hcounted, h.inactive, subU32_eq h.below.le h.limit_lt]
  simp

/-- **When the pool is full again**: the count is not read as a negative number, and where the pool has
no entries of equal chance, nothing is rolled. -/
theorem full_iff :
    (g.activeMembers kind w.spawns).card + (g.objectsToSpawn R kind t triggerFrom w).length =
        min (g.spawnLimit R t) g.equalChanced.length ↔
      g.spawnLimit R t - (g.activeMembers kind w.spawns).card < 2 ^ 31 ∧
        (g.equalChanced = [] → g.objectsToSpawn R kind t triggerFrom w = []) := by
  have hbelow := h.below
  have hlt := h.limit_lt
  by_cases hfew : g.spawnLimit R t - (g.activeMembers kind w.spawns).card < 2 ^ 31
  · have hcount := h.spawnCount_eq.trans (toInt32_eq hfew)
    have hroll : g.objectsToSpawn R kind t triggerFrom w = g.rolledObjects R w.spawns kind triggerFrom
        (g.spawnLimit R t) (g.spawnLimit R t - (g.activeMembers kind w.spawns).card) (w.dice 0) := by
      unfold objectsToSpawn
      dsimp only
      rw [hcount, Int.toNat_natCast, if_pos]
      rw [Bool.or_eq_true, decide_eq_true_eq]
      exact .inl (by omega)
    rw [hroll]
    unfold rolledObjects
    dsimp only
    split
    next hexplicit =>
      -- the entries of equal chance are rolled
      have havailable := h.length_available
      rw [if_pos (by omega : g.spawnLimit R t ≠ 0), length_randomResize]
      refine iff_of_true (by omega) ⟨hfew, fun hempty => ?_⟩
      rw [hempty]
      exact if_pos (Nat.zero_le _)
    next hexplicit =>
      have hne : g.explicitlyChanced ≠ [] := by
        intro hnil
        rw [hnil] at hexplicit
        exact hexplicit rfl
      obtain ⟨hone, hcard⟩ := h.of_explicit hne
      have hspec : (rollExplicit R w.spawns kind triggerFrom (w.dice 0).chance
          g.explicitlyChanced).length ≤ 1 := (rollExplicit_spec ..).2.1
      rw [List.isEmpty_iff] at hexplicit
      have hpos := List.length_pos_iff.mpr hexplicit
      rw [hone, hcard]
      constructor
      · intro hfull
        refine ⟨by decide, fun hempty => ?_⟩
        rw [hempty, List.length_nil] at hfull
        omega
      · rintro ⟨-, hempty⟩
        have hequal := List.length_pos_iff.mpr fun hnil => hexplicit (hempty hnil)
        omega
  · -- the count is negative
    have hcount : g.spawnCount (g.spawnLimit R t) kind triggerFrom w < 0 := by
      rw [h.spawnCount_eq]
      unfold toInt32
      split <;> omega
    have hnothing : g.objectsToSpawn R kind t triggerFrom w = [] := by
      unfold objectsToSpawn
      rw [if_neg]
      rw [Bool.or_eq_true, decide_eq_true_eq, decide_eq_true_eq]
      omega
    rw [hnothing, List.length_nil, Nat.add_zero, h.card_lt]
    refine iff_of_false (fun hempty => ?_) fun hboth => hfew hboth.1
    have hexplicit : g.explicitlyChanced ≠ [] := by
      intro hnil
      have hmem := h.trigger
      rw [guids, PoolGroup.objects, hempty, hnil] at hmem
      cases hmem
    have hone := (h.of_explicit hexplicit).1
    omega

/-- The update activates what is rolled. The trigger is not active, so nothing is despawned. -/
theorem spawnObject_members :
    ∃ w', g.spawnObject R (fun _ w => some w) (fun _ w => some w) kind t triggerFrom w = some w' ∧
      g.activeMembers kind w'.spawns = g.activeMembers kind w.spawns ∪
        ((g.objectsToSpawn R kind t triggerFrom w).map PoolObject.guid).toFinset := by
  have hsub := g.objectsToSpawn_sublist R kind t triggerFrom w
  have hav : ∀ obj ∈ g.objectsToSpawn R kind t triggerFrom w, _ := fun _ h =>
    g.objectsToSpawn_available h
  unfold spawnObject
  dsimp only
  generalize g.objectsToSpawn R kind t triggerFrom w = rolled at hsub hav ⊢
  have hloop : (g.spawnRolled (fun _ w => some w) kind triggerFrom rolled
      { w with dice := fun n => w.dice (n + 1) }).isSome := by
    refine foldlM_isSome (fun out obj _ => ?_) _
    unfold spawn1Rolled
    split
    · split <;> rfl
    · rfl
  obtain ⟨out, hout⟩ := Option.isSome_iff_exists.mp hloop
  obtain ⟨hcounted, hmembers, htrigger⟩ :=
    spawnRolled_members (w := { w with dice := fun n => w.dice (n + 1) }) h.kind_ne rolled
      (fun obj hobj => hsub.subset hobj) ((hsub.map _).nodup h.nodup) hav h.counted out hout
  rw [hout, Option.bind_some]
  by_cases hrolled : triggerFrom ∈ rolled.map PoolObject.guid
  · rw [if_pos hrolled] at htrigger
    rw [htrigger]
    exact ⟨out.1, rfl, hmembers⟩
  · rw [if_neg hrolled] at htrigger
    have hdespawn : (g.despawnObject (fun _ w => some w) kind triggerFrom out.1).isSome := by
      refine foldlM_isSome (fun w obj _ => ?_) _
      split <;> rfl
    obtain ⟨w', hw'⟩ := Option.isSome_iff_exists.mp hdespawn
    rw [htrigger, if_pos h.trigger_ne]
    refine ⟨w', hw', ?_⟩
    rw [(despawnObject_members h.kind_ne triggerFrom hcounted w' hw').2, hmembers]
    refine Finset.filter_true_of_mem fun guid hguid => ⟨h.trigger_ne, ?_⟩
    rintro rfl
    rcases Finset.mem_union.mp hguid with hold | hnew
    · exact h.trigger_notMem hold
    · exact hrolled (List.mem_toFinset.mp hnew)

/-- What is rolled is not active before. -/
theorem card_members : (g.activeMembers kind w.spawns ∪
        ((g.objectsToSpawn R kind t triggerFrom w).map PoolObject.guid).toFinset).card =
      (g.activeMembers kind w.spawns).card + (g.objectsToSpawn R kind t triggerFrom w).length := by
  have hsub := (g.objectsToSpawn_sublist R kind t triggerFrom w).map PoolObject.guid
  rw [Finset.card_union_of_disjoint, List.toFinset_card_of_nodup (hsub.nodup h.nodup), List.length_map]
  refine Finset.disjoint_right.mpr fun guid hguid hactive => ?_
  obtain ⟨obj, hobj, rfl⟩ := List.mem_map.mp (List.mem_toFinset.mp hguid)
  have hav := g.objectsToSpawn_available hobj
  rw [h.available_eq, (g.mem_activeMembers.mp hactive).2] at hav
  cases hav

end

end Vacant

/-- The active members are on the map, or were passed to `Spawn1Object`. -/
def Present (g : PoolGroup) (maps : PoolMaps) (kind : PoolKind) (w : RefillWorld) : Prop :=
  ∀ guid ∈ g.activeMembers kind w.spawns, maps.onMap kind guid ∨ (kind, guid) ∈ w.passed

/-- As many members are active as the limit and the entries allow, and they are there. -/
structure Refilled (g : PoolGroup) (maps : PoolMaps) (R : Rounding) (kind : PoolKind)
    (t : PoolTemplateData) (w : RefillWorld) : Prop where
  full : (g.activeMembers kind w.spawns).card = min (g.spawnLimit R t) g.equalChanced.length
  present : g.Present maps kind w

namespace Vacant

variable {w : RefillWorld}

theorem refillObject_spec (h : g.Vacant R kind t triggerFrom w.spawns) (hpresent : g.Present maps kind w)
    (hpassed : (kind, triggerFrom) ∉ w.passed)
    (hcalls : triggerFrom ∈ (g.objectsToSpawn R kind t triggerFrom w.toPoolWorld).map PoolObject.guid →
      maps.reSpawn1Object fuel kind triggerFrom = some calls) :
    ∃ w', g.refillObject maps fuel R kind t triggerFrom w = some w' ∧
      (g.activeMembers kind w'.spawns).card = (g.activeMembers kind w.spawns).card +
        (g.objectsToSpawn R kind t triggerFrom w.toPoolWorld).length ∧
      (g.Present maps kind w' ↔
        (triggerFrom ∈ (g.objectsToSpawn R kind t triggerFrom w.toPoolWorld).map PoolObject.guid →
          maps.onMap kind triggerFrom ∨ triggerFrom ∈ calls)) := by
  have hcard := h.card_members
  obtain ⟨w', hw', hmembers⟩ := h.spawnObject_members
  refine ⟨_, (refillObject_eq w h.nodup h.zero hcalls).trans (by rw [hw']; rfl), ?_, ?_⟩
  · rw [← hcard, ← hmembers]
  have hactive : g.activeMembers kind w'.spawns = _ := hmembers
  unfold Present
  rw [hactive]
  generalize g.objectsToSpawn R kind t triggerFrom w.toPoolWorld = rolled
  have hmem (obj : PoolObject) (hobj : obj ∈ rolled) (p : PoolKind × ℕ)
      (hp : p ∈ passes kind triggerFrom calls obj) :
      p ∈ w.passed ++ rolled.flatMap (passes kind triggerFrom calls) :=
    List.mem_append_right _ (List.mem_flatMap.mpr ⟨obj, hobj, hp⟩)
  constructor
  · intro hall hrolled
    refine (hall triggerFrom (Finset.mem_union_right _ (List.mem_toFinset.mpr hrolled))).imp id fun hp => ?_
    obtain ⟨obj, -, hp⟩ := List.mem_flatMap.mp ((List.mem_append.mp hp).resolve_left hpassed)
    unfold passes at hp
    split at hp
    next hobj =>
      obtain ⟨guid, hguid, he⟩ := List.mem_map.mp hp
      cases he
      exact hguid
    next hobj =>
      cases List.mem_singleton.mp hp
      exact absurd rfl hobj
  · intro hback guid hguid
    rcases Finset.mem_union.mp hguid with hold | hnew
    · exact (hpresent guid hold).imp id fun hp => List.mem_append_left _ hp
    obtain ⟨obj, hobj, rfl⟩ := List.mem_map.mp (List.mem_toFinset.mp hnew)
    by_cases htrigger : obj.guid = triggerFrom
    · rw [htrigger] at hnew ⊢
      refine (hback (List.mem_toFinset.mp hnew)).imp id fun hcall => hmem obj hobj _ ?_
      rw [passes, if_pos htrigger]
      exact List.mem_map_of_mem hcall
    · refine .inr (hmem obj hobj _ ?_)
      rw [passes, if_neg htrigger]
      exact List.mem_singleton_self _

/-- **When the update of a pool refills it.** -/
theorem refillsGroup_iff (h : g.Vacant R kind t triggerFrom w.spawns) (hpresent : g.Present maps kind w)
    (hpassed : (kind, triggerFrom) ∉ w.passed) :
    (∃ fuel, (g.refillObject maps fuel R kind t triggerFrom w).isSome) ∧
        (∀ fuel w', g.refillObject maps fuel R kind t triggerFrom w = some w' →
          g.Refilled maps R kind t w') ↔
      (g.spawnLimit R t - (g.activeMembers kind w.spawns).card < 2 ^ 31 ∧
        (g.equalChanced = [] → g.objectsToSpawn R kind t triggerFrom w.toPoolWorld = [])) ∧
      (triggerFrom ∈ (g.objectsToSpawn R kind t triggerFrom w.toPoolWorld).map PoolObject.guid →
        maps.comesBack kind triggerFrom) := by
  rw [← h.full_iff]
  by_cases hrolled :
      triggerFrom ∈ (g.objectsToSpawn R kind t triggerFrom w.toPoolWorld).map PoolObject.guid
  · simp only [hrolled, true_imp_iff]
    rw [PoolMaps.comesBack_iff]
    constructor
    · rintro ⟨⟨fuel, hsome⟩, hall⟩
      have hends (fuel : ℕ) (calls : List ℕ) (hcalls : maps.reSpawn1Object fuel kind triggerFrom = some calls) :
          (g.activeMembers kind w.spawns).card +
              (g.objectsToSpawn R kind t triggerFrom w.toPoolWorld).length =
            min (g.spawnLimit R t) g.equalChanced.length ∧
          (maps.onMap kind triggerFrom ∨ triggerFrom ∈ calls) := by
        obtain ⟨w', hw', hcard, hiff⟩ := h.refillObject_spec hpresent hpassed fun _ => hcalls
        have hrefilled := hall fuel w' hw'
        exact ⟨hcard ▸ hrefilled.full, hiff.mp hrefilled.present hrolled⟩
      cases hcalls : maps.reSpawn1Object fuel kind triggerFrom with
      | none =>
        rw [refillObject_eq_none w hrolled hcalls] at hsome
        cases hsome
      | some calls =>
        refine ⟨(hends fuel calls hcalls).1, ⟨fuel, by rw [hcalls]; rfl⟩, fun fuel calls hcalls => ?_⟩
        exact (hends fuel calls hcalls).2
    · rintro ⟨hfull, ⟨fuel, hsome⟩, hback⟩
      have hends (fuel : ℕ) (calls : List ℕ) (hcalls : maps.reSpawn1Object fuel kind triggerFrom = some calls) :
          ∃ w', g.refillObject maps fuel R kind t triggerFrom w = some w' ∧ g.Refilled maps R kind t w' := by
        obtain ⟨w', hw', hcard, hiff⟩ := h.refillObject_spec hpresent hpassed fun _ => hcalls
        exact ⟨w', hw', hcard.trans hfull, hiff.mpr fun _ => hback fuel calls hcalls⟩
      constructor
      · obtain ⟨calls, hcalls⟩ := Option.isSome_iff_exists.mp hsome
        obtain ⟨w', hw', -⟩ := hends fuel calls hcalls
        exact ⟨fuel, by rw [hw']; rfl⟩
      · intro fuel w' hw'
        cases hcalls : maps.reSpawn1Object fuel kind triggerFrom with
        | none =>
          rw [refillObject_eq_none w hrolled hcalls] at hw'
          cases hw'
        | some calls =>
          obtain ⟨w'', hw'', hrefilled⟩ := hends fuel calls hcalls
          cases hw'.symm.trans hw''
          exact hrefilled
  · have hends (fuel : ℕ) := h.refillObject_spec hpresent hpassed
      (fun h => absurd h hrolled : _ → maps.reSpawn1Object fuel kind triggerFrom = some [])
    constructor
    · rintro ⟨-, hall⟩
      obtain ⟨w', hw', hcard, -⟩ := hends 0
      exact ⟨hcard ▸ (hall 0 w' hw').full, fun h => absurd h hrolled⟩
    · rintro ⟨hfull, -⟩
      constructor
      · obtain ⟨w', hw', -⟩ := hends 0
        exact ⟨0, by rw [hw']; rfl⟩
      · intro fuel w' hw'
        obtain ⟨w'', hw'', hcard, hiff⟩ := hends fuel
        cases hw'.symm.trans hw''
        exact ⟨hcard.trans hfull, hiff.mpr fun h => absurd h hrolled⟩

end Vacant

end PoolGroup

end Sunstrider.Pools
