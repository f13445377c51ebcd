import Sunstrider.Laws.Pools.Circles
import Sunstrider.Laws.Pools.Refill

/-!
# A pool refills

The update of a pool without a mother is the one of its group. A pool with a mother is only rolled by it,
and as it is marked, the mother leaves it alone (`spawnPoolOf_marked`), and so does every pool that the
mother spawns (`spawnPool_marked`). So a pool refills exactly where its group does, or where it has a mother
and nothing is missing (`refills_iff`).
-/

namespace Sunstrider.Pools

open Sunstrider.Lib (Rounding Ensures Acyclic)

namespace PoolMgr

open ActivePoolData PoolGroup

variable {mgr : PoolMgr} {R : Rounding} {kind other : PoolKind} {poolId pool : ℕ} {w : PoolWorld}
  {s : ActivePoolData}

/-! ## The pool and its mother -/

/-- Members have chances of their own only where the limit is 1. -/
def ExplicitSingle (mgr : PoolMgr) : Prop :=
  ∀ kind poolId, (mgr.groups kind poolId).explicitlyChanced = [] ∨ (mgr.template poolId).maxLimit = 1

/-- A pool of creatures or of gameobjects. Each member is listed once and in no other pool, and a mother
lists the pool once. There is no pool and no member 0, which is none. -/
structure OwnMembers (mgr : PoolMgr) (kind : PoolKind) (poolId : ℕ) : Prop where
  kind_ne : kind ≠ .pool
  single : ∀ other ≠ kind, (mgr.groups other poolId).isEmpty
  nodup : (mgr.groups kind poolId).guids.Nodup
  own : ∀ other ≠ poolId, ∀ guid ∈ (mgr.groups kind poolId).guids, guid ∉ (mgr.groups kind other).guids
  listed : ∀ mother, (mgr.groups .pool mother).guids.count poolId ≤ 1
  poolId_ne : poolId ≠ 0
  zero : 0 ∉ (mgr.groups kind poolId).guids

/-- The pools whose limits hold are such pools, but for the numbers 0. -/
theorem PlainPool.ownMembers (h : mgr.PlainPool kind poolId) (hne : poolId ≠ 0)
    (hzero : 0 ∉ (mgr.groups kind poolId).guids) : mgr.OwnMembers kind poolId := by
  refine ⟨h.kind_ne, h.single, h.nodup, h.own, fun mother => ?_, hne, hzero⟩
  by_contra htwice
  have hsub : [poolId, poolId].Sublist (mgr.groups .pool mother).guids :=
    List.replicate_sublist_iff.mpr (Nat.lt_of_not_le htwice)
  exact h.ahead mother poolId hsub .refl

section
variable (hl : mgr.Loaded) (ho : mgr.OwnMembers kind poolId)
  (hid : (mgr.groups kind poolId).poolId = poolId)
include hl ho hid

variable {obj : PoolObject}

theorem OwnMembers.apart (hne : pool ≠ poolId) (hobj : obj ∈ (mgr.groups other pool).objects)
    (hchild : other = .pool → obj.guid ≠ poolId) :
    Apart (mgr.groups kind poolId) kind other obj.guid (mgr.groups other pool).poolId := by
  rw [hl.poolId other pool (isEmpty_of_mem hobj)]
  refine ⟨hid.symm ▸ hne, fun hother hmem => ?_, hid.symm ▸ hchild⟩
  subst hother
  exact ho.own pool hne obj.guid hmem (PoolGroup.mem_guids _ hobj)

omit hl ho in
theorem marked_of_untouched {s' : ActivePoolData} (h : Untouched (mgr.groups kind poolId) kind s s')
    (hmark : s.isActiveObject .pool poolId) : s'.isActiveObject .pool poolId := by
  have hsame := h.mark
  have hmarked : (s.spawnedPools poolId).isSome := hmark
  rw [hid] at hsame
  rw [← hsame] at hmarked
  exact hmarked

/-- What holds while the objects of another pool are spawned: the pool is left alone, and is the trigger
if it is still to come. -/
structure Passing (mgr : PoolMgr) (kind : PoolKind) (poolId : ℕ) (other : PoolKind) (pool : ℕ)
    (s : ActivePoolData) (rest : List PoolObject) (out : PoolWorld × ℕ) : Prop where
  objects : rest.Sublist (mgr.groups other pool).objects
  untouched : Untouched (mgr.groups kind poolId) kind s out.1.spawns
  trigger : out.2 = 0 ∨ other = .pool ∧ out.2 = poolId
  come : other = .pool → (poolId ∈ rest.map PoolObject.guid ↔ out.2 = poolId)

omit hl hid in
theorem Passing.spawn_self {spawn1Object : ℕ → PoolWorld → Option PoolWorld}
    {rest : List PoolObject} {out : PoolWorld × ℕ}
    (hmark : out.1.spawns.isActiveObject .pool poolId)
    (h : mgr.Passing kind poolId .pool pool s (obj :: rest) out) (hobj : obj.guid = poolId) :
    Ensures ((mgr.groups .pool pool).spawn1Rolled spawn1Object .pool out.1 out.2 obj)
      (mgr.Passing kind poolId .pool pool s rest) := by
  have htrigger : out.2 = poolId := (h.come rfl).mp (by simp [hobj])
  rw [spawn1Rolled, if_pos (hobj.trans htrigger.symm), hobj, if_pos hmark]
  refine Ensures.of_some ⟨List.sublist_of_cons_sublist h.objects, h.untouched, .inl rfl, fun _ => ?_⟩
  refine iff_of_false (fun hmem => ?_) ho.poolId_ne.symm
  have hcount := ((h.objects.map PoolObject.guid).count_le poolId).trans (ho.listed pool)
  have hpos := List.count_pos_iff.mpr hmem
  rw [List.map_cons, hobj, List.count_cons_self] at hcount
  omega

theorem Passing.spawn_other {spawn1Pool : ℕ → PoolWorld → Option PoolWorld} {rest : List PoolObject}
    {out : PoolWorld × ℕ} (hne : pool ≠ poolId) (hmark : s.isActiveObject .pool poolId)
    (h : mgr.Passing kind poolId other pool s (obj :: rest) out)
    (hobj : other = .pool → obj.guid ≠ poolId)
    (hspawn : ∀ child w', child ≠ poolId → w'.spawns.isActiveObject .pool poolId →
      Ensures (spawn1Pool child w') fun w'' =>
        Untouched (mgr.groups kind poolId) kind w'.spawns w''.spawns) :
    Ensures ((mgr.groups other pool).spawn1Rolled (oneObject spawn1Pool other) other out.1 out.2 obj)
      (mgr.Passing kind poolId other pool s rest) := by
  have hrest := List.sublist_of_cons_sublist h.objects
  have hcome : other = .pool → (poolId ∈ rest.map PoolObject.guid ↔ out.2 = poolId) := by
    intro hother
    rw [← h.come hother, List.map_cons, List.mem_cons, or_iff_right (Ne.symm (hobj hother))]
  have hapart := OwnMembers.apart hl ho hid hne (h.objects.subset List.mem_cons_self) hobj
  have hactivate := h.untouched.trans (hapart.activate (s := out.1.spawns) ho.kind_ne)
  unfold spawn1Rolled
  split
  · next htrigger =>
    have hzero : out.2 = 0 := h.trigger.resolve_right fun hself =>
      hobj hself.1 (htrigger.trans hself.2)
    have hcome' : other = .pool → (poolId ∈ rest.map PoolObject.guid ↔ 0 = poolId) := by
      rw [← hzero]
      exact hcome
    split
    · exact Ensures.of_some ⟨hrest, h.untouched, .inl rfl, hcome'⟩
    · exact Ensures.of_some ⟨hrest, hactivate, .inl rfl, hcome'⟩
  · refine Ensures.map ?_
    cases other with
    | creature => exact Ensures.of_some ⟨hrest, hactivate, h.trigger, hcome⟩
    | gameobject => exact Ensures.of_some ⟨hrest, hactivate, h.trigger, hcome⟩
    | pool =>
      refine (hspawn obj.guid _ (hobj rfl) (marked_of_untouched hid hactivate hmark)).mono fun w' hw' => ?_
      exact ⟨hrest, hactivate.trans hw', h.trigger, hcome⟩

/-- **The objects of another pool are spawned, and the pool is left alone** where it is marked: it is not
among those that are rolled, or it is the trigger. -/
theorem spawnPoolOf_marked {spawn1Pool despawn1Pool : ℕ → PoolWorld → Option PoolWorld}
    {triggerFrom : ℕ} (hne : pool ≠ poolId) (hmark : w.spawns.isActiveObject .pool poolId)
    (htrigger : triggerFrom = 0 ∨ other = .pool ∧ triggerFrom = poolId ∧
      poolId ∈ ((mgr.groups other pool).objectsToSpawn R other (mgr.template pool) triggerFrom w).map
        PoolObject.guid)
    (hspawn : ∀ child w', child ≠ poolId → w'.spawns.isActiveObject .pool poolId →
      Ensures (spawn1Pool child w') fun w'' =>
        Untouched (mgr.groups kind poolId) kind w'.spawns w''.spawns) :
    Ensures (mgr.spawnPoolOf R spawn1Pool despawn1Pool other pool triggerFrom w) fun w' =>
      Untouched (mgr.groups kind poolId) kind w.spawns w'.spawns := by
  unfold spawnPoolOf
  split
  · exact Ensures.of_some (.refl _)
  refine spawnObject_rule (mgr.Passing kind poolId other pool w.spawns)
    ⟨objectsToSpawn_sublist .., .refl _, htrigger.imp id fun h => ⟨h.1, h.2.1⟩, fun hother => ?_⟩
    (fun out obj rest hinv => ?_) (fun out hinv hsome => ?_) fun out hinv _ => hinv.untouched
  · subst hother
    rcases htrigger with hzero | hself
    · refine iff_of_false (fun hmem => ?_) (hzero ▸ ho.poolId_ne.symm)
      obtain ⟨obj, hobj, hguid⟩ := List.mem_map.mp hmem
      have hav := objectsToSpawn_available _ hobj
      rw [available, hguid, hmark, hzero] at hav
      simp [ho.poolId_ne] at hav
    · exact iff_of_true hself.2.2 hself.2.1
  · by_cases hself : other = .pool ∧ obj.guid = poolId
    · obtain ⟨rfl, hself⟩ := hself
      exact hinv.spawn_self ho (marked_of_untouched hid hinv.untouched hmark) hself
    · exact hinv.spawn_other hl ho hid hne hmark (fun hother he => hself ⟨hother, he⟩) hspawn
  · -- the trigger has been respawned
    obtain ⟨hother, he⟩ := hinv.trigger.resolve_left hsome
    cases (hinv.come hother).mpr he

/-- **A pool that is marked is left alone by every other.** -/
theorem spawnPool_marked (fuel : ℕ) (hne : pool ≠ poolId)
    (hmark : w.spawns.isActiveObject .pool poolId) :
    Ensures (mgr.spawnPool R fuel pool w) fun w' =>
      Untouched (mgr.groups kind poolId) kind w.spawns w'.spawns := by
  induction fuel generalizing pool w with
  | zero => exact fun w' h => (nomatch h)
  | succ fuel ih =>
    have hof (other : PoolKind) {w' : PoolWorld}
        (h : Untouched (mgr.groups kind poolId) kind w.spawns w'.spawns) :
        Ensures (mgr.spawnPoolOf R (mgr.spawnPool R fuel) (mgr.despawnPool fuel) other pool 0 w')
          fun w'' => Untouched (mgr.groups kind poolId) kind w.spawns w''.spawns :=
      (spawnPoolOf_marked hl ho hid hne (marked_of_untouched hid h hmark) (.inl rfl)
        fun child w'' hchild hw'' => ih hchild hw'').mono fun w'' hw'' => h.trans hw''
    exact (hof .pool (.refl _)).bind fun w' h => (hof .gameobject h).bind fun w' h => hof .creature h

end

/-! ## The update -/

/-- A member of a pool with a limit is about to die. The pool is spawned: its active members are on the
map, or were passed to `Spawn1Object`. Pools of pools have no circle. -/
structure MemberDue (mgr : PoolMgr) (maps : PoolMaps) (R : Rounding) (kind : PoolKind) (poolId guid : ℕ)
    (w : RefillWorld) : Prop where
  loaded : mgr.Loaded
  explicit : mgr.ExplicitSingle
  acyclic : Acyclic mgr.Contains
  pools : ∃ pools : Finset ℕ, ∀ mother child, mgr.Contains mother child → child ∈ pools
  own : mgr.OwnMembers kind poolId
  limit_ne : (mgr.groups kind poolId).spawnLimit R (mgr.template poolId) ≠ 0
  limit_lt : (mgr.groups kind poolId).spawnLimit R (mgr.template poolId) < 2 ^ 32
  within : mgr.Within R kind poolId w.spawns
  present : (mgr.groups kind poolId).Present maps kind w
  active : guid ∈ (mgr.groups kind poolId).activeMembers kind w.spawns

/-- The mother rolls the pool when it is the trigger. -/
def Selects (mgr : PoolMgr) (R : Rounding) (mother poolId : ℕ) (w : PoolWorld) : Prop :=
  poolId ∈ ((mgr.groups .pool mother).objectsToSpawn R .pool (mgr.template mother) poolId w).map
    PoolObject.guid

/-- **What the update of a pool should do**: it ends, and refills a pool that has no mother, or is selected
by its mother. -/
structure Refills (mgr : PoolMgr) (maps : PoolMaps) (R : Rounding) (kind : PoolKind) (poolId guid : ℕ)
    (w : RefillWorld) : Prop where
  terminates : ∃ fuel, (mgr.updateRefill maps R fuel kind poolId guid w).isSome
  refilled : (∀ mother ∈ mgr.motherOf poolId, mgr.Selects R mother poolId w.toPoolWorld) →
    ∀ fuel w', mgr.updateRefill maps R fuel kind poolId guid w = some w' →
      (mgr.groups kind poolId).Refilled maps R kind (mgr.template poolId) w'

/-- The pool has no mother, the count is not read as a negative number, nothing is rolled where no entries
have equal chance, and the trigger comes back if it is rolled. With a mother, the pool has no entries of
equal chance if it is selected. -/
def Refillable (mgr : PoolMgr) (maps : PoolMaps) (R : Rounding) (kind : PoolKind) (poolId guid : ℕ)
    (w : RefillWorld) : Prop :=
  let g := mgr.groups kind poolId
  match mgr.motherOf poolId with
  | some mother => mgr.Selects R mother poolId w.toPoolWorld → g.equalChanced = []
  | none =>
    let rolled := g.objectsToSpawn R kind (mgr.template poolId) guid w.toPoolWorld
    (g.spawnLimit R (mgr.template poolId) - (g.activeMembers kind w.spawns).card < 2 ^ 31 ∧
      (g.equalChanced = [] → rolled = [])) ∧
      (guid ∈ rolled.map PoolObject.guid → maps.comesBack kind guid)

namespace MemberDue

variable {maps : PoolMaps} {guid : ℕ} {w : RefillWorld}

section

variable (h : mgr.MemberDue maps R kind poolId guid w)

include h

theorem nonempty : (mgr.groups kind poolId).isEmpty = false := by
  obtain ⟨obj, hobj, -⟩ := List.mem_map.mp ((mem_activeMembers _).mp h.active).1
  exact isEmpty_of_mem hobj

theorem poolId_eq :
    (mgr.groups kind poolId).poolId = poolId := h.loaded.poolId kind poolId h.nonempty

theorem spawns_memberDies :
    (memberDies kind poolId guid w).spawns = w.spawns.removeObject kind guid poolId := by
  unfold memberDies removeActiveObject
  rw [if_pos ((mem_activeMembers _).mp h.active).2]
  rfl

theorem activeMembers_memberDies :
    (mgr.groups kind poolId).activeMembers kind (memberDies kind poolId guid w).spawns =
      ((mgr.groups kind poolId).activeMembers kind w.spawns).erase guid := by
  rw [h.spawns_memberDies]
  exact activeMembers_remove h.own.kind_ne

theorem vacant : (mgr.groups kind poolId).Vacant R kind (mgr.template poolId) guid
      (memberDies kind poolId guid w).spawns := by
  obtain ⟨hguid, hactive⟩ := (mem_activeMembers _).mp h.active
  have hcounted := h.within.counted.remove h.own.kind_ne hguid hactive
  rw [h.poolId_eq, ← h.spawns_memberDies] at hcounted
  refine ⟨h.own.kind_ne, h.own.nodup, h.own.zero, h.explicit kind poolId, h.limit_lt, hcounted, ?_, hguid, ?_⟩
  · rw [h.activeMembers_memberDies, Finset.card_erase_of_mem h.active]
    have hpos := Finset.card_pos.mpr ⟨guid, h.active⟩
    have hlimit := h.within.limited h.limit_ne
    omega
  · rw [h.spawns_memberDies, isActiveObject_remove h.own.kind_ne]
    simp

theorem present_memberDies :
    (mgr.groups kind poolId).Present maps kind (memberDies kind poolId guid w) := by
  intro x hx
  rw [h.activeMembers_memberDies, Finset.mem_erase] at hx
  refine (h.present x hx.2).imp id fun hpassed => List.mem_filter.mpr ⟨hpassed, ?_⟩
  simp [hx.1]

theorem marked_memberDies : (memberDies kind poolId guid w).spawns.isActiveObject .pool poolId := by
  rw [h.spawns_memberDies]
  cases hkind : kind with
  | pool => exact absurd hkind h.own.kind_ne
  | creature => simp [isActiveObject, removeObject, decrease]
  | gameobject => simp [isActiveObject, removeObject, decrease]

theorem mother_isSome (mother : ℕ) (w' : PoolWorld) :
    ∃ fuel, (mgr.spawnPoolOf R (mgr.spawnPool R fuel) (mgr.despawnPool fuel) .pool mother poolId
      w').isSome := by
  obtain ⟨pools, hpools⟩ := h.pools
  obtain ⟨rank, hrank⟩ := Lib.exists_rank pools hpools h.acyclic
  have hchild (child : ℕ) (w' : PoolWorld) (hc : mgr.Contains mother child) :=
    isSome_of_rank hrank (rank mother) child w' (hrank mother child hc)
  exact ⟨rank mother, spawnPoolOf_isSome (fun child w' hc => (hchild child w' hc).2 R)
    (fun child w' hc => (hchild child w' hc).1) .pool poolId w'⟩

theorem mother_untouched (mother fuel : ℕ)
    (hselects : mgr.Selects R mother poolId (memberDies kind poolId guid w).toPoolWorld) :
    Ensures (mgr.spawnPoolOf R (mgr.spawnPool R fuel) (mgr.despawnPool fuel) .pool mother poolId
        (memberDies kind poolId guid w).toPoolWorld) fun w' =>
      Untouched (mgr.groups kind poolId) kind (memberDies kind poolId guid w).spawns w'.spawns := by
  have hne : mother ≠ poolId := by
    rintro rfl
    obtain ⟨obj, hobj, -⟩ := List.mem_map.mp hselects
    have hempty := h.own.single .pool h.own.kind_ne.symm
    rw [isEmpty_of_mem ((objectsToSpawn_sublist ..).subset hobj)] at hempty
    cases hempty
  exact spawnPoolOf_marked h.loaded h.own h.poolId_eq hne h.marked_memberDies (.inr ⟨rfl, rfl, hselects⟩)
    fun child w' hchild hmark => spawnPool_marked h.loaded h.own h.poolId_eq fuel hchild hmark

end

end MemberDue

/-- **When a pool refills**, as one of its members is due to respawn. -/
theorem refills_iff (mgr : PoolMgr) (maps : PoolMaps) (R : Rounding) (kind : PoolKind)
    (poolId guid : ℕ) (w : RefillWorld) (h : mgr.MemberDue maps R kind poolId guid w) :
    mgr.Refills maps R kind poolId guid (memberDies kind poolId guid w) ↔
      mgr.Refillable maps R kind poolId guid (memberDies kind poolId guid w) := by
  have hvacant := h.vacant
  have hpresent := h.present_memberDies
  have hpassed : (kind, guid) ∉ (memberDies kind poolId guid w).passed := by simp [memberDies]
  have hmother (mother : ℕ) := h.mother_isSome mother (memberDies kind poolId guid w).toPoolWorld
  have huntouched (mother fuel : ℕ) := h.mother_untouched mother fuel
  generalize memberDies kind poolId guid w = d at *
  unfold Refillable
  cases hmotherOf : mgr.motherOf poolId with
  | none =>
    have hupdate (fuel : ℕ) : mgr.updateRefill maps R fuel kind poolId guid d =
        (mgr.groups kind poolId).refillObject maps fuel R kind (mgr.template poolId) guid d := by
      rw [updateRefill, hmotherOf]
      exact if_neg (by rw [h.nonempty]; decide)
    dsimp only
    rw [← hvacant.refillsGroup_iff hpresent hpassed]
    constructor
    · intro hr
      have hrefilled := hr.refilled (by rw [hmotherOf]; exact fun _ he => nomatch he)
      obtain ⟨fuel, hsome⟩ := hr.terminates
      exact ⟨⟨fuel, hupdate fuel ▸ hsome⟩, fun fuel w' hw' => hrefilled fuel w' (hupdate fuel ▸ hw')⟩
    · rintro ⟨⟨fuel, hsome⟩, hall⟩
      exact ⟨⟨fuel, hupdate fuel ▸ hsome⟩, fun _ fuel w' hw' => hall fuel w' (hupdate fuel ▸ hw')⟩
  | some mother =>
    have hupdate (fuel : ℕ) : mgr.updateRefill maps R fuel kind poolId guid d =
        (mgr.spawnPoolOf R (mgr.spawnPool R fuel) (mgr.despawnPool fuel) .pool mother poolId
          d.toPoolWorld).map fun w' => ⟨w', d.passed⟩ := by
      rw [updateRefill, hmotherOf]
    obtain ⟨fuel, hsome⟩ := hmother mother
    dsimp only
    rw [← hvacant.card_lt]
    constructor
    · intro hr hselects
      obtain ⟨w', hw'⟩ := Option.isSome_iff_exists.mp hsome
      have hrefilled := hr.refilled
        (by rw [hmotherOf]; exact fun _ he => Option.some.inj he ▸ hselects) fuel ⟨w', d.passed⟩
        (by rw [hupdate, hw']; rfl)
      rw [← (huntouched mother fuel hselects w' hw').members]
      exact hrefilled.full
    · intro hfull
      refine ⟨⟨fuel, by rw [hupdate, Option.isSome_map]; exact hsome⟩, fun hselects fuel w' hw' => ?_⟩
      have hselects' := hselects mother (by rw [hmotherOf]; rfl)
      rw [hupdate] at hw'
      obtain ⟨w'', hw'', rfl⟩ := Option.map_eq_some_iff.mp hw'
      have hmembers := (huntouched mother fuel hselects' w'' hw'').members
      refine ⟨(congrArg Finset.card hmembers).trans (hfull hselects'), fun x hx => ?_⟩
      exact hpresent x (hmembers ▸ hx)

/-! ### A creature that handles its respawn itself -/

/-- Of the pool of three, the first creature is active and on the map. -/
def firstOfThree : RefillWorld :=
  { spawns := ⟨{11}, ∅, fun poolId => if poolId = 1 then some 1 else none⟩
    dice := lowestDice
    passed := [] }

/-- The first of the three creatures is on a continent, in the compatibility mode or not. -/
def onContinent (compatibilityMode : Bool) : PoolMaps where
  creatureData _ := some 0
  instanceable _ := false
  creatures guid := if guid = 11 then [compatibilityMode] else []
  gameobjects _ := false

theorem memberDue_firstOfThree (compatibilityMode : Bool) :
    (poolOfThree 0).MemberDue (onContinent compatibilityMode) .exact .creature 1 11 firstOfThree := by
  have hcontains (mother child : ℕ) : ¬ (poolOfThree 0).Contains mother child := by
    unfold Contains
    exact List.not_mem_nil
  have hlimit : ((poolOfThree 0).groups .creature 1).spawnLimit .exact ((poolOfThree 0).template 1) = 1 := by
    decide +kernel
  constructor
  · exact loaded_poolOfThree 0
  · intro kind poolId
    by_cases hpool : kind = .creature ∧ poolId = 1
    · obtain ⟨rfl, rfl⟩ := hpool
      exact .inl rfl
    · rw [poolOfThree_else 0 kind poolId hpool]
      exact .inl rfl
  · intro x hx
    obtain ⟨y, hxy, -⟩ := Relation.TransGen.head'_iff.mp hx
    exact hcontains x y hxy
  · exact ⟨∅, fun mother child hc => absurd hc (hcontains mother child)⟩
  · exact (plainPool_poolOfThree 0).ownMembers (by decide) (by decide)
  · rw [hlimit]
    decide
  · rw [hlimit]
    decide
  · refine ⟨?_, fun _ => ?_⟩
    · show 1 = (((poolOfThree 0).groups .creature 1).activeMembers .creature firstOfThree.spawns).card
      decide
    · rw [hlimit]
      decide
  · intro guid hguid
    have hfirst : ((poolOfThree 0).groups .creature 1).activeMembers .creature firstOfThree.spawns = {11} := by
      decide
    rw [hfirst, Finset.mem_singleton] at hguid
    subst hguid
    exact .inl rfl
  · decide

/-- In the compatibility mode the loop over the creatures does not end. -/
theorem not_refills_compatibilityMode :
    ¬ ∀ (mgr : PoolMgr) (maps : PoolMaps) (R : Rounding) (kind : PoolKind) (poolId guid : ℕ)
      (w : RefillWorld), mgr.MemberDue maps R kind poolId guid w →
        mgr.Refills maps R kind poolId guid (memberDies kind poolId guid w) := by
  intro hrefills
  obtain ⟨fuel, hsome⟩ := (hrefills (poolOfThree 0) (onContinent true) .exact .creature 1 11 firstOfThree
    (memberDue_firstOfThree true)).terminates
  have hloop : (onContinent true).reSpawn1Object fuel .creature 11 = none :=
    PoolMaps.reSpawnLoop_compatibility fuel []
  have hnone : (poolOfThree 0).updateRefill (onContinent true) .exact fuel .creature 1 11
      (memberDies .creature 1 11 firstOfThree) = none := by
    rw [updateRefill, show (poolOfThree 0).motherOf 1 = none from rfl]
    exact (if_neg (by decide)).trans (refillObject_eq_none _ (by decide +kernel) hloop)
  rw [hnone] at hsome
  cases hsome

/-- Out of this mode the creature is spawned anew. -/
theorem refills_iff_firstOfThree :
    (poolOfThree 0).MemberDue (onContinent false) .exact .creature 1 11 firstOfThree ∧
      ((poolOfThree 0).Refills (onContinent false) .exact .creature 1 11
          (memberDies .creature 1 11 firstOfThree) ↔
        (poolOfThree 0).Refillable (onContinent false) .exact .creature 1 11
          (memberDies .creature 1 11 firstOfThree)) :=
  ⟨memberDue_firstOfThree false, refills_iff (poolOfThree 0) (onContinent false) .exact .creature 1 11
    firstOfThree (memberDue_firstOfThree false)⟩

end PoolMgr

end Sunstrider.Pools
