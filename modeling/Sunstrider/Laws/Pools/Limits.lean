import Mathlib.Logic.Relation
import Sunstrider.Laws.Pools.Members

/-!
# The limit of a pool

What is spawned in one pool keeps the limit of another, and its count. The map of the counts also marks
the pools that are spawned, and the mark of a pool is only written when the pool has no active member: a
pool is rolled by its mother when it has no mark, and what the mother lists before it leaves it without
(`PoolMgr.spawnPool_other`).

The limit holds but for one case: a percentage of the entries that is rounded to 0 is no limit at all
(`PoolMgr.pool_limit_holds`, `PoolMgr.pool_limit_fails`).
-/

namespace Sunstrider.Pools

open Sunstrider.Lib (Rounding Ensures)

/-! ## Loaded pools -/

namespace PoolMgr

open ActivePoolData PoolGroup

/-- What loading guarantees: a group knows its pool, and no pool contains itself. -/
structure Loaded (mgr : PoolMgr) : Prop where
  poolId : ∀ kind poolId, (mgr.groups kind poolId).isEmpty = false →
    (mgr.groups kind poolId).poolId = poolId
  child : ∀ poolId, poolId ∉ (mgr.groups .pool poolId).guids

theorem guids_addEntry (g : PoolGroup) (obj : PoolObject) (maxentries x : ℕ) :
    x ∈ (g.addEntry obj maxentries).guids ↔ x = obj.guid ∨ x ∈ g.guids := by
  unfold addEntry guids PoolGroup.objects
  split
  · simp only [List.map_append, List.mem_append, List.map_cons, List.map_nil, List.mem_singleton]
    tauto
  · simp only [List.map_append, List.mem_append, List.map_cons, List.map_nil, List.mem_singleton]
    tauto

/-- The relation that spawning and despawning follow. -/
def Contains (mgr : PoolMgr) (mother child : ℕ) : Prop := child ∈ (mgr.groups .pool mother).guids

/-- The same without the mother `but`. -/
def Lists (mgr : PoolMgr) (but mother child : ℕ) : Prop := mother ≠ but ∧ mgr.Contains mother child

/-- A pool of creatures or of gameobjects. Each member is listed once and in no other pool. What a mother
lists before the pool does not spawn the pool, unless by way of that mother. -/
structure PlainPool (mgr : PoolMgr) (kind : PoolKind) (poolId : ℕ) : Prop where
  kind_ne : kind ≠ .pool
  nonempty : (mgr.groups kind poolId).isEmpty = false
  single : ∀ other ≠ kind, (mgr.groups other poolId).isEmpty
  nodup : (mgr.groups kind poolId).guids.Nodup
  own : ∀ other ≠ poolId, ∀ guid ∈ (mgr.groups kind poolId).guids, guid ∉ (mgr.groups kind other).guids
  ahead : ∀ mother child, [child, poolId].Sublist (mgr.groups .pool mother).guids →
    ¬ Relation.ReflTransGen (mgr.Lists mother) child poolId

/-- The count is right, and where there is a limit it holds. -/
structure Within (mgr : PoolMgr) (R : Rounding) (kind : PoolKind) (poolId : ℕ) (s : ActivePoolData) :
    Prop where
  counted : Counted (mgr.groups kind poolId) kind s
  limited : (mgr.groups kind poolId).spawnLimit R (mgr.template poolId) ≠ 0 →
    ((mgr.groups kind poolId).activeMembers kind s).card ≤
      (mgr.groups kind poolId).spawnLimit R (mgr.template poolId)

variable {mgr : PoolMgr} {R : Rounding} {kind other : PoolKind} {poolId pool : ℕ} {w : PoolWorld}
  {s s' : ActivePoolData}

theorem Within.of_untouched (h : mgr.Within R kind poolId s)
    (hu : Untouched (mgr.groups kind poolId) kind s s') : mgr.Within R kind poolId s' := by
  refine ⟨h.counted.of_untouched hu, fun hne => ?_⟩
  rw [hu.members]
  exact h.limited hne

theorem Within.of_empty (hempty : (mgr.groups kind poolId).activeMembers kind s = ∅)
    (hcount : s.getActiveObjectCount (mgr.groups kind poolId).poolId = 0) :
    mgr.Within R kind poolId s := by
  refine ⟨?_, fun hne => ?_⟩
  · unfold Counted
    rw [hcount, hempty, Finset.card_empty]
  · rw [hempty, Finset.card_empty]
    exact Nat.zero_le _

variable {obj : PoolObject}

theorem isEmpty_of_mem (h : obj ∈ (mgr.groups kind poolId).objects) :
    (mgr.groups kind poolId).isEmpty = false := by
  rw [Bool.eq_false_iff]
  intro hempty
  have hempty' := Bool.and_eq_true_iff.mp hempty
  rw [List.isEmpty_iff, List.isEmpty_iff] at hempty'
  rw [PoolGroup.objects, hempty'.1, hempty'.2] at h
  cases h

section
variable (hl : mgr.Loaded) (hp : mgr.PlainPool kind poolId)
include hl hp

theorem poolId_eq : (mgr.groups kind poolId).poolId = poolId := hl.poolId kind poolId hp.nonempty

theorem apart (hne : pool ≠ poolId) (hobj : obj ∈ (mgr.groups other pool).objects)
    (hchild : other = .pool → obj.guid ≠ poolId) :
    Apart (mgr.groups kind poolId) kind other obj.guid (mgr.groups other pool).poolId := by
  rw [hl.poolId other pool (isEmpty_of_mem hobj)]
  constructor
  · rw [poolId_eq hl hp]
    exact hne
  · intro hother hmem
    subst hother
    exact hp.own pool hne obj.guid hmem (PoolGroup.mem_guids _ hobj)
  · rw [poolId_eq hl hp]
    exact hchild

theorem Within.activate_pool (h : mgr.Within R kind poolId s) (hmark : s.spawnedPools poolId = none)
    (hne : pool ≠ poolId) : mgr.Within R kind poolId (s.activateObject .pool poolId pool) := by
  have hempty := h.counted.of_unmarked ((poolId_eq hl hp).symm ▸ hmark)
  refine .of_empty ?_ ?_
  · rw [← hempty]
    ext x
    rw [mem_activeMembers, mem_activeMembers, (isActiveObject_other hp.kind_ne hp.kind_ne.symm x).1]
  · rw [poolId_eq hl hp]
    simp [getActiveObjectCount, activateObject, increase, Function.update_of_ne hne.symm]

theorem Within.remove_pool (hempty : (mgr.groups kind poolId).activeMembers kind s = ∅)
    (hne : pool ≠ poolId) : mgr.Within R kind poolId (s.removeObject .pool poolId pool) := by
  refine .of_empty ?_ ?_
  · rw [← hempty]
    ext x
    rw [mem_activeMembers, mem_activeMembers, (isActiveObject_other hp.kind_ne hp.kind_ne.symm x).2]
  · rw [poolId_eq hl hp]
    simp [getActiveObjectCount, removeObject, decrease, Function.update_of_ne hne.symm]

/-! ## Pools that leave the pool alone -/

/-- What a pool leaves behind that does not spawn the pool: the pool as it was, and every mark. -/
structure Beside (mgr : PoolMgr) (kind : PoolKind) (poolId : ℕ) (s s' : ActivePoolData) : Prop where
  untouched : Untouched (mgr.groups kind poolId) kind s s'
  marks : ∀ x, s.isActiveObject .pool x → s'.isActiveObject .pool x

omit hl hp in
theorem Beside.refl (s : ActivePoolData) : mgr.Beside kind poolId s s := ⟨.refl s, fun _ h => h⟩

omit hl hp in
theorem Beside.trans {s s' s'' : ActivePoolData} (h : mgr.Beside kind poolId s s')
    (h' : mgr.Beside kind poolId s' s'') : mgr.Beside kind poolId s s'' :=
  ⟨h.untouched.trans h'.untouched, fun x hx => h'.marks x (h.marks x hx)⟩

omit hl hp in
/-- Activating an object takes no mark away, and marks the pool of the object. -/
theorem marks_activate (guid : ℕ) :
    (∀ x, s.isActiveObject .pool x → (s.activateObject other guid pool).isActiveObject .pool x) ∧
      (s.activateObject other guid pool).isActiveObject .pool pool := by
  have hincrease (s : ActivePoolData) : (∀ x, s.isActiveObject .pool x →
      (s.increase pool).isActiveObject .pool x) ∧ (s.increase pool).isActiveObject .pool pool := by
    constructor
    · intro x hx
      by_cases h : x = pool
      · simp [h, isActiveObject, increase]
      · simpa [isActiveObject, increase, Function.update_of_ne h] using hx
    · simp [isActiveObject, increase]
  cases other with
  | creature => exact ⟨fun x hx => (hincrease _).1 x hx, (hincrease _).2⟩
  | gameobject => exact ⟨fun x hx => (hincrease _).1 x hx, (hincrease _).2⟩
  | pool =>
    refine ⟨fun x hx => (hincrease _).1 x ?_, (hincrease _).2⟩
    by_cases h : x = guid
    · simp [h, isActiveObject]
    · simpa [isActiveObject, Function.update_of_ne h] using hx

theorem Beside.activate (hne : pool ≠ poolId) (hobj : obj ∈ (mgr.groups other pool).objects)
    (hchild : other = .pool → obj.guid ≠ poolId) :
    mgr.Beside kind poolId s (s.activateObject other obj.guid (mgr.groups other pool).poolId) :=
  ⟨(apart hl hp hne hobj hchild).activate hp.kind_ne, (marks_activate obj.guid).1⟩

/-- A pool from which the pool is not spawned: all ways to it lead over a mother that is marked. -/
structure Past (mgr : PoolMgr) (poolId mother pool : ℕ) (s : ActivePoolData) : Prop where
  ne : pool ≠ mother
  marked : s.isActiveObject .pool mother
  apart : ¬ Relation.ReflTransGen (mgr.Lists mother) pool poolId

variable {mother : ℕ}

omit hl hp in
theorem Past.of_beside (h : mgr.Past poolId mother pool s) (hs : mgr.Beside kind poolId s s') :
    mgr.Past poolId mother pool s' :=
  ⟨h.ne, hs.marks mother h.marked, h.apart⟩

omit hl hp in
theorem Past.ne_pool (h : mgr.Past poolId mother pool s) : pool ≠ poolId :=
  fun he => h.apart (he ▸ .refl)

omit hl hp in
theorem Past.child {child : ℕ} (h : mgr.Past poolId mother pool s)
    (hchild : child ∈ (mgr.groups .pool pool).guids) (hmark : s.isActiveObject .pool child = false)
    : mgr.Past poolId mother child s := by
  refine ⟨fun he => ?_, h.marked, fun hreach => h.apart (.head ⟨h.ne, hchild⟩ hreach)⟩
  rw [he, h.marked] at hmark
  cases hmark

variable {despawn1Pool spawn1Pool : ℕ → PoolWorld → Option PoolWorld}

theorem spawnPoolOf_beside (hpast : mgr.Past poolId mother pool w.spawns)
    (hspawn : ∀ child w', mgr.Past poolId mother child w'.spawns →
      Ensures (spawn1Pool child w') fun w'' => mgr.Beside kind poolId w'.spawns w''.spawns) :
    Ensures (mgr.spawnPoolOf R spawn1Pool despawn1Pool other pool 0 w) fun w' =>
      mgr.Beside kind poolId w.spawns w'.spawns := by
  unfold spawnPoolOf
  split
  · exact Ensures.of_some (.refl _)
  let g := mgr.groups other pool
  have hchild (obj : PoolObject) (hobj : obj ∈ g.objects) (hother : other = .pool) :
      obj.guid ≠ poolId := by
    subst hother
    exact fun he => hpast.apart (.single ⟨hpast.ne, he ▸ PoolGroup.mem_guids _ hobj⟩)
  refine spawnObject_rule (fun rest out => (∀ obj ∈ rest, obj ∈ g.objects ∧
    available w.spawns other 0 obj) ∧ out.2 = 0 ∧ mgr.Beside kind poolId w.spawns out.1.spawns)
    ⟨fun obj h => ⟨(g.objectsToSpawn_sublist ..).subset h, g.objectsToSpawn_available h⟩, rfl, .refl _⟩
    (fun out obj rest hinv => ?_) (fun out hinv hne => absurd hinv.2.1 hne) fun out hinv _ => hinv.2.2
  obtain ⟨hrest, htrigger, hbeside⟩ := hinv
  obtain ⟨hobj, hav⟩ := hrest obj List.mem_cons_self
  have hrest' : ∀ obj' ∈ rest, obj' ∈ g.objects ∧ available w.spawns other 0 obj' := fun obj' h =>
    hrest obj' (List.mem_cons_of_mem obj h)
  have hactivate := hbeside.trans (Beside.activate hl hp hpast.ne_pool hobj (hchild obj hobj))
  unfold spawn1Rolled
  rw [htrigger]
  split
  · split
    · exact Ensures.of_some ⟨hrest', rfl, hbeside⟩
    · exact Ensures.of_some ⟨hrest', rfl, hactivate⟩
  · next hzero =>
    refine Ensures.map ?_
    cases other with
    | creature => exact Ensures.of_some ⟨hrest', rfl, hactivate⟩
    | gameobject => exact Ensures.of_some ⟨hrest', rfl, hactivate⟩
    | pool =>
      have hinactive : w.spawns.isActiveObject .pool obj.guid = false := by
        simpa [available, hzero] using hav
      have hpast' := hpast.child (PoolGroup.mem_guids _ hobj) hinactive
      refine (hspawn obj.guid _ (hpast'.of_beside hactivate)).mono fun w' hw' => ?_
      exact ⟨hrest', rfl, hactivate.trans hw'⟩

/-- **A pool from which the pool is not spawned leaves it alone.** -/
theorem spawnPool_other (fuel : ℕ) (hpast : mgr.Past poolId mother pool w.spawns) :
    Ensures (mgr.spawnPool R fuel pool w) fun w' => mgr.Beside kind poolId w.spawns w'.spawns := by
  induction fuel generalizing pool w with
  | zero => exact fun w' h => (nomatch h)
  | succ fuel ih =>
    have hof (other : PoolKind) {w' : PoolWorld} (h : mgr.Beside kind poolId w.spawns w'.spawns) :
        Ensures (mgr.spawnPoolOf R (mgr.spawnPool R fuel) (mgr.despawnPool fuel) other pool 0 w')
          fun w'' => mgr.Beside kind poolId w.spawns w''.spawns :=
      (spawnPoolOf_beside hl hp (hpast.of_beside h) fun child w'' hb => ih hb).mono fun w'' hw =>
        h.trans hw
    exact (hof .pool (.refl _)).bind fun w' h => (hof .gameobject h).bind fun w' h => hof .creature h

/-! ## Despawning -/

omit hl hp in
theorem oneObject_eq {onPool : ℕ → PoolWorld → Option PoolWorld} {kind : PoolKind}
    (hkind : kind ≠ .pool) : oneObject onPool kind = fun _ w => some w := by
  cases kind with
  | creature => rfl
  | gameobject => rfl
  | pool => exact absurd rfl hkind

theorem despawnObject_other (guid : ℕ) (hne : pool ≠ poolId) (h : mgr.Within R kind poolId w.spawns)
    (hdespawn : ∀ child w', mgr.Within R kind poolId w'.spawns →
      Ensures (despawn1Pool child w') fun w'' => mgr.Within R kind poolId w''.spawns ∧
        (child = poolId → (mgr.groups kind poolId).activeMembers kind w''.spawns = ∅)) :
    Ensures ((mgr.groups other pool).despawnObject (oneObject despawn1Pool other) other guid w)
      fun w' => mgr.Within R kind poolId w'.spawns := by
  refine despawnObject_rule h fun w' obj hobj hw' _ => ?_
  have hremove {w'' : PoolWorld} (hw'' : mgr.Within R kind poolId w''.spawns)
      (hchild : other = .pool → obj.guid ≠ poolId) : mgr.Within R kind poolId
        (w''.removeObject other obj.guid (mgr.groups other pool).poolId).spawns :=
    hw''.of_untouched ((apart hl hp hne hobj hchild).remove hp.kind_ne)
  cases other with
  | creature => exact Ensures.of_some (hremove hw' fun h => (nomatch h))
  | gameobject => exact Ensures.of_some (hremove hw' fun h => (nomatch h))
  | pool =>
    refine (hdespawn obj.guid w' hw').mono fun w'' hw'' => ?_
    by_cases hchild : obj.guid = poolId
    · rw [hchild, hl.poolId .pool pool (isEmpty_of_mem hobj)]
      exact Within.remove_pool hl hp (hw''.2 hchild) hne
    · exact hremove hw''.1 fun _ => hchild

theorem despawnPoolOf_keeps (h : mgr.Within R kind poolId w.spawns)
    (hdespawn : ∀ child w', mgr.Within R kind poolId w'.spawns →
      Ensures (despawn1Pool child w') fun w'' => mgr.Within R kind poolId w''.spawns ∧
        (child = poolId → (mgr.groups kind poolId).activeMembers kind w''.spawns = ∅)) :
    Ensures (mgr.despawnPoolOf despawn1Pool other pool w) fun w' =>
      mgr.Within R kind poolId w'.spawns ∧
        (pool = poolId → (other = kind ∨ (mgr.groups kind poolId).activeMembers kind w.spawns = ∅) →
          (mgr.groups kind poolId).activeMembers kind w'.spawns = ∅) := by
  unfold despawnPoolOf
  split
  next hempty =>
    refine Ensures.of_some ⟨h, fun hpool hor => hor.resolve_left fun hother => ?_⟩
    subst hpool hother
    rw [hp.nonempty] at hempty
    cases hempty
  next hempty =>
    by_cases hpool : pool = poolId
    · have hother : other = kind := by
        by_contra hne
        exact hempty (hpool ▸ hp.single other hne)
      subst hpool hother
      rw [oneObject_eq hp.kind_ne]
      refine (despawnObject_members hp.kind_ne 0 h.counted).mono fun w' hw' => ?_
      have hnone : (mgr.groups other pool).activeMembers other w'.spawns = ∅ := by
        rw [hw'.2]
        simp
      refine ⟨⟨hw'.1, fun _ => ?_⟩, fun _ _ => hnone⟩
      rw [hnone, Finset.card_empty]
      exact Nat.zero_le _
    · exact (despawnObject_other hl hp 0 hpool h hdespawn).mono fun w' hw' =>
        ⟨hw', fun he => absurd he hpool⟩

/-- **Despawning a pool keeps the limit**, and the pool itself has no active member then. -/
theorem despawnPool_keeps (fuel : ℕ) (h : mgr.Within R kind poolId w.spawns) :
    Ensures (mgr.despawnPool fuel pool w) fun w' => mgr.Within R kind poolId w'.spawns ∧
      (pool = poolId → (mgr.groups kind poolId).activeMembers kind w'.spawns = ∅) := by
  induction fuel generalizing pool w with
  | zero => exact fun w' h => (nomatch h)
  | succ fuel ih =>
    have hdespawn := fun (child : ℕ) (w' : PoolWorld) (hw' : mgr.Within R kind poolId w'.spawns) =>
      @ih child w' hw'
    refine (despawnPoolOf_keeps hl hp h hdespawn).bind fun w₁ h₁ => ?_
    refine (despawnPoolOf_keeps hl hp h₁.1 hdespawn).bind fun w₂ h₂ => ?_
    refine (despawnPoolOf_keeps hl hp h₂.1 hdespawn).mono fun w₃ h₃ => ⟨h₃.1, fun he => ?_⟩
    cases kind with
    | creature => exact h₃.2 he (.inr (h₂.2 he (.inr (h₁.2 he (.inl rfl)))))
    | gameobject => exact h₃.2 he (.inr (h₂.2 he (.inl rfl)))
    | pool => exact absurd rfl hp.kind_ne

/-! ## Spawning -/

/-- What holds while the objects of a pool are spawned: until the pool itself is reached, it is the
trigger or has no mark. -/
structure Pending (mgr : PoolMgr) (R : Rounding) (kind : PoolKind) (poolId : ℕ) (other : PoolKind)
    (pool : ℕ) (rest : List PoolObject) (out : PoolWorld × ℕ) : Prop where
  objects : rest.Sublist (mgr.groups other pool).objects
  within : mgr.Within R kind poolId out.1.spawns
  mark : other = .pool → poolId ∈ rest.map PoolObject.guid →
    out.2 = poolId ∨ out.1.spawns.spawnedPools poolId = none

variable {rest : List PoolObject} {out : PoolWorld × ℕ}

omit hl in
theorem Pending.ahead (h : mgr.Pending R kind poolId .pool pool (obj :: rest) out)
    (hmem : poolId ∈ rest.map PoolObject.guid) :
    ¬ Relation.ReflTransGen (mgr.Lists pool) obj.guid poolId := by
  refine hp.ahead pool obj.guid (List.Sublist.trans ?_ (h.objects.map PoolObject.guid))
  exact (List.singleton_sublist.mpr hmem).cons_cons obj.guid

theorem Pending.spawn_pool (hne : pool ≠ poolId)
    (h : mgr.Pending R kind poolId .pool pool (obj :: rest) out) (hchild : obj.guid = poolId)
    (hspawn : ∀ child w', mgr.Within R kind poolId w'.spawns →
      Ensures (spawn1Pool child w') fun w'' => mgr.Within R kind poolId w''.spawns) :
    Ensures ((mgr.groups .pool pool).spawn1Rolled (oneObject spawn1Pool .pool) .pool out.1 out.2 obj)
      (mgr.Pending R kind poolId .pool pool rest) := by
  have hlast : poolId ∉ rest.map PoolObject.guid := fun hmem => h.ahead hp hmem (hchild ▸ .refl)
  have hdone {w' : PoolWorld} {t : ℕ} (hw : mgr.Within R kind poolId w'.spawns) :
      mgr.Pending R kind poolId .pool pool rest (w', t) :=
    ⟨List.sublist_of_cons_sublist h.objects, hw, fun _ hmem => absurd hmem hlast⟩
  have hactivate (hmark : out.1.spawns.spawnedPools poolId = none) : mgr.Within R kind poolId
      (out.1.activateObject .pool obj.guid (mgr.groups .pool pool).poolId).spawns := by
    have hobj := h.objects.subset List.mem_cons_self
    rw [hchild, hl.poolId .pool pool (isEmpty_of_mem hobj)]
    exact h.within.activate_pool hl hp hmark hne
  unfold spawn1Rolled
  split
  · split
    · exact Ensures.of_some (hdone h.within)
    · next hactive =>
      refine Ensures.of_some (hdone (hactivate ?_))
      simpa [isActiveObject, hchild] using hactive
  · next htrigger =>
    have hmark := (h.mark rfl (hchild ▸ List.mem_cons_self)).resolve_left fun he =>
      htrigger (hchild.trans he.symm)
    exact Ensures.map ((hspawn obj.guid _ (hactivate hmark)).mono fun w' hw => hdone hw)

theorem Pending.spawn_other (hne : pool ≠ poolId)
    (h : mgr.Pending R kind poolId other pool (obj :: rest) out)
    (hchild : other = .pool → obj.guid ≠ poolId)
    (hbeside : ∀ mother child w', mgr.Past poolId mother child w'.spawns →
      Ensures
    (spawn1Pool child w') fun w'' => mgr.Beside kind poolId w'.spawns w''.spawns)
    (hspawn : ∀ child w', mgr.Within R kind poolId w'.spawns →
      Ensures (spawn1Pool child w') fun w'' => mgr.Within R kind poolId w''.spawns) :
    Ensures ((mgr.groups other pool).spawn1Rolled (oneObject spawn1Pool other) other out.1 out.2 obj)
      (mgr.Pending R kind poolId other pool rest) := by
  have hobj := h.objects.subset List.mem_cons_self
  have hrest := List.sublist_of_cons_sublist h.objects
  have hactivate := Beside.activate (s := out.1.spawns) hl hp hne hobj hchild
  have hwithin := h.within.of_untouched hactivate.untouched
  have hkeep {s' : ActivePoolData} (hs : mgr.Beside kind poolId out.1.spawns s')
      (hnone : out.1.spawns.spawnedPools poolId = none) : s'.spawnedPools poolId = none := by
    have hmark := hs.untouched.mark
    rw [poolId_eq hl hp] at hmark
    rw [hmark, hnone]
  have hmark (hother : other = .pool) (hmem : poolId ∈ rest.map PoolObject.guid) :=
    h.mark hother (List.mem_cons_of_mem obj.guid hmem)
  unfold spawn1Rolled
  split
  · next htrigger =>
    have hnone (hother : other = .pool) (hmem : poolId ∈ rest.map PoolObject.guid) :
        out.1.spawns.spawnedPools poolId = none :=
      (hmark hother hmem).resolve_left fun he => hchild hother (htrigger.trans he)
    split
    · exact Ensures.of_some ⟨hrest, h.within, fun hother hmem => .inr (hnone hother hmem)⟩
    · exact Ensures.of_some ⟨hrest, hwithin, fun hother hmem =>
        .inr (hkeep hactivate (hnone hother hmem))⟩
  · refine Ensures.map ?_
    cases other with
    | creature => exact Ensures.of_some ⟨hrest, hwithin, fun hother => (nomatch hother)⟩
    | gameobject => exact Ensures.of_some ⟨hrest, hwithin, fun hother => (nomatch hother)⟩
    | pool =>
      by_cases hahead : poolId ∈ rest.map PoolObject.guid ∧ out.2 ≠ poolId
      · -- the mother is marked by now, so the child does not come back to it
        have hself : obj.guid ≠ pool := by
          intro he
          have hmem := PoolGroup.mem_guids _ hobj
          rw [he] at hmem
          exact hl.child pool hmem
        have hmarked : (out.1.spawns.activateObject .pool obj.guid pool).isActiveObject .pool pool :=
          (marks_activate obj.guid).2
        have hpast : mgr.Past poolId pool obj.guid (out.1.activateObject .pool obj.guid
            (mgr.groups .pool pool).poolId).spawns := by
          rw [hl.poolId .pool pool (isEmpty_of_mem hobj)]
          exact ⟨hself, hmarked, h.ahead hp hahead.1⟩
        refine (hbeside pool obj.guid _ hpast).mono fun w' hw' => ?_
        have hall := hactivate.trans hw'
        exact ⟨hrest, h.within.of_untouched hall.untouched, fun _ hmem =>
          .inr (hkeep hall ((hmark rfl hmem).resolve_left hahead.2))⟩
      · refine (hspawn obj.guid _ hwithin).mono fun w' hw' => ?_
        exact ⟨hrest, hw', fun _ hmem => .inl (not_not.mp fun hne' => hahead ⟨hmem, hne'⟩)⟩

theorem spawnPoolOf_other (triggerFrom : ℕ) (hne : pool ≠ poolId)
    (h : mgr.Within R kind poolId w.spawns)
    (hbeside : ∀ mother child w', mgr.Past poolId mother child w'.spawns →
      Ensures
    (spawn1Pool child w') fun w'' => mgr.Beside kind poolId w'.spawns w''.spawns)
    (hspawn : ∀ child w', mgr.Within R kind poolId w'.spawns →
      Ensures
    (spawn1Pool child w') fun w'' => mgr.Within R kind poolId w''.spawns)
    (hdespawn : ∀ child w', mgr.Within R kind poolId w'.spawns →
      Ensures (despawn1Pool child w') fun w'' => mgr.Within R kind poolId w''.spawns ∧
        (child = poolId → (mgr.groups kind poolId).activeMembers kind w''.spawns = ∅)) :
    Ensures (mgr.spawnPoolOf R spawn1Pool despawn1Pool other pool triggerFrom w) fun w' =>
      mgr.Within R kind poolId w'.spawns := by
  unfold spawnPoolOf
  split
  · exact Ensures.of_some h
  refine spawnObject_rule (mgr.Pending R kind poolId other pool)
    ⟨PoolGroup.objectsToSpawn_sublist .., h, fun hother hmem => ?_⟩
    (fun out obj rest hinv => ?_)
    (fun out hinv _ => despawnObject_other hl hp out.2 hne hinv.within hdespawn)
    fun out hinv _ => hinv.within
  · subst hother
    obtain ⟨obj, hobj, rfl⟩ := List.mem_map.mp hmem
    have hav := PoolGroup.objectsToSpawn_available _ hobj
    have h' : obj.guid = triggerFrom ∨ w.spawns.spawnedPools obj.guid = none := by
      simpa [available, isActiveObject] using hav
    exact h'.imp Eq.symm id
  · by_cases hchild : other = .pool ∧ obj.guid = poolId
    · obtain ⟨rfl, hchild⟩ := hchild
      exact hinv.spawn_pool hl hp hne hchild hspawn
    · exact hinv.spawn_other hl hp hne (fun hother he => hchild ⟨hother, he⟩) hbeside hspawn

omit hl in
theorem spawnPoolOf_self (triggerFrom : ℕ) (h : mgr.Within R kind poolId w.spawns)
    (htrigger : other = kind → triggerFrom = 0 ∨ triggerFrom ∈ (mgr.groups kind poolId).guids) :
    Ensures (mgr.spawnPoolOf R spawn1Pool despawn1Pool other poolId triggerFrom w) fun w' =>
      mgr.Within R kind poolId w'.spawns := by
  unfold spawnPoolOf
  split
  · exact Ensures.of_some h
  next hempty =>
    have hother : other = kind := by
      by_contra hne
      exact hempty (hp.single other hne)
    subst hother
    rw [oneObject_eq hp.kind_ne, oneObject_eq hp.kind_ne]
    exact (spawnObject_members hp.kind_ne hp.nodup _ (htrigger rfl) h.counted h.limited).mono
      fun w' hw' => ⟨hw'.1, hw'.2⟩

/-- **Spawning a pool keeps the limit.** -/
theorem spawnPool_keeps (fuel : ℕ) (h : mgr.Within R kind poolId w.spawns) :
    Ensures (mgr.spawnPool R fuel pool w) fun w' => mgr.Within R kind poolId w'.spawns := by
  induction fuel generalizing pool w with
  | zero => exact fun w' h => (nomatch h)
  | succ fuel ih =>
    have hof (other : PoolKind) {w' : PoolWorld} (hw' : mgr.Within R kind poolId w'.spawns) :
        Ensures (mgr.spawnPoolOf R (mgr.spawnPool R fuel) (mgr.despawnPool fuel) other pool 0 w')
          fun w'' => mgr.Within R kind poolId w''.spawns := by
      by_cases hpool : pool = poolId
      · subst hpool
        exact spawnPoolOf_self hp 0 hw' fun _ => .inl rfl
      · exact spawnPoolOf_other hl hp 0 hpool hw' (fun _ child w'' hb => spawnPool_other hl hp fuel hb)
          (fun child w'' hb => ih hb) fun child w'' hb => despawnPool_keeps hl hp fuel hb
    exact (hof .pool h).bind fun w' h => (hof .gameobject h).bind fun w' h => hof .creature h

/-! ## Runs -/

/-- The members that `UpdatePool` and `RemoveActiveObject` are called with. -/
def Op.Admits (mgr : PoolMgr) : Op → Prop
  | .spawnPool _ => True
  | .despawnPool _ => True
  | .updatePool kind poolId guid => guid ∈ (mgr.groups kind poolId).guids
  | .removeActiveObject kind poolId guid => kind ≠ .pool ∧ guid ∈ (mgr.groups kind poolId).guids

theorem updatePool_keeps (fuel guid : ℕ) (hguid : guid ∈ (mgr.groups other pool).guids)
    (h : mgr.Within R kind poolId w.spawns) : Ensures (mgr.updatePool R fuel other pool guid w)
      fun w' => mgr.Within R kind poolId w'.spawns := by
  have hof (other : PoolKind) (pool guid : ℕ)
      (hguid : pool = poolId → other = kind → guid ∈ (mgr.groups kind poolId).guids) :
      Ensures (mgr.spawnPoolOf R (mgr.spawnPool R fuel) (mgr.despawnPool fuel) other pool guid w)
        fun w' => mgr.Within R kind poolId w'.spawns := by
    by_cases hpool : pool = poolId
    · subst hpool
      exact spawnPoolOf_self hp guid h fun hother => .inr (hguid rfl hother)
    · exact spawnPoolOf_other hl hp guid hpool h (fun _ child w'' hb => spawnPool_other hl hp fuel hb)
        (fun child w'' hb => spawnPool_keeps hl hp fuel hb)
        fun child w'' hb => despawnPool_keeps hl hp fuel hb
  have hself : pool = poolId → other = kind → guid ∈ (mgr.groups kind poolId).guids :=
    fun hpool hother => hpool ▸ hother ▸ hguid
  unfold updatePool
  split
  · next motherpoolid _ =>
    split
    · exact hof .pool motherpoolid pool fun _ hkind => absurd hkind.symm hp.kind_ne
    · exact hof other pool guid hself
  · exact hof other pool guid hself

theorem removeActiveObject_keeps (guid : ℕ) (hother : other ≠ .pool)
    (hguid : guid ∈ (mgr.groups other pool).guids) (h : mgr.Within R kind poolId w.spawns) :
    mgr.Within R kind poolId (removeActiveObject other pool guid w).spawns := by
  obtain ⟨obj, hobj, rfl⟩ := List.mem_map.mp hguid
  have hid := hl.poolId other pool (isEmpty_of_mem hobj)
  unfold removeActiveObject
  split
  · next hactive =>
    by_cases hpool : pool = poolId
    · have hkind : other = kind := by
        by_contra hne
        have hempty := hp.single other hne
        rw [← hpool, isEmpty_of_mem hobj] at hempty
        cases hempty
      subst hpool hkind
      have hcounted := h.counted.remove hother hguid hactive
      rw [hid] at hcounted
      refine ⟨hcounted, fun hne => ?_⟩
      refine (congrArg Finset.card (activeMembers_remove hother)).trans_le ?_
      exact Finset.card_erase_le.trans (h.limited hne)
    · have hapart := apart hl hp hpool hobj fun he => absurd he hother
      rw [hid] at hapart
      exact h.of_untouched (hapart.remove hp.kind_ne)
  · exact h

theorem step_keeps (fuel : ℕ) (op : Op) (hop : op.Admits mgr) (h : mgr.Within R kind poolId w.spawns) :
    Ensures (mgr.step R fuel w op) fun w' => mgr.Within R kind poolId w'.spawns := by
  cases op with
  | spawnPool pool => exact spawnPool_keeps hl hp fuel h
  | despawnPool pool => exact (despawnPool_keeps hl hp fuel h).mono fun w' hw' => hw'.1
  | updatePool other pool guid => exact updatePool_keeps hl hp fuel guid hop h
  | removeActiveObject other pool guid =>
    exact Ensures.of_some (removeActiveObject_keeps hl hp guid hop.1 hop.2 h)

end

/-! ## The limit -/

/-- **The limit of a pool**: the lower of `MaxLimit`, where 0 is none, and the percentage of the entries
of equal chance, where 0 is none. -/
def limitOf (mgr : PoolMgr) (R : Rounding) (kind : PoolKind) (poolId : ℕ) : Option ℕ :=
  let t := mgr.template poolId
  let limit := if t.maxLimit = 0 then none else some t.maxLimit
  let entries := (mgr.groups kind poolId).equalChanced.length
  let limitFromPercent := roundToUInt (R.mul (R.round entries) (R.div t.maxLimitPercent 100))
  if t.maxLimitPercent = 0 then limit
  else
    match limit with
    | none => some limitFromPercent
    | some limit => some (min limit limitFromPercent)

/-- Unless the percentage leaves nothing, `SpawnObject` goes by the limit. -/
theorem spawnLimit_eq (h : mgr.limitOf R kind poolId ≠ some 0) {limit : ℕ}
    (hlimit : mgr.limitOf R kind poolId = some limit) :
    (mgr.groups kind poolId).spawnLimit R (mgr.template poolId) = limit ∧ limit ≠ 0 := by
  have hzero : roundToUInt (R.mul (R.round (mgr.groups kind poolId).equalChanced.length) 0) = 0 := by
    have hmul : R.mul (R.round (mgr.groups kind poolId).equalChanced.length) 0 = 0 := by
      unfold Rounding.mul
      rw [mul_zero, R.zero]
    rw [hmul, roundToUInt, round_zero, Int.toNat_zero]
  have hdiv : R.div 0 100 = 0 := by
    unfold Rounding.div
    rw [zero_div, R.zero]
  unfold limitOf at h hlimit
  unfold spawnLimit
  generalize mgr.template poolId = t at h hlimit ⊢
  by_cases hpercent : t.maxLimitPercent = 0
  · rw [hpercent, hdiv]
    rw [if_pos hpercent] at hlimit
    by_cases hmax : t.maxLimit = 0
    · rw [if_pos hmax] at hlimit
      cases hlimit
    · rw [if_neg hmax] at hlimit
      cases hlimit
      exact ⟨if_neg (not_not.mpr rfl), hmax⟩
  · rw [if_neg hpercent] at h hlimit
    by_cases hratio : R.div t.maxLimitPercent 100 = 0
    · -- the percentage is lost in the division
      rw [hratio, hzero] at h
      exact absurd (by split <;> simp) h
    · rw [if_pos hratio]
      by_cases hmax : t.maxLimit = 0
      · rw [if_pos hmax] at h hlimit
        rw [if_neg (not_not.mpr hmax)]
        cases hlimit
        exact ⟨rfl, fun he => h (congrArg some he)⟩
      · rw [if_neg hmax] at h hlimit
        rw [if_pos hmax]
        cases hlimit
        exact ⟨rfl, fun he => h (congrArg some he)⟩

theorem within_start (hp : mgr.PlainPool kind poolId) (dice : ℕ → Dice) :
    mgr.Within R kind poolId (PoolWorld.start dice).spawns := by
  refine .of_empty ?_ rfl
  ext x
  rw [mem_activeMembers]
  cases kind with
  | creature => simp [PoolWorld.start, isActiveObject]
  | gameobject => simp [PoolWorld.start, isActiveObject]
  | pool => exact absurd rfl hp.kind_ne

/-- **The limit of a pool holds in every run** that its percentage does not leave without any object,
and the count is the number of the active members. -/
theorem pool_limit_holds (R : Rounding) (mgr : PoolMgr) (kind : PoolKind) (poolId : ℕ)
    (hl : mgr.Loaded) (hp : mgr.PlainPool kind poolId) (hlimit : mgr.limitOf R kind poolId ≠ some 0)
    (fuel : ℕ) (ops : List Op) (hops : ∀ op ∈ ops, op.Admits mgr) (dice : ℕ → Dice) (w : PoolWorld)
    (hrun : ops.foldlM (mgr.step R fuel) (PoolWorld.start dice) = some w) :
    (∀ limit, mgr.limitOf R kind poolId = some limit →
      ((mgr.groups kind poolId).activeMembers kind w.spawns).card ≤ limit) ∧
    w.spawns.getActiveObjectCount poolId =
      ((mgr.groups kind poolId).activeMembers kind w.spawns).card := by
  have hrule : Ensures (ops.foldlM (mgr.step R fuel) (PoolWorld.start dice)) fun w =>
      mgr.Within R kind poolId w.spawns :=
    Ensures.foldlM ops (within_start hp dice) fun w' op hop hw =>
      step_keeps hl hp fuel op (hops op hop) hw
  have hwithin := hrule w hrun
  constructor
  · intro limit h
    obtain ⟨heq, hne⟩ := spawnLimit_eq hlimit h
    exact heq ▸ hwithin.limited (heq.symm ▸ hne)
  · have hcounted := hwithin.counted
    unfold Counted at hcounted
    rw [poolId_eq hl hp] at hcounted
    exact hcounted

/-- A pool of three creatures, of which one is to be spawned, or the percentage if that is less. -/
def poolOfThree (maxLimitPercent : ℚ) : PoolMgr :=
  { poolTemplate := fun poolId => if poolId = 1 then some ⟨1, maxLimitPercent⟩ else none
    groups := fun kind poolId =>
      if kind = .creature ∧ poolId = 1 then ⟨1, [], [⟨11, 0⟩, ⟨12, 0⟩, ⟨13, 0⟩]⟩ else ⟨0, [], []⟩
    searchMap := fun kind guid =>
      if kind = .creature ∧ guid ∈ [11, 12, 13] then some 1 else none }

theorem poolOfThree_else (maxLimitPercent : ℚ) (kind : PoolKind) (poolId : ℕ)
    (h : ¬ (kind = .creature ∧ poolId = 1)) :
    (poolOfThree maxLimitPercent).groups kind poolId = ⟨0, [], []⟩ := if_neg h

theorem loaded_poolOfThree (maxLimitPercent : ℚ) : (poolOfThree maxLimitPercent).Loaded := by
  constructor
  · intro kind poolId h
    by_cases hpool : kind = .creature ∧ poolId = 1
    · obtain ⟨rfl, rfl⟩ := hpool
      rfl
    · rw [poolOfThree_else maxLimitPercent _ _ hpool] at h
      cases h
  · intro poolId h
    cases h

theorem plainPool_poolOfThree (maxLimitPercent : ℚ) :
    (poolOfThree maxLimitPercent).PlainPool .creature 1 := by
  constructor
  · decide
  · rfl
  · intro other hother
    rw [poolOfThree_else maxLimitPercent _ _ fun h => hother h.1]
    rfl
  · show [11, 12, 13].Nodup
    decide
  · intro other hother guid _
    rw [poolOfThree_else maxLimitPercent _ _ fun h => hother h.2]
    exact List.not_mem_nil
  · intro mother child h
    cases h

/-- Dice that show the lowest numbers. -/
def lowestDice (_ : ℕ) : Dice := ⟨0, fun _ => 0⟩

/-- Half of three creatures are two, and the other limit is one. -/
theorem pool_limit_holds_poolOfThree :
    ∃ w, [Op.spawnPool 1, .removeActiveObject .creature 1 11, .updatePool .creature 1 12].foldlM
        ((poolOfThree 50).step .exact 1) (PoolWorld.start lowestDice) = some w ∧
      (∀ limit, (poolOfThree 50).limitOf .exact .creature 1 = some limit →
        (((poolOfThree 50).groups .creature 1).activeMembers .creature w.spawns).card ≤ limit) ∧
      w.spawns.getActiveObjectCount 1 =
        (((poolOfThree 50).groups .creature 1).activeMembers .creature w.spawns).card := by
  have hsome : ([Op.spawnPool 1, .removeActiveObject .creature 1 11,
      .updatePool .creature 1 12].foldlM ((poolOfThree 50).step .exact 1)
        (PoolWorld.start lowestDice)).isSome := by decide +kernel
  obtain ⟨w, hw⟩ := Option.isSome_iff_exists.mp hsome
  refine ⟨w, hw, ?_⟩
  exact pool_limit_holds .exact (poolOfThree 50) .creature 1 (loaded_poolOfThree 50)
    (plainPool_poolOfThree 50) (by decide +kernel) 1 _
    (by simp [Op.Admits, poolOfThree, guids, PoolGroup.objects]) lowestDice w hw

/-- A tenth of three creatures is none, and all three are spawned. -/
theorem pool_limit_fails :
    ¬ ∀ (R : Rounding) (mgr : PoolMgr) (kind : PoolKind) (poolId : ℕ), mgr.Loaded →
      mgr.PlainPool kind poolId → ∀ (fuel : ℕ) (ops : List Op), (∀ op ∈ ops, op.Admits mgr) →
      ∀ (dice : ℕ → Dice) (w : PoolWorld),
        ops.foldlM (mgr.step R fuel) (PoolWorld.start dice) = some w →
        ∀ limit, mgr.limitOf R kind poolId = some limit →
          ((mgr.groups kind poolId).activeMembers kind w.spawns).card ≤ limit := by
  intro h
  have hcard : (([Op.spawnPool 1].foldlM ((poolOfThree 10).step .exact 1)
      (PoolWorld.start lowestDice)).map fun w =>
        (((poolOfThree 10).groups .creature 1).activeMembers .creature w.spawns).card) = some 3 := by
    decide +kernel
  obtain ⟨w, hw, hthree⟩ := Option.map_eq_some_iff.mp hcard
  have hle := h .exact (poolOfThree 10) .creature 1 (loaded_poolOfThree 10)
    (plainPool_poolOfThree 10) 1 [Op.spawnPool 1] (fun op hop => by
      rw [List.mem_singleton.mp hop]
      trivial) lowestDice w hw 0 (by decide +kernel)
  rw [hthree] at hle
  exact absurd hle (by decide)

end PoolMgr

end Sunstrider.Pools
