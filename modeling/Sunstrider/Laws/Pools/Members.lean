import Sunstrider.Laws.Utilities.RandomSelection
import Sunstrider.Lib.Run

/-!
# The members of a pool

The number of active objects of a pool is kept beside the sets of active objects, in the map that also
marks the pools that are spawned. Every object that is activated is not active before
(`ActivePoolData.Counted.activate`), so the number grows with the set. What is spawned at once is not more
than what the limit leaves (`PoolGroup.spawnObject_members`), unless the limit is 0, which is none.
-/

namespace Sunstrider.Pools

open Sunstrider.Lib (Rounding Ensures subU32 toInt32 marked_sublist length_marked length_selection
  count_selection)
open Sunstrider.Utilities (randomKeep_eq_marked)

/-! ## Rolled objects -/

variable {α : Type}

theorem randomKeep_sublist (urand : ℕ → ℕ) (n : ℕ) (l : List α) :
    (randomKeep urand n l).Sublist l := by
  rw [randomKeep_eq_marked]
  exact marked_sublist _ l

theorem length_randomKeep (urand : ℕ → ℕ) (n : ℕ) (l : List α) :
    (randomKeep urand n l).length = min l.length n := by
  rw [randomKeep_eq_marked, length_marked _ l (length_selection ..).le, count_selection]

theorem randomResize_sublist (urand : ℕ → ℕ) (n : ℕ) (l : List α) :
    (randomResize urand n l).Sublist l := by
  unfold randomResize
  split
  · exact List.Sublist.refl l
  · exact randomKeep_sublist urand n l

theorem length_randomResize (urand : ℕ → ℕ) (n : ℕ) (l : List α) :
    (randomResize urand n l).length = min l.length n := by
  unfold randomResize
  split
  · next h => exact (Nat.min_eq_left h).symm
  · exact length_randomKeep urand n l

variable {obj : PoolObject} {t : PoolTemplateData}

namespace PoolGroup

variable {R : Rounding} {s : ActivePoolData} {kind : PoolKind} {triggerFrom : ℕ}

/-- At most one object is rolled by its chance, and one that can be. -/
theorem rollExplicit_spec (roll : ℚ) (l : List PoolObject) :
    (rollExplicit R s kind triggerFrom roll l).Sublist l ∧
      (rollExplicit R s kind triggerFrom roll l).length ≤ 1 ∧
      ∀ obj ∈ rollExplicit R s kind triggerFrom roll l, available s kind triggerFrom obj := by
  induction l generalizing roll with
  | nil => exact ⟨List.Sublist.slnil, Nat.zero_le 1, fun obj h => (nomatch h)⟩
  | cons a l ih =>
    unfold rollExplicit
    dsimp only
    split
    · next h =>
      refine ⟨List.singleton_sublist.mpr List.mem_cons_self, le_refl 1, fun obj hobj => ?_⟩
      rw [List.mem_singleton.mp hobj]
      exact (Bool.and_eq_true_iff.mp h).2
    · obtain ⟨hsub, hlen, hav⟩ := ih (R.sub roll a.chance)
      exact ⟨hsub.cons a, hlen, hav⟩

variable (g : PoolGroup) (limit count : ℕ) (dice : Dice)

theorem rolledObjects_sublist :
    (g.rolledObjects R s kind triggerFrom limit count dice).Sublist g.objects := by
  have hequal := (List.filter_sublist (p := available s kind triggerFrom) (l := g.equalChanced)).trans
    (List.sublist_append_left g.equalChanced g.explicitlyChanced)
  unfold rolledObjects
  dsimp only
  split
  · split
    · exact (randomResize_sublist ..).trans hequal
    · exact hequal
  · exact (rollExplicit_spec ..).1.trans (List.sublist_append_right ..)

theorem rolledObjects_available (h : obj ∈ g.rolledObjects R s kind triggerFrom limit count dice) :
    available s kind triggerFrom obj := by
  unfold rolledObjects at h
  dsimp only at h
  split at h
  · have hmem : obj ∈ g.equalChanced.filter (available s kind triggerFrom) := by
      split at h
      · exact (randomResize_sublist ..).subset h
      · exact h
    exact (List.mem_filter.mp hmem).2
  · exact (rollExplicit_spec ..).2.2 obj h

/-- No more are rolled than are wanted. -/
theorem length_rolledObjects_le (hlimit : limit ≠ 0) (hcount : 0 < count) :
    (g.rolledObjects R s kind triggerFrom limit count dice).length ≤ count := by
  unfold rolledObjects
  dsimp only
  split
  · exact (length_randomResize ..).trans_le (Nat.min_le_right _ _)
  · exact (rollExplicit_spec ..).2.1.trans hcount

theorem objectsToSpawn_sublist (R : Rounding) (kind : PoolKind) (t : PoolTemplateData)
    (triggerFrom : ℕ) (w : PoolWorld) :
    (g.objectsToSpawn R kind t triggerFrom w).Sublist g.objects := by
  unfold objectsToSpawn
  dsimp only
  split
  · exact g.rolledObjects_sublist ..
  · exact List.nil_sublist _

/-- Only what is available is spawned. -/
theorem objectsToSpawn_available {w : PoolWorld}
    (h : obj ∈ g.objectsToSpawn R kind t triggerFrom w) :
    available w.spawns kind triggerFrom obj := by
  unfold objectsToSpawn at h
  dsimp only at h
  split at h
  · exact g.rolledObjects_available _ _ _ h
  · cases h

/-- The members of a group, by their numbers. -/
def guids : List ℕ := g.objects.map PoolObject.guid

theorem mem_guids (h : obj ∈ g.objects) : obj.guid ∈ g.guids :=
  List.mem_map_of_mem h

/-- The active members of a group. -/
def activeMembers (kind : PoolKind) (s : ActivePoolData) : Finset ℕ :=
  g.guids.toFinset.filter fun guid => s.isActiveObject kind guid

theorem mem_activeMembers {guid : ℕ} :
    guid ∈ g.activeMembers kind s ↔ guid ∈ g.guids ∧ s.isActiveObject kind guid := by
  simp [activeMembers]

end PoolGroup

/-! ## Activating and removing an object -/

namespace ActivePoolData

variable {g : PoolGroup} {s : ActivePoolData} {kind : PoolKind} {guid poolId : ℕ}

section

variable (hkind : kind ≠ .pool)

include hkind

theorem isActiveObject_activate (x : ℕ) :
    (s.activateObject kind guid poolId).isActiveObject kind x =
      (decide (x = guid) || s.isActiveObject kind x) := by
  cases kind with
  | creature => simp [activateObject, increase, isActiveObject]
  | gameobject => simp [activateObject, increase, isActiveObject]
  | pool => exact absurd rfl hkind

theorem isActiveObject_remove (x : ℕ) : (s.removeObject kind guid poolId).isActiveObject kind x =
      (decide (x ≠ guid) && s.isActiveObject kind x) := by
  cases kind with
  | creature => simp [removeObject, decrease, isActiveObject]
  | gameobject => simp [removeObject, decrease, isActiveObject]
  | pool => exact absurd rfl hkind

theorem activeMembers_activate (hguid : guid ∈ g.guids) :
    g.activeMembers kind (s.activateObject kind guid poolId) = insert guid (g.activeMembers kind s) := by
  ext x
  rw [PoolGroup.mem_activeMembers, isActiveObject_activate hkind, Finset.mem_insert,
    PoolGroup.mem_activeMembers]
  by_cases h : x = guid
  · simp [h, hguid]
  · simp [h]

theorem activeMembers_remove :
    g.activeMembers kind (s.removeObject kind guid poolId) = (g.activeMembers kind s).erase guid := by
  ext x
  rw [PoolGroup.mem_activeMembers, isActiveObject_remove hkind, Finset.mem_erase,
    PoolGroup.mem_activeMembers]
  simp only [Bool.and_eq_true, decide_eq_true_eq]
  tauto

theorem count_activate : (s.activateObject kind guid poolId).getActiveObjectCount poolId =
      s.getActiveObjectCount poolId + 1 := by
  cases kind with
  | creature => simp [activateObject, increase, getActiveObjectCount]
  | gameobject => simp [activateObject, increase, getActiveObjectCount]
  | pool => exact absurd rfl hkind

theorem count_remove : (s.removeObject kind guid poolId).getActiveObjectCount poolId =
      s.getActiveObjectCount poolId - 1 := by
  cases kind with
  | creature => simp [removeObject, decrease, getActiveObjectCount]
  | gameobject => simp [removeObject, decrease, getActiveObjectCount]
  | pool => exact absurd rfl hkind

end

/-! ## What leaves a pool alone -/

/-- The pool has the same active members, and the same mark. -/
structure Untouched (g : PoolGroup) (kind : PoolKind) (s s' : ActivePoolData) : Prop where
  members : g.activeMembers kind s' = g.activeMembers kind s
  mark : s'.spawnedPools g.poolId = s.spawnedPools g.poolId

namespace Untouched

theorem refl (s : ActivePoolData) : Untouched g kind s s := ⟨rfl, rfl⟩

theorem trans {s s' s'' : ActivePoolData} (h : Untouched g kind s s') (h' : Untouched g kind s' s'') :
    Untouched g kind s s'' := ⟨h'.members.trans h.members, h'.mark.trans h.mark⟩

end Untouched

/-- An object of another pool, that is neither a member of this one nor the pool itself. -/
structure Apart (g : PoolGroup) (kind other : PoolKind) (guid poolId : ℕ) : Prop where
  pool : poolId ≠ g.poolId
  member : other = kind → guid ∉ g.guids
  child : other = .pool → guid ≠ g.poolId

variable {other : PoolKind}

theorem Apart.mark_activate (h : Apart g kind other guid poolId) :
    (s.activateObject other guid poolId).spawnedPools g.poolId = s.spawnedPools g.poolId := by
  cases other with
  | creature => exact Function.update_of_ne h.pool.symm ..
  | gameobject => exact Function.update_of_ne h.pool.symm ..
  | pool =>
    exact (Function.update_of_ne h.pool.symm ..).trans (Function.update_of_ne (h.child rfl).symm ..)

theorem Apart.mark_remove (h : Apart g kind other guid poolId) :
    (s.removeObject other guid poolId).spawnedPools g.poolId = s.spawnedPools g.poolId := by
  cases other with
  | creature => exact Function.update_of_ne h.pool.symm ..
  | gameobject => exact Function.update_of_ne h.pool.symm ..
  | pool =>
    exact (Function.update_of_ne h.pool.symm ..).trans (Function.update_of_ne (h.child rfl).symm ..)

theorem isActiveObject_other (hkind : kind ≠ .pool) (hother : other ≠ kind) (x : ℕ) :
    (s.activateObject other guid poolId).isActiveObject kind x = s.isActiveObject kind x ∧
      (s.removeObject other guid poolId).isActiveObject kind x = s.isActiveObject kind x := by
  cases kind with
  | pool => exact absurd rfl hkind
  | creature =>
    cases other with
    | creature => exact absurd rfl hother
    | _ => exact ⟨rfl, rfl⟩
  | gameobject =>
    cases other with
    | gameobject => exact absurd rfl hother
    | _ => exact ⟨rfl, rfl⟩

theorem Apart.activate (hkind : kind ≠ .pool) (h : Apart g kind other guid poolId) :
    Untouched g kind s (s.activateObject other guid poolId) := by
  refine ⟨?_, h.mark_activate⟩
  ext x
  rw [PoolGroup.mem_activeMembers, PoolGroup.mem_activeMembers]
  refine and_congr_right fun hx => ?_
  by_cases hother : other = kind
  · subst hother
    have hne : x ≠ guid := fun he => h.member rfl (he ▸ hx)
    rw [isActiveObject_activate hkind]
    simp [hne]
  · rw [(isActiveObject_other hkind hother x).1]

theorem Apart.remove (hkind : kind ≠ .pool) (h : Apart g kind other guid poolId) :
    Untouched g kind s (s.removeObject other guid poolId) := by
  refine ⟨?_, h.mark_remove⟩
  ext x
  rw [PoolGroup.mem_activeMembers, PoolGroup.mem_activeMembers]
  refine and_congr_right fun hx => ?_
  by_cases hother : other = kind
  · subst hother
    have hne : x ≠ guid := fun he => h.member rfl (he ▸ hx)
    rw [isActiveObject_remove hkind]
    simp [hne]
  · rw [(isActiveObject_other hkind hother x).2]

/-! ## The count -/

/-- The number of active members, as it is kept. -/
def Counted (g : PoolGroup) (kind : PoolKind) (s : ActivePoolData) : Prop :=
  s.getActiveObjectCount g.poolId = (g.activeMembers kind s).card

theorem Counted.of_untouched {s' : ActivePoolData} (h : Counted g kind s)
    (hu : Untouched g kind s s') : Counted g kind s' := by
  unfold Counted getActiveObjectCount at *
  rw [hu.members, hu.mark, h]

/-- An object that was not active is counted once. -/
theorem Counted.activate (hkind : kind ≠ .pool) (h : Counted g kind s) (hguid : guid ∈ g.guids)
    (hinactive : s.isActiveObject kind guid = false) :
    Counted g kind (s.activateObject kind guid g.poolId) := by
  have hnot : guid ∉ g.activeMembers kind s := by
    rw [PoolGroup.mem_activeMembers, hinactive]
    simp
  unfold Counted
  rw [count_activate hkind, activeMembers_activate hkind hguid, Finset.card_insert_of_notMem hnot, h]

/-- An active object is taken off the count. -/
theorem Counted.remove (hkind : kind ≠ .pool) (h : Counted g kind s) (hguid : guid ∈ g.guids)
    (hactive : s.isActiveObject kind guid) : Counted g kind (s.removeObject kind guid g.poolId) := by
  have hmem : guid ∈ g.activeMembers kind s := PoolGroup.mem_activeMembers g |>.mpr ⟨hguid, hactive⟩
  unfold Counted
  rw [count_remove hkind, activeMembers_remove hkind, Finset.card_erase_of_mem hmem, h]

theorem Counted.of_unmarked (h : Counted g kind s) (hmark : s.spawnedPools g.poolId = none) :
    g.activeMembers kind s = ∅ := by
  unfold Counted getActiveObjectCount at h
  rw [hmark] at h
  exact Finset.card_eq_zero.mp h.symm

end ActivePoolData

/-! ## Spawning the members of a pool -/

namespace PoolGroup

open ActivePoolData

variable {R : Rounding} {g : PoolGroup} {kind : PoolKind} {w : PoolWorld} {triggerFrom : ℕ}

theorem spawn1Rolled_member (hkind : kind ≠ .pool) (hobj : obj.guid ∈ g.guids)
    (hav : available w.spawns kind triggerFrom obj) (hcount : Counted g kind w.spawns) :
    Ensures (g.spawn1Rolled (fun _ w => some w) kind w triggerFrom obj) fun out =>
      Counted g kind out.1.spawns ∧
        g.activeMembers kind out.1.spawns = insert obj.guid (g.activeMembers kind w.spawns) ∧
        (∀ x ≠ obj.guid, out.1.spawns.isActiveObject kind x = w.spawns.isActiveObject kind x) ∧
        out.2 = if triggerFrom = obj.guid then 0 else triggerFrom := by
  have activate (hinactive : w.spawns.isActiveObject kind obj.guid = false) (t : ℕ)
      (ht : t = if triggerFrom = obj.guid then 0 else triggerFrom) :
      Ensures (some (w.activateObject kind obj.guid g.poolId, t)) fun out =>
        Counted g kind out.1.spawns ∧
          g.activeMembers kind out.1.spawns = insert obj.guid (g.activeMembers kind w.spawns) ∧
          (∀ x ≠ obj.guid, out.1.spawns.isActiveObject kind x = w.spawns.isActiveObject kind x) ∧
          out.2 = if triggerFrom = obj.guid then 0 else triggerFrom := by
    refine Ensures.of_some ⟨hcount.activate hkind hobj hinactive, activeMembers_activate hkind hobj,
      fun x hx => ?_, ht⟩
    refine (isActiveObject_activate hkind x).trans ?_
    simp [hx]
  unfold spawn1Rolled
  split
  next htrigger =>
    split
    next hactive =>
      -- the trigger is spawned already
      have hmem := g.mem_activeMembers.mpr ⟨hobj, hactive⟩
      refine Ensures.of_some ⟨hcount, (Finset.insert_eq_of_mem hmem).symm, fun x _ => rfl, ?_⟩
      rw [if_pos htrigger.symm]
    next hactive => exact activate (Bool.eq_false_iff.mpr hactive) 0 (if_pos htrigger.symm).symm
  next htrigger =>
    have hinactive : w.spawns.isActiveObject kind obj.guid = false := by
      simpa [available, htrigger] using hav
    exact activate hinactive triggerFrom (if_neg (Ne.symm htrigger)).symm

theorem spawnRolled_members (hkind : kind ≠ .pool) (rolled : List PoolObject)
    (hmem : ∀ obj ∈ rolled, obj ∈ g.objects) (hnodup : (rolled.map PoolObject.guid).Nodup)
    (hav : ∀ obj ∈ rolled, available w.spawns kind triggerFrom obj)
    (hcount : Counted g kind w.spawns) :
    Ensures (g.spawnRolled (fun _ w => some w) kind triggerFrom rolled w) fun out =>
      Counted g kind out.1.spawns ∧
        g.activeMembers kind out.1.spawns =
          g.activeMembers kind w.spawns ∪ (rolled.map PoolObject.guid).toFinset ∧
        out.2 = if triggerFrom ∈ rolled.map PoolObject.guid then 0 else triggerFrom := by
  unfold spawnRolled
  induction rolled generalizing w triggerFrom with
  | nil => exact Ensures.of_some ⟨hcount, by simp, by simp⟩
  | cons obj rolled ih =>
    rw [List.map_cons, List.nodup_cons] at hnodup
    have hne : ∀ obj' ∈ rolled, obj'.guid ≠ obj.guid := fun obj' h he =>
      hnodup.1 (he ▸ List.mem_map_of_mem h)
    refine (spawn1Rolled_member hkind (g.mem_guids (hmem obj List.mem_cons_self))
      (hav obj List.mem_cons_self) hcount).bind fun out hout => ?_
    obtain ⟨hcount', hmembers, hsame, htrigger⟩ := hout
    refine (ih (fun obj' h => hmem obj' (List.mem_cons_of_mem obj h)) hnodup.2 ?_ hcount').mono ?_
    · intro obj' h
      have h' := hav obj' (List.mem_cons_of_mem obj h)
      have hne' := hne obj' h
      simp only [available, hsame _ hne', htrigger] at h' ⊢
      by_cases ht : triggerFrom = obj.guid
      · rw [if_pos ht]
        simp_all
      · rw [if_neg ht]
        exact h'
    · intro out' hout'
      obtain ⟨hc, hm, ht⟩ := hout'
      refine ⟨hc, ?_, ?_⟩
      · rw [hm, hmembers]
        ext x
        simp only [Finset.mem_union, Finset.mem_insert, List.map_cons, List.toFinset_cons]
        tauto
      · rw [ht, htrigger, List.map_cons]
        by_cases h : triggerFrom = obj.guid
        · simp [h]
        · simp [h]

/-- What is despawned: all members, or the one that is named. -/
theorem despawnObject_members (hkind : kind ≠ .pool) (guid : ℕ) (hcount : Counted g kind w.spawns) :
    Ensures (g.despawnObject (fun _ w => some w) kind guid w) fun w' =>
      Counted g kind w'.spawns ∧ g.activeMembers kind w'.spawns =
        (g.activeMembers kind w.spawns).filter fun x => guid ≠ 0 ∧ x ≠ guid := by
  -- until the end of the loop, what is to be despawned is active only if it is still to come
  let Inv (rest : List PoolObject) (w' : PoolWorld) : Prop :=
    (∀ obj ∈ rest, obj ∈ g.objects) ∧ Counted g kind w'.spawns ∧
      (∀ x ∈ g.activeMembers kind w'.spawns, x ∈ g.activeMembers kind w.spawns ∧
        ((guid = 0 ∨ x = guid) → x ∈ rest.map PoolObject.guid)) ∧
      ∀ x ∈ g.activeMembers kind w.spawns, ¬ (guid = 0 ∨ x = guid) →
        x ∈ g.activeMembers kind w'.spawns
  have init : Inv g.objects w :=
    ⟨fun _ h => h, hcount, fun x hx => ⟨hx, fun _ => (g.mem_activeMembers.mp hx).1⟩, fun _ h _ => h⟩
  refine (Ensures.loop Inv g.objects init fun w' obj rest hinv => ?_).mono fun w' hinv => ?_
  · obtain ⟨hrest, hc, honly, hkeep⟩ := hinv
    have hrest' : ∀ obj' ∈ rest, obj' ∈ g.objects := fun obj' h =>
      hrest obj' (List.mem_cons_of_mem obj h)
    have hobj := g.mem_guids (hrest obj List.mem_cons_self)
    have htail (x : ℕ) (hx : x ∈ (obj :: rest).map PoolObject.guid) (hne : x ≠ obj.guid) :
        x ∈ rest.map PoolObject.guid := by
      exact (List.mem_cons.mp hx).resolve_left hne
    split
    next h =>
      obtain ⟨hactive, hto⟩ := Bool.and_eq_true_iff.mp h
      have hto' : guid = 0 ∨ obj.guid = guid := by simpa using hto
      refine Ensures.of_some ⟨hrest', hc.remove hkind hobj hactive, fun x hx => ?_, fun x hx hnot => ?_⟩
      · obtain ⟨hne, hx'⟩ := Finset.mem_erase.mp ((activeMembers_remove hkind).subset hx)
        exact ⟨(honly x hx').1, fun hcond => htail x ((honly x hx').2 hcond) hne⟩
      · refine (activeMembers_remove hkind).symm.subset (Finset.mem_erase.mpr ⟨?_, hkeep x hx hnot⟩)
        intro he
        exact hnot (he ▸ hto')
    next h =>
      refine Ensures.of_some ⟨hrest', hc, fun x hx => ⟨(honly x hx).1, fun hcond => ?_⟩, hkeep⟩
      refine htail x ((honly x hx).2 hcond) fun he => h ?_
      subst he
      rw [(g.mem_activeMembers.mp hx).2]
      simpa using hcond
  · obtain ⟨-, hc, honly, hkeep⟩ := hinv
    refine ⟨hc, ?_⟩
    ext x
    rw [Finset.mem_filter]
    constructor
    · intro hx
      have hnot : ¬ (guid = 0 ∨ x = guid) := fun hcond => (nomatch (honly x hx).2 hcond)
      exact ⟨(honly x hx).1, not_or.mp hnot⟩
    · intro hx
      exact hkeep x hx.1 (not_or.mpr hx.2)

variable {limit : ℕ}

/-- What is still to be spawned is not more than what the limit leaves. -/
theorem toInt32_subU32_le {n : ℕ} (h : n ≤ limit) : toInt32 (subU32 limit n) ≤ limit - n := by
  unfold toInt32 subU32
  split <;> omega

/-- What is spawned is within what the limit leaves. -/
theorem spawnCount_le (hlimit : (g.activeMembers kind w.spawns).card ≤ limit)
    (htrigger : triggerFrom = 0 ∨ triggerFrom ∈ g.guids) (hcount : Counted g kind w.spawns) :
    g.spawnCount limit kind triggerFrom w ≤ limit - (g.activeMembers kind w.spawns).card +
      if triggerFrom ≠ 0 ∧ triggerFrom ∈ g.activeMembers kind w.spawns then 1 else 0 := by
  unfold spawnCount
  rw [hcount]
  refine add_le_add (toInt32_subU32_le hlimit) ?_
  split
  · next h =>
    obtain ⟨hne, hactive⟩ := Bool.and_eq_true_iff.mp h
    have hne' : triggerFrom ≠ 0 := of_decide_eq_true hne
    rw [if_pos ⟨hne', g.mem_activeMembers.mpr ⟨htrigger.resolve_left hne', hactive⟩⟩]
  · split <;> simp

/-- Not more objects are spawned than the limit leaves, and one more for a trigger that is counted. -/
theorem length_objectsToSpawn_le (hne : g.spawnLimit R t ≠ 0)
    (hlimit : (g.activeMembers kind w.spawns).card ≤ g.spawnLimit R t)
    (htrigger : triggerFrom = 0 ∨ triggerFrom ∈ g.guids) (hcount : Counted g kind w.spawns) :
    ((g.objectsToSpawn R kind t triggerFrom w).length : ℤ) ≤
      g.spawnLimit R t - (g.activeMembers kind w.spawns).card +
        if triggerFrom ≠ 0 ∧ triggerFrom ∈ g.activeMembers kind w.spawns then 1 else 0 := by
  have hle := spawnCount_le hlimit htrigger hcount
  unfold objectsToSpawn
  dsimp only
  split
  · next hpos =>
    have hpos' := Bool.or_eq_true_iff.mp hpos |>.resolve_right (by simpa using hne)
    have hpos'' : 0 < g.spawnCount (g.spawnLimit R t) kind triggerFrom w := of_decide_eq_true hpos'
    have h : (g.rolledObjects R w.spawns kind triggerFrom (g.spawnLimit R t) _ (w.dice 0)).length ≤ _ :=
      g.length_rolledObjects_le _ _ (w.dice 0) hne (Int.lt_toNat.mpr hpos'')
    omega
  · rw [List.length_nil]
    split <;> omega

/-- Where a set below a limit takes in what is left below it, and one more for a trigger that is in it,
and the trigger goes unless it is taken in, the set stays below the limit. -/
theorem card_respawn_le {A B : Finset ℕ} {trigger : ℕ}
    (hB : (B.card : ℤ) ≤ limit - A.card + if trigger ≠ 0 ∧ trigger ∈ A then 1 else 0) :
    (trigger ∈ B → (A ∪ B).card ≤ limit) ∧ (trigger = 0 → (A ∪ B).card ≤ limit) ∧
      ((A ∪ B).filter fun x => trigger ≠ 0 ∧ x ≠ trigger).card ≤ limit := by
  have hunion := Finset.card_union_add_card_inter A B
  by_cases htrigger : trigger ≠ 0 ∧ trigger ∈ A
  · rw [if_pos htrigger] at hB
    refine ⟨fun hmem => ?_, fun hzero => absurd hzero htrigger.1, ?_⟩
    · have hpos : 0 < (A ∩ B).card :=
        Finset.card_pos.mpr ⟨trigger, Finset.mem_inter.mpr ⟨htrigger.2, hmem⟩⟩
      omega
    · have herase : ((A ∪ B).filter fun x => trigger ≠ 0 ∧ x ≠ trigger) = (A ∪ B).erase trigger := by
        ext x
        simp [htrigger.1, and_comm]
      rw [herase, Finset.card_erase_of_mem (Finset.mem_union_left B htrigger.2)]
      omega
  · rw [if_neg htrigger] at hB
    have hfilter := Finset.card_filter_le (A ∪ B) fun x => trigger ≠ 0 ∧ x ≠ trigger
    exact ⟨fun _ => by omega, fun _ => by omega, by omega⟩

/-- **The members of a pool are spawned up to its limit.** Where there is a limit, the active members
stay below it; the trigger is a member, or 0. -/
theorem spawnObject_members (hkind : kind ≠ .pool) (hnodup : g.guids.Nodup) (t : PoolTemplateData)
    (htrigger : triggerFrom = 0 ∨ triggerFrom ∈ g.guids) (hcount : Counted g kind w.spawns)
    (hlimit : g.spawnLimit R t ≠ 0 → (g.activeMembers kind w.spawns).card ≤ g.spawnLimit R t) :
    Ensures (g.spawnObject R (fun _ w => some w) (fun _ w => some w) kind t triggerFrom w) fun w' =>
      Counted g kind w'.spawns ∧
        (g.spawnLimit R t ≠ 0 →
          (g.activeMembers kind w'.spawns).card ≤ g.spawnLimit R t) := by
  unfold spawnObject
  dsimp only
  have hsub := g.objectsToSpawn_sublist R kind t triggerFrom w
  have hav : ∀ obj ∈ g.objectsToSpawn R kind t triggerFrom w, _ := fun _ h =>
    g.objectsToSpawn_available h
  have hlen := fun hne => g.length_objectsToSpawn_le hne (hlimit hne) htrigger hcount
  generalize g.objectsToSpawn R kind t triggerFrom w = rolled at hsub hav hlen ⊢
  generalize g.spawnLimit R t = limit at hlimit hlen ⊢
  refine (spawnRolled_members (w := { w with dice := fun n => w.dice (n + 1) }) hkind rolled
    (fun obj h => hsub.subset h) ((hsub.map _).nodup hnodup) hav hcount).bind fun out hout => ?_
  obtain ⟨hc, hm, ht⟩ := hout
  have hcard : (rolled.map PoolObject.guid).toFinset.card ≤ rolled.length :=
    (List.toFinset_card_le _).trans_eq (List.length_map _)
  have hset : limit ≠ 0 → ((rolled.map PoolObject.guid).toFinset.card : ℤ) ≤
      limit - (g.activeMembers kind w.spawns).card +
        if triggerFrom ≠ 0 ∧ triggerFrom ∈ g.activeMembers kind w.spawns then 1 else 0 :=
    fun hne => (Int.ofNat_le.mpr hcard).trans (hlen hne)
  by_cases hin : triggerFrom ∈ rolled.map PoolObject.guid
  · -- the trigger is respawned
    rw [if_pos hin] at ht
    rw [ht]
    refine Ensures.of_some ⟨hc, fun hne => ?_⟩
    rw [hm]
    exact card_respawn_le (hset hne) |>.1 (List.mem_toFinset.mpr hin)
  · rw [if_neg hin] at ht
    rw [ht]
    by_cases hzero : triggerFrom = 0
    · rw [if_neg (not_not.mpr hzero)]
      refine Ensures.of_some ⟨hc, fun hne => ?_⟩
      rw [hm]
      exact (card_respawn_le (hset hne)).2.1 hzero
    · rw [if_pos hzero]
      refine (despawnObject_members hkind triggerFrom hc).mono fun w' hw' => ?_
      refine ⟨hw'.1, fun hne => ?_⟩
      rw [hw'.2, hm]
      exact (card_respawn_le (hset hne)).2.2

/-- The rule for `SpawnObject`, whose loop has an invariant of the objects still to come. -/
theorem spawnObject_rule {spawn1Object despawn1Object : ℕ → PoolWorld → Option PoolWorld}
    {Post : PoolWorld → Prop} (Inv : List PoolObject → PoolWorld × ℕ → Prop)
    (init : Inv (g.objectsToSpawn R kind t triggerFrom w)
      ({ w with dice := fun n => w.dice (n + 1) }, triggerFrom)) (body : ∀ out obj rest, Inv
    (obj :: rest) out →
      Ensures (g.spawn1Rolled spawn1Object kind out.1 out.2 obj) (Inv rest)) (despawn : ∀ out, Inv
    [] out → out.2 ≠ 0 →
      Ensures (g.despawnObject despawn1Object kind out.2 out.1) Post)
    (done : ∀ out, Inv [] out → out.2 = 0 → Post out.1) :
    Ensures (g.spawnObject R spawn1Object despawn1Object kind t triggerFrom w) Post := by
  unfold spawnObject spawnRolled
  dsimp only
  refine (Ensures.loop Inv _ init body).bind fun out hout => ?_
  split
  next h => exact despawn out hout h
  next h => exact Ensures.of_some (done out hout (not_not.mp h))

theorem despawnObject_rule {despawn1Object : ℕ → PoolWorld → Option PoolWorld} {guid : ℕ}
    {Inv : PoolWorld → Prop} (init : Inv w)
    (body : ∀ w', ∀ obj ∈ g.objects, Inv w' → w'.spawns.isActiveObject kind obj.guid →
      Ensures (despawn1Object obj.guid w') fun w'' => Inv (w''.removeObject kind obj.guid g.poolId)) :
    Ensures (g.despawnObject despawn1Object kind guid w) Inv := by
  refine Ensures.foldlM _ init fun w' obj hobj hinv => ?_
  split
  · next h => exact (body w' obj hobj hinv (Bool.and_eq_true_iff.mp h).1).map
  · exact Ensures.of_some hinv

end PoolGroup

end Sunstrider.Pools
