import Sunstrider.Lib.Graph
import Sunstrider.Laws.Pools.Limits

/-!
# Circles of pools

The check for circular references walks along the search map, which knows one mother of each pool, the
first, and takes out the relation that closes a circle. After it, no walk along the search map comes back
(`PoolMgr.acc_removeCircles`). The groups, which spawning follows, know every mother. So a circle of the
groups is left behind if one of its relations is not in the search map, or is listed twice, and there is
an order of the pools in which it is left (`PoolMgr.exists_order`).
-/

namespace Sunstrider.Pools

open Relation Function
open Sunstrider.Lib (Rounding Acyclic Leads OnCircle follow foldlM_isSome)

/-! ## The walk along the mothers -/

namespace PoolMgr

variable {search : ℕ → Option ℕ} {fuel : ℕ} {checkedPools : List ℕ} {child pool mother : ℕ}

theorem findCircle_closes (hchecked : ∀ y ∈ checkedPools, ReflTransGen (Leads search) y child)
    (h : findCircle search fuel checkedPools child = some (pool, mother)) :
    Leads search pool mother ∧ ReflTransGen (Leads search) mother pool := by
  induction fuel generalizing checkedPools child with
  | zero => cases h
  | succ fuel ih =>
    unfold findCircle at h
    cases hsearch : search child with
    | none =>
      rw [hsearch] at h
      cases h
    | some next =>
      rw [hsearch] at h
      dsimp only at h
      split at h
      · next hmem =>
        cases h
        refine ⟨hsearch, ?_⟩
        cases List.mem_cons.mp hmem with
        | inl he => exact he ▸ .refl
        | inr hmem => exact hchecked _ hmem
      · refine ih (fun y hy => ?_) h
        cases List.mem_cons.mp hy with
        | inl he => exact he ▸ .single hsearch
        | inr hy => exact (hchecked y hy).tail hsearch

/-- Without the relation that is found, the walk ends. -/
theorem acc_of_findCircle_some (h : findCircle search fuel checkedPools child = some (pool, mother)) :
    Acc (fun b a => Leads (update search pool none) a b) child := by
  induction fuel generalizing checkedPools child with
  | zero => cases h
  | succ fuel ih =>
    unfold findCircle at h
    cases hsearch : search child with
    | none =>
      rw [hsearch] at h
      cases h
    | some next =>
      rw [hsearch] at h
      dsimp only at h
      by_cases hpool : child = pool
      · subst hpool
        exact Leads.acc_of_none (update_self child none search)
      · split at h
        · exact absurd (congrArg Prod.fst (Option.some.inj h)) hpool
        · exact Leads.acc_of_some ((update_of_ne hpool none search).trans hsearch) (ih h)

/-- Where nothing is found, the walk ends: it has had a round for every pool. -/
theorem acc_of_findCircle_none {pools : List ℕ} (hpools : ∀ a b, search a = some b → b ∈ pools)
    (hnodup : (child :: checkedPools).Nodup) (hsub : ∀ y ∈ child :: checkedPools, y ∈ pools)
    (hfuel : pools.length ≤ fuel + checkedPools.length)
    (h : findCircle search fuel checkedPools child = none) :
    Acc (fun b a => Leads search a b) child := by
  induction fuel generalizing checkedPools child with
  | zero =>
    have hlen := (hnodup.subperm hsub).length_le
    rw [List.length_cons] at hlen
    omega
  | succ fuel ih =>
    unfold findCircle at h
    cases hsearch : search child with
    | none => exact Leads.acc_of_none hsearch
    | some next =>
      rw [hsearch] at h
      dsimp only at h
      split at h
      · cases h
      · next hmem =>
        refine Leads.acc_of_some hsearch (ih (List.nodup_cons.mpr ⟨hmem, hnodup⟩) ?_ ?_ h)
        · intro y hy
          cases List.mem_cons.mp hy with
          | inl he => exact he ▸ hpools child next hsearch
          | inr hy => exact hsub y hy
        · rw [List.length_cons]
          omega

/-- What is found in a part of a search map is found in all of it. -/
theorem findCircle_mono {search' : ℕ → Option ℕ} (hsub : ∀ a b, Leads search' a b → Leads search a b)
    (h : findCircle search' fuel checkedPools child = some (pool, mother)) :
    findCircle search fuel checkedPools child = some (pool, mother) := by
  induction fuel generalizing checkedPools child with
  | zero => cases h
  | succ fuel ih =>
    unfold findCircle at h ⊢
    cases hsearch : search' child with
    | none =>
      rw [hsearch] at h
      cases h
    | some next =>
      have hnext : search child = some next := hsub child next hsearch
      rw [hsearch] at h
      rw [hnext]
      dsimp only at h ⊢
      split at h
      next hmem => rwa [if_pos hmem]
      next hmem =>
        rw [if_neg hmem]
        exact ih h

theorem findCircle_fuel (h : findCircle search fuel checkedPools child = some (pool, mother))
    (more : ℕ) : findCircle search (fuel + more) checkedPools child = some (pool, mother) := by
  induction fuel generalizing checkedPools child with
  | zero => cases h
  | succ fuel ih =>
    rw [Nat.add_right_comm]
    unfold findCircle at h ⊢
    cases hsearch : search child with
    | none =>
      rw [hsearch] at h
      cases h
    | some next =>
      rw [hsearch] at h
      dsimp only at h ⊢
      split at h
      next hmem => rwa [if_pos hmem]
      next hmem =>
        rw [if_neg hmem]
        exact ih h

/-- From a pool of a circle, the relation that leads to it is found. -/
theorem findCircle_of_onCircle (h : OnCircle search child) :
    findCircle search (minimalPeriod (follow search) child) [] child =
      some ((follow search)^[minimalPeriod (follow search) child - 1] child, child) := by
  generalize hk : minimalPeriod (follow search) child = k
  have hpos : 0 < k := hk ▸ minimalPeriod_pos_of_mem_periodicPts h.isPeriodic
  have hclose : (follow search)^[k] child = child := hk ▸ iterate_minimalPeriod
  have hinj (i j : ℕ) (hi : i < k) (hj : j < k)
      (he : (follow search)^[i] child = (follow search)^[j] child) : i = j :=
    iterate_injOn_Iio_minimalPeriod (hk.symm ▸ hi) (hk.symm ▸ hj) he
  -- the induction is on the rounds that are left
  have hround (n : ℕ) : ∀ i, i + n = k → 0 < n → findCircle search n
      ((List.range i).reverse.map fun j => (follow search)^[j] child) ((follow search)^[i] child) =
        some ((follow search)^[k - 1] child, child) := by
    induction n with
    | zero => exact fun i _ h => absurd h (lt_irrefl 0)
    | succ n ih =>
      intro i hi _
      have hlead := (h.iterate i).leads
      rw [← iterate_succ_apply' (follow search)] at hlead
      have hvisited (x : ℕ) : x ∈ (follow search)^[i] child ::
          ((List.range i).reverse.map fun j => (follow search)^[j] child) ↔
            ∃ j ≤ i, (follow search)^[j] child = x := by
        rw [List.mem_cons, List.mem_map]
        constructor
        · intro hx
          cases hx with
          | inl hx => exact ⟨i, le_refl i, hx.symm⟩
          | inr hx =>
            obtain ⟨j, hj, rfl⟩ := hx
            exact ⟨j, (List.mem_range.mp (List.mem_reverse.mp hj)).le, rfl⟩
        · rintro ⟨j, hj, rfl⟩
          cases hj.lt_or_eq with
          | inl hlt => exact .inr ⟨j, List.mem_reverse.mpr (List.mem_range.mpr hlt), rfl⟩
          | inr he => exact .inl (he ▸ rfl)
      unfold findCircle
      rw [hlead]
      dsimp only
      by_cases hlast : i + 1 = k
      · rw [Nat.succ_eq_add_one, hlast, hclose, if_pos ((hvisited child).mpr ⟨0, Nat.zero_le i, rfl⟩),
          ← hlast, Nat.add_sub_cancel]
      · have hnot : (follow search)^[i.succ] child ∉ (follow search)^[i] child ::
            ((List.range i).reverse.map fun j => (follow search)^[j] child) := by
          intro hmem
          obtain ⟨j, hj, he⟩ := (hvisited _).mp hmem
          have := hinj j (i + 1) (by omega) (by omega) he
          omega
        rw [if_neg hnot]
        have hnext := ih (i + 1) (by omega) (by omega)
        rw [List.range_succ, List.reverse_append, List.reverse_singleton, List.singleton_append,
          List.map_cons] at hnext
        exact hnext
  exact hround k 0 (Nat.zero_add k) hpos

end PoolMgr

/-! ## Removing a relation -/

namespace PoolGroup

variable (g : PoolGroup) (child x : ℕ)

/-- How often a group lists a number with a chance of its own, and with the equal one. -/
def explicitCount : ℕ := (g.explicitlyChanced.map PoolObject.guid).count x

def equalCount : ℕ := (g.equalChanced.map PoolObject.guid).count x

theorem mem_guids_iff : x ∈ g.guids ↔ 0 < g.equalCount x ∨ 0 < g.explicitCount x := by
  unfold guids PoolGroup.objects equalCount explicitCount
  rw [List.map_append, List.mem_append, List.count_pos_iff, List.count_pos_iff]

theorem map_guid_eraseP (l : List PoolObject) :
    (l.eraseP fun obj => obj.guid = child).map PoolObject.guid = (l.map PoolObject.guid).erase child := by
  rw [List.erase_eq_eraseP', List.eraseP_map]
  congr 1

/-- Of the child one listing goes of each kind, and of others none. -/
theorem count_removeOneRelation :
    (g.removeOneRelation child).equalCount x = g.equalCount x - (if x = child then 1 else 0) ∧
      (g.removeOneRelation child).explicitCount x =
        g.explicitCount x - (if x = child then 1 else 0) := by
  unfold removeOneRelation equalCount explicitCount
  rw [map_guid_eraseP, map_guid_eraseP]
  by_cases h : x = child
  · rw [h, List.count_erase_self, List.count_erase_self, if_pos rfl]
    exact ⟨rfl, rfl⟩
  · rw [List.count_erase_of_ne h, List.count_erase_of_ne h, if_neg h]
    exact ⟨rfl, rfl⟩

end PoolGroup

namespace PoolMgr

variable {mgr : PoolMgr} {child mother : ℕ}

theorem searchMap_removeRelation (mgr : PoolMgr) (child mother : ℕ) :
    (mgr.removeRelation child mother).searchMap .pool = update (mgr.searchMap .pool) child none := by
  simp [removeRelation, setGroup, setSearch]

theorem groups_removeRelation (mgr : PoolMgr) (child mother pool : ℕ) :
    (mgr.removeRelation child mother).groups .pool pool =
      if pool = mother then (mgr.groups .pool mother).removeOneRelation child
      else mgr.groups .pool pool := by
  by_cases h : pool = mother
  · simp [removeRelation, setGroup, setSearch, h]
  · simp [removeRelation, setGroup, setSearch, h]

/-- How often a mother lists a child is only changed by the removal of that relation. -/
theorem count_removeRelation (mgr : PoolMgr) (child mother pool x : ℕ) :
    ((mgr.removeRelation child mother).groups .pool pool).equalCount x =
        (mgr.groups .pool pool).equalCount x - (if pool = mother ∧ x = child then 1 else 0) ∧
      ((mgr.removeRelation child mother).groups .pool pool).explicitCount x =
        (mgr.groups .pool pool).explicitCount x - (if pool = mother ∧ x = child then 1 else 0) := by
  rw [groups_removeRelation]
  by_cases h : pool = mother
  · rw [if_pos h]
    have hcount := (mgr.groups .pool mother).count_removeOneRelation child x
    simpa [h] using hcount
  · simp [h]

variable {pool : ℕ}

theorem contains_of_removeRelation {x : ℕ} (h : (mgr.removeRelation child mother).Contains pool x) :
    mgr.Contains pool x := by
  have hcount := mgr.count_removeRelation child mother pool x
  unfold Contains at h ⊢
  rw [PoolGroup.mem_guids_iff, hcount.1, hcount.2] at h
  rw [PoolGroup.mem_guids_iff]
  omega

/-! ## What the rows make -/

/-- Every relation of the search map is one of the groups, and relates two different pools that there
are. -/
structure Linked (mgr : PoolMgr) (pools : List ℕ) : Prop where
  contains : ∀ child mother, mgr.searchMap .pool child = some mother → mgr.Contains mother child
  template : ∀ mother child, mgr.Contains mother child → mother ∈ pools ∧ child ∈ pools

/-- Nothing is loaded but the templates of the pools. -/
structure Fresh (mgr : PoolMgr) (pools : List ℕ) : Prop where
  poolTemplate : ∀ poolId, (mgr.poolTemplate poolId).isSome ↔ poolId ∈ pools
  groups : ∀ poolId, (mgr.groups .pool poolId).isEmpty
  searchMap : ∀ poolId, mgr.searchMap .pool poolId = none

theorem not_mem_guids_of_isEmpty {g : PoolGroup} (h : g.isEmpty) (x : ℕ) : x ∉ g.guids := by
  have h' := Bool.and_eq_true_iff.mp h
  rw [List.isEmpty_iff, List.isEmpty_iff] at h'
  unfold PoolGroup.guids PoolGroup.objects
  rw [h'.1, h'.2]
  exact List.not_mem_nil

/-- A row adds its relation to the groups, and to the search map if the child is new there. -/
theorem loadEntry_pool (mgr : PoolMgr) (mother child : ℕ) (chance : ℚ) :
    (∀ pool x, (mgr.loadEntry .pool mother child chance).Contains pool x ↔
        (pool = mother ∧ x = child) ∨ mgr.Contains pool x) ∧
      (∀ x m, (mgr.loadEntry .pool mother child chance).searchMap .pool x = some m ↔
        mgr.searchMap .pool x = some m ∨ (mgr.searchMap .pool x = none ∧ x = child ∧ m = mother)) ∧
      (mgr.loadEntry .pool mother child chance).poolTemplate = mgr.poolTemplate := by
  refine ⟨fun pool x => ?_, fun x m => ?_, ?_⟩
  · have hgroup : (mgr.loadEntry .pool mother child chance).groups .pool pool =
        if pool = mother then ({ mgr.groups .pool mother with poolId := mother }).addEntry
          (.new child chance) (mgr.template mother).maxLimit else mgr.groups .pool pool := by
      unfold loadEntry
      by_cases h : pool = mother
      · dsimp only
        split <;> simp [setGroup, setSearch, h]
      · dsimp only
        split <;> simp [setGroup, setSearch, h]
    unfold Contains
    rw [hgroup]
    by_cases h : pool = mother
    · rw [if_pos h, guids_addEntry, h]
      exact or_congr_left (and_iff_right rfl).symm
    · simp [h]
  · unfold loadEntry
    dsimp only
    split
    next hsome =>
      by_cases h : x = child
      · subst h
        have hne : mgr.searchMap .pool x ≠ none := fun he => by
          rw [setGroup, he] at hsome
          cases hsome
        simp [setGroup, hne]
      · simp [setGroup, h]
    next hnone =>
      by_cases h : x = child
      · subst h
        have he : mgr.searchMap .pool x = none := Option.not_isSome_iff_eq_none.mp hnone
        simp [setGroup, setSearch, he, eq_comm]
      · simp [setGroup, setSearch, h]
  · unfold loadEntry
    dsimp only
    split <;> rfl

theorem acceptsRow_congr {mgr' : PoolMgr} (h : mgr'.poolTemplate = mgr.poolTemplate)
    (row : PoolPoolRow) : mgr'.acceptsRow row = mgr.acceptsRow row := by
  unfold acceptsRow
  rw [h]

/-- **The relation of the groups is the one of the accepted rows.** -/
theorem contains_loadRows (mgr : PoolMgr) (rows : List PoolPoolRow) :
    (mgr.loadRows rows).poolTemplate = mgr.poolTemplate ∧
      ∀ mother child, (mgr.loadRows rows).Contains mother child ↔ mgr.Contains mother child ∨
        ∃ row ∈ rows, mgr.acceptsRow row ∧ row.motherPoolId = mother ∧ row.childPoolId = child := by
  unfold loadRows
  induction rows generalizing mgr with
  | nil => simp
  | cons row rows ih =>
    rw [List.foldl_cons]
    by_cases hrow : mgr.acceptsRow row
    · rw [if_pos hrow]
      obtain ⟨hcontains, -, htemplate⟩ := mgr.loadEntry_pool row.motherPoolId row.childPoolId row.chance
      obtain ⟨ht, hc⟩ := ih (mgr.loadEntry .pool row.motherPoolId row.childPoolId row.chance)
      refine ⟨ht.trans htemplate, fun mother child => ?_⟩
      rw [hc, hcontains]
      simp only [acceptsRow_congr htemplate, List.mem_cons, exists_eq_or_imp, hrow, true_and]
      tauto
    · rw [if_neg hrow]
      obtain ⟨ht, hc⟩ := ih mgr
      refine ⟨ht, fun mother child => ?_⟩
      rw [hc]
      simp [hrow]

theorem Linked.loadRows {pools : List ℕ} (h : mgr.Linked pools)
    (hpools : ∀ poolId, (mgr.poolTemplate poolId).isSome ↔ poolId ∈ pools) (rows : List PoolPoolRow) :
    (mgr.loadRows rows).Linked pools := by
  unfold PoolMgr.loadRows
  induction rows generalizing mgr with
  | nil => exact h
  | cons row rows ih =>
    rw [List.foldl_cons]
    by_cases hrow : mgr.acceptsRow row
    · rw [if_pos hrow]
      obtain ⟨hcontains, hsearch, htemplate⟩ :=
        mgr.loadEntry_pool row.motherPoolId row.childPoolId row.chance
      have hboth : row.motherPoolId ∈ pools ∧ row.childPoolId ∈ pools := by
        unfold acceptsRow at hrow
        simp only [Bool.and_eq_true] at hrow
        exact ⟨(hpools _).mp hrow.1.1.1.1, (hpools _).mp hrow.1.1.1.2⟩
      refine ih ⟨fun child mother hs => ?_, fun mother child hc => ?_⟩ fun poolId => ?_
      · rw [hcontains]
        cases (hsearch child mother).mp hs with
        | inl hs => exact .inr (h.contains child mother hs)
        | inr hs => exact .inl ⟨hs.2.2, hs.2.1⟩
      · cases (hcontains mother child).mp hc with
        | inl hc => exact hc.1 ▸ hc.2 ▸ hboth
        | inr hc => exact h.template mother child hc
      · rw [htemplate]
        exact hpools poolId
    · rw [if_neg hrow]
      exact ih h hpools

theorem Fresh.linked {pools : List ℕ} (h : mgr.Fresh pools) : mgr.Linked pools := by
  constructor
  · intro child mother hs
    rw [h.searchMap] at hs
    cases hs
  · intro mother child hc
    exact absurd hc (not_mem_guids_of_isEmpty (h.groups mother) child)

/-! ## The check -/

/-- A relation that the check takes out entirely: the search map knows it, and it is listed once. -/
structure Removable (mgr : PoolMgr) (child mother : ℕ) : Prop where
  first : mgr.searchMap .pool child = some mother
  equal : (mgr.groups .pool mother).equalCount child ≤ 1
  explicit : (mgr.groups .pool mother).explicitCount child ≤ 1

/-- What the check makes of the loaded pools. A relation that is still in the search map is still in the
groups, as it was; one that can be taken out is in both or in neither. -/
structure Checked (loaded mgr : PoolMgr) : Prop where
  search : ∀ a b, Leads (mgr.searchMap .pool) a b → Leads (loaded.searchMap .pool) a b
  contains : ∀ mother child, mgr.Contains mother child → loaded.Contains mother child
  equal : ∀ child mother, mgr.searchMap .pool child = some mother →
    (mgr.groups .pool mother).equalCount child = (loaded.groups .pool mother).equalCount child
  explicit : ∀ child mother, mgr.searchMap .pool child = some mother →
    (mgr.groups .pool mother).explicitCount child = (loaded.groups .pool mother).explicitCount child
  removed : ∀ child mother, loaded.Removable child mother → mgr.Contains mother child →
    mgr.searchMap .pool child = some mother

variable {loaded : PoolMgr} {pools : List ℕ}

theorem Checked.refl (loaded : PoolMgr) : Checked loaded loaded :=
  ⟨fun _ _ h => h, fun _ _ h => h, fun _ _ _ => rfl, fun _ _ _ => rfl, fun _ _ h _ => h.first⟩

theorem Checked.removeRelation (h : Checked loaded mgr)
    (hsearch : mgr.searchMap .pool child = some mother) :
    Checked loaded (mgr.removeRelation child mother) := by
  have hsub (x m : ℕ) (hx : (mgr.removeRelation child mother).searchMap .pool x = some m) :
      x ≠ child ∧ mgr.searchMap .pool x = some m := by
    rw [searchMap_removeRelation] at hx
    by_cases he : x = child
    · rw [he, update_self] at hx
      cases hx
    · rw [update_of_ne he] at hx
      exact ⟨he, hx⟩
  constructor
  · exact fun x m hx => h.search x m (hsub x m hx).2
  · exact fun pool x hx => h.contains pool x (contains_of_removeRelation hx)
  · intro x m hx
    rw [(mgr.count_removeRelation child mother m x).1, if_neg fun he => (hsub x m hx).1 he.2]
    exact h.equal x m (hsub x m hx).2
  · intro x m hx
    rw [(mgr.count_removeRelation child mother m x).2, if_neg fun he => (hsub x m hx).1 he.2]
    exact h.explicit x m (hsub x m hx).2
  · intro x m hremovable hx
    have hbefore := h.removed x m hremovable (contains_of_removeRelation hx)
    by_cases he : x = child
    · -- the relation itself is gone
      subst he
      have hm : m = mother := Option.some.inj (hbefore.symm.trans hsearch)
      subst hm
      have hcount := mgr.count_removeRelation x m m x
      unfold Contains at hx
      rw [PoolGroup.mem_guids_iff, hcount.1, hcount.2, h.equal x m hbefore, h.explicit x m hbefore,
        if_pos ⟨rfl, rfl⟩] at hx
      have hequal := hremovable.equal
      have hexplicit := hremovable.explicit
      omega
    · rw [searchMap_removeRelation, update_of_ne he]
      exact hbefore

theorem removeCircle_cases (mgr : PoolMgr) (n pool : ℕ) :
    (findCircle (mgr.searchMap .pool) n [] pool = none ∧ mgr.removeCircle n pool = mgr) ∨
      ∃ child mother, findCircle (mgr.searchMap .pool) n [] pool = some (child, mother) ∧
        mgr.searchMap .pool child = some mother ∧
        mgr.removeCircle n pool = mgr.removeRelation child mother := by
  unfold removeCircle
  cases h : findCircle (mgr.searchMap .pool) n [] pool with
  | none => exact .inl ⟨rfl, rfl⟩
  | some e =>
    obtain ⟨child, mother⟩ := e
    have hcloses := findCircle_closes (fun y hy => absurd hy List.not_mem_nil) h
    exact .inr ⟨child, mother, rfl, hcloses.1, rfl⟩

theorem Checked.removeCircle (h : Checked loaded mgr) (n pool : ℕ) :
    Checked loaded (mgr.removeCircle n pool) := by
  obtain ⟨-, he⟩ | ⟨child, mother, -, hsearch, he⟩ := mgr.removeCircle_cases n pool
  · rw [he]
    exact h
  · rw [he]
    exact h.removeRelation hsearch

variable {n : ℕ}

/-- A round only takes relations out of the search map. -/
theorem leads_of_removeCircle {a b : ℕ}
    (h : Leads ((mgr.removeCircle n pool).searchMap .pool) a b) :
    Leads (mgr.searchMap .pool) a b := by
  obtain ⟨-, he⟩ | ⟨child, mother, -, -, he⟩ := mgr.removeCircle_cases n pool
  · rw [he] at h
    exact h
  · rw [he, searchMap_removeRelation] at h
    unfold Leads at h ⊢
    by_cases hchild : a = child
    · rw [hchild, update_self] at h
      cases h
    · rwa [update_of_ne hchild] at h

/-- After the round of a pool, the walk from it ends. -/
theorem acc_removeCircle (hl : loaded.Linked pools) (h : Checked loaded mgr) (hpool : pool ∈ pools)
    : Acc (fun b a => Leads ((mgr.removeCircle pools.length pool).searchMap .pool) a b) pool := by
  obtain ⟨hnone, he⟩ | ⟨child, mother, hsome, -, he⟩ := mgr.removeCircle_cases pools.length pool
  · rw [he]
    have hmothers (a b : ℕ) (hab : mgr.searchMap .pool a = some b) : b ∈ pools :=
      (hl.template b a (hl.contains a b (h.search a b hab))).1
    have hstart : ∀ y ∈ [pool], y ∈ pools := fun y hy => (List.mem_singleton.mp hy).symm ▸ hpool
    exact acc_of_findCircle_none hmothers (List.nodup_singleton pool) hstart (le_refl _) hnone
  · rw [he, searchMap_removeRelation]
    exact acc_of_findCircle_some hsome

/-- **The rounds.** What they keep, and that the walks of their pools end. -/
theorem foldl_removeCircle (hl : loaded.Linked pools) (h : Checked loaded mgr) (order : List ℕ)
    (horder : ∀ pool ∈ order, pool ∈ pools) :
    Checked loaded (order.foldl (fun mgr pool => mgr.removeCircle pools.length pool) mgr) ∧
      (∀ a b, Leads ((order.foldl (fun mgr pool => mgr.removeCircle pools.length pool) mgr).searchMap
        .pool) a b → Leads (mgr.searchMap .pool) a b) ∧
      ∀ pool ∈ order, Acc (fun b a => Leads ((order.foldl (fun mgr pool =>
        mgr.removeCircle pools.length pool) mgr).searchMap .pool) a b) pool := by
  induction order generalizing mgr with
  | nil => exact ⟨h, fun _ _ hab => hab, fun pool hpool => (nomatch hpool)⟩
  | cons pool order ih =>
    obtain ⟨hchecked, hsub, hacc⟩ := ih (h.removeCircle pools.length pool) fun x hx =>
      horder x (List.mem_cons_of_mem pool hx)
    refine ⟨hchecked, fun a b hab => leads_of_removeCircle (hsub a b hab), fun x hx => ?_⟩
    cases List.mem_cons.mp hx with
    | inl he =>
      subst he
      exact Leads.acc_mono hsub (acc_removeCircle hl h (horder x List.mem_cons_self))
    | inr hx => exact hacc x hx

/-- A walk in the search map from a pool that there is not ends at once. -/
theorem Checked.acc_of_not_mem (hl : loaded.Linked pools) (h : Checked loaded mgr)
    (hpool : pool ∉ pools) : Acc (fun b a => Leads (mgr.searchMap .pool) a b) pool := by
  refine Leads.acc_of_none ?_
  cases hs : mgr.searchMap .pool pool with
  | none => rfl
  | some mother =>
    exact absurd (hl.template mother pool (hl.contains pool mother (h.search pool mother hs))).2 hpool

variable {order : List ℕ}

/-- **After the check no walk along the search map comes back.** -/
theorem acc_removeCircles (hl : loaded.Linked pools) (horder : order.Perm pools) (pool : ℕ) :
    Acc (fun b a => Leads ((loaded.removeCircles order).searchMap .pool) a b) pool := by
  obtain ⟨hchecked, -, hacc⟩ := foldl_removeCircle hl (Checked.refl loaded) order fun x hx =>
    horder.subset hx
  rw [← horder.length_eq] at hchecked hacc
  by_cases hpool : pool ∈ order
  · exact hacc pool hpool
  · exact hchecked.acc_of_not_mem hl fun h => hpool (horder.symm.subset h)

theorem checked_removeCircles (hl : loaded.Linked pools) (horder : order.Perm pools) :
    Checked loaded (loaded.removeCircles order) := by
  have h := (foldl_removeCircle hl (Checked.refl loaded) order fun x hx => horder.subset hx).1
  rw [← horder.length_eq] at h
  exact h

/-- The circles of the groups use only relations that the check takes out entirely. -/
def CirclesRemovable (mgr : PoolMgr) : Prop :=
  ∀ mother child, mgr.Contains mother child → ReflTransGen mgr.Contains child mother →
    mgr.Removable child mother

/-- **Where every circle can be taken out, none is left.** -/
theorem acyclic_removeCircles (hl : loaded.Linked pools) (horder : order.Perm pools)
    (hremovable : loaded.CirclesRemovable) : Acyclic (loaded.removeCircles order).Contains := by
  intro x hx
  have hchecked := checked_removeCircles hl horder
  -- every relation of a circle that is left is in the search map
  have hcircle {y : ℕ} (h : TransGen (loaded.removeCircles order).Contains x y)
      (hback : ReflTransGen loaded.Contains y x) :
      TransGen (fun a b => Leads ((loaded.removeCircles order).searchMap .pool) b a) x y := by
    induction h with
    | single hxy =>
      have hloaded := hchecked.contains _ _ hxy
      exact .single (hchecked.removed _ _ (hremovable _ _ hloaded hback) hxy)
    | @tail y z hxy hyz ih =>
      have hloaded := hchecked.contains _ _ hyz
      have hway : ReflTransGen loaded.Contains x y :=
        (TransGen.mono hchecked.contains _ _ hxy).to_reflTransGen
      exact (ih (.head hloaded hback)).tail
        (hchecked.removed _ _ (hremovable _ _ hloaded (hback.trans hway)) hyz)
  have hon : OnCircle ((loaded.removeCircles order).searchMap .pool) x :=
    transGen_swap.mp (hcircle hx .refl)
  exact Lib.not_onCircle_of_acc (acc_removeCircles hl horder x) hon

/-- **Where there is no circle, nothing is taken out.** -/
theorem removeCircles_of_acyclic (hl : loaded.Linked pools) (order : List ℕ)
    (h : Acyclic loaded.Contains) : loaded.removeCircles order = loaded := by
  have hround (n pool : ℕ) : loaded.removeCircle n pool = loaded := by
    obtain ⟨-, he⟩ | ⟨child, mother, hfound, -, -⟩ := loaded.removeCircle_cases n pool
    · exact he
    · obtain ⟨hlead, hback⟩ := findCircle_closes (fun y hy => absurd hy List.not_mem_nil) hfound
      have hswap : ReflTransGen loaded.Contains child mother :=
        reflTransGen_swap.mp (ReflTransGen.mono (fun a b hab => hl.contains a b hab) _ _ hback)
      exact absurd (TransGen.head' (hl.contains child mother hlead) hswap) (h mother)
  unfold removeCircles
  generalize order.length = n
  induction order with
  | nil => rfl
  | cons pool order ih =>
    rw [List.foldl_cons, hround n pool]
    exact ih

/-! ## A circle that is left -/

/-- A circle of relations of the groups: of each pool of it, a mother. -/
structure Circle (mgr : PoolMgr) (next : ℕ → ℕ) (start : ℕ) : Prop where
  periodic : start ∈ periodicPts next
  contains : ∀ i, mgr.Contains (next^[i + 1] start) (next^[i] start)

variable {next : ℕ → ℕ} {start : ℕ}

theorem Circle.not_acyclic (h : mgr.Circle next start) : ¬ Acyclic mgr.Contains := by
  intro hacyclic
  obtain ⟨n, hpos, hn⟩ := h.periodic
  have hway (i : ℕ) : TransGen mgr.Contains (next^[i + 1] start) start := by
    induction i with
    | zero => exact .single (h.contains 0)
    | succ i ih => exact .head (h.contains (i + 1)) ih
  have hback := hway (n - 1)
  rw [Nat.sub_add_cancel hpos, hn] at hback
  exact hacyclic start hback

theorem Circle.exists_iterate (h : mgr.Circle next start) (i : ℕ) :
    ∃ j, next^[j] (next^[i] start) = start := by
  obtain ⟨n, hpos, hn⟩ := h.periodic
  refine ⟨n * i - i, ?_⟩
  rw [← iterate_add_apply, Nat.sub_add_cancel (Nat.le_mul_of_pos_left i hpos)]
  exact hn.mul_const i

/-- A relation may be taken out without breaking the circle: it is not of the circle, or it is listed
twice. -/
def Harmless (loaded : PoolMgr) (next : ℕ → ℕ) (start child mother : ℕ) : Prop :=
  (∃ i, next^[i] start = child) → next child = mother →
    2 ≤ (loaded.groups .pool mother).equalCount child ∨
      2 ≤ (loaded.groups .pool mother).explicitCount child

/-- The check of a pool is harmless. -/
def Good (loaded : PoolMgr) (next : ℕ → ℕ) (start : ℕ) (n pool : ℕ) : Prop :=
  ∀ child mother, findCircle (loaded.searchMap .pool) n [] pool = some (child, mother) →
    loaded.Harmless next start child mother

theorem Circle.removeCircle (h : Checked loaded mgr) (hcircle : mgr.Circle next start)
    (hgood : loaded.Good next start n pool) : (mgr.removeCircle n pool).Circle next start := by
  obtain ⟨-, he⟩ | ⟨child, mother, hfound, hsearch, he⟩ := mgr.removeCircle_cases n pool
  · rw [he]
    exact hcircle
  · rw [he]
    have hharmless := hgood child mother (findCircle_mono h.search hfound)
    refine ⟨hcircle.periodic, fun i => ?_⟩
    have hbefore := hcircle.contains i
    have hcount := mgr.count_removeRelation child mother (next^[i + 1] start) (next^[i] start)
    unfold Contains at hbefore ⊢
    rw [PoolGroup.mem_guids_iff] at hbefore
    rw [PoolGroup.mem_guids_iff, hcount.1, hcount.2]
    by_cases hedge : next^[i + 1] start = mother ∧ next^[i] start = child
    · have htwice := hharmless ⟨i, hedge.2⟩
        (hedge.2 ▸ (iterate_succ_apply' next i start).symm.trans hedge.1)
      rw [if_pos hedge, hedge.1, hedge.2, h.equal child mother hsearch,
        h.explicit child mother hsearch]
      omega
    · rw [if_neg hedge]
      exact hbefore

theorem Circle.foldl_removeCircle (h : Checked loaded mgr) (hcircle : mgr.Circle next start)
    (order : List ℕ) (hgood : ∀ pool ∈ order, loaded.Good next start n pool) :
    (order.foldl (fun mgr pool => mgr.removeCircle n pool) mgr).Circle next start := by
  induction order generalizing mgr with
  | nil => exact hcircle
  | cons pool order ih =>
    exact ih (h.removeCircle n pool) (hcircle.removeCircle h (hgood pool List.mem_cons_self))
      fun x hx => hgood x (List.mem_cons_of_mem pool hx)

/-- On a circle of the search map there is a pool whose check is harmless, unless every relation of the
circle can be taken out. -/
theorem exists_good (n : ℕ) (h : Checked loaded mgr)
    (hcircle : loaded.Circle next start) (hbad : ¬ loaded.Removable start (next start)) {x : ℕ}
    (hx : OnCircle (mgr.searchMap .pool) x) :
    ∃ y, OnCircle (mgr.searchMap .pool) y ∧ loaded.Good next start n y := by
  by_contra hnone
  have hsub {a b : ℕ} : Leads (mgr.searchMap .pool) a b → Leads (loaded.searchMap .pool) a b :=
    h.search a b
  -- then the circle of the search map is the one of the groups
  have hstep {p : ℕ} (hp : OnCircle (mgr.searchMap .pool) p) : (∃ i, next^[i] start = p) ∧
      OnCircle (mgr.searchMap .pool) (next p) ∧ loaded.Removable p (next p) := by
    have hnext := hp.next hp.leads
    have hlead := hsub hp.leads
    generalize hs : follow (mgr.searchMap .pool) p = s at hnext hlead
    have hnot : ¬ loaded.Good next start n s := fun hg => hnone ⟨s, hnext, hg⟩
    unfold Good at hnot
    push Not at hnot
    obtain ⟨child, mother, hfound, hharm⟩ := hnot
    have hpon : OnCircle (loaded.searchMap .pool) p := TransGen.mono h.search _ _ hp
    have hson : OnCircle (loaded.searchMap .pool) s := TransGen.mono h.search _ _ hnext
    -- the relation that is found leads from `p` to its mother
    have hfound' := findCircle_fuel (findCircle_of_onCircle hson) n
    have hmore := findCircle_fuel hfound (minimalPeriod (follow (loaded.searchMap .pool)) s)
    rw [Nat.add_comm, hfound', ← hlead.follow_eq, hpon.before_follow, hlead.follow_eq] at hmore
    obtain ⟨rfl, rfl⟩ := Prod.mk.inj (Option.some.inj hmore)
    unfold Harmless at hharm
    push Not at hharm
    obtain ⟨hin, hmother, hequal, hexplicit⟩ := hharm
    rw [hmother]
    exact ⟨hin, hnext, hlead, Nat.le_of_lt_succ hequal, Nat.le_of_lt_succ hexplicit⟩
  have hon (j : ℕ) : OnCircle (mgr.searchMap .pool) (next^[j] x) := by
    induction j with
    | zero => exact hx
    | succ j ih =>
      rw [iterate_succ_apply']
      exact (hstep ih).2.1
  obtain ⟨i, rfl⟩ := (hstep hx).1
  obtain ⟨j, hj⟩ := hcircle.exists_iterate i
  exact hbad (hstep (hj ▸ hon j)).2.2

/-- **Where a circle has a relation that cannot be taken out entirely, there is an order of the pools in
which a circle is left**: first the pools whose check is harmless. After them, the search map has no
circle any more. -/
theorem exists_order (hl : loaded.Linked pools) (hnot : ¬ loaded.CirclesRemovable) :
    ∃ order : List ℕ, order.Perm pools ∧ ¬ Acyclic (loaded.removeCircles order).Contains := by
  classical
  unfold CirclesRemovable at hnot
  push Not at hnot
  obtain ⟨mother, child, hedge, hway, hbad⟩ := hnot
  obtain ⟨next, hnext, hperiodic, hcontains⟩ :=
    Lib.exists_circle (r := fun c m => loaded.Contains m c) hedge (reflTransGen_swap.mp hway)
  have hcircle : loaded.Circle next child := ⟨hperiodic, hcontains⟩
  let good (pool : ℕ) : Bool := loaded.Good next child pools.length pool
  have hperm : (pools.filter good ++ pools.filter fun pool => !good pool).Perm pools :=
    List.filter_append_perm good pools
  refine ⟨_, hperm, ?_⟩
  unfold removeCircles
  rw [hperm.length_eq, List.foldl_append]
  have hgood : ∀ pool ∈ pools.filter good, loaded.Good next child pools.length pool := fun pool h =>
    of_decide_eq_true (List.mem_filter.mp h).2
  obtain ⟨hchecked, -, hacc⟩ := foldl_removeCircle hl (Checked.refl loaded) (pools.filter good)
    fun pool h => (List.mem_filter.mp h).1
  have hleft := hcircle.foldl_removeCircle (Checked.refl loaded) (pools.filter good) hgood
  generalize (pools.filter good).foldl (fun mgr pool => mgr.removeCircle pools.length pool) loaded = mgr
    at hchecked hacc hleft
  have hnone (x : ℕ) : ¬ OnCircle (mgr.searchMap .pool) x := by
    intro hx
    obtain ⟨y, hy, hygood⟩ := exists_good pools.length hchecked hcircle (hnext.symm ▸ hbad) hx
    obtain ⟨m, hlead, -⟩ := TransGen.head'_iff.mp hy
    have hmem := (hl.template m y (hl.contains y m (hchecked.search y m hlead))).2
    exact Lib.not_onCircle_of_acc
      (hacc y (List.mem_filter.mpr ⟨hmem, decide_eq_true hygood⟩)) hy
  have hrest (order : List ℕ) :
      order.foldl (fun mgr pool => mgr.removeCircle pools.length pool) mgr = mgr := by
    induction order with
    | nil => rfl
    | cons pool order ih =>
      obtain ⟨-, he⟩ | ⟨c, m, hfound, -, -⟩ := mgr.removeCircle_cases pools.length pool
      · rw [List.foldl_cons, he, ih]
      · obtain ⟨hlead, hback⟩ := findCircle_closes (fun y hy => absurd hy List.not_mem_nil) hfound
        exact absurd (TransGen.head' hlead hback) (hnone c)
  rw [hrest]
  exact hleft.not_acyclic

/-! ## Termination -/

/-- However the dice fall, the pool can be spawned and despawned: from some fuel on both answer. -/
def Terminates (mgr : PoolMgr) (pool : ℕ) : Prop :=
  ∃ enough, ∀ fuel, enough ≤ fuel → ∀ (R : Rounding) (w : PoolWorld),
    (mgr.spawnPool R fuel pool w).isSome ∧ (mgr.despawnPool fuel pool w).isSome

theorem oneObject_isSome {onPool : ℕ → PoolWorld → Option PoolWorld} {kind : PoolKind}
    (h : ∀ child w, mgr.Contains pool child → (onPool child w).isSome) {obj : PoolObject}
    (hobj : obj ∈ (mgr.groups kind pool).objects) (w : PoolWorld) :
    (oneObject onPool kind obj.guid w).isSome := by
  cases kind with
  | creature => rfl
  | gameobject => rfl
  | pool => exact h obj.guid w (PoolGroup.mem_guids _ hobj)

variable {despawn1Pool : ℕ → PoolWorld → Option PoolWorld}

theorem despawnObject_isSome
    (h : ∀ child w, mgr.Contains pool child → (despawn1Pool child w).isSome) (kind : PoolKind)
    (guid : ℕ) (w : PoolWorld) :
    ((mgr.groups kind pool).despawnObject (oneObject despawn1Pool kind) kind guid w).isSome := by
  refine foldlM_isSome (fun w obj hobj => ?_) w
  split
  · rw [Option.isSome_map]
    exact oneObject_isSome h hobj w
  · rfl

theorem despawnPoolOf_isSome
    (h : ∀ child w, mgr.Contains pool child → (despawn1Pool child w).isSome) (kind : PoolKind)
    (w : PoolWorld) : (mgr.despawnPoolOf despawn1Pool kind pool w).isSome := by
  unfold despawnPoolOf
  split
  · rfl
  · exact despawnObject_isSome h kind 0 w

theorem spawnPoolOf_isSome {R : Rounding} {spawn1Pool : ℕ → PoolWorld → Option PoolWorld}
    (h : ∀ child w, mgr.Contains pool child → (spawn1Pool child w).isSome)
    (h' : ∀ child w, mgr.Contains pool child → (despawn1Pool child w).isSome) (kind : PoolKind)
    (triggerFrom : ℕ) (w : PoolWorld) :
    (mgr.spawnPoolOf R spawn1Pool despawn1Pool kind pool triggerFrom w).isSome := by
  unfold spawnPoolOf
  split
  · rfl
  have hrolled (t : ℕ) (w : PoolWorld) (rolled : List PoolObject)
      (hsub : ∀ obj ∈ rolled, obj ∈ (mgr.groups kind pool).objects) :
      ((mgr.groups kind pool).spawnRolled (oneObject spawn1Pool kind) kind t rolled w).isSome := by
    refine foldlM_isSome (fun out obj hobj => ?_) (w, t)
    unfold PoolGroup.spawn1Rolled
    split
    · split <;> rfl
    · rw [Option.isSome_map]
      exact oneObject_isSome h (hsub obj hobj) _
  have hspawned := hrolled triggerFrom { w with dice := fun n => w.dice (n + 1) } _ fun obj hobj =>
    ((mgr.groups kind pool).objectsToSpawn_sublist R kind (mgr.template pool) triggerFrom w).subset hobj
  obtain ⟨out, hout⟩ := Option.isSome_iff_exists.mp hspawned
  unfold PoolGroup.spawnObject
  dsimp only
  rw [hout, Option.bind_some]
  split
  · exact despawnObject_isSome h' kind _ _
  · rfl

theorem bind_isSome {x : Option PoolWorld} {f : PoolWorld → Option PoolWorld} (hx : x.isSome)
    (hf : ∀ w, (f w).isSome) : (x.bind f).isSome := by
  obtain ⟨w, rfl⟩ := Option.isSome_iff_exists.mp hx
  exact hf w

/-- The rank of a pool is the depth of its children, and enough fuel. -/
theorem isSome_of_rank {rank : ℕ → ℕ} (hrank : ∀ mother child, mgr.Contains mother child →
    rank child < rank mother) (fuel : ℕ) : ∀ pool w, rank pool < fuel →
      (mgr.despawnPool fuel pool w).isSome ∧ ∀ R, (mgr.spawnPool R fuel pool w).isSome := by
  induction fuel with
  | zero => exact fun pool w h => absurd h (Nat.not_lt_zero _)
  | succ fuel ih =>
    intro pool w hpool
    have hchild (child : ℕ) (w : PoolWorld) (hc : mgr.Contains pool child) :
        (mgr.despawnPool fuel child w).isSome ∧ ∀ R, (mgr.spawnPool R fuel child w).isSome :=
      ih child w ((hrank pool child hc).trans_le (Nat.le_of_lt_succ hpool))
    have hdespawn (child : ℕ) (w : PoolWorld) (hc : mgr.Contains pool child) :
        (mgr.despawnPool fuel child w).isSome := (hchild child w hc).1
    constructor
    · exact bind_isSome (despawnPoolOf_isSome hdespawn .creature w) fun w =>
        bind_isSome (despawnPoolOf_isSome hdespawn .gameobject w) fun w =>
          despawnPoolOf_isSome hdespawn .pool w
    · intro R
      have hspawn (kind : PoolKind) (w : PoolWorld) : (mgr.spawnPoolOf R (mgr.spawnPool R fuel)
          (mgr.despawnPool fuel) kind pool 0 w).isSome :=
        spawnPoolOf_isSome (fun child w hc => (hchild child w hc).2 R) hdespawn kind 0 w
      exact bind_isSome (hspawn .pool w) fun w => bind_isSome (hspawn .gameobject w) fun w =>
        hspawn .creature w

theorem terminates_of_acyclic {pools : List ℕ}
    (hpools : ∀ mother child, mgr.Contains mother child → child ∈ pools) (h : Acyclic mgr.Contains)
    (pool : ℕ) : mgr.Terminates pool := by
  obtain ⟨rank, hrank⟩ := Lib.exists_rank pools.toFinset
    (fun a b hab => List.mem_toFinset.mpr (hpools a b hab)) h
  refine ⟨rank pool + 1, fun fuel hfuel R w => ?_⟩
  have hsome := isSome_of_rank hrank fuel pool w hfuel
  exact ⟨hsome.2 R, hsome.1⟩

/-! ## Loading -/

/-- The relation of the accepted rows. -/
def RowRelation (mgr : PoolMgr) (rows : List PoolPoolRow) (mother child : ℕ) : Prop :=
  ∃ row ∈ rows, mgr.acceptsRow row ∧ row.motherPoolId = mother ∧ row.childPoolId = child

theorem Fresh.contains_loadRows {pools : List ℕ} (h : mgr.Fresh pools) (rows : List PoolPoolRow)
    (mother child : ℕ) :
    (mgr.loadRows rows).Contains mother child ↔ mgr.RowRelation rows mother child := by
  rw [(mgr.contains_loadRows rows).2]
  exact or_iff_right (not_mem_guids_of_isEmpty (h.groups mother) child)

/-- **What loading should make of the rows**: no circle, so that every pool can be spawned and
despawned, and the relations of all rows if the rows have no circle. -/
structure Sound (mgr : PoolMgr) (rows : List PoolPoolRow) (loaded : PoolMgr) : Prop where
  acyclic : Acyclic loaded.Contains
  terminates : ∀ pool, loaded.Terminates pool
  kept : Acyclic (mgr.RowRelation rows) → ∀ mother child, mgr.RowRelation rows mother child →
    loaded.Contains mother child

/-- **When loading leaves no circle**: in every order of the pools, just if every circle of the rows
uses only relations of children to their first mothers, that are listed once. -/
theorem loadPoolPools_sound_iff (mgr : PoolMgr) (pools : List ℕ) (hfresh : mgr.Fresh pools)
    (rows : List PoolPoolRow) :
    (∀ order : List ℕ, order.Perm pools → mgr.Sound rows (mgr.loadPoolPools order rows)) ↔
      (mgr.loadRows rows).CirclesRemovable := by
  have hl := hfresh.linked.loadRows hfresh.poolTemplate rows
  constructor
  · intro h
    by_contra hnot
    obtain ⟨order, horder, hcircle⟩ := exists_order hl hnot
    exact hcircle (h order horder).acyclic
  · intro hremovable order horder
    have hacyclic := acyclic_removeCircles hl horder hremovable
    have hchecked := checked_removeCircles hl horder
    refine ⟨hacyclic, fun pool => ?_, fun h mother child hc => ?_⟩
    · exact terminates_of_acyclic (fun m c hc => (hl.template m c (hchecked.contains m c hc)).2)
        hacyclic pool
    · have hrows : Acyclic (mgr.loadRows rows).Contains :=
        h.mono fun m c hc => (hfresh.contains_loadRows rows m c).mp hc
      unfold loadPoolPools
      rw [removeCircles_of_acyclic hl order hrows]
      exact (hfresh.contains_loadRows rows mother child).mpr hc

/-- Three pools without limits, and nothing else. -/
def threePools : PoolMgr :=
  { poolTemplate := fun poolId => if poolId ∈ [1, 2, 3] then some ⟨0, 0⟩ else none
    groups := fun _ _ => ⟨0, [], []⟩
    searchMap := fun _ _ => none }

theorem fresh_threePools : threePools.Fresh [1, 2, 3] := by
  refine ⟨fun poolId => ?_, fun _ => rfl, fun _ => rfl⟩
  unfold threePools
  dsimp only
  split
  next h => exact ⟨fun _ => h, fun _ => rfl⟩
  next h => exact ⟨fun hsome => (nomatch hsome), fun hmem => absurd hmem h⟩

instance (mgr : PoolMgr) (mother child : ℕ) : Decidable (mgr.Contains mother child) :=
  inferInstanceAs (Decidable (_ ∈ _))

/-- Two pools that contain each other are parted. -/
theorem loadPoolPools_sound_pair :
    threePools.Sound [⟨1, 2, 0⟩, ⟨2, 1, 0⟩]
      (threePools.loadPoolPools [1, 2, 3] [⟨1, 2, 0⟩, ⟨2, 1, 0⟩]) := by
  refine (loadPoolPools_sound_iff threePools [1, 2, 3] fresh_threePools _).mpr ?_ _ (.refl _)
  intro mother child hc _
  obtain ⟨row, hrow, -, rfl, rfl⟩ := (fresh_threePools.contains_loadRows _ mother child).mp hc
  rw [List.mem_cons, List.mem_singleton] at hrow
  cases hrow with
  | inl he =>
    subst he
    exact ⟨by decide +kernel, by decide +kernel, by decide +kernel⟩
  | inr he =>
    subst he
    exact ⟨by decide +kernel, by decide +kernel, by decide +kernel⟩

/-- The first pool is loaded with another mother before, so the search map does not know the circle. -/
theorem loadPoolPools_unsound :
    ¬ ∀ (mgr : PoolMgr) (pools : List ℕ), mgr.Fresh pools → ∀ (rows : List PoolPoolRow)
      (order : List ℕ), order.Perm pools → mgr.Sound rows (mgr.loadPoolPools order rows) := by
  intro h
  have hsound := h threePools [1, 2, 3] fresh_threePools [⟨1, 3, 0⟩, ⟨1, 2, 0⟩, ⟨2, 1, 0⟩] [1, 2, 3]
    (List.Perm.refl _)
  refine hsound.acyclic 1 (.head (b := 2) ?_ (.single ?_))
  · decide +kernel
  · decide +kernel

end PoolMgr

end Sunstrider.Pools
