import Mathlib.Data.Finset.Lattice.Lemmas
import Mathlib.Data.Finset.Insert
import Sunstrider.Laws.Reputation.Loading

/-!
# Reputation bookkeeping

What the manager's caches and flags say of the standings (`Exact`): the counters, the bounds of a
reputation that was set, INACTIVE only with VISIBLE, and war with each hostile faction that was set or
loaded. Two calls can break it. `DropFactionReputation` sets a standing to 0 and tells neither the
counters nor the flags, and `SetAtWar` takes the war off a hostile faction. A run keeps `Exact` all
along just if none of its calls does so (`Careful`).
-/

namespace Sunstrider.Reputation

open Sunstrider.Lib

/-! ## What is remembered of a run -/

/-- The manager, with the factions whose reputation was set since the last login, and those whose
reputation was set or loaded. -/
structure Traced where
  mgr : ReputationMgr := {}
  set : Finset ℕ := ∅
  settled : Finset ℕ := ∅

/-- The factions that a call sets through `SetReputation`. -/
def touched (env : Env) : Op → Finset ℕ
  | .setReputation factionId _ _ false =>
    if (env.store.lookupEntry factionId).isSome then {factionId} else ∅
  | .swapFactionReputation fromId toId =>
    if (env.store.lookupEntry fromId).isSome && (env.store.lookupEntry toId).isSome then {fromId, toId}
    else ∅
  | _ => ∅

/-- One call, and what is remembered of it. -/
def traced (env : Env) (t : Traced) (op : Op) : Traced where
  mgr := step env t.mgr op
  set :=
    match op with
    | .initialized | .loadFromDB _ => ∅
    | op => t.set ∪ touched env op
  settled :=
    match op with
    | .initialized => ∅
    | .loadFromDB rows => rows.keys.toFinset
    | op => t.settled ∪ touched env op

/-! ## The property -/

/-- What the flags and the standing of a state say of each other. -/
structure Proper (env : Env) (set settled : Finset ℕ) (f : FactionState) : Prop where
  bounded : f.id ∈ set →
    reputationBottom ≤ env.reputationOf f ∧ env.reputationOf f ≤ reputationCap
  inactive : has f.flags .inactive = true → has f.flags .visible = true
  atWar : f.id ∈ settled → env.rankOf f ≤ .hostile →
    f.isPeaceful = true ∨ has f.flags .atWar = true

/-- **Exact bookkeeping.** -/
structure Exact (env : Env) (t : Traced) : Prop where
  counted : Counted env t.mgr
  proper : ∀ k f, t.mgr.factions.lookup k = some f → Proper env t.set t.settled f

/-- `DropFactionReputation` of this state leaves the ranks that are counted, and what the flags and the
standing say of each other. -/
def DropKeeps (env : Env) (t : Traced) (f : FactionState) : Prop :=
  (∀ r ∈ [ReputationRank.honored, .revered, .exalted],
    r ≤ env.rankOf f ↔ r ≤ reputationToRank (env.baseOf f)) ∧
  (f.id ∈ t.set → reputationBottom ≤ env.baseOf f ∧ env.baseOf f ≤ reputationCap) ∧
  (f.id ∈ t.settled → reputationToRank (env.baseOf f) ≤ .hostile →
    f.isPeaceful = true ∨ has f.flags .atWar = true)

/-- **The condition of a call.** Only drops and peace can fail it. -/
def Careful (env : Env) (t : Traced) : Op → Prop
  | .dropFactionReputation factionId =>
    ∀ f, t.mgr.factions.lookup factionId = some f → DropKeeps env t f
  | .setAtWar repListID false =>
    ∀ f, t.mgr.factions.lookup repListID = some f → f.isForced = false → f.id ∈ t.settled →
      env.rankOf f ≤ .hostile → f.isPeaceful = true
  | _ => True

variable {env : Env} {t : Traced}

theorem exact_empty : Exact env {} := ⟨counted_empty, fun _ _ h => (nomatch h)⟩

variable {set settled : Finset ℕ} {f : FactionState}

/-- A state of another faction is as proper as before. -/
theorem Proper.mono {set' settled' : Finset ℕ} (h : Proper env set settled f)
    (hset : f.id ∈ set' → f.id ∈ set) (hsettled : f.id ∈ settled' → f.id ∈ settled) :
    Proper env set' settled' f :=
  ⟨fun hf => h.bounded (hset hf), h.inactive, fun hf => h.atWar (hsettled hf)⟩

/-- **One state is written**: what is left to show is that it is counted, and proper. -/
theorem Exact.write (hex : Exact env t) (hk : Known env t.mgr) {f' : FactionState}
    {mgr : ReputationMgr} (hf : t.mgr.factions.lookup f'.reputationListID = some f)
    (hmgr : mgr.factions = (t.mgr.put f').factions) (hcounted : Counted env mgr)
    (hset : set ⊆ insert f.id t.set) (hsettled : settled ⊆ insert f.id t.settled)
    (hproper : Proper env set settled f') : Exact env ⟨mgr, set, settled⟩ := by
  refine ⟨hcounted, fun k g hg => ?_⟩
  rw [show (Traced.mk mgr set settled).mgr.factions = (t.mgr.put f').factions from hmgr,
    lookup_put] at hg
  split at hg
  · cases hg
    exact hproper
  · next hkey =>
    have hne : g.id ≠ f.id := fun h => hkey (hk.eq_of_id hg hf h)
    exact (hex.proper k g hg).mono (fun h => (Finset.mem_insert.mp (hset h)).resolve_left hne)
      fun h => (Finset.mem_insert.mp (hsettled h)).resolve_left hne

theorem Exact.skip (hex : Exact env t)
    (hset : ∀ k f, t.mgr.factions.lookup k = some f → f.id ∈ set → f.id ∈ t.set)
    (hsettled : ∀ k f, t.mgr.factions.lookup k = some f → f.id ∈ settled → f.id ∈ t.settled) :
    Exact env ⟨t.mgr, set, settled⟩ :=
  ⟨hex.counted, fun k f hf => (hex.proper k f hf).mono (hset k f hf) (hsettled k f hf)⟩

/-! ## Logins -/

theorem Known.of_factions {st st' : ReputationMgr} (hk : Known env st)
    (h : st'.factions = st.factions) : Known env st' :=
  ⟨h ▸ hk.key, h ▸ hk.entry⟩

variable {e : FactionEntry}

theorem proper_newFaction (hreg : env.Regular) (he : e ∈ env.store.entries)
    (hlisted : e.canHaveReputation = true) (hid : e.id ∉ settled) :
    Proper env ∅ settled (env.newFaction e) where
  bounded h := absurd h (Finset.notMem_empty _)
  inactive := hreg.visible e he hlisted
  atWar h := absurd h hid

theorem proper_load (hreg : env.Regular) (he : e ∈ env.store.entries)
    (hlisted : e.canHaveReputation = true) (row : ReputationRow) (settled : Finset ℕ) :
    Proper env ∅ settled ((env.newFaction e).load row
      (reputationToRank (env.getBaseReputation e + row.standing))) where
  bounded h := absurd h (Finset.notMem_empty _)
  inactive h := by
    rw [FactionState.has_load_inactive, Bool.or_eq_true, Bool.and_eq_true] at h
    obtain h | h := h
    · rw [FactionState.has_load_visible, Bool.or_eq_true]
      exact .inl (hreg.visible e he hlisted h)
    · exact h.2
  atWar _ hrank := by
    have halike := FactionState.alike_load (env.newFaction e) row
      (reputationToRank (env.getBaseReputation e + row.standing))
    rw [Env.rankOf, Env.reputationOf, env.baseOf_eq he halike.id.symm, halike.standing] at hrank
    rw [FactionState.isPeaceful_load, FactionState.has_load_atWar]
    cases (env.newFaction e).isPeaceful with
    | true => exact .inl rfl
    | false => exact .inr (.inl ⟨rfl, .inr hrank⟩)

theorem exact_initialized (hreg : env.Regular) :
    Exact env ⟨ReputationMgr.initialized env, ∅, ∅⟩ := by
  obtain ⟨hcounted, -, hstates⟩ := initialized_spec hreg.lists
  refine ⟨hcounted hreg, fun k f hf => ?_⟩
  obtain ⟨e, he, hlisted, -, rfl⟩ := (hstates k f).mp hf
  exact proper_newFaction hreg he hlisted (Finset.notMem_empty _)

theorem exact_loadFromDB (hreg : env.Regular) (rows : ReputationRows) :
    Exact env ⟨ReputationMgr.loadFromDB env rows, ∅, rows.keys.toFinset⟩ := by
  obtain ⟨hcounted, -, hstates⟩ := loadFromDB_spec hreg.lists rows
  refine ⟨hcounted hreg, fun k f hf => ?_⟩
  obtain ⟨e, he, hlisted, -, rfl⟩ := (hstates k f).mp hf
  rw [Env.loadedFaction]
  split
  next hnone =>
    refine proper_newFaction hreg he hlisted fun hmem => ?_
    exact AList.lookup_eq_none.mp hnone (List.mem_toFinset.mp hmem)
  next row _ => exact proper_load hreg he hlisted row _

/-! ## SetReputation -/

theorem clampReputation_mem (standing : ℤ) :
    reputationBottom ≤ ReputationMgr.clampReputation standing ∧
      ReputationMgr.clampReputation standing ≤ reputationCap := by
  simp only [ReputationMgr.clampReputation, reputationBottom, reputationCap]
  split_ifs <;> omega

section

variable (hreg : env.Regular) (hex : Exact env t) (hk : Known env t.mgr)

include hreg hex hk

theorem Exact.setOneFactionReputation (he : e ∈ env.store.entries) (standing : ℤ)
    (incremental : Bool) (set settled : Finset ℕ) (hset : set ⊆ insert e.id t.set)
    (hsettled : settled ⊆ insert e.id t.settled) :
    Exact env ⟨t.mgr.setOneFactionReputation env e standing incremental, set, settled⟩ ∧
      Known env (t.mgr.setOneFactionReputation env e standing incremental) := by
  rw [ReputationMgr.setOneFactionReputation]
  split
  next hfind =>
    -- An entry whose list id finds nothing has no state.
    have hnone : ∀ k f, t.mgr.factions.lookup k = some f → f.id ≠ e.id := by
      intro k f hf hid
      rw [hk.find_of_id he hf hid] at hfind
      cases hfind
    refine ⟨hex.skip (fun k f hf h => ?_) (fun k f hf h => ?_), hk⟩
    · exact (Finset.mem_insert.mp (hset h)).resolve_left (hnone k f hf)
    · exact (Finset.mem_insert.mp (hsettled h)).resolve_left (hnone k f hf)
  next f hfind =>
    obtain ⟨hid, hf⟩ := hk.of_find hreg.lists he hfind
    have hclamp := clampReputation_mem (if incremental then
      env.rate standing + f.standing + env.getBaseReputation e else standing)
    simp only
    generalize ReputationMgr.clampReputation (if incremental then
      env.rate standing + f.standing + env.getBaseReputation e else standing) = value at hclamp ⊢
    have hto := setTo_setStanding f (env.getBaseReputation e) value
    generalize ReputationMgr.setStanding f (env.getBaseReputation e) value = f' at hto ⊢
    have hf' : t.mgr.factions.lookup f'.reputationListID = some f := by
      rw [hto.tuned.reputationListID, hf]
    have hrank : env.rankOf f = reputationToRank (f.standing + env.getBaseReputation e) := by
      rw [Env.rankOf, Env.reputationOf, env.baseOf_eq he hid.symm, Int.add_comm]
    have hreputation : env.reputationOf f' = value := by
      rw [Env.reputationOf, env.baseOf_eq he (hto.tuned.id.trans hid).symm, hto.tuned.standing]
      exact add_sub_cancel _ _
    have hcounted := hex.counted.change hreg hk hf' hto.tuned.id hto.visible f.not_visible_of_becomesVisible
    rw [hrank, Env.rankOf, hreputation] at hcounted
    refine ⟨hex.write hk hf' rfl hcounted (hid ▸ hset) (hid ▸ hsettled) ⟨fun _ => ?_, ?_, ?_⟩,
      (hk.put hf' hto.tuned.id).of_factions rfl⟩
    · rw [hreputation]
      exact hclamp
    · intro h
      rw [hto.inactive] at h
      rw [hto.visible, (hex.proper _ f hf).inactive h, Bool.true_or]
    · intro _ h
      rw [Env.rankOf, hreputation] at h
      rw [hto.tuned.isPeaceful, hto.atWar]
      show f.isPeaceful = true ∨ _
      cases f.isPeaceful <;> simp [h]

/-! ## Flags -/

theorem Exact.setVisible (he : e ∈ env.store.entries) :
    Exact env ⟨t.mgr.setVisible e, t.set, t.settled⟩ ∧ Known env (t.mgr.setVisible e) := by
  rw [ReputationMgr.setVisible]
  split
  · exact ⟨hex, hk⟩
  · next f hfind =>
    obtain ⟨-, hf⟩ := hk.of_find hreg.lists he hfind
    have halike := f.tuned_setVisible.toAlike
    have hf' : t.mgr.factions.lookup f.setVisible.reputationListID = some f := by
      rw [halike.reputationListID, hf]
    have hold := hex.proper _ f hf
    have hcounted := hex.counted.changeFlags hreg hk hf' halike f.has_setVisible_eq
      f.not_visible_of_becomesVisible
    refine ⟨hex.write hk hf' rfl hcounted (Finset.subset_insert _ _) (Finset.subset_insert _ _)
      ⟨?_, ?_, ?_⟩, (hk.put hf' halike.id).of_factions rfl⟩
    · rw [halike.id, Env.reputationOf, Env.baseOf, halike.id, halike.standing]
      exact hold.bounded
    · intro h
      rw [f.has_setVisible_of_ne (by decide)] at h
      rw [f.has_setVisible_eq, hold.inactive h, Bool.true_or]
    · rw [halike.id, Env.rankOf_congr halike.id halike.standing, halike.isPeaceful,
        f.has_setVisible_of_ne (by decide)]
      exact hold.atWar

theorem Exact.setTemplateVisible (faction : ℕ) :
    Exact env ⟨t.mgr.setTemplateVisible env faction, t.set, t.settled⟩ ∧
      Known env (t.mgr.setTemplateVisible env faction) := by
  rw [ReputationMgr.setTemplateVisible]
  split
  · exact ⟨hex, hk⟩
  · split
    · exact ⟨hex, hk⟩
    · next e hlookup =>
      split
      · exact ⟨hex, hk⟩
      · exact hex.setVisible hreg hk (lookupEntry_eq_some.mp hlookup).1

theorem Exact.writeFlags
    {f' : FactionState} (hf : t.mgr.factions.lookup f.reputationListID = some f)
    (halike : f.Alike f') (hvisible : has f'.flags .visible = has f.flags .visible)
    (hinactive : has f'.flags .inactive = true → has f.flags .visible = true)
    (hwar : f.id ∈ t.settled → env.rankOf f ≤ .hostile →
      f.isPeaceful = true ∨ has f'.flags .atWar = true) :
    Exact env ⟨t.mgr.put f', t.set, t.settled⟩ ∧ Known env (t.mgr.put f') := by
  have hf' : t.mgr.factions.lookup f'.reputationListID = some f := by
    rw [halike.reputationListID, hf]
  have hcounted : Counted env ((t.mgr.put f').countVisible false) :=
    hex.counted.changeFlags hreg hk hf' halike (by rw [hvisible, Bool.or_false])
      fun h => (nomatch h)
  refine ⟨hex.write hk hf' rfl hcounted (Finset.subset_insert _ _) (Finset.subset_insert _ _)
    ⟨?_, ?_, ?_⟩, hk.put hf' halike.id⟩
  · rw [halike.id, Env.reputationOf, Env.baseOf, halike.id, halike.standing]
    exact (hex.proper _ f hf).bounded
  · rw [hvisible]
    exact hinactive
  · rw [halike.id, Env.rankOf_congr halike.id halike.standing, halike.isPeaceful]
    exact hwar

theorem Exact.setAtWar {repListID : ℕ} {on : Bool}
    (hcareful : Careful env t (.setAtWar repListID on)) :
    Exact env ⟨t.mgr.setAtWar repListID on, t.set, t.settled⟩ ∧
      Known env (t.mgr.setAtWar repListID on) := by
  rw [ReputationMgr.setAtWar]
  split
  · exact ⟨hex, hk⟩
  · next f hf =>
    have hf' : t.mgr.factions.lookup f.reputationListID = some f := hk.key _ f hf ▸ hf
    have hold := hex.proper _ f hf
    split
    · exact ⟨hex, hk⟩
    · next hforced =>
      refine hex.writeFlags hreg hk hf' (f.tuned_setAtWar on).toAlike
        (f.has_setAtWar_of_ne on (by decide)) (fun h => ?_) fun hsettled hrank => ?_
      · rw [f.has_setAtWar_of_ne on (by decide)] at h
        exact hold.inactive h
      · cases on with
        | false => exact .inl (hcareful f hf (by simpa using hforced) hsettled hrank)
        | true =>
          rw [f.has_setAtWar_atWar]
          cases f.isPeaceful <;> simp

theorem Exact.setInactive (repListID : ℕ) (on : Bool) :
    Exact env ⟨t.mgr.setInactive repListID on, t.set, t.settled⟩ ∧
      Known env (t.mgr.setInactive repListID on) := by
  rw [ReputationMgr.setInactive]
  split
  · exact ⟨hex, hk⟩
  · next f hf =>
    have hold := hex.proper _ f hf
    refine hex.writeFlags hreg hk (hk.key _ f hf ▸ hf) (f.tuned_setInactive on).toAlike
      (f.has_setInactive_of_ne on (by decide)) (fun h => ?_) fun hsettled hrank => ?_
    · rw [f.has_setInactive_inactive] at h
      split at h
      · exact hold.inactive h
      · next hguard =>
        rw [h, Bool.true_and, Bool.not_eq_true, Bool.or_eq_false_iff] at hguard
        simpa using hguard.2
    · rw [f.has_setInactive_of_ne on (by decide)]
      exact hold.atWar hsettled hrank

end

/-! ## DropFactionReputation -/

/-- The state that `DropFactionReputation` writes. -/
def dropped (f : FactionState) : FactionState := { f with needDelete := true, standing := 0 }

theorem rankOf_dropped (f : FactionState) :
    env.rankOf (dropped f) = reputationToRank (env.baseOf f) := by
  rw [Env.rankOf, Env.reputationOf, dropped, Env.baseOf, Env.baseOf]
  simp

/-- A drop counts right just if each counted rank of the faction stays. -/
theorem counted_drop_iff (hc : Counted env t.mgr)
    (hf : t.mgr.factions.lookup f.reputationListID = some f) :
    Counted env (t.mgr.put (dropped f)) ↔
      ∀ r ∈ [ReputationRank.honored, .revered, .exalted],
        r ≤ env.rankOf f ↔ r ≤ reputationToRank (env.baseOf f) := by
  have hput : ∀ p : FactionState → Bool,
      countValues p (t.mgr.put (dropped f)).factions + (if p f then 1 else 0) =
        countValues p t.mgr.factions + if p (dropped f) then 1 else 0 :=
    fun p => countValues_insert p hf (dropped f)
  have hranked : ∀ r : ReputationRank,
      countValues (fun f => decide (r ≤ env.rankOf f)) (t.mgr.put (dropped f)).factions =
          countValues (fun f => decide (r ≤ env.rankOf f)) t.mgr.factions ↔
        (r ≤ env.rankOf f ↔ r ≤ reputationToRank (env.baseOf f)) := by
    intro r
    have hcount := hput fun f => decide (r ≤ env.rankOf f)
    rw [rankOf_dropped] at hcount
    by_cases hold : r ≤ env.rankOf f <;> by_cases hnew : r ≤ reputationToRank (env.baseOf f) <;>
      simp only [hold, hnew, decide_true, decide_false, if_true, Bool.false_eq_true, if_false,
        iff_true, iff_false, not_true_eq_false] at hcount ⊢ <;> omega
  have hvisible := hput fun f => has f.flags .visible
  constructor
  · intro hc' r hr
    rw [← hranked]
    simp only [List.mem_cons, List.not_mem_nil, or_false] at hr
    obtain rfl | rfl | rfl := hr
    · rw [← hc'.honored, ← hc.honored]
      rfl
    · rw [← hc'.revered, ← hc.revered]
      rfl
    · rw [← hc'.exalted, ← hc.exalted]
      rfl
  · intro h
    refine ⟨?_, ?_, ?_, ?_⟩
    · rw [show (t.mgr.put (dropped f)).visibleFactionCount = t.mgr.visibleFactionCount from rfl,
        hc.visible]
      exact (Nat.add_right_cancel hvisible).symm
    · rw [(hranked _).mpr (h .honored (by simp)), ← hc.honored]
      rfl
    · rw [(hranked _).mpr (h .revered (by simp)), ← hc.revered]
      rfl
    · rw [(hranked _).mpr (h .exalted (by simp)), ← hc.exalted]
      rfl

/-- The dropped state is proper just if its base reputation is in bounds and not hostile without
war. -/
theorem proper_dropped_iff (hold : Proper env set settled f) :
    Proper env set settled (dropped f) ↔
      (f.id ∈ set → reputationBottom ≤ env.baseOf f ∧ env.baseOf f ≤ reputationCap) ∧
      (f.id ∈ settled → reputationToRank (env.baseOf f) ≤ .hostile →
        f.isPeaceful = true ∨ has f.flags .atWar = true) := by
  have hreputation : env.reputationOf (dropped f) = env.baseOf f := Int.add_zero _
  constructor
  · intro h
    refine ⟨fun hset => ?_, fun hsettled hrank => ?_⟩
    · have hbounded := h.bounded hset
      rwa [hreputation] at hbounded
    · exact h.atWar hsettled (by rwa [rankOf_dropped])
  · rintro ⟨hbounded, hwar⟩
    refine ⟨fun hset => ?_, hold.inactive, fun hsettled hrank => ?_⟩
    · rw [hreputation]
      exact hbounded hset
    · rw [rankOf_dropped] at hrank
      exact hwar hsettled hrank

theorem Exact.dropFactionReputation (hex : Exact env t) (hk : Known env t.mgr) {factionId : ℕ}
    (hcareful : Careful env t (.dropFactionReputation factionId)) :
    Exact env ⟨t.mgr.dropFactionReputation factionId, t.set, t.settled⟩ ∧
      Known env (t.mgr.dropFactionReputation factionId) := by
  rw [ReputationMgr.dropFactionReputation]
  split
  · exact ⟨hex, hk⟩
  · next f hf =>
    have hf' : t.mgr.factions.lookup f.reputationListID = some f := hk.key _ f hf ▸ hf
    obtain ⟨hranks, hproper⟩ := hcareful f hf
    have hkey : t.mgr.factions.lookup (dropped f).reputationListID = some f := hf'
    have hcounted := (counted_drop_iff hex.counted hf').mpr hranks
    have hdropped := (proper_dropped_iff (hex.proper _ f hf)).mpr hproper
    exact ⟨hex.write hk hkey rfl hcounted (Finset.subset_insert _ _) (Finset.subset_insert _ _)
      hdropped, hk.put hkey rfl⟩

/-! ## Runs -/

/-- What holds in every state of a careful run. -/
structure Kept (env : Env) (t : Traced) : Prop where
  exact : Exact env t
  known : Known env t.mgr

theorem known_empty : Known env {} :=
  ⟨fun _ _ h => (nomatch h), fun _ _ h => (nomatch h)⟩

/-- A careful call keeps the bookkeeping exact. -/
theorem Kept.traced (hreg : env.Regular) (hkept : Kept env t) {op : Op}
    (hcareful : Careful env t op) : Kept env (traced env t op) := by
  obtain ⟨hex, hk⟩ := hkept
  have keep : ∀ {mgr : ReputationMgr}, Exact env ⟨mgr, t.set, t.settled⟩ ∧ Known env mgr →
      Kept env ⟨mgr, t.set ∪ ∅, t.settled ∪ ∅⟩ := by
    rintro mgr ⟨hex, hk⟩
    rw [Finset.union_empty, Finset.union_empty]
    exact ⟨hex, hk⟩
  cases op with
  | initialized => exact ⟨exact_initialized hreg, (initialized_spec hreg.lists).2.1⟩
  | loadFromDB rows => exact ⟨exact_loadFromDB hreg rows, (loadFromDB_spec hreg.lists rows).2.1⟩
  | setReputation factionId standing incremental spillOverOnly =>
    cases hlookup : env.store.lookupEntry factionId with
    | none =>
      cases spillOverOnly <;>
      · simp only [Reputation.traced, step, touched, hlookup, Option.isSome_none]
        exact keep ⟨hex, hk⟩
    | some e =>
      obtain ⟨he, rfl⟩ := lookupEntry_eq_some.mp hlookup
      cases spillOverOnly with
      | true =>
        simp only [Reputation.traced, step, touched, hlookup]
        exact keep ⟨hex, hk⟩
      | false =>
        simp only [Reputation.traced, step, touched, hlookup, Option.isSome_some, if_true]
        obtain ⟨hex', hk'⟩ := hex.setOneFactionReputation hreg hk he standing incremental
          (t.set ∪ {e.id}) (t.settled ∪ {e.id})
          (by rw [Finset.union_comm]; rfl) (by rw [Finset.union_comm]; rfl)
        exact ⟨hex', hk'⟩
  | swapFactionReputation fromId toId =>
    cases hfrom : env.store.lookupEntry fromId with
    | none =>
      simp only [Reputation.traced, step, touched, ReputationMgr.swapFactionReputation, hfrom]
      exact keep ⟨hex, hk⟩
    | some fromEntry =>
      cases hto : env.store.lookupEntry toId with
      | none =>
        simp only [Reputation.traced, step, touched, ReputationMgr.swapFactionReputation, hfrom, hto]
        exact keep ⟨hex, hk⟩
      | some toEntry =>
        simp only [Reputation.traced, step, touched, ReputationMgr.swapFactionReputation, hfrom, hto,
          Option.isSome_some, Bool.and_self, if_true]
        obtain ⟨hmem, rfl⟩ := lookupEntry_eq_some.mp hfrom
        obtain ⟨hmem', rfl⟩ := lookupEntry_eq_some.mp hto
        obtain ⟨hex', hk'⟩ := hex.setOneFactionReputation hreg hk hmem
          (t.mgr.getReputation env toEntry) false (insert fromEntry.id t.set)
          (insert fromEntry.id t.settled) (Finset.Subset.refl _) (Finset.Subset.refl _)
        obtain ⟨hex'', hk''⟩ := hex'.setOneFactionReputation hreg hk' hmem'
          (t.mgr.getReputation env fromEntry) false (t.set ∪ {fromEntry.id, toEntry.id})
          (t.settled ∪ {fromEntry.id, toEntry.id}) (by intro i; simp; tauto)
          (by intro i; simp; tauto)
        exact ⟨hex'', hk''⟩
  | dropFactionReputation factionId => exact keep (hex.dropFactionReputation hk hcareful)
  | setVisible factionId =>
    cases hlookup : env.store.lookupEntry factionId with
    | none =>
      simp only [Reputation.traced, step, touched, hlookup]
      exact keep ⟨hex, hk⟩
    | some e =>
      simp only [Reputation.traced, step, touched, hlookup]
      exact keep (hex.setVisible hreg hk (lookupEntry_eq_some.mp hlookup).1)
  | setTemplateVisible faction => exact keep (hex.setTemplateVisible hreg hk faction)
  | setAtWar repListID on => exact keep (hex.setAtWar hreg hk hcareful)
  | setInactive repListID on => exact keep (hex.setInactive hreg hk repListID on)

/-- Only a careful call leaves the bookkeeping exact. -/
theorem careful_of_exact (hkept : Kept env t) {op : Op} (hex' : Exact env (traced env t op)) :
    Careful env t op := by
  obtain ⟨hex, hk⟩ := hkept
  cases op with
  | dropFactionReputation factionId =>
    intro f hf
    have hf' : t.mgr.factions.lookup f.reputationListID = some f := hk.key _ f hf ▸ hf
    have hmgr : (traced env t (.dropFactionReputation factionId)).mgr = t.mgr.put (dropped f) := by
      simp [traced, step, ReputationMgr.dropFactionReputation, hf, dropped]
    have hsets : (traced env t (.dropFactionReputation factionId)).set = t.set ∧
        (traced env t (.dropFactionReputation factionId)).settled = t.settled :=
      ⟨Finset.union_empty _, Finset.union_empty _⟩
    have hproper := hex'.proper f.reputationListID (dropped f) (by
      rw [hmgr, lookup_put]
      exact if_pos rfl)
    rw [hsets.1, hsets.2] at hproper
    exact ⟨(counted_drop_iff hex.counted hf').mp (hmgr ▸ hex'.counted),
      (proper_dropped_iff (hex.proper _ f hf)).mp hproper⟩
  | setAtWar repListID on =>
    cases on with
    | true => exact trivial
    | false =>
      intro f hf hforced hsettled hrank
      have hmgr : (traced env t (.setAtWar repListID false)).mgr = t.mgr.put (f.setAtWar false) := by
        simp [traced, step, ReputationMgr.setAtWar, hf, hforced]
      have hsettled' : (traced env t (.setAtWar repListID false)).settled = t.settled :=
        Finset.union_empty _
      have halike := f.tuned_setAtWar false
      have hproper := hex'.proper f.reputationListID (f.setAtWar false) (by
        rw [hmgr, lookup_put, halike.reputationListID]
        exact if_pos rfl)
      have hwar := hproper.atWar (by rw [hsettled', halike.id]; exact hsettled)
        (by rw [Env.rankOf_congr halike.id halike.standing]; exact hrank)
      rw [halike.isPeaceful, f.has_setAtWar_atWar] at hwar
      simpa using hwar
  | _ => exact trivial

/-- **Reputation bookkeeping is exact all along a run just if each of its calls is careful.** -/
theorem exact_iff_careful (hreg : env.Regular) (ops : List Op) :
    (∀ l, l <+: ops → Exact env (l.foldl (traced env) {})) ↔
      AllAlong (traced env) (Careful env) {} ops := by
  have keeps : ∀ t op, Kept env t → Careful env t op → Kept env (traced env t op) :=
    fun _ _ hkept hcareful => hkept.traced hreg hcareful
  exact always_iff_allAlong keeps (fun _ hkept => hkept.exact)
    (fun _ _ hkept hex => careful_of_exact hkept hex) ⟨exact_empty, known_empty⟩ ops

/-! ## A dropped faction -/

/-- A faction that is friendly to each race by its base. -/
def stormwind : FactionEntry := ⟨72, 19, [⟨1, 0, 3000, 0x01⟩]⟩

/-- A table of that one faction, and a human player. -/
def human : Env where
  store := ⟨[stormwind], by simp, by simp [stormwind]⟩
  raceMask := 1
  classMask := 1
  rate := fun standing => standing

theorem regular_human : human.Regular where
  lists e he e' he' _ _ := (List.mem_singleton.mp he).trans (List.mem_singleton.mp he').symm
  few := by decide
  visible e he _ _ := by
    cases List.mem_singleton.mp he
    rfl

theorem exact_iff_careful_human : human.Regular ∧ ∀ l,
    l <+: [.loadFromDB ∅, .setReputation 72 42000 false false, .setAtWar 19 false,
      .dropFactionReputation 20] →
    Exact human (l.foldl (traced human) {}) := by
  refine ⟨regular_human, ?_⟩
  exact (exact_iff_careful regular_human _).mpr ⟨trivial, trivial,
    fun f hf _ _ hrank => by
      cases hf
      exact absurd hrank (by decide),
    fun f hf => (nomatch hf), trivial⟩

/-- The faction is exalted, and dropped: it still counts as exalted. -/
theorem drop_miscounts : ¬ Exact human
    ([.loadFromDB ∅, .setReputation 72 42000 false false, .dropFactionReputation 19].foldl
      (traced human) {}) :=
  fun h => absurd h.counted.exalted (by decide)

end Sunstrider.Reputation
