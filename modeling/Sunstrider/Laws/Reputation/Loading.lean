import Mathlib.Tactic.IntervalCases
import Sunstrider.Laws.Reputation.States

/-!
# What a login leaves, and what a row can say

The states and the counters after `Initialize` and after `LoadFromDB`: each listed faction has the state
of its entry, or what its row makes of that, and the counters are the numbers they cache. Whether the row
gives back what was saved is a question to the flags (`Expressible`).
-/

namespace Sunstrider.Reputation

open Sunstrider.Lib

variable {env : Env} {st : ReputationMgr}

/-- A listed entry, and the state that it has under its list id. -/
def Listed (env : Env) (state : FactionEntry → FactionState) (k : ℕ) (f : FactionState) : Prop :=
  ∃ e ∈ env.store.entries, e.canHaveReputation = true ∧ e.reputationListID = k ∧ f = state e

/-! ## Initialize -/

variable {e : FactionEntry}

theorem rankOf_newFaction (he : e ∈ env.store.entries) :
    env.rankOf (env.newFaction e) = env.getBaseRank e := by
  rw [Env.rankOf, Env.reputationOf, env.baseOf_eq he rfl, Env.getBaseRank, Env.newFaction, add_zero]

theorem toNat_listID (env : Env) (h : e.canHaveReputation = true) :
    ((env.newFaction e).reputationListID : ℤ) = e.reputationListID := by
  have hpos : 0 ≤ e.reputationListID := by simpa [FactionEntry.canHaveReputation] using h
  exact Int.toNat_of_nonneg hpos

theorem counted_empty : Counted env {} := ⟨rfl, rfl, rfl, rfl⟩

theorem Counted.add (hreg : env.Regular) (hc : Counted env st)
    (hk : Known env (st.addFaction env e)) (he : e ∈ env.store.entries)
    (hlisted : e.canHaveReputation = true)
    (hnew : st.factions.lookup (env.newFaction e).reputationListID = none) :
    Counted env (st.addFaction env e) := by
  have hadd : ∀ p : FactionState → Bool,
      countValues p (st.factions.insert (env.newFaction e).reputationListID (env.newFaction e)) =
        countValues p st.factions + if p (env.newFaction e) then 1 else 0 := fun p =>
    countValues_insert_new p hnew (env.newFaction e)
  have hlt : ∀ p : FactionState → Bool, countValues p st.factions + 1 < 2 ^ 8 := by
    intro p
    have hfew := hk.few hreg
    rw [ReputationMgr.addFaction, if_pos hlisted] at hfew
    have hlength := hadd fun _ => true
    simp only [countValues, List.countP_true, if_true] at hlength
    have hle := countValues_le p st.factions
    have hgrown := hlength.symm.trans_lt hfew
    omega
  have hranked : ∀ (rank : ReputationRank) (n : ℕ), ¬ rank ≤ .hostile →
      n = countValues (fun f => decide (rank ≤ env.rankOf f)) st.factions →
      updateCounter rank .hostile (env.getBaseRank e) n =
        countValues (fun f => decide (rank ≤ env.rankOf f))
          (st.factions.insert (env.newFaction e).reputationListID (env.newFaction e)) := by
    rintro rank n hrank rfl
    have hsmall := hlt fun f => decide (rank ≤ env.rankOf f)
    rw [hadd, rankOf_newFaction he]
    refine updateCounter_eq (by omega) ?_ ?_
    · split <;> omega
    · simp [if_neg hrank, add_zero, decide_eq_true_eq]
  rw [ReputationMgr.addFaction, if_pos hlisted]
  refine ⟨?_, hranked .honored _ (by decide) hc.honored, hranked .revered _ (by decide) hc.revered,
    hranked .exalted _ (by decide) hc.exalted⟩
  have hsmall := hlt fun f => has f.flags .visible
  show (if has (env.newFaction e).flags .visible then incU8 st.visibleFactionCount
    else st.visibleFactionCount) = countValues (fun f => has f.flags .visible)
      (st.factions.insert (env.newFaction e).reputationListID (env.newFaction e))
  rw [hadd, hc.visible, incU8]
  split <;> omega

/-- What the loop of `Initialize` has done when the entries `rest` are still to come. -/
structure Initializing (env : Env) (rest : List FactionEntry) (st : ReputationMgr) : Prop where
  counted : env.Regular → Counted env st
  done : ∃ done, env.store.entries = done ++ rest ∧ ∀ k f, st.factions.lookup k = some f ↔
    ∃ e ∈ done, e.canHaveReputation = true ∧ e.reputationListID = k ∧ f = env.newFaction e

theorem Initializing.known {rest : List FactionEntry} (h : Initializing env rest st) :
    Known env st := by
  obtain ⟨-, done, hentries, hstates⟩ := h
  refine ⟨fun k f hf => ?_, fun k f hf => ?_⟩
  · obtain ⟨e, -, hlisted, hkey, rfl⟩ := (hstates k f).mp hf
    have hk := toNat_listID env hlisted
    omega
  · obtain ⟨e, he, hlisted, hkey, rfl⟩ := (hstates k f).mp hf
    exact ⟨e, by rw [hentries]; exact List.mem_append_left _ he, rfl, hkey⟩

theorem Initializing.next (hlists : env.ListsOnce) {rest : List FactionEntry}
    (h : Initializing env (e :: rest) st) : Initializing env rest (st.addFaction env e) := by
  obtain ⟨hcounted, done, hentries, hstates⟩ := h
  have hsplit : env.store.entries = (done ++ [e]) ++ rest := by
    rw [hentries, List.append_assoc, List.singleton_append]
  have he : e ∈ env.store.entries := by
    rw [hentries]
    simp
  by_cases hlisted : e.canHaveReputation = true
  · have hnodup : (done ++ e :: rest).Nodup := by
      rw [← hentries]
      exact env.store.sorted.imp fun hlt heq => by rw [heq] at hlt; omega
    have hnew : st.factions.lookup (env.newFaction e).reputationListID = none := by
      cases hlookup : st.factions.lookup (env.newFaction e).reputationListID with
      | none => rfl
      | some f =>
        obtain ⟨e', he', hlisted', hkey, -⟩ := (hstates _ f).mp hlookup
        have hmem' : e' ∈ env.store.entries := by
          rw [hentries]
          exact List.mem_append_left _ he'
        have heq : e' = e := hlists e' hmem' e he hlisted' (by rw [hkey, toNat_listID env hlisted])
        exact absurd (heq ▸ he') (List.disjoint_of_nodup_append hnodup · List.mem_cons_self)
    have hgrown : (st.addFaction env e).factions =
        st.factions.insert (env.newFaction e).reputationListID (env.newFaction e) := by
      rw [ReputationMgr.addFaction, if_pos hlisted]
      rfl
    have hnext : ∀ k f, (st.addFaction env e).factions.lookup k = some f ↔
        ∃ e' ∈ done ++ [e], e'.canHaveReputation = true ∧ e'.reputationListID = k ∧
          f = env.newFaction e' := by
      intro k f
      rw [hgrown, lookup_insert_ite]
      constructor
      · intro hlookup
        split at hlookup
        · next hkey =>
          cases hlookup
          exact ⟨e, by simp, hlisted, by rw [hkey, toNat_listID env hlisted], rfl⟩
        · obtain ⟨e', he', hrest⟩ := (hstates k f).mp hlookup
          exact ⟨e', List.mem_append_left _ he', hrest⟩
      · rintro ⟨e', he', hlisted', hkey, rfl⟩
        obtain he' | he' := List.mem_append.mp he'
        · have hold := (hstates k _).mpr ⟨e', he', hlisted', hkey, rfl⟩
          rw [if_neg, hold]
          rintro rfl
          rw [hnew] at hold
          cases hold
        · cases List.mem_singleton.mp he'
          have hk := hkey.symm.trans (toNat_listID env hlisted').symm
          rw [if_pos (by omega)]
    have hknown : Known env (st.addFaction env e) := by
      refine ⟨fun k f hf => ?_, fun k f hf => ?_⟩
      · obtain ⟨e', -, hlisted', hkey, rfl⟩ := (hnext k f).mp hf
        have hk := toNat_listID env hlisted'
        omega
      · obtain ⟨e', he', -, hkey, rfl⟩ := (hnext k f).mp hf
        exact ⟨e', by rw [hsplit]; exact List.mem_append_left _ he', rfl, hkey⟩
    exact ⟨fun hreg => (hcounted hreg).add hreg hknown he hlisted hnew, done ++ [e], hsplit, hnext⟩
  · have hsame : st.addFaction env e = st := by
      rw [ReputationMgr.addFaction, if_neg hlisted]
    rw [hsame]
    refine ⟨hcounted, done ++ [e], hsplit, fun k f => ?_⟩
    rw [hstates]
    constructor
    · rintro ⟨e', he', hrest⟩
      exact ⟨e', List.mem_append_left _ he', hrest⟩
    · rintro ⟨e', he', hlisted', hrest⟩
      obtain he' | he' := List.mem_append.mp he'
      · exact ⟨e', he', hlisted', hrest⟩
      · cases List.mem_singleton.mp he'
        exact absurd hlisted' hlisted

/-- **After `Initialize`** each listed faction has the state of its entry. -/
theorem initialized_spec (hlists : env.ListsOnce) :
    (env.Regular → Counted env (ReputationMgr.initialized env)) ∧
      Known env (ReputationMgr.initialized env) ∧
      ∀ k f, (ReputationMgr.initialized env).factions.lookup k = some f ↔
        Listed env env.newFaction k f := by
  have hinit : Initializing env env.store.entries {} :=
    ⟨fun _ => counted_empty, [], rfl, fun k f => by simp⟩
  have hend : Initializing env [] (ReputationMgr.initialized env) :=
    foldl_loop (Initializing env) env.store.entries hinit fun _ _ _ h => h.next hlists
  have hknown := hend.known
  obtain ⟨hcounted, done, hentries, hstates⟩ := hend
  rw [List.append_nil] at hentries
  rw [← hentries] at hstates
  exact ⟨hcounted, hknown, hstates⟩

/-! ## LoadFromDB -/

/-- The state of an entry's faction after a login with these rows. -/
def Env.loadedFaction (env : Env) (rows : ReputationRows) (e : FactionEntry) : FactionState :=
  match rows.lookup e.id with
  | none => env.newFaction e
  | some row =>
    (env.newFaction e).load row (reputationToRank (env.getBaseReputation e + row.standing))

theorem loadedFaction_id (rows : ReputationRows) (e : FactionEntry) :
    (env.loadedFaction rows e).id = e.id := by
  rw [Env.loadedFaction]
  split
  · rfl
  · next row _ => exact (FactionState.alike_load _ row _).id

theorem loadedFaction_reputationListID (env : Env) (rows : ReputationRows) (e : FactionEntry) :
    (env.loadedFaction rows e).reputationListID = (env.newFaction e).reputationListID := by
  rw [Env.loadedFaction]
  split
  · rfl
  · next row _ => exact (FactionState.alike_load _ row _).reputationListID

/-- The state of an entry's faction when the rows `rest` are still to come. -/
def Env.pendingFaction (env : Env) (rows : ReputationRows)
    (rest : List (Sigma fun _ : ℕ => ReputationRow)) (e : FactionEntry) : FactionState :=
  if e.id ∈ rest.keys then env.newFaction e else env.loadedFaction rows e

theorem pendingFaction_id (rows : ReputationRows) (rest : List (Sigma fun _ : ℕ => ReputationRow))
    (e : FactionEntry) : (env.pendingFaction rows rest e).id = e.id := by
  rw [Env.pendingFaction]
  split
  · rfl
  · exact loadedFaction_id rows e

/-- What the loop of `LoadFromDB` has done when the rows `rest` are still to come. -/
structure Loading (env : Env) (rows : ReputationRows) (rest : List (Sigma fun _ : ℕ => ReputationRow))
    (st : ReputationMgr) : Prop where
  counted : env.Regular → Counted env st
  known : Known env st
  left : ∃ done, rows.entries = done ++ rest
  states : ∀ k f, st.factions.lookup k = some f ↔
    Listed env (env.pendingFaction rows rest) k f

theorem Loading.next (hlists : env.ListsOnce) {rows : ReputationRows}
    {row : Sigma fun _ : ℕ => ReputationRow} {rest : List (Sigma fun _ : ℕ => ReputationRow)}
    (h : Loading env rows (row :: rest) st) : Loading env rows rest (st.loadRow env row) := by
  obtain ⟨id, row⟩ := row
  obtain ⟨hcounted, hknown, ⟨done, hdone⟩, hstates⟩ := h
  have hsplit : rows.entries = (done ++ [⟨id, row⟩]) ++ rest := by
    rw [hdone, List.append_assoc, List.singleton_append]
  have hrow : rows.lookup id = some row := AList.mem_lookup_iff.mpr (by rw [hdone]; simp)
  have honce : id ∉ rest.keys := by
    have hnodup := rows.nodupKeys
    rw [List.NodupKeys, hdone, List.keys, List.map_append, List.map_cons] at hnodup
    exact (List.nodup_cons.mp hnodup.of_append_right).1
  -- Another faction's state is as it was.
  have hother : ∀ e : FactionEntry, e.id ≠ id →
      env.pendingFaction rows (⟨id, row⟩ :: rest) e = env.pendingFaction rows rest e := by
    intro e hne
    simp [Env.pendingFaction, hne]
  have hsame : (∀ e ∈ env.store.entries, e.canHaveReputation = true → e.id ≠ id) →
      Loading env rows rest st := by
    intro hnone
    refine ⟨hcounted, hknown, ⟨_, hsplit⟩, fun k f => ?_⟩
    rw [hstates]
    constructor
    · rintro ⟨e, he, hlisted, hkey, rfl⟩
      exact ⟨e, he, hlisted, hkey, hother e (hnone e he hlisted)⟩
    · rintro ⟨e, he, hlisted, hkey, rfl⟩
      exact ⟨e, he, hlisted, hkey, (hother e (hnone e he hlisted)).symm⟩
  rw [ReputationMgr.loadRow]
  split
  next hlookup =>
    refine hsame fun e he _ hid => ?_
    rw [lookupEntry_eq_some.mpr ⟨he, hid⟩] at hlookup
    cases hlookup
  next e hlookup =>
    obtain ⟨he, rfl⟩ := lookupEntry_eq_some.mp hlookup
    split
    next hfind =>
      refine hsame fun e' he' hlisted hid => ?_
      have heq := (lookupEntry_eq_some.mpr ⟨he', hid⟩).symm.trans hlookup
      cases heq
      have hstate := (hstates e.reputationListID.toNat _).mpr
        ⟨e, he, hlisted, (Int.toNat_of_nonneg (by
          simpa [FactionEntry.canHaveReputation] using hlisted)).symm, rfl⟩
      rw [find_eq_some.mpr ⟨by simpa [FactionEntry.canHaveReputation] using hlisted, hstate⟩] at hfind
      cases hfind
    next f hfind =>
      obtain ⟨hid, hf⟩ := hknown.of_find hlists he hfind
      -- The entry's state has not been loaded before.
      have hnew : f = env.newFaction e ∧ e.canHaveReputation = true := by
        obtain ⟨e', he', hlisted, -, hstate⟩ := (hstates _ f).mp hf
        have hid' : e'.id = e.id := by rw [← hid, hstate, pendingFaction_id]
        cases (lookupEntry_eq_some.mpr ⟨he', hid'⟩).symm.trans hlookup
        rw [Env.pendingFaction, if_pos (by simp)] at hstate
        exact ⟨hstate, hlisted⟩
      obtain ⟨rfl, hlisted⟩ := hnew
      have hloaded : env.loadedFaction rows e = (env.newFaction e).load row
          (reputationToRank (env.getBaseReputation e + row.standing)) := by
        rw [Env.loadedFaction, hrow]
      have hkey := loadedFaction_reputationListID env rows e
      have hrank : env.rankOf (env.loadedFaction rows e) =
          reputationToRank (env.getBaseReputation e + row.standing) := by
        rw [Env.rankOf, Env.reputationOf, env.baseOf_eq he (loadedFaction_id rows e).symm, hloaded,
          (FactionState.alike_load _ row _).standing]
      have hf' : st.factions.lookup (env.loadedFaction rows e).reputationListID =
          some (env.newFaction e) := by rw [hkey, hf]
      have hvisible : has (env.loadedFaction rows e).flags .visible =
          (has (env.newFaction e).flags .visible ||
            (has row.flags .visible && (env.newFaction e).becomesVisible)) := by
        rw [hloaded, FactionState.has_load_visible]
      have hcount := fun hreg : env.Regular =>
        (hcounted hreg).change hreg hknown hf' (loadedFaction_id rows e) hvisible fun h =>
          (env.newFaction e).not_visible_of_becomesVisible (Bool.and_eq_true_iff.mp h).2
      have hput := hknown.put hf' (loadedFaction_id rows e)
      have hlast : env.pendingFaction rows rest e = (env.newFaction e).load row
          (reputationToRank (env.getBaseReputation e + row.standing)) := by
        rw [Env.pendingFaction, if_neg honce, hloaded]
      rw [hrank, rankOf_newFaction he, hloaded] at hcount
      rw [hloaded] at hput hkey
      refine ⟨hcount, ⟨hput.key, hput.entry⟩, ⟨_, hsplit⟩, fun k g => ?_⟩
      show (st.put _).factions.lookup k = some g ↔ _
      rw [lookup_put, hkey]
      constructor
      · intro hlookup'
        split at hlookup'
        next hk =>
          cases hlookup'
          exact ⟨e, he, hlisted, by rw [hk, toNat_listID env hlisted], hlast.symm⟩
        next hk =>
          obtain ⟨e', he', hlisted', hkey', rfl⟩ := (hstates k g).mp hlookup'
          refine ⟨e', he', hlisted', hkey', hother e' fun hsame => hk ?_⟩
          cases (lookupEntry_eq_some.mpr ⟨he', hsame⟩).symm.trans hlookup
          have hcast := hkey'.symm.trans (toNat_listID env hlisted').symm
          omega
      · rintro ⟨e', he', hlisted', hkey', rfl⟩
        by_cases hsame : e'.id = e.id
        · cases (lookupEntry_eq_some.mpr ⟨he', hsame⟩).symm.trans hlookup
          have hcast := hkey'.symm.trans (toNat_listID env hlisted').symm
          rw [if_pos (by omega), hlast]
        · rw [if_neg, ← hother e' hsame]
          · exact (hstates k _).mpr ⟨e', he', hlisted', hkey', rfl⟩
          · rintro rfl
            rw [toNat_listID env hlisted] at hkey'
            exact hsame (congrArg FactionEntry.id (hlists e' he' e he hlisted' hkey'))

/-- **After `LoadFromDB`** each listed faction has the state that its row makes. -/
theorem loadFromDB_spec (hlists : env.ListsOnce) (rows : ReputationRows) :
    (env.Regular → Counted env (ReputationMgr.loadFromDB env rows)) ∧
      Known env (ReputationMgr.loadFromDB env rows) ∧
      ∀ k f, (ReputationMgr.loadFromDB env rows).factions.lookup k = some f ↔
        Listed env (env.loadedFaction rows) k f := by
  obtain ⟨hcounted, hknown, hstates⟩ := initialized_spec hlists
  have hinit : Loading env rows rows.entries (ReputationMgr.initialized env) := by
    refine ⟨hcounted, hknown, ⟨[], rfl⟩, fun k f => ?_⟩
    have hsame : env.pendingFaction rows rows.entries = env.newFaction := by
      ext1 e
      rw [Env.pendingFaction]
      split
      · rfl
      · next hnot =>
        rw [Env.loadedFaction, AList.lookup_eq_none.mpr hnot]
    rw [hsame]
    exact hstates k f
  have hend := foldl_loop (Loading env rows) rows.entries hinit fun _ _ _ h => h.next hlists
  refine ⟨hend.counted, hend.known, fun k f => ?_⟩
  exact hend.states k f

end Sunstrider.Reputation

/-!
## What a row can say of a faction

`LoadFromDB` builds a state from its faction's defaults and the row, through the setters. So a row
gives back the flags of the state that wrote it just if the flags can be reached so (`Expressible`): no
default INACTIVE or AT_WAR was taken away where the setters do not take it away, and a hostile faction
is at war. `SaveToDB` writes and deletes the rows of the states by their marks.
-/

namespace Sunstrider.Reputation

open Sunstrider.Lib

/-! ## Flags as bits -/

theorem has_setWidth (f y : Flags) : has (f.setWidth 16) y = has f y := by
  have hwidth : ∀ v : Flags, v.setWidth 16 = 0 ↔ v = 0 := by
    intro v
    rw [← BitVec.toNat_inj, ← BitVec.toNat_inj, BitVec.toNat_setWidth]
    simp only [BitVec.ofNat_eq_ofNat, BitVec.toNat_ofNat]
    omega
  rw [has, has, BitVec.setWidth_eq, ← BitVec.setWidth_and, Bool.eq_iff_iff, bne_iff_ne, bne_iff_ne,
    ne_eq, ne_eq, hwidth]

/-- Flags are equal that agree on each of the setters' flags and on the fixed ones. -/
theorem flags_ext {f g : Flags} (visible : has f .visible = has g .visible)
    (atWar : has f .atWar = has g .atWar) (inactive : has f .inactive = has g .inactive)
    (fixed : ∀ y, FactionState.Fixed y → has f y = has g y) : f = g := by
  have hbit : ∀ (v : Flags) (i : ℕ) (hi : i < 8), has v (BitVec.twoPow 8 i) = v[i] := by
    intro v i hi
    have hone : BitVec.twoPow 8 i ≠ 0 := by
      interval_cases i <;> decide
    rw [has, BitVec.setWidth_eq, BitVec.and_twoPow, BitVec.getLsbD_eq_getElem hi]
    cases v[i] with
    | false => simp
    | true => simpa using hone
  ext i hi
  rw [← hbit f i hi, ← hbit g i hi]
  interval_cases i
  · exact visible
  · exact atWar
  · exact fixed _ (by decide)
  · exact fixed _ (by decide)
  · exact fixed _ (by decide)
  · exact inactive
  · exact fixed _ (by decide)
  · exact fixed _ (by decide)

/-! ## Flags that a row gives back -/

namespace FactionState

/-- The setters can have made the state's flags from those of the default state `d`. -/
structure Grown (d f : FactionState) : Prop where
  fixed : ∀ y, Fixed y → has f.flags y = has d.flags y
  visible : has d.flags .visible = true → has f.flags .visible = true
  shown : has f.flags .visible = true → has d.flags .visible = true ∨ d.isForced = false
  inactive : has f.flags .inactive = true →
    has d.flags .inactive = true ∨ d.isForced = false ∧ has f.flags .visible = true
  atWar : has f.flags .atWar = true → has d.flags .atWar = true ∨ d.isPeaceful = false

/-- **A row of the state gives its flags back**: no default INACTIVE was taken away, a default AT_WAR
only from a visible faction, and a hostile faction is at war. -/
structure Expressible (d f : FactionState) (rank : ReputationRank) : Prop where
  inactive : has d.flags .inactive = true → has f.flags .inactive = true
  atWar : has d.flags .atWar = true → has f.flags .atWar = true ∨ has f.flags .visible = true
  hostile : rank ≤ .hostile → d.isPeaceful = true ∨ has f.flags .atWar = true

variable {d f f' : FactionState}

theorem Grown.refl (d : FactionState) : Grown d d where
  fixed _ _ := rfl
  visible h := h
  shown h := .inl h
  inactive h := .inl h
  atWar h := .inl h

theorem Grown.isForced (h : Grown d f) : f.isForced = d.isForced := h.fixed _ (by decide)

theorem Grown.isPeaceful (h : Grown d f) : f.isPeaceful = d.isPeaceful := by
  rw [FactionState.isPeaceful, FactionState.isPeaceful, h.fixed _ (by decide),
    h.fixed _ (by decide)]

/-- What a row makes of the default state, the setters can have made. -/
theorem grown_load (d : FactionState) (row : ReputationRow) (rank : ReputationRank) :
    Grown d (d.load row rank) where
  fixed y hy := (d.alike_load row rank).fixes y hy
  visible h := by rw [has_load_visible, h, Bool.true_or]
  shown h := by
    rw [has_load_visible, Bool.or_eq_true, Bool.and_eq_true] at h
    refine h.imp_right fun hbecomes => ?_
    rw [becomesVisible, Bool.and_eq_true] at hbecomes
    simpa using hbecomes.2.1
  inactive h := by
    rw [has_load_inactive, Bool.or_eq_true, Bool.and_eq_true, Bool.and_eq_true] at h
    exact h.imp_right fun hset => ⟨by simpa using hset.1.2, hset.2⟩
  atWar h := by
    rw [has_load_atWar] at h
    exact h.elim (fun hset => .inr hset.1) fun hold => .inl hold.1

/-- What a row makes of the default state is expressible. -/
theorem expressible_load (d : FactionState) (row : ReputationRow) (rank : ReputationRank) :
    Expressible d (d.load row rank) rank where
  inactive h := by rw [has_load_inactive, h, Bool.true_or]
  atWar h := by
    rw [has_load_atWar, h]
    cases has row.flags .atWar <;> cases has (d.load row rank).flags .visible <;> simp
  hostile h := by
    rw [has_load_atWar]
    cases d.isPeaceful <;> simp [h]

/-- **The reload rule.** A row of a state gives the flags back just if they are expressible. -/
theorem load_flags_iff (hg : Grown d f) (rank : ReputationRank) :
    (d.load ⟨f.standing, f.flags.setWidth 16⟩ rank).flags = f.flags ↔ Expressible d f rank := by
  generalize hrow : (⟨f.standing, f.flags.setWidth 16⟩ : ReputationRow) = row
  have hflags : ∀ y, has row.flags y = has f.flags y := fun y => by rw [← hrow, has_setWidth]
  constructor
  · intro h
    have hload := expressible_load d row rank
    exact ⟨fun hd => h ▸ hload.inactive hd, fun hd => h ▸ hload.atWar hd, fun hr => h ▸ hload.hostile hr⟩
  · intro hex
    have hvisible : has (d.load row rank).flags .visible = has f.flags .visible := by
      rw [has_load_visible, hflags, becomesVisible, Bool.eq_iff_iff]
      simp only [Bool.or_eq_true, Bool.and_eq_true, Bool.not_eq_true']
      refine ⟨fun h => h.elim hg.visible fun h => h.1, fun h => ?_⟩
      by_cases hd : has d.flags .visible = true
      · exact .inl hd
      · exact .inr ⟨h, (hg.shown h).resolve_left hd, by simpa using hd⟩
    refine flags_ext hvisible ?_ ?_ fun y hy => ?_
    · rw [Bool.eq_iff_iff, has_load_atWar, hvisible, hflags]
      constructor
      · rintro (⟨hpeace, hwar | hrank⟩ | ⟨hd, hwar | hhidden⟩)
        · exact hwar
        · exact (hex.hostile hrank).resolve_left (by simp [hpeace])
        · exact hwar
        · exact (hex.atWar hd).resolve_right (by simp [hhidden])
      · intro hwar
        exact (hg.atWar hwar).symm.imp (fun hpeace => ⟨hpeace, .inl hwar⟩) fun hd => ⟨hd, .inl hwar⟩
    · rw [Bool.eq_iff_iff, has_load_inactive, hvisible, hflags]
      simp only [Bool.or_eq_true, Bool.and_eq_true, Bool.not_eq_true']
      refine ⟨fun h => h.elim hex.inactive fun h => h.1.1, fun h => ?_⟩
      exact (hg.inactive h).imp_right fun hset => ⟨⟨h, hset.1⟩, hset.2⟩
    · exact ((d.alike_load row rank).fixes y hy).trans (hg.fixed y hy).symm

variable {rank : ReputationRank}

/-- A state that a row left unmarked has the flags of the row. -/
theorem flags_of_load {row : ReputationRow} (hsave : d.needSave = true)
    (h : (d.load row rank).needSave = false) :
    row = ⟨(d.load row rank).standing, (d.load row rank).flags.setWidth 16⟩ := by
  have halike := d.alike_load row rank
  have hmarked := (d.tuned_load row rank).needSave hsave
  rw [halike.standing]
  rw [load_eq, loadMark] at h ⊢
  split at h
  · next hflags =>
    rw [if_pos hflags]
    exact congrArg (ReputationRow.mk row.standing) hflags.symm
  · rw [hmarked] at h
    cases h

/-! ## What the setters keep -/

theorem Grown.setVisible (hg : Grown d f) : Grown d f.setVisible where
  fixed y hy := (f.tuned_setVisible.fixes y hy).trans (hg.fixed y hy)
  visible h := by rw [f.has_setVisible_eq, hg.visible h, Bool.true_or]
  shown h := by
    rw [f.has_setVisible_visible, Bool.or_eq_true] at h
    exact h.elim hg.shown fun hforced => .inr (by rw [← hg.isForced]; simpa using hforced)
  inactive h := by
    rw [f.has_setVisible_of_ne (by decide)] at h
    refine (hg.inactive h).imp_right fun hset => ⟨hset.1, ?_⟩
    rw [f.has_setVisible_eq, hset.2, Bool.true_or]
  atWar h := by
    rw [f.has_setVisible_of_ne (by decide)] at h
    exact hg.atWar h

theorem Grown.setAtWar (hg : Grown d f) (on : Bool) : Grown d (f.setAtWar on) where
  fixed y hy := ((f.tuned_setAtWar on).fixes y hy).trans (hg.fixed y hy)
  visible h := by rw [f.has_setAtWar_of_ne on (by decide), hg.visible h]
  shown h := by
    rw [f.has_setAtWar_of_ne on (by decide)] at h
    exact hg.shown h
  inactive h := by
    rw [f.has_setAtWar_of_ne on (by decide)] at h ⊢
    exact hg.inactive h
  atWar h := by
    rw [f.has_setAtWar_atWar] at h
    split at h
    · exact hg.atWar h
    · next hguard =>
      rw [h, Bool.true_and, Bool.not_eq_true, hg.isPeaceful] at hguard
      exact .inr hguard

theorem Grown.setInactive (hg : Grown d f) (on : Bool) : Grown d (f.setInactive on) where
  fixed y hy := ((f.tuned_setInactive on).fixes y hy).trans (hg.fixed y hy)
  visible h := by rw [f.has_setInactive_of_ne on (by decide), hg.visible h]
  shown h := by
    rw [f.has_setInactive_of_ne on (by decide)] at h
    exact hg.shown h
  inactive h := by
    rw [f.has_setInactive_of_ne on (by decide)]
    rw [f.has_setInactive_inactive] at h
    split at h
    · exact hg.inactive h
    · next hguard =>
      rw [h, Bool.true_and, Bool.not_eq_true, Bool.or_eq_false_iff, hg.isForced] at hguard
      exact .inr ⟨hguard.1, by simpa using hguard.2⟩
  atWar h := by
    rw [f.has_setInactive_of_ne on (by decide)] at h
    exact hg.atWar h

theorem Expressible.setVisible (hex : Expressible d f rank) : Expressible d f.setVisible rank where
  inactive h := by
    rw [f.has_setVisible_of_ne (by decide)]
    exact hex.inactive h
  atWar h := by
    rw [f.has_setVisible_of_ne (by decide), f.has_setVisible_eq]
    exact (hex.atWar h).imp_right fun hv => by rw [hv, Bool.true_or]
  hostile h := by
    rw [f.has_setVisible_of_ne (by decide)]
    exact hex.hostile h

/-- War can be declared, and peace be made with a faction that is not hostile, and is visible or by
default not at war. -/
theorem Expressible.setAtWar (hex : Expressible d f rank) (hg : Grown d f) {on : Bool}
    (hpeace : on = false → (has d.flags .atWar = true → has f.flags .visible = true) ∧
      (rank ≤ .hostile → f.isPeaceful = true)) : Expressible d (f.setAtWar on) rank where
  inactive h := by
    rw [f.has_setAtWar_of_ne on (by decide)]
    exact hex.inactive h
  atWar h := by
    rw [f.has_setAtWar_atWar, f.has_setAtWar_of_ne on (by decide)]
    cases on with
    | false => exact .inr ((hpeace rfl).1 h)
    | true =>
      refine (hex.atWar h).imp_left fun hwar => ?_
      rw [hwar]
      split <;> rfl
  hostile h := by
    rw [f.has_setAtWar_atWar]
    cases on with
    | false => exact .inl (hg.isPeaceful ▸ (hpeace rfl).2 h)
    | true =>
      rw [← hg.isPeaceful]
      cases f.isPeaceful <;> simp

/-- A faction can be made inactive, and active again if it is not inactive by default. -/
theorem Expressible.setInactive (hex : Expressible d f rank) {on : Bool}
    (hactive : on = false → has d.flags .inactive = false) :
    Expressible d (f.setInactive on) rank where
  inactive h := by
    rw [f.has_setInactive_inactive, hex.inactive h]
    cases on with
    | false =>
      rw [hactive rfl] at h
      cases h
    | true => split <;> rfl
  atWar h := by
    rw [f.has_setInactive_of_ne on (by decide), f.has_setInactive_of_ne on (by decide)]
    exact hex.atWar h
  hostile h := by
    rw [f.has_setInactive_of_ne on (by decide)]
    exact hex.hostile h

theorem Grown.setTo (hg : Grown d f) {baseRep value : ℤ} (hto : SetTo f baseRep value f') :
    Grown d f' where
  fixed y hy := (hto.tuned.fixes y hy).trans (hg.fixed y hy)
  visible h := by rw [hto.visible, hg.visible h, Bool.true_or]
  shown h := by
    rw [hto.visible, Bool.or_eq_true, becomesVisible, Bool.and_eq_true, hg.isForced] at h
    exact h.elim hg.shown fun hnew => .inr (by simpa using hnew.1)
  inactive h := by
    rw [hto.inactive] at h
    refine (hg.inactive h).imp_right fun hset => ⟨hset.1, ?_⟩
    rw [hto.visible, hset.2, Bool.true_or]
  atWar h := by
    rw [hto.atWar] at h
    exact h.elim hg.atWar fun hnew => .inr (hg.isPeaceful ▸ hnew.2)

/-- A faction whose reputation is set is at war if it is then hostile, as it is after a login. -/
theorem Expressible.setTo (hex : Expressible d f rank) (hg : Grown d f) {baseRep value : ℤ}
    (hto : SetTo f baseRep value f') : Expressible d f' (reputationToRank value) where
  inactive h := by
    rw [hto.inactive]
    exact hex.inactive h
  atWar h := by
    rw [hto.atWar, hto.visible]
    exact (hex.atWar h).imp (fun hwar => .inl hwar) fun hv => by rw [hv, Bool.true_or]
  hostile h := by
    rw [hto.atWar, ← hg.isPeaceful]
    cases f.isPeaceful <;> simp [h]

end FactionState

end Sunstrider.Reputation
