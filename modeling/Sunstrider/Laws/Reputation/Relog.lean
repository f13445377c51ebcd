import Sunstrider.Laws.Reputation.Bookkeeping

/-!
# Reputation survives a relog

A session is a player's manager and rows. After `SaveToDB` and a login the states are as they were if
each state is as its marks promise (`HeldState`): a state to be deleted is a default one without a mark
to be saved, a state without a mark is as its row says, and the others are expressible by a row. Calls
can break that promise only by writing to a state that is to be deleted, by dropping one that is not as
its defaults, and by taking away a war or an inactivity that the loader gives back (`Promised`).
-/

namespace Sunstrider.Reputation

open Sunstrider.Lib
open FactionState (Grown Expressible Tuned)

/-! ## The rows after SaveToDB -/

/-- The row of a state after `SaveToDB`, from the row before. -/
def savedRow (f : FactionState) (row : Option ReputationRow) : Option ReputationRow :=
  if f.needDelete then none
  else if f.needSave then some ⟨f.standing, f.flags.setWidth 16⟩
  else row

variable {env : Env} {st : ReputationMgr}

variable {f : FactionState}

theorem mem_states : f ∈ st.states ↔ ∃ k, st.factions.lookup k = some f := by
  rw [ReputationMgr.states, (List.perm_insertionSort _ _).mem_iff, List.mem_map]
  constructor
  · rintro ⟨⟨k, f⟩, hmem, rfl⟩
    exact ⟨k, AList.mem_lookup_iff.mpr hmem⟩
  · rintro ⟨k, hf⟩
    exact ⟨⟨k, f⟩, AList.mem_lookup_iff.mp hf, rfl⟩

/-- What tells the states apart is distinct along their list. -/
theorem nodup_states {K : Type} {key : FactionState → K}
    (hkey : ∀ k f k' f', st.factions.lookup k = some f → st.factions.lookup k' = some f' →
      key f = key f' → k = k') : (st.states.map key).Nodup := by
  rw [ReputationMgr.states, ((List.perm_insertionSort _ _).map key).nodup_iff, List.map_map]
  refine (List.Nodup.of_map _ st.factions.nodupKeys).map_on fun e he e' he' h => ?_
  have hf := AList.mem_lookup_iff.mpr he
  have hf' := AList.mem_lookup_iff.mpr he'
  have hk := hkey _ _ _ _ hf hf' h
  rw [hk, hf'] at hf
  exact Sigma.ext hk (heq_of_eq (Option.some.inj hf).symm)

theorem lookup_saveRow (rows : ReputationRows) (f : FactionState) (k : ℕ) :
    (ReputationMgr.saveRow rows f).lookup k =
      if k = f.id % 2 ^ 16 then savedRow f (rows.lookup k) else rows.lookup k := by
  rw [ReputationMgr.saveRow, savedRow]
  split
  · rw [lookup_erase_ite]
  · split
    · rw [lookup_insert_ite]
    · rw [ite_self]

/-- `SaveToDB` writes each state's own row. -/
theorem lookup_savedRows (hk : Known env st)
    (hids : ∀ e ∈ env.store.entries, e.canHaveReputation = true → e.id < 2 ^ 16)
    (rows : ReputationRows) {k : ℕ} (hf : st.factions.lookup k = some f) :
    (st.savedRows rows).lookup f.id = savedRow f (rows.lookup f.id) := by
  have hid : ∀ k f, st.factions.lookup k = some f → f.id % 2 ^ 16 = f.id := by
    intro k f hf
    obtain ⟨e, he, hide, hlist⟩ := hk.entry k f hf
    rw [← hide]
    exact Nat.mod_eq_of_lt (hids e he (by simp [FactionEntry.canHaveReputation, hlist]))
  have hnodup : (st.states.map fun f => f.id % 2 ^ 16).Nodup :=
    nodup_states fun k f k' f' hf hf' h => hk.eq_of_id hf hf' (by
      rwa [hid k f hf, hid k' f' hf'] at h)
  have hmem := mem_states.mpr ⟨k, hf⟩
  have hsaved := read_foldl_of_mem (fun m k => AList.lookup k m)
    (fun f _ rows => lookup_saveRow rows f) hnodup hmem rows
  rwa [hid k f hf] at hsaved

theorem clearMark_reputationListID (f : FactionState) :
    (ReputationMgr.clearMark f).reputationListID = f.reputationListID := by
  rw [ReputationMgr.clearMark]
  split
  · rfl
  · split <;> rfl

theorem lookup_saved (hk : Known env st) (k : ℕ) :
    st.saved.factions.lookup k = (st.factions.lookup k).map ReputationMgr.clearMark := by
  let cleared (f : FactionState) (_ : Option FactionState) : Option FactionState :=
    some (ReputationMgr.clearMark f)
  have hhom : st.saved.factions = st.states.foldl (fun m f =>
      m.insert (ReputationMgr.clearMark f).reputationListID (ReputationMgr.clearMark f))
      st.factions := (List.foldl_hom ReputationMgr.factions fun _ _ => rfl).symm
  have hupd : ∀ (f : FactionState) (m : AList fun _ : ℕ => FactionState) (k : ℕ),
      (m.insert (ReputationMgr.clearMark f).reputationListID (ReputationMgr.clearMark f)).lookup k =
        if k = f.reputationListID then cleared f (m.lookup k) else m.lookup k := by
    intro f m k
    rw [lookup_insert_ite, clearMark_reputationListID]
  rw [hhom]
  cases hf : st.factions.lookup k with
  | some f =>
    have hnodup : (st.states.map FactionState.reputationListID).Nodup :=
      nodup_states fun k f k' f' hf hf' h => by
        rw [← hk.key k f hf, ← hk.key k' f' hf', h]
    have hmem := mem_states.mpr ⟨k, hf⟩
    have hsaved := read_foldl_of_mem (fun m k => AList.lookup k m) (fun f _ => hupd f) hnodup hmem st.factions
    rw [hk.key k f hf] at hsaved
    exact hsaved
  | none =>
    have hother : ∀ f ∈ st.states, f.reputationListID ≠ k := by
      rintro f hmem rfl
      obtain ⟨k', hf'⟩ := mem_states.mp hmem
      rw [hk.key k' f hf', hf'] at hf
      cases hf
    rw [read_foldl_of_ne (fun m k => AList.lookup k m) (fun f _ => hupd f) hother, hf]
    rfl

/-! ## What survives a relog -/

/-- What a player knows of a faction: the standing and the flags. -/
def FactionState.shown (f : FactionState) : ℤ × Flags := (f.standing, f.flags)

/-- **Reputation survives a relog**: after `SaveToDB` a login restores each faction's standing and
flags, and another `SaveToDB` writes nothing. -/
structure Survives (env : Env) (s : Session) : Prop where
  restores : ∀ k, ((ReputationMgr.loadFromDB env (s.mgr.savedRows s.rows)).factions.lookup k).map
    FactionState.shown = (s.mgr.factions.lookup k).map FactionState.shown
  quiet : s.mgr.saved.writes = []

/-- The faction table lists each faction under an id of its own that a row can hold, and a listed
faction that is hostile to the player is by default peaceful or at war. -/
structure Env.Relogs (env : Env) : Prop where
  lists : env.ListsOnce
  ids : ∀ e ∈ env.store.entries, e.canHaveReputation = true → e.id < 2 ^ 16
  hostile : ∀ e ∈ env.store.entries, e.canHaveReputation = true → env.getBaseRank e ≤ .hostile →
    (env.newFaction e).isPeaceful = true ∨ has (env.newFaction e).flags .atWar = true

/-- What the marks of a state promise. The state `d` is the faction's default. -/
structure HeldState (env : Env) (rows : ReputationRows) (d f : FactionState) : Prop where
  grown : Grown d f
  expressible : f.needDelete = false → Expressible d f (env.rankOf f)
  deleted : f.needDelete = true → f.needSave = false ∧ f.standing = 0 ∧ f.flags = d.flags
  clean : f.needDelete = false → f.needSave = false →
    rows.lookup f.id = some ⟨f.standing, f.flags.setWidth 16⟩ ∨
      rows.lookup f.id = none ∧ f.standing = 0 ∧ f.flags = d.flags

/-- Each listed faction has a state that is as its marks promise. -/
structure Held (env : Env) (s : Session) : Prop where
  known : Known env s.mgr
  all : ∀ e ∈ env.store.entries, e.canHaveReputation = true →
    ∃ f, s.mgr.factions.lookup e.reputationListID.toNat = some f
  states : ∀ k f, s.mgr.factions.lookup k = some f → ∃ e ∈ env.store.entries,
    e.canHaveReputation = true ∧ e.id = f.id ∧ HeldState env s.rows (env.newFaction e) f

variable {s : Session}

variable {e : FactionEntry}

theorem expressible_newFaction (hrelogs : env.Relogs) (he : e ∈ env.store.entries)
    (hlisted : e.canHaveReputation = true) (hflags : f.flags = (env.newFaction e).flags) :
    Expressible (env.newFaction e) f (env.getBaseRank e) where
  inactive h := hflags ▸ h
  atWar h := .inl (hflags ▸ h)
  hostile h := hflags ▸ hrelogs.hostile e he hlisted h

theorem rankOf_of_standing (he : e ∈ env.store.entries) (hid : e.id = f.id)
    (hstanding : f.standing = 0) : env.rankOf f = env.getBaseRank e := by
  rw [Env.rankOf, Env.reputationOf, env.baseOf_eq he hid, hstanding, add_zero, Env.getBaseRank]

theorem held_login (hrelogs : env.Relogs) (rows : ReputationRows) : Held env (login env rows) := by
  obtain ⟨-, hknown, hstates⟩ := loadFromDB_spec hrelogs.lists rows
  refine ⟨hknown, fun e he hlisted => ?_, fun k f hf => ?_⟩
  · have hpos : 0 ≤ e.reputationListID := by simpa [FactionEntry.canHaveReputation] using hlisted
    exact ⟨env.loadedFaction rows e, (hstates _ _).mpr ⟨e, he, hlisted, by omega, rfl⟩⟩
  · obtain ⟨e, he, hlisted, -, rfl⟩ := (hstates k f).mp hf
    refine ⟨e, he, hlisted, (loadedFaction_id rows e).symm, ?_⟩
    rw [Env.loadedFaction]
    split
    next hnone =>
      refine ⟨.refl _, fun _ => ?_, by rintro ⟨⟩, fun _ => by rintro ⟨⟩⟩
      rw [rankOf_newFaction he]
      exact expressible_newFaction hrelogs he hlisted rfl
    next row hrow =>
      have halike := (env.newFaction e).alike_load row
        (reputationToRank (env.getBaseReputation e + row.standing))
      refine ⟨FactionState.grown_load _ _ _, fun _ => ?_, fun h => ?_, fun _ h => .inl ?_⟩
      · rw [Env.rankOf, Env.reputationOf, env.baseOf_eq he halike.id.symm, halike.standing]
        exact FactionState.expressible_load _ _ _
      · rw [halike.needDelete] at h
        cases h
      · rw [halike.id]
        exact hrow.trans (congrArg some (FactionState.flags_of_load rfl h))

/-! ## SaveToDB -/

/-- A saved state has no mark left, and its row is as the state. -/
theorem HeldState.save (hrelogs : env.Relogs) (he : e ∈ env.store.entries)
    (hlisted : e.canHaveReputation = true) (hid : e.id = f.id) {rows rows' : ReputationRows}
    (hrow : rows'.lookup f.id = savedRow f (rows.lookup f.id))
    (h : HeldState env rows (env.newFaction e) f) :
    HeldState env rows' (env.newFaction e) (ReputationMgr.clearMark f) ∧
      (ReputationMgr.clearMark f).needDelete = false ∧
      (ReputationMgr.clearMark f).needSave = false := by
  rw [savedRow] at hrow
  rw [ReputationMgr.clearMark]
  split
  next hdelete =>
    obtain ⟨hsave, hstanding, hflags⟩ := h.deleted hdelete
    rw [if_pos hdelete] at hrow
    refine ⟨⟨?_, fun _ => ?_, fun h => (nomatch h), fun _ _ => ?_⟩, rfl, hsave⟩
    · exact ⟨h.grown.fixed, h.grown.visible, h.grown.shown, h.grown.inactive, h.grown.atWar⟩
    · have hex := expressible_newFaction hrelogs he hlisted hflags
      rw [← rankOf_of_standing he hid hstanding] at hex
      exact ⟨hex.inactive, hex.atWar, hex.hostile⟩
    · exact .inr ⟨hrow, hstanding, hflags⟩
  next hdelete =>
    have hkept : f.needDelete = false := by simpa using hdelete
    rw [if_neg hdelete] at hrow
    split
    next hsave =>
      rw [if_pos hsave] at hrow
      have hex := h.expressible hkept
      refine ⟨⟨?_, fun _ => ?_, fun h => ?_, fun _ _ => .inl hrow⟩, hkept, rfl⟩
      · exact ⟨h.grown.fixed, h.grown.visible, h.grown.shown, h.grown.inactive, h.grown.atWar⟩
      · exact ⟨hex.inactive, hex.atWar, hex.hostile⟩
      · rw [show _ = f.needDelete from rfl, hkept] at h
        cases h
    next hsave =>
      rw [if_neg hsave] at hrow
      refine ⟨⟨h.grown, h.expressible, h.deleted, ?_⟩, hkept, by simpa using hsave⟩
      rw [hrow]
      exact h.clean

theorem clearMark_id (f : FactionState) : (ReputationMgr.clearMark f).id = f.id := by
  rw [ReputationMgr.clearMark]
  split
  · rfl
  · split <;> rfl

theorem Held.saveToDB (hrelogs : env.Relogs) (hh : Held env s) :
    Held env ⟨s.mgr.saved, s.mgr.savedRows s.rows⟩ ∧ s.mgr.saved.writes = [] := by
  have hsaved : ∀ k g, s.mgr.saved.factions.lookup k = some g → ∃ f,
      s.mgr.factions.lookup k = some f ∧ ReputationMgr.clearMark f = g := by
    intro k g hg
    rw [lookup_saved hh.known] at hg
    exact Option.map_eq_some_iff.mp hg
  have hsave := fun k f (hf : s.mgr.factions.lookup k = some f) e he hlisted hid h =>
    HeldState.save hrelogs (e := e) he hlisted hid (lookup_savedRows hh.known hrelogs.ids s.rows hf) h
  refine ⟨⟨⟨fun k g hg => ?_, fun k g hg => ?_⟩, fun e he hlisted => ?_, fun k g hg => ?_⟩, ?_⟩
  · obtain ⟨f, hf, rfl⟩ := hsaved k g hg
    rw [clearMark_reputationListID]
    exact hh.known.key k f hf
  · obtain ⟨f, hf, rfl⟩ := hsaved k g hg
    rw [clearMark_id]
    exact hh.known.entry k f hf
  · obtain ⟨f, hf⟩ := hh.all e he hlisted
    exact ⟨_, by rw [lookup_saved hh.known, hf]; rfl⟩
  · obtain ⟨f, hf, rfl⟩ := hsaved k g hg
    obtain ⟨e, he, hlisted, hid, hheld⟩ := hh.states k f hf
    refine ⟨e, he, hlisted, ?_, (hsave k f hf e he hlisted hid hheld).1⟩
    rw [clearMark_id, hid]
  · rw [ReputationMgr.writes, List.filter_eq_nil_iff]
    intro g hmem
    obtain ⟨k, hg⟩ := mem_states.mp hmem
    obtain ⟨f, hf, rfl⟩ := hsaved k g hg
    obtain ⟨e, he, hlisted, hid, hheld⟩ := hh.states k f hf
    obtain ⟨-, hdelete, hsave⟩ := hsave k f hf e he hlisted hid hheld
    simp [hdelete, hsave]

/-- The row of a state that is as its marks promise gives the state back. -/
theorem HeldState.restored (he : e ∈ env.store.entries) (hid : e.id = f.id)
    {rows rows' : ReputationRows} (hrow : rows'.lookup f.id = savedRow f (rows.lookup f.id))
    (h : HeldState env rows (env.newFaction e) f) :
    (env.loadedFaction rows' e).shown = f.shown := by
  have hnone : rows'.lookup f.id = none → f.standing = 0 → f.flags = (env.newFaction e).flags →
      (env.loadedFaction rows' e).shown = f.shown := by
    intro hnone hstanding hflags
    rw [Env.loadedFaction, hid, hnone, FactionState.shown, FactionState.shown, hstanding, hflags]
    rfl
  have hsome : rows'.lookup f.id = some ⟨f.standing, f.flags.setWidth 16⟩ →
      f.needDelete = false → (env.loadedFaction rows' e).shown = f.shown := by
    intro hsome hkept
    have hrank : env.rankOf f = reputationToRank (env.getBaseReputation e + f.standing) := by
      rw [Env.rankOf, Env.reputationOf, env.baseOf_eq he hid]
    have hflags := (FactionState.load_flags_iff h.grown _).mpr (h.expressible hkept)
    rw [Env.loadedFaction, hid, hsome]
    show FactionState.shown (FactionState.load _ _ (reputationToRank (_ + f.standing))) = _
    rw [FactionState.shown, (FactionState.alike_load _ _ _).standing, ← hrank, hflags]
    rfl
  have hsaved := hrow
  rw [savedRow] at hsaved
  split at hsaved
  next hdelete => exact hnone hsaved (h.deleted hdelete).2.1 (h.deleted hdelete).2.2
  next hdelete =>
    have hkept : f.needDelete = false := by simpa using hdelete
    split at hsaved
    · exact hsome hsaved hkept
    · next hsave =>
      obtain hclean | ⟨hclean, hstanding, hflags⟩ := h.clean hkept (by simpa using hsave)
      · exact hsome (hsaved.trans hclean) hkept
      · exact hnone (hsaved.trans hclean) hstanding hflags

/-- States that are as their marks promise survive a relog. -/
theorem Held.survives (hrelogs : env.Relogs) (hh : Held env s) : Survives env s where
  quiet := (hh.saveToDB hrelogs).2
  restores k := by
    obtain ⟨-, -, hloaded⟩ := loadFromDB_spec hrelogs.lists (s.mgr.savedRows s.rows)
    cases hf : s.mgr.factions.lookup k with
    | some f =>
      obtain ⟨e, he, hlisted, hid, hheld⟩ := hh.states k f hf
      obtain ⟨e', he', hid', hlist⟩ := hh.known.entry k f hf
      cases (lookupEntry_eq_some.mpr ⟨he, hid⟩).symm.trans (lookupEntry_eq_some.mpr ⟨he', hid'⟩)
      rw [(hloaded k _).mpr ⟨e, he, hlisted, hlist, rfl⟩]
      exact congrArg some
        (hheld.restored he hid (lookup_savedRows hh.known hrelogs.ids s.rows hf))
    | none =>
      cases hg : (ReputationMgr.loadFromDB env (s.mgr.savedRows s.rows)).factions.lookup k with
      | none => rfl
      | some g =>
        obtain ⟨e, he, hlisted, hlist, -⟩ := (hloaded k g).mp hg
        obtain ⟨f, hf'⟩ := hh.all e he hlisted
        rw [hlist, Int.toNat_natCast, hf] at hf'
        cases hf'

end Sunstrider.Reputation
