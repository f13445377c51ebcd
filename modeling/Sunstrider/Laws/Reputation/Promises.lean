import Sunstrider.Laws.Reputation.Relog

/-!
# Calls that keep what the marks promise

A setter marks the state that it changes as one to be saved, so a state keeps its promise unless it was
to be deleted, or unless a war or an inactivity is taken away that the loader gives back.
`DropFactionReputation` marks a state as one to be deleted whatever its flags and its other mark are.
`Promised` is the condition of a call that follows, and in a run of such calls reputation survives a
relog in every state.
-/

namespace Sunstrider.Reputation

open Sunstrider.Lib
open FactionState (Grown Expressible Tuned)

/-! ## The condition -/

/-- `SetAtWar` changes the flag. -/
def FactionState.changesWar (f : FactionState) (on : Bool) : Prop :=
  ¬ (on = true ∧ f.isPeaceful = true) ∧ has f.flags .atWar ≠ on

/-- `SetInactive` changes the flag. -/
def FactionState.changesActivity (f : FactionState) (on : Bool) : Prop :=
  ¬ (on = true ∧ (f.isForced = true ∨ has f.flags .visible = false)) ∧ has f.flags .inactive ≠ on

/-- The flags that the faction has before anything is set. -/
def Env.defaultFlags (env : Env) (f : FactionState) : Flags :=
  match env.store.lookupEntry f.id with
  | some e => env.getDefaultStateFlags e
  | none => 0

/-- None of these factions is to be deleted. -/
def Undeleted (st : ReputationMgr) (ids : Finset ℕ) : Prop :=
  ∀ k f, st.factions.lookup k = some f → f.id ∈ ids → f.needDelete = false

/-- **The condition of a step.** No faction is set or changed that is to be deleted, none is dropped
that is to be saved or has other flags than its default, and no default inactivity, hidden default war
or war with a hostile faction is taken away. -/
def Promised (env : Env) (s : Session) : SessionOp → Prop
  | .saveToDB => True
  | .call (.setVisible factionId) _ =>
    ∀ k f, s.mgr.factions.lookup k = some f → f.id = factionId → f.becomesVisible = true →
      f.needDelete = false
  | .call (.setTemplateVisible faction) _ =>
    ∀ k f, s.mgr.factions.lookup k = some f → f.id = faction → f.becomesVisible = true →
      (∀ e ∈ env.store.entries, e.id = faction → ReputationMgr.opposingTeam env e = false) → f.needDelete = false
  | .call (.dropFactionReputation factionId) _ =>
    ∀ f, s.mgr.factions.lookup factionId = some f →
      f.needSave = false ∧ f.flags = env.defaultFlags f
  | .call (.setAtWar repListID on) _ =>
    ∀ f, s.mgr.factions.lookup repListID = some f → f.isForced = false → f.changesWar on →
      f.needDelete = false ∧
      (on = false → (has (env.defaultFlags f) .atWar = true → has f.flags .visible = true) ∧
        (env.rankOf f ≤ .hostile → f.isPeaceful = true))
  | .call (.setInactive repListID on) _ =>
    ∀ f, s.mgr.factions.lookup repListID = some f → f.changesActivity on →
      f.needDelete = false ∧ (on = false → has (env.defaultFlags f) .inactive = false)
  | .call op _ => Undeleted s.mgr (touched env op)

variable {env : Env} {s : Session} {rows : ReputationRows} {d f f' : FactionState}

/-! ## One state -/

variable {e : FactionEntry}

theorem defaultFlags_eq (he : e ∈ env.store.entries) (hid : e.id = f.id) :
    env.defaultFlags f = (env.newFaction e).flags := by
  rw [Env.defaultFlags, lookupEntry_eq_some.mpr ⟨he, hid⟩]
  rfl

theorem HeldState.tune (h : HeldState env rows d f) (ht : Tuned f f') (hg : Grown d f')
    (hchange : f' = f ∨ f.needDelete = false ∧ Expressible d f' (env.rankOf f)) :
    HeldState env rows d f' := by
  obtain rfl | ⟨hkept, hex⟩ := hchange
  · exact h
  · obtain rfl | hsave := ht.noted
    · exact h
    · refine ⟨hg, fun _ => ?_, fun hdelete => ?_, fun _ hclean => ?_⟩
      · rwa [Env.rankOf_congr ht.id ht.standing]
      · rw [ht.needDelete, hkept] at hdelete
        cases hdelete
      · rw [hsave] at hclean
        cases hclean

variable {on : Bool}

theorem FactionState.setFlag_of_eq {flag : Flags} (h : has f.flags flag = on) :
    f.setFlag flag on = f := if_pos h

theorem FactionState.setVisible_of_not (h : f.becomesVisible = false) : f.setVisible = f := by
  rw [becomesVisible, Bool.and_eq_false_iff] at h
  rw [setVisible]
  split
  · rfl
  · next hforced => exact setFlag_of_eq (by simpa [hforced] using h)

theorem FactionState.setAtWar_of_not (h : ¬ f.changesWar on) : f.setAtWar on = f := by
  rw [setAtWar]
  split
  · rfl
  · next hguard =>
    rw [Bool.and_eq_true] at hguard
    exact setFlag_of_eq (by_contra fun hne => h ⟨hguard, hne⟩)

theorem FactionState.setInactive_of_not (h : ¬ f.changesActivity on) : f.setInactive on = f := by
  rw [setInactive]
  split
  · rfl
  · next hguard =>
    have hguard' : ¬ (on = true ∧ (f.isForced = true ∨ has f.flags .visible = false)) := by
      simpa using hguard
    exact setFlag_of_eq (by_contra fun hne => h ⟨hguard', hne⟩)

/-- What `SetOneFactionReputation` writes is to be saved. -/
theorem HeldState.set (he : e ∈ env.store.entries) (hid : e.id = f.id)
    (h : HeldState env rows (env.newFaction e) f) (hkept : f.needDelete = false) {value : ℤ}
    (hto : SetTo f (env.getBaseReputation e) value f') :
    HeldState env rows (env.newFaction e) f' := by
  have hsave : f'.needSave = true := hto.tuned.needSave rfl
  refine ⟨h.grown.setTo hto, fun _ => ?_, fun hdelete => ?_, fun _ hclean => ?_⟩
  · rw [Env.rankOf, Env.reputationOf, env.baseOf_eq he (hid.trans hto.tuned.id.symm),
      hto.tuned.standing, add_sub_cancel]
    exact (h.expressible hkept).setTo h.grown hto
  · rw [hto.tuned.needDelete] at hdelete
    exact absurd (hkept.symm.trans hdelete) (by decide)
  · rw [hsave] at hclean
    cases hclean

/-! ## One call -/

/-- **One state is written.** What is left to show is that it is as its marks promise. -/
theorem Held.write (hh : Held env s) {mgr : ReputationMgr}
    (hf : s.mgr.factions.lookup f'.reputationListID = some f) (hid : f'.id = f.id)
    (hmgr : mgr.factions = (s.mgr.put f').factions)
    (hheld : ∀ e ∈ env.store.entries, e.id = f.id → HeldState env s.rows (env.newFaction e) f →
      HeldState env s.rows (env.newFaction e) f') : Held env ⟨mgr, s.rows⟩ := by
  refine ⟨(hh.known.put hf hid).of_factions hmgr, fun e he hlisted => ?_, fun k g hg => ?_⟩
  · obtain ⟨g, hg⟩ := hh.all e he hlisted
    show ∃ f, mgr.factions.lookup _ = some f
    rw [hmgr, lookup_put]
    split
    · exact ⟨f', rfl⟩
    · exact ⟨g, hg⟩
  · rw [show (Session.mk mgr s.rows).mgr.factions = (s.mgr.put f').factions from hmgr,
      lookup_put] at hg
    split at hg
    · cases hg
      obtain ⟨e, he, hlisted, hide, hold⟩ := hh.states _ f hf
      exact ⟨e, he, hlisted, hide.trans hid.symm, hheld e he hide hold⟩
    · exact hh.states k g hg

theorem Held.setOneFactionReputation (hlists : env.ListsOnce) (hh : Held env s)
    (he : e ∈ env.store.entries) (standing : ℤ) (incremental : Bool) {ids : Finset ℕ}
    (hids : e.id ∈ ids) (hkept : Undeleted s.mgr ids) :
    Held env ⟨s.mgr.setOneFactionReputation env e standing incremental, s.rows⟩ ∧
      Undeleted (s.mgr.setOneFactionReputation env e standing incremental) ids := by
  rw [ReputationMgr.setOneFactionReputation]
  split
  · exact ⟨hh, hkept⟩
  · next f hfind =>
    obtain ⟨hid, hf⟩ := hh.known.of_find hlists he hfind
    simp only
    generalize ReputationMgr.clampReputation (if incremental then
      env.rate standing + f.standing + env.getBaseReputation e else standing) = value
    have hto := setTo_setStanding f (env.getBaseReputation e) value
    generalize ReputationMgr.setStanding f (env.getBaseReputation e) value = f' at hto ⊢
    have hf' : s.mgr.factions.lookup f'.reputationListID = some f := by
      rw [hto.tuned.reputationListID, hf]
    have hundeleted : f.needDelete = false := hkept _ f hf (hid ▸ hids)
    refine ⟨hh.write hf' hto.tuned.id rfl fun e' he' hid' hold => ?_, fun k g hg hmem => ?_⟩
    · cases (lookupEntry_eq_some.mpr ⟨he', hid'⟩).symm.trans
        (lookupEntry_eq_some.mpr ⟨he, hid.symm⟩)
      exact hold.set he hid.symm hundeleted hto
    · replace hg : (s.mgr.put f').factions.lookup k = some g := hg
      rw [lookup_put] at hg
      split at hg
      · cases hg
        exact hto.tuned.needDelete.trans hundeleted
      · exact hkept k g hg hmem

theorem Held.setVisible (hlists : env.ListsOnce) (hh : Held env s) (he : e ∈ env.store.entries)
    (hkept : ∀ k f, s.mgr.factions.lookup k = some f → f.id = e.id → f.becomesVisible = true →
      f.needDelete = false) : Held env ⟨s.mgr.setVisible e, s.rows⟩ := by
  rw [ReputationMgr.setVisible]
  split
  · exact hh
  · next f hfind =>
    obtain ⟨hid, hf⟩ := hh.known.of_find hlists he hfind
    have ht := f.tuned_setVisible
    refine hh.write (by rw [ht.reputationListID, hf]) ht.id rfl fun e' _ _ hold => ?_
    refine hold.tune ht hold.grown.setVisible ?_
    by_cases hbecomes : f.becomesVisible = true
    · have hundeleted := hkept _ f hf hid hbecomes
      exact .inr ⟨hundeleted, (hold.expressible hundeleted).setVisible⟩
    · exact .inl (FactionState.setVisible_of_not (by simpa using hbecomes))

theorem Held.setAtWar (hh : Held env s) {repListID : ℕ} {stays : _}
    (hpromised : Promised env s (.call (.setAtWar repListID on) stays)) :
    Held env ⟨s.mgr.setAtWar repListID on, s.rows⟩ := by
  rw [ReputationMgr.setAtWar]
  split
  · exact hh
  · next f hf =>
    split
    · exact hh
    · next hforced =>
      have ht := f.tuned_setAtWar on
      have hf' : s.mgr.factions.lookup (f.setAtWar on).reputationListID = some f := by
        rw [ht.reputationListID, hh.known.key _ f hf, hf]
      refine hh.write hf' ht.id rfl fun e he hid hold => hold.tune ht (hold.grown.setAtWar on) ?_
      by_cases hchange : f.changesWar on
      · obtain ⟨hundeleted, hpeace⟩ := hpromised f hf (by simpa using hforced) hchange
        rw [defaultFlags_eq he hid] at hpeace
        exact .inr ⟨hundeleted, (hold.expressible hundeleted).setAtWar hold.grown hpeace⟩
      · exact .inl (FactionState.setAtWar_of_not hchange)

theorem Held.setInactive (hh : Held env s) {repListID : ℕ} {stays : _}
    (hpromised : Promised env s (.call (.setInactive repListID on) stays)) :
    Held env ⟨s.mgr.setInactive repListID on, s.rows⟩ := by
  rw [ReputationMgr.setInactive]
  split
  · exact hh
  · next f hf =>
    have ht := f.tuned_setInactive on
    have hf' : s.mgr.factions.lookup (f.setInactive on).reputationListID = some f := by
      rw [ht.reputationListID, hh.known.key _ f hf, hf]
    refine hh.write hf' ht.id rfl fun e he hid hold => hold.tune ht (hold.grown.setInactive on) ?_
    by_cases hchange : f.changesActivity on
    · obtain ⟨hundeleted, hactive⟩ := hpromised f hf hchange
      rw [defaultFlags_eq he hid] at hactive
      exact .inr ⟨hundeleted, (hold.expressible hundeleted).setInactive hactive⟩
    · exact .inl (FactionState.setInactive_of_not hchange)

theorem Held.dropFactionReputation (hh : Held env s) {factionId : ℕ} {stays : _}
    (hpromised : Promised env s (.call (.dropFactionReputation factionId) stays)) :
    Held env ⟨s.mgr.dropFactionReputation factionId, s.rows⟩ := by
  rw [ReputationMgr.dropFactionReputation]
  split
  · exact hh
  · next f hf =>
    obtain ⟨hsave, hflags⟩ := hpromised f hf
    have hf' : s.mgr.factions.lookup (dropped f).reputationListID = some f := by
      rw [show (dropped f).reputationListID = f.reputationListID from rfl, hh.known.key _ f hf, hf]
    refine hh.write hf' rfl rfl fun e he hid hold => ?_
    rw [defaultFlags_eq he hid] at hflags
    refine ⟨?_, by rintro ⟨⟩, fun _ => ⟨hsave, rfl, hflags⟩, by rintro ⟨⟩⟩
    exact ⟨hold.grown.fixed, hold.grown.visible, hold.grown.shown, hold.grown.inactive,
      hold.grown.atWar⟩

theorem Held.sessionStep (hrelogs : env.Relogs) (hh : Held env s) {op : SessionOp}
    (hpromised : Promised env s op) : Held env (sessionStep env s op) := by
  cases op with
  | saveToDB => exact (hh.saveToDB hrelogs).1
  | call op stays =>
    cases op with
    | initialized => cases stays
    | loadFromDB rows => cases stays
    | setReputation factionId standing incremental spillOverOnly =>
      simp only [Reputation.sessionStep, step]
      cases hlookup : env.store.lookupEntry factionId with
      | none => exact hh
      | some e =>
        obtain ⟨he, rfl⟩ := lookupEntry_eq_some.mp hlookup
        cases spillOverOnly with
        | true => exact hh
        | false =>
          replace hpromised : Undeleted s.mgr (touched env (.setReputation e.id standing
            incremental false)) := hpromised
          simp only [touched, hlookup, Option.isSome_some, if_true] at hpromised
          exact (hh.setOneFactionReputation hrelogs.lists he standing incremental
            (Finset.mem_singleton_self _) hpromised).1
    | swapFactionReputation fromId toId =>
      simp only [Reputation.sessionStep, step, ReputationMgr.swapFactionReputation]
      cases hfrom : env.store.lookupEntry fromId with
      | none => exact hh
      | some fromEntry =>
        cases hto : env.store.lookupEntry toId with
        | none => exact hh
        | some toEntry =>
          obtain ⟨hmem, rfl⟩ := lookupEntry_eq_some.mp hfrom
          obtain ⟨hmem', rfl⟩ := lookupEntry_eq_some.mp hto
          replace hpromised : Undeleted s.mgr (touched env (.swapFactionReputation fromEntry.id
            toEntry.id)) := hpromised
          simp only [touched, hfrom, hto, Option.isSome_some, Bool.and_self, if_true] at hpromised
          obtain ⟨hh', hkept⟩ := hh.setOneFactionReputation hrelogs.lists hmem
            (s.mgr.getReputation env toEntry) false (by simp) hpromised
          exact (hh'.setOneFactionReputation hrelogs.lists hmem'
            (s.mgr.getReputation env fromEntry) false (by simp) hkept).1
    | dropFactionReputation factionId => exact hh.dropFactionReputation hpromised
    | setVisible factionId =>
      simp only [Reputation.sessionStep, step]
      cases hlookup : env.store.lookupEntry factionId with
      | none => exact hh
      | some e =>
        obtain ⟨he, rfl⟩ := lookupEntry_eq_some.mp hlookup
        exact hh.setVisible hrelogs.lists he hpromised
    | setTemplateVisible faction =>
      simp only [Reputation.sessionStep, step]
      rw [ReputationMgr.setTemplateVisible]
      split
      · exact hh
      · split
        · exact hh
        · next e hlookup =>
          obtain ⟨he, rfl⟩ := lookupEntry_eq_some.mp hlookup
          split
          · exact hh
          · next hteam =>
            refine hh.setVisible hrelogs.lists he fun k f hf hid hbecomes =>
              hpromised k f hf hid hbecomes fun e' he' hid' => ?_
            cases (lookupEntry_eq_some.mpr ⟨he', hid'⟩).symm.trans hlookup
            simpa using hteam
    | setAtWar repListID on => exact hh.setAtWar hpromised
    | setInactive repListID on => exact hh.setInactive hpromised

/-- **In a run whose steps all meet their condition, reputation survives a relog in every state.** -/
theorem survives_of_promised (hrelogs : env.Relogs) (rows : ReputationRows) {ops : List SessionOp}
    (hpromised : AllAlong (sessionStep env) (Promised env) (login env rows) ops) :
    ∀ l, l <+: ops → Survives env (l.foldl (sessionStep env) (login env rows)) := by
  rintro l ⟨rest, rfl⟩
  have keeps : ∀ s op, Held env s → Promised env s op → Held env (sessionStep env s op) :=
    fun _ _ hh hp => hh.sessionStep hrelogs hp
  have hheld := foldl_keeps_of_allAlong keeps (held_login hrelogs rows)
    (allAlong_append.mp hpromised).1
  exact hheld.survives hrelogs

/-! ## Dropped and gained again -/

theorem relogs_human : human.Relogs where
  lists := regular_human.lists
  ids e he _ := by
    cases List.mem_singleton.mp he
    decide
  hostile e he _ h := by
    cases List.mem_singleton.mp he
    exact absurd h (by decide)

/-- A player's row of the one faction. -/
def storedRow : ReputationRows := (∅ : ReputationRows).insert 72 ⟨5000, 0x01⟩

/-- War, peace and a drop, each saved before the next. -/
theorem survives_of_promised_human : human.Relogs ∧ ∀ l,
    l <+: [.call (.setAtWar 19 true) rfl, .saveToDB, .call (.setAtWar 19 false) rfl, .saveToDB,
      .call (.dropFactionReputation 19) rfl, .saveToDB] →
    Survives human (l.foldl (sessionStep human) (login human storedRow)) := by
  refine ⟨relogs_human, ?_⟩
  exact survives_of_promised relogs_human storedRow
    ⟨fun f hf _ _ => by
        cases hf
        exact ⟨rfl, fun h => (nomatch h)⟩,
      trivial,
      fun f hf _ _ => by
        cases hf
        exact ⟨rfl, fun _ => ⟨by decide, by decide⟩⟩,
      trivial,
      fun f hf => by
        cases hf
        exact ⟨rfl, by decide⟩,
      trivial, trivial⟩

/-- The faction is dropped and its reputation set again. `SaveToDB` deletes the row, and the login after
it has lost what was gained. -/
theorem gained_is_lost : ¬ Survives human
    ([.call (.dropFactionReputation 19) rfl, .call (.setReputation 72 42000 false false) rfl].foldl
      (sessionStep human) (login human storedRow)) :=
  fun h => absurd (h.restores 19) (by decide)

end Sunstrider.Reputation
