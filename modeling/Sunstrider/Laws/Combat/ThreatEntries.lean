import Sunstrider.Laws.Combat.ThreatValues
import Sunstrider.Lib.Map

/-!
# Entries that come and go

`Drops` is the specification of the operations that take one entry out. `Within` is the weaker
statement that the combat system asks for: every entry is between units that had an entry before, or
that `New` allows.

The loops of `ClearAllThreat` and `RemoveMeFromThreatLists` end because each round takes an entry
out of the map that they empty.
-/

namespace Sunstrider.Combat.ThreatState

open Sunstrider.Lib (MutableHeap Rounding Yields lookup_erase_ite lookup_insert_ite
  length_lt_of_lookup)

variable {U : Type} [DecidableEq U] {H : MutableHeap RefId ThreatKey} {R : Rounding}

/-! ## Taking an entry out -/

/-- The one entry is gone, and no other. -/
structure Drops (R : Rounding) (t t' : ThreatState H U) (owner victim : U) : Prop where
  myRefs : ∀ o v, (t'.myRefs o).lookup v =
    if o = owner ∧ v = victim then none else (t.myRefs o).lookup v
  wf : t'.WF
  good : t.Good R → t'.Good R

variable {o : U} {i : RefId}

section UnregisterAndFree

variable {t : ThreatState H U} {id : RefId} {r : ThreatReference U}

/-- The state in which `UnregisterAndFree` leaves the managers. -/
private def unregistered (R : Rounding) (t : ThreatState H U) (id : RefId)
    (r : ThreatReference U) : ThreatState H U :=
  { (t.purgeThreatListRef R r.owner r.victim).purgeThreatenedByMeRef r.victim r.owner with
    refs := Function.update t.refs id none }

private theorem unregisterAndFree_eq (hr : t.refs id = some r)
    (hl : (t.myRefs r.owner).lookup r.victim = some id) :
    t.unregisterAndFree R id = .ok (unregistered R t id r) := by
  unfold unregisterAndFree
  rw [deref_bind hr]
  simp only [unregistered, purgeThreatListRef, hl]
  rfl

section

variable (hl : (t.myRefs r.owner).lookup r.victim = some id)

include hl

private theorem manager_unregistered (u : U) :
    (unregistered R t id r).manager u = { t.manager u with
      myThreatListEntries := if u = r.owner then (t.myRefs u).erase r.victim else t.myRefs u
      threatenedByMe := if u = r.victim then (t.byMeRefs u).erase r.owner else t.byMeRefs u
      sortedThreatList := if u = r.owner then H.erase (t.key R) (t.sorted u) id else t.sorted u
      fixateRef := if u = r.owner ∧ (t.manager u).fixateRef = some id then none
        else (t.manager u).fixateRef
      currentVictimRef := if u = r.owner ∧ (t.manager u).currentVictimRef = some id then none
        else (t.manager u).currentVictimRef } := by
  simp only [unregistered, purgeThreatenedByMeRef, purgeThreatListRef, hl, modifyManager,
    Function.update_apply, ite_and]
  by_cases hv : u = r.victim
  · subst hv
    by_cases ho : r.victim = r.owner
    · simp only [if_true, ho]
      rfl
    · simp only [if_true, if_neg ho]
      rfl
  · by_cases ho : u = r.owner
    · subst ho
      simp only [if_neg hv, if_true]
      rfl
    · simp only [if_neg hv, if_neg ho]
      rfl

private theorem myRefs_unregistered (o v : U) : ((unregistered R t id r).myRefs o).lookup v =
      if o = r.owner ∧ v = r.victim then none else (t.myRefs o).lookup v := by
  rw [myRefs, manager_unregistered hl]
  show (if o = r.owner then (t.myRefs o).erase r.victim else t.myRefs o).lookup v = _
  by_cases ho : o = r.owner
  · simp [ho, lookup_erase_ite]
  · rw [if_neg ho, if_neg fun h => ho h.1]

private theorem byMeRefs_unregistered (o v : U) : ((unregistered R t id r).byMeRefs v).lookup o =
      if o = r.owner ∧ v = r.victim then none else (t.byMeRefs v).lookup o := by
  rw [byMeRefs, manager_unregistered hl]
  show (if v = r.victim then (t.byMeRefs v).erase r.owner else t.byMeRefs v).lookup o = _
  by_cases hv : v = r.victim
  · simp [hv, lookup_erase_ite]
  · rw [if_neg hv, if_neg fun h => hv h.2]

end

private theorem isEntry_unregistered (w : t.WF) (hr : t.refs id = some r) :
    (unregistered R t id r).IsEntry o i ↔ t.IsEntry o i ∧ i ≠ id := by
  simp only [IsEntry, myRefs_unregistered (w.stored hr)]
  constructor
  · rintro ⟨v, hl⟩
    split at hl
    · cases hl
    · next hne =>
      refine ⟨⟨v, hl⟩, ?_⟩
      rintro rfl
      obtain ⟨s, hs, ho, hv⟩ := w.joins hl
      rw [hr] at hs
      cases hs
      exact hne ⟨ho.symm, hv.symm⟩
  · rintro ⟨⟨v, hl⟩, hne⟩
    refine ⟨v, ?_⟩
    rw [if_neg]
    · exact hl
    · rintro ⟨rfl, rfl⟩
      rw [w.stored hr] at hl
      exact hne (Option.some.inj hl).symm

/-- A cached pointer of a manager that survives is still an entry. -/
private theorem isEntry_of_cached (w : t.WF) (hr : t.refs id = some r) {c : Option RefId}
    (hc : c = some i → t.IsEntry o i) (h : (if o = r.owner ∧ c = some id then none else c) = some i)
    : (unregistered R t id r).IsEntry o i := by
  split at h
  · cases h
  · next hn =>
    refine (isEntry_unregistered w hr).mpr ⟨hc h, ?_⟩
    rintro rfl
    exact hn ⟨(w.mem_sorted hr o).mp (w.listed.mpr (hc h)), h⟩

private theorem unregistered_wf (w : t.WF) (hr : t.refs id = some r) :
    (unregistered R t id r).WF where
  mirror {o v i} := by
    rw [myRefs_unregistered (w.stored hr), byMeRefs_unregistered (w.stored hr)]
    split
    · exact Iff.rfl
    · exact w.mirror
  joins {o v i} hl := by
    have hne : i ≠ id := ((isEntry_unregistered w hr).mp ⟨v, hl⟩).2
    rw [myRefs_unregistered (w.stored hr)] at hl
    split at hl
    · cases hl
    · obtain ⟨s, hs, he⟩ := w.joins hl
      exact ⟨s, (Function.update_of_ne hne _ _).trans hs, he⟩
  stored {i s} hs := by
    have hne : i ≠ id := by
      rintro rfl
      simp only [unregistered, Function.update_self] at hs
      cases hs
    have hs' : t.refs i = some s := (Function.update_of_ne hne _ _).symm.trans hs
    rw [myRefs_unregistered (w.stored hr), if_neg]
    · exact w.stored hs'
    · rintro ⟨ho, hv⟩
      have h := w.stored hs'
      rw [ho, hv, w.stored hr] at h
      exact hne (Option.some.inj h).symm
  listed {o i} := by
    rw [isEntry_unregistered w hr, sorted, manager_unregistered (w.stored hr)]
    by_cases ho : o = r.owner
    · simp only [if_pos ho, H.elems_erase, Finset.mem_erase, w.listed]
      exact and_comm
    · simp only [if_neg ho, w.listed]
      refine (and_iff_left_of_imp fun he => ?_).symm
      rintro rfl
      exact ho ((w.mem_sorted hr o).mp (w.listed.mpr he))
  current {o i} hc := by
    rw [manager_unregistered (w.stored hr)] at hc
    exact isEntry_of_cached w hr (fun h => w.current h) hc
  fixate {o i} hf := by
    rw [manager_unregistered (w.stored hr)] at hf
    exact isEntry_of_cached w hr (fun h => w.fixate h) hf
  fresh {i} hi := by
    have hnext : (unregistered R t id r).nextRef = t.nextRef := by
      simp [unregistered, purgeThreatenedByMeRef, purgeThreatListRef, w.stored hr, modifyManager]
    by_cases h : i = id
    · subst h
      exact Function.update_self _ _ _
    · exact (Function.update_of_ne h _ _).trans (w.fresh (hnext ▸ hi))

/-- The heap of the owner is told while the reference still stands, and no heap holds it then. -/
private theorem unregistered_good (w : t.WF) (hr : t.refs id = some r) (g : t.Good R) :
    (unregistered R t id r).Good R := by
  have hlive : ∀ {i s}, (unregistered R t id r).refs i = some s → i ≠ id ∧ t.refs i = some s := by
    intro i s hs
    have hne : i ≠ id := by
      rintro rfl
      simp only [unregistered, Function.update_self] at hs
      cases hs
    exact ⟨hne, (Function.update_of_ne hne _ _).symm.trans hs⟩
  refine ⟨fun hs => g.base (hlive hs).2, fun u => ?_, ?_⟩
  · have hord : H.Ordered (t.key R) ((unregistered R t id r).sorted u) := by
      rw [sorted, manager_unregistered (w.stored hr)]
      show H.Ordered _ (if u = r.owner then _ else _)
      split
      · exact H.ordered_erase _ _ _ (g.ordered u)
      · exact g.ordered u
    refine H.ordered_congr _ _ _ (fun i hi => ?_) hord
    have hne : i ≠ id :=
      ((isEntry_unregistered w hr).mp ((unregistered_wf w hr).listed.mp hi)).2
    simp only [key, unregistered, Function.update_of_ne hne]
  · have hsame : (unregistered R t id r).notifications = t.notifications := by
      simp only [unregistered, purgeThreatenedByMeRef, purgeThreatListRef, w.stored hr,
        modifyManager]
    rw [hsame]
    exact g.valid

/-- One entry is taken out of both maps. -/
theorem unregisterAndFree_spec (w : t.WF) (hr : t.refs id = some r) :
    Yields (t.unregisterAndFree R id) fun t' => t.Drops R t' r.owner r.victim := by
  rw [unregisterAndFree_eq hr (w.stored hr)]
  exact .ok ⟨myRefs_unregistered (w.stored hr), unregistered_wf w hr, unregistered_good w hr⟩

end UnregisterAndFree

variable {t' : ThreatState H U} {owner victim : U}

theorem Drops.evolves {t t'' : ThreatState H U} (h : t.Drops R t' owner victim)
    (h' : t'.Evolves R t'') : t.Drops R t'' owner victim :=
  ⟨fun o v => by rw [h'.lists.myRefs, h.myRefs], h'.wf, fun g => h'.good (h.good g)⟩

theorem clearThreatRef_spec (env : Env U) {t : ThreatState H U} {id : RefId}
    {r : ThreatReference U} (w : t.WF) (hr : t.refs id = some r) (owner : U) :
    Yields (t.clearThreatRef R env owner id) fun t' => t.Drops R t' r.owner r.victim := by
  unfold clearThreatRef
  refine (unregisterAndFree_spec w hr).bind fun t₁ h₁ => ?_
  split
  · exact (updateVictim_spec env h₁.wf owner).mono fun t₂ h₂ => h₁.evolves h₂
  · exact .ok h₁

/-- `ClearThreat` takes out the entry, if there is one. -/
theorem clearThreat_spec (env : Env U) {t : ThreatState H U} (w : t.WF) (owner target : U) :
    Yields (t.clearThreat R env owner target) fun t' => t.Drops R t' owner target := by
  unfold clearThreat
  split
  next hl =>
    refine .ok ⟨fun o v => ?_, w, fun g => g⟩
    split
    · next h => rw [h.1, h.2, hl]
    · rfl
  next id hl =>
    obtain ⟨r, hr, ho, hv⟩ := w.joins hl
    rw [← ho, ← hv]
    exact clearThreatRef_spec env w hr r.owner

/-! ## Entries between units that had one, or may have one -/

/-- No entry is between other units than before, but those that `New` allows. -/
structure Within (R : Rounding) (t t' : ThreatState H U) (New : U → U → Prop) : Prop where
  entries : ∀ {o v id}, (t'.myRefs o).lookup v = some id →
    (∃ id', (t.myRefs o).lookup v = some id') ∨ New o v
  wf : t'.WF
  good : t.Good R → t'.Good R

theorem Within.refl {t : ThreatState H U} (w : t.WF) (New : U → U → Prop) : t.Within R t New :=
  ⟨fun hl => .inl ⟨_, hl⟩, w, fun g => g⟩

theorem Within.trans {t t'' : ThreatState H U} {New : U → U → Prop} (h : t.Within R t' New)
    (h' : t'.Within R t'' New) : t.Within R t'' New where
  entries hl := by
    rcases h'.entries hl with ⟨id, hl'⟩ | hn
    · exact h.entries hl'
    · exact .inr hn
  wf := h'.wf
  good g := h'.good (h.good g)

theorem Evolves.within {t : ThreatState H U} (h : t.Evolves R t') (New : U → U → Prop) :
    t.Within R t' New :=
  ⟨fun hl => .inl ⟨_, h.lists.myRefs _ ▸ hl⟩, h.wf, h.good⟩

/-- What is left was there before. -/
theorem Drops.of_lookup {t : ThreatState H U} {v : U} {id : RefId} (h : t.Drops R t' owner victim)
    (hl : (t'.myRefs o).lookup v = some id) :
    (t.myRefs o).lookup v = some id ∧ ¬ (o = owner ∧ v = victim) := by
  rw [h.myRefs] at hl
  split at hl
  · cases hl
  · next hn => exact ⟨hl, hn⟩

theorem Drops.within {t : ThreatState H U} (h : t.Drops R t' owner victim) (New : U → U → Prop) :
    t.Within R t' New :=
  ⟨fun hl => .inl ⟨_, (h.of_lookup hl).1⟩, h.wf, h.good⟩

theorem Drops.length_myRefs {t : ThreatState H U} {id : RefId} (h : t.Drops R t' owner victim)
    (hl : (t.myRefs owner).lookup victim = some id) :
    (t'.myRefs owner).entries.length < (t.myRefs owner).entries.length :=
  length_lt_of_lookup hl (by rw [h.myRefs, if_pos ⟨rfl, rfl⟩])
    fun _ _ hl' => ⟨_, (h.of_lookup hl').1⟩

theorem Drops.length_byMeRefs {t : ThreatState H U} {id : RefId} (h : t.Drops R t' owner victim)
    (w : t.WF) (hl : (t.byMeRefs victim).lookup owner = some id) :
    (t'.byMeRefs victim).entries.length < (t.byMeRefs victim).entries.length := by
  refine length_lt_of_lookup hl ?_ fun o i hl' => ?_
  · cases hl' : (t'.byMeRefs victim).lookup owner with
    | none => rfl
    | some i => exact absurd ⟨rfl, rfl⟩ (h.of_lookup (h.wf.mirror.mpr hl')).2
  · exact ⟨i, w.mirror.mp (h.of_lookup (h.wf.mirror.mpr hl')).1⟩

theorem head_visit {env : Env U} {m : RefMap U} {p : Sigma fun _ : U => RefId}
    (h : (env.visit m).head? = some p) : m.lookup p.1 = some p.2 :=
  env.mem_visit.mp (List.mem_of_mem_head? h)

/-- Every round takes out the first entry, so the loop ends, and no entry is new. -/
theorem clearAllThreat_spec (env : Env U) {t : ThreatState H U} (w : t.WF) (owner : U) :
    Yields (t.clearAllThreat R env owner) fun t' => t.Within R t' fun _ _ => False := by
  let t₁ := t.modifyManager owner fun m => { m with ownerEngaged := false }
  have h₁ : t.Evolves R t₁ :=
    modifyManager_evolves w owner (fun _ => rfl) (fun _ => rfl) (fun _ => rfl)
      (fun _ hc => w.current hc) fun _ hf => w.fixate hf
  refine (Yields.drain (fun t' => t.Within R t' fun _ _ => False)
    (fun t' => (t'.myRefs owner).entries.length) ?_ _ (h₁.within _) ?_).mono fun _ h => h.1
  · intro t' pair h hfirst
    have hl := head_visit hfirst
    obtain ⟨r, hr, rfl, hv⟩ := h.wf.joins hl
    rw [← hv] at hl
    refine (unregisterAndFree_spec h.wf hr).mono fun t'' h' => ?_
    exact ⟨h.trans (h'.within _), h'.length_myRefs hl⟩
  · rw [h₁.lists.myRefs]

/-- The same of the lists that the unit is on. -/
theorem removeMeFromThreatLists_spec (env : Env U) {t : ThreatState H U} (w : t.WF) (owner : U) :
    Yields (t.removeMeFromThreatLists R env owner) fun t' => t.Within R t' fun _ _ => False := by
  refine (Yields.drain (fun t' => t.Within R t' fun _ _ => False)
    (fun t' => (t'.byMeRefs owner).entries.length) ?_ _ (.refl w _) (le_refl _)).mono fun _ h => h.1
  intro t' pair h hfirst
  have hl := head_visit hfirst
  obtain ⟨r, hr, ho, -⟩ := h.wf.joins (h.wf.mirror.mpr hl)
  rw [← ho] at hl
  show Yields (t'.deref pair.2 >>= _) _
  rw [deref_bind hr]
  refine (clearThreat_spec env h.wf r.owner owner).mono fun t'' h' => ?_
  exact ⟨h.trans (h'.within _), h'.length_byMeRefs h.wf hl⟩

/-! ## Putting an entry in -/

/-- The state of `AddThreat` with its new reference in all three containers. -/
private def registered (R : Rounding) (t : ThreatState H U) (r : ThreatReference U) :
    ThreatState H U :=
  let t₁ : ThreatState H U :=
    { t with refs := Function.update t.refs t.nextRef (some r), nextRef := t.nextRef + 1 }
  let t₂ := t₁.modifyManager r.owner fun m =>
    { m with
      needClientUpdate := true
      myThreatListEntries := m.myThreatListEntries.insert r.victim t.nextRef
      sortedThreatList := H.push (t₁.key R) m.sortedThreatList t.nextRef }
  t₂.modifyManager r.victim fun m =>
    { m with threatenedByMe := m.threatenedByMe.insert r.owner t.nextRef }

section Registered

variable {t : ThreatState H U} {r : ThreatReference U}

private theorem manager_registered (u : U) : (registered R t r).manager u = { t.manager u with
    needClientUpdate := if u = r.owner then true else (t.manager u).needClientUpdate
    myThreatListEntries :=
      if u = r.owner then (t.myRefs u).insert r.victim t.nextRef else t.myRefs u
    threatenedByMe :=
      if u = r.victim then (t.byMeRefs u).insert r.owner t.nextRef else t.byMeRefs u
    sortedThreatList :=
      if u = r.owner then H.push ((registered R t r).key R) (t.sorted u) t.nextRef
      else t.sorted u } := by
  simp only [registered, modifyManager, Function.update_apply]
  by_cases hv : u = r.victim
  · subst hv
    by_cases ho : r.victim = r.owner
    · simp only [if_true, ho]
      rfl
    · simp only [if_true, if_neg ho]
      rfl
  · by_cases ho : u = r.owner
    · subst ho
      simp only [if_neg hv, if_true]
      rfl
    · simp only [if_neg hv, if_neg ho]
      rfl

private theorem myRefs_registered (o v : U) : ((registered R t r).myRefs o).lookup v =
    if o = r.owner ∧ v = r.victim then some t.nextRef else (t.myRefs o).lookup v := by
  rw [myRefs, manager_registered]
  show (if o = r.owner then (t.myRefs o).insert r.victim t.nextRef else t.myRefs o).lookup v = _
  by_cases ho : o = r.owner
  · simp [ho, lookup_insert_ite]
  · rw [if_neg ho, if_neg fun h => ho h.1]

private theorem byMeRefs_registered (o v : U) : ((registered R t r).byMeRefs v).lookup o =
    if o = r.owner ∧ v = r.victim then some t.nextRef else (t.byMeRefs v).lookup o := by
  rw [byMeRefs, manager_registered]
  show (if v = r.victim then (t.byMeRefs v).insert r.owner t.nextRef else t.byMeRefs v).lookup o = _
  by_cases hv : v = r.victim
  · simp [hv, lookup_insert_ite]
  · rw [if_neg hv, if_neg fun h => hv h.2]

private theorem isEntry_registered (hnone : (t.myRefs r.owner).lookup r.victim = none) :
    (registered R t r).IsEntry o i ↔ t.IsEntry o i ∨ o = r.owner ∧ i = t.nextRef := by
  simp only [IsEntry, myRefs_registered]
  constructor
  · rintro ⟨v, hl⟩
    split at hl
    · next h =>
      cases hl
      exact .inr ⟨h.1, rfl⟩
    · exact .inl ⟨v, hl⟩
  · rintro (⟨v, hl⟩ | ⟨rfl, rfl⟩)
    · refine ⟨v, ?_⟩
      rw [if_neg]
      · exact hl
      · rintro ⟨rfl, rfl⟩
        rw [hnone] at hl
        cases hl
    · exact ⟨r.victim, if_pos ⟨rfl, rfl⟩⟩

private theorem refs_registered :
    (registered R t r).refs = Function.update t.refs t.nextRef (some r) := rfl

theorem WF.ne_nextRef {t : ThreatState H U} (w : t.WF) {id : RefId} {r : ThreatReference U}
    (hr : t.refs id = some r) : id ≠ t.nextRef := by
  rintro rfl
  rw [w.fresh (le_refl _)] at hr
  cases hr

private theorem registered_wf (w : t.WF) (hnone : (t.myRefs r.owner).lookup r.victim = none) :
    (registered R t r).WF where
  mirror {o v i} := by
    rw [myRefs_registered, byMeRefs_registered]
    split
    · exact Iff.rfl
    · exact w.mirror
  joins {o v i} hl := by
    rw [myRefs_registered] at hl
    rw [refs_registered]
    split at hl
    · next h =>
      cases hl
      exact ⟨r, Function.update_self _ _ _, h.1.symm, h.2.symm⟩
    · obtain ⟨s, hs, he⟩ := w.joins hl
      exact ⟨s, (Function.update_of_ne (w.ne_nextRef hs) _ _).trans hs, he⟩
  stored {i s} hs := by
    rw [refs_registered] at hs
    rw [myRefs_registered]
    by_cases hi : i = t.nextRef
    · subst hi
      rw [Function.update_self] at hs
      cases hs
      exact if_pos ⟨rfl, rfl⟩
    · rw [Function.update_of_ne hi] at hs
      rw [if_neg]
      · exact w.stored hs
      · rintro ⟨ho, hv⟩
        have hl := w.stored hs
        rw [ho, hv, hnone] at hl
        cases hl
  listed {o i} := by
    rw [isEntry_registered hnone, sorted, manager_registered]
    show i ∈ H.elems (if o = r.owner then _ else _) ↔ _
    by_cases ho : o = r.owner
    · simp only [ho, if_true, H.elems_push, Finset.mem_insert, w.listed, true_and]
      exact or_comm
    · simp [ho, w.listed]
  current {o i} hc := by
    rw [manager_registered] at hc
    exact (isEntry_registered hnone).mpr (.inl (w.current hc))
  fixate {o i} hf := by
    rw [manager_registered] at hf
    exact (isEntry_registered hnone).mpr (.inl (w.fixate hf))
  fresh {i} hi := by
    have hi' : t.nextRef + 1 ≤ i := hi
    rw [refs_registered, Function.update_of_ne (Nat.lt_of_succ_le hi').ne']
    exact w.fresh (Nat.le_of_succ_le hi')

private theorem registered_good (w : t.WF) (g : t.Good R) (hbase : r.baseAmount = 0) :
    (registered R t r).Good R := by
  -- the keys of the references that the heaps hold are as before
  have hold : ∀ u, H.Ordered ((registered R t r).key R) (t.sorted u) := fun u => by
    refine H.ordered_congr _ _ _ (fun i hi => ?_) (g.ordered u)
    obtain ⟨s, hs, -⟩ := w.live (w.listed.mp hi)
    simp only [key, refs_registered, Function.update_of_ne (w.ne_nextRef hs)]
  refine ⟨fun {i s} hs => ?_, fun u => ?_, g.valid⟩
  · rw [refs_registered] at hs
    by_cases hi : i = t.nextRef
    · subst hi
      rw [Function.update_self] at hs
      cases hs
      rw [hbase]
      exact ⟨le_refl 0, R.represents_zero⟩
    · rw [Function.update_of_ne hi] at hs
      exact g.base hs
  · rw [sorted, manager_registered]
    show H.Ordered _ (if u = r.owner then _ else _)
    split
    · refine H.ordered_push _ _ _ (hold u) fun hi => ?_
      obtain ⟨s, hs, -⟩ := w.live (w.listed.mp hi)
      exact w.ne_nextRef hs rfl
    · exact hold u

end Registered

theorem putThreatListRef_eq {t : ThreatState H U} {u guid : U} {id : RefId}
    (hnone : (t.myRefs u).lookup guid = none) :
    t.putThreatListRef R u guid id = .ok (t.modifyManager u fun m =>
      { m with
        needClientUpdate := true
        myThreatListEntries := m.myThreatListEntries.insert guid id
        sortedThreatList := H.push (t.key R) m.sortedThreatList id }) := by
  unfold putThreatListRef
  rw [if_neg]
  rw [hnone]
  exact Bool.false_ne_true

theorem putThreatenedByMeRef_eq {t : ThreatState H U} {u guid : U} {id : RefId}
    (hnone : (t.byMeRefs u).lookup guid = none) :
    t.putThreatenedByMeRef u guid id = .ok (t.modifyManager u fun m =>
      { m with threatenedByMe := m.threatenedByMe.insert guid id }) := by
  unfold putThreatenedByMeRef
  rw [if_neg]
  rw [hnone]
  exact Bool.false_ne_true

/-- The new entry of `AddThreat`, as it is registered. -/
def freshReference (env : Env U) (owner target : U) : ThreatReference U :=
  let r : ThreatReference U := ⟨owner, target, .offline, 0, 0, tauntStateNone⟩
  { r with online := r.onlineState env }

/-- Neither map has an entry where the new one goes, so it is registered in both. What is left of
`AddThreat` is its first threat, and the engagement of the owner. -/
theorem newEntry_eq (env : Env U) {t : ThreatState H U} (w : t.WF) (owner target : U) (amount : ℚ)
    (hnone : (t.myRefs owner).lookup target = none) :
    ∃ t₁ : ThreatState H U, (t.Within R t₁ fun o v => o = owner ∧ v = target) ∧
      (t₁.myRefs owner).lookup target = some t.nextRef ∧
      t₁.refs t.nextRef = some (freshReference env owner target) ∧
      t.newEntry R env owner target amount = t₁.refUpdateOffline R env t.nextRef >>= fun t₂ =>
        t₂.deref t.nextRef >>= fun r =>
          (if r.isOnline then t₂.refAddThreat R t.nextRef amount else .ok t₂) >>= fun t₃ =>
            if (t₃.manager owner).ownerEngaged then .ok t₃
            else (t₃.modifyManager owner fun m => { m with ownerEngaged := true }).updateVictim R env
              owner := by
  let r : ThreatReference U := freshReference env owner target
  have hwf : (registered R t r).WF := registered_wf w hnone
  have hwithin : t.Within R (registered R t r) fun o v => o = owner ∧ v = target := by
    refine ⟨fun {o v id} hl => ?_, hwf, fun g => registered_good w g rfl⟩
    rw [myRefs_registered] at hl
    split at hl
    · next h => exact .inr h
    · exact .inl ⟨id, hl⟩
  let t₁ : ThreatState H U :=
    { t with refs := Function.update t.refs t.nextRef (some r), nextRef := t.nextRef + 1 }
  let t₂ := t₁.modifyManager owner fun m =>
    { m with
      needClientUpdate := true
      myThreatListEntries := m.myThreatListEntries.insert target t.nextRef
      sortedThreatList := H.push (t₁.key R) m.sortedThreatList t.nextRef }
  have hput₁ : t₁.putThreatListRef R owner target t.nextRef = .ok t₂ := putThreatListRef_eq hnone
  have hby : (t₂.byMeRefs target).lookup owner = none := by
    have hsame : t₂.byMeRefs target = t.byMeRefs target := by
      simp only [t₂, t₁, byMeRefs, modifyManager, Function.update_apply]
      split
      · next h => rw [h]
      · rfl
    rw [hsame]
    cases hl : (t.byMeRefs target).lookup owner with
    | none => rfl
    | some i =>
      rw [w.mirror.mpr hl] at hnone
      cases hnone
  have hput₂ : t₂.putThreatenedByMeRef target owner t.nextRef = .ok (registered R t r) :=
    putThreatenedByMeRef_eq hby
  refine ⟨registered R t r, hwithin, ?_, Function.update_self _ _ _, ?_⟩
  · rw [myRefs_registered]
    exact if_pos ⟨rfl, rfl⟩
  · unfold newEntry
    show (t₁.putThreatListRef R owner target t.nextRef >>= _) = _
    rw [hput₁]
    show (t₂.putThreatenedByMeRef target owner t.nextRef >>= _) = _
    rw [hput₂]
    rfl

/-- The new entry is the only one. -/
theorem newEntry_spec (env : Env U) {t : ThreatState H U} (w : t.WF) (owner target : U)
    (amount : ℚ) (hnone : (t.myRefs owner).lookup target = none) :
    Yields (t.newEntry R env owner target amount) fun t' =>
      t.Within R t' fun o v => o = owner ∧ v = target := by
  obtain ⟨t₁, hwithin, -, hr, heq⟩ := newEntry_eq (R := R) env w owner target amount hnone
  rw [heq]
  refine (refUpdateOffline_spec env hwithin.wf hr).bind fun t₃ h₃ => ?_
  obtain ⟨r₃, hr₃⟩ := h₃.lists.live hr
  rw [deref_bind hr₃]
  have hadd : Yields (if r₃.isOnline then t₃.refAddThreat R t.nextRef amount else .ok t₃)
      (t₃.Evolves R) := by
    split
    · exact refAddThreat_spec h₃.wf hr₃ amount
    · exact .ok (.refl h₃.wf)
  refine hadd.bind fun t₄ h₄ => ?_
  have hwithin₄ := hwithin.trans ((h₃.trans h₄).within _)
  split
  · exact .ok hwithin₄
  · have h₅ : t₄.Evolves R (t₄.modifyManager owner fun m => { m with ownerEngaged := true }) :=
      modifyManager_evolves h₄.wf owner (fun _ => rfl) (fun _ => rfl) (fun _ => rfl)
        (fun _ hc => h₄.wf.current hc) fun _ hf => h₄.wf.fixate hf
    refine (updateVictim_spec env h₅.wf owner).mono fun t₆ h₆ => ?_
    exact hwithin₄.trans ((h₅.trans h₆).within _)

/-- Threat is added to an entry that is there. -/
theorem addToEntry_spec (env : Env U) {t : ThreatState H U} {id : RefId} {r : ThreatReference U}
    (w : t.WF) (hr : t.refs id = some r) (amount : ℚ) :
    Yields (t.addToEntry R env id amount) (t.Evolves R) := by
  unfold addToEntry
  rw [deref_bind hr]
  let t₁ := if r.isSuppressed && !r.shouldBeSuppressed env then
    t.writeNotify R id r { r with online := .online } .increased else t
  have h₁ : t.Evolves R t₁ := by
    by_cases h : (r.isSuppressed && !r.shouldBeSuppressed env) = true
    · rw [show t₁ = _ from if_pos h]
      have hsup : r.online = .suppressed := by
        simp only [ThreatReference.isSuppressed, Bool.and_eq_true, beq_iff_eq] at h
        exact h.1
      refine writeNotify_evolves w hr rfl rfl rfl (ThreatReference.key_le_of_online ?_)
      rw [hsup]
      exact Nat.one_lt_two
    · rw [show t₁ = _ from if_neg h]
      exact .refl w
  obtain ⟨r₁, hr₁⟩ := h₁.lists.live hr
  show Yields (t₁.deref id >>= _) _
  rw [deref_bind hr₁]
  split
  · exact (refAddThreat_spec h₁.wf hr₁ amount).mono fun t₂ h₂ => h₁.trans h₂
  · exact .ok h₁

end Sunstrider.Combat.ThreatState
