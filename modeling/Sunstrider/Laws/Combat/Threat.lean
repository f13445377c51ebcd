import Sunstrider.Combat.ThreatManager

/-!
# Threat references are stored consistently, and the heaps stay well structured

`ThreatState.WF` says that the three containers of a threat reference agree: the owner's map, the
owner's sorted list and the victim's map hold the same live references, and the cached pointers of
a manager are entries of its list.

`ThreatState.Good` is about the sorted lists: every heap is well structured by the keys of now, and
every notice that a heap was given was true of the key it reported.

An operation that changes values only leaves the containers alone (`SameLists`). `Evolves` is the
specification of such an operation: the containers are the same, the state stays well formed, and
a good state stays good. All value operations come down to `writeNotify_good`, which asks for one
thing of the method, that its notice agrees with the two keys.
-/

namespace Sunstrider.Combat

open Sunstrider.Lib (MutableHeap Rounding Direction Yields)

variable {U : Type} {H : MutableHeap RefId ThreatKey}

namespace ThreatState

/-! ## Reading the state -/

/-- The units at the two ends of a reference. -/
def ends (t : ThreatState H U) (id : RefId) : Option (U × U) :=
  (t.refs id).map fun r => (r.owner, r.victim)

variable {o : U}

section Reading

variable {R : Rounding} {t : ThreatState H U} {id : RefId} {r r' : ThreatReference U}

theorem ends_eq_some {v : U} :
    t.ends id = some (o, v) ↔ ∃ r, t.refs id = some r ∧ r.owner = o ∧ r.victim = v := by
  simp [ends]

theorem deref_eq (h : t.refs id = some r) : t.deref id = .ok r := by
  simp [deref, h]

theorem deref_bind {β : Type} (h : t.refs id = some r) (f : ThreatReference U → Except Fault β) :
    (t.deref id >>= f) = f r := by
  rw [deref_eq h]
  rfl

theorem key_eq (h : t.refs id = some r) : t.key R id = r.key R := by
  simp [key, h]

theorem key_setRef_of_ne {i : RefId} (h : i ≠ id) : (t.setRef id r').key R i = t.key R i := by
  simp only [key, setRef, Function.update_of_ne h]

theorem key_setRef_self : (t.setRef id r').key R id = r'.key R :=
  key_eq (Function.update_self _ _ _)

end Reading

/-- Nothing was put into a container or taken out of one. -/
structure SameLists (t t' : ThreatState H U) : Prop where
  myRefs : ∀ u, t'.myRefs u = t.myRefs u
  byMeRefs : ∀ u, t'.byMeRefs u = t.byMeRefs u
  elems : ∀ u, H.elems (t'.sorted u) = H.elems (t.sorted u)
  ends : ∀ id, t'.ends id = t.ends id
  nextRef : t'.nextRef = t.nextRef

variable {t'' : ThreatState H U}

namespace SameLists

variable {t t' : ThreatState H U}

theorem refl (t : ThreatState H U) : t.SameLists t :=
  ⟨fun _ => rfl, fun _ => rfl, fun _ => rfl, fun _ => rfl, rfl⟩

theorem trans (h : t.SameLists t') (h' : t'.SameLists t'') : t.SameLists t'' where
  myRefs u := (h'.myRefs u).trans (h.myRefs u)
  byMeRefs u := (h'.byMeRefs u).trans (h.byMeRefs u)
  elems u := (h'.elems u).trans (h.elems u)
  ends id := (h'.ends id).trans (h.ends id)
  nextRef := h'.nextRef.trans h.nextRef

theorem live (h : t.SameLists t') {id : RefId} {r : ThreatReference U} (hr : t.refs id = some r) :
    ∃ r', t'.refs id = some r' := by
  obtain ⟨r', hr', -⟩ := ends_eq_some.mp
    ((h.ends id).trans (ends_eq_some.mpr ⟨r, hr, rfl, rfl⟩))
  exact ⟨r', hr'⟩

end SameLists

/-! ## The invariants -/

variable [DecidableEq U]

/-- The reference is an entry of the owner's list. -/
def IsEntry (t : ThreatState H U) (owner : U) (id : RefId) : Prop :=
  ∃ v, (t.myRefs owner).lookup v = some id

/-- The containers agree, and hold exactly the live references. -/
structure WF (t : ThreatState H U) : Prop where
  mirror : ∀ {o v id}, (t.myRefs o).lookup v = some id ↔ (t.byMeRefs v).lookup o = some id
  joins : ∀ {o v id}, (t.myRefs o).lookup v = some id →
    ∃ r, t.refs id = some r ∧ r.owner = o ∧ r.victim = v
  stored : ∀ {id r}, t.refs id = some r → (t.myRefs r.owner).lookup r.victim = some id
  listed : ∀ {o id}, id ∈ H.elems (t.sorted o) ↔ t.IsEntry o id
  current : ∀ {o id}, (t.manager o).currentVictimRef = some id → t.IsEntry o id
  fixate : ∀ {o id}, (t.manager o).fixateRef = some id → t.IsEntry o id
  fresh : ∀ {id}, t.nextRef ≤ id → t.refs id = none

variable (R : Rounding)

/-- The base threat of a reference is a number of the format and not negative, every sorted list is
well structured, and every notice was true. -/
structure Good (t : ThreatState H U) : Prop where
  base : ∀ {id r}, t.refs id = some r → 0 ≤ r.baseAmount ∧ R.Represents r.baseAmount
  ordered : ∀ u, H.Ordered (t.key R) (t.sorted u)
  valid : ∀ n ∈ t.notifications, n.Valid

namespace SameLists

variable {t t' : ThreatState H U}

theorem isEntry (h : t.SameLists t') {id : RefId} : t'.IsEntry o id ↔ t.IsEntry o id := by
  simp [IsEntry, h.myRefs]

/-- The containers still agree. The cached pointers are the caller's concern. -/
theorem wf (h : t.SameLists t') (w : t.WF)
    (hcurrent : ∀ {o id}, (t'.manager o).currentVictimRef = some id → t.IsEntry o id)
    (hfixate : ∀ {o id}, (t'.manager o).fixateRef = some id → t.IsEntry o id) : t'.WF where
  mirror {o v id} := by
    rw [h.myRefs, h.byMeRefs]
    exact w.mirror
  joins {o v id} hl := by
    rw [h.myRefs] at hl
    rw [← ends_eq_some, h.ends, ends_eq_some]
    exact w.joins hl
  stored {id r} hr := by
    obtain ⟨r', hr', ho, hv⟩ := ends_eq_some.mp
      ((h.ends id).symm.trans (ends_eq_some.mpr ⟨r, hr, rfl, rfl⟩))
    rw [h.myRefs, ← ho, ← hv]
    exact w.stored hr'
  listed {o id} := by
    rw [h.elems, h.isEntry]
    exact w.listed
  current hc := h.isEntry.mpr (hcurrent hc)
  fixate hf := h.isEntry.mpr (hfixate hf)
  fresh {id} hid := by
    rw [h.nextRef] at hid
    have hnone : t'.ends id = none := by
      rw [h.ends, ThreatState.ends, w.fresh hid]
      rfl
    simpa only [ThreatState.ends, Option.map_eq_none_iff] using hnone

end SameLists

/-- The containers are the same, and the state is well formed. -/
structure Stays (t t' : ThreatState H U) : Prop where
  lists : t.SameLists t'
  wf : t'.WF

/-- The specification of an operation that changes values only. -/
structure Evolves (t t' : ThreatState H U) : Prop extends t.Stays t' where
  good : t.Good R → t'.Good R

variable {R}

theorem Stays.trans {t t' : ThreatState H U} (h : t.Stays t') (h' : t'.Stays t'') :
    t.Stays t'' := ⟨h.lists.trans h'.lists, h'.wf⟩

theorem Evolves.refl {t : ThreatState H U} (w : t.WF) : t.Evolves R t :=
  ⟨⟨.refl t, w⟩, fun h => h⟩

theorem Evolves.trans {t t' : ThreatState H U} (h : t.Evolves R t') (h' : t'.Evolves R t'') :
    t.Evolves R t'' := ⟨h.toStays.trans h'.toStays, fun g => h'.good (h.good g)⟩

theorem WF.live {t : ThreatState H U} (w : t.WF) {id : RefId} (h : t.IsEntry o id) :
    ∃ r, t.refs id = some r ∧ r.owner = o := by
  obtain ⟨v, hl⟩ := h
  obtain ⟨r, hr, ho, -⟩ := w.joins hl
  exact ⟨r, hr, ho⟩

/-- A live reference is in the sorted list of its owner, and in no other. -/
theorem WF.mem_sorted {t : ThreatState H U} (w : t.WF) {id : RefId} {r : ThreatReference U}
    (hr : t.refs id = some r) (u : U) : id ∈ H.elems (t.sorted u) ↔ u = r.owner := by
  rw [w.listed]
  constructor
  · intro h
    obtain ⟨r', hr', ho⟩ := w.live h
    rw [hr] at hr'
    cases hr'
    exact ho.symm
  · rintro rfl
    exact ⟨r.victim, w.stored hr⟩

/-! ## One change of one reference -/

section WriteNotify

variable {t : ThreatState H U} {id : RefId} {r r' : ThreatReference U} {d : Direction}

theorem refs_writeNotify :
    (t.writeNotify R id r r' d).refs = Function.update t.refs id (some r') := rfl

theorem manager_writeNotify (u : U) : (t.writeNotify R id r r' d).manager u =
    if u = r'.owner then
      { t.manager u with
        sortedThreatList := H.notify d ((t.setRef id r').key R) (t.sorted u) id }
    else t.manager u := by
  simp only [writeNotify, modifyManager, setRef, sorted, Function.update_apply]
  split
  · next h => rw [h]
  · rfl

theorem manager_writeNotify_field {β : Type} (f : ThreatManager H U → β) (u : U)
    (hf : ∀ m s, f { m with sortedThreatList := s } = f m) :
    f ((t.writeNotify R id r r' d).manager u) = f (t.manager u) := by
  rw [manager_writeNotify]
  split
  · exact hf _ _
  · rfl

theorem writeNotify_stays (w : t.WF) (hr : t.refs id = some r) (ho : r'.owner = r.owner)
    (hv : r'.victim = r.victim) : t.Stays (t.writeNotify R id r r' d) := by
  have hlists : t.SameLists (t.writeNotify R id r r' d) := by
    refine ⟨fun u => ?_, fun u => ?_, fun u => ?_, fun i => ?_, rfl⟩
    · exact manager_writeNotify_field (·.myThreatListEntries) u fun _ _ => rfl
    · exact manager_writeNotify_field (·.threatenedByMe) u fun _ _ => rfl
    · rw [sorted, manager_writeNotify]
      split
      · next hu =>
        subst hu
        exact H.elems_notify d _ _ ((w.mem_sorted hr _).mpr ho)
      · rfl
    · rw [ends, refs_writeNotify]
      by_cases hi : i = id
      · subst hi
        simp only [ends, hr, Function.update_self, Option.map_some, ho, hv]
      · rw [Function.update_of_ne hi]
        rfl
  refine ⟨hlists, hlists.wf w (fun hc => w.current ?_) (fun hf => w.fixate ?_)⟩
  · rw [manager_writeNotify_field (·.currentVictimRef) _ fun _ _ => rfl] at hc
    exact hc
  · rw [manager_writeNotify_field (·.fixateRef) _ fun _ _ => rfl] at hf
    exact hf

theorem writeNotify_good (w : t.WF) (hr : t.refs id = some r) (ho : r'.owner = r.owner)
    (g : t.Good R) (hbase : 0 ≤ r'.baseAmount ∧ R.Represents r'.baseAmount)
    (hagrees : d.Agrees (r.key R) (r'.key R)) : (t.writeNotify R id r r' d).Good R := by
  refine ⟨fun {i s} hs => ?_, fun u => ?_, fun n hn => ?_⟩
  · rw [refs_writeNotify] at hs
    by_cases hi : i = id
    · subst hi
      rw [Function.update_self] at hs
      cases hs
      exact hbase
    · rw [Function.update_of_ne hi] at hs
      exact g.base hs
  · -- the owner's heap is told of the one key that moved; the other heaps do not hold it
    show H.Ordered ((t.setRef id r').key R) _
    rw [sorted, manager_writeNotify]
    split
    next hu =>
      subst hu
      have hmem : id ∈ H.elems (t.sorted r'.owner) := (w.mem_sorted hr _).mpr ho
      refine H.ordered_notify (g.ordered _) hmem ?_ fun b _ hb => key_setRef_of_ne hb
      rw [key_eq hr, key_setRef_self]
      exact hagrees
    next hu =>
      refine H.ordered_congr _ _ _ (fun b hb => ?_) (g.ordered u)
      refine (key_setRef_of_ne ?_).symm
      rintro rfl
      exact hu (((w.mem_sorted hr u).mp hb).trans ho.symm)
  · rcases List.mem_cons.mp hn with rfl | hn
    · exact hagrees
    · exact g.valid n hn

theorem writeNotify_evolves (w : t.WF) (hr : t.refs id = some r) (ho : r'.owner = r.owner)
    (hv : r'.victim = r.victim) (hbase : r'.baseAmount = r.baseAmount)
    (hagrees : d.Agrees (r.key R) (r'.key R)) : t.Evolves R (t.writeNotify R id r r' d) := by
  refine ⟨writeNotify_stays w hr ho hv, fun g => writeNotify_good w hr ho g ?_ hagrees⟩
  rw [hbase]
  exact g.base hr

end WriteNotify

theorem modifyManager_evolves {t : ThreatState H U} (w : t.WF) (u : U)
    {f : ThreatManager H U → ThreatManager H U}
    (hmine : ∀ m, (f m).myThreatListEntries = m.myThreatListEntries)
    (hby : ∀ m, (f m).threatenedByMe = m.threatenedByMe)
    (hsorted : ∀ m, (f m).sortedThreatList = m.sortedThreatList)
    (hcurrent : ∀ id, (f (t.manager u)).currentVictimRef = some id → t.IsEntry u id)
    (hfixate : ∀ id, (f (t.manager u)).fixateRef = some id → t.IsEntry u id) :
    t.Evolves R (t.modifyManager u f) := by
  have field : ∀ {β : Type} (g : ThreatManager H U → β), (∀ m, g (f m) = g m) →
      ∀ v, g ((t.modifyManager u f).manager v) = g (t.manager v) := by
    intro β g hg v
    simp only [modifyManager, Function.update_apply]
    split
    · next h => rw [hg, h]
    · rfl
  have hlists : t.SameLists (t.modifyManager u f) := by
    refine ⟨field _ hmine, field _ hby, fun v => ?_, fun _ => rfl, rfl⟩
    exact congrArg H.elems (field _ hsorted v)
  refine ⟨⟨hlists, hlists.wf w (fun {o id} hc => ?_) (fun {o id} hf => ?_)⟩, fun g => ?_⟩
  · simp only [modifyManager, Function.update_apply] at hc
    split at hc
    · next h =>
      subst h
      exact hcurrent id hc
    · exact w.current hc
  · simp only [modifyManager, Function.update_apply] at hf
    split at hf
    · next h =>
      subst h
      exact hfixate id hf
    · exact w.fixate hf
  · refine ⟨g.base, fun v => ?_, g.valid⟩
    have := g.ordered v
    rw [sorted, ← field (·.sortedThreatList) hsorted v] at this
    exact this

theorem needClientUpdate_evolves {t : ThreatState H U} (R : Rounding) (w : t.WF) (u : U) :
    t.Evolves R (t.needClientUpdate u) :=
  modifyManager_evolves w u (fun _ => rfl) (fun _ => rfl) (fun _ => rfl) (fun _ hc => w.current hc)
    fun _ hf => w.fixate hf

theorem Evolves.needClientUpdate {t t' : ThreatState H U} (h : t.Evolves R t') (u : U) :
    t.Evolves R (t'.needClientUpdate u) := h.trans (needClientUpdate_evolves R h.wf u)

end ThreatState

end Sunstrider.Combat
