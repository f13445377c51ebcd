import Sunstrider.Combat.CombatManager
import Sunstrider.Lib.Run

/-!
# Combat references are symmetric, and the combat flag is exact

Two invariants of the combat side, and what each operation does to them.

`CombatState.WF` is the shape of the two maps: an entry points to a live reference between the two
units it stands for, the other unit's map of the same kind holds the same pointer, and no pair of
units is in maps of both kinds.

`CombatState.FlagsBut` is the cache: `UNIT_FLAG_IN_COMBAT` says whether the unit has a reference
that is not suppressed for it, for all units but the stale ones. An operation changes references
and so makes flags stale; each `UpdateOwnerCombatState` removes one unit from the stale ones
(`updateOwnerCombatState_spec`). Every operation ends with no stale flag.

Both are carried together as `CombatState.Inv`. The specifications also say what happens to the
entries, for the threat system: `Keeps` where no entry is lost.
-/

namespace Sunstrider.Combat

open Sunstrider.Lib (Yields)

variable {U : Type} [DecidableEq U]

namespace CombatReference

/-- The two references stand between the same units, in the same kind. -/
structure SameEnds (r r' : CombatReference U) : Prop where
  first : r'.first = r.first
  second : r'.second = r.second
  isPvP : r'.isPvP = r.isPvP

theorem suppress_sameEnds (r : CombatReference U) (who : U) : r.SameEnds (r.suppress who) := by
  unfold suppress
  split
  · exact ⟨rfl, rfl, rfl⟩
  · exact ⟨rfl, rfl, rfl⟩

theorem update_sameEnds {r r' : CombatReference U} {tdiff : ℕ} (h : r.update tdiff = some r') :
    r.SameEnds r' ∧ ∀ v, r'.isSuppressedFor v = r.isSuppressedFor v := by
  unfold update at h
  split at h
  · cases h
  · cases h
    exact ⟨⟨rfl, rfl, rfl⟩, fun _ => rfl⟩

/-- Suppression is per side: the other unit of the reference does not notice. -/
theorem isSuppressedFor_suppress {r : CombatReference U} {who v : U}
    (hwho : who = r.first ∨ who = r.second) (hv : v = r.first ∨ v = r.second) (hne : v ≠ who) :
    (r.suppress who).isSuppressedFor v = r.isSuppressedFor v := by
  rcases hwho with rfl | rfl <;> rcases hv with rfl | rfl
  · exact absurd rfl hne
  · simp only [suppress, isSuppressedFor, if_true, if_neg hne]
  · simp only [suppress, isSuppressedFor, if_true, if_neg (Ne.symm hne)]
  · exact absurd rfl hne

end CombatReference

namespace CombatState

/-! ## Reading a changed state -/

@[simp] theorem refsOf_setRefsOf (c : CombatState U) (u v : U) (k k' : Bool) (m : RefMap U) :
    (c.setRefsOf u k m).refsOf v k' = if v = u ∧ k' = k then m else c.refsOf v k' := by
  simp only [refsOf, setRefsOf, Function.update_apply]
  by_cases hv : v = u
  · subst hv
    simp
  · simp [hv]

theorem lookup_purgeReference (c : CombatState U) (u guid v w : U) (k k' : Bool) :
    ((c.purgeReference u guid k).refsOf v k').lookup w =
      if v = u ∧ k' = k ∧ w = guid then none else (c.refsOf v k').lookup w := by
  simp only [purgeReference, refsOf_setRefsOf]
  by_cases hv : v = u ∧ k' = k
  · obtain ⟨rfl, rfl⟩ := hv
    by_cases hw : w = guid
    · subst hw
      simp
    · simp only [and_self, if_true, true_and, hw, if_false]
      exact AList.lookup_erase_ne hw
  · have hv' : ¬ (v = u ∧ k' = k ∧ w = guid) := fun h => hv ⟨h.1, h.2.1⟩
    rw [if_neg hv, if_neg hv']

/-! ## The invariants -/

/-- The reference is live, of the kind, and between the two distinct units. -/
def Joins (c : CombatState U) (id : RefId) (k : Bool) (a b : U) : Prop :=
  ∃ r, c.refs id = some r ∧ r.isPvP = k ∧
    (r.first = a ∧ r.second = b ∨ r.first = b ∧ r.second = a)

/-- The entries of the maps are symmetric, exclusive and live. -/
structure WF (c : CombatState U) : Prop where
  joins : ∀ {a b k id}, (c.refsOf a k).lookup b = some id → c.Joins id k a b
  mirror : ∀ {a b k id}, (c.refsOf a k).lookup b = some id → (c.refsOf b k).lookup a = some id
  exclusive : ∀ {a b id id'}, (c.refsOf a false).lookup b = some id →
    (c.refsOf a true).lookup b ≠ some id'
  distinct : ∀ {id r}, c.refs id = some r → r.first ≠ r.second
  fresh : ∀ {id}, c.nextRef ≤ id → c.refs id = none

/-- The unit has a reference that puts it into combat. -/
def Engaged (c : CombatState U) (u : U) : Prop :=
  (∃ v id, (c.refsOf u false).lookup v = some id) ∨
    ∃ v id r, (c.refsOf u true).lookup v = some id ∧ c.refs id = some r ∧
      r.isSuppressedFor u = false

/-- The combat flag is exact, except perhaps for the stale units. -/
def FlagsBut (c : CombatState U) (stale : U → Prop) : Prop :=
  ∀ u, ¬ stale u → (c.isInCombat u = true ↔ c.Engaged u)

/-- The invariant between two operations. -/
structure Inv (c : CombatState U) : Prop where
  wf : c.WF
  flags : c.FlagsBut fun _ => False

/-- Only flags differ. -/
structure SameRefs (c c' : CombatState U) : Prop where
  manager : c'.manager = c.manager
  refs : c'.refs = c.refs
  nextRef : c'.nextRef = c.nextRef

/-- No entry is lost. -/
def Keeps (c c' : CombatState U) : Prop :=
  ∀ ⦃a b k id⦄, (c.refsOf a k).lookup b = some id → (c'.refsOf a k).lookup b = some id

theorem Keeps.refl (c : CombatState U) : c.Keeps c := fun _ _ _ _ hl => hl

theorem Keeps.trans {c c' c'' : CombatState U} (h : c.Keeps c') (h' : c'.Keeps c'') :
    c.Keeps c'' := fun _ _ _ _ hl => h' (h hl)

namespace SameRefs

variable {c c' : CombatState U}

omit [DecidableEq U] in
theorem refl (c : CombatState U) : c.SameRefs c := ⟨rfl, rfl, rfl⟩

omit [DecidableEq U] in
theorem trans {c'' : CombatState U} (h : c.SameRefs c') (h' : c'.SameRefs c'') : c.SameRefs c'' :=
  ⟨h'.manager.trans h.manager, h'.refs.trans h.refs, h'.nextRef.trans h.nextRef⟩

omit [DecidableEq U] in
theorem refsOf (h : c.SameRefs c') (u : U) (k : Bool) : c'.refsOf u k = c.refsOf u k := by
  simp [CombatState.refsOf, h.manager]

theorem keeps (h : c.SameRefs c') : c.Keeps c' := fun _ _ _ _ hl => by
  rw [h.refsOf]
  exact hl

theorem engaged (h : c.SameRefs c') (u : U) : c'.Engaged u ↔ c.Engaged u := by
  unfold Engaged
  rw [h.refsOf, h.refsOf, h.refs]

theorem wf (h : c.SameRefs c') (w : c.WF) : c'.WF where
  joins hl := by
    rw [h.refsOf] at hl
    obtain ⟨r, hr, hk⟩ := w.joins hl
    exact ⟨r, by rw [h.refs]; exact hr, hk⟩
  mirror hl := by
    rw [h.refsOf] at hl ⊢
    exact w.mirror hl
  exclusive hl := by
    rw [h.refsOf] at hl ⊢
    exact w.exclusive hl
  distinct hr := by
    rw [h.refs] at hr
    exact w.distinct hr
  fresh hid := by
    rw [h.nextRef] at hid
    rw [h.refs]
    exact w.fresh hid

end SameRefs

omit [DecidableEq U] in
theorem Joins.end_of {c : CombatState U} {id : RefId} {k : Bool} {a b : U} {r : CombatReference U}
    (h : c.Joins id k a b) (hr : c.refs id = some r) : a = r.first ∨ a = r.second := by
  obtain ⟨r', hr', -, he⟩ := h
  rw [hr] at hr'
  cases hr'
  rcases he with ⟨h, -⟩ | ⟨-, h⟩
  · exact .inl h.symm
  · exact .inr h.symm

/-! ## The flag -/

omit [DecidableEq U] in
theorem deref_eq {c : CombatState U} {id : RefId} {r : CombatReference U} (h : c.refs id = some r) :
    c.deref id = .ok r := by
  simp [deref, h]

/-- `HasPvPCombat` reads live references only, and finds an unsuppressed one if there is one. -/
theorem anyM_unsuppressed (c : CombatState U) (u : U) (l : List (Sigma fun _ : U => RefId))
    (live : ∀ p ∈ l, ∃ r, c.refs p.2 = some r) :
    Yields (l.anyM fun pair => do
        let ref ← c.deref pair.2
        .ok !ref.isSuppressedFor u)
      fun b => b = true ↔ ∃ p ∈ l, ∃ r, c.refs p.2 = some r ∧ r.isSuppressedFor u = false := by
  induction l with
  | nil => exact ⟨false, rfl, by simp⟩
  | cons p l ih =>
    obtain ⟨r, hr⟩ := live p List.mem_cons_self
    have hd : c.deref p.2 = .ok r := deref_eq hr
    obtain ⟨b, hb, hiff⟩ := ih fun q hq => live q (List.mem_cons_of_mem p hq)
    cases hs : r.isSuppressedFor u with
    | false =>
      refine ⟨true, ?_, ?_⟩
      · simp only [List.anyM, hd, bind, Except.bind, hs, Bool.not_false]
        rfl
      · exact ⟨fun _ => ⟨p, List.mem_cons_self, r, hr, hs⟩, fun _ => rfl⟩
    | true =>
      refine ⟨b, ?_, hiff.trans ?_⟩
      · simp only [List.anyM, hd, bind, Except.bind, hs, Bool.not_true]
        exact hb
      · constructor
        · rintro ⟨q, hq, h⟩
          exact ⟨q, List.mem_cons_of_mem p hq, h⟩
        · rintro ⟨q, hq, r', hr', hs'⟩
          rcases List.mem_cons.mp hq with rfl | hq
          · rw [hr] at hr'
            cases hr'
            rw [hs] at hs'
            cases hs'
          · exact ⟨q, hq, r', hr', hs'⟩

theorem mem_entries_iff {m : RefMap U} {p : Sigma fun _ : U => RefId} :
    p ∈ m.entries ↔ m.lookup p.1 = some p.2 := (List.mem_dlookup_iff m.nodupKeys).symm

theorem hasCombat_spec {c : CombatState U} {u : U}
    (live : ∀ {v id}, (c.refsOf u true).lookup v = some id → ∃ r, c.refs id = some r) :
    Yields (c.hasCombat u) fun b => b = true ↔ c.Engaged u := by
  unfold hasCombat
  by_cases hpve : c.hasPvECombat u = true
  · rw [if_pos hpve]
    refine .ok ⟨fun _ => .inl ?_, fun _ => rfl⟩
    have hne : (c.refsOf u false).entries ≠ [] := by
      simpa only [hasPvECombat, Bool.not_eq_true', List.isEmpty_eq_false_iff] using hpve
    obtain ⟨p, hp⟩ := List.exists_mem_of_ne_nil _ hne
    exact ⟨p.1, p.2, mem_entries_iff.mp hp⟩
  · rw [if_neg hpve]
    have hnone : ∀ v id, (c.refsOf u false).lookup v ≠ some id := by
      intro v id hl
      have hmem : (⟨v, id⟩ : Sigma fun _ : U => RefId) ∈ (c.refsOf u false).entries :=
        mem_entries_iff.mpr hl
      have hnil : (c.refsOf u false).entries = [] := by
        simpa only [hasPvECombat, Bool.not_eq_true', Bool.not_eq_false, List.isEmpty_iff] using hpve
      rw [hnil] at hmem
      cases hmem
    refine (anyM_unsuppressed c u _ fun p hp => live (mem_entries_iff.mp hp)).mono ?_
    intro b hb
    rw [hb]
    constructor
    · rintro ⟨p, hp, r, hr, hs⟩
      exact .inr ⟨p.1, p.2, r, mem_entries_iff.mp hp, hr, hs⟩
    · rintro (⟨v, id, hl⟩ | ⟨v, id, r, hl, hr, hs⟩)
      · exact absurd hl (hnone v id)
      · exact ⟨⟨v, id⟩, mem_entries_iff.mpr hl, r, hr, hs⟩

theorem updateOwnerCombatState_spec {c : CombatState U} {stale : U → Prop} (u : U)
    (live : ∀ {v id}, (c.refsOf u true).lookup v = some id → ∃ r, c.refs id = some r)
    (flags : c.FlagsBut stale) :
    Yields (c.updateOwnerCombatState u) fun c' =>
      c.SameRefs c' ∧ c'.FlagsBut fun v => stale v ∧ v ≠ u := by
  unfold updateOwnerCombatState
  refine (hasCombat_spec live).bind fun b hb => ?_
  split
  · next heq =>
    refine .ok ⟨.refl c, fun v hv => ?_⟩
    by_cases hvu : v = u
    · subst hvu
      rw [← heq]
      exact hb
    · exact flags v fun hs => hv ⟨hs, hvu⟩
  · refine .ok ⟨⟨rfl, rfl, rfl⟩, fun v hv => ?_⟩
    have hsame : c.SameRefs (c.setInCombatFlag u b) := ⟨rfl, rfl, rfl⟩
    rw [hsame.engaged]
    by_cases hvu : v = u
    · subst hvu
      simpa only [setInCombatFlag, Function.update_self] using hb
    · simp only [setInCombatFlag, Function.update_of_ne hvu]
      exact flags v fun hs => hv ⟨hs, hvu⟩

theorem WF.live {c : CombatState U} (w : c.WF) {u v : U} {k : Bool} {id : RefId}
    (hl : (c.refsOf u k).lookup v = some id) : ∃ r, c.refs id = some r := by
  obtain ⟨r, hr, -⟩ := w.joins hl
  exact ⟨r, hr⟩

theorem updateOwnerCombatState_inv {c : CombatState U} (u : U) (w : c.WF)
    (flags : c.FlagsBut fun v => v = u) :
    Yields (c.updateOwnerCombatState u) fun c' => c'.Inv ∧ c.SameRefs c' := by
  refine (updateOwnerCombatState_spec u w.live flags).mono fun c' h => ?_
  exact ⟨⟨h.1.wf w, fun v _ => h.2 v fun hv => hv.2 hv.1⟩, h.1⟩

/-! ## Changing the values of a reference -/

section SetRef

variable {c : CombatState U} {id : RefId} {r r' : CombatReference U}

theorem setRef_wf (w : c.WF) (hr : c.refs id = some r) (he : r.SameEnds r') :
    (c.setRef id r').WF where
  joins {a b k i} hl := by
    obtain ⟨s, hs, hk, hends⟩ := w.joins (show (c.refsOf a k).lookup b = some i from hl)
    by_cases hi : i = id
    · subst hi
      rw [hr] at hs
      cases hs
      refine ⟨r', by simp only [setRef, Function.update_self], by rw [he.isPvP]; exact hk, ?_⟩
      rw [he.first, he.second]
      exact hends
    · exact ⟨s, by simpa only [setRef, Function.update_of_ne hi] using hs, hk, hends⟩
  mirror hl := w.mirror hl
  exclusive hl := w.exclusive hl
  distinct {i s} hs := by
    by_cases hi : i = id
    · subst hi
      simp only [setRef, Function.update_self, Option.some.injEq] at hs
      subst hs
      rw [he.first, he.second]
      exact w.distinct hr
    · simp only [setRef, Function.update_of_ne hi] at hs
      exact w.distinct hs
  fresh {i} hi := by
    have hne : i ≠ id := by
      rintro rfl
      rw [w.fresh hi] at hr
      cases hr
    simp only [setRef, Function.update_of_ne hne]
    exact w.fresh hi

theorem setRef_engaged (w : c.WF) (hr : c.refs id = some r) (v : U)
    (hsup : v = r.first ∨ v = r.second → r'.isSuppressedFor v = r.isSuppressedFor v) :
    (c.setRef id r').Engaged v ↔ c.Engaged v := by
  have key : ∀ x i, (c.refsOf v true).lookup x = some i →
      ((∃ s, (c.setRef id r').refs i = some s ∧ s.isSuppressedFor v = false) ↔
        ∃ s, c.refs i = some s ∧ s.isSuppressedFor v = false) := by
    intro x i hl
    by_cases hi : i = id
    · subst hi
      simp [setRef, hr, hsup ((w.joins hl).end_of hr)]
    · simp [setRef, Function.update_of_ne hi]
  constructor
  · rintro (h | ⟨x, i, s, hl, hs⟩)
    · exact .inl h
    · obtain ⟨s', hs'⟩ := (key x i hl).mp ⟨s, hs⟩
      exact .inr ⟨x, i, s', hl, hs'⟩
  · rintro (h | ⟨x, i, s, hl, hs⟩)
    · exact .inl h
    · obtain ⟨s', hs'⟩ := (key x i hl).mpr ⟨s, hs⟩
      exact .inr ⟨x, i, s', hl, hs'⟩

theorem setRef_flags {stale : U → Prop} (w : c.WF) (hr : c.refs id = some r)
    (flags : c.FlagsBut stale)
    (hsup : ∀ v, ¬ stale v → v = r.first ∨ v = r.second →
      r'.isSuppressedFor v = r.isSuppressedFor v) :
    (c.setRef id r').FlagsBut stale := fun v hv => by
  rw [setRef_engaged w hr v (hsup v hv)]
  exact flags v hv

omit [DecidableEq U] in
theorem refs_setRef_self : (c.setRef id r).refs id = some r := by
  simp [setRef]

end SetRef

/-- The state before and after an operation that changes values of references only. -/
structure Retains (c c' : CombatState U) : Prop where
  inv : c'.Inv
  manager : c'.manager = c.manager

theorem Retains.keeps {c c' : CombatState U} (h : c.Retains c') : c.Keeps c' := fun _ _ _ _ hl => by
  simp only [refsOf, h.manager]
  exact hl

theorem unsuppressFirst_spec {c : CombatState U} {id : RefId} {r : CombatReference U} (i : c.Inv)
    (hr : c.refs id = some r) :
    Yields (c.unsuppressFirst id) fun c' => c.Retains c' ∧ ∃ s, c'.refs id = some s := by
  unfold unsuppressFirst
  rw [deref_eq hr]
  show Yields (if r.suppressFirst then _ else _) _
  split
  · let r' := { r with suppressFirst := false }
    have hflags : (c.setRef id r').FlagsBut fun v => v = r.first := by
      refine setRef_flags i.wf hr (fun v _ => i.flags v not_false) fun v hv he => ?_
      simp only [CombatReference.isSuppressedFor, r', if_neg hv]
    have hwf : (c.setRef id r').WF := setRef_wf i.wf hr ⟨rfl, rfl, rfl⟩
    refine (updateOwnerCombatState_inv r.first hwf hflags).mono ?_
    rintro c' ⟨hi, hs⟩
    exact ⟨⟨hi, hs.manager⟩, r', by rw [hs.refs]; exact refs_setRef_self⟩
  · exact .ok ⟨⟨i, rfl⟩, r, hr⟩

theorem unsuppressSecond_spec {c : CombatState U} {id : RefId} {r : CombatReference U} (i : c.Inv)
    (hr : c.refs id = some r) : Yields (c.unsuppressSecond id) fun c' => c.Retains c' := by
  unfold unsuppressSecond
  rw [deref_eq hr]
  show Yields (if r.suppressSecond then _ else _) _
  split
  · let r' := { r with suppressSecond := false }
    have hflags : (c.setRef id r').FlagsBut fun v => v = r.second := by
      refine setRef_flags i.wf hr (fun v _ => i.flags v not_false) fun v hv he => ?_
      have hf : v = r.first := he.resolve_right hv
      simp only [CombatReference.isSuppressedFor, r', if_pos hf]
    have hwf : (c.setRef id r').WF := setRef_wf i.wf hr ⟨rfl, rfl, rfl⟩
    refine (updateOwnerCombatState_inv r.second hwf hflags).mono ?_
    rintro c' ⟨hi, hs⟩
    exact ⟨hi, hs.manager⟩
  · exact .ok ⟨i, rfl⟩

theorem refresh_spec {c : CombatState U} {id : RefId} {r : CombatReference U} (i : c.Inv)
    (hr : c.refs id = some r) : Yields (c.refresh id) fun c' => c.Retains c' := by
  unfold refresh
  rw [deref_eq hr]
  let r' := { r with combatTimer := pvpCombatTimeout }
  have hi : (c.setRef id r').Inv :=
    ⟨setRef_wf i.wf hr ⟨rfl, rfl, rfl⟩, setRef_flags i.wf hr i.flags fun _ _ _ => rfl⟩
  have hr' : (c.setRef id r').refs id = some r' := refs_setRef_self
  refine (unsuppressFirst_spec hi hr').bind ?_
  rintro c₁ ⟨h₁, s, hs⟩
  refine (unsuppressSecond_spec h₁.inv hs).mono fun c₂ h₂ => ?_
  exact ⟨h₂.inv, h₂.manager.trans h₁.manager⟩

theorem suppressFor_spec {c : CombatState U} {id : RefId} {r : CombatReference U} (who : U)
    (i : c.Inv) (hr : c.refs id = some r) (hwho : who = r.first ∨ who = r.second) :
    Yields (c.suppressFor id who) fun c' => c.Retains c' := by
  unfold suppressFor
  rw [deref_eq hr]
  have hflags : (c.setRef id (r.suppress who)).FlagsBut fun v => v = who :=
    setRef_flags i.wf hr (fun v _ => i.flags v not_false) fun v hv he =>
      CombatReference.isSuppressedFor_suppress hwho he hv
  refine (updateOwnerCombatState_inv who (setRef_wf i.wf hr (r.suppress_sameEnds who)) hflags).mono ?_
  rintro c' ⟨hi, hs⟩
  exact ⟨hi, hs.manager⟩

theorem suppressPvPCombat_spec (env : Env U) {c : CombatState U} (owner : U) (i : c.Inv) :
    Yields (c.suppressPvPCombat env owner) fun c' => c.Retains c' := by
  unfold suppressPvPCombat
  -- only the owner's flag goes stale: each reference in the walk has the owner at one end
  have hloop : Yields ((env.visit (c.refsOf owner true)).foldlM (fun c pair => do
      let ref ← c.deref pair.2
      .ok (c.setRef pair.2 (ref.suppress owner))) c)
      fun c' => c'.WF ∧ c'.manager = c.manager ∧ c'.FlagsBut fun v => v = owner := by
    refine Yields.foldlM _ ⟨i.wf, rfl, fun v _ => i.flags v not_false⟩ ?_
    rintro c' pair hp ⟨w, hm, hf⟩
    have hl : (c'.refsOf owner true).lookup pair.1 = some pair.2 := by
      simp only [refsOf, hm]
      exact env.mem_visit.mp hp
    obtain ⟨r, hr⟩ := w.live hl
    rw [deref_eq hr]
    refine .ok ⟨setRef_wf w hr (r.suppress_sameEnds owner), hm, ?_⟩
    exact setRef_flags w hr hf fun v hv he =>
      CombatReference.isSuppressedFor_suppress ((w.joins hl).end_of hr) he hv
  refine hloop.bind ?_
  rintro c₁ ⟨w, hm, hf⟩
  refine (updateOwnerCombatState_inv owner w hf).mono ?_
  rintro c' ⟨hi, hs⟩
  exact ⟨hi, hs.manager.trans hm⟩

end CombatState

end Sunstrider.Combat
