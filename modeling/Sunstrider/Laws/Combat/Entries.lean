import Sunstrider.Laws.Combat.References

/-!
# Beginning and ending combat

What the operations that put references in and take them out do to the entries, and that they keep
`CombatState.Inv`.

Both change the two entries of one pair of units, in one kind: `Between` names those entries, and an
operation's effect is said as what every entry looks up afterwards. `dropReference_spec` allows for
the loops that erase an entry by hand before they end its combat: `Thinned` is a state in which some
entries between the two units may be gone already.
-/

namespace Sunstrider.Combat.CombatState

open Sunstrider.Lib (Yields)

variable {U : Type} [DecidableEq U]

/-- The entry for `w` in the map of kind `k'` of `v` stands for a reference of kind `k` between `a`
and `b`. -/
def Between (a b : U) (k : Bool) (v : U) (k' : Bool) (w : U) : Prop :=
  k' = k ∧ (v = a ∧ w = b ∨ v = b ∧ w = a)

instance (a b : U) (k : Bool) (v : U) (k' : Bool) (w : U) : Decidable (Between a b k v k' w) :=
  inferInstanceAs (Decidable (_ ∧ _))

variable {a b v w : U} {k : Bool}

theorem Between.swap {k' : Bool} : Between a b k v k' w ↔ Between a b k w k' v := by
  unfold Between
  tauto

variable {id : RefId}

theorem WF.between {c : CombatState U} (wf : c.WF) {r : CombatReference U} (hr : c.refs id = some r)
    (hl : (c.refsOf v k).lookup w = some id) : Between r.first r.second r.isPvP v k w := by
  obtain ⟨s, hs, hk, he⟩ := wf.joins hl
  rw [hr] at hs
  cases hs
  refine ⟨hk.symm, ?_⟩
  rcases he with ⟨h₁, h₂⟩ | ⟨h₁, h₂⟩
  · exact .inl ⟨h₁.symm, h₂.symm⟩
  · exact .inr ⟨h₂.symm, h₁.symm⟩

/-! ## Putting a reference in -/

theorem lookup_insert (c : CombatState U) (u guid v w : U) (k k' : Bool) (id : RefId) :
    ((c.setRefsOf u k ((c.refsOf u k).insert guid id)).refsOf v k').lookup w =
      if v = u ∧ k' = k ∧ w = guid then some id else (c.refsOf v k').lookup w := by
  rw [refsOf_setRefsOf]
  by_cases hv : v = u ∧ k' = k
  · obtain ⟨rfl, rfl⟩ := hv
    by_cases hw : w = guid
    · subst hw
      simp
    · simp only [and_self, if_true, true_and, hw, if_false]
      exact AList.lookup_insert_ne hw
  · have hv' : ¬ (v = u ∧ k' = k ∧ w = guid) := fun h => hv ⟨h.1, h.2.1⟩
    rw [if_neg hv, if_neg hv']

theorem putReference_eq {c : CombatState U} {owner guid : U} {r : CombatReference U}
    (hr : c.refs id = some r) (hnone : (c.refsOf owner r.isPvP).lookup guid = none) :
    c.putReference owner guid id =
      .ok (c.setRefsOf owner r.isPvP ((c.refsOf owner r.isPvP).insert guid id)) := by
  simp only [putReference, deref_eq hr, bind, Except.bind, hnone, Option.isSome_none]
  rfl

/-- A new reference and its two entries. -/
structure Added (c c' : CombatState U) (r : CombatReference U) : Prop where
  lookup : ∀ v k w, (c'.refsOf v k).lookup w =
    if Between r.first r.second r.isPvP v k w then some c.nextRef else (c.refsOf v k).lookup w
  refs : c'.refs = Function.update c.refs c.nextRef (some r)
  nextRef : c'.nextRef = c.nextRef + 1
  isInCombat : c'.isInCombat = c.isInCombat

/-- No entry of either kind stands between the two units. -/
def Apart (c : CombatState U) (a b : U) : Prop := ∀ k, (c.refsOf a k).lookup b = none

theorem WF.apart_swap {c : CombatState U} (wf : c.WF) (h : c.Apart a b) : c.Apart b a := fun k => by
  cases hl : (c.refsOf b k).lookup a with
  | none => rfl
  | some id =>
    have := wf.mirror hl
    rw [h k] at this
    cases this

theorem engaged_congr {c c' : CombatState U}
    (hl : ∀ k w, (c'.refsOf v k).lookup w = (c.refsOf v k).lookup w)
    (hr : ∀ w id, (c.refsOf v true).lookup w = some id → c'.refs id = c.refs id) :
    c'.Engaged v ↔ c.Engaged v := by
  unfold Engaged
  simp only [hl]
  refine or_congr_right (exists_congr fun w => exists_congr fun id => exists_congr fun r => ?_)
  refine and_congr_right fun h => ?_
  rw [hr w id h]

namespace Added

variable {c c' : CombatState U} {r : CombatReference U}

theorem none_of_ends (wf : c.WF) (hapart : c.Apart r.first r.second)
    (he : v = r.first ∧ w = r.second ∨ v = r.second ∧ w = r.first) (k : Bool) :
    (c.refsOf v k).lookup w = none := by
  rcases he with ⟨rfl, rfl⟩ | ⟨rfl, rfl⟩
  · exact hapart k
  · exact wf.apart_swap hapart k

theorem keeps (h : c.Added c' r) (wf : c.WF) (hapart : c.Apart r.first r.second) :
    c.Keeps c' := by
  intro v w k id hl
  rw [h.lookup, if_neg]
  · exact hl
  · rintro ⟨-, he⟩
    rw [none_of_ends wf hapart he] at hl
    cases hl

theorem refs_of_entry (h : c.Added c' r) (wf : c.WF) (hl : (c.refsOf v k).lookup w = some id) :
    c'.refs id = c.refs id := by
  have hne : id ≠ c.nextRef := by
    rintro rfl
    obtain ⟨s, hs⟩ := wf.live hl
    rw [wf.fresh (le_refl _)] at hs
    cases hs
  rw [h.refs, Function.update_of_ne hne]

theorem wf (h : c.Added c' r) (wf : c.WF) (hne : r.first ≠ r.second)
    (hapart : c.Apart r.first r.second) : c'.WF where
  joins {v w k id} hl := by
    rw [h.lookup] at hl
    split at hl
    · next hb =>
      cases hl
      refine ⟨r, by rw [h.refs, Function.update_self], hb.1.symm, ?_⟩
      rcases hb.2 with ⟨rfl, rfl⟩ | ⟨rfl, rfl⟩
      · exact .inl ⟨rfl, rfl⟩
      · exact .inr ⟨rfl, rfl⟩
    · obtain ⟨s, hs, hk⟩ := wf.joins hl
      exact ⟨s, by rw [h.refs_of_entry wf hl]; exact hs, hk⟩
  mirror {v w k id} hl := by
    rw [h.lookup] at hl ⊢
    by_cases hb : Between r.first r.second r.isPvP v k w
    · rw [if_pos hb] at hl
      rw [if_pos (Between.swap.mp hb)]
      exact hl
    · rw [if_neg hb] at hl
      rw [if_neg fun hb' => hb (Between.swap.mp hb')]
      exact wf.mirror hl
  exclusive {v w id id'} hl hl' := by
    rw [h.lookup] at hl hl'
    -- a pair with a new entry of one kind has no entry of the other
    by_cases he : v = r.first ∧ w = r.second ∨ v = r.second ∧ w = r.first
    · simp only [none_of_ends wf hapart he, Between, he, and_true] at hl hl'
      by_cases hk : r.isPvP = true
      · rw [if_neg (by rw [hk]; exact Bool.false_ne_true)] at hl
        cases hl
      · rw [if_neg fun hk' => hk hk'.symm] at hl'
        cases hl'
    · rw [if_neg fun hb => he hb.2] at hl hl'
      exact wf.exclusive hl hl'
  distinct {id s} hs := by
    rw [h.refs] at hs
    by_cases hid : id = c.nextRef
    · subst hid
      rw [Function.update_self] at hs
      cases hs
      exact hne
    · rw [Function.update_of_ne hid] at hs
      exact wf.distinct hs
  fresh {id} hid := by
    rw [h.nextRef] at hid
    rw [h.refs, Function.update_of_ne (Nat.lt_of_succ_le hid).ne']
    exact wf.fresh (Nat.le_of_succ_le hid)

theorem flags (h : c.Added c' r) (i : c.Inv) :
    c'.FlagsBut fun v => v = r.first ∨ v = r.second := fun v hv => by
  have hl : ∀ k w, (c'.refsOf v k).lookup w = (c.refsOf v k).lookup w := fun k w => by
    rw [h.lookup, if_neg]
    rintro ⟨-, ⟨hf, -⟩ | ⟨hs, -⟩⟩
    · exact hv (.inl hf)
    · exact hv (.inr hs)
  rw [engaged_congr hl fun w id => h.refs_of_entry i.wf, h.isInCombat]
  exact i.flags v not_false

end Added

theorem updateBoth_spec {c : CombatState U}
    (live : ∀ {u v k id}, (c.refsOf u k).lookup v = some id → ∃ r, c.refs id = some r)
    (flags : c.FlagsBut fun v => v = a ∨ v = b) :
    Yields (c.updateOwnerCombatState a >>= fun c => c.updateOwnerCombatState b) fun c' =>
      c.SameRefs c' ∧ c'.FlagsBut fun _ => False := by
  refine (updateOwnerCombatState_spec a live flags).bind fun c₁ h₁ => ?_
  have live₁ : ∀ {v id}, (c₁.refsOf b true).lookup v = some id → ∃ r, c₁.refs id = some r := by
    intro v id hl
    rw [h₁.1.refsOf] at hl
    rw [h₁.1.refs]
    exact live hl
  refine (updateOwnerCombatState_spec b live₁ h₁.2).mono fun c₂ h₂ => ?_
  refine ⟨h₁.1.trans h₂.1, fun v _ => h₂.2 v ?_⟩
  rintro ⟨⟨hv | hv, ha⟩, hb⟩
  · exact ha hv
  · exact hb hv

variable {who : U}

theorem beginCombat_spec (env : Env U) {c : CombatState U} {owner : U} (i : c.Inv)
    (hne : owner ≠ who) (hapart : c.Apart owner who) :
    Yields (c.beginCombat env owner who) fun c' => c'.Inv ∧ c.Keeps c' := by
  unfold beginCombat
  let r := CombatReference.new owner who
    (env.isControlledByPlayer owner && env.isControlledByPlayer who)
  let c₁ := c.allocRef r
  let c₂ := c₁.setRefsOf owner r.isPvP ((c₁.refsOf owner r.isPvP).insert who c.nextRef)
  let c₃ := c₂.setRefsOf who r.isPvP ((c₂.refsOf who r.isPvP).insert owner c.nextRef)
  have hr : c₁.refs c.nextRef = some r := Function.update_self _ _ _
  have hput₁ : c₁.putReference owner who c.nextRef = .ok c₂ := putReference_eq hr (hapart _)
  have hfree : (c₂.refsOf who r.isPvP).lookup owner = none := by
    rw [lookup_insert, if_neg fun h => hne h.1.symm]
    exact i.wf.apart_swap hapart _
  have hput₂ : c₂.putReference who owner c.nextRef = .ok c₃ := putReference_eq hr hfree
  have hadd : c.Added c₃ r := by
    refine ⟨fun v k w => ?_, rfl, rfl, rfl⟩
    rw [lookup_insert, lookup_insert]
    show (if _ then _ else if _ then _ else (c.refsOf v k).lookup w) = _
    by_cases hb : Between r.first r.second r.isPvP v k w
    · rw [if_pos hb]
      obtain ⟨hk, ⟨hv, hw⟩ | ⟨hv, hw⟩⟩ := hb
      · rw [if_pos (⟨hv, hk, hw⟩ : v = owner ∧ k = r.isPvP ∧ w = who), ite_self]
      · rw [if_pos (⟨hv, hk, hw⟩ : v = who ∧ k = r.isPvP ∧ w = owner)]
    · rw [if_neg hb, if_neg fun h => hb ⟨h.2.1, .inr ⟨h.1, h.2.2⟩⟩,
        if_neg fun h => hb ⟨h.2.1, .inl ⟨h.1, h.2.2⟩⟩]
  have hwf : c₃.WF := hadd.wf i.wf hne hapart
  show Yields (c₁.putReference owner who c.nextRef >>= _) _
  rw [hput₁]
  show Yields (c₂.putReference who owner c.nextRef >>= _) _
  rw [hput₂]
  refine (updateBoth_spec hwf.live (hadd.flags i)).mono fun c' h => ?_
  exact ⟨⟨h.1.wf hwf, h.2⟩, (hadd.keeps i.wf hapart).trans h.1.keeps⟩

variable {u : U}

theorem isInCombatWith_iff {c : CombatState U} :
    c.isInCombatWith u who = true ↔ ∃ k id, (c.refsOf u k).lookup who = some id := by
  simp only [isInCombatWith, Bool.or_eq_true, Option.isSome_iff_exists, Bool.exists_bool]

theorem apart_of_not_isInCombatWith {c : CombatState U} (hpvp : (c.refsOf u true).lookup who = none)
    (hpve : ¬ ((c.refsOf u false).lookup who).isSome = true) : c.Apart u who := by
  intro k
  cases k with
  | false => simpa only [Option.isSome_iff_ne_none, ne_eq, Decidable.not_not] using hpve
  | true => exact hpvp

/-- `SetInCombatWith` loses no entry, and answers `true` only of units that are in combat. -/
theorem setInCombatWith_spec (env : Env U) {c : CombatState U} (owner who : U) (i : c.Inv) :
    Yields (c.setInCombatWith env owner who) fun p =>
      (p.2.Inv ∧ c.Keeps p.2) ∧ (p.1 = true → p.2.isInCombatWith owner who = true) := by
  unfold setInCombatWith
  split
  next id hl =>
    obtain ⟨r, hr⟩ := i.wf.live hl
    refine (refresh_spec i hr).bind fun c' h => .ok ⟨⟨h.inv, h.keeps⟩, fun _ => ?_⟩
    exact isInCombatWith_iff.mpr ⟨true, id, h.keeps hl⟩
  next hpvp =>
    split
    next hpve =>
      refine .ok ⟨⟨i, .refl c⟩, fun _ => ?_⟩
      obtain ⟨id, hl⟩ := Option.isSome_iff_exists.mp hpve
      exact isInCombatWith_iff.mpr ⟨false, id, hl⟩
    next hpve =>
      split
      · exact .ok ⟨⟨i, .refl c⟩, fun h => (nomatch h)⟩
      · next hcan =>
        have hne : owner ≠ who := env.ne_of_canBeginCombat (by simpa using hcan)
        refine (beginCombat_spec env i hne (apart_of_not_isInCombatWith hpvp hpve)).bind ?_
        exact fun c' h => .ok ⟨h, fun h => h⟩

theorem inheritRefs_spec (env : Env U) {c : CombatState U} (owner who : U) (k : Bool) (i : c.Inv) :
    Yields (c.inheritRefs env owner who k) fun c' => c'.Inv ∧ c.Keeps c' := by
  unfold inheritRefs
  refine Yields.foldlM _ ⟨i, .refl c⟩ ?_
  rintro c' pair hp ⟨i', hk⟩
  split
  · exact .ok ⟨i', hk⟩
  · -- the entry that the walk stands on is still there
    obtain ⟨r, hr⟩ := i'.wf.live (hk (env.mem_visit.mp hp))
    rw [deref_eq hr]
    show Yields (if _ then _ else _) _
    split
    · exact .ok ⟨i', hk⟩
    · refine (setInCombatWith_spec env owner (r.getOther who) i').bind ?_
      rintro ⟨b, c''⟩ ⟨⟨i'', hk'⟩, -⟩
      exact .ok ⟨i'', hk.trans hk'⟩

theorem inheritCombatStatesFrom_spec (env : Env U) {c : CombatState U} (owner who : U)
    (i : c.Inv) :
    Yields (c.inheritCombatStatesFrom env owner who) fun c' => c'.Inv ∧ c.Keeps c' := by
  unfold inheritCombatStatesFrom
  refine (inheritRefs_spec env owner who false i).bind fun c₁ h₁ => ?_
  refine (inheritRefs_spec env owner who true h₁.1).mono fun c₂ h₂ => ?_
  exact ⟨h₂.1, h₁.2.trans h₂.2⟩

/-! ## Taking a reference out -/

/-- The state, save that entries of the reference may be gone. -/
structure Thinned (c₀ c : CombatState U) (r : CombatReference U) : Prop where
  lookup : ∀ v k w, ¬ Between r.first r.second r.isPvP v k w →
    (c.refsOf v k).lookup w = (c₀.refsOf v k).lookup w
  refs : c.refs = c₀.refs
  nextRef : c.nextRef = c₀.nextRef
  isInCombat : c.isInCombat = c₀.isInCombat

theorem Thinned.refl (c : CombatState U) (r : CombatReference U) : c.Thinned c r :=
  ⟨fun _ _ _ _ => rfl, rfl, rfl, rfl⟩

theorem thinned_purgeReference {c : CombatState U} {r : CombatReference U} {guid : U}
    (hb : Between r.first r.second r.isPvP u k guid) : c.Thinned (c.purgeReference u guid k) r := by
  refine ⟨fun v k' w hn => ?_, rfl, rfl, rfl⟩
  rw [lookup_purgeReference, if_neg]
  rintro ⟨rfl, rfl, rfl⟩
  exact hn hb

/-- The entries of the reference are gone, and no others. -/
structure Dropped (c c' : CombatState U) (r : CombatReference U) : Prop where
  lookup : ∀ v k w, (c'.refsOf v k).lookup w =
    if Between r.first r.second r.isPvP v k w then none else (c.refsOf v k).lookup w

theorem Dropped.of_lookup {c c' : CombatState U} {r : CombatReference U} (h : c.Dropped c' r)
    {v k w id} (hl : (c'.refsOf v k).lookup w = some id) :
    (c.refsOf v k).lookup w = some id ∧ ¬ Between r.first r.second r.isPvP v k w := by
  rw [h.lookup] at hl
  split at hl
  · cases hl
  · next hb => exact ⟨hl, hb⟩

/-- Where the entries are dropped, what is left is well formed without the reference. -/
theorem Dropped.wf {c c' : CombatState U} {r : CombatReference U} (h : c.Dropped c' r) (wf : c.WF)
    (hr : c.refs id = some r) (hrefs : c'.refs = Function.update c.refs id none)
    (hnext : c'.nextRef = c.nextRef) : c'.WF where
  joins {v w k i} hl := by
    obtain ⟨hl, hb⟩ := h.of_lookup hl
    obtain ⟨s, hs, hk⟩ := wf.joins hl
    have hne : i ≠ id := by
      rintro rfl
      exact hb (wf.between hr hl)
    exact ⟨s, by rw [hrefs, Function.update_of_ne hne]; exact hs, hk⟩
  mirror {v w k i} hl := by
    obtain ⟨hl, hb⟩ := h.of_lookup hl
    rw [h.lookup, if_neg fun hb' => hb (Between.swap.mp hb')]
    exact wf.mirror hl
  exclusive hl hl' := wf.exclusive (h.of_lookup hl).1 (h.of_lookup hl').1
  distinct {i s} hs := by
    rw [hrefs] at hs
    by_cases hi : i = id
    · subst hi
      rw [Function.update_self] at hs
      cases hs
    · rw [Function.update_of_ne hi] at hs
      exact wf.distinct hs
  fresh {i} hi := by
    rw [hnext] at hi
    rw [hrefs]
    by_cases hid : i = id
    · rw [hid, Function.update_self]
    · rw [Function.update_of_ne hid]
      exact wf.fresh hi

theorem dropReference_spec {c₀ c : CombatState U} {r : CombatReference U} (i : c₀.Inv)
    (hr : c₀.refs id = some r) (ht : c₀.Thinned c r) :
    Yields (c.dropReference id) fun c' => c'.Inv ∧ c₀.Dropped c' r := by
  unfold dropReference
  rw [deref_eq (by rw [ht.refs]; exact hr)]
  let c₂ := (c.purgeReference r.first r.second r.isPvP).purgeReference r.second r.first r.isPvP
  have hdrop : c₀.Dropped c₂ r := by
    refine ⟨fun v k w => ?_⟩
    rw [lookup_purgeReference, lookup_purgeReference]
    by_cases hb : Between r.first r.second r.isPvP v k w
    · rw [if_pos hb]
      obtain ⟨hk, ⟨hv, hw⟩ | ⟨hv, hw⟩⟩ := hb
      · rw [if_pos (⟨hv, hk, hw⟩ : v = r.first ∧ k = r.isPvP ∧ w = r.second), ite_self]
      · rw [if_pos (⟨hv, hk, hw⟩ : v = r.second ∧ k = r.isPvP ∧ w = r.first)]
    · rw [if_neg hb, if_neg fun h => hb ⟨h.2.1, .inr ⟨h.1, h.2.2⟩⟩,
        if_neg fun h => hb ⟨h.2.1, .inl ⟨h.1, h.2.2⟩⟩]
      exact ht.lookup v k w hb
  have hrefs : c₂.refs = c₀.refs := ht.refs
  have hlive : ∀ {u v k j}, (c₂.refsOf u k).lookup v = some j → ∃ r, c₂.refs j = some r := by
    intro u v k j hl
    rw [hrefs]
    exact i.wf.live (hdrop.of_lookup hl).1
  have hflags : c₂.FlagsBut fun v => v = r.first ∨ v = r.second := fun v hv => by
    have hl : ∀ k w, (c₂.refsOf v k).lookup w = (c₀.refsOf v k).lookup w := fun k w => by
      rw [hdrop.lookup, if_neg]
      rintro ⟨-, ⟨hf, -⟩ | ⟨hs, -⟩⟩
      · exact hv (.inl hf)
      · exact hv (.inr hs)
    rw [engaged_congr hl fun _ _ _ => by rw [hrefs]]
    show c.isInCombat v = true ↔ _
    rw [ht.isInCombat]
    exact i.flags v not_false
  show Yields (c₂.updateOwnerCombatState r.first >>= fun c =>
    c.updateOwnerCombatState r.second >>= fun c => .ok (c.freeRef id)) _
  obtain ⟨c₃, h₃, hs, hf⟩ := updateBoth_spec hlive hflags
  rw [← bind_assoc, h₃]
  have hdrop' : c₀.Dropped (c₃.freeRef id) r := by
    refine ⟨fun v k w => ?_⟩
    rw [← hdrop.lookup, ← hs.refsOf]
    rfl
  have hrefs' : (c₃.freeRef id).refs = Function.update c₀.refs id none := by
    show Function.update c₃.refs id none = _
    rw [hs.refs, hrefs]
  refine .ok ⟨⟨hdrop'.wf i.wf hr hrefs' (hs.nextRef.trans ht.nextRef), fun v _ => ?_⟩, hdrop'⟩
  -- no entry that is left points to the freed reference
  have hengaged : (c₃.freeRef id).Engaged v ↔ c₃.Engaged v := by
    refine engaged_congr (fun _ _ => rfl) fun w j hl => ?_
    rw [hs.refsOf] at hl
    obtain ⟨hl, hb⟩ := hdrop.of_lookup hl
    have hne : j ≠ id := by
      rintro rfl
      exact hb (i.wf.between hr hl)
    exact Function.update_of_ne hne _ _
  rw [hengaged]
  exact hf v not_false

end Sunstrider.Combat.CombatState
