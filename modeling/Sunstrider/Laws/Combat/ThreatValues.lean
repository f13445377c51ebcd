import Mathlib.Algebra.Order.Ring.Cast
import Sunstrider.Laws.Combat.Threat

/-!
# The operations on threat values, and the choice of a victim

Each method that writes a field of a threat reference moves its key one way, and tells the heap so.
The key is compared online state first, then taunt state, then threat, so a method that writes one
of the three needs one fact about that one (`key_le_of_online`, `key_le_of_taunted`,
`key_le_of_threat`).

`UpdateMyTempModifiers` is the exception: it tells every list the direction of the first entry. A
good state stays good where the other entries move that way too (`UniformModifiers`).
-/

namespace Sunstrider.Combat

open Sunstrider.Lib (MutableHeap Rounding Direction Yields)

variable {U : Type} {R : Rounding}

/-! ## Keys -/

namespace ThreatReference

variable {r r' : ThreatReference U}

theorem key_le_of_threat (honline : r'.online = r.online) (htaunt : r'.taunted = r.taunted)
    (h : r.getThreat R ≤ r'.getThreat R) : r.key R ≤ r'.key R := by
  simp only [key, honline, htaunt]
  exact Prod.Lex.toLex_le_toLex.mpr (.inr ⟨rfl, Prod.Lex.toLex_le_toLex.mpr (.inr ⟨rfl, h⟩)⟩)

theorem key_le_of_taunted (honline : r'.online = r.online) (h : r.taunted < r'.taunted) :
    r.key R ≤ r'.key R := by
  simp only [key, honline]
  exact Prod.Lex.toLex_le_toLex.mpr (.inr ⟨rfl, Prod.Lex.toLex_le_toLex.mpr (.inl h)⟩)

theorem key_le_of_online (h : r.online.toNat < r'.online.toNat) : r.key R ≤ r'.key R :=
  Prod.Lex.toLex_le_toLex.mpr (.inl h)

/-- Threat grows with the base amount and with the modifier. -/
theorem getThreat_mono (hbase : r.baseAmount ≤ r'.baseAmount)
    (htemp : r.tempModifier ≤ r'.tempModifier) : r.getThreat R ≤ r'.getThreat R := by
  have h₁ : R.add r.baseAmount (R.round r.tempModifier) ≤
      R.add r'.baseAmount (R.round r.tempModifier) := R.add_le_add_right hbase _
  have h₂ : R.add r'.baseAmount (R.round r.tempModifier) ≤
      R.add r'.baseAmount (R.round r'.tempModifier) :=
    R.add_le_add_left (R.monotone (Int.cast_le.mpr htemp)) _
  exact max_le_max (h₁.trans h₂) (le_refl 0)

theorem onlineState_pos (env : Env U) (r : ThreatReference U) :
    OnlineState.offline.toNat < (r.onlineState env).toNat := by
  unfold onlineState
  split <;> decide

end ThreatReference

variable [DecidableEq U] {H : MutableHeap RefId ThreatKey}

namespace ThreatState

open ThreatReference (key_le_of_threat key_le_of_taunted key_le_of_online getThreat_mono)

/-! ## The methods of one reference -/

section Reference

variable {t : ThreatState H U} {id : RefId} {r : ThreatReference U}

/-- `ThreatReference::AddThreat`: a positive amount raises the base threat, a negative one lowers
it, but not below zero. -/
theorem refAddThreat_spec (w : t.WF) (hr : t.refs id = some r) (amount : ℚ) :
    Yields (t.refAddThreat R id amount) (t.Evolves R) := by
  unfold refAddThreat
  rw [deref_bind hr]
  split
  · exact .ok (.refl w)
  · refine .ok (Evolves.needClientUpdate ?_ _)
    refine ⟨writeNotify_stays w hr rfl rfl, fun g => ?_⟩
    obtain ⟨hpos, hrep⟩ := g.base hr
    refine writeNotify_good w hr rfl g ?_ ?_
    · exact ⟨le_max_right _ _, (R.represents_round _).max R.represents_zero⟩
    split
    next h =>
      refine key_le_of_threat rfl rfl (getThreat_mono ?_ (le_refl _))
      exact (R.le_add_of_nonneg hrep h.le).trans (le_max_left _ _)
    next h =>
      refine key_le_of_threat rfl rfl (getThreat_mono ?_ (le_refl _))
      exact max_le (R.add_le_of_nonpos hrep (not_lt.mp h)) hpos

/-- `ThreatReference::ScaleThreat`. A factor that is not negative keeps a good state good. -/
theorem refScaleThreat_spec (w : t.WF) (hr : t.refs id = some r) (factor : ℚ) :
    Yields (t.refScaleThreat R id factor) fun t' =>
      t.Stays t' ∧ (0 ≤ factor → t.Good R → t'.Good R) := by
  unfold refScaleThreat
  rw [deref_bind hr]
  split
  · exact .ok ⟨⟨.refl t, w⟩, fun _ g => g⟩
  · let r' := { r with baseAmount := R.mul r.baseAmount factor }
    let d : Direction := if 1 < factor then .increased else .decreased
    have hs : t.Stays (t.writeNotify R id r r' d) := writeNotify_stays w hr rfl rfl
    have hn := needClientUpdate_evolves R hs.wf r.owner
    refine .ok ⟨hs.trans hn.toStays, fun hfactor g => hn.good ?_⟩
    obtain ⟨hpos, hrep⟩ := g.base hr
    refine writeNotify_good w hr rfl g ⟨R.nonneg_mul hpos hfactor, R.represents_round _⟩ ?_
    by_cases h : 1 < factor
    · rw [show d = .increased from if_pos h]
      exact key_le_of_threat rfl rfl (getThreat_mono (R.le_mul_of_one_le hrep hpos h.le) (le_refl _))
    · rw [show d = .decreased from if_neg h]
      exact key_le_of_threat rfl rfl
        (getThreat_mono (R.mul_le_of_le_one hrep hpos (not_lt.mp h)) (le_refl _))

theorem refUpdateOffline_spec (env : Env U) (w : t.WF) (hr : t.refs id = some r) :
    Yields (t.refUpdateOffline R env id) (t.Evolves R) := by
  unfold refUpdateOffline
  rw [deref_bind hr]
  split
  · exact .ok (.refl w)
  · next hne =>
    split
    next hoff =>
      have hpos : OnlineState.offline.toNat < r.online.toNat := by
        cases ho : r.online <;> simp_all [ThreatReference.isOffline, OnlineState.toNat]
      exact .ok (writeNotify_evolves w hr rfl rfl rfl (key_le_of_online hpos))
    next hon =>
      have hzero : r.online = .offline := by
        simpa [hon, ThreatReference.isOffline] using hne
      refine .ok (writeNotify_evolves w hr rfl rfl rfl (key_le_of_online ?_))
      rw [hzero]
      exact r.onlineState_pos env

theorem refUpdateTauntState_spec (env : Env U) (w : t.WF) (hr : t.refs id = some r) (state : ℤ) :
    Yields (t.refUpdateTauntState R env id state) (t.Evolves R) := by
  unfold refUpdateTauntState
  rw [deref_bind hr]
  generalize (if state < tauntStateTaunt && env.hasDetauntAuraFrom r.victim r.owner then
    tauntStateDetaunt else state) = s
  show Yields (if s = r.taunted then _ else _) _
  split
  · exact .ok (.refl w)
  · next hne =>
    refine .ok (Evolves.needClientUpdate ?_ _)
    refine writeNotify_evolves w hr rfl rfl rfl ?_
    split
    next h => exact key_le_of_taunted rfl h
    next h => exact key_le_of_taunted rfl (lt_of_le_of_ne (not_lt.mp h) (Ne.symm hne))

theorem refEvaluateSuppressed_spec (env : Env U) (canExpire : Bool) (w : t.WF)
    (hr : t.refs id = some r) :
    Yields (t.refEvaluateSuppressed R env canExpire id) (t.Evolves R) := by
  unfold refEvaluateSuppressed
  rw [deref_bind hr]
  split
  · next h =>
    have honline : r.online = .online := by
      simp only [ThreatReference.isOnline, Bool.and_eq_true, beq_iff_eq] at h
      exact h.1
    refine .ok (writeNotify_evolves w hr rfl rfl rfl (key_le_of_online ?_))
    rw [honline]
    exact Nat.one_lt_two
  · split
    · next h =>
      have hsup : r.online = .suppressed := by
        simp only [ThreatReference.isSuppressed, Bool.and_eq_true, beq_iff_eq] at h
        exact h.1.2
      refine .ok (writeNotify_evolves w hr rfl rfl rfl (key_le_of_online ?_))
      rw [hsup]
      exact Nat.one_lt_two
    · exact .ok (.refl w)

end Reference

/-! ## The operations over whole lists -/

theorem walk_evolves {t : ThreatState H U} (w : t.WF)
    (body : ThreatState H U → (Sigma fun _ : U => RefId) → Except Fault (ThreatState H U))
    (spec : ∀ t pair r, t.WF → t.refs pair.2 = some r → Yields (body t pair) (t.Evolves R))
    (l : List (Sigma fun _ : U => RefId)) (live : ∀ p ∈ l, ∃ r, t.refs p.2 = some r) :
    Yields (l.foldlM body t) (t.Evolves R) := by
  refine Yields.foldlM l (.refl w) fun t' p hp h => ?_
  obtain ⟨r, hr⟩ := live p hp
  obtain ⟨r', hr'⟩ := h.lists.live hr
  exact (spec t' p r' h.wf hr').mono fun t'' h' => h.trans h'

theorem WF.live_mine {t : ThreatState H U} (w : t.WF) (env : Env U) (u : U) :
    ∀ p ∈ env.visit (t.myRefs u), ∃ r, t.refs p.2 = some r := fun p hp => by
  obtain ⟨r, hr, -⟩ := w.joins (env.mem_visit.mp hp)
  exact ⟨r, hr⟩

theorem WF.joins_byMe {t : ThreatState H U} (w : t.WF) {env : Env U} {u : U}
    {p : Sigma fun _ : U => RefId} (hp : p ∈ env.visit (t.byMeRefs u)) :
    ∃ r, t.refs p.2 = some r ∧ r.owner = p.1 ∧ r.victim = u :=
  w.joins (w.mirror.mpr (env.mem_visit.mp hp))

theorem WF.live_byMe {t : ThreatState H U} (w : t.WF) (env : Env U) (u : U) :
    ∀ p ∈ env.visit (t.byMeRefs u), ∃ r, t.refs p.2 = some r := fun p hp => by
  obtain ⟨r, hr, -⟩ := w.joins_byMe hp
  exact ⟨r, hr⟩

theorem resetAllThreat_spec (env : Env U) {t : ThreatState H U} (w : t.WF) (owner : U) :
    Yields (t.resetAllThreat R env owner) (t.Evolves R) := by
  refine walk_evolves w _ (fun t p r w hr => ?_) _ (w.live_mine env owner)
  exact (refScaleThreat_spec w hr 0).mono fun t' h => ⟨h.1, h.2 (le_refl 0)⟩

theorem scaleThreat_spec {t : ThreatState H U} (w : t.WF) (owner target : U) (factor : ℚ) :
    Yields (t.scaleThreat R owner target factor) (t.Evolves R) := by
  unfold scaleThreat
  split
  · exact .ok (.refl w)
  · next id hl =>
    obtain ⟨r, hr, -⟩ := w.joins hl
    exact (refScaleThreat_spec w hr _).mono fun t' h => ⟨h.1, h.2 (le_max_right _ _)⟩

theorem evaluateSuppressed_spec (env : Env U) {t : ThreatState H U} (w : t.WF) (owner : U)
    (canExpire : Bool) : Yields (t.evaluateSuppressed R env owner canExpire) (t.Evolves R) :=
  walk_evolves w _ (fun _ _ _ w hr => refEvaluateSuppressed_spec env canExpire w hr) _
    (w.live_byMe env owner)

theorem tauntUpdate_spec (env : Env U) {t : ThreatState H U} (w : t.WF) (owner : U) :
    Yields (t.tauntUpdate R env owner) (t.Evolves R) := by
  unfold tauntUpdate
  refine (walk_evolves w _ (fun _ _ _ w hr => refUpdateTauntState_spec env w hr _) _
    (w.live_mine env owner)).bind fun t₁ h₁ => ?_
  exact (evaluateSuppressed_spec env h₁.wf owner true).mono fun t₂ h₂ => h₁.trans h₂

/-! ## Temporary modifiers -/

/-- A reference that is told of a new modifier in the direction its modifier moves in, or whose
threat the new modifier does not change. -/
def ModifierAgrees (R : Rounding) (mod : ℤ) (isIncrease : Bool) (r : ThreatReference U) : Prop :=
  (if isIncrease then r.tempModifier ≤ mod else mod ≤ r.tempModifier) ∨
    { r with tempModifier := mod }.getThreat R = r.getThreat R

instance (R : Rounding) (mod : ℤ) (isIncrease : Bool) (r : ThreatReference U) :
    Decidable (ModifierAgrees R mod isIncrease r) :=
  inferInstanceAs (Decidable (_ ∨ _))

/-- The direction that `UpdateMyTempModifiers` reads off the first of the entries is right for all
of them. -/
def UniformModifiers (R : Rounding) (env : Env U) (t : ThreatState H U) (owner : U) : Prop :=
  ∀ first ∈ (env.visit (t.byMeRefs owner)).head?, ∀ f ∈ t.refs first.2,
    ∀ pair ∈ env.visit (t.byMeRefs owner), ∀ r ∈ t.refs pair.2,
      ModifierAgrees R (env.totalThreatAuras owner).sum
        (f.tempModifier < (env.totalThreatAuras owner).sum) r

instance (R : Rounding) (env : Env U) (t : ThreatState H U) (owner : U) :
    Decidable (UniformModifiers R env t owner) := by
  unfold UniformModifiers
  infer_instance

omit [DecidableEq U] in
/-- The direction agrees with the keys of a reference exactly where it agrees with its modifier. -/
theorem agrees_setTempModifier {mod : ℤ} {isIncrease : Bool} {r : ThreatReference U}
    (h : ModifierAgrees R mod isIncrease r) :
    Direction.Agrees (if isIncrease then .increased else .decreased) (r.key R)
      ({ r with tempModifier := mod }.key R) := by
  rcases h with h | h
  · cases isIncrease with
    | true => exact key_le_of_threat rfl rfl (getThreat_mono (le_refl _) h)
    | false => exact key_le_of_threat rfl rfl (getThreat_mono (le_refl _) h)
  · cases isIncrease with
    | true => exact key_le_of_threat rfl rfl h.symm.le
    | false => exact key_le_of_threat rfl rfl h.le

theorem refSetTempModifier_spec {t : ThreatState H U} {id : RefId} {r : ThreatReference U}
    (mod : ℤ) (isIncrease : Bool) (w : t.WF) (hr : t.refs id = some r) :
    Yields (t.refSetTempModifier R mod isIncrease id) fun t' =>
      t.Stays t' ∧ (∀ i ≠ id, t'.refs i = t.refs i) ∧
        (ModifierAgrees R mod isIncrease r → t.Good R → t'.Good R) := by
  unfold refSetTempModifier
  rw [deref_bind hr]
  refine .ok ⟨writeNotify_stays w hr rfl rfl, fun i hi => ?_, fun h g => ?_⟩
  · rw [refs_writeNotify, Function.update_of_ne hi]
  · have hbase := g.base hr
    exact writeNotify_good w hr rfl g hbase (agrees_setTempModifier h)

/-- Two entries of a victim's map point to two references. -/
theorem WF.ne_of_byMe {t : ThreatState H U} (w : t.WF) {env : Env U} {u : U}
    {p q : Sigma fun _ : U => RefId} (hp : p ∈ env.visit (t.byMeRefs u))
    (hq : q ∈ env.visit (t.byMeRefs u)) (hne : p.1 ≠ q.1) : p.2 ≠ q.2 := by
  intro h
  obtain ⟨r, hr, hor, -⟩ := w.joins_byMe hp
  obtain ⟨s, hs, hos, -⟩ := w.joins_byMe hq
  rw [h, hs] at hr
  cases hr
  exact hne (hor.symm.trans hos)

/-- `UpdateMyTempModifiers` leaves the containers alone, and a good state good where the direction
is right for all entries. -/
theorem updateMyTempModifiers_spec (env : Env U) {t : ThreatState H U} (w : t.WF) (owner : U) :
    Yields (t.updateMyTempModifiers R env owner) fun t' =>
      t.Stays t' ∧ (UniformModifiers R env t owner → t.Good R → t'.Good R) := by
  unfold updateMyTempModifiers
  cases hv : env.visit (t.byMeRefs owner) with
  | nil => exact .ok ⟨⟨.refl t, w⟩, fun _ g => g⟩
  | cons first rest =>
    have hmem : first ∈ env.visit (t.byMeRefs owner) := by
      rw [hv]
      exact List.mem_cons_self
    obtain ⟨f, hf, -⟩ := w.joins_byMe hmem
    show Yields (t.deref first.2 >>= _) _
    rw [deref_bind hf, ← hv]
    have hhead : first ∈ (env.visit (t.byMeRefs owner)).head? := by
      rw [hv]
      rfl
    -- an entry that is still to come has the values it had before the walk
    let Inv : List (Sigma fun _ : U => RefId) → ThreatState H U → Prop := fun todo t' =>
      (t.Stays t' ∧ (UniformModifiers R env t owner → t.Good R → t'.Good R)) ∧
        todo.NodupKeys ∧ ∀ p ∈ todo, p ∈ env.visit (t.byMeRefs owner) ∧ t'.refs p.2 = t.refs p.2
    refine (Yields.loop Inv _ ?_ ?_).mono fun t' h => h.1
    · exact ⟨⟨⟨.refl t, w⟩, fun _ g => g⟩, env.visit_nodupKeys _, fun p hp => ⟨hp, rfl⟩⟩
    · rintro t' p todo ⟨⟨hs, hg⟩, hnd, hsame⟩
      obtain ⟨hp, hrp⟩ := hsame p List.mem_cons_self
      obtain ⟨r, hr, -⟩ := w.joins_byMe hp
      have hr' : t'.refs p.2 = some r := hrp.trans hr
      refine (refSetTempModifier_spec _ _ hs.wf hr').mono fun t'' h => ?_
      refine ⟨⟨hs.trans h.1, fun hu g => h.2.2 (hu first hhead f hf p hp r hr) (hg hu g)⟩, ?_, ?_⟩
      · exact (List.nodupKeys_cons.mp hnd).2
      · intro q hq
        obtain ⟨hqv, hrq⟩ := hsame q (List.mem_cons_of_mem p hq)
        have hkey : q.1 ≠ p.1 := fun h =>
          (List.nodupKeys_cons.mp hnd).1 (h ▸ List.mem_keys_of_mem hq)
        exact ⟨hqv, (h.2.1 _ (w.ne_of_byMe hqv hp hkey)).trans hrq⟩

end ThreatState

end Sunstrider.Combat

/-!
## Choosing a victim

`ReselectVictim` answers an entry of the owner's list, or none, and never reaches its "Current
victim not found" assertion: the old victim is an entry, and the sorted list holds every entry. So
`UpdateVictim` only caches a pointer that the list holds.
-/

namespace Sunstrider.Combat.ThreatState

open Sunstrider.Lib (MutableHeap Rounding Yields)

variable {U : Type} [DecidableEq U] {H : MutableHeap RefId ThreatKey} {R : Rounding}

variable {o : U}

theorem WF.deref_entry {t : ThreatState H U} (w : t.WF) {id : RefId} (h : t.IsEntry o id) :
    ∃ r, t.deref id = .ok r := by
  obtain ⟨r, hr, -⟩ := w.live h
  exact ⟨r, deref_eq hr⟩

omit [DecidableEq U] in
theorem reselectBelow_spec (env : Env U) {t : ThreatState H U} (owner : U) (oldVictim : RefId)
    (old : ThreatReference U) (l : List RefId) (live : ∀ id ∈ l, ∃ r, t.deref id = .ok r)
    (hold : oldVictim ∈ l) :
    Yields (t.reselectBelow R env owner oldVictim old l) fun o => ∀ id ∈ o, id ∈ l := by
  induction l with
  | nil => cases hold
  | cons next rest ih =>
    obtain ⟨r, hr⟩ := live next List.mem_cons_self
    have hself : ∀ id ∈ some next, id ∈ next :: rest := fun id h => by
      cases h
      exact List.mem_cons_self
    unfold reselectBelow
    rw [hr]
    show Yields (if _ then _ else if _ then _ else if _ then _ else _) _
    split
    · exact .ok hself
    · next hne =>
      have hrest : oldVictim ∈ rest := (List.mem_cons.mp hold).resolve_left (Ne.symm hne)
      split
      · refine .ok fun id h => ?_
        cases h
        exact hold
      · split
        · exact .ok hself
        · refine (ih (fun id hid => live id (List.mem_cons_of_mem next hid)) hrest).mono ?_
          exact fun o h id hid => List.mem_cons_of_mem next (h id hid)

/-- A cached pointer that is an entry can be read, and stays itself or is taken for none. -/
theorem availableRef_spec {t : ThreatState H U} (w : t.WF) {c : Option RefId}
    (hc : ∀ id ∈ c, t.IsEntry o id) :
    Yields (t.availableRef c) fun a => ∀ id ∈ a, t.IsEntry o id := by
  cases c with
  | none => exact .ok fun id h => (nomatch h)
  | some id =>
    obtain ⟨r, hr⟩ := w.deref_entry (hc id rfl)
    show Yields (t.deref id >>= _) _
    rw [hr]
    refine .ok ?_
    split
    · exact hc
    · exact fun id h => (nomatch h)

theorem WF.mem_ordered {t : ThreatState H U} (w : t.WF) {id : RefId} :
    id ∈ H.ordered (t.key R) (t.sorted o) ↔ t.IsEntry o id := by
  rw [H.mem_ordered, w.listed]

theorem reselectAgainst_spec (env : Env U) {t : ThreatState H U} (w : t.WF) {owner : U}
    {oldVictim highest : RefId} (hold : t.IsEntry owner oldVictim)
    (hhigh : t.IsEntry owner highest) :
    Yields (t.reselectAgainst R env owner oldVictim highest) fun o =>
      ∀ id ∈ o, t.IsEntry owner id := by
  obtain ⟨old, ho⟩ := w.deref_entry hold
  obtain ⟨high, hh⟩ := w.deref_entry hhigh
  have hself : ∀ {i}, t.IsEntry owner i → ∀ id ∈ some i, t.IsEntry owner id := fun hi id h => by
    cases h
    exact hi
  unfold reselectAgainst
  rw [ho, hh]
  show Yields (if _ then _ else if _ then _ else if _ then _ else _) _
  split
  · exact .ok (hself hold)
  · split
    · exact .ok (hself hhigh)
    · split
      · exact .ok (hself hhigh)
      · refine (reselectBelow_spec env owner oldVictim old _ (fun id hid => ?_) ?_).mono ?_
        · exact w.deref_entry (w.mem_ordered.mp hid)
        · exact w.mem_ordered.mpr hold
        · exact fun o h id hid => w.mem_ordered.mp (h id hid)

theorem reselectUpdated_spec (env : Env U) {t : ThreatState H U} (w : t.WF) (owner : U) :
    Yields (t.reselectUpdated R env owner) fun o => ∀ id ∈ o, t.IsEntry owner id := by
  unfold reselectUpdated
  refine (availableRef_spec w fun id h => w.fixate h).bind fun fixated hf => ?_
  split
  · exact .ok hf
  · refine (availableRef_spec w fun id h => w.current h).bind fun old hold => ?_
    split
    · exact .ok fun id h => (nomatch h)
    · next highest htop =>
      have hhigh : t.IsEntry owner highest := w.listed.mp (H.top_mem _ _ htop)
      have hself : ∀ id ∈ some highest, t.IsEntry owner id := fun id h => by
        cases h
        exact hhigh
      obtain ⟨high, hh⟩ := w.deref_entry hhigh
      rw [hh]
      show Yields (if _ then _ else _) _
      split
      · exact .ok fun id h => (nomatch h)
      · cases old with
        | none => exact .ok hself
        | some oldVictim =>
          show Yields (if _ then _ else _) _
          split
          · exact .ok hself
          · exact reselectAgainst_spec env w (hold oldVictim rfl) hhigh

theorem reselectVictim_spec (env : Env U) {t : ThreatState H U} (w : t.WF) (owner : U) :
    Yields (t.reselectVictim R env owner) fun p =>
      t.Evolves R p.2 ∧ ∀ id ∈ p.1, p.2.IsEntry owner id := by
  unfold reselectVictim
  split
  · exact .ok ⟨.refl w, fun id h => (nomatch h)⟩
  · refine (walk_evolves w _ (fun _ _ _ w hr => refUpdateOffline_spec env w hr) _
      (w.live_mine env owner)).bind fun t₁ h₁ => ?_
    exact (reselectUpdated_spec env h₁.wf owner).bind fun victim hv => .ok ⟨h₁, hv⟩

theorem updateVictim_spec (env : Env U) {t : ThreatState H U} (w : t.WF) (owner : U) :
    Yields (t.updateVictim R env owner) (t.Evolves R) := by
  unfold updateVictim
  refine (reselectVictim_spec env w owner).bind ?_
  rintro ⟨victim, t₁⟩ ⟨h₁, hv⟩
  refine .ok (h₁.trans ?_)
  exact modifyManager_evolves h₁.wf owner (fun _ => rfl) (fun _ => rfl) (fun _ => rfl) hv
    fun _ hf => h₁.wf.fixate hf

theorem update_spec (env : Env U) {t : ThreatState H U} (w : t.WF) (owner : U) (tdiff : ℕ) :
    Yields (t.update R env owner tdiff) (t.Evolves R) := by
  have timer : ∀ {t' : ThreatState H U} (n : ThreatManager H U → ℕ), t'.WF →
      t'.Evolves R (t'.modifyManager owner fun m => { m with updateTimer := n m }) :=
    fun n w' => modifyManager_evolves w' owner (fun _ => rfl) (fun _ => rfl) (fun _ => rfl)
      (fun _ hc => w'.current hc) fun _ hf => w'.fixate hf
  unfold update
  show Yields (if _ then _ else if _ then _ else _) _
  split
  · exact .ok (.refl w)
  · split
    · refine (updateVictim_spec env w owner).bind fun t₁ h₁ => ?_
      exact .ok (h₁.trans (timer (fun _ => threatUpdateInterval) h₁.wf))
    · exact .ok (timer (fun m => m.updateTimer - tdiff) w)

theorem fixateTarget_spec {t : ThreatState H U} (w : t.WF) (owner : U) (target : Option U) :
    t.Evolves R (t.fixateTarget owner target) := by
  refine modifyManager_evolves w owner (fun _ => rfl) (fun _ => rfl) (fun _ => rfl)
    (fun _ hc => w.current hc) fun id hf => ?_
  obtain ⟨u, -, hl⟩ := Option.bind_eq_some_iff.mp hf
  exact ⟨u, hl⟩

end Sunstrider.Combat.ThreatState
