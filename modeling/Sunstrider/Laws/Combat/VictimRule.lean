import Mathlib.Tactic.NormNum
import Sunstrider.Laws.Combat.Runs

/-!
# The rule by which a victim is chosen

`CompareReferencesLT` with a weight compares the weighted key of the one reference with the key of the
other (`compareReferencesLT_iff`). A weight of 110% or 130% raises the key, so a reference that displaces
the old victim lies above it, and what lies above one that breaks 110% breaks 110% too. That is why the
early exits of `ReselectVictim` skip nothing: the walk down the sorted list finds the highest entry that
displaces the old victim (`reselectBelow_rule`), and the choice is the one of the plain rule
(`reselectVictim_rule`).
-/

namespace Sunstrider.Combat

open Sunstrider.Lib (MutableHeap Rounding Yields run)

variable {U : Type} {H : MutableHeap RefId ThreatKey} {R : Rounding}

/-! ## Weighted comparisons -/

theorem OnlineState.toNat_injective : Function.Injective OnlineState.toNat := by
  intro a b h
  cases a <;> cases b <;> first | rfl | cases h

namespace ThreatReference

variable {a b c : ThreatReference U} {env : Env U}

/-- The key with its threat weighted. -/
def weightedKey (R : Rounding) (r : ThreatReference U) (aWeight : ℚ) : ThreatKey :=
  toLex (r.online.toNat, toLex (r.taunted, R.mul (r.getThreat R) (R.round aWeight)))

theorem compareReferencesLT_iff (a b : ThreatReference U) (aWeight : ℚ) :
    compareReferencesLT R a b aWeight ↔ a.weightedKey R aWeight < b.key R := by
  unfold compareReferencesLT weightedKey key
  rw [Prod.Lex.toLex_lt_toLex, Prod.Lex.toLex_lt_toLex]
  by_cases honline : a.online = b.online
  · rw [if_neg (not_not.mpr honline), honline]
    by_cases htaunted : a.taunted = b.taunted
    · rw [if_neg (not_not.mpr htaunted), htaunted]
      simp
    · rw [if_pos htaunted]
      simp [htaunted]
  · have hne : a.online.toNat ≠ b.online.toNat := fun h => honline (OnlineState.toNat_injective h)
    rw [if_pos honline]
    simp [hne]

theorem getThreat_nonneg (r : ThreatReference U) : 0 ≤ r.getThreat R := le_max_right _ _

theorem represents_getThreat (r : ThreatReference U) : R.Represents (r.getThreat R) :=
  (R.represents_round _).max R.represents_zero

theorem weightedKey_mono (r : ThreatReference U) {x y : ℚ} (h : x ≤ y) :
    r.weightedKey R x ≤ r.weightedKey R y := by
  have hthreat : R.mul (r.getThreat R) (R.round x) ≤ R.mul (r.getThreat R) (R.round y) :=
    R.monotone (mul_le_mul_of_nonneg_left (R.monotone h) r.getThreat_nonneg)
  exact Prod.Lex.toLex_le_toLex.mpr (.inr ⟨rfl, Prod.Lex.toLex_le_toLex.mpr (.inr ⟨rfl, hthreat⟩)⟩)

/-- A weight of at least 100% does not lower the key. -/
theorem key_le_weightedKey (r : ThreatReference U) {x : ℚ} (h : 1 ≤ x) :
    r.key R ≤ r.weightedKey R x := by
  have hthreat : r.getThreat R ≤ R.mul (r.getThreat R) (R.round x) :=
    R.le_mul_of_one_le r.represents_getThreat r.getThreat_nonneg (R.one.symm.trans_le (R.monotone h))
  exact Prod.Lex.toLex_le_toLex.mpr (.inr ⟨rfl, Prod.Lex.toLex_le_toLex.mpr (.inr ⟨rfl, hthreat⟩)⟩)

theorem isAvailable_of_key_le (h : a.key R ≤ b.key R) (ha : a.isAvailable) : b.isAvailable := by
  have honline : a.online.toNat ≤ b.online.toNat :=
    (Prod.Lex.toLex_le_toLex.mp h).elim le_of_lt fun h => h.1.le
  have hpos : a.online ≠ .offline := by simpa [isAvailable] using ha
  have hne : b.online ≠ .offline := by
    intro hoff
    rw [hoff] at honline
    exact hpos (OnlineState.toNat_injective (Nat.le_zero.mp honline))
  simpa [isAvailable] using hne

/-- The reference takes the place of the old victim: its threat breaks 130%, or it breaks 110% and the
victim is in melee range. -/
def Displaces (R : Rounding) (env : Env U) (owner : U) (old r : ThreatReference U) : Prop :=
  compareReferencesLT R old r (13 / 10) ∨
    compareReferencesLT R old r (11 / 10) ∧ env.isWithinMeleeRange owner r.victim

variable {owner : U} {old r : ThreatReference U}

theorem Displaces.breaks (h : Displaces R env owner old r) : old.weightedKey R (11 / 10) < r.key R := by
  rcases h with h | h
  · have hweight : (11 / 10 : ℚ) ≤ 13 / 10 := by norm_num
    exact (old.weightedKey_mono hweight).trans_lt ((compareReferencesLT_iff old r _).mp h)
  · exact (compareReferencesLT_iff old r _).mp h.1

theorem not_displaces_of_le (h : r.key R ≤ old.weightedKey R (11 / 10)) :
    ¬ Displaces R env owner old r := fun hd => (hd.breaks.trans_le h).false

/-- What `UpdateOffline` makes of a reference. -/
def updateOffline (env : Env U) (r : ThreatReference U) : ThreatReference U :=
  if r.shouldBeOffline env = r.isOffline then r
  else if r.shouldBeOffline env then { r with online := .offline }
  else { r with online := r.onlineState env }

theorem isOffline_updateOffline (env : Env U) (r : ThreatReference U) :
    (r.updateOffline env).isOffline = r.shouldBeOffline env := by
  unfold updateOffline
  split
  · next h => exact h.symm
  · split
    next hoff =>
      rw [hoff]
      rfl
    next hon =>
      rw [Bool.eq_false_iff.mpr hon]
      unfold isOffline onlineState
      split <;> rfl

theorem updateOffline_idem (env : Env U) (r : ThreatReference U) :
    (r.updateOffline env).updateOffline env = r.updateOffline env := by
  have hsame : (r.updateOffline env).shouldBeOffline env = r.shouldBeOffline env := by
    unfold updateOffline
    split
    · rfl
    · split <;> rfl
  rw [updateOffline, if_pos (hsame.trans (isOffline_updateOffline env r).symm)]

end ThreatReference

namespace ThreatState

open ThreatReference (Displaces compareReferencesLT_iff not_displaces_of_le)

variable [DecidableEq U] {t t' : ThreatState H U} {env : Env U} {owner : U}

/-! ## Every entry is up to date -/

/-- The states of all entries of the owner are up to date, and nothing else changed. -/
structure UpdatedOffline (env : Env U) (owner : U) (t t' : ThreatState H U) : Prop where
  entry : ∀ id, t.IsEntry owner id → t'.refs id = (t.refs id).map (ThreatReference.updateOffline env)
  other : ∀ id, ¬ t.IsEntry owner id → t'.refs id = t.refs id
  fixate : (t'.manager owner).fixateRef = (t.manager owner).fixateRef
  current : (t'.manager owner).currentVictimRef = (t.manager owner).currentVictimRef

theorem refUpdateOffline_refs (owner : U) {id : RefId} {r : ThreatReference U}
    (hr : t.refs id = some r) :
    Yields (t.refUpdateOffline R env id) fun t' =>
      t'.refs = Function.update t.refs id (some (r.updateOffline env)) ∧
        (t'.manager owner).fixateRef = (t.manager owner).fixateRef ∧
        (t'.manager owner).currentVictimRef = (t.manager owner).currentVictimRef := by
  unfold refUpdateOffline ThreatReference.updateOffline
  rw [deref_bind hr]
  split
  · refine .ok ⟨?_, rfl, rfl⟩
    rw [← hr, Function.update_eq_self]
  · split
    · exact .ok ⟨rfl, manager_writeNotify_field (·.fixateRef) _ fun _ _ => rfl,
        manager_writeNotify_field (·.currentVictimRef) _ fun _ _ => rfl⟩
    · exact .ok ⟨rfl, manager_writeNotify_field (·.fixateRef) _ fun _ _ => rfl,
        manager_writeNotify_field (·.currentVictimRef) _ fun _ _ => rfl⟩

/-- What holds before the rest of the walk: a reference is as it was or up to date already, and all
entries that are not still to come are up to date. -/
structure Updating (env : Env U) (owner : U) (t : ThreatState H U)
    (rest : List (Sigma fun _ : U => RefId)) (t' : ThreatState H U) : Prop where
  image : ∀ id, t'.refs id = t.refs id ∨
    t.IsEntry owner id ∧ t'.refs id = (t.refs id).map (ThreatReference.updateOffline env)
  done : ∀ id, t.IsEntry owner id → id ∉ rest.map Sigma.snd →
    t'.refs id = (t.refs id).map (ThreatReference.updateOffline env)
  fixate : (t'.manager owner).fixateRef = (t.manager owner).fixateRef
  current : (t'.manager owner).currentVictimRef = (t.manager owner).currentVictimRef

theorem mem_visit_of_isEntry {id : RefId} :
    id ∈ (env.visit (t.myRefs owner)).map Sigma.snd ↔ t.IsEntry owner id := by
  rw [List.mem_map]
  constructor
  · rintro ⟨⟨v, id⟩, hmem, rfl⟩
    exact ⟨v, env.mem_visit.mp hmem⟩
  · rintro ⟨v, hl⟩
    exact ⟨⟨v, id⟩, env.mem_visit.mpr hl, rfl⟩

theorem Updating.step (w : t.WF) {p : Sigma fun _ : U => RefId}
    {rest : List (Sigma fun _ : U => RefId)} (hp : t.IsEntry owner p.2)
    (h : t.Updating env owner (p :: rest) t') :
    Yields (t'.refUpdateOffline R env p.2) (t.Updating env owner rest) := by
  obtain ⟨r, hr, -⟩ := w.live hp
  -- once more up to date is up to date
  have hlive : ∃ r', t'.refs p.2 = some r' ∧ r'.updateOffline env = r.updateOffline env := by
    rcases h.image p.2 with hsame | ⟨-, himage⟩
    · exact ⟨r, hsame.trans hr, rfl⟩
    · exact ⟨r.updateOffline env, by rw [himage, hr]; rfl, r.updateOffline_idem env⟩
  obtain ⟨r', hr', hupdated⟩ := hlive
  refine (refUpdateOffline_refs owner hr').mono fun t'' hspec => ?_
  obtain ⟨hrefs, hfixate, hcurrent⟩ := hspec
  have hself : t''.refs p.2 = (t.refs p.2).map (ThreatReference.updateOffline env) := by
    rw [hrefs, Function.update_self, hupdated, hr]
    rfl
  have hother (id : RefId) (hne : id ≠ p.2) : t''.refs id = t'.refs id := by
    rw [hrefs, Function.update_of_ne hne]
  refine ⟨fun id => ?_, fun id hid hrest => ?_, hfixate.trans h.fixate, hcurrent.trans h.current⟩
  · by_cases hne : id = p.2
    · rw [hne]
      exact .inr ⟨hp, hself⟩
    · rw [hother id hne]
      exact h.image id
  · by_cases hne : id = p.2
    · rw [hne]
      exact hself
    · rw [hother id hne]
      exact h.done id hid (by simpa [hne] using hrest)

/-- **The walk over the entries** brings all of them up to date. -/
theorem updateOffline_spec (w : t.WF) :
    Yields ((env.visit (t.myRefs owner)).foldlM (fun t pair => t.refUpdateOffline R env pair.2) t)
      fun t' => t.Evolves R t' ∧ t.UpdatedOffline env owner t' := by
  refine (walk_evolves w _ (fun _ _ _ w hr => refUpdateOffline_spec env w hr) _
    (w.live_mine env owner)).and ?_
  have hwalk : Yields ((env.visit (t.myRefs owner)).foldlM
      (fun t pair => t.refUpdateOffline R env pair.2) t) fun t' =>
        (∀ p ∈ ([] : List (Sigma fun _ : U => RefId)), t.IsEntry owner p.2) ∧
          t.Updating env owner [] t' := by
    refine Yields.loop (fun rest t' => (∀ p ∈ rest, t.IsEntry owner p.2) ∧ t.Updating env owner rest t') _
      ⟨fun p hp => mem_visit_of_isEntry.mp (List.mem_map_of_mem hp), ?_⟩ fun t' p rest h => ?_
    · exact ⟨fun id => .inl rfl, fun id hid hnot => absurd (mem_visit_of_isEntry.mpr hid) hnot, rfl, rfl⟩
    · obtain ⟨hentries, hupdating⟩ := h
      exact (hupdating.step w (hentries p List.mem_cons_self)).mono fun t'' h' =>
        ⟨fun q hq => hentries q (List.mem_cons_of_mem p hq), h'⟩
  refine hwalk.mono fun t' h => ⟨fun id hid => h.2.done id hid List.not_mem_nil, fun id hid => ?_,
    h.2.fixate, h.2.current⟩
  exact (h.2.image id).resolve_right fun himage => hid himage.1

/-! ## The plain rule -/

/-- A reference that is live and not offline. -/
def Available (t : ThreatState H U) (id : RefId) : Prop := ∃ r, t.refs id = some r ∧ r.isAvailable

/-- One entry displaces another as the victim. -/
def DisplacesRef (R : Rounding) (env : Env U) (t : ThreatState H U) (owner : U) (old id : RefId) : Prop :=
  ∃ o r, t.refs old = some o ∧ t.refs id = some r ∧ Displaces R env owner o r

/-- **The plain rule for the victim**: the fixated entry if it is available, nobody if no entry is, without
an old victim that is available a highest entry, and with one the highest entry that displaces it, or else
the old victim. -/
inductive VictimRule (R : Rounding) (env : Env U) (t : ThreatState H U) (owner : U) : Option RefId → Prop
  | fixated {id : RefId} (hfixate : (t.manager owner).fixateRef = some id) (havailable : t.Available id) :
      VictimRule R env t owner (some id)
  | nobody (hfixate : ∀ id, (t.manager owner).fixateRef = some id → ¬ t.Available id)
      (hnone : ∀ id, t.IsEntry owner id → ¬ t.Available id) : VictimRule R env t owner none
  | highest {id : RefId} (hfixate : ∀ id, (t.manager owner).fixateRef = some id → ¬ t.Available id)
      (hold : ∀ id, (t.manager owner).currentVictimRef = some id → ¬ t.Available id)
      (hentry : t.IsEntry owner id) (havailable : t.Available id)
      (hmax : ∀ other, t.IsEntry owner other → t.key R other ≤ t.key R id) :
      VictimRule R env t owner (some id)
  | displaced {old id : RefId} (hfixate : ∀ id, (t.manager owner).fixateRef = some id → ¬ t.Available id)
      (hold : (t.manager owner).currentVictimRef = some old) (havailable : t.Available old)
      (hentry : t.IsEntry owner id) (hdisplaces : t.DisplacesRef R env owner old id)
      (hmax : ∀ other, t.IsEntry owner other → t.DisplacesRef R env owner old other →
        t.key R other ≤ t.key R id) : VictimRule R env t owner (some id)
  | stays {old : RefId} (hfixate : ∀ id, (t.manager owner).fixateRef = some id → ¬ t.Available id)
      (hold : (t.manager owner).currentVictimRef = some old) (havailable : t.Available old)
      (hnone : ∀ id, t.IsEntry owner id → ¬ t.DisplacesRef R env owner old id) :
      VictimRule R env t owner (some old)

section Displacing

variable {oldVictim id : RefId} {old r : ThreatReference U}

omit [DecidableEq U]

theorem displacesRef_iff (ho : t.refs oldVictim = some old) (hr : t.refs id = some r) :
    t.DisplacesRef R env owner oldVictim id ↔ Displaces R env owner old r := by
  constructor
  · rintro ⟨o, s, ho', hs, hd⟩
    cases ho.symm.trans ho'
    cases hr.symm.trans hs
    exact hd
  · exact fun hd => ⟨old, r, ho, hr, hd⟩

/-- What is not above 110% of the old victim does not displace it. -/
theorem not_displacesRef_of_le (ho : t.refs oldVictim = some old)
    (h : t.key R id ≤ old.weightedKey R (11 / 10)) : ¬ t.DisplacesRef R env owner oldVictim id := by
  rintro ⟨o, s, ho', hs, hd⟩
  cases ho.symm.trans ho'
  rw [key_eq hs] at h
  exact not_displaces_of_le h hd

/-- **The walk down the sorted list**: where nothing breaks 130%, it finds the highest entry that displaces
the old victim, or the old victim where none does. -/
theorem reselectBelow_rule (ho : t.refs oldVictim = some old) (l : List RefId)
    (live : ∀ id ∈ l, ∃ r, t.refs id = some r) (hold : oldVictim ∈ l)
    (hsorted : l.Pairwise fun a b => t.key R b ≤ t.key R a)
    (hbelow : ∀ id ∈ l, t.key R id ≤ old.weightedKey R (13 / 10)) :
    Yields (t.reselectBelow R env owner oldVictim old l) fun victim =>
      (∃ id ∈ l, victim = some id ∧ t.DisplacesRef R env owner oldVictim id ∧
        ∀ other ∈ l, t.DisplacesRef R env owner oldVictim other → t.key R other ≤ t.key R id) ∨
      victim = some oldVictim ∧ ∀ id ∈ l, ¬ t.DisplacesRef R env owner oldVictim id := by
  induction l with
  | nil => cases hold
  | cons next rest ih =>
    obtain ⟨r, hr⟩ := live next List.mem_cons_self
    obtain ⟨hfirst, hsorted⟩ := List.pairwise_cons.mp hsorted
    have hle : ∀ id ∈ next :: rest, t.key R id ≤ t.key R next := fun id hid =>
      (List.mem_cons.mp hid).elim (fun he => (congrArg _ he).le) (hfirst id)
    have hnext := hbelow next List.mem_cons_self
    rw [key_eq hr] at hnext
    unfold reselectBelow
    rw [deref_bind hr]
    split
    next hself =>
      -- nothing below the old victim displaces it
      refine .ok (.inr ⟨congrArg some hself, fun id hid => not_displacesRef_of_le ho ?_⟩)
      subst hself
      cases hr.symm.trans ho
      exact ((hle id hid).trans (key_eq hr).le).trans (old.key_le_weightedKey (by norm_num))
    next hne =>
      have hrest : oldVictim ∈ rest := (List.mem_cons.mp hold).resolve_left (Ne.symm hne)
      split
      next hbreaks =>
        refine .ok (.inr ⟨rfl, fun id hid => not_displacesRef_of_le ho ?_⟩)
        rw [Bool.not_eq_true', Bool.eq_false_iff, ne_eq, compareReferencesLT_iff, not_lt] at hbreaks
        exact ((hle id hid).trans (key_eq hr).le).trans hbreaks
      next hbreaks =>
        have hbreaks' : compareReferencesLT R old r (11 / 10) := by simpa using hbreaks
        split
        next hmelee =>
          refine .ok (.inl ⟨next, List.mem_cons_self, rfl, ?_, fun other hother _ => hle other hother⟩)
          exact (displacesRef_iff ho hr).mpr (.inr ⟨hbreaks', hmelee⟩)
        next hranged =>
          have hnot : ¬ t.DisplacesRef R env owner oldVictim next := by
            rw [displacesRef_iff ho hr]
            rintro (h | h)
            · exact (((compareReferencesLT_iff old r _).mp h).trans_le hnext).false
            · exact hranged h.2
          refine (ih (fun id hid => live id (List.mem_cons_of_mem next hid)) hrest hsorted
            fun id hid => hbelow id (List.mem_cons_of_mem next hid)).mono fun victim hvictim => ?_
          rcases hvictim with ⟨id, hid, he, hd, hmax⟩ | ⟨he, hnone⟩
          · refine .inl ⟨id, List.mem_cons_of_mem next hid, he, hd, fun other hother hd' => ?_⟩
            rcases List.mem_cons.mp hother with rfl | hother
            · exact absurd hd' hnot
            · exact hmax other hother hd'
          · refine .inr ⟨he, fun id hid => ?_⟩
            rcases List.mem_cons.mp hid with rfl | hid
            · exact hnot
            · exact hnone id hid

end Displacing

theorem availableRef_rule (owner : U) (w : t.WF) {c : Option RefId} (hc : ∀ id ∈ c, t.IsEntry owner id) :
    Yields (t.availableRef c) fun a => ∀ id, a = some id ↔ c = some id ∧ t.Available id := by
  cases c with
  | none => exact .ok fun id => ⟨fun h => (nomatch h), fun h => (nomatch h.1)⟩
  | some ref =>
    obtain ⟨r, hr, -⟩ := w.live (hc ref rfl)
    have havailable : t.Available ref ↔ r.isAvailable := by
      constructor
      · rintro ⟨s, hs, h⟩
        cases hr.symm.trans hs
        exact h
      · exact fun h => ⟨r, hr, h⟩
    show Yields (t.deref ref >>= _) _
    rw [deref_bind hr]
    refine .ok fun id => ?_
    split
    next h =>
      constructor
      · rintro ⟨⟩
        exact ⟨rfl, havailable.mpr h⟩
      · exact fun h' => h'.1
    next h =>
      refine iff_of_false (fun h' => (nomatch h')) ?_
      rintro ⟨⟨⟩, h'⟩
      exact h (havailable.mp h')

/-- **The choice against an old victim.** -/
theorem reselectAgainst_rule (w : t.WF) (g : t.Good R) {oldVictim highest : RefId}
    (hold : t.IsEntry owner oldVictim) (hhigh : t.IsEntry owner highest)
    (hmax : ∀ id, t.IsEntry owner id → t.key R id ≤ t.key R highest) :
    Yields (t.reselectAgainst R env owner oldVictim highest) fun victim =>
      (∃ id, t.IsEntry owner id ∧ victim = some id ∧ t.DisplacesRef R env owner oldVictim id ∧
        ∀ other, t.IsEntry owner other → t.DisplacesRef R env owner oldVictim other →
          t.key R other ≤ t.key R id) ∨
      victim = some oldVictim ∧ ∀ id, t.IsEntry owner id → ¬ t.DisplacesRef R env owner oldVictim id := by
  obtain ⟨old, ho, -⟩ := w.live hold
  obtain ⟨high, hh, -⟩ := w.live hhigh
  have hhighest (hd : Displaces R env owner old high) :
      ∃ id, t.IsEntry owner id ∧ some highest = some id ∧ t.DisplacesRef R env owner oldVictim id ∧
        ∀ other, t.IsEntry owner other → t.DisplacesRef R env owner oldVictim other →
          t.key R other ≤ t.key R id :=
    ⟨highest, hhigh, rfl, (displacesRef_iff ho hh).mpr hd, fun other hother _ => hmax other hother⟩
  unfold reselectAgainst
  rw [deref_bind ho, deref_bind hh]
  split
  next hbreaks =>
    rw [Bool.not_eq_true', Bool.eq_false_iff, ne_eq, compareReferencesLT_iff, not_lt] at hbreaks
    refine .ok (.inr ⟨rfl, fun id hid => not_displacesRef_of_le ho ?_⟩)
    exact ((hmax id hid).trans (key_eq hh).le).trans hbreaks
  next hbreaks =>
    have hbreaks' : compareReferencesLT R old high (11 / 10) := by simpa using hbreaks
    split
    next hwide => exact .ok (.inl (hhighest (.inl hwide)))
    next hnarrow =>
      split
      · next hmelee => exact .ok (.inl (hhighest (.inr ⟨hbreaks', hmelee⟩)))
      · rw [compareReferencesLT_iff, not_lt] at hnarrow
        have hmem (id : RefId) : id ∈ H.ordered (t.key R) (t.sorted owner) ↔ t.IsEntry owner id :=
          w.mem_ordered
        refine (reselectBelow_rule ho _ (fun id hid => ?_) ((hmem _).mpr hold)
          (H.ordered_sorted _ _ (g.ordered owner)) fun id hid => ?_).mono fun victim hvictim => ?_
        · obtain ⟨r, hr, -⟩ := w.live ((hmem id).mp hid)
          exact ⟨r, hr⟩
        · exact ((hmax id ((hmem id).mp hid)).trans (key_eq hh).le).trans hnarrow
        · simp only [hmem] at hvictim
          exact hvictim

theorem reselectUpdated_rule (w : t.WF) (g : t.Good R) :
    Yields (t.reselectUpdated R env owner) (t.VictimRule R env owner) := by
  unfold reselectUpdated
  refine (availableRef_rule owner w fun id h => w.fixate h).bind fun fixated hfixated => ?_
  cases fixated with
  | some id =>
    obtain ⟨hfixate, havailable⟩ := (hfixated id).mp rfl
    exact .ok (.fixated hfixate havailable)
  | none =>
    have hfixate (id : RefId) (h : (t.manager owner).fixateRef = some id) : ¬ t.Available id := fun h' =>
      nomatch (hfixated id).mpr ⟨h, h'⟩
    refine (availableRef_rule owner w fun id h => w.current h).bind fun old hold => ?_
    split
    next htop =>
      have hempty := (H.top_eq_none _).mp htop
      refine .ok (.nobody hfixate fun id hid => ?_)
      have hmem := w.listed.mpr hid
      rw [hempty] at hmem
      exact absurd hmem (Finset.notMem_empty id)
    next highest htop =>
      have hhigh : t.IsEntry owner highest := w.listed.mp (H.top_mem _ _ htop)
      have hmax : ∀ id, t.IsEntry owner id → t.key R id ≤ t.key R highest := fun id hid =>
        H.top_max _ _ highest (g.ordered owner) htop id (w.listed.mpr hid)
      obtain ⟨high, hh, -⟩ := w.live hhigh
      rw [deref_bind hh]
      split
      next hoffline =>
        -- where the highest entry is offline, all are
        refine .ok (.nobody hfixate fun id hid => ?_)
        rintro ⟨r, hr, havailable⟩
        have hle := hmax id hid
        rw [key_eq hr, key_eq hh] at hle
        rw [ThreatReference.isAvailable_of_key_le hle havailable] at hoffline
        cases hoffline
      next honline =>
        have havailable : t.Available highest := ⟨high, hh, by simpa using honline⟩
        cases old with
        | none =>
          refine .ok (.highest hfixate (fun id h h' => ?_) hhigh havailable hmax)
          exact nomatch (hold id).mpr ⟨h, h'⟩
        | some oldVictim =>
          obtain ⟨hcurrent, havailable'⟩ := (hold oldVictim).mp rfl
          dsimp only
          split
          · next hsame =>
            subst hsame
            refine .ok (.stays hfixate hcurrent havailable fun id hid => ?_)
            refine not_displacesRef_of_le hh (((hmax id hid).trans (key_eq hh).le).trans ?_)
            exact high.key_le_weightedKey (by norm_num)
          · refine (reselectAgainst_rule w g (w.current hcurrent) hhigh hmax).mono fun victim hvictim => ?_
            rcases hvictim with ⟨id, hid, rfl, hd, hmax'⟩ | ⟨rfl, hnone⟩
            · exact .displaced hfixate hcurrent havailable' hid hd hmax'
            · exact .stays hfixate hcurrent havailable' hnone

/-- **`ReselectVictim` agrees with the plain rule**, and faults nowhere. -/
theorem reselectVictim_rule (R : Rounding) (env : Env U) (t : ThreatState H U) (owner : U) (w : t.WF)
    (g : t.Good R) : Yields (t.reselectVictim R env owner) fun answer =>
      t.UpdatedOffline env owner answer.2 ∧ answer.2.VictimRule R env owner answer.1 := by
  unfold reselectVictim
  split
  · next hempty =>
    have hnone (id : RefId) : ¬ t.IsEntry owner id := by
      rw [← w.listed, (H.top_eq_none _).mp (Option.isNone_iff_eq_none.mp hempty)]
      exact Finset.notMem_empty id
    refine .ok ⟨⟨fun id hid => absurd hid (hnone id), fun _ _ => rfl, rfl, rfl⟩, ?_⟩
    exact .nobody (fun id h => absurd (w.fixate h) (hnone id)) fun id hid => absurd hid (hnone id)
  · refine (updateOffline_spec w).bind fun t₁ h₁ => ?_
    exact (reselectUpdated_rule h₁.1.wf (h₁.1.good g)).bind fun victim hvictim => .ok ⟨h₁.2, hvictim⟩

/-- A creature chooses between two units on its list. -/
theorem reselectVictim_rule_field :
    ∃ w, run (World.step Rounding.exact) World.field
        [(World.inSight [], .addThreat 1 0 100 none false false),
          (World.inSight [], .addThreat 1 2 120 none false false)] = .ok w ∧
      Yields (w.threat.reselectVictim .exact (World.inSight []) 1) fun answer =>
        w.threat.UpdatedOffline (World.inSight []) 1 answer.2 ∧
          answer.2.VictimRule .exact (World.inSight []) 1 answer.1 := by
  obtain ⟨w, hw, i, g⟩ := World.run_good .exact (fun _ => true) (fun _ => [])
    [(World.inSight [], .addThreat 1 0 100 none false false),
      (World.inSight [], .addThreat 1 2 120 none false false)]
    (H := MutableHeap.sortedList RefId ThreatKey) (by decide +kernel)
  exact ⟨w, hw, reselectVictim_rule .exact (World.inSight []) w.threat 1 i.threat g⟩

end ThreatState

end Sunstrider.Combat
