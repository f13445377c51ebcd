import Mathlib.Data.Finset.Max
import Mathlib.Tactic.Linarith
import Sunstrider.Laws.Combat.VictimRule

/-!
# The highest threat

What `AddThreat` leaves of the entry of its target, for an entry that was there (`addToEntry_refs`) and
for a new one (`newEntry_refs`). `MatchUnitThreatToHighestThreat` adds the difference of two clamped
threats to a base amount that is not clamped, and takes the highest threat from the first two entries of
the list. The target's threat is the highest afterwards exactly where the sums of the target's base
amount, that difference and the target's modifier come to it, as they are rounded (`matched_iff`). Where
nothing is rounded, that is where one of the two entries has the highest threat and the target's own
modifier does not hide what is added (`matchable_exact_iff`).
-/

namespace Sunstrider.Combat

open Sunstrider.Lib (MutableHeap Rounding Yields Answers run)

variable {U : Type} [DecidableEq U] {H : MutableHeap RefId ThreatKey} {R : Rounding}

/-! ## The entry of the target -/

namespace ThreatReference

/-- What `ThreatReference::AddThreat` makes of a reference. -/
def addThreat (R : Rounding) (amount : ℚ) (r : ThreatReference U) : ThreatReference U :=
  if amount = 0 then r else { r with baseAmount := max (R.add r.baseAmount amount) 0 }

/-- Where the threat is added only if the reference is online. -/
def addIfOnline (R : Rounding) (amount : ℚ) (r : ThreatReference U) : ThreatReference U :=
  if r.isOnline then r.addThreat R amount else r

/-- An entry that is suppressed comes back online, unless it should be suppressed. -/
def comeOnline (env : Env U) (r : ThreatReference U) : ThreatReference U :=
  if r.isSuppressed && !r.shouldBeSuppressed env then { r with online := .online } else r

variable (R) (amount : ℚ) (r : ThreatReference U) (env : Env U)

omit [DecidableEq U] in
/-- Adding threat changes the base amount only. -/
theorem addIfOnline_fields : (r.addIfOnline R amount).owner = r.owner ∧
    (r.addIfOnline R amount).victim = r.victim ∧ (r.addIfOnline R amount).online = r.online ∧
    (r.addIfOnline R amount).tempModifier = r.tempModifier := by
  unfold addIfOnline addThreat
  split
  · split <;> exact ⟨rfl, rfl, rfl, rfl⟩
  · exact ⟨rfl, rfl, rfl, rfl⟩

omit [DecidableEq U] in
/-- An entry that is up to date is so after threat was added. -/
theorem updateOffline_addIfOnline (h : r.updateOffline env = r) :
    (r.addIfOnline R amount).updateOffline env = r.addIfOnline R amount := by
  obtain ⟨howner, hvictim, honline, -⟩ := addIfOnline_fields R amount r
  have hshould : (r.addIfOnline R amount).shouldBeOffline env = r.shouldBeOffline env := by
    unfold shouldBeOffline
    rw [howner, hvictim]
  have hoffline : (r.addIfOnline R amount).isOffline = r.isOffline := by
    unfold isOffline
    rw [honline]
  have hdate := isOffline_updateOffline env r
  rw [h] at hdate
  exact if_pos (by rw [hshould, hoffline, hdate])

end ThreatReference

namespace ThreatState

variable {t : ThreatState H U} {env : Env U} {owner target : U} {id : RefId} {r : ThreatReference U}

theorem refAddThreat_refs (hr : t.refs id = some r) (amount : ℚ) :
    Yields (t.refAddThreat R id amount) fun t' =>
      t'.refs = Function.update t.refs id (some (r.addThreat R amount)) := by
  unfold refAddThreat ThreatReference.addThreat
  rw [deref_bind hr]
  split
  · refine .ok ?_
    rw [← hr, Function.update_eq_self]
  · exact .ok rfl

theorem addToEntry_refs (hr : t.refs id = some r) (amount : ℚ) :
    Yields (t.addToEntry R env id amount) fun t' =>
      t'.refs id = some ((r.comeOnline env).addIfOnline R amount) := by
  unfold addToEntry
  rw [deref_bind hr]
  have hcome : (if r.isSuppressed && !r.shouldBeSuppressed env then
      t.writeNotify R id r { r with online := .online } .increased else t).refs id =
        some (r.comeOnline env) := by
    unfold ThreatReference.comeOnline
    split
    · exact Function.update_self ..
    · exact hr
  generalize (if r.isSuppressed && !r.shouldBeSuppressed env then
    t.writeNotify R id r { r with online := .online } .increased else t) = t₁ at hcome ⊢
  rw [deref_bind hcome]
  unfold ThreatReference.addIfOnline
  split
  · refine (refAddThreat_refs hcome amount).mono fun t' ht' => ?_
    rw [ht', Function.update_self]
  · exact .ok hcome

/-- Choosing a victim brings entries up to date, and changes no other reference. -/
theorem updateVictim_refs (w : t.WF) : Yields (t.updateVictim R env owner) fun t' =>
    ∀ id, t'.refs id = t.refs id ∨
      t'.refs id = (t.refs id).map (ThreatReference.updateOffline env) := by
  unfold updateVictim reselectVictim
  split
  · exact .ok fun id => .inl rfl
  · refine Yields.bind (P := fun answer => ∀ id, answer.2.refs id = t.refs id ∨
      answer.2.refs id = (t.refs id).map (ThreatReference.updateOffline env)) ?_
      fun answer h => .ok h
    refine (updateOffline_spec w).bind fun t₁ h₁ => ?_
    refine (reselectUpdated_spec env h₁.1.wf owner).bind fun victim _ => .ok fun id => ?_
    by_cases hid : t.IsEntry owner id
    · exact .inr (h₁.2.entry id hid)
    · exact .inl (h₁.2.other id hid)

/-- A new entry has no threat but the amount, where it is online. -/
theorem newEntry_refs (w : t.WF) (amount : ℚ) (hnone : (t.myRefs owner).lookup target = none) :
    Yields (t.newEntry R env owner target amount) fun t' =>
      (t'.myRefs owner).lookup target = some t.nextRef ∧ t'.refs t.nextRef =
        some (((freshReference env owner target).updateOffline env).addIfOnline R amount) := by
  obtain ⟨t₁, hwithin, hlookup, hr, heq⟩ := newEntry_eq (R := R) env w owner target amount hnone
  have hdate := (freshReference env owner target).updateOffline_idem env
  rw [heq]
  refine ((refUpdateOffline_spec (R := R) env hwithin.wf hr).and
    (refUpdateOffline_refs owner hr)).bind fun t₂ h₂ => ?_
  have hr₂ : t₂.refs t.nextRef = some ((freshReference env owner target).updateOffline env) := by
    rw [h₂.2.1, Function.update_self]
  have hadd : Yields (if ((freshReference env owner target).updateOffline env).isOnline then
      t₂.refAddThreat R t.nextRef amount else .ok t₂) fun t₃ => t₂.Evolves R t₃ ∧
        t₃.refs t.nextRef =
          some (((freshReference env owner target).updateOffline env).addIfOnline R amount) := by
    unfold ThreatReference.addIfOnline
    split
    · refine ((refAddThreat_spec h₂.1.wf hr₂ amount).and (refAddThreat_refs hr₂ amount)).mono
        fun t₃ h₃ => ⟨h₃.1, ?_⟩
      rw [h₃.2, Function.update_self]
    · exact .ok ⟨.refl h₂.1.wf, hr₂⟩
  rw [deref_bind hr₂]
  refine hadd.bind fun t₃ h₃ => ?_
  have hlookup₃ : (t₃.myRefs owner).lookup target = some t.nextRef := by
    rw [h₃.1.lists.myRefs, h₂.1.lists.myRefs]
    exact hlookup
  split
  · exact .ok ⟨hlookup₃, h₃.2⟩
  · have h₄ : t₃.Evolves R (t₃.modifyManager owner fun m => { m with ownerEngaged := true }) :=
      modifyManager_evolves h₃.1.wf owner (fun _ => rfl) (fun _ => rfl) (fun _ => rfl)
        (fun _ hc => h₃.1.wf.current hc) fun _ hf => h₃.1.wf.fixate hf
    refine ((updateVictim_spec (R := R) env h₄.wf owner).and (updateVictim_refs h₄.wf)).mono
      fun t₅ h₅ => ⟨?_, ?_⟩
    · rw [h₅.1.lists.myRefs, h₄.lists.myRefs]
      exact hlookup₃
    · -- the new entry is up to date already
      have hsame : (t₃.modifyManager owner fun m => { m with ownerEngaged := true }).refs t.nextRef =
          some (((freshReference env owner target).updateOffline env).addIfOnline R amount) := h₃.2
      rcases h₅.2 t.nextRef with h | h
      · rw [h, hsame]
      · rw [h, hsame, Option.map_some, ThreatReference.updateOffline_addIfOnline R amount _ env hdate]

/-- The entry of a target as threat is added to it: one that is there comes back online if it can, else one
is created. -/
def targetEntry (env : Env U) (t : ThreatState H U) (owner target : U) : ThreatReference U :=
  match ((t.myRefs owner).lookup target).bind t.refs with
  | some r => r.comeOnline env
  | none => (freshReference env owner target).updateOffline env

omit [DecidableEq U] in
theorem comeOnline_values (env : Env U) (r : ThreatReference U) :
    (r.comeOnline env).baseAmount = r.baseAmount ∧ (r.comeOnline env).tempModifier = r.tempModifier := by
  unfold ThreatReference.comeOnline
  split <;> exact ⟨rfl, rfl⟩

omit [DecidableEq U] in
theorem freshReference_values (env : Env U) (owner target : U) :
    ((freshReference env owner target).updateOffline env).baseAmount = 0 ∧
      ((freshReference env owner target).updateOffline env).tempModifier = 0 := by
  unfold ThreatReference.updateOffline
  split
  · exact ⟨rfl, rfl⟩
  · split <;> exact ⟨rfl, rfl⟩

theorem targetEntry_eq (hl : (t.myRefs owner).lookup target = some id) (hr : t.refs id = some r) :
    t.targetEntry env owner target = r.comeOnline env := by
  simp [targetEntry, hl, hr]

theorem targetEntry_eq_fresh (hl : (t.myRefs owner).lookup target = none) :
    t.targetEntry env owner target = (freshReference env owner target).updateOffline env := by
  simp [targetEntry, hl]

/-- The threats of the available entries of a list. -/
def availableThreats (R : Rounding) (t : ThreatState H U) (owner : U) : Set ℚ :=
  { threat | ∃ id r, t.IsEntry owner id ∧ t.refs id = some r ∧ r.isAvailable ∧ threat = r.getThreat R }

/-- The first entry of the list has the threat, or it is taunting, and the second one has it and is
available. -/
def TopHas (R : Rounding) (t : ThreatState H U) (owner : U) (threat : ℚ) : Prop :=
  ∃ first rest r, H.ordered (t.key R) (t.sorted owner) = first :: rest ∧ t.refs first = some r ∧
    (r.getThreat R = threat ∨ r.isTaunting ∧
      ∃ second ∈ rest.head?, ∃ a, t.refs second = some a ∧ a.isAvailable ∧ a.getThreat R = threat)

/-- The first entry of the list is available. -/
def TopAvailable (R : Rounding) (t : ThreatState H U) (owner : U) : Prop :=
  ∃ first rest, H.ordered (t.key R) (t.sorted owner) = first :: rest ∧ t.Available first

theorem availableThreats_of_mem_ordered (w : t.WF)
    (hid : id ∈ H.ordered (t.key R) (t.sorted owner)) (hr : t.refs id = some r) (ha : r.isAvailable) :
    r.getThreat R ∈ t.availableThreats R owner := ⟨id, r, w.mem_ordered.mp hid, hr, ha, rfl⟩

theorem exists_isGreatest_availableThreats (w : t.WF) (htop : t.TopAvailable R owner) :
    ∃ M, IsGreatest (t.availableThreats R owner) M := by
  classical
  obtain ⟨first, rest, hordered, r, hr, ha⟩ := htop
  have hfirst : first ∈ H.ordered (t.key R) (t.sorted owner) := by
    rw [hordered]
    exact List.mem_cons_self
  have hne : ((H.elems (t.sorted owner)).filter t.Available).Nonempty :=
    ⟨first, Finset.mem_filter.mpr ⟨w.listed.mpr (w.mem_ordered.mp hfirst), r, hr, ha⟩⟩
  obtain ⟨id, hid, hmax⟩ := Finset.exists_max_image _ (fun id => (t.key R id).2.2) hne
  obtain ⟨hmem, s, hs, hsa⟩ := Finset.mem_filter.mp hid
  refine ⟨s.getThreat R, ⟨id, s, w.listed.mp hmem, hs, hsa, rfl⟩, ?_⟩
  rintro _ ⟨id', s', hentry, hs', hsa', rfl⟩
  have hle := hmax id' (Finset.mem_filter.mpr ⟨w.listed.mpr hentry, s', hs', hsa'⟩)
  rw [key_eq hs, key_eq hs'] at hle
  exact hle

/-- **What `MatchUnitThreatToHighestThreat` takes for the highest threat** is that of an available entry,
and the greater one of the first two entries where it looks at both. -/
theorem highestThreat_picks (w : t.WF) (htop : t.TopAvailable R owner) :
    ∃ looked ∈ t.availableThreats R owner, World.highestThreat R t owner = .ok (some looked) ∧
      IsGreatest { threat | t.TopHas R owner threat } looked := by
  obtain ⟨first, rest, hordered, r, hr, havailable⟩ := htop
  have hmem {id : RefId} {s : ThreatReference U} (hid : id ∈ first :: rest) (hs : t.refs id = some s)
      (ha : s.isAvailable) : s.getThreat R ∈ t.availableThreats R owner := by
    rw [← hordered] at hid
    exact availableThreats_of_mem_ordered w hid hs ha
  have hfirst := hmem List.mem_cons_self hr havailable
  have hhas : { threat | t.TopHas R owner threat } = { threat | r.getThreat R = threat ∨ r.isTaunting ∧
      ∃ second ∈ rest.head?, ∃ a, t.refs second = some a ∧ a.isAvailable ∧ a.getThreat R = threat } := by
    ext threat
    constructor
    · rintro ⟨first', rest', r', hordered', hr', h⟩
      obtain ⟨rfl, rfl⟩ := List.cons.inj (hordered.symm.trans hordered')
      cases hr.symm.trans hr'
      exact h
    · exact fun h => ⟨first, rest, r, hordered, hr, h⟩
  rw [hhas]
  unfold World.highestThreat
  rw [hordered]
  dsimp only
  rw [deref_bind hr, if_neg (by simp [havailable])]
  cases rest with
  | nil => exact ⟨r.getThreat R, hfirst, rfl, .inl rfl, by simp [upperBounds]⟩
  | cons second rest =>
    have hsecond : second ∈ H.ordered (t.key R) (t.sorted owner) := by
      rw [hordered]
      exact List.mem_cons_of_mem first List.mem_cons_self
    obtain ⟨a, ha, -⟩ := w.live (w.mem_ordered.mp hsecond)
    have hsome (threat : ℚ) : (∃ second' ∈ (second :: rest).head?, ∃ a', t.refs second' = some a' ∧
        a'.isAvailable ∧ a'.getThreat R = threat) ↔ a.isAvailable ∧ a.getThreat R = threat := by
      simp [ha]
    simp only [hsome]
    rw [deref_bind ha]
    split
    next htaunt =>
      simp only [Bool.and_eq_true, decide_eq_true_eq] at htaunt
      obtain ⟨⟨htaunting, hsecondAvailable⟩, hlt⟩ := htaunt
      have ha' := hmem (List.mem_cons_of_mem first List.mem_cons_self) ha hsecondAvailable
      refine ⟨a.getThreat R, ha', rfl, .inr ⟨htaunting, hsecondAvailable, rfl⟩, ?_⟩
      rintro _ (rfl | ⟨-, -, rfl⟩)
      · exact hlt.le
      · exact le_rfl
    next htaunt =>
      refine ⟨r.getThreat R, hfirst, rfl, .inl rfl, ?_⟩
      rintro _ (rfl | ⟨htaunting, hsecondAvailable, rfl⟩)
      · exact le_rfl
      · simpa only [Bool.and_eq_true, decide_eq_true_eq, htaunting, hsecondAvailable, true_and,
          not_lt] using htaunt

end ThreatState

/-! ## The target -/

namespace CombatState

/-- Units that are in combat with each other stay so. -/
theorem setInCombatWith_of_inCombat {c : CombatState U} {env : Env U} {owner who : U}
    (h : c.isInCombatWith owner who) : Answers (c.setInCombatWith env owner who) fun p => p.1 = true := by
  unfold setInCombatWith
  cases hpvp : (c.refsOf owner true).lookup who with
  | some id => exact Answers.bind (P := fun _ => True) (fun _ _ => trivial) fun c' _ => .ok rfl
  | none =>
    have hpve : ((c.refsOf owner false).lookup who).isSome := by
      simpa [isInCombatWith, hpvp] using h
    rw [if_pos hpve]
    exact .ok rfl

end CombatState

namespace World

open ThreatState

variable {w w' : World H U} {env : Env U} {owner target : U}

/-- What the end of `AddThreat` leaves of the target's entry, if there is one. -/
theorem applyThreat_entry (env : Env U) (owner target : U) (i : w.Inv) (amount : ℚ) :
    Yields (w.applyThreat R env owner target amount) fun w' => ∀ id r,
      (w'.threat.myRefs owner).lookup target = some id → w'.threat.refs id = some r →
        r = (w.threat.targetEntry env owner target).addIfOnline R amount := by
  have hcombat : Yields (w.setInCombatWith env owner target) fun p => p.2.Inv ∧
      p.2.threat = w.threat ∧ ((w.threat.myRefs owner).lookup target ≠ none → p.1 = true) := by
    unfold setInCombatWith
    have hset := (CombatState.setInCombatWith_spec env owner target i.combat)
    have hans : Answers (w.combat.setInCombatWith env owner target) fun p =>
        (w.threat.myRefs owner).lookup target ≠ none → p.1 = true := by
      intro p hp hne
      obtain ⟨id, hl⟩ := Option.ne_none_iff_exists'.mp hne
      exact CombatState.setInCombatWith_of_inCombat (i.inCombat hl) p hp
    refine (hans.and_yields hset).bind ?_
    rintro ⟨b, c⟩ ⟨hb, ⟨hi, hk⟩, -⟩
    exact .ok ⟨(advances_combat (R := R) i hi hk).inv, rfl, hb⟩
  unfold applyThreat
  refine hcombat.bind ?_
  rintro ⟨b, w₁⟩ ⟨hinv, hthreat, hb⟩
  dsimp only
  rw [hthreat]
  have hwf : w.threat.WF := i.threat
  split
  · next hnot =>
    -- no combat, and so no entry
    refine .ok fun id r hl _ => ?_
    rw [hthreat] at hl
    have htrue : b = true := hb (by rw [hl]; exact Option.some_ne_none id)
    rw [htrue] at hnot
    cases hnot
  · cases hl : (w.threat.myRefs owner).lookup target with
    | some id =>
      obtain ⟨r, hr, -⟩ := hwf.joins hl
      refine ((addToEntry_spec (R := R) env hwf hr amount).and (addToEntry_refs hr amount)).bind
        fun t ht => .ok fun id' r' hl' hr' => ?_
      rw [ht.1.lists.myRefs, hl] at hl'
      cases hl'
      cases hr'.symm.trans ht.2
      rw [targetEntry_eq hl hr]
    | none =>
      refine (newEntry_refs hwf amount hl).bind fun t ht => .ok fun id' r' hl' hr' => ?_
      rw [ht.1] at hl'
      cases hl'
      cases hr'.symm.trans ht.2
      rw [targetEntry_eq_fresh hl]

variable {highest : ℚ}

/-- Where the highest entry is available, the difference to the threat of the target is added. -/
theorem match_eq (i : w.Inv) (hcan : (w.threat.manager owner).ownerCanHaveThreatList)
    (h : highestThreat R w.threat owner = .ok (some highest)) :
    w.matchUnitThreatToHighestThreat R env owner target = w.applyThreat R env owner target
      (R.sub highest ((w.threat.targetEntry env owner target).getThreat R)) := by
  have hadd (amount : ℚ) : w.addThreat R env owner target amount none true true =
      w.applyThreat R env owner target amount := by
    unfold addThreat addThreatWith
    rw [if_neg (by simp), if_neg (by simp [hcan])]
    rfl
  unfold matchUnitThreatToHighestThreat
  rw [h]
  show (_ >>= fun current => w.addThreat R env owner target (R.sub highest current) none true true) = _
  cases hl : (w.threat.myRefs owner).lookup target with
  | none =>
    obtain ⟨hbase, htemp⟩ := freshReference_values env owner target
    have hzero : ((freshReference env owner target).updateOffline env).getThreat R = 0 := by
      simp [ThreatReference.getThreat, hbase, htemp, Rounding.add, R.zero]
    rw [targetEntry_eq_fresh hl, hzero]
    exact hadd _
  | some id =>
    obtain ⟨r, hr, -⟩ := i.threat.joins hl
    obtain ⟨hbase, htemp⟩ := comeOnline_values env r
    have hsame : (r.comeOnline env).getThreat R = r.getThreat R := by
      unfold ThreatReference.getThreat
      rw [hbase, htemp]
    rw [targetEntry_eq hl hr, hsame]
    show (w.threat.deref id >>= _) >>= _ = _
    rw [deref_bind hr]
    exact hadd _

/-! ## Where the target gets the highest threat -/

/-- The target gets the highest threat: there is none to speak of, or what the base amount of its entry
comes to with the difference between the threat looked at and its own is, with its modifier, the highest
threat. -/
def Matchable (R : Rounding) (w : World H U) (env : Env U) (owner target : U) (highest : ℚ) : Prop :=
  highest = 0 ∨ ∃ looked, IsGreatest { threat | w.threat.TopHas R owner threat } looked ∧
    let entry := w.threat.targetEntry env owner target
    R.add (max (R.add entry.baseAmount (R.sub looked (entry.getThreat R))) 0)
      (R.round entry.tempModifier) = highest

omit [DecidableEq U] in
theorem getThreat_addIfOnline {r : ThreatReference U} (honline : r.isOnline) (hbase : 0 ≤ r.baseAmount)
    (hrep : R.Represents r.baseAmount) (amount : ℚ) : (r.addIfOnline R amount).getThreat R =
      max (R.add (max (R.add r.baseAmount amount) 0) (R.round r.tempModifier)) 0 := by
  unfold ThreatReference.addIfOnline ThreatReference.addThreat
  rw [if_pos honline]
  split
  · next hzero =>
    have hsame : max (R.add r.baseAmount 0) 0 = r.baseAmount := by
      rw [Rounding.add, add_zero, hrep, max_eq_left hbase]
    rw [hzero, hsame, ThreatReference.getThreat]
  · rfl

/-- What the difference `looked - threat` makes of the threat that it is added to: `b` and `m` are the base
amount and the modifier of an entry. -/
theorem matched_value {b m looked : ℚ} (hb : 0 ≤ b) (hrep : R.Represents b) (hlooked : 0 ≤ looked)
    (hle : looked ≤ highest) (hbm : max (R.add b m) 0 ≤ highest) :
    max (R.add (max (R.add b (R.sub looked (max (R.add b m) 0))) 0) m) 0 = highest ↔
      highest = 0 ∨ R.add (max (R.add b (R.sub looked (max (R.add b m) 0))) 0) m = highest := by
  constructor
  · intro h
    rcases max_choice (R.add (max (R.add b (R.sub looked (max (R.add b m) 0))) 0) m) 0 with hmax | hmax
    · exact .inr (hmax.symm.trans h)
    · exact .inl (h.symm.trans hmax)
  · rintro (rfl | h)
    · -- nothing is added where nobody has threat
      have hnone : looked = 0 := le_antisymm hle hlooked
      have hthreat : max (R.add b m) 0 = 0 := le_antisymm hbm (le_max_right _ _)
      have hsum : max (R.add b 0) 0 = b := by rw [Rounding.add, add_zero, hrep, max_eq_left hb]
      rw [hthreat, hnone, Rounding.sub, sub_zero, R.zero, hsum, hthreat]
    · rw [h, max_eq_left (hlooked.trans hle)]

/-- Where nothing is rounded, the modifier must not hide a part of what is added. -/
theorem exact_value {b m looked : ℚ} (hb : 0 ≤ b) (hlooked : 0 ≤ looked) (hle : looked ≤ highest)
    (hbm : b + m ≤ highest) :
    highest = 0 ∨ max (b + (looked - max (b + m) 0)) 0 + m = highest ↔
      highest = 0 ∨ 0 ≤ b + m ∧ (looked = highest ∨ m = highest) := by
  refine or_congr_right' fun hne => ?_
  rcases le_or_gt 0 (b + m) with hsum | hneg
  · -- the threat is the one looked at, or the modifier where that is more
    have hvalue : max (b + (looked - max (b + m) 0)) 0 + m = max looked m := by
      have hdiff : b + (looked - (b + m)) = looked - m := by linarith
      rw [max_eq_left hsum, hdiff, ← max_add_add_right, sub_add_cancel, zero_add]
    rw [hvalue, and_iff_right hsum]
    constructor
    · intro h
      rcases max_choice looked m with hmax | hmax
      · exact .inl (hmax.symm.trans h)
      · exact .inr (hmax.symm.trans h)
    · rintro (h | h)
      · rw [h, max_eq_left (by linarith)]
      · rw [h, max_eq_right hle]
  · -- the modifier hides part of what is added
    rw [max_eq_right hneg.le, sub_zero, max_eq_left (add_nonneg hb hlooked)]
    constructor
    · intro h
      linarith
    · rintro ⟨h, -⟩
      exact absurd h (not_le.mpr hneg)

/-- An entry that is online, or comes online, has no more than the highest threat of an available entry. -/
theorem targetEntry_le (i : w.Inv)
    (hbase : ∀ {id r}, w.threat.refs id = some r → 0 ≤ r.baseAmount ∧ R.Represents r.baseAmount)
    (hM : IsGreatest (w.threat.availableThreats R owner) highest)
    (honline : (w.threat.targetEntry env owner target).isOnline) :
    (0 ≤ (w.threat.targetEntry env owner target).baseAmount ∧
      R.Represents (w.threat.targetEntry env owner target).baseAmount) ∧
      (w.threat.targetEntry env owner target).getThreat R ≤ highest := by
  cases hl : (w.threat.myRefs owner).lookup target with
  | none =>
    rw [targetEntry_eq_fresh hl]
    obtain ⟨hb, hm⟩ := freshReference_values env owner target
    obtain ⟨-, s, -, -, -, rfl⟩ := hM.1
    rw [hb]
    refine ⟨⟨le_rfl, R.zero⟩, ?_⟩
    have hzero : ((freshReference env owner target).updateOffline env).getThreat R = 0 := by
      simp [ThreatReference.getThreat, hb, hm, Rounding.add, R.zero]
    rw [hzero]
    exact s.getThreat_nonneg
  | some id =>
    obtain ⟨r, hr, -⟩ := i.threat.joins hl
    rw [targetEntry_eq hl hr] at honline ⊢
    obtain ⟨hb, hm⟩ := comeOnline_values env r
    have havailable : r.isAvailable := by
      unfold ThreatReference.comeOnline at honline
      split at honline
      · next h =>
        have hsup : r.online = .suppressed := by
          simp only [ThreatReference.isSuppressed, Bool.and_eq_true, beq_iff_eq] at h
          exact h.1
        simp [ThreatReference.isAvailable, hsup]
      · have hon : r.online = .online := by simpa [ThreatReference.isOnline] using honline
        simp [ThreatReference.isAvailable, hon]
    have hsame : (r.comeOnline env).getThreat R = r.getThreat R := by
      unfold ThreatReference.getThreat
      rw [hb, hm]
    rw [hb, hsame]
    exact ⟨hbase hr, hM.2 ⟨id, r, ⟨target, hl⟩, hr, havailable, rfl⟩⟩

/-- **Where nothing is rounded**, the target gets the highest threat where there is none to speak of, or
where its modifier does not hide what is added, and one of the entries looked at has the highest threat or
the modifier alone comes to it. -/
theorem matchable_exact_iff (i : w.Inv)
    (hbase : ∀ {id r}, w.threat.refs id = some r → 0 ≤ r.baseAmount)
    (htop : w.threat.TopAvailable .exact owner)
    (hM : IsGreatest (w.threat.availableThreats .exact owner) highest)
    (honline : (w.threat.targetEntry env owner target).isOnline) :
    w.Matchable .exact env owner target highest ↔ highest = 0 ∨
      0 ≤ (w.threat.targetEntry env owner target).baseAmount +
          (w.threat.targetEntry env owner target).tempModifier ∧
        (w.threat.TopHas .exact owner highest ∨
          (w.threat.targetEntry env owner target).tempModifier = highest) := by
  obtain ⟨looked, hlooked, -, hgreatest⟩ := highestThreat_picks i.threat htop
  obtain ⟨⟨hb, -⟩, hle⟩ := targetEntry_le (R := .exact) i (fun hr => ⟨hbase hr, rfl⟩) hM honline
  have hsum : (w.threat.targetEntry env owner target).baseAmount +
      (w.threat.targetEntry env owner target).tempModifier ≤ highest := (le_max_left _ _).trans hle
  have hhas : w.threat.TopHas .exact owner highest ↔ looked = highest :=
    ⟨fun h => le_antisymm (hM.2 hlooked) (hgreatest.2 h), fun h => h ▸ hgreatest.1⟩
  have hmatch : w.Matchable .exact env owner target highest ↔ highest = 0 ∨
      max ((w.threat.targetEntry env owner target).baseAmount + (looked -
        max ((w.threat.targetEntry env owner target).baseAmount +
          (w.threat.targetEntry env owner target).tempModifier) 0)) 0 +
        (w.threat.targetEntry env owner target).tempModifier = highest := by
    refine or_congr_right ⟨?_, fun h => ⟨looked, hgreatest, h⟩⟩
    rintro ⟨looked', hlooked', h⟩
    rw [hlooked'.unique hgreatest] at h
    exact h
  have hle' := hM.2 hlooked
  obtain ⟨-, s, -, -, -, rfl⟩ := hlooked
  rw [hmatch, hhas, exact_value hb s.getThreat_nonneg hle' hsum]

/-- **Where the target gets the highest threat.** The call returns, and an entry that is online afterwards
has the largest threat that an available entry had before it if and only if the target is `Matchable`. -/
theorem matched_iff (i : w.Inv)
    (hbase : ∀ {id r}, w.threat.refs id = some r → 0 ≤ r.baseAmount ∧ R.Represents r.baseAmount)
    (hcan : (w.threat.manager owner).ownerCanHaveThreatList) (htop : w.threat.TopAvailable R owner) :
    ∃ w' highest, w.matchUnitThreatToHighestThreat R env owner target = .ok w' ∧
      IsGreatest (w.threat.availableThreats R owner) highest ∧
      ∀ id r, (w'.threat.myRefs owner).lookup target = some id → w'.threat.refs id = some r →
        r.isOnline → (r.getThreat R = highest ↔ w.Matchable R env owner target highest) := by
  obtain ⟨highest, hM⟩ := exists_isGreatest_availableThreats i.threat htop
  obtain ⟨looked, hlooked, hchosen, hgreatest⟩ := highestThreat_picks i.threat htop
  obtain ⟨w', hrun, hentry⟩ := applyThreat_entry (R := R) env owner target i
    (R.sub looked ((w.threat.targetEntry env owner target).getThreat R))
  refine ⟨w', highest, (match_eq i hcan hchosen).trans hrun, hM, fun id r hl hr honline => ?_⟩
  have hvalue := hentry id r hl hr
  have hon : (w.threat.targetEntry env owner target).isOnline := by
    rw [hvalue] at honline
    unfold ThreatReference.isOnline at honline ⊢
    rwa [(ThreatReference.addIfOnline_fields _ _ _).2.2.1] at honline
  obtain ⟨⟨hb, hrep⟩, hle⟩ := targetEntry_le i hbase hM hon
  have hlookedle : looked ≤ highest := hM.2 hlooked
  obtain ⟨-, s, -, -, -, rfl⟩ := hlooked
  have hiff := matched_value hb hrep s.getThreat_nonneg hlookedle hle
  rw [hvalue, getThreat_addIfOnline hon hb hrep]
  refine hiff.trans (or_congr_right ⟨fun h => ⟨_, hgreatest, h⟩, ?_⟩)
  rintro ⟨looked', hlooked', h⟩
  rw [hlooked'.unique hgreatest] at h
  exact h

/-- The first unit to gain threat with the creature fades, and a second one gains threat. -/
def fadedAndSecond : List (Env (Fin 3) × Op (Fin 3)) :=
  [(inSight [], .addThreat 1 0 50 none false false),
    (inSight [-100], .updateMyTempModifiers 0),
    (inSight [-100], .addThreat 1 2 30 none false false)]

/-- The 30 that the faded unit lacks are added to a base amount of 50, under a modifier of -100. -/
theorem not_matched_faded :
    ∃ w w', run (step .exact) field fadedAndSecond = .ok w ∧ w.threat.TopAvailable .exact 1 ∧
      IsGreatest (w.threat.availableThreats .exact 1) 30 ∧
      w.matchUnitThreatToHighestThreat .exact (inSight [-100]) 1 0 = .ok w' ∧
      ∃ id r, (w'.threat.myRefs 1).lookup 0 = some id ∧ w'.threat.refs id = some r ∧ r.isOnline ∧
        r.getThreat .exact ≠ 30 := by
  have hbefore : ((run (step .exact) field fadedAndSecond).toOption.map fun w =>
      ((MutableHeap.sortedList RefId ThreatKey).ordered (w.threat.key .exact) (w.threat.sorted 1),
        (w.threat.myRefs 1).entries, w.threat.refs 0, w.threat.refs 1)) =
      some ([1, 0], [⟨2, 1⟩, ⟨0, 0⟩], some ⟨1, 0, .online, 50, -100, 0⟩,
        some ⟨1, 2, .online, 30, 0, 0⟩) := by decide +kernel
  have hafter : ((run (step .exact) field fadedAndSecond).toOption.bind fun w =>
      (w.matchUnitThreatToHighestThreat .exact (inSight [-100]) 1 0).toOption.map fun w' =>
        ((w'.threat.myRefs 1).lookup 0, w'.threat.refs 0)) =
      some (some 0, some ⟨1, 0, .online, 80, -100, 0⟩) := by decide +kernel
  cases hrun : run (step .exact) field fadedAndSecond with
  | error e =>
    rw [hrun] at hbefore
    cases hbefore
  | ok w =>
    rw [hrun] at hbefore hafter
    obtain ⟨hordered, hentries, hfaded, hsecond⟩ : _ ∧ _ ∧ _ ∧ _ := by
      simpa only [Prod.mk.injEq] using Option.some.inj hbefore
    change ((w.matchUnitThreatToHighestThreat .exact (inSight [-100]) 1 0).toOption.map _) = _ at hafter
    cases hmatch : w.matchUnitThreatToHighestThreat .exact (inSight [-100]) 1 0 with
    | error e =>
      rw [hmatch] at hafter
      cases hafter
    | ok w' =>
      rw [hmatch] at hafter
      obtain ⟨hl, hr⟩ : _ ∧ _ := by simpa only [Prod.mk.injEq] using Option.some.inj hafter
      refine ⟨w, w', rfl, ⟨1, [0], hordered, _, hsecond, rfl⟩, ⟨?_, ?_⟩, hmatch, 0, _, hl, hr, rfl, ?_⟩
      · have hlookup : (w.threat.myRefs 1).lookup 2 = some 1 := by
          rw [AList.lookup, hentries]
          rfl
        exact ⟨1, _, ⟨2, hlookup⟩, hsecond, rfl, by decide +kernel⟩
      · rintro _ ⟨id, r, ⟨v, hlookup⟩, hrefs, -, rfl⟩
        have hmem := List.of_mem_dlookup hlookup
        rw [hentries] at hmem
        simp only [List.mem_cons, List.not_mem_nil, or_false, Sigma.mk.injEq, heq_eq_eq] at hmem
        rcases hmem with ⟨-, rfl⟩ | ⟨-, rfl⟩
        · rw [hsecond] at hrefs
          cases hrefs
          decide +kernel
        · rw [hfaded] at hrefs
          cases hrefs
          decide +kernel
      · decide +kernel

/-- The second unit, new to the list, matches the threat of the first. -/
theorem matched_iff_second :
    ∃ w, run (step .exact) field [(inSight [], .addThreat 1 0 50 none false false)] = .ok w ∧
      ∃ w' highest, w.matchUnitThreatToHighestThreat .exact (inSight []) 1 2 = .ok w' ∧
        IsGreatest (w.threat.availableThreats .exact 1) highest ∧
        ∀ id r, (w'.threat.myRefs 1).lookup 2 = some id → w'.threat.refs id = some r →
          r.isOnline → (r.getThreat .exact = highest ↔ w.Matchable .exact (inSight []) 1 2 highest) := by
  obtain ⟨w, hrun, i, g⟩ := run_good (H := MutableHeap.sortedList RefId ThreatKey) .exact
    (fun _ => true) (fun _ => [])
    [(inSight [], .addThreat 1 0 50 none false false)] (by decide +kernel)
  have hbefore : ((run (step .exact) field [(inSight [], .addThreat 1 0 50 none false false)]).toOption.map
      fun w => ((MutableHeap.sortedList RefId ThreatKey).ordered (w.threat.key .exact) (w.threat.sorted 1),
        w.threat.refs 0, (w.threat.manager 1).ownerCanHaveThreatList)) =
      some ([0], some ⟨1, 0, .online, 50, 0, 0⟩, true) := by decide +kernel
  rw [field, hrun] at hbefore
  obtain ⟨hordered, hfirst, hcan⟩ : _ ∧ _ ∧ _ := by
    simpa only [Prod.mk.injEq] using Option.some.inj hbefore
  exact ⟨w, hrun, matched_iff i g.base hcan ⟨0, [], hordered, _, hfirst, rfl⟩⟩

end World

end Sunstrider.Combat
