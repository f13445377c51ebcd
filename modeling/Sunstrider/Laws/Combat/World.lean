import Sunstrider.Combat.World
import Sunstrider.Laws.Combat.Entries
import Sunstrider.Laws.Combat.ThreatEntries

/-!
# Threat implies combat, and both systems keep their invariants together

`World.Inv` joins the invariants of the two systems with the one that is about both: units between
which there is a threat reference are in combat with each other.

`Advances` is the specification of every operation: it succeeds, keeps `World.Inv`, and keeps a good
threat state good. `step_spec` says it of one operation of the rest of the server. Two operations
keep a good state good under a condition only (`Admits`).
-/

namespace Sunstrider.Combat

open Sunstrider.Lib (MutableHeap Rounding Yields length_lt_of_lookup ok_bind)

variable {U : Type} [DecidableEq U] {H : MutableHeap RefId ThreatKey} {R : Rounding}

namespace World

/-- Both systems are consistent, and threat implies combat. -/
structure Inv (w : World H U) : Prop where
  combat : w.combat.Inv
  threat : w.threat.WF
  inCombat : ∀ {o v id}, (w.threat.myRefs o).lookup v = some id →
    w.combat.isInCombatWith o v = true

/-- What an operation does to the two invariants. -/
structure Advances (R : Rounding) (w w' : World H U) : Prop where
  inv : w'.Inv
  good : w.threat.Good R → w'.threat.Good R

variable {w : World H U}

theorem Advances.refl (i : w.Inv) : w.Advances R w := ⟨i, fun g => g⟩

theorem Advances.trans {w' w'' : World H U} (h : w.Advances R w') (h' : w'.Advances R w'') :
    w.Advances R w'' := ⟨h'.inv, fun g => h'.good (h.good g)⟩

/-- Units stay in combat while their references do. -/
theorem isInCombatWith_keeps {c c' : CombatState U} (h : c.Keeps c') {u v : U}
    (hi : c.isInCombatWith u v = true) : c'.isInCombatWith u v = true := by
  obtain ⟨k, id, hl⟩ := CombatState.isInCombatWith_iff.mp hi
  exact CombatState.isInCombatWith_iff.mpr ⟨k, id, h hl⟩

theorem advances_combat {c : CombatState U} (i : w.Inv) (ic : c.Inv) (h : w.combat.Keeps c) :
    w.Advances R { w with combat := c } :=
  ⟨⟨ic, i.threat, fun hl => isInCombatWith_keeps h (i.inCombat hl)⟩, fun g => g⟩

/-- New entries may come between units that are in combat. -/
theorem advances_threat {t : ThreatState H U} {New : U → U → Prop} (i : w.Inv)
    (h : w.threat.Within R t New) (hnew : ∀ o v, New o v → w.combat.isInCombatWith o v = true) :
    w.Advances R { w with threat := t } := by
  refine ⟨⟨i.combat, h.wf, fun {o v id} hl => ?_⟩, h.good⟩
  rcases h.entries hl with ⟨id', hl'⟩ | hn
  · exact i.inCombat hl'
  · exact hnew o v hn

/-! ## Ending combat -/

theorem endCombat_spec (env : Env U) {c₀ : CombatState U} {id : RefId} {r : CombatReference U}
    (i : Inv ⟨c₀, w.threat⟩) (hr : c₀.refs id = some r) (ht : c₀.Thinned w.combat r) :
    Yields (w.endCombat R env id) fun w' => w.Advances R w' ∧ c₀.Dropped w'.combat r := by
  unfold endCombat
  have hd : w.combat.deref id = .ok r := CombatState.deref_eq (by rw [ht.refs]; exact hr)
  rw [hd]
  refine (ThreatState.clearThreat_spec env i.threat r.first r.second).bind fun t₁ h₁ => ?_
  refine (ThreatState.clearThreat_spec env h₁.wf r.second r.first).bind fun t₂ h₂ => ?_
  refine (CombatState.dropReference_spec i.combat hr ht).bind ?_
  rintro c' ⟨hc, hdrop⟩
  refine .ok ⟨⟨⟨hc, h₂.wf, fun {o v j} hl => ?_⟩, fun g => h₂.good (h₁.good g)⟩, hdrop⟩
  -- the threat that is left is between other units, and their combat stands
  obtain ⟨hl₁, hn₂⟩ := h₂.of_lookup hl
  obtain ⟨hl₀, hn₁⟩ := h₁.of_lookup hl₁
  obtain ⟨k, cid, hcl⟩ := CombatState.isInCombatWith_iff.mp (i.inCombat hl₀)
  refine CombatState.isInCombatWith_iff.mpr ⟨k, cid, ?_⟩
  rw [hdrop.lookup, if_neg]
  · exact hcl
  · rintro ⟨-, h | h⟩
    · exact hn₁ h
    · exact hn₂ h

omit [DecidableEq U] in
theorem between_unique {a b v w w' : U} {k k' : Bool} (hne : a ≠ b)
    (h : CombatState.Between a b k v k' w) (h' : CombatState.Between a b k v k' w') : w = w' := by
  rcases h.2 with ⟨hv, hw⟩ | ⟨hv, hw⟩ <;> rcases h'.2 with ⟨hv', hw'⟩ | ⟨hv', hw'⟩
  · exact hw.trans hw'.symm
  · exact absurd (hv.symm.trans hv') hne
  · exact absurd (hv'.symm.trans hv) hne
  · exact hw.trans hw'.symm

/-- A loop that ends some of the owner's references and keeps the rest, with their ends and
suppressions as they were. -/
theorem sweep_spec (env : Env U) (owner : U) (k : Bool)
    {keep : CombatReference U → Option (CombatReference U)} (i : w.Inv)
    (hkeep : ∀ r r', keep r = some r' →
      r.SameEnds r' ∧ ∀ v, r'.isSuppressedFor v = r.isSuppressedFor v) :
    Yields (w.sweep R env owner k keep) (w.Advances R) := by
  -- an entry that the walk has not come to is still there
  let Inv : List (Sigma fun _ : U => RefId) → World H U → Prop := fun todo w' =>
    w.Advances R w' ∧ todo.NodupKeys ∧
      ∀ p ∈ todo, (w'.combat.refsOf owner k).lookup p.1 = some p.2
  refine (Yields.loop Inv _ ⟨.refl i, env.visit_nodupKeys _, fun p hp => env.mem_visit.mp hp⟩
    ?_).mono fun _ h => h.1
  rintro w' p todo ⟨ha, hnd, hthere⟩
  have hl := hthere p List.mem_cons_self
  have htodo := (List.nodupKeys_cons.mp hnd).2
  obtain ⟨r, hr⟩ := ha.inv.combat.wf.live hl
  unfold sweepRound
  rw [CombatState.deref_eq hr, ok_bind]
  cases hk : keep r with
  | some r' =>
    obtain ⟨hends, hsup⟩ := hkeep r r' hk
    have hinv : (w'.combat.setRef p.2 r').Inv :=
      ⟨CombatState.setRef_wf ha.inv.combat.wf hr hends,
        CombatState.setRef_flags ha.inv.combat.wf hr ha.inv.combat.flags fun v _ _ => hsup v⟩
    refine .ok ⟨ha.trans (advances_combat ha.inv hinv fun _ _ _ _ h => h), htodo, ?_⟩
    exact fun q hq => hthere q (List.mem_cons_of_mem p hq)
  | none =>
    have hb := ha.inv.combat.wf.between hr hl
    have hne := ha.inv.combat.wf.distinct hr
    let w₁ : World H U := { w' with combat := w'.combat.purgeReference owner p.1 k }
    have ht : w'.combat.Thinned w₁.combat r := CombatState.thinned_purgeReference hb
    have hend : Yields (w₁.endCombat R env p.2) fun w'' =>
        w₁.Advances R w'' ∧ w'.combat.Dropped w''.combat r := endCombat_spec env ha.inv hr ht
    refine hend.mono ?_
    rintro w'' ⟨h, hdrop⟩
    refine ⟨⟨h.inv, fun g => h.good (ha.good g)⟩, htodo, fun q hq => ?_⟩
    rw [hdrop.lookup, if_neg]
    · exact hthere q (List.mem_cons_of_mem p hq)
    · intro hb'
      refine (List.nodupKeys_cons.mp hnd).1 ?_
      rw [between_unique hne hb hb']
      exact List.mem_keys_of_mem hq

/-- `Update` ends the references whose timers run out. -/
theorem combatUpdate_spec (env : Env U) (owner : U) (tdiff : ℕ) (i : w.Inv) :
    Yields (w.combatUpdate R env owner tdiff) (w.Advances R) := by
  refine sweep_spec env owner true i fun r r' h => ?_
  split at h
  · exact CombatReference.update_sameEnds h
  · cases h
    exact ⟨⟨rfl, rfl, rfl⟩, fun _ => rfl⟩

theorem sweep_inRange_spec (env : Env U) (owner : U) (k : Bool) (range : ℚ) (i : w.Inv) :
    Yields (w.sweep R env owner k (inRange env range)) (w.Advances R) := by
  refine sweep_spec env owner k i fun r r' h => ?_
  unfold inRange at h
  split at h
  · cases h
    exact ⟨⟨rfl, rfl, rfl⟩, fun _ => rfl⟩
  · cases h

theorem endCombatBeyondRange_spec (env : Env U) (owner : U) (range : ℚ) (includingPvP : Bool)
    (i : w.Inv) :
    Yields (w.endCombatBeyondRange R env owner range includingPvP) (w.Advances R) := by
  unfold endCombatBeyondRange
  refine (sweep_inRange_spec env owner false range i).bind fun w₁ h₁ => ?_
  split
  · exact .ok h₁
  · exact (sweep_inRange_spec env owner true range h₁.inv).mono fun w₂ h₂ => h₁.trans h₂

/-- Each round ends one reference, so the loop ends. -/
theorem endAllOf_spec (env : Env U) (owner : U) (k : Bool) (i : w.Inv) :
    Yields (w.endAllOf R env owner k) (w.Advances R) := by
  refine (Yields.drain (w.Advances R) (fun w' => (w'.combat.refsOf owner k).entries.length)
    ?_ _ (.refl i) (le_refl _)).mono fun _ h => h.1
  intro w' p h hfirst
  have hl := ThreatState.head_visit hfirst
  obtain ⟨r, hr⟩ := h.inv.combat.wf.live hl
  refine (endCombat_spec env h.inv hr (.refl _ _)).mono ?_
  rintro w'' ⟨h', hdrop⟩
  refine ⟨h.trans h', length_lt_of_lookup hl ?_ fun v j hl' => ⟨j, (hdrop.of_lookup hl').1⟩⟩
  rw [hdrop.lookup, if_pos (h.inv.combat.wf.between hr hl)]

theorem endAllPvECombat_spec (env : Env U) (owner : U) (i : w.Inv) :
    Yields (w.endAllPvECombat R env owner) (w.Advances R) := by
  unfold endAllPvECombat
  refine (ThreatState.removeMeFromThreatLists_spec env i.threat owner).bind fun t₁ h₁ => ?_
  refine (ThreatState.clearAllThreat_spec env h₁.wf owner).bind fun t₂ h₂ => ?_
  have ha : w.Advances R { w with threat := t₂ } :=
    advances_threat i (h₁.trans h₂) fun _ _ h => h.elim
  exact (endAllOf_spec env owner false ha.inv).mono fun w' h => ha.trans h

/-! ## Adding threat -/

/-- Where `SetInCombatWith` answers true, the two are in combat. -/
theorem setInCombatWith_spec (R : Rounding) (env : Env U) (owner who : U) (i : w.Inv) :
    Yields (w.setInCombatWith env owner who) fun p =>
      w.Advances R p.2 ∧ (p.1 = true → p.2.combat.isInCombatWith owner who = true) := by
  unfold setInCombatWith
  refine (CombatState.setInCombatWith_spec env owner who i.combat).bind ?_
  rintro ⟨b, c⟩ ⟨⟨hi, hk⟩, hb⟩
  exact .ok ⟨advances_combat i hi hk, hb⟩

theorem addCombatOnly_spec (env : Env U) (owner target : U) (i : w.Inv) :
    Yields (w.addCombatOnly env owner target) (w.Advances R) := by
  unfold addCombatOnly
  refine (setInCombatWith_spec R env owner target i).bind ?_
  rintro ⟨b, w₁⟩ ⟨h₁, -⟩
  show Yields (if _ then _ else _) _
  split
  · exact .ok h₁
  · refine Yields.foldlM _ h₁ fun w₂ pair _ h₂ => ?_
    split
    · exact .ok h₂
    · split
      · exact .ok h₂
      · refine (setInCombatWith_spec R env owner pair.1 h₂.inv).bind ?_
        rintro ⟨b', w₃⟩ ⟨h₃, -⟩
        exact .ok (h₂.trans h₃)

/-- Where `SetInCombatWith` fails, no threat is added. -/
theorem applyThreat_spec (env : Env U) (owner target : U) (amount : ℚ) (i : w.Inv) :
    Yields (w.applyThreat R env owner target amount) (w.Advances R) := by
  unfold applyThreat
  refine (setInCombatWith_spec R env owner target i).bind ?_
  rintro ⟨b, w₁⟩ ⟨h₁, hb⟩
  show Yields (if _ then _ else _) _
  split
  · exact .ok h₁
  · next hnb =>
    have hcombat : w₁.combat.isInCombatWith owner target = true := hb (by simpa using hnb)
    have hadvances : ∀ t, (w₁.threat.Within R t fun o v => o = owner ∧ v = target) →
        w.Advances R { w₁ with threat := t } := by
      intro t h
      refine h₁.trans (advances_threat h₁.inv h ?_)
      rintro o v ⟨rfl, rfl⟩
      exact hcombat
    cases hl : (w₁.threat.myRefs owner).lookup target with
    | some id =>
      obtain ⟨r, hr, -⟩ := h₁.inv.threat.joins hl
      have hadded := ThreatState.addToEntry_spec (R := R) env h₁.inv.threat hr amount
      exact hadded.bind fun t h => .ok (hadvances t (h.within _))
    | none =>
      have hnew := ThreatState.newEntry_spec (R := R) env h₁.inv.threat owner target amount hl
      exact hnew.bind fun t h => .ok (hadvances t h)

/-- `AddThreat`, for any way to redirect that advances the world. -/
theorem addThreatWith_spec {redirect : World H U → ℚ → Except Fault (ℚ × World H U)}
    (hredirect : ∀ w a, w.Inv → Yields (redirect w a) fun p => w.Advances R p.2) (env : Env U)
    (owner target : U) (amount : ℚ) (spell : Option SpellInfo) (ignoreModifiers : Bool) (i : w.Inv)
    :
    Yields (addThreatWith R redirect env w owner target amount spell ignoreModifiers)
      (w.Advances R) := by
  unfold addThreatWith
  split
  · exact .ok (.refl i)
  · split
    · exact addCombatOnly_spec env owner target i
    · refine (hredirect w _ i).bind ?_
      rintro ⟨a, w₁⟩ h₁
      exact (applyThreat_spec env owner target a h₁.inv).mono fun w₂ h₂ => h₁.trans h₂

theorem noRedirect_spec (w : World H U) (a : ℚ) (i : w.Inv) :
    Yields (.ok (a, w) : Except Fault (ℚ × World H U)) fun p => w.Advances R p.2 := .ok (.refl i)

/-- What is redirected is added without a further redirection. -/
theorem redirectThreat_spec (env : Env U) (owner target : U) (spell : Option SpellInfo)
    (w : World H U) (amount : ℚ) (i : w.Inv) :
    Yields (redirectThreat R env owner target spell w amount) fun p => w.Advances R p.2 := by
  unfold redirectThreat
  split
  · exact .ok (.refl i)
  · refine Yields.foldlM _ (.refl i) ?_
    rintro ⟨rest, w₁⟩ pair - h₁
    show Yields (if _ then _ else _) _
    split
    · refine (addThreatWith_spec noRedirect_spec env owner pair.1 _ spell true h₁.inv).bind ?_
      exact fun w₂ h₂ => .ok (h₁.trans h₂)
    · exact .ok h₁

theorem addThreat_spec (env : Env U) (owner target : U) (amount : ℚ) (spell : Option SpellInfo)
    (ignoreModifiers ignoreRedirects : Bool) (i : w.Inv) :
    Yields (w.addThreat R env owner target amount spell ignoreModifiers ignoreRedirects)
      (w.Advances R) := by
  refine addThreatWith_spec (fun w a i => ?_) env owner target amount spell ignoreModifiers i
  split
  · exact noRedirect_spec w a i
  · exact redirectThreat_spec env owner target spell w a i

theorem highestThreat_spec {t : ThreatState H U} (wf : t.WF) (owner : U) :
    Yields (highestThreat R t owner) fun _ => True := by
  have hread : ∀ id ∈ H.ordered (t.key R) (t.sorted owner), ∃ r, t.deref id = .ok r :=
    fun id h => wf.deref_entry (wf.mem_ordered.mp h)
  unfold highestThreat
  split
  · exact .ok trivial
  · next first rest heq =>
    rw [heq] at hread
    obtain ⟨r, hr⟩ := hread first List.mem_cons_self
    rw [hr]
    show Yields (if _ then _ else _) _
    split
    · exact .ok trivial
    · cases rest with
      | nil => exact .ok trivial
      | cons second rest =>
        obtain ⟨a, ha⟩ := hread second (List.mem_cons_of_mem _ List.mem_cons_self)
        show Yields (t.deref second >>= _) _
        rw [ha]
        show Yields (if _ then _ else _) _
        split
        · exact .ok trivial
        · exact .ok trivial

theorem matchUnitThreatToHighestThreat_spec (env : Env U) (owner target : U) (i : w.Inv) :
    Yields (w.matchUnitThreatToHighestThreat R env owner target) (w.Advances R) := by
  unfold matchUnitThreatToHighestThreat
  refine (highestThreat_spec i.threat owner).bind fun highest _ => ?_
  cases highest with
  | none => exact .ok (.refl i)
  | some highest =>
    have hadd := fun amount => addThreat_spec (R := R) env owner target amount none true true i
    cases hl : (w.threat.myRefs owner).lookup target with
    | none => exact hadd _
    | some id =>
      obtain ⟨r, hr, -⟩ := i.threat.joins hl
      dsimp only
      rw [ThreatState.deref_bind hr]
      exact hadd _

end World

end Sunstrider.Combat
