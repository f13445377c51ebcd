import Sunstrider.Laws.Combat.World

/-!
# Runs of the combat and threat systems

Every run from the world without combat and threat keeps `World.Inv` and meets no fault, whatever
the operations and whatever the answers of the rest of the server. The main results read that
invariant for the users of the two systems.

The threat heaps stay well structured in the runs that `Admits` allows. The comment of
`ThreatReference` promises it of all runs, and `UpdateMyTempModifiers` breaks the promise.
-/

namespace Sunstrider.Combat.World

open Sunstrider.Lib (MutableHeap Rounding Yields run run_keeps Admitted run_keeps_of_admitted)

variable {U : Type} [DecidableEq U] {H : MutableHeap RefId ThreatKey}

/-! ## One step -/

/-- The operations that keep the heaps well structured: all but an update of temporary modifiers
that moves two entries apart, and a scaling of a single reference by a negative factor. -/
def Admits (R : Rounding) (w : World H U) : Env U × Op U → Prop
  | (env, .updateMyTempModifiers a) => ThreatState.UniformModifiers R env w.threat a
  | (_, .refScaleThreat _ _ factor) => 0 ≤ factor
  | _ => True

instance (R : Rounding) (w : World H U) (op : Env U × Op U) : Decidable (Admits R w op) := by
  unfold Admits
  split <;> infer_instance

/-- What one operation does: it keeps the invariant, and a good threat state good where it is
admitted. -/
def Steps (R : Rounding) (w : World H U) (op : Env U × Op U) (w' : World H U) : Prop :=
  w'.Inv ∧ (Admits R w op → w.threat.Good R → w'.threat.Good R)

section Parts

variable {R : Rounding} {w : World H U} {op : Env U × Op U}

theorem steps_of_advances {x : Except Fault (World H U)} (h : Yields x (w.Advances R)) :
    Yields x (Steps R w op) := h.mono fun _ h => ⟨h.inv, fun _ => h.good⟩

theorem steps_inCombat (i : w.Inv) {x : Except Fault (CombatState U)}
    (h : Yields x fun c => c.Inv ∧ w.combat.Keeps c) : Yields (w.inCombat x) (Steps R w op) :=
  steps_of_advances (h.bind fun _ hc => .ok (advances_combat i hc.1 hc.2))

variable {x : Except Fault (ThreatState H U)}

theorem steps_inThreat (i : w.Inv) (h : Yields x (w.threat.Evolves R)) :
    Yields (w.inThreat x) (Steps R w op) :=
  steps_of_advances (h.bind fun _ ht =>
    .ok (advances_threat i (ht.within fun _ _ => False) fun _ _ hn => hn.elim))

theorem steps_inThreat_within (i : w.Inv)
    (h : Yields x fun t => w.threat.Within R t fun _ _ => False) :
    Yields (w.inThreat x) (Steps R w op) :=
  steps_of_advances (h.bind fun _ ht => .ok (advances_threat i ht fun _ _ hn => hn.elim))

theorem steps_inThreat_of_stays (i : w.Inv) (h : Yields x fun t =>
      w.threat.Stays t ∧ (Admits R w op → w.threat.Good R → t.Good R)) :
    Yields (w.inThreat x) (Steps R w op) := by
  refine h.bind fun t ht => .ok ⟨⟨i.combat, ht.1.wf, fun hl => ?_⟩, ht.2⟩
  rw [ht.1.lists.myRefs] at hl
  exact i.inCombat hl

theorem steps_onThreatRef (i : w.Inv) {a b : U} {f : RefId → Except Fault (ThreatState H U)}
    (h : ∀ id r, w.threat.refs id = some r → Yields (f id) fun t =>
      w.threat.Stays t ∧ (Admits R w op → w.threat.Good R → t.Good R)) :
    Yields (w.inThreat (w.onThreatRef a b f)) (Steps R w op) := by
  refine steps_inThreat_of_stays i ?_
  unfold onThreatRef
  split
  · exact .ok ⟨⟨.refl _, i.threat⟩, fun _ g => g⟩
  · next id hl =>
    obtain ⟨r, hr, -⟩ := i.threat.joins hl
    exact h id r hr

theorem steps_onCombatRef (i : w.Inv) {a b : U} {k : Bool} {f : RefId → Except Fault (World H U)}
    (h : ∀ id r, w.combat.refs id = some r → CombatState.Between r.first r.second r.isPvP a k b →
      Yields (f id) (Steps R w op)) : Yields (w.onCombatRef a b k f) (Steps R w op) := by
  unfold onCombatRef
  split
  · exact .ok ⟨i, fun _ g => g⟩
  · next id hl =>
    obtain ⟨r, hr⟩ := i.combat.wf.live hl
    exact h id r hr (i.combat.wf.between hr hl)

end Parts

/-- **One step.** No operation meets a fault. -/
theorem step_spec (R : Rounding) (w : World H U) (op : Env U × Op U) (i : w.Inv) :
    Yields (w.step R op) (Steps R w op) := by
  have retains : ∀ {x : Except Fault (CombatState U)}, Yields x (w.combat.Retains ·) →
      Yields x fun c => c.Inv ∧ w.combat.Keeps c := fun h => h.mono fun c hc => ⟨hc.inv, hc.keeps⟩
  obtain ⟨env, op⟩ := op
  cases op with
  | setInCombatWith a b =>
    refine steps_of_advances ((setInCombatWith_spec R env a b i).bind ?_)
    rintro ⟨_, w'⟩ ⟨h, -⟩
    exact .ok h
  | inheritCombatStatesFrom a b =>
    exact steps_inCombat i (CombatState.inheritCombatStatesFrom_spec env a b i.combat)
  | suppressPvPCombat a =>
    exact steps_inCombat i (retains (CombatState.suppressPvPCombat_spec env a i.combat))
  | suppressFor a b who =>
    show Yields (if _ then _ else _) _
    split
    · next hwho =>
      refine steps_onCombatRef i fun id r hr hb => steps_inCombat i (retains ?_)
      refine CombatState.suppressFor_spec who i.combat hr ?_
      rcases hb.2 with ⟨rfl, rfl⟩ | ⟨rfl, rfl⟩
      · exact hwho
      · exact hwho.symm
    · exact .ok ⟨i, fun _ g => g⟩
  | refresh a b =>
    exact steps_onCombatRef i fun id r hr _ =>
      steps_inCombat i (retains (CombatState.refresh_spec i.combat hr))
  | combatUpdate a tdiff => exact steps_of_advances (combatUpdate_spec env a tdiff i)
  | endCombat a b k =>
    refine steps_onCombatRef i fun id r hr _ => steps_of_advances ?_
    exact (endCombat_spec env i hr (.refl _ r)).mono fun _ h => h.1
  | endCombatBeyondRange a range pvp =>
    exact steps_of_advances (endCombatBeyondRange_spec env a range pvp i)
  | endAllPvECombat a => exact steps_of_advances (endAllPvECombat_spec env a i)
  | endAllPvPCombat a => exact steps_of_advances (endAllOf_spec env a true i)
  | addThreat a b amount spell noMod noRedirect =>
    exact steps_of_advances (addThreat_spec env a b amount spell noMod noRedirect i)
  | matchUnitThreatToHighestThreat a b =>
    exact steps_of_advances (matchUnitThreatToHighestThreat_spec env a b i)
  | scaleThreat a b factor =>
    exact steps_inThreat i (ThreatState.scaleThreat_spec i.threat a b factor)
  | resetAllThreat a => exact steps_inThreat i (ThreatState.resetAllThreat_spec env i.threat a)
  | clearThreat a b =>
    refine steps_inThreat_within i ?_
    exact (ThreatState.clearThreat_spec env i.threat a b).mono fun t h => h.within _
  | clearAllThreat a =>
    exact steps_inThreat_within i (ThreatState.clearAllThreat_spec env i.threat a)
  | removeMeFromThreatLists a =>
    exact steps_inThreat_within i (ThreatState.removeMeFromThreatLists_spec env i.threat a)
  | fixateTarget a b =>
    exact steps_inThreat i (.ok (ThreatState.fixateTarget_spec i.threat a b))
  | tauntUpdate a => exact steps_inThreat i (ThreatState.tauntUpdate_spec env i.threat a)
  | evaluateSuppressed a canExpire =>
    exact steps_inThreat i (ThreatState.evaluateSuppressed_spec env i.threat a canExpire)
  | updateMyTempModifiers a =>
    exact steps_inThreat_of_stays i (ThreatState.updateMyTempModifiers_spec env i.threat a)
  | threatUpdate a tdiff => exact steps_inThreat i (ThreatState.update_spec env i.threat a tdiff)
  | updateVictim a => exact steps_inThreat i (ThreatState.updateVictim_spec env i.threat a)
  | refAddThreat a b amount =>
    refine steps_onThreatRef i fun id r hr => ?_
    exact (ThreatState.refAddThreat_spec i.threat hr amount).mono
      fun t h => ⟨h.toStays, fun _ => h.good⟩
  | refScaleThreat a b factor =>
    exact steps_onThreatRef i fun id r hr => ThreatState.refScaleThreat_spec i.threat hr factor
  | refUpdateOffline a b =>
    refine steps_onThreatRef i fun id r hr => ?_
    exact (ThreatState.refUpdateOffline_spec env i.threat hr).mono
      fun t h => ⟨h.toStays, fun _ => h.good⟩

/-! ## Runs -/

theorem initial_combat_inv : (CombatState.initial : CombatState U).Inv := by
  have hnone : ∀ {u v k id}, ((CombatState.initial : CombatState U).refsOf u k).lookup v ≠
      some id := by
    intro u v k id h
    cases k <;> exact nomatch h
  refine ⟨⟨fun h => (hnone h).elim, fun h => (hnone h).elim, fun h => (hnone h).elim,
    fun h => (nomatch h), fun _ => rfl⟩, fun u _ => ⟨fun h => (nomatch h), fun h => ?_⟩⟩
  rcases h with ⟨v, id, hl⟩ | ⟨v, id, r, hl, -⟩
  · exact (hnone hl).elim
  · exact (hnone hl).elim

theorem initial_threat_wf (canHave : U → Bool) (redirects : U → List (U × ℕ)) :
    (ThreatState.initial canHave redirects : ThreatState H U).WF where
  mirror := ⟨fun h => (nomatch h), fun h => (nomatch h)⟩
  joins h := nomatch h
  stored h := nomatch h
  listed {o id} := by
    show id ∈ H.elems H.empty ↔ _
    rw [H.elems_empty]
    exact ⟨fun h => (Finset.notMem_empty id h).elim, fun ⟨_, h⟩ => (nomatch h)⟩
  current h := nomatch h
  fixate h := nomatch h
  fresh _ := rfl

theorem initial_inv (canHave : U → Bool) (redirects : U → List (U × ℕ)) :
    (initial canHave redirects : World H U).Inv :=
  ⟨initial_combat_inv, initial_threat_wf canHave redirects, fun h => (nomatch h)⟩

omit [DecidableEq U] in
theorem initial_good (R : Rounding) (canHave : U → Bool) (redirects : U → List (U × ℕ)) :
    (initial canHave redirects : World H U).threat.Good R :=
  ⟨fun h => (nomatch h), fun _ => H.ordered_empty _, fun _ h => (nomatch h)⟩

/-- **The run theorem.** Every run succeeds and ends in a consistent world. -/
theorem run_inv (R : Rounding) (canHave : U → Bool) (redirects : U → List (U × ℕ))
    (ops : List (Env U × Op U)) :
    Yields (run (step R) (initial canHave redirects : World H U) ops) Inv :=
  run_keeps (fun w op i => (step_spec R w op i).mono fun _ h => h.1) ops
    (initial_inv canHave redirects)

/-- **Combat references are symmetric and unique.** After every run, the two units' maps hold the
same live reference between them, in one of the two kinds at most. -/
theorem combat_references_symmetric (R : Rounding) (canHave : U → Bool)
    (redirects : U → List (U × ℕ)) (ops : List (Env U × Op U)) :
    ∃ w, run (step R) (initial canHave redirects : World H U) ops = .ok w ∧
      (∀ k a b, (w.combat.refsOf a k).lookup b = (w.combat.refsOf b k).lookup a) ∧
      (∀ k a b id, (w.combat.refsOf a k).lookup b = some id → a ≠ b ∧
        ∃ r, w.combat.refs id = some r ∧ r.isPvP = k ∧
          (r.first = a ∧ r.second = b ∨ r.first = b ∧ r.second = a)) ∧
      ∀ a b, ¬ (b ∈ w.combat.refsOf a false ∧ b ∈ w.combat.refsOf a true) := by
  obtain ⟨w, hw, i⟩ := run_inv (H := H) R canHave redirects ops
  have wf := i.combat.wf
  refine ⟨w, hw, fun k a b => ?_, fun k a b id hl => ?_, fun a b ⟨hpve, hpvp⟩ => ?_⟩
  · exact Option.ext fun id => ⟨fun h => wf.mirror h, fun h => wf.mirror h⟩
  · obtain ⟨r, hr, hk, he⟩ := wf.joins hl
    refine ⟨?_, r, hr, hk, he⟩
    rintro rfl
    rcases he with ⟨h₁, h₂⟩ | ⟨h₁, h₂⟩
    · exact wf.distinct hr (h₁.trans h₂.symm)
    · exact wf.distinct hr (h₁.trans h₂.symm)
  · obtain ⟨id, hl⟩ := Option.isSome_iff_exists.mp (AList.lookup_isSome.mpr hpve)
    obtain ⟨id', hl'⟩ := Option.isSome_iff_exists.mp (AList.lookup_isSome.mpr hpvp)
    exact wf.exclusive hl hl'

/-- **The combat flag is exact.** After every run, a unit is in combat exactly when it has a PvE
reference, or a PvP reference that is not suppressed for it. -/
theorem in_combat_iff_unsuppressed_reference (R : Rounding) (canHave : U → Bool)
    (redirects : U → List (U × ℕ)) (ops : List (Env U × Op U)) :
    ∃ w, run (step R) (initial canHave redirects : World H U) ops = .ok w ∧
      (∀ u, w.combat.isInCombat u = true ↔
        (∃ v, v ∈ w.combat.refsOf u false) ∨
          ∃ v id r, (w.combat.refsOf u true).lookup v = some id ∧ w.combat.refs id = some r ∧
            r.isSuppressedFor u = false) ∧
      (∀ a b, b ∈ w.combat.refsOf a false →
        w.combat.isInCombat a = true ∧ w.combat.isInCombat b = true) ∧
      ∀ a b id r, (w.combat.refsOf a true).lookup b = some id → w.combat.refs id = some r →
        (r.isSuppressedFor a = false → w.combat.isInCombat a = true) ∧
          (r.isSuppressedFor b = false → w.combat.isInCombat b = true) := by
  obtain ⟨w, hw, i⟩ := run_inv (H := H) R canHave redirects ops
  have wf := i.combat.wf
  have mem : ∀ {u v : U}, v ∈ w.combat.refsOf u false ↔
      ∃ id, (w.combat.refsOf u false).lookup v = some id := fun {u v} => by
    rw [← AList.lookup_isSome, Option.isSome_iff_exists]
  have flag : ∀ u, w.combat.isInCombat u = true ↔ w.combat.Engaged u :=
    fun u => i.combat.flags u not_false
  refine ⟨w, hw, fun u => ?_, fun a b h => ?_, fun a b id r hl hr => ⟨fun hs => ?_, fun hs => ?_⟩⟩
  · rw [flag u]
    simp only [mem]
    exact Iff.rfl
  · obtain ⟨id, hl⟩ := mem.mp h
    exact ⟨(flag a).mpr (.inl ⟨b, id, hl⟩), (flag b).mpr (.inl ⟨a, id, wf.mirror hl⟩)⟩
  · exact (flag a).mpr (.inr ⟨b, id, r, hl, hr, hs⟩)
  · exact (flag b).mpr (.inr ⟨a, id, r, wf.mirror hl, hr, hs⟩)

/-- **Threat implies combat, and threat references are stored consistently.** After every run, which
no loop keeps from ending, a live reference is in each of its three containers, they hold nothing
else, and the cached pointers are entries. -/
theorem threat_references_consistent (R : Rounding) (canHave : U → Bool)
    (redirects : U → List (U × ℕ)) (ops : List (Env U × Op U)) :
    ∃ w, run (step R) (initial canHave redirects : World H U) ops = .ok w ∧
      (∀ o v id, (w.threat.myRefs o).lookup v = some id ↔
        ∃ r, w.threat.refs id = some r ∧ r.owner = o ∧ r.victim = v) ∧
      (∀ o id, id ∈ H.elems (w.threat.sorted o) ↔ ∃ r, w.threat.refs id = some r ∧ r.owner = o) ∧
      (∀ o v id, (w.threat.byMeRefs v).lookup o = some id ↔
        ∃ r, w.threat.refs id = some r ∧ r.owner = o ∧ r.victim = v) ∧
      (∀ id id' r r', w.threat.refs id = some r → w.threat.refs id' = some r' →
        r.owner = r'.owner → r.victim = r'.victim → id = id') ∧
      (∀ id r, w.threat.refs id = some r → ∃ k cid c,
        (w.combat.refsOf r.owner k).lookup r.victim = some cid ∧ w.combat.refs cid = some c ∧
          (c.first = r.owner ∧ c.second = r.victim ∨ c.first = r.victim ∧ c.second = r.owner)) ∧
      ∀ o id, (w.threat.manager o).currentVictimRef = some id ∨
          (w.threat.manager o).fixateRef = some id →
        ∃ r, w.threat.refs id = some r ∧ (w.threat.myRefs o).lookup r.victim = some id := by
  obtain ⟨w, hw, i⟩ := run_inv (H := H) R canHave redirects ops
  have wf := i.threat
  have mine : ∀ o v id, (w.threat.myRefs o).lookup v = some id ↔
      ∃ r, w.threat.refs id = some r ∧ r.owner = o ∧ r.victim = v := by
    refine fun o v id => ⟨fun h => wf.joins h, ?_⟩
    rintro ⟨r, hr, rfl, rfl⟩
    exact wf.stored hr
  refine ⟨w, hw, mine, fun o id => ?_, fun o v id => ?_, fun id id' r r' hr hr' ho hv => ?_,
    fun id r hr => ?_, fun o id h => ?_⟩
  · rw [wf.listed]
    constructor
    · exact fun h => wf.live h
    · rintro ⟨r, hr, rfl⟩
      exact ⟨r.victim, wf.stored hr⟩
  · rw [← wf.mirror]
    exact mine o v id
  · have hl := wf.stored hr'
    rw [← ho, ← hv, wf.stored hr] at hl
    exact Option.some.inj hl
  · obtain ⟨k, cid, hl⟩ := CombatState.isInCombatWith_iff.mp (i.inCombat (wf.stored hr))
    obtain ⟨c, hc, -, he⟩ := i.combat.wf.joins hl
    exact ⟨k, cid, c, hl, hc, he⟩
  · obtain ⟨v, hl⟩ := h.elim wf.current wf.fixate
    obtain ⟨r, hr, rfl, rfl⟩ := wf.joins hl
    exact ⟨r, hr, hl⟩

/-! ## The heaps -/

/-- An admitted run keeps both systems consistent, and the heaps well structured. -/
theorem run_good (R : Rounding) (canHave : U → Bool) (redirects : U → List (U × ℕ))
    (ops : List (Env U × Op U))
    (admitted : Admitted (step R) (Admits R) (initial canHave redirects : World H U) ops) :
    Yields (run (step R) (initial canHave redirects : World H U) ops) fun w =>
      w.Inv ∧ w.threat.Good R := by
  have keeps : ∀ (w : World H U) op, w.Inv ∧ w.threat.Good R → Admits R w op →
      Yields (w.step R op) fun w' => w'.Inv ∧ w'.threat.Good R := fun w op h ha =>
    (step_spec R w op h.1).mono fun w' h' => ⟨h'.1, h'.2 ha h.2⟩
  exact run_keeps_of_admitted keeps
    ⟨initial_inv canHave redirects, initial_good R canHave redirects⟩ admitted

/-- **The threat heaps stay well structured** in an admitted run: every notice that a heap got was
true of the key it reported, and the top of every list is maximal. -/
theorem threat_heap_well_structured (R : Rounding) (canHave : U → Bool)
    (redirects : U → List (U × ℕ)) (ops : List (Env U × Op U))
    (admitted : Admitted (step R) (Admits R) (initial canHave redirects : World H U) ops) :
    ∃ w, run (step R) (initial canHave redirects : World H U) ops = .ok w ∧
      (∀ n ∈ w.threat.notifications, n.Valid) ∧
      ∀ u top, H.top (w.threat.sorted u) = some top →
        ∀ v id, (w.threat.myRefs u).lookup v = some id →
          w.threat.key R id ≤ w.threat.key R top := by
  obtain ⟨w, hw, i, g⟩ := run_good R canHave redirects ops admitted
  refine ⟨w, hw, g.valid, fun u top htop v id hl => ?_⟩
  exact H.top_max _ _ _ (g.ordered u) htop id (i.threat.listed.mpr ⟨v, hl⟩)

scoped instance neZero_three : NeZero 3 := ⟨by decide⟩

/-- A moment at which everybody is alive, hostile and in sight, and unit 0 has the threat auras. -/
def inSight (auras : List ℤ) : Env (Fin 3) where
  isInWorld _ := true
  isAlive _ := true
  getMap _ := 0
  inSamePhase _ _ := true
  isEvading _ := false
  isInFlight _ := false
  isFriendlyTo _ _ := false
  isGameMaster _ := false
  isControlledByPlayer u := u == 0
  isImmuneToPC _ := false
  isImmuneToNPC _ := false
  isPlayerControlled u := u == 0
  isWithinDistInMap _ _ _ := true
  isWithinMeleeRange _ _ := true
  isTrigger _ := false
  canSeeOrDetect _ _ := true
  isTargetAcceptable _ _ := true
  canCreatureAttack _ _ := true
  isImmunedToDamage _ _ := false
  hasConfuseAura _ := false
  hasBreakableStunAura _ := false
  hasDetauntAuraFrom _ _ := false
  tauntCasters _ := []
  totalThreatAuras u := if u = 0 then auras else []
  calculateModifiedThreat amount _ _ := amount
  getUnit _ _ := true
  visit m := m.entries
  visit_perm m := .refl m.entries

/-- A world of a player (unit 0) and two creatures. -/
abbrev Field : Type := World (MutableHeap.sortedList RefId ThreatKey) (Fin 3)

def field : Field := initial (fun _ => true) fun _ => []

/-- The player has threat with one creature and fades. Then it gets threat with the second creature,
whose new reference has no modifier, and the fading ends. -/
def fadeThenSecondCreature : List (Env (Fin 3) × Op (Fin 3)) :=
  [(inSight [], .addThreat 1 0 100 none false false),
    (inSight [-800], .updateMyTempModifiers 0),
    (inSight [-800], .addThreat 2 0 50 none false false),
    (inSight [], .updateMyTempModifiers 0)]

/-- The end of the fading raises the player's threat with the first creature, whose heap is told
that it fell. -/
theorem fade_then_second_creature_misleads_heap :
    ∃ w, run (step Rounding.exact) field fadeThenSecondCreature = .ok w ∧
      ∃ n ∈ w.threat.notifications, ¬ n.Valid := by
  have hsome : ((run (step Rounding.exact) field fadeThenSecondCreature).toOption.map fun w =>
      w.threat.notifications.all fun n => decide n.Valid) = some false := by decide +kernel
  cases hrun : run (step Rounding.exact) field fadeThenSecondCreature with
  | error e =>
    rw [hrun] at hsome
    cases hsome
  | ok w =>
    rw [hrun] at hsome
    have hall : w.threat.notifications.all (fun n => decide n.Valid) = false :=
      Option.some.inj hsome
    refine ⟨w, rfl, ?_⟩
    simpa only [List.all_eq_false, decide_eq_true_eq] using hall

/-- With the aura on before either creature, the two entries move together. -/
theorem threat_heap_well_structured_fading :
    ∃ w, run (step Rounding.exact) field
        [(inSight [], .addThreat 1 0 100 none false false),
          (inSight [], .addThreat 2 0 50 none false false),
          (inSight [-800], .updateMyTempModifiers 0),
          (inSight [], .refScaleThreat 1 0 (1 / 2)),
          (inSight [], .updateMyTempModifiers 0)] = .ok w ∧
      (∀ n ∈ w.threat.notifications, n.Valid) ∧
      ∀ u top, (MutableHeap.sortedList RefId ThreatKey).top (w.threat.sorted u) = some top →
        ∀ v id, (w.threat.myRefs u).lookup v = some id →
          w.threat.key Rounding.exact id ≤ w.threat.key Rounding.exact top :=
  threat_heap_well_structured Rounding.exact _ _ _ (by decide +kernel)

end Sunstrider.Combat.World
