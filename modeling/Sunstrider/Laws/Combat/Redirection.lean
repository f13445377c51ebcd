import Mathlib.Algebra.BigOperators.Group.List.Basic
import Mathlib.Tactic.Linarith
import Sunstrider.Laws.Combat.Runs

/-!
# Redirected threat

`UpdateRedirectInfo` never lists more than 100% (`redirectRound_capped`), in whatever order it walks the
registry, and so no run of registrations does. `AddThreat` reads that list by index, while the `AddThreat`
of each victim runs inside its loop. That call leaves every list of redirections alone and takes no entry
away (`ThreatState.Grows`), so the loop meets the list that it started with (`redirectByIndex_eq`), and the
shares and the rest are those of the list (`redirection_conserves_threat`).
-/

namespace Sunstrider.Combat

open Sunstrider.Lib (MutableHeap Rounding Yields Answers run run_keeps addU32_eq subU32_eq subU32)

variable {U : Type}

/-! ## The list of redirections -/

/-- The percentages so far are positive, and come to the total, which is no more than 100. -/
structure RedirectLoop.Capped (s : RedirectLoop U) : Prop where
  positive : ∀ p ∈ s.redirectInfo, 0 < p.2
  total : (s.redirectInfo.map Prod.snd).sum = s.totalPct
  atMost : s.totalPct ≤ 100

theorem redirectRound_capped {s : RedirectLoop U} (h : s.Capped) (victimPair : U × ℕ) :
    Yields (redirectRound s victimPair) RedirectLoop.Capped := by
  have hatMost := h.atMost
  unfold redirectRound
  rw [subU32_eq hatMost (by omega)]
  split
  · exact .ok h
  · dsimp only
    rw [addU32_eq (by omega)]
    split
    · next hpos =>
      rw [if_pos (by omega)]
      refine .ok ⟨fun p hp => ?_, ?_, by dsimp only; omega⟩
      · rcases List.mem_append.mp hp with hp | hp
        · exact h.positive p hp
        · rw [List.mem_singleton.mp hp]
          exact hpos
      · simp [h.total]
    · exact .ok h

/-- However far the walk has come, `100 - totalPct` does not wrap, and no `ASSERT` has failed. -/
theorem redirectRounds_capped (walk : List (U × ℕ)) :
    Yields (walk.foldlM redirectRound ⟨[], 0, false⟩) RedirectLoop.Capped :=
  Yields.foldlM walk ⟨fun _ hp => (nomatch hp), rfl, Nat.zero_le 100⟩ fun _ pair _ h =>
    redirectRound_capped h pair

namespace Redirects

/-- The percentages are positive and come to no more than 100. -/
structure Capped (r : Redirects U) : Prop where
  positive : ∀ p ∈ r.redirectInfo, 0 < p.2
  sum_le : (r.redirectInfo.map Prod.snd).sum ≤ 100

theorem updateRedirectInfo_capped (visit : RedirectVisit U) (registry : RedirectRegistry U) :
    Yields (updateRedirectInfo visit registry) Capped :=
  (redirectRounds_capped _).bind fun _ h => .ok ⟨h.positive, h.total.trans_le h.atMost⟩

variable [DecidableEq U]

theorem step_capped (r : Redirects U) (op : RedirectVisit U × Op U) (h : r.Capped) :
    Yields (r.step op) Capped := by
  obtain ⟨visit, op⟩ := op
  cases op with
  | register spellId victim pct => exact updateRedirectInfo_capped visit _
  | unregisterSpell spellId =>
    show Yields (if _ then _ else _) _
    split
    · exact .ok h
    · exact updateRedirectInfo_capped visit _
  | unregister spellId victim =>
    show Yields (r.unregisterRedirectThreat visit spellId victim) _
    unfold unregisterRedirectThreat
    split
    · exact .ok h
    · split
      · exact .ok h
      · exact updateRedirectInfo_capped visit _

/-- **Every run of registrations** succeeds, and its list of redirections is capped. -/
theorem run_capped (ops : List (RedirectVisit U × Op U)) : Yields (run step none ops) Capped :=
  run_keeps step_capped ops ⟨fun _ hp => (nomatch hp), Nat.zero_le 100⟩

end Redirects

/-- The amount that `AddThreat` redirects. -/
def Env.modifiedThreat (env : Env U) (amount : ℚ) (target : U) (spell : Option SpellInfo)
    (ignoreModifiers : Bool) : ℚ :=
  if ignoreModifiers then amount else env.calculateModifiedThreat amount target spell

variable [DecidableEq U] {H : MutableHeap RefId ThreatKey} {R : Rounding}

/-! ## What a nested call leaves alone -/

namespace ThreatState

/-- Nobody's redirections changed, and every entry is still there. -/
structure Grows (t t' : ThreatState H U) : Prop where
  redirectInfo : ∀ u, (t'.manager u).redirectInfo = (t.manager u).redirectInfo
  entries : ∀ o v, ((t.myRefs o).lookup v).isSome → ((t'.myRefs o).lookup v).isSome

variable {t t' t'' : ThreatState H U} {env : Env U} {owner target : U} {id : RefId}

theorem Grows.refl (t : ThreatState H U) : t.Grows t := ⟨fun _ => rfl, fun _ _ h => h⟩

theorem Grows.trans (h : t.Grows t') (h' : t'.Grows t'') : t.Grows t'' :=
  ⟨fun u => (h'.redirectInfo u).trans (h.redirectInfo u), fun o v he => h'.entries o v (h.entries o v he)⟩

theorem modifyManager_grows (u : U) {f : ThreatManager H U → ThreatManager H U}
    (hinfo : (f (t.manager u)).redirectInfo = (t.manager u).redirectInfo)
    (hentries : ∀ v, ((t.myRefs u).lookup v).isSome →
      ((f (t.manager u)).myThreatListEntries.lookup v).isSome) : t.Grows (t.modifyManager u f) := by
  refine ⟨fun u' => ?_, fun o v he => ?_⟩
  · by_cases hu : u' = u
    · rw [hu]
      simpa [modifyManager] using hinfo
    · simp [modifyManager, hu]
  · by_cases ho : o = u
    · rw [ho] at he ⊢
      simpa [modifyManager, myRefs] using hentries v he
    · simpa [modifyManager, myRefs, ho] using he

theorem writeNotify_grows (t : ThreatState H U) (id : RefId) (r r' : ThreatReference U)
    (d : Lib.Direction) : t.Grows (t.writeNotify R id r r' d) where
  redirectInfo u := manager_writeNotify_field (·.redirectInfo) u fun _ _ => rfl
  entries o v h := by
    have hsame : (t.writeNotify R id r r' d).myRefs o = t.myRefs o :=
      manager_writeNotify_field (·.myThreatListEntries) o fun _ _ => rfl
    rw [hsame]
    exact h

theorem refAddThreat_grows (amount : ℚ) : Answers (t.refAddThreat R id amount) t.Grows := by
  unfold refAddThreat
  refine Answers.bind (P := fun _ => True) (fun _ _ => trivial) fun r _ => ?_
  split
  · exact .ok (.refl t)
  · exact .ok ((writeNotify_grows t id r _ _).trans (modifyManager_grows _ rfl fun _ h => h))

theorem refUpdateOffline_grows : Answers (t.refUpdateOffline R env id) t.Grows := by
  unfold refUpdateOffline
  refine Answers.bind (P := fun _ => True) (fun _ _ => trivial) fun r _ => ?_
  split
  · exact .ok (.refl t)
  · split
    · exact .ok (writeNotify_grows t id r _ _)
    · exact .ok (writeNotify_grows t id r _ _)

theorem updateVictim_grows : Answers (t.updateVictim R env owner) t.Grows := by
  have hselect : Answers (t.reselectVictim R env owner) fun p => t.Grows p.2 := by
    unfold reselectVictim
    split
    · exact .ok (.refl t)
    · refine Answers.bind (P := t.Grows) ?_ fun t₁ h₁ => ?_
      · exact Answers.foldlM _ (.refl t) fun t₁ p _ h₁ t₂ ht₂ => h₁.trans (refUpdateOffline_grows t₂ ht₂)
      · exact Answers.bind (P := fun _ => True) (fun _ _ => trivial) fun _ _ => .ok h₁
  unfold updateVictim
  exact hselect.bind fun p h => .ok (h.trans (modifyManager_grows _ rfl fun _ h => h))

theorem putThreatListRef_grows : Answers (t.putThreatListRef R owner target id) t.Grows := by
  unfold putThreatListRef
  split
  · exact .error
  · refine .ok (modifyManager_grows owner rfl fun v hv => ?_)
    show ((AList.insert target id (t.myRefs owner)).lookup v).isSome
    by_cases h : v = target
    · rw [h, AList.lookup_insert]
      rfl
    · rw [AList.lookup_insert_ne h]
      exact hv

theorem putThreatenedByMeRef_grows : Answers (t.putThreatenedByMeRef target owner id) t.Grows := by
  unfold putThreatenedByMeRef
  split
  · exact .error
  · exact .ok (modifyManager_grows _ rfl fun _ h => h)

theorem newEntry_grows (amount : ℚ) : Answers (t.newEntry R env owner target amount) t.Grows := by
  unfold newEntry
  refine Answers.bind (P := t.Grows) (fun t₁ h₁ => ?_) fun t₁ h₁ => ?_
  · obtain ⟨hinfo, hentries⟩ := putThreatListRef_grows t₁ h₁
    exact ⟨hinfo, hentries⟩
  refine (putThreatenedByMeRef_grows (t := t₁)).bind fun t₂ h₂ => ?_
  refine (refUpdateOffline_grows (t := t₂)).bind fun t₃ h₃ => ?_
  refine Answers.bind (P := fun _ => True) (fun _ _ => trivial) fun r _ => ?_
  have hadd : Answers (if r.isOnline then t₃.refAddThreat R t.nextRef amount else .ok t₃) t₃.Grows := by
    split
    · exact refAddThreat_grows amount
    · exact .ok (.refl t₃)
  refine hadd.bind fun t₄ h₄ => ?_
  have hfour : t.Grows t₄ := h₁.trans (h₂.trans (h₃.trans h₄))
  split
  · exact .ok hfour
  · intro t₅ h₅
    have hengaged : t₄.Grows (t₄.modifyManager owner fun m => { m with ownerEngaged := true }) :=
      modifyManager_grows _ rfl fun _ h => h
    exact hfour.trans (hengaged.trans (updateVictim_grows t₅ h₅))

theorem addToEntry_grows (amount : ℚ) : Answers (t.addToEntry R env id amount) t.Grows := by
  unfold addToEntry
  refine Answers.bind (P := fun _ => True) (fun _ _ => trivial) fun r _ => ?_
  have hcome : t.Grows (if r.isSuppressed && !r.shouldBeSuppressed env then
      t.writeNotify R id r { r with online := .online } .increased else t) := by
    split
    · exact writeNotify_grows t id r _ _
    · exact .refl t
  refine Answers.bind (P := fun _ => True) (fun _ _ => trivial) fun r' _ => ?_
  split
  · exact fun t' ht' => hcome.trans (refAddThreat_grows amount t' ht')
  · exact .ok hcome

end ThreatState

/-! ## The loop by index -/

namespace World

variable {w w' : World H U} {env : Env U} {owner target : U} {spell : Option SpellInfo}

theorem setInCombatWith_threat (who : U) :
    Answers (w.setInCombatWith env owner who) fun p => p.2.threat = w.threat := by
  unfold setInCombatWith
  exact Answers.bind (P := fun _ => True) (fun _ _ => trivial) fun _ _ => .ok rfl

theorem applyThreat_grows (amount : ℚ) :
    Answers (w.applyThreat R env owner target amount) fun w' => w.threat.Grows w'.threat := by
  unfold applyThreat
  refine (setInCombatWith_threat target).bind ?_
  rintro ⟨b, w₁⟩ hthreat
  rw [← hthreat]
  dsimp only
  split
  · exact .ok (.refl w₁.threat)
  · refine Answers.bind (P := w₁.threat.Grows) ?_ fun t h => .ok h
    split
    · exact ThreatState.addToEntry_grows amount
    · exact ThreatState.newEntry_grows amount

theorem addCombatOnly_grows :
    Answers (w.addCombatOnly env owner target) fun w' => w.threat.Grows w'.threat := by
  unfold addCombatOnly
  refine (setInCombatWith_threat target).bind ?_
  rintro ⟨b, w₁⟩ hthreat
  rw [← hthreat]
  dsimp only
  split
  · exact .ok (.refl w₁.threat)
  · refine Answers.foldlM _ (.refl w₁.threat) fun w₂ pair _ h₂ => ?_
    split
    · exact .ok h₂
    · split
      · exact .ok h₂
      · refine (setInCombatWith_threat pair.1).bind fun p hp => .ok ?_
        rw [hp]
        exact h₂

theorem addThreatWith_grows (amount : ℚ) :
    Answers (addThreatWith R (fun w a => .ok (a, w)) env w owner target amount spell true) fun w' =>
      w.threat.Grows w'.threat := by
  unfold addThreatWith
  split
  · exact .ok (.refl w.threat)
  · split
    · exact addCombatOnly_grows
    · exact applyThreat_grows amount

theorem redirectShare_grows (origAmount rest : ℚ) (pair : U × ℕ) :
    Answers (redirectShare R env owner spell origAmount rest w pair) fun p => w.threat.Grows p.2.threat := by
  unfold redirectShare
  split
  · exact (addThreatWith_grows _).bind fun w' h => .ok h
  · exact .ok (.refl w.threat)

/-- **The loop by index meets the list that it started with.** -/
theorem redirectByIndex_eq (origAmount : ℚ) {fuel i : ℕ} {rest : ℚ}
    (hi : i ≤ (w.threat.manager target).redirectInfo.length)
    (hfuel : (w.threat.manager target).redirectInfo.length < fuel + i) :
    redirectByIndex R env owner target spell origAmount fuel i rest w =
      ((w.threat.manager target).redirectInfo.drop i).foldlM
        (fun p pair => redirectShare R env owner spell origAmount p.1 p.2 pair) (rest, w) := by
  induction fuel generalizing i rest w with
  | zero => omega
  | succ fuel ih =>
    unfold redirectByIndex
    cases hpair : (w.threat.manager target).redirectInfo[i]? with
    | none =>
      rw [List.drop_eq_nil_of_le (List.getElem?_eq_none_iff.mp hpair)]
      rfl
    | some pair =>
      obtain ⟨hlt, hget⟩ := List.getElem?_eq_some_iff.mp hpair
      rw [List.drop_eq_getElem_cons hlt, hget, List.foldlM_cons]
      refine Answers.bind_congr (redirectShare_grows origAmount rest pair) fun p hp => ?_
      have hsame := hp.redirectInfo target
      rw [← hsame]
      exact ih (by rw [hsame]; omega) (by rw [hsame]; omega)

theorem addThreatWith_congr {f g : World H U → ℚ → Except Fault (ℚ × World H U)}
    (h : ∀ a, f w a = g w a) {amount : ℚ} {ignoreModifiers : Bool} :
    addThreatWith R f env w owner target amount spell ignoreModifiers =
      addThreatWith R g env w owner target amount spell ignoreModifiers := by
  unfold addThreatWith
  simp only [h]

/-- The two ways in which the loop is written do the same. -/
theorem addThreatByIndex_eq {fuel : ℕ} (hfuel : (w.threat.manager target).redirectInfo.length < fuel)
    (amount : ℚ) (ignoreModifiers ignoreRedirects : Bool) :
    w.addThreatByIndex R fuel env owner target amount spell ignoreModifiers ignoreRedirects =
      w.addThreat R env owner target amount spell ignoreModifiers ignoreRedirects := by
  have hredirect (a : ℚ) :
      (if !ignoreRedirects && decide (0 < a) then redirectByIndex R env owner target spell a fuel 0 a w
        else .ok (a, w)) =
      (if ignoreRedirects then fun w a => .ok (a, w) else redirectThreat R env owner target spell) w a := by
    cases ignoreRedirects with
    | true => rfl
    | false =>
      show (if (true && decide (0 < a)) then _ else _) = redirectThreat R env owner target spell w a
      unfold redirectThreat
      by_cases ha : 0 < a
      · rw [if_pos (by simp [ha]), if_neg (not_le.mpr ha),
          redirectByIndex_eq a (Nat.zero_le _) (by omega), List.drop_zero]
        rfl
      · rw [if_neg (by simp [ha]), if_pos (not_lt.mp ha)]
  exact addThreatWith_congr hredirect

/-! ## Shares -/

/-- `AddThreat`, once it is decided which victim gets which share, and what is kept for the target. -/
def addShares (R : Rounding) (env : Env U) (w : World H U) (owner target : U) (spell : Option SpellInfo)
    (shares : List (U × ℚ)) (kept : ℚ) : Except Fault (World H U) :=
  if spell.any fun s => s.noThreat || (!w.isEngaged owner && s.noInitialAggro) then .ok w
  else if !(w.threat.manager owner).ownerCanHaveThreatList then w.addCombatOnly env owner target
  else do
    let w ← shares.foldlM (fun w share =>
      addThreatWith R (fun w a => .ok (a, w)) env w owner share.1 share.2 spell true) w
    w.applyThreat R env owner target kept

/-- Where the redirections pass the shares on, and keep the rest. -/
theorem addThreatWith_eq_addShares {redirect : World H U → ℚ → Except Fault (ℚ × World H U)}
    {amount kept : ℚ} {ignoreModifiers : Bool} {shares : List (U × ℚ)}
    (h : redirect w (env.modifiedThreat amount target spell ignoreModifiers) =
      (shares.foldlM (fun w share =>
        addThreatWith R (fun w a => .ok (a, w)) env w owner share.1 share.2 spell true) w >>= fun w' =>
          .ok (kept, w'))) :
    addThreatWith R redirect env w owner target amount spell ignoreModifiers =
      w.addShares R env owner target spell shares kept := by
  unfold Env.modifiedThreat at h
  unfold addThreatWith addShares
  split
  · rfl
  · split
    · rfl
    · dsimp only
      rw [h, bind_assoc]
      rfl

/-- Where every victim is found, every victim gets its share. -/
theorem redirectShares_eq {info : List (U × ℕ)} (origAmount rest : ℚ)
    (hfound : ∀ p ∈ info, ((w.threat.myRefs owner).lookup p.1).isSome ∨ env.getUnit owner p.1) :
    info.foldlM (fun p pair => redirectShare R env owner spell origAmount p.1 p.2 pair) (rest, w) =
      ((info.map fun p => (p.1, calculatePct R origAmount p.2)).foldlM (fun w share =>
        addThreatWith R (fun w a => .ok (a, w)) env w owner share.1 share.2 spell true) w >>= fun w' =>
          .ok ((info.map fun p => calculatePct R origAmount p.2).foldl R.sub rest, w')) := by
  induction info generalizing rest w with
  | nil => rfl
  | cons pair info ih =>
    have hpair : (((w.threat.myRefs owner).lookup pair.1).isSome || env.getUnit owner pair.1) = true := by
      simpa using hfound pair List.mem_cons_self
    rw [List.foldlM_cons, List.map_cons, List.foldlM_cons, List.map_cons, List.foldl_cons, bind_assoc]
    unfold redirectShare
    rw [if_pos hpair, bind_assoc]
    refine Answers.bind_congr (addThreatWith_grows _) fun w' hgrows => ?_
    refine ih _ fun p hp => ?_
    exact (hfound p (List.mem_cons_of_mem pair hp)).imp_left (hgrows.entries owner p.1)

omit [DecidableEq U] in
/-- Exact shares of percentages that come to no more than 100 leave something of what is shared. -/
theorem sum_calculatePct (amount : ℚ) (info : List (U × ℕ)) :
    (info.map fun p => calculatePct .exact amount p.2).sum = amount * (info.map Prod.snd).sum / 100 := by
  induction info with
  | nil => simp
  | cons p info ih =>
    have hshare : calculatePct .exact amount p.2 = amount * p.2 / 100 := rfl
    rw [List.map_cons, List.sum_cons, ih, hshare, List.map_cons, List.sum_cons]
    push_cast
    ring

theorem foldl_sub_exact (l : List ℚ) (rest : ℚ) : l.foldl Rounding.exact.sub rest = rest - l.sum := by
  induction l generalizing rest with
  | nil => simp
  | cons a l ih =>
    have hsub : Rounding.exact.sub rest a = rest - a := rfl
    rw [List.foldl_cons, ih, hsub, List.sum_cons, sub_sub]

/-- **Redirection neither creates nor destroys threat.** Every run of registrations succeeds, with positive
percentages that come to no more than 100, and `100 - totalPct` wraps at no point of a walk. With what it
leaves, where every victim is found, `AddThreat` passes shares on and keeps the rest for the target: they
come to the modified amount, no share is negative, and the rest is not either unless that amount is. -/
theorem redirection_conserves_threat (ops : List (RedirectVisit U × Redirects.Op U)) :
    ∃ r, run Redirects.step Redirects.none ops = .ok r ∧ r.Capped ∧
      (∀ (visit : RedirectVisit U) registry n,
        Yields (((visit.walk registry).take n).foldlM redirectRound ⟨[], 0, false⟩) fun s =>
          subU32 100 s.totalPct + s.totalPct = 100) ∧
      ∀ (w : World H U) (env : Env U) (owner target : U) (amount : ℚ) (spell : Option SpellInfo)
        (ignoreModifiers ignoreRedirects : Bool) (fuel : ℕ),
        (w.threat.manager target).redirectInfo = r.redirectInfo → r.redirectInfo.length < fuel →
        (∀ p ∈ r.redirectInfo, ((w.threat.myRefs owner).lookup p.1).isSome ∨ env.getUnit owner p.1) →
        ∃ shares kept,
          w.addThreatByIndex .exact fuel env owner target amount spell ignoreModifiers ignoreRedirects =
            w.addShares .exact env owner target spell shares kept ∧
          (shares.map Prod.snd).sum + kept = env.modifiedThreat amount target spell ignoreModifiers ∧
          (∀ share ∈ shares, 0 ≤ share.2) ∧
          (0 ≤ env.modifiedThreat amount target spell ignoreModifiers → 0 ≤ kept) ∧
          (ignoreRedirects = false → 0 < env.modifiedThreat amount target spell ignoreModifiers →
            shares.map Prod.fst = r.redirectInfo.map Prod.fst) := by
  obtain ⟨r, hrun, hcapped⟩ := Redirects.run_capped ops
  refine ⟨r, hrun, hcapped, fun visit registry n => ?_, ?_⟩
  · refine (redirectRounds_capped _).mono fun s h => ?_
    rw [subU32_eq h.atMost (by omega)]
    have := h.atMost
    omega
  intro w env owner target amount spell ignoreModifiers ignoreRedirects fuel hinfo hfuel hfound
  rw [addThreatByIndex_eq (by rw [hinfo]; exact hfuel)]
  unfold addThreat
  generalize ha : env.modifiedThreat amount target spell ignoreModifiers = a
  by_cases hredirects : ignoreRedirects = false ∧ 0 < a
  · obtain ⟨rfl, hpos⟩ := hredirects
    refine ⟨r.redirectInfo.map fun p => (p.1, calculatePct .exact a p.2),
      a - (r.redirectInfo.map fun p => calculatePct .exact a p.2).sum, ?_, ?_, ?_, ?_, ?_⟩
    · refine addThreatWith_eq_addShares ?_
      rw [ha, if_neg Bool.false_ne_true, ← foldl_sub_exact, ← redirectShares_eq a a hfound, ← hinfo]
      unfold redirectThreat
      rw [if_neg (not_le.mpr hpos)]
      rfl
    · have hsame : (r.redirectInfo.map fun p => (p.1, calculatePct .exact a p.2)).map Prod.snd =
          r.redirectInfo.map fun p => calculatePct .exact a p.2 := by simp
      rw [hsame, add_sub_cancel]
    · intro share hshare
      obtain ⟨p, -, rfl⟩ := List.mem_map.mp hshare
      exact div_nonneg (mul_nonneg hpos.le (Nat.cast_nonneg p.2)) (by norm_num)
    · intro _
      have hsum : ((r.redirectInfo.map Prod.snd).sum : ℚ) ≤ 100 := by exact_mod_cast hcapped.sum_le
      rw [sum_calculatePct, sub_nonneg, div_le_iff₀ (by norm_num)]
      exact mul_le_mul_of_nonneg_left hsum hpos.le
    · intro _ _
      simp
  · -- nothing is redirected
    refine ⟨[], a, addThreatWith_eq_addShares ?_, zero_add a, fun _ h => (nomatch h), fun h => h,
      fun hi hpos => absurd ⟨hi, hpos⟩ hredirects⟩
    rw [ha]
    cases ignoreRedirects with
    | true => rfl
    | false =>
      have hle : a ≤ 0 := not_lt.mp fun hpos => hredirects ⟨rfl, hpos⟩
      rw [if_neg Bool.false_ne_true]
      unfold redirectThreat
      rw [if_pos hle]
      rfl

/-- The maps are walked as they are stored. -/
def storedOrder : RedirectVisit (Fin 3) where
  spells m := m.entries
  victims _ m := m.entries
  spells_perm m := .refl m.entries
  victims_perm _ m := .refl m.entries

/-- Two spells redirect 70% and 50% of a unit's threat, which makes 100% in all, and a third is gone again. -/
def twoRedirects : List (RedirectVisit (Fin 3) × Redirects.Op (Fin 3)) :=
  [(storedOrder, .register 1 2 50), (storedOrder, .register 2 2 20), (storedOrder, .register 3 1 70),
    (storedOrder, .unregisterSpell 2)]

theorem redirection_conserves_threat_twoRedirects :
    ∃ shares kept,
      (initial (fun _ => true) fun u => if u = 0 then [(1, 70), (2, 30)] else [] : Field).addThreatByIndex
          .exact 3 (inSight []) 1 0 100 none false false =
        (initial (fun _ => true) fun u => if u = 0 then [(1, 70), (2, 30)] else [] : Field).addShares
          .exact (inSight []) 1 0 none shares kept ∧
      (shares.map Prod.snd).sum + kept = 100 ∧ (∀ share ∈ shares, 0 ≤ share.2) ∧ 0 ≤ kept ∧
      shares.map Prod.fst = [1, 2] := by
  obtain ⟨r, hrun, -, -, hshares⟩ :=
    redirection_conserves_threat (H := MutableHeap.sortedList RefId ThreatKey) twoRedirects
  have hinfo : r.redirectInfo = [(1, 70), (2, 30)] := by
    have hmap : ((run Redirects.step Redirects.none twoRedirects).toOption.map (·.redirectInfo)) =
        some [(1, 70), (2, 30)] := by decide +kernel
    rw [hrun] at hmap
    exact Option.some.inj hmap
  obtain ⟨shares, kept, heq, hsum, hnonneg, hkept, hvictims⟩ :=
    hshares (initial (fun _ => true) fun u => if u = 0 then [(1, 70), (2, 30)] else []) (inSight []) 1 0 100
      none false false 3 hinfo.symm (by rw [hinfo]; decide) fun _ _ => .inr rfl
  have hmodified : (inSight []).modifiedThreat 100 0 none false = 100 := rfl
  rw [hmodified] at hsum hkept hvictims
  refine ⟨shares, kept, heq, hsum, hnonneg, hkept (by norm_num), ?_⟩
  rw [hvictims rfl (by norm_num), hinfo]
  rfl

end World

end Sunstrider.Combat
