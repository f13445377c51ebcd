import Mathlib.Algebra.Order.Ring.Nat
import Sunstrider.Lib.Run
import Sunstrider.Player.CorpseReclaim

/-!
# The delay before a corpse can be reclaimed stays in its table

No death sets `m_deathExpireTime` further ahead than the table has delays (`Life.Bounded`), so neither index
leaves the table. Each death less than a period after the last sets it one period further ahead, and one in the
same second two. A login counts full periods where the game counts started ones, so the two agree but for a
corpse that was made a whole number of periods before the deaths are forgotten.
-/

namespace Sunstrider.CorpseReclaim

open Lib (addU32 addU32_eq foldl_keeps mulU32 mulU32_eq)

variable {c : Constants} {cfg : Config} {s : Life} {d : Death}

/-! ## The time at which deaths are forgotten -/

/-- The deaths are forgotten no later than after all periods. -/
def Life.Bounded (c : Constants) (s : Life) : Prop :=
  s.deathExpireTime ≤ s.now + c.maxDeathCount * c.deathExpireStep

variable {expire now : ℕ}

/-- What `UpdateCorpseReclaimDelay` does after deaths that are to be forgotten after at most all periods:
another period is added to the full ones that are left. -/
theorem updateCorpseReclaimDelay_eq {pvp : Bool} (hpvp : cfg.delays pvp = true) (hlt : now < expire)
    (h : expire ≤ now + c.maxDeathCount * c.deathExpireStep) :
    updateCorpseReclaimDelay c cfg expire now pvp =
      now + min ((expire - now) / c.deathExpireStep + 2) c.maxDeathCount * c.deathExpireStep := by
  have hle : (expire - now) / c.deathExpireStep ≤ c.maxDeathCount :=
    Nat.div_le_of_le_mul (by rw [Nat.mul_comm]; omega)
  have hfits := c.fits
  have hcount : c.maxDeathCount ≤ c.maxDeathCount * c.deathExpireStep := Nat.le_mul_of_pos_right _ c.step_pos
  have hadd : addU32 ((expire - now) / c.deathExpireStep) 1 = (expire - now) / c.deathExpireStep + 1 :=
    addU32_eq (by omega)
  rw [updateCorpseReclaimDelay, if_neg (by simp [hpvp]), if_pos hlt]
  dsimp only
  rw [hadd]
  split
  next hmore =>
    have hmul : ((expire - now) / c.deathExpireStep + 2) * c.deathExpireStep ≤
        c.maxDeathCount * c.deathExpireStep := Nat.mul_le_mul_right _ (by omega)
    have htwo : addU32 ((expire - now) / c.deathExpireStep + 1) 1 = (expire - now) / c.deathExpireStep + 2 :=
      addU32_eq (by omega)
    rw [htwo, mulU32_eq (by omega), Nat.min_eq_left (by omega)]
  next hmore => rw [Nat.min_eq_right (by omega)]

theorem bounded_step (h : s.Bounded c) (d : Death) : (s.step c cfg d).Bounded c := by
  have hone : c.deathExpireStep ≤ c.maxDeathCount * c.deathExpireStep := Nat.le_mul_of_pos_left _ c.count_pos
  have hexpire : s.deathExpireTime ≤ s.now + d.elapsed + c.maxDeathCount * c.deathExpireStep := by
    have := h
    unfold Life.Bounded at this
    omega
  show updateCorpseReclaimDelay c cfg s.deathExpireTime (s.now + d.elapsed) d.pvp ≤ _
  by_cases hpvp : cfg.delays d.pvp = true
  · by_cases hlt : s.now + d.elapsed < s.deathExpireTime
    · rw [updateCorpseReclaimDelay_eq hpvp hlt hexpire]
      exact Nat.add_le_add_left (Nat.mul_le_mul_right _ (Nat.min_le_right _ _)) _
    · rw [updateCorpseReclaimDelay, if_neg (by simp [hpvp]), if_neg hlt]
      exact Nat.add_le_add_left hone _
  · rw [updateCorpseReclaimDelay, if_pos (by simpa using hpvp)]
    exact hexpire

theorem bounded_foldl (h : s.deathExpireTime ≤ s.now) (deaths : List Death) :
    (deaths.foldl (Life.step c cfg) s).Bounded c := by
  have hkeeps : ∀ (s : Life) (d : Death), s.Bounded c → (s.step c cfg d).Bounded c :=
    fun _ d hs => bounded_step hs d
  exact foldl_keeps hkeeps deaths (Nat.le_add_right_of_le h)

/-! ## Indices -/

/-- The index of the game, while no deaths are to be forgotten after more than all periods. -/
theorem periods_eq (h : expire ≤ now + c.maxDeathCount * c.deathExpireStep) :
    periods c expire now = (expire - now - 1) / c.deathExpireStep := by
  have hsub : expire - 1 - now = expire - now - 1 := by omega
  rw [periods]
  split
  next hlt =>
    have hle := Nat.div_le_self (expire - now - 1) c.deathExpireStep
    have hfits := c.fits
    rw [hsub, Nat.mod_eq_of_lt (by omega)]
  next hge => rw [show expire - now - 1 = 0 by omega, Nat.zero_div]

theorem periods_lt (h : expire ≤ now + c.maxDeathCount * c.deathExpireStep) :
    periods c expire now < c.maxDeathCount := by
  have hall : 0 < c.maxDeathCount * c.deathExpireStep := Nat.mul_pos c.count_pos c.step_pos
  rw [periods_eq h, Nat.div_lt_iff_lt_mul c.step_pos]
  omega

theorem loadPeriods_lt (expire ghostTime : ℕ) (pvp : Bool) :
    loadPeriods c cfg expire ghostTime pvp < c.maxDeathCount := by
  have hpos := c.count_pos
  rw [loadPeriods]
  split
  · dsimp only
    split <;> omega
  · exact hpos

/-! ## Deaths one after another -/

/-- A player that has died `n` times, `n` at most all, whose deaths are forgotten after as many periods. -/
def Life.Owes (c : Constants) (n : ℕ) (s : Life) : Prop := s.deathExpireTime = s.now + n * c.deathExpireStep

variable {n : ℕ}

theorem Life.Owes.periods (h : s.Owes c n) (hpos : 0 < n) (hn : n ≤ c.maxDeathCount) :
    periods c s.deathExpireTime s.now = n - 1 := by
  have hle : n * c.deathExpireStep ≤ c.maxDeathCount * c.deathExpireStep := Nat.mul_le_mul_right _ hn
  have hstep := c.step_pos
  have hsplit : n * c.deathExpireStep = (n - 1) * c.deathExpireStep + c.deathExpireStep := by
    rw [← Nat.succ_mul, Nat.succ_eq_add_one, Nat.sub_add_cancel hpos]
  rw [periods_eq (by rw [h]; omega), h, show s.now + n * c.deathExpireStep - s.now - 1 =
    c.deathExpireStep - 1 + (n - 1) * c.deathExpireStep by omega, Nat.add_mul_div_right _ _ hstep,
    Nat.div_eq_of_lt (by omega), Nat.zero_add]

theorem owes_first (h : s.deathExpireTime ≤ s.now + d.elapsed) (hd : cfg.delays d.pvp = true) :
    (s.step c cfg d).Owes c 1 := by
  show updateCorpseReclaimDelay c cfg _ _ _ = s.now + d.elapsed + 1 * c.deathExpireStep
  rw [updateCorpseReclaimDelay, if_neg (by simp [hd]), if_neg (by omega), Nat.one_mul]

/-- The next death within a period adds a period, and another one where no second has passed. -/
theorem owes_next (h : s.Owes c n) (hpos : 0 < n) (hn : n ≤ c.maxDeathCount)
    (hd : cfg.delays d.pvp = true) (hlt : d.elapsed < c.deathExpireStep) :
    (s.step c cfg d).Owes c (min (n + if d.elapsed = 0 then 2 else 1) c.maxDeathCount) := by
  have hle : n * c.deathExpireStep ≤ c.maxDeathCount * c.deathExpireStep := Nat.mul_le_mul_right _ hn
  have hsplit : n * c.deathExpireStep = (n - 1) * c.deathExpireStep + c.deathExpireStep := by
    rw [← Nat.succ_mul, Nat.succ_eq_add_one, Nat.sub_add_cancel hpos]
  have hexpire : s.deathExpireTime = s.now + n * c.deathExpireStep := h
  show updateCorpseReclaimDelay c cfg _ _ _ = _
  rw [updateCorpseReclaimDelay_eq hd (by omega) (by omega)]
  have hperiods : (s.deathExpireTime - (s.now + d.elapsed)) / c.deathExpireStep =
      if d.elapsed = 0 then n else n - 1 := by
    split
    next hzero =>
      rw [hexpire, hzero, Nat.add_zero, Nat.add_sub_cancel_left, Nat.mul_div_cancel _ c.step_pos]
    next hsome =>
      rw [show s.deathExpireTime - (s.now + d.elapsed) =
        c.deathExpireStep - d.elapsed + (n - 1) * c.deathExpireStep by omega,
        Nat.add_mul_div_right _ _ c.step_pos, Nat.div_eq_of_lt (by omega), Nat.zero_add]
  rw [hperiods]
  show _ = s.now + d.elapsed + _
  congr 3
  split <;> omega

/-- The periods that deaths within a period of each other owe: one each, and another one for each that comes in
the second of the last. -/
theorem owes_streak (h : s.Owes c n) (hpos : 0 < n) (hn : n ≤ c.maxDeathCount) {deaths : List Death}
    (hdeaths : ∀ d ∈ deaths, cfg.delays d.pvp = true ∧ d.elapsed < c.deathExpireStep) :
    (deaths.foldl (Life.step c cfg) s).Owes c
      (min (n + deaths.length + deaths.countP fun d => d.elapsed = 0) c.maxDeathCount) := by
  induction deaths generalizing s n with
  | nil => simpa [Nat.min_eq_left hn] using h
  | cons d deaths ih =>
    obtain ⟨⟨hd, hlt⟩, hrest⟩ := List.forall_mem_cons.mp hdeaths
    have hnext := owes_next h hpos hn hd hlt
    have hfinal := ih hnext (by split <;> omega) (Nat.min_le_right _ _) hrest
    have hsum : min (min (n + if d.elapsed = 0 then 2 else 1) c.maxDeathCount + deaths.length +
        deaths.countP fun d => d.elapsed = 0) c.maxDeathCount =
        min (n + (d :: deaths).length + (d :: deaths).countP fun d => d.elapsed = 0) c.maxDeathCount := by
      by_cases hzero : d.elapsed = 0
      · simp [hzero]
        omega
      · simp [hzero]
        omega
    rwa [hsum] at hfinal

/-! ## Delays -/

theorem getCorpseReclaimDelay_isSome (h : expire ≤ now + c.maxDeathCount * c.deathExpireStep)
    (pvp : Bool) : (getCorpseReclaimDelay c cfg expire now pvp).isSome := by
  have hpos := c.count_pos
  have hlt := periods_lt h
  rw [← c.length_eq] at hpos hlt
  rw [getCorpseReclaimDelay]
  split
  · simpa using hlt
  · split
    · simpa using hpos
    · rfl

theorem calculateCorpseReclaimDelay_isSome (h : expire ≤ now + c.maxDeathCount * c.deathExpireStep)
    (load pvpDeath : Bool) (corpse : Option Corpse) :
    (calculateCorpseReclaimDelay c cfg load expire now pvpDeath corpse).isSome := by
  unfold calculateCorpseReclaimDelay
  cases load with
  | false => simpa using getCorpseReclaimDelay_isSome h _
  | true =>
    cases corpse with
    | none => rfl
    | some corpse =>
      have hlt : loadPeriods c cfg expire corpse.ghostTime corpse.pvp < c.maxDeathCount := loadPeriods_lt ..
      rw [← c.length_eq] at hlt
      dsimp only
      split
      · split
        · rfl
        · simpa using hlt
      · simp_all

/-- A corpse of this second for which a login finds the delay of the game. -/
def SameDelay (c : Constants) (cfg : Config) (expire now : ℕ) (pvp : Bool) : Prop :=
  now ≤ expire ∧
    if cfg.delays pvp then
      expire = now ∨ ¬ c.deathExpireStep ∣ expire - now ∨
        c.maxDeathCount ≤ (expire - now) / c.deathExpireStep ∨
        c.copseReclaimDelay[(expire - now) / c.deathExpireStep]? =
          c.copseReclaimDelay[(expire - now) / c.deathExpireStep - 1]?
    else pvp = true

/-- The delay that a login finds for a corpse of this second. -/
theorem calculate_load (hle : now ≤ expire) (pvp pvpDeath : Bool) :
    calculateCorpseReclaimDelay c cfg true expire now pvpDeath (some ⟨now, pvp⟩) =
      (c.copseReclaimDelay[loadPeriods c cfg expire now pvp]?).map fun delay => ((delay * 1000 : ℕ) : ℤ) := by
  rw [calculateCorpseReclaimDelay, if_pos rfl]
  dsimp only [Option.map_some, Option.getD_some]
  rw [if_neg (by omega)]
  cases hdelay : c.copseReclaimDelay[loadPeriods c cfg expire now pvp]? with
  | none => rfl
  | some delay =>
    have hpos := (c.delays delay (List.mem_of_getElem? hdelay)).1
    rw [Option.map_some, Option.map_some, if_neg (by omega), Nat.add_sub_cancel_left]

theorem map_milliseconds_inj {a b : Option ℕ} :
    (a.map fun delay => ((delay * 1000 : ℕ) : ℤ)) = b.map (fun delay => ((delay * 1000 : ℕ) : ℤ)) ↔ a = b := by
  have hinj : Function.Injective fun delay : ℕ => ((delay * 1000 : ℕ) : ℤ) := fun x y hxy => by
    have hxy' : ((x * 1000 : ℕ) : ℤ) = ((y * 1000 : ℕ) : ℤ) := hxy
    omega
  exact (Option.map_injective hinj).eq_iff

theorem index_eq_iff {d : ℕ} (h : d ≤ c.maxDeathCount * c.deathExpireStep) :
    c.copseReclaimDelay[if c.maxDeathCount ≤ d / c.deathExpireStep then c.maxDeathCount - 1
        else d / c.deathExpireStep]? = c.copseReclaimDelay[(d - 1) / c.deathExpireStep]? ↔
      d = 0 ∨ ¬ c.deathExpireStep ∣ d ∨ c.maxDeathCount ≤ d / c.deathExpireStep ∨
        c.copseReclaimDelay[d / c.deathExpireStep]? = c.copseReclaimDelay[d / c.deathExpireStep - 1]? := by
  have hstep := c.step_pos
  have hcount := c.count_pos
  by_cases hdvd : c.deathExpireStep ∣ d
  · obtain ⟨q, rfl⟩ := hdvd
    rw [Nat.mul_div_cancel_left _ hstep]
    cases q with
    | zero => simp [hcount.ne']
    | succ q =>
      have hpred : (c.deathExpireStep * (q + 1) - 1) / c.deathExpireStep = q := by
        rw [Nat.mul_succ, Nat.add_sub_assoc (by omega), Nat.add_comm, Nat.add_mul_div_left _ _ hstep,
          Nat.div_eq_of_lt (by omega), Nat.zero_add]
      have hq : q + 1 ≤ c.maxDeathCount := by
        rw [Nat.mul_comm] at h
        exact Nat.le_of_mul_le_mul_right h hstep
      rw [hpred, Nat.add_sub_cancel]
      split
      next hmax => simp [hmax, show c.maxDeathCount - 1 = q by omega]
      next hmax => simp [hmax, hstep.ne']
  · have hpred : (d - 1) / c.deathExpireStep = d / c.deathExpireStep := by
      have hsplit := Nat.div_add_mod d c.deathExpireStep
      have hlt := Nat.mod_lt d hstep
      rw [show d - 1 = d % c.deathExpireStep - 1 + c.deathExpireStep * (d / c.deathExpireStep) by omega,
        Nat.add_mul_div_left _ _ hstep, Nat.div_eq_of_lt (by omega), Nat.zero_add]
    have hlt : d / c.deathExpireStep < c.maxDeathCount := by
      rw [Nat.div_lt_iff_lt_mul hstep]
      exact lt_of_le_of_ne h fun heq => hdvd ⟨c.maxDeathCount, by rw [heq, Nat.mul_comm]⟩
    rw [hpred, if_neg (by omega)]
    simp [hdvd]

theorem calculate_eq_iff (h : expire ≤ now + c.maxDeathCount * c.deathExpireStep)
    (pvp pvpDeath : Bool) :
    calculateCorpseReclaimDelay c cfg true expire now pvpDeath (some ⟨now, pvp⟩) =
        calculateCorpseReclaimDelay c cfg false expire now pvpDeath (some ⟨now, pvp⟩) ↔
      SameDelay c cfg expire now pvp := by
  have hgame : calculateCorpseReclaimDelay c cfg false expire now pvpDeath (some ⟨now, pvp⟩) =
      (getCorpseReclaimDelay c cfg expire now pvp).map fun delay => ((delay * 1000 : ℕ) : ℤ) := rfl
  rw [hgame]
  by_cases hle : now ≤ expire
  · rw [calculate_load hle, map_milliseconds_inj, SameDelay, getCorpseReclaimDelay, loadPeriods, periods_eq h]
    by_cases hpvp : cfg.delays pvp = true
    · simp only [if_pos hpvp]
      rw [index_eq_iff (by omega)]
      simp only [hle, true_and]
      rw [show expire - now = 0 ↔ expire = now by omega]
    · simp only [if_neg hpvp]
      cases pvp with
      | true => simp [hle]
      | false =>
        have hzero : c.copseReclaimDelay[0]? ≠ some 0 := fun heq =>
          absurd (c.delays 0 (List.mem_of_getElem? heq)).1 (Nat.lt_irrefl 0)
        simpa [hle] using hzero
  · have hnone : calculateCorpseReclaimDelay c cfg true expire now pvpDeath (some ⟨now, pvp⟩) = some (-1) := by
      rw [calculateCorpseReclaimDelay, if_pos rfl]
      dsimp only
      rw [if_pos (by omega)]
    rw [hnone]
    refine ⟨fun heq => ?_, fun hsame => absurd hsame.1 hle⟩
    obtain ⟨delay, -, hdelay⟩ := Option.map_eq_some_iff.mp heq.symm
    omega

/-- **The reclaim delay after any history**: neither index leaves the table; the `n`-th of deaths that come
within a period of each other has the `n`-th delay or the last one, unless a second death comes in the second of
the first; and a login finds the delay of the game for a corpse of this second just under `SameDelay`. -/
theorem reclaim_iff (cfg : Config) (expired : s.deathExpireTime ≤ s.now) (deaths : List Death) :
    let t := deaths.foldl (Life.step c cfg) s
    (∀ wait pvp, (getCorpseReclaimDelay c cfg t.deathExpireTime (t.now + wait) pvp).isSome ∧
        ∀ load corpse,
          (calculateCorpseReclaimDelay c cfg load t.deathExpireTime (t.now + wait) pvp corpse).isSome) ∧
      (∀ first rest, t.deathExpireTime ≤ t.now + first.elapsed →
        (∀ d ∈ first :: rest, cfg.delays d.pvp = true) → (∀ d ∈ rest, d.elapsed < c.deathExpireStep) →
        let u := (first :: rest).foldl (Life.step c cfg) t
        periods c u.deathExpireTime u.now = min (rest.length + 1) c.maxDeathCount - 1 ↔
          c.maxDeathCount ≤ rest.length + 1 ∨ ∀ d ∈ rest, 0 < d.elapsed) ∧
      ∀ wait pvp pvpDeath,
        calculateCorpseReclaimDelay c cfg true t.deathExpireTime (t.now + wait) pvpDeath
            (some ⟨t.now + wait, pvp⟩) =
          calculateCorpseReclaimDelay c cfg false t.deathExpireTime (t.now + wait) pvpDeath
            (some ⟨t.now + wait, pvp⟩) ↔
          SameDelay c cfg t.deathExpireTime (t.now + wait) pvp := by
  intro t
  have hbounded : t.Bounded c := bounded_foldl expired deaths
  have hlater : ∀ wait, t.deathExpireTime ≤ t.now + wait + c.maxDeathCount * c.deathExpireStep := fun wait => by
    unfold Life.Bounded at hbounded
    omega
  refine ⟨fun wait pvp => ⟨getCorpseReclaimDelay_isSome (hlater wait) pvp, fun load corpse =>
    calculateCorpseReclaimDelay_isSome (hlater wait) load pvp corpse⟩, ?_, fun wait pvp pvpDeath =>
    calculate_eq_iff (hlater wait) pvp pvpDeath⟩
  intro first rest hfirst hdelays hrest u
  obtain ⟨hd, hdelays⟩ := List.forall_mem_cons.mp hdelays
  have hone : (t.step c cfg first).Owes c 1 := owes_first hfirst hd
  have howes : u.Owes c (min (1 + rest.length + rest.countP fun d => d.elapsed = 0) c.maxDeathCount) :=
    owes_streak hone Nat.one_pos c.count_pos fun d hmem => ⟨hdelays d hmem, hrest d hmem⟩
  have hcount := c.count_pos
  have hzero : (∀ d ∈ rest, 0 < d.elapsed) ↔ rest.countP (fun d => d.elapsed = 0) = 0 := by
    rw [List.countP_eq_zero]
    exact forall₂_congr fun d _ => by simp [Nat.pos_iff_ne_zero]
  rw [howes.periods (by omega) (Nat.min_le_right _ _), hzero]
  omega

/-- Two deaths, ten seconds one after the other, have the first delay and the second. -/
theorem reclaim_of_two :
    periods constants (([⟨0, false⟩, ⟨10, true⟩] : List Death).foldl
      (Life.step constants ⟨true, true⟩) ⟨1000, 0⟩).deathExpireTime 1010 = min 2 3 - 1 :=
  ((reclaim_iff (c := constants) (s := ⟨1000, 0⟩) ⟨true, true⟩ (by decide) []).2.1 ⟨0, false⟩ [⟨10, true⟩]
    (by decide) (by decide) (by decide)).mpr (.inr (by decide))

/-- A death at the second 1000: the game gives its corpse the first delay, and a login the second. After
another death in that second the game has the third delay. -/
theorem reclaim_off_by_one :
    let cfg : Config := ⟨true, true⟩
    let t := [(⟨0, false⟩ : Death)].foldl (Life.step constants cfg) ⟨1000, 0⟩
    calculateCorpseReclaimDelay constants cfg false t.deathExpireTime 1000 false (some ⟨1000, false⟩) =
        some 30000 ∧
      calculateCorpseReclaimDelay constants cfg true t.deathExpireTime 1000 false (some ⟨1000, false⟩) =
        some 60000 ∧
      periods constants (t.step constants cfg ⟨0, false⟩).deathExpireTime 1000 ≠ 1 := by
  decide

end Sunstrider.CorpseReclaim
