import Mathlib.Data.List.Nodup
import Sunstrider.Laws.Battlegrounds.SelectionPools

/-!
# Matches

`CheckNormalMatch` and, for arenas, `CheckSkirmishForSameFaction` after it. The first loop over a queue
ends at a group where there are enough players, so that the iterator can be advanced there
(`addUntil_spec`). A skirmish takes its side by whether the horde has exactly as many players as are
needed. If the horde has more and the alliance none, the side is empty and has no last group: for which
queues that does not happen is `matchesSafely_iff`.
-/

namespace Sunstrider.Battlegrounds

open Lib (Yields)

variable {groups : ℕ → GroupQueueInfo} {queue : List ℕ} {limit bound minPlayers maxPlayers : ℕ}
  {pool : SelectionPool} {itr : List ℕ}

/-! ## What may be found -/

/-- Two pools for a match of the two factions. -/
structure NormalMatch (cfg : QueueConfig) (q : BattlegroundQueue) (minPlayers maxPlayers : ℕ)
    (q' : BattlegroundQueue) : Prop where
  selected : ∀ team, Selected q team maxPlayers (q'.selectionPools team)
  enough : ∀ team, minPlayers ≤ (q'.selectionPools team).playerCount
  even : cfg.invitationType ≠ .noBalance →
    ((q'.selectionPools .horde).playerCount - (q'.selectionPools .alliance).playerCount : ℤ).natAbs ≤ 2

/-- Two pools for a skirmish between groups of one faction, the second of which changes sides. -/
structure SkirmishMatch (q : BattlegroundQueue) (minPlayers : ℕ) (q' : BattlegroundQueue)
    (team : TeamId) : Prop where
  queued : ∀ side, ∀ p ∈ (q'.selectionPools side).selectedGroups, p ∈ q.normal team
  distinct : ∀ side, (q'.selectionPools side).selectedGroups.Nodup
  disjoint : (q'.selectionPools team).selectedGroups.Disjoint
    (q'.selectionPools team.other).selectedGroups
  count : (q'.selectionPools team.other).playerCount = minPlayers ∧
    players q.groups (q'.selectionPools team.other).selectedGroups = minPlayers
  moved : ∀ p ∈ (q'.selectionPools team.other).selectedGroups,
    (q'.groups p).team = team.other ∧ p ∈ q'.normal team.other ∧ p ∉ q'.normal team

/-- **Matches are made safely.** No iterator is advanced past the end of a queue, and the pools are as
they should be. Where no match of the factions is found, the same holds for a skirmish. -/
def MatchesSafely (cfg : QueueConfig) (isBattleground : Bool) (minPlayers maxPlayers : ℕ)
    (q : BattlegroundQueue) : Prop :=
  Yields (q.initPools.checkNormalMatch cfg isBattleground minPlayers maxPlayers) fun r =>
    (r.1 = true → ¬ (cfg.isBattleGroundTesting = true ∧ isBattleground = true) →
      NormalMatch cfg q minPlayers maxPlayers r.2) ∧
    (r.1 = false → Yields (r.2.checkSkirmishForSameFaction minPlayers) fun s =>
      s.1 = true → ∃ team, SkirmishMatch q minPlayers s.2 team)

/-! ## The loops over a queue -/

/-- The groups of a queue, as far as they fit, first reach `minPlayers` by exceeding it. So many players
are selected already, fewer than that. -/
def Overshoots (groups : ℕ → GroupQueueInfo) (minPlayers maxPlayers : ℕ) : ℕ → List ℕ → Prop
  | _, [] => False
  | n, p :: queue =>
    if (groups p).invited = false ∧ n + (groups p).size ≤ maxPlayers then
      minPlayers < n + (groups p).size ∨
        n + (groups p).size < minPlayers ∧ Overshoots groups minPlayers maxPlayers (n + (groups p).size) queue
    else Overshoots groups minPlayers maxPlayers n queue

/-- The first loop over a queue. What is behind the iterator it is left with can still be selected, and
where there are enough players the iterator is at a group. -/
theorem addUntil_spec (h : Selecting groups queue maxPlayers pool itr)
    (hfew : pool.playerCount < minPlayers) :
    Selecting groups queue maxPlayers (pool.addUntil groups minPlayers maxPlayers itr).1
        (pool.addUntil groups minPlayers maxPlayers itr).2.tail ∧
      (minPlayers ≤ (pool.addUntil groups minPlayers maxPlayers itr).1.playerCount →
        (pool.addUntil groups minPlayers maxPlayers itr).2 ≠ []) := by
  induction itr generalizing pool with
  | nil => exact ⟨h, fun hle => absurd hfew (Nat.not_lt.mpr hle)⟩
  | cons p itr ih =>
    rw [SelectionPool.addUntil]
    split
    · exact ih h.skip hfew
    · have hadd := h.add (Nat.le_refl maxPlayers)
      dsimp only
      split
      · exact ⟨hadd, fun _ => List.cons_ne_nil _ _⟩
      · next hless => exact ih hadd (Nat.lt_of_not_le hless)

/-- The players that `AddGroup` counts, for a group that is not invited. -/
theorem addGroup_playerCount {p : ℕ} (hfree : (groups p).invited = false) :
    (pool.addGroup groups p bound).2.playerCount =
      if pool.playerCount + (groups p).size ≤ bound then pool.playerCount + (groups p).size
      else pool.playerCount := by
  rcases addGroup_cases groups pool p bound with ⟨hadd, -, hfit⟩ | ⟨hadd, hlarge⟩
  · rw [hadd, if_pos hfit]
  · rw [hadd, if_neg (Nat.not_le.mpr (hlarge hfree))]

theorem overshoots_iff (hfew : pool.playerCount < minPlayers) (itr : List ℕ) :
    minPlayers < (pool.addUntil groups minPlayers maxPlayers itr).1.playerCount ↔
      Overshoots groups minPlayers maxPlayers pool.playerCount itr := by
  induction itr generalizing pool with
  | nil => exact ⟨fun h => absurd hfew (Nat.not_lt.mpr (Nat.le_of_lt h)), fun h => h.elim⟩
  | cons p itr ih =>
    rw [SelectionPool.addUntil, Overshoots]
    by_cases hinvited : (groups p).invited = true
    · rw [if_pos hinvited, if_neg (by simp [hinvited]), ih hfew]
    · have hfree : (groups p).invited = false := by simpa using hinvited
      have hcount : (pool.addGroup groups p maxPlayers).2.playerCount = _ := addGroup_playerCount hfree
      rw [if_neg hinvited]
      generalize (pool.addGroup groups p maxPlayers).2 = pool' at hcount
      by_cases hfits : pool.playerCount + (groups p).size ≤ maxPlayers
      · rw [if_pos hfits] at hcount
        by_cases hreached : minPlayers ≤ pool'.playerCount
        · rw [if_pos hreached, if_pos ⟨hfree, hfits⟩, ← hcount]
          exact ⟨.inl, fun h => h.resolve_right fun hless => absurd hless.1 (Nat.not_lt.mpr hreached)⟩
        · have hless := Nat.lt_of_not_le hreached
          rw [if_neg hreached, if_pos ⟨hfree, hfits⟩, ← hcount, ih hless]
          exact ⟨fun h => .inr ⟨hless, h⟩, fun h => (h.resolve_left (Nat.lt_asymm hless)).2⟩
      · rw [if_neg hfits] at hcount
        have hless : pool'.playerCount < minPlayers := hcount ▸ hfew
        rw [if_neg (Nat.not_le.mpr hless), if_neg fun h => hfits h.2, ih hless, hcount]

theorem addGroup_grows (p : ℕ) : pool.playerCount ≤ (pool.addGroup groups p bound).2.playerCount := by
  rcases addGroup_cases groups pool p bound with ⟨heq, -⟩ | ⟨heq, -⟩
  · rw [heq]
    exact Nat.le_add_right _ _
  · exact Nat.le_of_eq (congrArg (fun r => r.2.playerCount) heq).symm

theorem addUntil_grows (itr : List ℕ) :
    pool.playerCount ≤ (pool.addUntil groups minPlayers maxPlayers itr).1.playerCount := by
  induction itr generalizing pool with
  | nil => exact Nat.le_refl _
  | cons p itr ih =>
    rw [SelectionPool.addUntil]
    split
    · exact ih
    · dsimp only
      split
      · exact addGroup_grows p
      · exact Nat.le_trans (addGroup_grows p) ih

/-- No group of the queue fits into a pool. -/
def NoneFits (groups : ℕ → GroupQueueInfo) (maxPlayers : ℕ) (queue : List ℕ) : Prop :=
  ∀ p ∈ queue, (groups p).invited = false → maxPlayers < (groups p).size

/-- The first loop selects no player where no group fits. -/
theorem addUntil_eq_zero (hmin : 0 < minPlayers) (hzero : pool.playerCount = 0) (itr : List ℕ) :
    (pool.addUntil groups minPlayers maxPlayers itr).1.playerCount = 0 ↔ NoneFits groups maxPlayers itr := by
  induction itr generalizing pool with
  | nil => exact ⟨fun _ p hp => absurd hp List.not_mem_nil, fun _ => hzero⟩
  | cons p itr ih =>
    rw [SelectionPool.addUntil, NoneFits, List.forall_mem_cons]
    by_cases hinvited : (groups p).invited = true
    · rw [if_pos hinvited, ih hzero, NoneFits]
      simp [hinvited]
    · have hfree : (groups p).invited = false := by simpa using hinvited
      have hcount : (pool.addGroup groups p maxPlayers).2.playerCount = _ := addGroup_playerCount hfree
      rw [hzero, Nat.zero_add] at hcount
      rw [if_neg hinvited]
      dsimp only
      generalize (pool.addGroup groups p maxPlayers).2 = pool' at hcount
      by_cases hfits : (groups p).size ≤ maxPlayers
      · rw [if_pos hfits] at hcount
        have hsome : 0 < pool'.playerCount := hcount ▸ (groups p).size_pos
        have hgrows : pool'.playerCount ≤ (pool'.addUntil groups minPlayers maxPlayers itr).1.playerCount :=
          addUntil_grows itr
        have hlater := Nat.lt_of_lt_of_le hsome hgrows
        constructor
        · intro h
          split at h
          · exact absurd h (Nat.ne_of_gt hsome)
          · exact absurd h (Nat.ne_of_gt hlater)
        · rintro ⟨hlarge, -⟩
          exact absurd hfits (Nat.not_le.mpr (hlarge hfree))
      · rw [if_neg hfits] at hcount
        rw [if_neg (by omega), ih hcount]
        exact ⟨fun h => ⟨fun _ => Nat.lt_of_not_le hfits, h⟩, fun h => h.2⟩

theorem addUninvited_spec (h : Selecting groups queue limit pool itr) (hbound : bound ≤ limit) :
    (∃ itr', Selecting groups queue limit (pool.addUninvited groups bound itr) itr') ∧
      pool.playerCount ≤ (pool.addUninvited groups bound itr).playerCount := by
  induction itr generalizing pool with
  | nil => exact ⟨⟨[], h⟩, Nat.le_refl _⟩
  | cons p itr ih =>
    rw [SelectionPool.addUninvited]
    split
    · exact ih h.skip
    · have hadd := h.add hbound
      have hgrows : pool.playerCount ≤ (pool.addGroup groups p bound).2.playerCount := addGroup_grows p
      split
      next pool' heq =>
        rw [heq] at hadd hgrows
        obtain ⟨hselecting, hle⟩ := ih hadd
        exact ⟨hselecting, Nat.le_trans hgrows hle⟩
      next pool' heq =>
        rw [addGroup_false heq]
        exact ⟨⟨_, h⟩, Nat.le_refl _⟩

/-! ## A skirmish -/

theorem sublist_before {α : Type} {pre post s : List α} {a : α} (hnodup : (pre ++ a :: post).Nodup)
    (h : (s ++ [a]).Sublist (pre ++ a :: post)) : s.Sublist pre := by
  obtain ⟨l₁, l₂, heq, hpre, hpost⟩ := List.sublist_append_iff.mp h
  have hnotPre : a ∉ pre := fun hin => (List.nodup_append.mp hnodup).2.2 a hin a List.mem_cons_self rfl
  have hnotPost : a ∉ post := (List.nodup_cons.mp (List.nodup_append.mp hnodup).2.1).1
  rcases List.eq_nil_or_concat l₂ with rfl | ⟨l, b, rfl⟩
  · rw [List.append_nil] at heq
    exact absurd (hpre.subset (heq ▸ List.mem_append_right s (List.mem_singleton_self a))) hnotPre
  · rw [List.concat_eq_append, ← List.append_assoc] at heq
    obtain ⟨rfl, hlast⟩ := List.append_inj' heq rfl
    obtain rfl := List.singleton_inj.mp hlast
    have hnil : l = [] := by
      cases l with
      | nil => rfl
      | cons c l =>
        rw [List.concat_eq_append, List.cons_append] at hpost
        have htail : (l ++ [a]).Sublist post := by
          rcases List.sublist_cons_iff.mp hpost with hsub | ⟨r, hr, hsub⟩
          · exact (List.sublist_cons_self c _).trans hsub
          · obtain ⟨-, rfl⟩ := List.cons.inj hr
            exact hsub
        exact absurd (htail.subset (List.mem_append_right l (List.mem_singleton_self a))) hnotPost
    rw [hnil, List.append_nil]
    exact hpre

variable {q : BattlegroundQueue} {team : TeamId} {last : ℕ} {pre post : List ℕ}

theorem takeWhile_before {α : Type} [DecidableEq α] {pre post : List α} {a : α} (h : a ∉ pre) :
    (pre ++ a :: post).takeWhile (· ≠ a) = pre ∧ (pre ++ a :: post).dropWhile (· ≠ a) = a :: post := by
  have hpre : ∀ b ∈ pre, decide (b ≠ a) = true := fun b hb => decide_eq_true fun heq => h (heq ▸ hb)
  rw [List.takeWhile_append_of_pos hpre, List.dropWhile_append_of_pos hpre]
  simp

/-- One group is moved to the other team's queue. -/
theorem moveToOther_eq (hqueue : q.normal team = pre ++ last :: post) (hlast : last ∉ pre) (p : ℕ) :
    q.moveToOther team last p = { q with
      groups := Function.update q.groups p { q.groups p with team := team.other }
      normal := Function.update (Function.update q.normal team.other (p :: q.normal team.other)) team
        (pre ++ last :: post.erase p) } := by
  obtain ⟨htake, hdrop⟩ : _ = pre ∧ _ = last :: post := takeWhile_before hlast
  rw [BattlegroundQueue.moveToOther]
  simp only [hqueue, htake, hdrop]

/-- **All groups of the second pool are moved.** -/
theorem foldl_moveToOther (hqueue : q.normal team = pre ++ last :: post) (hlast : last ∉ pre)
    (sel : List ℕ) :
    (sel.foldl (BattlegroundQueue.moveToOther team last) q).normal team = pre ++ last :: post.diff sel ∧
    (sel.foldl (BattlegroundQueue.moveToOther team last) q).normal team.other =
      sel.reverse ++ q.normal team.other ∧
    (sel.foldl (BattlegroundQueue.moveToOther team last) q).selectionPools = q.selectionPools ∧
    (∀ p ∈ sel, ((sel.foldl (BattlegroundQueue.moveToOther team last) q).groups p).team = team.other) ∧
    ∀ p, (q.groups p).team = team.other →
      ((sel.foldl (BattlegroundQueue.moveToOther team last) q).groups p).team = team.other := by
  induction sel generalizing q post with
  | nil => simp [hqueue]
  | cons p sel ih =>
    have hstep := moveToOther_eq hqueue hlast p
    rw [List.foldl_cons]
    have hafter : (q.moveToOther team last p).normal team = pre ++ last :: post.erase p := by
      rw [hstep]
      simp
    obtain ⟨hown, hother, hpools, hteams, hkeep⟩ := ih hafter
    have hset : ((q.moveToOther team last p).groups p).team = team.other := by
      rw [hstep]
      simp
    refine ⟨?_, ?_, ?_, ?_, ?_⟩
    · rw [hown, List.diff_cons]
    · rw [hother, hstep]
      simp [Function.update_of_ne (other_ne team)]
    · rw [hpools, hstep]
    · intro p' hp'
      rcases List.mem_cons.mp hp' with rfl | hp'
      · exact hkeep _ hset
      · exact hteams p' hp'
    · intro p' hp'
      refine hkeep p' ?_
      by_cases heq : p' = p
      · rw [heq]
        exact hset
      · rw [hstep]
        simpa [Function.update_of_ne heq] using hp'

theorem Selecting.around_last (h : Selecting groups queue limit pool itr) (hqueue : queue.Nodup)
    {l : List ℕ} (hl : pool.selectedGroups = l ++ [last]) :
    ∃ pre post, queue = pre ++ last :: post ∧ last ∉ pre ∧ l.Sublist pre := by
  have horder := (List.sublist_append_left pool.selectedGroups itr).trans h.order
  rw [hl] at horder
  obtain ⟨pre, post, rfl⟩ :=
    List.append_of_mem (horder.subset (List.mem_append_right l (List.mem_singleton_self last)))
  refine ⟨pre, post, rfl, fun hin => ?_, sublist_before hqueue horder⟩
  exact (List.nodup_append.mp hqueue).2.2 last hin last List.mem_cons_self rfl

theorem skirmishMatch_of_split (hqueue : (q.normal team).Nodup)
    (hfirst : Selecting q.groups (q.normal team) limit (q.selectionPools team) itr) {l : List ℕ}
    (hl : (q.selectionPools team).selectedGroups = l ++ [last])
    (hsplit : q.normal team = pre ++ last :: post) (hlast : last ∉ pre) (hbefore : l.Sublist pre)
    {itr' : List ℕ} (hsecond : Selecting q.groups post minPlayers pool itr')
    (hcount : pool.playerCount = minPlayers) :
    SkirmishMatch q minPlayers (pool.selectedGroups.foldl (BattlegroundQueue.moveToOther team last)
      { q with selectionPools := Function.update q.selectionPools team.other pool }) team := by
  have hbehind := (List.sublist_append_left pool.selectedGroups itr').trans hsecond.order
  have hqueued : ({ q with selectionPools := Function.update q.selectionPools team.other pool } :
      BattlegroundQueue).normal team = pre ++ last :: post := hsplit
  obtain ⟨hown, hother, hpools, hteams, -⟩ := foldl_moveToOther hqueued hlast pool.selectedGroups
  dsimp only at hpools hother
  have hpoolTeam : ∀ pools : TeamId → SelectionPool, Function.update pools team.other pool team = pools team :=
    fun pools => Function.update_of_ne (other_ne team).symm pool pools
  rw [hsplit] at hqueue
  obtain ⟨-, hqueuePost, hapart⟩ := List.nodup_append.mp hqueue
  obtain ⟨hnotPost, hpost⟩ := List.nodup_cons.mp hqueuePost
  have hfirstQueued : ∀ p ∈ (q.selectionPools team).selectedGroups, p ∈ q.normal team := by
    intro p hp
    exact hfirst.order.subset (List.mem_append_left itr hp)
  have hsecondQueued : ∀ p ∈ pool.selectedGroups, p ∈ q.normal team := by
    intro p hp
    rw [hsplit]
    exact List.mem_append_right pre (List.mem_cons_of_mem last (hbehind.subset hp))
  refine ⟨fun side => ?_, fun side => ?_, ?_, ?_, ?_⟩
  · rw [hpools]
    rcases eq_or_other team side with rfl | rfl
    · simpa [hpoolTeam] using hfirstQueued
    · simpa using hsecondQueued
  · rw [hpools]
    rcases eq_or_other team side with rfl | rfl
    · rw [hpoolTeam]
      refine ((List.sublist_append_left _ itr).trans hfirst.order).nodup ?_
      rw [hsplit]
      exact hqueue
    · rw [Function.update_self]
      exact hbehind.nodup hpost
  · rw [hpools, hpoolTeam, Function.update_self, hl]
    intro p hp hin
    have hinPost := hbehind.subset hin
    rcases List.mem_append.mp hp with hp | hp
    · exact hapart p (hbefore.subset hp) p (List.mem_cons_of_mem last hinPost) rfl
    · rw [List.mem_singleton.mp hp] at hinPost
      exact hnotPost hinPost
  · rw [hpools, Function.update_self]
    exact ⟨hcount, hsecond.count ▸ hcount⟩
  · rw [hpools, Function.update_self, hown, hother]
    intro p hp
    refine ⟨hteams p hp, List.mem_append_left _ (List.mem_reverse.mpr hp), fun hin => ?_⟩
    rcases List.mem_append.mp hin with hpre | hin
    · exact hapart p hpre p (List.mem_cons_of_mem last (hbehind.subset hp)) rfl
    · rcases List.mem_cons.mp hin with rfl | hdiff
      · exact hnotPost (hbehind.subset hp)
      · exact ((List.Nodup.mem_sdiff_iff hpost).mp hdiff).2 hp

/-- **A skirmish after the first loops.** It faults just where the alliance has no player selected and
the horde more than are needed. -/
theorem checkSkirmish_iff (hqueues : ∀ team, (q.normal team).Nodup)
    (hselecting : ∀ team, ∃ itr, Selecting q.groups (q.normal team) limit (q.selectionPools team) itr)
    (hmin : 0 < minPlayers) :
    Yields (q.checkSkirmishForSameFaction minPlayers)
        (fun s => s.1 = true → ∃ team, SkirmishMatch q minPlayers s.2 team) ↔
      ¬ ((q.selectionPools .alliance).playerCount = 0 ∧
        minPlayers < (q.selectionPools .horde).playerCount) := by
  rw [BattlegroundQueue.checkSkirmishForSameFaction]
  by_cases hfew : (q.selectionPools .alliance).playerCount < minPlayers ∧
      (q.selectionPools .horde).playerCount < minPlayers
  · rw [if_pos hfew]
    refine iff_of_true (.ok fun h => by cases h) fun h => ?_
    exact Nat.lt_asymm hfew.2 h.2
  · rw [if_neg hfew]
    generalize hteam : (if (q.selectionPools .horde).playerCount = minPlayers then TeamId.horde else
      TeamId.alliance) = team
    obtain ⟨itr, hteamSelecting⟩ := hselecting team
    dsimp only
    rcases List.eq_nil_or_concat (q.selectionPools team).selectedGroups with hnil | ⟨l, last, hconcat⟩
    · -- the side is empty, so it is the alliance
      have hzero := hteamSelecting.playerCount_eq_zero.mpr hnil
      rw [hnil]
      refine iff_of_false (fun h => ?_) (not_not.mpr ?_)
      · obtain ⟨_, herror, -⟩ := h
        cases herror
      · split at hteam
        next hexact =>
          subst hteam
          omega
        next hother =>
          subst hteam
          exact ⟨hzero, by omega⟩
    · rw [List.concat_eq_append] at hconcat
      have hsome : (q.selectionPools team).playerCount ≠ 0 := by
        intro hzero
        rw [hteamSelecting.playerCount_eq_zero.mp hzero] at hconcat
        exact absurd hconcat.symm (by simp)
      refine iff_of_true ?_ fun h => ?_
      · obtain ⟨pre, post, hsplit, hlast, hbefore⟩ := hteamSelecting.around_last (hqueues team) hconcat
        have hempty : Selecting q.groups post minPlayers .init post := Selecting.init post minPlayers
        obtain ⟨itr', hsecond⟩ := (addUninvited_spec hempty (Nat.le_refl minPlayers)).1
        rw [hconcat, List.getLast?_concat, hsplit]
        simp only [(takeWhile_before hlast).2]
        split
        · exact .ok fun h => by cases h
        · next hcount =>
          refine .ok fun _ => ⟨team, ?_⟩
          exact skirmishMatch_of_split (hqueues team) hteamSelecting hconcat hsplit hlast hbefore hsecond
            (not_not.mp hcount)
      · rw [if_neg (Nat.ne_of_gt h.2)] at hteam
        subst hteam
        exact hsome h.1

/-! ## A match of the factions -/

/-- A group of the alliance can be selected, or the horde does not exceed what is needed, unless this is
a battleground under test. -/
def SidesFit (cfg : QueueConfig) (isBattleground : Bool) (minPlayers maxPlayers : ℕ)
    (q : BattlegroundQueue) : Prop :=
  (cfg.isBattleGroundTesting = true ∧ isBattleground = true) ∨
    ¬ (NoneFits q.groups maxPlayers (q.normal .alliance) ∧
      Overshoots q.groups minPlayers maxPlayers 0 (q.normal .horde))

/-- What `CheckNormalMatch` leaves. -/
structure Checked (cfg : QueueConfig) (isBattleground : Bool) (minPlayers maxPlayers : ℕ)
    (q : BattlegroundQueue) (r : Bool × BattlegroundQueue) : Prop where
  queues : r.2 = { q with selectionPools := r.2.selectionPools }
  selecting : ∀ team, ∃ itr, Selecting q.groups (q.normal team) maxPlayers (r.2.selectionPools team) itr
  enough : r.1 = true → ¬ (cfg.isBattleGroundTesting = true ∧ isBattleground = true) →
    ∀ team, minPlayers ≤ (r.2.selectionPools team).playerCount
  even : r.1 = true → ¬ (cfg.isBattleGroundTesting = true ∧ isBattleground = true) →
    cfg.invitationType ≠ .noBalance →
    ((r.2.selectionPools .horde).playerCount - (r.2.selectionPools .alliance).playerCount : ℤ).natAbs ≤ 2
  sides : r.1 = true ∨ ¬ ((r.2.selectionPools .alliance).playerCount = 0 ∧
      minPlayers < (r.2.selectionPools .horde).playerCount) ↔
    SidesFit cfg isBattleground minPlayers maxPlayers q

theorem forall_team {P : TeamId → Prop} : (∀ team, P team) ↔ P .alliance ∧ P .horde := by
  refine ⟨fun h => ⟨h .alliance, h .horde⟩, fun h team => ?_⟩
  cases team with
  | alliance => exact h.1
  | horde => exact h.2

variable {cfg : QueueConfig} {isBattleground : Bool} {pools : TeamId → SelectionPool}

theorem checkPools_checked (hmin : 0 < minPlayers)
    (hselecting : ∀ team, ∃ itr, Selecting q.groups (q.normal team) maxPlayers (pools team) itr)
    (heven : cfg.invitationType ≠ .noBalance → (∀ team, minPlayers ≤ (pools team).playerCount) →
      ((pools .horde).playerCount - (pools .alliance).playerCount : ℤ).natAbs ≤ 2)
    (hbad : (pools .alliance).playerCount = 0 ∧ minPlayers < (pools .horde).playerCount ↔
      NoneFits q.groups maxPlayers (q.normal .alliance) ∧
        Overshoots q.groups minPlayers maxPlayers 0 (q.normal .horde)) :
    Checked cfg isBattleground minPlayers maxPlayers q
      (q.initPools.checkPools cfg isBattleground minPlayers pools) := by
  rw [BattlegroundQueue.checkPools]
  split
  next hdebug =>
    have htesting : cfg.isBattleGroundTesting = true ∧ isBattleground = true := ⟨hdebug.1, hdebug.2.1⟩
    exact ⟨rfl, hselecting, fun _ hnot => absurd htesting hnot, fun _ hnot => absurd htesting hnot,
      iff_of_true (.inl rfl) (.inl htesting)⟩
  next hplain =>
    have hall : decide (minPlayers ≤ (pools .alliance).playerCount ∧
        minPlayers ≤ (pools .horde).playerCount) = true → ∀ team, minPlayers ≤ (pools team).playerCount :=
      fun h => forall_team.mpr (of_decide_eq_true h)
    refine ⟨rfl, hselecting, fun h _ => hall h, fun h _ hbalance => heven hbalance (hall h), ?_⟩
    rw [SidesFit, ← hbad]
    by_cases hpools : (pools .alliance).playerCount = 0 ∧ minPlayers < (pools .horde).playerCount
    · -- the match is refused, and this is not under test, where the players of the horde are enough
      have htesting : ¬ (cfg.isBattleGroundTesting = true ∧ isBattleground = true) := by
        intro htesting
        exact hplain ⟨htesting.1, htesting.2, .inr (by omega)⟩
      refine iff_of_false (not_or.mpr ⟨fun h => ?_, not_not.mpr hpools⟩)
        (not_or.mpr ⟨htesting, not_not.mpr hpools⟩)
      have hle := hall h .alliance
      omega
    · exact iff_of_true (.inr hpools) (.inr hpools)

theorem selectFirst_spec (hmin : 0 < minPlayers) (maxPlayers : ℕ) (q : BattlegroundQueue) :
    (∀ team, Selecting q.groups (q.normal team) maxPlayers
        (q.initPools.selectFirst minPlayers maxPlayers team).1
        (q.initPools.selectFirst minPlayers maxPlayers team).2.tail ∧
      (minPlayers ≤ (q.initPools.selectFirst minPlayers maxPlayers team).1.playerCount →
        (q.initPools.selectFirst minPlayers maxPlayers team).2 ≠ [])) ∧
    ((q.initPools.selectFirst minPlayers maxPlayers .alliance).1.playerCount = 0 ↔
      NoneFits q.groups maxPlayers (q.normal .alliance)) ∧
    (minPlayers < (q.initPools.selectFirst minPlayers maxPlayers .horde).1.playerCount ↔
      Overshoots q.groups minPlayers maxPlayers 0 (q.normal .horde)) :=
  ⟨fun team => addUntil_spec (Selecting.init (q.normal team) maxPlayers) hmin,
    addUntil_eq_zero hmin rfl (q.normal .alliance), overshoots_iff hmin (q.normal .horde)⟩

/-- **The pools that `CheckNormalMatch` selects.** The iterator that is advanced after the first loops
is at a group. -/
theorem checkNormalMatch_spec (cfg : QueueConfig) (isBattleground : Bool) (hmin : 0 < minPlayers)
    (maxPlayers : ℕ) (q : BattlegroundQueue) :
    Yields (q.initPools.checkNormalMatch cfg isBattleground minPlayers maxPlayers)
      (Checked cfg isBattleground minPlayers maxPlayers q) := by
  obtain ⟨hfirst, hzero, hover⟩ := selectFirst_spec hmin maxPlayers q
  rw [BattlegroundQueue.checkNormalMatch]
  have hgroups : q.initPools.groups = q.groups := rfl
  generalize q.initPools.selectFirst minPlayers maxPlayers = first at hfirst hzero hover ⊢
  rw [hgroups]
  by_cases hbalance : cfg.invitationType ≠ .noBalance ∧ minPlayers ≤ (first .horde).1.playerCount ∧
      minPlayers ≤ (first .alliance).1.playerCount
  · rw [if_pos hbalance]
    have henough : ∀ team, minPlayers ≤ (first team).1.playerCount :=
      forall_team.mpr ⟨hbalance.2.2, hbalance.2.1⟩
    generalize (if (first .horde).1.playerCount < (first .alliance).1.playerCount then TeamId.horde
      else TeamId.alliance) = j
    obtain ⟨hselecting, hbreak⟩ := hfirst j
    cases hitr : (first j).2 with
    | nil => exact absurd hitr (hbreak (henough j))
    | cons ginfo itr =>
      rw [hitr, List.tail_cons] at hselecting
      obtain ⟨hpool, hgrows⟩ := addUninvited_spec hselecting (hfirst j.other).1.fits
      dsimp only
      generalize (first j).1.addUninvited q.groups (first j.other).1.playerCount itr = pool at hpool hgrows
      have hpools : ∀ team, (∃ itr, Selecting q.groups (q.normal team) maxPlayers
          (Function.update (fun team => (first team).1) j pool team) itr) ∧
          minPlayers ≤ (Function.update (fun team => (first team).1) j pool team).playerCount := by
        intro team
        by_cases hteam : team = j
        · subst hteam
          rw [Function.update_self]
          exact ⟨hpool, Nat.le_trans (henough team) hgrows⟩
        · rw [Function.update_of_ne hteam]
          exact ⟨⟨_, (hfirst team).1⟩, henough team⟩
      have hfits : ¬ NoneFits q.groups maxPlayers (q.normal .alliance) := by
        rw [← hzero]
        omega
      generalize Function.update (fun team => (first team).1) j pool = pools at hpools
      have hsome := (hpools .alliance).2
      split
      next hfar =>
        refine .ok ⟨rfl, fun team => (hpools team).1, fun h => absurd h Bool.false_ne_true,
          fun h => absurd h Bool.false_ne_true, ?_⟩
        refine iff_of_true (.inr fun h => ?_) (.inr fun h => hfits h.1)
        dsimp only at h
        omega
      next hnear =>
        refine .ok (checkPools_checked hmin (fun team => (hpools team).1)
          (fun _ _ => Nat.le_of_not_lt hnear) ?_)
        exact iff_of_false (fun h => by omega) fun h => hfits h.1
  · rw [if_neg hbalance]
    refine .ok (checkPools_checked hmin (fun team => ⟨_, (hfirst team).1⟩) (fun hne hall => ?_) ?_)
    · exact absurd ⟨hne, hall .horde, hall .alliance⟩ hbalance
    · rw [hzero, hover]

/-- **Matches are made safely just where the sides fit.** -/
theorem matchesSafely_iff (cfg : QueueConfig) (isBattleground : Bool) (hmin : 1 ≤ minPlayers)
    (q : BattlegroundQueue) (hqueues : ∀ team, (q.normal team).Nodup) :
    MatchesSafely cfg isBattleground minPlayers maxPlayers q ↔
      SidesFit cfg isBattleground minPlayers maxPlayers q := by
  obtain ⟨⟨found, q'⟩, hrun, hchecked⟩ := checkNormalMatch_spec cfg isBattleground hmin maxPlayers q
  have heq : q' = { q with selectionPools := q'.selectionPools } := hchecked.queues
  have hsame : q'.groups = q.groups ∧ q'.normal = q.normal := by
    rw [heq]
    exact ⟨rfl, rfl⟩
  have hskirmish : Yields (q'.checkSkirmishForSameFaction minPlayers)
        (fun s => s.1 = true → ∃ team, SkirmishMatch q minPlayers s.2 team) ↔
      ¬ ((q'.selectionPools .alliance).playerCount = 0 ∧
        minPlayers < (q'.selectionPools .horde).playerCount) := by
    have hselecting := hchecked.selecting
    rw [← hsame.1, ← hsame.2] at hselecting
    rw [← hsame.2] at hqueues
    have hiff := checkSkirmish_iff hqueues hselecting hmin
    have hmatch : ∀ s team, SkirmishMatch q' minPlayers s team ↔ SkirmishMatch q minPlayers s team := by
      intro s team
      rw [heq]
      exact ⟨fun h => ⟨h.queued, h.distinct, h.disjoint, h.count, h.moved⟩,
        fun h => ⟨h.queued, h.distinct, h.disjoint, h.count, h.moved⟩⟩
    simpa only [hmatch] using hiff
  rw [← hchecked.sides, MatchesSafely, hrun]
  cases found with
  | true =>
    refine iff_of_true (.ok ⟨fun h htesting => ?_, fun h => absurd h.symm Bool.false_ne_true⟩) (.inl rfl)
    refine ⟨fun team => ?_, hchecked.enough h htesting, hchecked.even h htesting⟩
    obtain ⟨itr, hselecting⟩ := hchecked.selecting team
    exact hselecting.selected (hqueues team)
  | false =>
    rw [← hskirmish]
    constructor
    · rintro ⟨r, heq, -, h⟩
      cases heq
      exact .inr (h rfl)
    · intro h
      exact .ok ⟨fun hfound => absurd hfound Bool.false_ne_true, fun _ => h.resolve_left Bool.false_ne_true⟩

/-- Single players on both sides. -/
def pairQueue : BattlegroundQueue where
  groups p := if p = 1 then groupOf .alliance 0 else groupOf .horde 0
  premade _ := []
  normal
    | .alliance => [1]
    | .horde => [2]
  selectionPools _ := .init

theorem pairQueue_matches : (1 ≤ 1 ∧ ∀ team, (pairQueue.normal team).Nodup) ∧
    (MatchesSafely ⟨.balanced, 0, false⟩ false 1 2 pairQueue ↔
      SidesFit ⟨.balanced, 0, false⟩ false 1 2 pairQueue) := by
  have hqueues : ∀ team, (pairQueue.normal team).Nodup := by
    intro team
    cases team <;> decide
  exact ⟨⟨Nat.le_refl 1, hqueues⟩, matchesSafely_iff _ false (Nat.le_refl 1) pairQueue hqueues⟩

/-- Two of the horde, and nobody else. -/
def hordeQueue : BattlegroundQueue where
  groups _ := groupOf .horde 1
  premade _ := []
  normal
    | .alliance => []
    | .horde => [1]
  selectionPools _ := .init

/-- An arena for two, under test: one player is enough, the horde has two, and the last group of the
alliance is asked for. -/
theorem hordeQueue_not_safe : ¬ MatchesSafely ⟨.balanced, 0, false⟩ false 1 2 hordeQueue := by
  rintro ⟨⟨found, q⟩, hrun, -, hskirmish⟩
  have hfound : (hordeQueue.initPools.checkNormalMatch ⟨.balanced, 0, false⟩ false 1 2).map Prod.fst =
      .ok false := by decide
  have hfault : ((hordeQueue.initPools.checkNormalMatch ⟨.balanced, 0, false⟩ false 1 2).bind fun r =>
      (r.2.checkSkirmishForSameFaction 1).map Prod.fst) = .error .emptyBack := by decide
  rw [hrun] at hfound hfault
  obtain rfl : found = false := Except.ok.inj hfound
  obtain ⟨s, hs, -⟩ := hskirmish rfl
  change (q.checkSkirmishForSameFaction 1).map Prod.fst = .error .emptyBack at hfault
  rw [hs] at hfault
  cases hfault

end Sunstrider.Battlegrounds
