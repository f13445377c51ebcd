import Mathlib.Algebra.BigOperators.Group.List.Basic
import Mathlib.Algebra.GroupWithZero.Nat
import Mathlib.Data.List.Perm.Basic
import Sunstrider.Battlegrounds.BattlegroundQueue

/-!
# Selection pools

A pool and the iterator behind it are a part of the queue: what was selected, in the order of the queue,
and then what is still to come (`Selecting`). Each operation on a pool keeps this, so that no group is
selected twice, and the number of players stays that of the groups.

A round of the loop in `FillPlayersToBG` kicks a group or moves an iterator, and leaves the loop where
the team with fewer free slots has nothing to kick (`kickRound_spec`).
-/

namespace Sunstrider.Battlegrounds

open Lib (Yields)

variable {groups : ℕ → GroupQueueInfo}

theorem GroupQueueInfo.size_pos (g : GroupQueueInfo) : 0 < g.size := List.length_pos_iff.mpr g.players_ne

/-- The players of the groups. -/
def players (groups : ℕ → GroupQueueInfo) (l : List ℕ) : ℕ := (l.map fun p => (groups p).size).sum

@[simp] theorem players_nil : players groups [] = 0 := rfl

theorem players_concat (l : List ℕ) (p : ℕ) :
    players groups (l ++ [p]) = players groups l + (groups p).size := by
  simp [players]

variable {l : List ℕ}

theorem players_eraseIdx {k : ℕ} (hk : k < l.length) :
    (groups l[k]).size + players groups (l.eraseIdx k) = players groups l := by
  have hperm := (List.getElem_cons_eraseIdx_perm hk).map fun p => (groups p).size
  have hsum := hperm.sum_eq
  rwa [List.map_cons, List.sum_cons] at hsum

theorem players_eq_zero : players groups l = 0 ↔ l = [] := by
  cases l with
  | nil => simp
  | cons p l =>
    have hpos := (groups p).size_pos
    simp only [players, List.map_cons, List.sum_cons]
    constructor
    · intro h
      omega
    · intro h
      cases h

/-! ## A pool and its iterator -/

/-- The pool counts the players of its groups, which are not invited, and no more than `limit`. Its groups
and those to come are in the queue, in this order. -/
structure Selecting (groups : ℕ → GroupQueueInfo) (queue : List ℕ) (limit : ℕ) (pool : SelectionPool)
    (itr : List ℕ) : Prop where
  count : pool.playerCount = players groups pool.selectedGroups
  uninvited : ∀ p ∈ pool.selectedGroups, (groups p).invited = false
  fits : pool.playerCount ≤ limit
  order : (pool.selectedGroups ++ itr).Sublist queue

variable {queue : List ℕ} {limit bound : ℕ} {pool : SelectionPool} {itr : List ℕ} {p : ℕ}

theorem Selecting.init (queue : List ℕ) (limit : ℕ) : Selecting groups queue limit .init queue where
  count := rfl
  uninvited := by simp [SelectionPool.init]
  fits := Nat.zero_le _
  order := List.Sublist.refl _

theorem Selecting.playerCount_eq_zero (h : Selecting groups queue limit pool itr) :
    pool.playerCount = 0 ↔ pool.selectedGroups = [] := by
  rw [h.count, players_eq_zero]

theorem Selecting.skip (h : Selecting groups queue limit pool (p :: itr)) :
    Selecting groups queue limit pool itr where
  count := h.count
  uninvited := h.uninvited
  fits := h.fits
  order := ((List.sublist_cons_self p itr).append_left _).trans h.order

/-- What `AddGroup` can do: the group fits and is added, or nothing changes. -/
theorem addGroup_cases (groups : ℕ → GroupQueueInfo) (pool : SelectionPool) (p bound : ℕ) :
    (pool.addGroup groups p bound =
        (true, ⟨pool.selectedGroups ++ [p], pool.playerCount + (groups p).size⟩) ∧
      (groups p).invited = false ∧ pool.playerCount + (groups p).size ≤ bound) ∨
    (pool.addGroup groups p bound = (decide (pool.playerCount < bound), pool) ∧
      ((groups p).invited = false → bound < pool.playerCount + (groups p).size)) := by
  rw [SelectionPool.addGroup]
  split
  next h =>
    simp only [Bool.and_eq_true, Bool.not_eq_true', decide_eq_true_eq] at h
    exact .inl ⟨rfl, h⟩
  next h =>
    simp only [Bool.and_eq_true, Bool.not_eq_true', decide_eq_true_eq, not_and, Nat.not_le] at h
    exact .inr ⟨rfl, h⟩

theorem Selecting.add (h : Selecting groups queue limit pool (p :: itr)) (hbound : bound ≤ limit) :
    Selecting groups queue limit (pool.addGroup groups p bound).2 itr := by
  rcases addGroup_cases groups pool p bound with ⟨hadd, hfree, hfit⟩ | ⟨hadd, -⟩
  · rw [hadd]
    refine ⟨?_, ?_, Nat.le_trans hfit hbound, ?_⟩
    · rw [players_concat, h.count]
    · intro p' hp'
      rcases List.mem_append.mp hp' with hold | hnew
      · exact h.uninvited p' hold
      · rwa [List.mem_singleton.mp hnew]
    · rw [List.append_assoc]
      exact h.order
  · rw [hadd]
    exact h.skip

/-- Where `AddGroup` says that the pool is full, nothing was added. -/
theorem addGroup_false {pool' : SelectionPool} (h : pool.addGroup groups p bound = (false, pool')) :
    pool' = pool := by
  rcases addGroup_cases groups pool p bound with ⟨hadd, -⟩ | ⟨hadd, -⟩
  · rw [hadd] at h
    cases h
  · rw [hadd] at h
    exact (congrArg Prod.snd h).symm

theorem Selecting.addGroups (h : Selecting groups queue limit pool itr) (hbound : bound ≤ limit) :
    Selecting groups queue limit (pool.addGroups groups bound itr).1 (pool.addGroups groups bound itr).2 := by
  induction itr generalizing pool with
  | nil => exact h
  | cons p itr ih =>
    have hadd := h.add hbound
    rw [SelectionPool.addGroups]
    split
    next pool' heq =>
      rw [heq] at hadd
      exact ih hadd
    next pool' heq =>
      rw [addGroup_false heq]
      exact h

theorem addGroups_moves (groups : ℕ → GroupQueueInfo) (bound : ℕ) (pool : SelectionPool) (itr : List ℕ) :
    pool.addGroups groups bound itr = (pool, itr) ∨
    (pool.addGroups groups bound itr).1.selectedGroups.length +
        2 * (pool.addGroups groups bound itr).2.length <
      pool.selectedGroups.length + 2 * itr.length := by
  induction itr generalizing pool with
  | nil => exact .inl rfl
  | cons p itr ih =>
    rw [SelectionPool.addGroups]
    split
    next pool' heq =>
      have hlength : pool'.selectedGroups.length ≤ pool.selectedGroups.length + 1 := by
        rcases addGroup_cases groups pool p bound with ⟨hadd, -⟩ | ⟨hadd, -⟩
        · rw [hadd] at heq
          cases heq
          simp
        · rw [hadd] at heq
          have hsame : pool = pool' := congrArg Prod.snd heq
          rw [hsame]
          exact Nat.le_succ _
      right
      rw [List.length_cons]
      rcases ih pool' with hsame | hless
      · simp only [hsame]
        omega
      · omega
    next pool' heq =>
      rw [addGroup_false heq]
      exact .inl rfl

/-! ## Kicking -/

theorem kickStep_lt {size : ℕ} {s : ℕ × Bool} {e : ℕ × ℕ} (hs : s.1 < l.length)
    (he : e.2 < l.length) : (SelectionPool.kickStep groups size l s e).1 < l.length := by
  rw [SelectionPool.kickStep]
  split
  · exact he
  · split
    · exact he
    · exact hs

theorem groupToKick_lt (hl : l ≠ []) (size : ℕ) :
    SelectionPool.groupToKick groups size l < l.length := by
  have hfold : ∀ (es : List (ℕ × ℕ)) (s : ℕ × Bool), (∀ e ∈ es, e.2 < l.length) → s.1 < l.length →
      (es.foldl (SelectionPool.kickStep groups size l) s).1 < l.length := by
    intro es
    induction es with
    | nil => exact fun s _ hs => hs
    | cons e es ih =>
      intro s hes hs
      refine ih _ (fun e' he' => hes e' (List.mem_cons_of_mem _ he')) ?_
      exact kickStep_lt hs (hes e List.mem_cons_self)
  refine hfold l.zipIdx (0, false) (fun e he => ?_) (List.length_pos_iff.mpr hl)
  have hlt := (List.mem_zipIdx he).2.1
  rwa [Nat.zero_add] at hlt

theorem Selecting.kickGroup (h : Selecting groups queue limit pool itr) (size : ℕ) :
    Yields (pool.kickGroup groups size) fun r => Selecting groups queue limit r.2 itr ∧
      (pool.playerCount = 0 → r = (true, pool)) ∧
      (pool.playerCount ≠ 0 →
        r.2.selectedGroups.length + 1 = pool.selectedGroups.length) := by
  rw [SelectionPool.kickGroup]
  by_cases hzero : pool.playerCount = 0
  · rw [if_neg (not_not.mpr hzero)]
    exact .ok ⟨h, fun _ => rfl, fun hne => absurd hzero hne⟩
  · have hne : pool.selectedGroups ≠ [] := fun hnil => hzero (h.playerCount_eq_zero.mpr hnil)
    have hlt : SelectionPool.groupToKick groups size pool.selectedGroups < pool.selectedGroups.length :=
      groupToKick_lt hne size
    rw [if_pos hzero, List.getElem?_eq_getElem hlt]
    have hplayers : (groups _).size + players groups _ = _ := players_eraseIdx hlt
    have hcount := h.count
    have hsublist := List.eraseIdx_sublist pool.selectedGroups
      (SelectionPool.groupToKick groups size pool.selectedGroups)
    refine .ok ⟨⟨?_, fun p hp => ?_, ?_, ?_⟩, fun heq => absurd heq hzero, fun _ => ?_⟩
    · show pool.playerCount - _ = players groups (pool.selectedGroups.eraseIdx _)
      rw [hcount, ← hplayers, Nat.add_sub_cancel_left]
    · exact h.uninvited p (hsublist.subset hp)
    · exact Nat.le_trans (Nat.sub_le _ _) h.fits
    · exact (hsublist.append_right itr).trans h.order
    · exact List.length_eraseIdx_add_one hlt

/-! ## The loop -/

/-- The pools and the iterators of the loop are parts of the queues, and it is left by `break` only
where a team has no more free slots than the other, but for one, and nothing selected. -/
structure Balancing (q : BattlegroundQueue) (free : TeamId → ℕ) (f : Filling) : Prop where
  selecting : ∀ team, Selecting q.groups (q.normal team) (free team) (f.pools team) (f.itr team)
  stopped : f.stop = true → ∃ team, (f.pools team).selectedGroups = [] ∧
    f.diff free team ≤ f.diff free team.other + 1

variable {q : BattlegroundQueue} {free : TeamId → ℕ} {f : Filling}

variable {team : TeamId}

/-- The team that is kicked has fewer free slots, and one of the pools is not empty. -/
theorem unbalanced_spec (h : f.unbalanced free = some team) :
    f.stop = false ∧ f.diff free team < f.diff free team.other ∧
      ((f.pools team).playerCount ≠ 0 ∨ (f.pools team.other).playerCount ≠ 0) := by
  rw [Filling.unbalanced] at h
  split at h
  · next hc =>
    simp only [Bool.and_eq_true, Bool.not_eq_true', decide_eq_true_eq, Bool.or_eq_true] at hc
    obtain ⟨⟨hstop, hdiff⟩, hsome⟩ := hc
    cases h
    split
    next hlt => exact ⟨hstop, hlt, hsome.symm.imp Nat.ne_of_gt Nat.ne_of_gt⟩
    next hle =>
      refine ⟨hstop, ?_, hsome.imp Nat.ne_of_gt Nat.ne_of_gt⟩
      show f.diff free .horde < f.diff free .alliance
      omega
  · cases h

theorem unbalanced_none (h : f.unbalanced free = none) : f.stop = true ∨
    (f.diff free .alliance - f.diff free .horde).natAbs ≤ 1 ∨ ∀ team, (f.pools team).playerCount = 0 := by
  rw [Filling.unbalanced] at h
  split at h
  · cases h
  · next hc =>
    simp only [Bool.and_eq_true, Bool.not_eq_true', decide_eq_true_eq, Bool.or_eq_true, not_and, not_or,
      Nat.not_lt] at hc
    by_cases hstop : f.stop = true
    · exact .inl hstop
    · by_cases hdiff : 1 < (f.diff free .alliance - f.diff free .horde).natAbs
      · have hzero := hc ⟨by simpa using hstop, hdiff⟩
        refine .inr (.inr fun team => ?_)
        cases team with
        | alliance => exact Nat.le_zero.mp hzero.2
        | horde => exact Nat.le_zero.mp hzero.1
      · exact .inr (.inl (Nat.le_of_not_lt hdiff))

/-- What a team adds to the bound for the rounds. -/
def part (f : Filling) (team : TeamId) : ℕ :=
  (f.pools team).selectedGroups.length + 2 * (f.itr team).length

theorem rounds_eq (f : Filling) (team : TeamId) :
    f.rounds = part f team + part f team.other + if f.stop then 0 else 1 := by
  cases team with
  | alliance =>
    simp only [Filling.rounds, part, TeamId.other]
    omega
  | horde =>
    simp only [Filling.rounds, part, TeamId.other]
    omega

theorem other_ne (team : TeamId) : team.other ≠ team := by cases team <;> decide

theorem eq_or_other (team team' : TeamId) : team' = team ∨ team' = team.other := by
  cases team <;> cases team' <;> decide

theorem Balancing.update (h : Balancing q free f) {pool : SelectionPool} {itr : List ℕ}
    {stop : Bool} (hpool : Selecting q.groups (q.normal team) (free team) pool itr)
    (hstop : stop = true →
      pool.selectedGroups = [] ∧ (free team : ℤ) ≤ f.diff free team.other + 1) :
    Balancing q free ⟨Function.update f.pools team pool, Function.update f.itr team itr, stop⟩ where
  selecting team' := by
    by_cases hteam : team' = team
    · subst hteam
      simpa using hpool
    · simpa [hteam] using h.selecting team'
  stopped hbreak := by
    obtain ⟨hnil, hle⟩ := hstop hbreak
    have hzero : pool.playerCount = 0 := hpool.playerCount_eq_zero.mpr hnil
    refine ⟨team, ?_, ?_⟩
    · simpa using hnil
    · simpa [Filling.diff, other_ne, hzero] using hle

theorem part_update (f : Filling) (team : TeamId) (pool : SelectionPool) (itr : List ℕ) (stop : Bool) :
    part ⟨Function.update f.pools team pool, Function.update f.itr team itr, stop⟩ team =
      pool.selectedGroups.length + 2 * itr.length := by
  simp [part]

theorem part_update_other (f : Filling) (team : TeamId) (pool : SelectionPool) (itr : List ℕ)
    (stop : Bool) :
    part ⟨Function.update f.pools team pool, Function.update f.itr team itr, stop⟩ team.other =
      part f team.other := by
  simp [part, other_ne]

theorem other_other (team : TeamId) : team.other.other = team := by cases team <;> rfl

/-- A group is kicked from a team, and new ones may be added: the part of the team gets smaller, unless
its pool was empty and is so again. -/
theorem refill_spec (h : Selecting groups queue limit pool itr) (hbound : bound ≤ limit) (size : ℕ) :
    Yields (pool.kickGroup groups size) fun r =>
      ∃ pool' itr', (if r.1 then r.2.addGroups groups bound itr else (r.2, itr)) = (pool', itr') ∧
        Selecting groups queue limit pool' itr' ∧
        pool'.selectedGroups.length + 2 * itr'.length ≤ pool.selectedGroups.length + 2 * itr.length ∧
        (pool.playerCount ≠ 0 ∨ pool'.playerCount ≠ 0 →
          pool'.selectedGroups.length + 2 * itr'.length < pool.selectedGroups.length + 2 * itr.length) := by
  refine (h.kickGroup size).mono fun r hr => ?_
  obtain ⟨again, kicked⟩ := r
  obtain ⟨hkicked, hempty, hlength⟩ := hr
  simp only at hkicked hlength ⊢
  have hfilled : ∃ pool' itr', (if again then kicked.addGroups groups bound itr else (kicked, itr)) =
        (pool', itr') ∧ Selecting groups queue limit pool' itr' ∧ ((pool', itr') = (kicked, itr) ∨
      pool'.selectedGroups.length + 2 * itr'.length <
        kicked.selectedGroups.length + 2 * itr.length) := by
    split
    · exact ⟨_, _, rfl, hkicked.addGroups hbound, addGroups_moves groups bound kicked itr⟩
    · exact ⟨_, _, rfl, hkicked, .inl rfl⟩
  obtain ⟨pool', itr', heq, hselecting, hmoves⟩ := hfilled
  refine ⟨pool', itr', heq, hselecting, ?_⟩
  by_cases hzero : pool.playerCount = 0
  · obtain ⟨-, rfl⟩ := Prod.mk.inj (hempty hzero)
    rcases hmoves with hsame | hmoves
    · obtain ⟨rfl, rfl⟩ := Prod.mk.inj hsame
      refine ⟨Nat.le_refl _, fun hne => absurd hzero ?_⟩
      exact hne.elim id id
    · exact ⟨Nat.le_of_lt hmoves, fun _ => hmoves⟩
  · have hone := hlength hzero
    rcases hmoves with hsame | hmoves
    · obtain ⟨rfl, rfl⟩ := Prod.mk.inj hsame
      exact ⟨by omega, fun _ => by omega⟩
    · exact ⟨by omega, fun _ => by omega⟩

/-- **A round of the loop.** -/
theorem kickRound_spec (h : Balancing q free f) (hround : f.unbalanced free = some team) :
    Yields (f.kickRound q.groups free team) fun g => Balancing q free g ∧ g.rounds < f.rounds := by
  obtain ⟨hgoing, hless, hsome⟩ := unbalanced_spec hround
  have hrounds := rounds_eq f team
  have hteam : part f team = (f.pools team).selectedGroups.length + 2 * (f.itr team).length := rfl
  rw [hgoing] at hrounds
  simp only [Bool.false_eq_true, if_false] at hrounds
  rw [Filling.kickRound]
  generalize (f.diff free team.other - f.diff free team).toNat = size
  generalize hbound : (if f.diff free team.other ≤ free team then
    (free team - f.diff free team.other).toNat else 0) = bound
  have hle : bound ≤ free team := by
    have hfits := (h.selecting team.other).fits
    rw [← hbound]
    split
    · rw [Filling.diff]
      omega
    · exact Nat.zero_le _
  refine (refill_spec (h.selecting team) hle size).bind fun r hr => ?_
  obtain ⟨pool, itr, hfilled, hpool, hpart, hless⟩ := hr
  dsimp only
  rw [hfilled]
  dsimp only
  by_cases hnone : pool.playerCount = 0
  · rw [if_pos hnone]
    by_cases hbreak : (free team : ℤ) ≤ f.diff free team.other + 1
    · rw [if_pos hbreak]
      refine .ok ⟨h.update hpool fun _ => ⟨hpool.playerCount_eq_zero.mp hnone, hbreak⟩, ?_⟩
      rw [rounds_eq _ team, part_update, part_update_other, hrounds, hteam]
      simp only [if_true]
      omega
    · rw [if_neg hbreak]
      have hg : Balancing q free ⟨Function.update f.pools team pool, Function.update f.itr team itr, false⟩ :=
        h.update hpool (by simp)
      refine ((hg.selecting team.other).kickGroup size).bind fun r hr => ?_
      obtain ⟨again', pool'⟩ := r
      obtain ⟨hkicked, hempty, hlength⟩ := hr
      simp only [Function.update_of_ne (other_ne team)] at hkicked hempty hlength
      have hshorter : pool'.selectedGroups.length + 2 * (f.itr team.other).length ≤ part f team.other ∧
          ((f.pools team.other).playerCount ≠ 0 →
            pool'.selectedGroups.length + 2 * (f.itr team.other).length < part f team.other) := by
        have hother : part f team.other = (f.pools team.other).selectedGroups.length +
          2 * (f.itr team.other).length := rfl
        by_cases hzero : (f.pools team.other).playerCount = 0
        · obtain ⟨-, rfl⟩ := Prod.mk.inj (hempty hzero)
          exact ⟨Nat.le_refl _, fun hne => absurd hzero hne⟩
        · have hone := hlength hzero
          exact ⟨by omega, fun _ => by omega⟩
      have hlast : Balancing q free ⟨_, _, false⟩ := hg.update hkicked (by simp)
      rw [← Function.update_of_ne (other_ne team) itr f.itr, Function.update_eq_self] at hlast
      refine .ok ⟨hlast, ?_⟩
      have hfewer : pool.selectedGroups.length + 2 * itr.length +
          (pool'.selectedGroups.length + 2 * (f.itr team.other).length) <
            part f team + part f team.other := by
        rcases hsome with hteam' | hother'
        · have hlt := hless (.inl hteam')
          omega
        · have hlt := hshorter.2 hother'
          omega
      rw [rounds_eq _ team, hrounds]
      simp only [part, other_ne, (other_ne team).symm, ne_eq, not_false_eq_true, Function.update_of_ne,
        Function.update_self, Bool.false_eq_true, if_false]
      exact Nat.add_lt_add_right hfewer 1
  · rw [if_neg hnone]
    refine .ok ⟨h.update hpool (by simp), ?_⟩
    rw [rounds_eq _ team, part_update, part_update_other, hrounds, hteam]
    simp only [Bool.false_eq_true, if_false]
    omega

/-! ## Filling a battleground -/

/-- What is selected for a team: groups of its queue, each once and none invited, with their players
counted, and no more of them than there are free slots. -/
structure Selected (q : BattlegroundQueue) (team : TeamId) (free : ℕ) (pool : SelectionPool) : Prop where
  count : pool.playerCount = players q.groups pool.selectedGroups
  distinct : pool.selectedGroups.Nodup
  uninvited : ∀ p ∈ pool.selectedGroups, (q.groups p).invited = false
  queued : ∀ p ∈ pool.selectedGroups, p ∈ q.normal team
  fits : pool.playerCount ≤ free

/-- The free slots that remain differ by at most one, or nothing is selected for the team that has
fewer. -/
def Balanced (free : TeamId → ℕ) (pools : TeamId → SelectionPool) : Prop :=
  ∀ team : TeamId, (free team : ℤ) - (pools team).playerCount <
      free team.other - (pools team.other).playerCount →
    (free team.other : ℤ) - (pools team.other).playerCount - (free team - (pools team).playerCount) ≤ 1 ∨
    (pools team).selectedGroups = []

theorem Selecting.selected {free : ℕ} (h : Selecting q.groups (q.normal team) free pool itr)
    (hqueue : (q.normal team).Nodup) : Selected q team free pool where
  count := h.count
  distinct := ((List.sublist_append_left _ itr).trans h.order).nodup hqueue
  uninvited := h.uninvited
  queued _ hp := h.order.subset (List.mem_append_left itr hp)
  fits := h.fits

theorem freeSlots_le (cfg : QueueConfig) (q : BattlegroundQueue) (freeSlotsForTeam : TeamId → ℕ)
    (team : TeamId) : q.freeSlots cfg freeSlotsForTeam team ≤ freeSlotsForTeam team := by
  rw [BattlegroundQueue.freeSlots]
  split
  · exact Nat.sub_le _ _
  · exact Nat.le_refl _

theorem Balancing.balanced (h : Balancing q free f) (hend : f.unbalanced free = none) :
    Balanced free f.pools := by
  intro team hless
  show f.diff free team.other - f.diff free team ≤ 1 ∨ _
  rcases unbalanced_none hend with hstop | hdiff | hzero
  · obtain ⟨team', hnil, hle⟩ := h.stopped hstop
    rcases eq_or_other team team' with rfl | rfl
    · exact .inr hnil
    · rw [other_other] at hle
      exact .inl (by omega)
  · left
    cases team with
    | alliance =>
      show f.diff free .horde - f.diff free .alliance ≤ 1
      omega
    | horde =>
      show f.diff free .alliance - f.diff free .horde ≤ 1
      omega
  · exact .inr ((h.selecting team).playerCount_eq_zero.mp (hzero team))

/-- What `FillPlayersToBG` should leave. -/
structure WellFilled (cfg : QueueConfig) (q : BattlegroundQueue) (freeSlotsForTeam : TeamId → ℕ)
    (q' : BattlegroundQueue) : Prop where
  queues : q' = { q with selectionPools := q'.selectionPools }
  selected : ∀ team, Selected q team (q.freeSlots cfg freeSlotsForTeam team) (q'.selectionPools team)
  free_le : ∀ team, q.freeSlots cfg freeSlotsForTeam team ≤ freeSlotsForTeam team
  balanced : cfg.invitationType ≠ .noBalance →
    Balanced (q.freeSlots cfg freeSlotsForTeam) q'.selectionPools

/-- **Filling a running battleground** ends, changes nothing but the pools, selects for each team groups
of its queue that fit, and balances the teams unless no balance is wanted. -/
theorem fillPlayersToBG_fits (cfg : QueueConfig) (q : BattlegroundQueue)
    (hqueues : ∀ team, (q.normal team).Nodup) (freeSlotsForTeam : TeamId → ℕ) :
    Yields (q.initPools.fillPlayersToBG cfg freeSlotsForTeam) (WellFilled cfg q freeSlotsForTeam) := by
  have hle := freeSlots_le cfg q freeSlotsForTeam
  have hfree : q.initPools.freeSlots cfg freeSlotsForTeam = q.freeSlots cfg freeSlotsForTeam := rfl
  have hstart : Balancing q (q.freeSlots cfg freeSlotsForTeam) ⟨
      fun team => (SelectionPool.init.addGroups q.groups (q.freeSlots cfg freeSlotsForTeam team)
        (q.normal team)).1,
      fun team => (SelectionPool.init.addGroups q.groups (q.freeSlots cfg freeSlotsForTeam team)
        (q.normal team)).2, false⟩ := by
    refine ⟨fun team => ?_, fun hstop => by cases hstop⟩
    exact (Selecting.init (q.normal team) _).addGroups (Nat.le_refl _)
  rw [BattlegroundQueue.fillPlayersToBG, hfree]
  split
  · next hnone =>
    refine .ok ⟨rfl, fun team => ?_, hle, fun hne => absurd hnone hne⟩
    exact (hstart.selecting team).selected (hqueues team)
  · have hloop : Yields (Lib.drain (Filling.unbalanced (q.freeSlots cfg freeSlotsForTeam))
        (Filling.kickRound q.groups (q.freeSlots cfg freeSlotsForTeam)) .endless (Filling.rounds ⟨_, _, _⟩)
        ⟨_, _, _⟩) _ :=
      Yields.drain (Balancing q (q.freeSlots cfg freeSlotsForTeam)) Filling.rounds
        (fun f team h hround => kickRound_spec h hround) _ hstart (Nat.le_refl _)
    refine hloop.bind fun f hf => ?_
    obtain ⟨hbalancing, hend⟩ := hf
    exact .ok ⟨rfl, fun team => (hbalancing.selecting team).selected (hqueues team), hle,
      fun _ => hbalancing.balanced hend⟩

/-- A group of that many players. -/
def groupOf (team : TeamId) (n : ℕ) : GroupQueueInfo :=
  ⟨List.range (n + 1), team, 0, 0, by simp⟩

/-- Two groups of two players on one side, and a single player on the other. -/
def smallQueue : BattlegroundQueue where
  groups p := if p = 3 then groupOf .horde 0 else groupOf .alliance 1
  premade _ := []
  normal
    | .alliance => [1, 2]
    | .horde => [3]
  selectionPools _ := .init

/-- Four and one are too far apart, so that one of the two groups is kicked. -/
theorem smallQueue_fills : (∀ team, (smallQueue.normal team).Nodup) ∧
    Yields (smallQueue.initPools.fillPlayersToBG ⟨.balanced, 0, false⟩ fun _ => 4)
      (WellFilled ⟨.balanced, 0, false⟩ smallQueue fun _ => 4) := by
  have hqueues : ∀ team, (smallQueue.normal team).Nodup := by
    intro team
    cases team <;> decide
  exact ⟨hqueues, fillPlayersToBG_fits ⟨.balanced, 0, false⟩ smallQueue hqueues fun _ => 4⟩

example : ((smallQueue.initPools.fillPlayersToBG ⟨.balanced, 0, false⟩ fun _ => 4).map fun q =>
    ((q.selectionPools .alliance).playerCount, (q.selectionPools .horde).playerCount)) = .ok (2, 1) := by
  decide

end Sunstrider.Battlegrounds
