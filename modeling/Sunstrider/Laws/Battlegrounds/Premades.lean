import Sunstrider.Laws.Battlegrounds.Matches

/-!
# Premade groups

`CheckPremadeMatch`, at a time when the server has been up for at least the time that premade groups
wait. A match takes the first premade group of each faction that is not invited, and otherwise the front
of each premade queue may have to give way (`checkPremadeMatch_spec`). Groups behind an invited one do
not: the invitation ends soon, and they are looked at then.
-/

namespace Sunstrider.Battlegrounds

variable {cfg : QueueConfig} {now : UInt32} {minPlayers maxPlayers : ℕ} {q : BattlegroundQueue}

/-- The group has waited longer than premade groups do, or is too small for a team. -/
def Overdue (cfg : QueueConfig) (now : UInt32) (minPlayers : ℕ) (q : BattlegroundQueue) (p : ℕ) : Prop :=
  cfg.premadeGroupWaitForMatch.toNat < now.toNat - (q.groups p).joinTime.toNat ∨
    (q.groups p).size < minPlayers

/-- The first premade group that is not invited waits its time, wherever it is in the queue, and the smaller
side of a match is filled up. `CheckPremadeMatch` need not do so. -/
structure WaitsAndFills (cfg : QueueConfig) (now : UInt32) (minPlayers : ℕ) (q : BattlegroundQueue)
    (r : Bool × BattlegroundQueue) : Prop where
  moved : ∀ team p, (q.premade team).find? q.uninvited = some p →
    (p ∈ r.2.normal team ∧ p ∉ r.2.premade team ↔ r.1 = false ∧ Overdue cfg now minPlayers q p)
  filled : r.1 = true → ∀ team : TeamId,
    (r.2.selectionPools team).playerCount ≤ (r.2.selectionPools team.other).playerCount →
    ∀ p ∈ q.normal team, q.uninvited p = true → p ∉ (r.2.selectionPools team).selectedGroups →
      (r.2.selectionPools team.other).playerCount < (r.2.selectionPools team).playerCount + (q.groups p).size

/-- What `CheckPremadeMatch` does. -/
structure PremadeChecked (cfg : QueueConfig) (now : UInt32) (minPlayers maxPlayers : ℕ)
    (q : BattlegroundQueue) (r : Bool × BattlegroundQueue) : Prop where
  /-- A match is formed where both factions have a premade group that is not invited. -/
  formed : r.1 = true ↔ ∀ team, ∃ p ∈ q.premade team, q.uninvited p = true
  /-- Then no group is moved. -/
  queues : r.1 = true → r.2 = { q with selectionPools := r.2.selectionPools }
  /-- The pool of a faction begins with its first such group. -/
  selected : r.1 = true → ∀ team p, (q.premade team).find? q.uninvited = some p →
    (q.groups p).size ≤ maxPlayers →
    ∃ l, (r.2.selectionPools team).selectedGroups = p :: l ∧ l.Sublist (q.normal team)
  /-- No pool gets more players than the bigger of these groups has. -/
  bounded : r.1 = true → ∀ ali horde, (q.premade .alliance).find? q.uninvited = some ali →
    (q.premade .horde).find? q.uninvited = some horde → ∀ team,
    (r.2.selectionPools team).playerCount ≤ max (q.groups ali).size (q.groups horde).size
  /-- Without a match, the front of a premade queue is moved if it is overdue. -/
  moved : r.1 = false → ∀ team p rest, q.premade team = p :: rest → q.uninvited p = true →
    Overdue cfg now minPlayers q p →
    r.2.premade team = rest ∧ r.2.normal team = p :: q.normal team
  /-- Otherwise the queues of the faction stay as they are. -/
  stays : r.1 = false → ∀ team,
    (∀ p rest, q.premade team = p :: rest → q.uninvited p = true → ¬ Overdue cfg now minPlayers q p) →
    r.2.premade team = q.premade team ∧ r.2.normal team = q.normal team

/-! ## One faction -/

/-- Where the server is up for long enough, the comparison is that of the times. -/
theorem overdue_iff (hwait : cfg.premadeGroupWaitForMatch ≤ now) {p : ℕ}
    (hjoin : (q.groups p).joinTime ≤ now) : Overdue cfg now minPlayers q p ↔
      (q.groups p).joinTime < now - cfg.premadeGroupWaitForMatch ∨ (q.groups p).size < minPlayers := by
  have hsub := UInt32.toNat_sub_of_le now cfg.premadeGroupWaitForMatch hwait
  rw [UInt32.le_iff_toNat_le] at hwait hjoin
  rw [Overdue, UInt32.lt_iff_toNat_lt, hsub]
  refine or_congr_left ?_
  omega

/-- The front of the premade queue of a faction goes to the front of its normal queue, or nothing
changes. -/
structure FrontChecked (cfg : QueueConfig) (now : UInt32) (minPlayers : ℕ) (q : BattlegroundQueue)
    (team : TeamId) (q' : BattlegroundQueue) : Prop where
  groups : q'.groups = q.groups
  other : q'.premade team.other = q.premade team.other ∧ q'.normal team.other = q.normal team.other
  moved : ∀ p rest, q.premade team = p :: rest → q.uninvited p = true → Overdue cfg now minPlayers q p →
    q'.premade team = rest ∧ q'.normal team = p :: q.normal team
  stays : (∀ p rest, q.premade team = p :: rest → q.uninvited p = true → ¬ Overdue cfg now minPlayers q p) →
    q'.premade team = q.premade team ∧ q'.normal team = q.normal team

theorem movePremade_checked (hwait : cfg.premadeGroupWaitForMatch ≤ now) (team : TeamId)
    (hjoin : ∀ p ∈ q.premade team, (q.groups p).joinTime ≤ now) :
    FrontChecked cfg now minPlayers q team (q.movePremade cfg now minPlayers team) := by
  unfold BattlegroundQueue.movePremade
  cases hqueue : q.premade team with
  | nil =>
    refine ⟨rfl, ⟨rfl, rfl⟩, fun p rest heq => ?_, fun _ => ⟨rfl, rfl⟩⟩
    rw [hqueue] at heq
    cases heq
  | cons p rest =>
    have hdue : Overdue cfg now minPlayers q p ↔ _ := overdue_iff hwait (hjoin p (hqueue ▸ List.mem_cons_self))
    dsimp only
    split
    next hmove =>
      rw [Bool.and_eq_true, Bool.or_eq_true, decide_eq_true_eq, decide_eq_true_eq, ← hdue] at hmove
      refine ⟨rfl, ?_, fun p' rest' heq _ _ => ?_, fun hnot => absurd hmove.2 (hnot p rest hqueue hmove.1)⟩
      · simp [other_ne]
      · obtain ⟨rfl, rfl⟩ := List.cons.inj (hqueue.symm.trans heq)
        simp
    next hstay =>
      rw [Bool.and_eq_true, Bool.or_eq_true, decide_eq_true_eq, decide_eq_true_eq, ← hdue] at hstay
      refine ⟨rfl, ⟨rfl, rfl⟩, fun p' rest' heq hfree hover => ?_, fun _ => ⟨rfl, rfl⟩⟩
      obtain ⟨rfl, rfl⟩ := List.cons.inj (hqueue.symm.trans heq)
      exact absurd ⟨hfree, hover⟩ hstay

/-! ## Both factions -/

variable {groups : ℕ → GroupQueueInfo}

/-- The groups that a loop adds come behind the ones that were selected. -/
theorem addUninvited_append {bound : ℕ} (pool : SelectionPool) (itr : List ℕ) :
    ∃ l, (pool.addUninvited groups bound itr).selectedGroups =
      pool.selectedGroups ++ l ∧ l.Sublist itr := by
  induction itr generalizing pool with
  | nil => exact ⟨[], (List.append_nil _).symm, List.Sublist.refl _⟩
  | cons p itr ih =>
    rw [SelectionPool.addUninvited]
    split
    · obtain ⟨l, heq, hsub⟩ := ih pool
      exact ⟨l, heq, hsub.cons p⟩
    · split
      next pool' hadd =>
        obtain ⟨l, heq, hsub⟩ := ih pool'
        rcases addGroup_cases groups pool p bound with ⟨hadd', -⟩ | ⟨hadd', -⟩
        · rw [hadd'] at hadd
          cases hadd
          refine ⟨p :: l, ?_, hsub.cons_cons p⟩
          rw [heq, List.append_assoc, List.singleton_append]
        · rw [hadd'] at hadd
          obtain rfl : pool = pool' := congrArg Prod.snd hadd
          exact ⟨l, heq, hsub.cons p⟩
      next pool' hadd =>
        rw [addGroup_false hadd]
        exact ⟨[], (List.append_nil _).symm, List.nil_sublist _⟩

/-- The premade group comes first in its pool, if there is room for it. -/
theorem first_of_pool {p : ℕ} (hfree : (groups p).invited = false)
    (hsize : (groups p).size ≤ maxPlayers) (bound : ℕ) (itr : List ℕ) :
    ∃ l, ((SelectionPool.init.addGroup groups p maxPlayers).2.addUninvited groups bound itr).selectedGroups =
      p :: l ∧ l.Sublist itr := by
  have hadd : SelectionPool.init.addGroup groups p maxPlayers = (true, ⟨[p], (groups p).size⟩) := by
    simp [SelectionPool.addGroup, SelectionPool.init, hfree, hsize]
  rw [hadd]
  exact addUninvited_append ⟨[p], (groups p).size⟩ itr

theorem addUninvited_le {bound limit : ℕ} {pool : SelectionPool} (hpool : pool.playerCount ≤ limit)
    (hbound : bound ≤ limit) (itr : List ℕ) :
    (pool.addUninvited groups bound itr).playerCount ≤ limit := by
  induction itr generalizing pool with
  | nil => exact hpool
  | cons p itr ih =>
    rw [SelectionPool.addUninvited]
    split
    · exact ih hpool
    · have hadd : (pool.addGroup groups p bound).2.playerCount ≤ limit := by
        rcases addGroup_cases groups pool p bound with ⟨heq, -, hfits⟩ | ⟨heq, -⟩
        · rw [heq]
          exact Nat.le_trans hfits hbound
        · rw [heq]
          exact hpool
      split
      next pool' heq =>
        rw [heq] at hadd
        exact ih hadd
      next pool' heq =>
        rw [heq] at hadd
        exact hadd

theorem init_addGroup_le (groups : ℕ → GroupQueueInfo) (p bound : ℕ) :
    (SelectionPool.init.addGroup groups p bound).2.playerCount ≤ (groups p).size := by
  rcases addGroup_cases groups .init p bound with ⟨heq, -⟩ | ⟨heq, -⟩
  · rw [heq]
    exact Nat.le_of_eq (Nat.zero_add _)
  · rw [heq]
    exact Nat.zero_le _

/-- **Premade groups and their matches**, once the server is up for the time that they wait. -/
theorem checkPremadeMatch_spec (cfg : QueueConfig) (now : UInt32) (minPlayers maxPlayers : ℕ)
    (q : BattlegroundQueue) (hwait : cfg.premadeGroupWaitForMatch ≤ now)
    (hjoin : ∀ team, ∀ p ∈ q.premade team, (q.groups p).joinTime ≤ now) :
    PremadeChecked cfg now minPlayers maxPlayers q
      (q.initPools.checkPremadeMatch cfg now minPlayers maxPlayers) := by
  have hinit : ∀ team, (q.initPools.premade team).find? q.initPools.uninvited =
      (q.premade team).find? q.uninvited := fun _ => rfl
  rw [BattlegroundQueue.checkPremadeMatch, hinit, hinit]
  split
  next ali horde hali hhorde =>
    have hfound : ∀ team, ∃ p ∈ q.premade team, q.uninvited p = true :=
      forall_team.mpr ⟨⟨ali, List.mem_of_find?_eq_some hali, List.find?_some hali⟩,
        ⟨horde, List.mem_of_find?_eq_some hhorde, List.find?_some hhorde⟩⟩
    refine ⟨iff_of_true rfl hfound, fun _ => rfl, fun _ team p hp hsize => ?_,
      fun _ ali' horde' hali' hhorde' => ?_, fun h => absurd h.symm Bool.false_ne_true, fun h => absurd h.symm Bool.false_ne_true⟩
    · have hfree : (q.groups p).invited = false := by
        simpa [BattlegroundQueue.uninvited] using List.find?_some hp
      cases team with
      | alliance =>
        obtain rfl := Option.some.inj (hali.symm.trans hp)
        exact first_of_pool hfree hsize _ _
      | horde =>
        obtain rfl := Option.some.inj (hhorde.symm.trans hp)
        exact first_of_pool hfree hsize _ _
    · obtain rfl := Option.some.inj (hali.symm.trans hali')
      obtain rfl := Option.some.inj (hhorde.symm.trans hhorde')
      have haliLe := init_addGroup_le q.groups ali maxPlayers
      have hhordeLe := init_addGroup_le q.groups horde maxPlayers
      have hbound : ∀ n, min (SelectionPool.init.addGroup q.groups ali maxPlayers).2.playerCount n ≤
          max (q.groups ali).size (q.groups horde).size := fun n =>
        Nat.le_trans (Nat.le_trans (Nat.min_le_left _ n) haliLe) (Nat.le_max_left _ _)
      refine forall_team.mpr ⟨?_, ?_⟩
      · exact addUninvited_le (Nat.le_trans haliLe (Nat.le_max_left _ _)) (hbound _) _
      · exact addUninvited_le (Nat.le_trans hhordeLe (Nat.le_max_right _ _)) (hbound _) _
  next hnone =>
    have hunformed : ¬ ∀ team, ∃ p ∈ q.premade team, q.uninvited p = true := by
      intro hfound
      have hsome : ∀ team, ∃ p, (q.premade team).find? q.uninvited = some p := by
        intro team
        obtain ⟨p, hp, hfree⟩ := hfound team
        exact Option.isSome_iff_exists.mp (List.find?_isSome.mpr ⟨p, hp, hfree⟩)
      obtain ⟨ali, hali⟩ := hsome .alliance
      obtain ⟨horde, hhorde⟩ := hsome .horde
      exact hnone ali horde hali hhorde
    have hali : FrontChecked cfg now minPlayers q.initPools .alliance _ :=
      movePremade_checked hwait .alliance (hjoin .alliance)
    generalize q.initPools.movePremade cfg now minPlayers .alliance = q₁ at hali ⊢
    obtain ⟨hpremade₁, hnormal₁⟩ := hali.other
    have hjoin₁ : ∀ p ∈ q₁.premade .horde, (q₁.groups p).joinTime ≤ now := by
      rw [hali.groups]
      exact fun p hp => hjoin .horde p (hpremade₁ ▸ hp)
    have hhorde : FrontChecked cfg now minPlayers q₁ .horde _ := movePremade_checked hwait .horde hjoin₁
    obtain ⟨hpremade₂, hnormal₂⟩ := hhorde.other
    have hsame : ∀ p, (q₁.uninvited p = q.uninvited p) ∧
        (Overdue cfg now minPlayers q₁ p ↔ Overdue cfg now minPlayers q p) := by
      intro p
      rw [BattlegroundQueue.uninvited, Overdue, hali.groups]
      exact ⟨rfl, Iff.rfl⟩
    refine ⟨iff_of_false Bool.false_ne_true hunformed, fun h => absurd h Bool.false_ne_true,
      fun h => absurd h Bool.false_ne_true, fun h => absurd h Bool.false_ne_true,
      fun _ => forall_team.mpr ⟨?_, ?_⟩, fun _ => forall_team.mpr ⟨?_, ?_⟩⟩
    · intro p rest hqueue hfree hover
      exact hpremade₂ ▸ hnormal₂ ▸ hali.moved p rest hqueue hfree hover
    · intro p rest hqueue hfree hover
      rw [← (hsame p).1] at hfree
      rw [← (hsame p).2] at hover
      have hmoved := hhorde.moved p rest (hpremade₁.trans hqueue) hfree hover
      exact ⟨hmoved.1, hmoved.2.trans (congrArg _ hnormal₁)⟩
    · intro hnot
      exact hpremade₂ ▸ hnormal₂ ▸ hali.stays hnot
    · intro hnot
      have hstays := hhorde.stays fun p rest hqueue hfree hover =>
        hnot p rest (hpremade₁.symm.trans hqueue) ((hsame p).1 ▸ hfree) ((hsame p).2.mp hover)
      exact ⟨hstays.1.trans hpremade₁, hstays.2.trans hnormal₁⟩

/-- Two premade groups of the alliance, the first of which is invited. Both came when the server
started. -/
def waitingQueue : BattlegroundQueue where
  groups p := { groupOf .alliance 9 with isInvitedToBGInstanceGUID := if p = 1 then 7 else 0 }
  premade
    | .alliance => [1, 2]
    | .horde => []
  normal _ := []
  selectionPools _ := .init

/-- Half an hour in milliseconds. -/
def halfHour : QueueConfig := ⟨.balanced, 1800000, false⟩

theorem waitingQueue_checked : (halfHour.premadeGroupWaitForMatch ≤ 2000000 ∧
    ∀ team, ∀ p ∈ waitingQueue.premade team, (waitingQueue.groups p).joinTime ≤ 2000000) ∧
    PremadeChecked halfHour 2000000 5 10 waitingQueue
      (waitingQueue.initPools.checkPremadeMatch halfHour 2000000 5 10) := by
  have hjoin : ∀ team, ∀ p ∈ waitingQueue.premade team, (waitingQueue.groups p).joinTime ≤ 2000000 := by
    intro team p _
    show (0 : UInt32) ≤ 2000000
    decide
  exact ⟨⟨by decide, hjoin⟩, checkPremadeMatch_spec halfHour 2000000 5 10 waitingQueue (by decide) hjoin⟩

/-- The second group is the first that is not invited, and it has waited for longer than half an hour.
It stays behind the invited one. -/
theorem secondGroup_not_moved : ¬ WaitsAndFills halfHour 2000000 5 waitingQueue
    (waitingQueue.initPools.checkPremadeMatch halfHour 2000000 5 10) := by
  intro h
  have hmoved := (h.moved .alliance 2 (by decide)).mpr ⟨by decide, .inl (by decide)⟩
  exact absurd hmoved.1 (by decide)

end Sunstrider.Battlegrounds
