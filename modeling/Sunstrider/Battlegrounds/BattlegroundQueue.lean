import Mathlib.Data.Int.Notation
import Mathlib.Logic.Function.Basic
import Sunstrider.Lib.Run

/-!
# Queues for battlegrounds

`BattleGroundQueue.cpp`: the selection pools, and the functions that fill them from the queues of one
bracket. Groups are at addresses, and a queue or a pool is a list of these. An iterator over a queue is
the part of the list from its group on, so that it is at the end where that part is empty.

A group is kept while it has players. What a group has besides its players, its team, its time and its
invitation is left out, and so are ratings.
-/

namespace Sunstrider.Battlegrounds

open Lib (drain)

/-- `TeamId`. The code of the other team is the same with the names exchanged. -/
inductive TeamId
  | alliance
  | horde
  deriving DecidableEq

namespace TeamId

def other : TeamId → TeamId
  | .alliance => .horde
  | .horde => .alliance

end TeamId

/-- `BattlegroundQueueInvitationType`. -/
inductive InvitationType
  | noBalance
  | balanced
  | even
  deriving DecidableEq

/-- The settings and the flag of the battleground manager that are read here. -/
structure QueueConfig where
  invitationType : InvitationType
  /-- `CONFIG_BATTLEGROUND_PREMADE_GROUP_WAIT_FOR_MATCH`. -/
  premadeGroupWaitForMatch : UInt32
  isBattleGroundTesting : Bool

/-- `GroupQueueInfo`, with the keys of its players. -/
structure GroupQueueInfo where
  players : List ℕ
  team : TeamId
  joinTime : UInt32
  isInvitedToBGInstanceGUID : ℕ
  players_ne : players ≠ []

inductive QueueFault
  /-- An iterator at the end is advanced or read. -/
  | pastEnd
  /-- `back` of an empty list. -/
  | emptyBack
  | endless
  deriving DecidableEq

namespace GroupQueueInfo

def size (g : GroupQueueInfo) : ℕ := g.players.length

def invited (g : GroupQueueInfo) : Bool := g.isInvitedToBGInstanceGUID != 0

end GroupQueueInfo

structure SelectionPool where
  selectedGroups : List ℕ
  playerCount : ℕ
  deriving DecidableEq

namespace SelectionPool

def init : SelectionPool := ⟨[], 0⟩

variable (groups : ℕ → GroupQueueInfo)

/-- The search of `KickGroup`, for the index of the largest group, or of the last that has `size`
players, or one more or less. -/
def kickStep (size : ℕ) (l : List ℕ) (s : ℕ × Bool) (e : ℕ × ℕ) : ℕ × Bool :=
  if ((groups e.1).size - size : ℤ).natAbs ≤ 1 then (e.2, true)
  else if !s.2 && (groups (l.getD s.1 0)).size ≤ (groups e.1).size then (e.2, s.2)
  else s

def groupToKick (size : ℕ) (l : List ℕ) : ℕ := (l.zipIdx.foldl (kickStep groups size l) (0, false)).1

def kickGroup (pool : SelectionPool) (size : ℕ) : Except QueueFault (Bool × SelectionPool) :=
  if pool.playerCount ≠ 0 then
    match pool.selectedGroups[groupToKick groups size pool.selectedGroups]? with
    | none => .error .pastEnd
    | some ginfo =>
      .ok (!decide ((groups ginfo).size ≤ size + 1),
        ⟨pool.selectedGroups.eraseIdx (groupToKick groups size pool.selectedGroups),
          pool.playerCount - (groups ginfo).size⟩)
  else .ok (true, pool)

def addGroup (pool : SelectionPool) (ginfo desiredCount : ℕ) : Bool × SelectionPool :=
  if !(groups ginfo).invited && pool.playerCount + (groups ginfo).size ≤ desiredCount then
    (true, ⟨pool.selectedGroups ++ [ginfo], pool.playerCount + (groups ginfo).size⟩)
  else (decide (pool.playerCount < desiredCount), pool)

/-- Groups are added up to the first for which `AddGroup` says that the pool is full. The iterator is
left there. -/
def addGroups (desiredCount : ℕ) : SelectionPool → List ℕ → SelectionPool × List ℕ
  | pool, [] => (pool, [])
  | pool, ginfo :: itr =>
    match pool.addGroup groups ginfo desiredCount with
    | (true, pool) => addGroups desiredCount pool itr
    | (false, pool) => (pool, ginfo :: itr)

/-- The same, where invited groups are passed over. -/
def addUninvited (desiredCount : ℕ) : SelectionPool → List ℕ → SelectionPool
  | pool, [] => pool
  | pool, ginfo :: itr =>
    if (groups ginfo).invited then addUninvited desiredCount pool itr
    else
      match pool.addGroup groups ginfo desiredCount with
      | (true, pool) => addUninvited desiredCount pool itr
      | (false, pool) => pool

/-- The first loop of `CheckNormalMatch`. It breaks at the group with which there are enough players. -/
def addUntil (minPlayers maxPlayers : ℕ) : SelectionPool → List ℕ → SelectionPool × List ℕ
  | pool, [] => (pool, [])
  | pool, ginfo :: itr =>
    if (groups ginfo).invited then addUntil minPlayers maxPlayers pool itr
    else
      let pool := (pool.addGroup groups ginfo maxPlayers).2
      if minPlayers ≤ pool.playerCount then (pool, ginfo :: itr)
      else addUntil minPlayers maxPlayers pool itr

end SelectionPool

/-- The queues of a bracket, with the selection pools. -/
structure BattlegroundQueue where
  groups : ℕ → GroupQueueInfo
  /-- `m_QueuedGroups[bracket_id][BG_QUEUE_PREMADE_ALLIANCE + team]`. -/
  premade : TeamId → List ℕ
  /-- `m_QueuedGroups[bracket_id][BG_QUEUE_NORMAL_ALLIANCE + team]`. -/
  normal : TeamId → List ℕ
  selectionPools : TeamId → SelectionPool

/-- The variables of the loop in `FillPlayersToBG`. -/
structure Filling where
  pools : TeamId → SelectionPool
  /-- The iterators over the queues. -/
  itr : TeamId → List ℕ
  /-- The loop was left by `break`. -/
  stop : Bool

namespace Filling

variable (groups : ℕ → GroupQueueInfo) (free : TeamId → ℕ)

/-- `diffAli` and `diffHorde`. -/
def diff (f : Filling) (team : TeamId) : ℤ := free team - (f.pools team).playerCount

/-- The condition of the loop, and the team whose groups are kicked in its next round. -/
def unbalanced (f : Filling) : Option TeamId :=
  if !f.stop && decide (1 < (f.diff free .alliance - f.diff free .horde).natAbs) &&
      (decide (0 < (f.pools .horde).playerCount) || decide (0 < (f.pools .alliance).playerCount)) then
    some (if f.diff free .alliance < f.diff free .horde then .alliance else .horde)
  else none

/-- A round of the loop, for the team with fewer free slots. -/
def kickRound (f : Filling) (team : TeamId) : Except QueueFault Filling := do
  let size := (f.diff free team.other - f.diff free team).toNat
  -- kick a group, add to the pool new groups if needed
  let (again, pool) ← (f.pools team).kickGroup groups size
  let bound := if f.diff free team.other ≤ free team then (free team - f.diff free team.other).toNat else 0
  let (pool, itr) := if again then pool.addGroups groups bound (f.itr team) else (pool, f.itr team)
  let g : Filling := ⟨Function.update f.pools team pool, Function.update f.itr team itr, false⟩
  if pool.playerCount = 0 then
    if (free team : ℤ) ≤ f.diff free team.other + 1 then .ok { g with stop := true }
    else do
      let (_, pool') ← (g.pools team.other).kickGroup groups size
      .ok { g with pools := Function.update g.pools team.other pool' }
  else .ok g

/-- A bound for the rounds: each kicks a group, moves on in a queue or leaves the loop. -/
def rounds (f : Filling) : ℕ :=
  (f.pools .alliance).selectedGroups.length + (f.pools .horde).selectedGroups.length +
    2 * ((f.itr .alliance).length + (f.itr .horde).length) + if f.stop then 0 else 1

end Filling

namespace BattlegroundQueue

variable (cfg : QueueConfig)

/-- `Init`, of both pools. -/
def initPools (q : BattlegroundQueue) : BattlegroundQueue :=
  { q with selectionPools := fun _ => .init }

/-- The free slots of a running battleground, after the adjustment for even teams. -/
def freeSlots (q : BattlegroundQueue) (freeSlotsForTeam : TeamId → ℕ) (team : TeamId) : ℕ :=
  if cfg.invitationType = .even ∧ freeSlotsForTeam .horde = 1 ∧ freeSlotsForTeam .alliance = 1 then
    -- the teams have the same number of players, and as many may join on both sides
    freeSlotsForTeam team - ((q.normal team).length - (q.normal team.other).length)
  else freeSlotsForTeam team

/-- `FillPlayersToBG`, for a battleground with so many free slots. -/
def fillPlayersToBG (q : BattlegroundQueue) (freeSlotsForTeam : TeamId → ℕ) :
    Except QueueFault BattlegroundQueue := do
  let free := q.freeSlots cfg freeSlotsForTeam
  let filled := fun team => (q.selectionPools team).addGroups q.groups (free team) (q.normal team)
  let f : Filling := ⟨fun team => (filled team).1, fun team => (filled team).2, false⟩
  if cfg.invitationType = .noBalance then .ok { q with selectionPools := f.pools }
  else do
    let f ← drain (Filling.unbalanced free) (Filling.kickRound q.groups free) .endless f.rounds f
    .ok { q with selectionPools := f.pools }

/-- A group that is not invited. -/
def uninvited (q : BattlegroundQueue) (ginfo : ℕ) : Bool := !(q.groups ginfo).invited

/-- The premade group of a team is moved to the normal queue, if its time is over or it has become too
small. Only the first in the queue is checked. -/
def movePremade (now : UInt32) (minPlayersPerTeam : ℕ) (q : BattlegroundQueue) (team : TeamId) :
    BattlegroundQueue :=
  match q.premade team with
  | [] => q
  | ginfo :: rest =>
    let timeBefore := now - cfg.premadeGroupWaitForMatch
    if q.uninvited ginfo && (decide ((q.groups ginfo).joinTime < timeBefore) ||
        decide ((q.groups ginfo).size < minPlayersPerTeam)) then
      { q with
        normal := Function.update q.normal team (ginfo :: q.normal team)
        premade := Function.update q.premade team rest }
    else q

/-- `CheckPremadeMatch`, at the time `now` in milliseconds. -/
def checkPremadeMatch (now : UInt32) (minPlayersPerTeam maxPlayersPerTeam : ℕ) (q : BattlegroundQueue) :
    Bool × BattlegroundQueue :=
  match (q.premade .alliance).find? q.uninvited, (q.premade .horde).find? q.uninvited with
  | some aliGroup, some hordeGroup =>
    let pool := fun team => ((q.selectionPools team).addGroup q.groups
      (match team with | .alliance => aliGroup | .horde => hordeGroup) maxPlayersPerTeam).2
    -- add groups/players from normal queue to size of bigger group
    let maxPlayers := min (pool .alliance).playerCount (pool .horde).playerCount
    (true, { q with
      selectionPools := fun team => (pool team).addUninvited q.groups maxPlayers (q.normal team) })
  | _, _ =>
    (false, (q.movePremade cfg now minPlayersPerTeam .alliance).movePremade cfg now minPlayersPerTeam .horde)

/-- The first loop of `CheckNormalMatch`, over the queue of a team. -/
def selectFirst (minPlayers maxPlayers : ℕ) (q : BattlegroundQueue) (team : TeamId) :
    SelectionPool × List ℕ :=
  (q.selectionPools team).addUntil q.groups minPlayers maxPlayers (q.normal team)

/-- The last two checks of `CheckNormalMatch`, on the pools that were selected. -/
def checkPools (isBattleground : Bool) (minPlayers : ℕ) (q : BattlegroundQueue)
    (pools : TeamId → SelectionPool) : Bool × BattlegroundQueue :=
  -- allow 1v0 if debug bg
  if cfg.isBattleGroundTesting = true ∧ isBattleground = true ∧
      ((pools .alliance).playerCount ≠ 0 ∨ (pools .horde).playerCount ≠ 0) then
    (true, { q with selectionPools := pools })
  else (decide (minPlayers ≤ (pools .alliance).playerCount ∧ minPlayers ≤ (pools .horde).playerCount),
    { q with selectionPools := pools })

/-- `CheckNormalMatch`, with a template that is one of a battleground or of an arena. -/
def checkNormalMatch (isBattleground : Bool) (minPlayers maxPlayers : ℕ) (q : BattlegroundQueue) :
    Except QueueFault (Bool × BattlegroundQueue) :=
  let first := q.selectFirst minPlayers maxPlayers
  let j : TeamId :=
    if (first .horde).1.playerCount < (first .alliance).1.playerCount then .horde else .alliance
  if cfg.invitationType ≠ .noBalance ∧ minPlayers ≤ (first .horde).1.playerCount ∧
      minPlayers ≤ (first .alliance).1.playerCount then
    match (first j).2 with
    | [] => .error .pastEnd
    | _ :: itr =>
      let pools := Function.update (fun team => (first team).1) j
        ((first j).1.addUninvited q.groups (first j.other).1.playerCount itr)
      -- do not allow to start bg with more than 2 players more on 1 faction
      if 2 < ((pools .horde).playerCount - (pools .alliance).playerCount : ℤ).natAbs then
        .ok (false, { q with selectionPools := pools })
      else .ok (q.checkPools cfg isBattleground minPlayers pools)
  else .ok (q.checkPools cfg isBattleground minPlayers fun team => (first team).1)

/-- A group of the selection of the other team is moved to the other team's queue: behind `last`, it is
taken out of the queue of the team. -/
def moveToOther (team : TeamId) (last : ℕ) (q : BattlegroundQueue) (ginfo : ℕ) : BattlegroundQueue :=
  let queue := q.normal team
  let moved := queue.takeWhile (· ≠ last) ++
    match queue.dropWhile (· ≠ last) with
    | [] => []
    | itrTeam :: rest => itrTeam :: rest.erase ginfo
  { q with
    groups := Function.update q.groups ginfo { q.groups ginfo with team := team.other }
    normal := Function.update (Function.update q.normal team.other (ginfo :: q.normal team.other)) team moved }

def checkSkirmishForSameFaction (minPlayersPerTeam : ℕ) (q : BattlegroundQueue) :
    Except QueueFault (Bool × BattlegroundQueue) :=
  if (q.selectionPools .alliance).playerCount < minPlayersPerTeam ∧
      (q.selectionPools .horde).playerCount < minPlayersPerTeam then
    .ok (false, q)
  else
    let team : TeamId :=
      if (q.selectionPools .horde).playerCount = minPlayersPerTeam then .horde else .alliance
    -- store last ginfo pointer
    match (q.selectionPools team).selectedGroups.getLast? with
    | none => .error .emptyBack
    | some last =>
      match (q.normal team).dropWhile (· ≠ last) with
      | [] => .ok (false, { q with selectionPools := Function.update q.selectionPools team.other .init })
      | _ :: itrTeam2 =>
        let pool := SelectionPool.init.addUninvited q.groups minPlayersPerTeam itrTeam2
        let q := { q with selectionPools := Function.update q.selectionPools team.other pool }
        if pool.playerCount ≠ minPlayersPerTeam then .ok (false, q)
        else .ok (true, pool.selectedGroups.foldl (moveToOther team last) q)

end BattlegroundQueue

end Sunstrider.Battlegrounds
