import Sunstrider.Lib.Keyed
import Sunstrider.Lib.Word

/-!
# Loot rolls

The rolls of a group, from `Group.cpp`, for the build of the server that does not define `LICH_KING`.
`RollId` is a list, and a vote is found under the guid of its player. `resolved` is a record of the
rolls that `CountTheRoll` was called on; who wins them, and the timer that ends them, are left out, and
so are the items that no roll is started for. Of the loot they read how many items it has (`lootOf`).
-/

namespace Sunstrider.Groups

open Lib (incU8 decU8 replaceKey removeKey)

def maxGroupSize : ℕ := 5

def maxRaidSize : ℕ := 40

inductive RollVote
  | pass
  | need
  | greed
  | notEmitedYet
  | notValid
  deriving DecidableEq

/-- `MAX_ROLL_TYPE`, after `ROLL_PASS`, `ROLL_NEED` and `ROLL_GREED`. -/
def maxRollType : ℕ := 3

/-- How many items a loot has, those for quests apart. -/
structure Loot where
  items : ℕ
  deriving DecidableEq

structure Roll where
  itemGUID : ℕ
  /-- `getLoot`, which is gone when the loot is deleted. -/
  loot : Option Loot
  playerVote : List (ℕ × RollVote)
  totalPlayersRolling : ℕ
  totalNeed : ℕ
  totalGreed : ℕ
  totalPass : ℕ
  deriving DecidableEq

namespace Roll

/-- `Roll(guid, item)`. -/
def new (itemGUID : ℕ) : Roll := ⟨itemGUID, none, [], 0, 0, 0, 0⟩

def isValid (r : Roll) : Bool := r.loot.isSome

/-- `playerVote.find(guid)`. -/
def voteOf (r : Roll) (guid : ℕ) : Option (ℕ × RollVote) := r.playerVote.find? fun e => e.1 = guid

/-- `playerVote[guid] = vote`. -/
def setVote (r : Roll) (guid : ℕ) (vote : RollVote) : Roll :=
  { r with playerVote :=
      if (r.voteOf guid).isSome then replaceKey Prod.fst (guid, vote) r.playerVote
      else r.playerVote ++ [(guid, vote)] }

/-- The `switch` of `CountRollVote`. -/
def castVote (r : Roll) (guid : ℕ) : ℕ → Roll
  | 0 => { r.setVote guid .pass with totalPass := incU8 r.totalPass }
  | 1 => { r.setVote guid .need with totalNeed := incU8 r.totalNeed }
  | 2 => { r.setVote guid .greed with totalGreed := incU8 r.totalGreed }
  | _ => r

/-- The vote of a member who leaves, in the loop of `RemoveMember`. -/
def dropVote (r : Roll) (guid : ℕ) (vote : RollVote) : Roll :=
  { r with
    totalGreed := if vote = .greed then decU8 r.totalGreed else r.totalGreed
    totalNeed := if vote = .need then decU8 r.totalNeed else r.totalNeed
    totalPass := if vote = .pass then decU8 r.totalPass else r.totalPass
    totalPlayersRolling :=
      if vote ≠ .notValid then decU8 r.totalPlayersRolling else r.totalPlayersRolling
    playerVote := removeKey Prod.fst guid r.playerVote }

end Roll

/-- A linked member of the group, as the start of a roll sees him. -/
structure Candidate where
  guid : ℕ
  hasSession : Bool
  isAtGroupRewardDistance : Bool
  allowedForPlayer : Bool
  canUseItem : Bool
  passOnGroupLoot : Bool
  deriving DecidableEq

/-- The linked members of a group. Each is linked once, and there are no more than in a full raid. -/
structure Party where
  members : List Candidate
  nodup : (members.map Candidate.guid).Nodup
  size : members.length ≤ maxRaidSize

structure Rolls where
  rollId : List Roll
  resolved : List Roll
  /-- The generator of item guids. -/
  nextItemGuid : ℕ

namespace Rolls

/-- A player who may roll, in the loop over the members. Where nobody passes automatically, `autoPass`
is off. -/
def addPlayer (autoPass : Bool) (r : Roll) (m : Candidate) : Roll :=
  let r := { r with totalPlayersRolling := incU8 r.totalPlayersRolling }
  if autoPass && m.passOnGroupLoot then
    { r.setVote m.guid .pass with totalPass := incU8 r.totalPass }
  else r.setVote m.guid .notEmitedYet

/-- The roll for one item, between the members who are eligible. -/
def startRoll (s : Rolls) (loot : Loot) (party : Party) (eligible : Candidate → Bool)
    (autoPass : Bool) : Rolls :=
  let players := party.members.filter fun m => m.hasSession && eligible m
  let r := players.foldl (addPlayer autoPass) (Roll.new s.nextItemGuid)
  let s := { s with nextItemGuid := s.nextItemGuid + 1 }
  if 0 < r.totalPlayersRolling then { s with rollId := s.rollId ++ [{ r with loot := some loot }] }
  else s

/-- How a roll is started. -/
inductive RollKind
  | groupLoot
  | groupLootQuest
  | needBeforeGreed
  | needBeforeGreedQuest
  deriving DecidableEq

/-- Who rolls. Only for the items of `NeedBeforeGreed` it matters who can use them. -/
def RollKind.eligible (kind : RollKind) (m : Candidate) : Bool :=
  match kind with
  | .groupLoot | .groupLootQuest | .needBeforeGreedQuest =>
    m.isAtGroupRewardDistance && m.allowedForPlayer
  | .needBeforeGreed => m.canUseItem && m.allowedForPlayer && m.isAtGroupRewardDistance

/-- Nobody passes automatically on an item for a quest. -/
def RollKind.autoPass : RollKind → Bool
  | .groupLoot | .needBeforeGreed => true
  | .groupLootQuest | .needBeforeGreedQuest => false

/-- `GroupLoot` and `NeedBeforeGreed`, for one of the items of the loot. -/
def start (s : Rolls) (kind : RollKind) (loot : Loot) (party : Party) : Rolls :=
  s.startRoll loot party kind.eligible kind.autoPass

def getRoll (s : Rolls) (guid : ℕ) : Option Roll :=
  s.rollId.find? fun r => r.itemGUID = guid && r.isValid

def countTheRoll (s : Rolls) (roll : Roll) : Rolls :=
  { s with
    rollId := removeKey Roll.itemGUID roll.itemGUID s.rollId
    resolved := s.resolved ++ [roll] }

/-- `CountRollVote(playerGUID, Guid, choice)`. -/
def countRollVote (s : Rolls) (playerGUID guid choice : ℕ) : Rolls :=
  match s.getRoll guid with
  | none => s
  | some roll =>
    if (roll.voteOf playerGUID).isNone then s
    else if roll.loot.any fun loot => loot.items = 0 then s
    else
      let roll := roll.castVote playerGUID choice
      let s := { s with rollId := replaceKey Roll.itemGUID roll s.rollId }
      if roll.totalPlayersRolling ≤ roll.totalPass + roll.totalNeed + roll.totalGreed then
        s.countTheRoll roll
      else s

def handleLootRoll (s : Rolls) (playerGUID guid rollType : ℕ) : Rolls :=
  if maxRollType ≤ rollType then s else s.countRollVote playerGUID guid rollType

/-- `RemoveMember`, of its loop over the rolls the round for one of them. -/
def removePlayer (guid : ℕ) (s : Rolls) (roll : Roll) : Rolls :=
  match roll.voteOf guid with
  | none => s
  | some e =>
    { s with rollId := replaceKey Roll.itemGUID (roll.dropVote guid e.2) s.rollId }.countRollVote
      guid roll.itemGUID maxRollType

/-- The loop of `RemoveMember` over the rolls. -/
def removeMember (s : Rolls) (guid : ℕ) : Rolls := s.rollId.foldl (removePlayer guid) s

inductive Op
  | start (kind : RollKind) (loot : Loot) (party : Party)
  | vote (playerGUID guid rollType : ℕ)
  | remove (guid : ℕ)
  /-- The loot of a roll loses its items, or is deleted. -/
  | lootChanges (guid : ℕ) (loot : Option Loot)

def step (s : Rolls) : Op → Rolls
  | .start kind loot party => s.start kind loot party
  | .vote playerGUID guid rollType => s.handleLootRoll playerGUID guid rollType
  | .remove guid => s.removeMember guid
  | .lootChanges guid loot =>
    { s with rollId := s.rollId.map fun r => if r.itemGUID = guid then { r with loot := loot } else r }

/-- A group that has not rolled yet. -/
def noRolls : Rolls := ⟨[], [], 0⟩

end Rolls

end Sunstrider.Groups
