import Mathlib.Data.List.Basic
import Mathlib.Data.Nat.Notation

/-!
# The statistics of arena teams

`ArenaTeam.cpp` over a season: what a match and the end of a week make of a team and its members.

Left out: the names and emblems, the ranks, which nothing that is kept depends on, the fields of the players,
the points that are given to them, and the tables. The change of a rating is computed with floats and is a
parameter.
-/

namespace Sunstrider.Battlegrounds.ArenaSeason

structure ArenaTeamMember where
  guid : UInt32
  weekGames : UInt32
  weekWins : UInt32
  seasonGames : UInt32
  seasonWins : UInt32
  personalRating : UInt32
  deriving DecidableEq

structure ArenaTeamStats where
  rating : UInt16
  weekGames : UInt16
  weekWins : UInt16
  seasonGames : UInt16
  seasonWins : UInt16
  nonPlayedWeeks : UInt32
  deriving DecidableEq

structure ArenaTeam where
  teamId : UInt32
  type : UInt8
  captainGuid : UInt32
  members : List ArenaTeamMember
  stats : ArenaTeamStats
  deriving DecidableEq

/-- The settings of the server, and the change of a rating: of one's own rating, that of the opponent, and
whether one has won. -/
structure Config where
  getRatingMod : UInt32 → UInt32 → Bool → Int32
  arenaDecayEnabled : Bool
  arenaDecayMinimumRating : UInt32
  arenaDecayConsecutiveWeeks : UInt32
  arenaDecayValue : UInt32

variable (cfg : Config)

/-! ## Matches -/

namespace ArenaTeamMember

variable (m : ArenaTeamMember)

def modifyPersonalRating (mod : Int32) : ArenaTeamMember :=
  if m.personalRating.toInt32.toInt + mod.toInt < 0 then { m with personalRating := 0 }
  else { m with personalRating := m.personalRating + mod.toUInt32 }

def countGame : ArenaTeamMember :=
  { m with weekGames := m.weekGames + 1, seasonGames := m.seasonGames + 1 }

def countWin : ArenaTeamMember :=
  { m with weekWins := m.weekWins + 1, seasonWins := m.seasonWins + 1 }

end ArenaTeamMember

/-- The first member with the guid is changed. -/
def modifyMember (guid : UInt32) (f : ArenaTeamMember → ArenaTeamMember) :
    List ArenaTeamMember → List ArenaTeamMember
  | [] => []
  | m :: ms => if m.guid = guid then f m :: ms else m :: modifyMember guid f ms

/-- What a team is told of a match. -/
inductive MatchEvent
  | wonAgainst (againstRating : UInt32)
  | lostAgainst (againstRating : UInt32)
  | memberWon (guid againstRating : UInt32)
  | memberLost (guid againstRating : UInt32)
  | offlineMemberLost (guid againstRating : UInt32)

namespace ArenaTeam

variable (t : ArenaTeam)

def wonAgainst (againstRating : UInt32) : ArenaTeam :=
  let mod := cfg.getRatingMod t.stats.rating.toUInt32 againstRating true
  { t with
    stats :=
      { t.stats with
        rating := t.stats.rating + mod.toUInt32.toUInt16
        weekGames := t.stats.weekGames + 1
        weekWins := t.stats.weekWins + 1
        seasonGames := t.stats.seasonGames + 1
        seasonWins := t.stats.seasonWins + 1 } }

def lostAgainst (againstRating : UInt32) : ArenaTeam :=
  let mod := cfg.getRatingMod t.stats.rating.toUInt32 againstRating false
  { t with
    stats :=
      { t.stats with
        rating := t.stats.rating + mod.toUInt32.toUInt16
        weekGames := t.stats.weekGames + 1
        seasonGames := t.stats.seasonGames + 1 } }

def memberWon (guid againstRating : UInt32) : ArenaTeam :=
  { t with
    members := modifyMember guid (fun m =>
      (m.modifyPersonalRating (cfg.getRatingMod m.personalRating againstRating true)).countGame.countWin)
      t.members }

/-- `MemberLost`, which goes by the rating of the team. -/
def memberLost (guid againstRating : UInt32) : ArenaTeam :=
  { t with
    members := modifyMember guid (fun m =>
      (m.modifyPersonalRating (cfg.getRatingMod t.stats.rating.toUInt32 againstRating false)).countGame)
      t.members }

def offlineMemberLost (guid againstRating : UInt32) : ArenaTeam :=
  { t with
    members := modifyMember guid (fun m =>
      (m.modifyPersonalRating (cfg.getRatingMod m.personalRating againstRating false)).countGame)
      t.members }

def told : MatchEvent → ArenaTeam
  | .wonAgainst againstRating => t.wonAgainst cfg againstRating
  | .lostAgainst againstRating => t.lostAgainst cfg againstRating
  | .memberWon guid againstRating => t.memberWon cfg guid againstRating
  | .memberLost guid againstRating => t.memberLost cfg guid againstRating
  | .offlineMemberLost guid againstRating => t.offlineMemberLost cfg guid againstRating

/-! ## The end of a week -/

/-- `UpdateArenaPointsHelper`, less the points. -/
def updateArenaPointsHelper : ArenaTeam :=
  if t.stats.weekGames < 10 then
    { t with stats := { t.stats with nonPlayedWeeks := t.stats.nonPlayedWeeks + 1 } }
  else { t with stats := { t.stats with nonPlayedWeeks := 0 } }

def handleDecay : ArenaTeam :=
  if t.stats.rating.toUInt32 > cfg.arenaDecayMinimumRating ∧
      t.stats.nonPlayedWeeks ≥ cfg.arenaDecayConsecutiveWeeks then
    let diff := t.stats.rating.toUInt32 - cfg.arenaDecayMinimumRating
    let decay := if diff < cfg.arenaDecayValue then diff else cfg.arenaDecayValue
    { t with stats := { t.stats with rating := t.stats.rating - decay.toUInt16 } }
  else t

/-- `FinishWeek`: whether any match was played in the week, and the team. -/
def finishWeek : Bool × ArenaTeam :=
  if t.stats.weekGames = 0 then (false, t)
  else
    (true, { t with
      stats := { t.stats with weekGames := 0, weekWins := 0 }
      members := t.members.map fun m => { m with weekGames := 0, weekWins := 0 } })

end ArenaTeam

/-- What happens to a team in a season. -/
inductive TeamOp
  | told (event : MatchEvent)
  | updateArenaPointsHelper
  | handleDecay
  | finishWeek

def ArenaTeam.step (t : ArenaTeam) : TeamOp → ArenaTeam
  | .told event => t.told cfg event
  | .updateArenaPointsHelper => t.updateArenaPointsHelper
  | .handleDecay => t.handleDecay cfg
  | .finishWeek => t.finishWeek.2

end Sunstrider.Battlegrounds.ArenaSeason
