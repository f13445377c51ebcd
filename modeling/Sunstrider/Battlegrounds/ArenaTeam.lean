import Mathlib.Logic.Function.Basic
import Sunstrider.Cache.CharacterCache
import Sunstrider.Lib.Run

/-!
# Arena teams

`ArenaTeam.cpp` and the handlers of `ArenaTeamHandler.cpp`. A character that is in a team is in the list of its
members, in the character cache under the slot of its type, and, while online, in the fields of the player.

A team is known by its id. Left out: the statistics of the teams and their members, the petitions, the queues
of battlegrounds, and the packets. What the handlers ask of them is chosen at each step.
-/

namespace Sunstrider.Battlegrounds

open Cache (CharacterCache CharacterRow maxArenaSlot)
open Lib (drain)

inductive ArenaFault
  /-- A fault of the character cache. -/
  | cache (fault : Cache.Fault)
  /-- A team is used that has been deleted. -/
  | freed
  /-- The loop of `Disband` never ends. -/
  | endless
  /-- The ids of the teams have run out, and the server stops. -/
  | stopped
  deriving DecidableEq

structure Player where
  inWorld : Bool
  inArena : Bool
  /-- The values from `PLAYER_FIELD_ARENA_TEAM_INFO_1_1` on. -/
  values : ℕ → UInt32
  arenaTeamIdInvited : UInt32

structure ArenaTeam where
  teamId : UInt32
  type : UInt8
  teamName : String
  captainGuid : UInt32
  members : List UInt32
  deriving DecidableEq

/-- A row of `arena_team_member`, as the login query has it. -/
structure ArenaTeamInfoRow where
  arenaTeamId : UInt32
  playedWeek : UInt16
  playedSeason : UInt16
  personalRating : UInt16

structure ArenaWorld where
  cache : CharacterCache
  /-- The connected players. -/
  players : UInt32 → Option Player
  arenaTeamStore : AList fun _ : UInt32 => ArenaTeam
  /-- The teams of the store that have been deleted. -/
  freed : List UInt32
  nextArenaTeamId : UInt32

def getSlotByType (type : UInt8) : UInt8 :=
  match type with
  | 2 => 0
  | 3 => 1
  | 5 => 2
  | _ => 0xFF

def ArenaTeam.getSlot (t : ArenaTeam) : UInt8 := getSlotByType t.type

/-! ## Fields of players -/

namespace Player

variable (p : Player)

def setUInt32Value (index : ℕ) (value : UInt32) : Player :=
  { p with values := Function.update p.values index value }

/-- The six fields of a slot. -/
def setArenaTeamInfo (slot : ℕ) (info : Vector UInt32 6) : Player :=
  { p with
    values := fun i =>
      if h : slot * 6 ≤ i ∧ i < slot * 6 + 6 then info.get ⟨i - slot * 6, by omega⟩ else p.values i }

def getArenaTeamId (slot : UInt8) : UInt32 := p.values (slot.toNat * 6)

def setInArenaTeam (arenaTeamId : UInt32) (slot : UInt8) : Player :=
  p.setUInt32Value (slot.toNat * 6) arenaTeamId

end Player

/-- What a new member is told: the team, no invitation, the rating and the buttons. -/
def ArenaTeam.inform (t : ArenaTeam) (guid : UInt32) (p : Player) : Player :=
  let p := { p.setInArenaTeam t.teamId t.getSlot with arenaTeamIdInvited := 0 }
  let p := p.setUInt32Value (t.getSlot.toNat * 6 + 5) 1500
  if t.captainGuid ≠ guid then p.setUInt32Value (t.getSlot.toNat * 6 + 1) 1 else p

namespace ArenaWorld

variable (s : ArenaWorld)

/-- `ObjectAccessor::FindPlayer`. -/
def findPlayer (guid : UInt32) : Option Player := (s.players guid).filter Player.inWorld

def setPlayer (guid : UInt32) (p : Player) : ArenaWorld :=
  { s with players := Function.update s.players guid (some p) }

/-- `Player::InArena`, of a connected player. -/
def isInArena (guid : UInt32) : Bool := (s.players guid).any Player.inArena

/-! ## The store of the teams -/

def getArenaTeamById (id : UInt32) : Except ArenaFault (Option ArenaTeam) :=
  if id ∈ s.freed then .error .freed else .ok (s.arenaTeamStore.lookup id)

/-- A team has the name, in any case. -/
def isNameTaken (name : String) : Bool :=
  s.arenaTeamStore.entries.any fun entry => entry.2.teamName.map Char.toUpper = name.map Char.toUpper

/-- Whether there is an `ArenaTeamMgr::GetArenaTeamByName`, which reads the names of the teams. -/
def getArenaTeamByName (name : String) : Except ArenaFault Bool :=
  if s.freed = [] then .ok (s.isNameTaken name) else .error .freed

/-- The team of the store is what it has become, or is added. -/
def write (t : ArenaTeam) : ArenaWorld :=
  { s with arenaTeamStore := s.arenaTeamStore.insert t.teamId t }

/-- The `delete` of a team. -/
def delete (id : UInt32) : ArenaWorld :=
  if id ∈ s.arenaTeamStore then { s with freed := id :: s.freed } else s

/-! ## Members -/

/-- `Player::GetArenaTeamIdFromCharacterInfo`, which takes a type for an index. -/
def getArenaTeamIdFromCharacterInfo (guid : UInt32) (type : UInt8) : Except ArenaFault UInt32 :=
  match s.cache.getCharacterCacheByGuid guid with
  | none => .ok 0
  | some e =>
    if h : type.toNat < maxArenaSlot then .ok e.arenaTeamId[type.toNat]
    else .error (.cache .outOfBounds)

/-- The check of `AddMember` for a similar team. -/
def hasSimilarTeam (t : ArenaTeam) (guid : UInt32) : Except ArenaFault Bool :=
  if (s.findPlayer guid).any fun p => p.getArenaTeamId t.getSlot ≠ 0 then .ok true
  else do
    let id ← s.getArenaTeamIdFromCharacterInfo guid t.type
    .ok (id ≠ 0)

def updateCharacterArenaTeamId (guid : UInt32) (slot : UInt8) (arenaTeamId : UInt32) :
    Except ArenaFault ArenaWorld := do
  let cache ← (s.cache.updateCharacterArenaTeamId guid slot arenaTeamId).mapError .cache
  .ok { s with cache }

/-- A new member is told, if it is online. -/
def inform (t : ArenaTeam) (guid : UInt32) : ArenaWorld :=
  match s.findPlayer guid with
  | none => s
  | some p => s.setPlayer guid (t.inform guid p)

def addMember (t : ArenaTeam) (guid : UInt32) : Except ArenaFault (Bool × ArenaWorld × ArenaTeam) :=
  if t.type.toNat * 2 ≤ t.members.length then .ok (false, s, t)
  else if (s.findPlayer guid).isNone && (s.cache.getCharacterCacheByGuid guid).isNone then
    .ok (false, s, t)
  else do
    if ← s.hasSimilarTeam t guid then .ok (false, s, t)
    else do
      let s ← s.updateCharacterArenaTeamId guid t.getSlot t.teamId
      .ok (true, s.inform t guid, { t with members := t.members ++ [guid] })

/-- The fields of a connected player that has left the team. -/
def uninform (t : ArenaTeam) (guid : UInt32) : ArenaWorld :=
  match s.players guid with
  | none => s
  | some p => s.setPlayer guid ((p.setInArenaTeam 0 t.getSlot).setArenaTeamInfo t.getSlot.toNat (.replicate 6 0))

def deleteMember (t : ArenaTeam) (guid : UInt32) : Except ArenaFault (ArenaWorld × ArenaTeam) :=
  if s.isInArena guid then .ok (s, t)
  else if guid ∈ t.members then do
    let s ← s.updateCharacterArenaTeamId guid t.getSlot 0
    .ok (s.uninform t guid, { t with members := t.members.erase guid })
  else .ok (s.uninform t guid, t)

/-- `ArenaTeam::Create`. The id is the next one. -/
def create (captainGuid : UInt32) (type : UInt8) (teamName : String) :
    Except ArenaFault (Option (ArenaWorld × ArenaTeam)) :=
  if (s.findPlayer captainGuid).isNone then .ok none
  else do
    if ← s.getArenaTeamByName teamName then .ok none
    else if 0xFFFFFFFE ≤ s.nextArenaTeamId then .error .stopped
    else do
      let t : ArenaTeam := ⟨s.nextArenaTeamId, type, teamName, captainGuid, []⟩
      let (_, s, t) ← { s with nextArenaTeamId := s.nextArenaTeamId + 1 }.addMember t captainGuid
      .ok (some (s, t))

/-- The loop of `Disband`, of as many rounds. -/
def removeMembers (rounds : ℕ) (t : ArenaTeam) : Except ArenaFault (ArenaWorld × ArenaTeam) :=
  drain (fun x : ArenaWorld × ArenaTeam => x.2.members.head?)
    (fun x member => x.1.deleteMember x.2 member) .endless rounds (s, t)

/-- `ArenaTeam::Disband`, by the player of a session or by none, and the team that it leaves. -/
def disbandBy (rounds : ℕ) (t : ArenaTeam) (session : Option UInt32) :
    Except ArenaFault (ArenaWorld × ArenaTeam) :=
  if session.any s.isInArena then .ok (s, t)
  else do
    let (s, t) ← s.removeMembers rounds t
    .ok ({ s with arenaTeamStore := s.arenaTeamStore.erase t.teamId }, t)

/-- `ArenaTeam::Disband`, by a player. Each round removes a member, or none does. -/
def disband (t : ArenaTeam) (guid : UInt32) : Except ArenaFault ArenaWorld :=
  (s.disbandBy t.members.length t (some guid)).map Prod.fst

/-- `ArenaTeam::IsFighting`. The map of a player in the world may be an arena. -/
def isFighting (t : ArenaTeam) (onArenaMap : UInt32 → Bool) : Bool :=
  t.members.any fun member => (s.findPlayer member).isSome && onArenaMap member

/-! ## Handlers -/

/-- `HandleArenaTeamInviteOpcode`, where the level, the faction and the ignore list allow it. -/
def handleArenaTeamInviteOpcode (guid id : UInt32) : Except ArenaFault ArenaWorld :=
  match s.findPlayer guid with
  | none => .ok s
  | some p => do
    match ← s.getArenaTeamById id with
    | none => .ok s
    | some t =>
      if p.getArenaTeamId t.getSlot ≠ 0 then .ok s
      else if p.arenaTeamIdInvited ≠ 0 then .ok s
      else if t.type.toNat * 2 ≤ t.members.length then .ok s
      else .ok (s.setPlayer guid { p with arenaTeamIdInvited := t.teamId })

/-- `HandleArenaTeamAcceptOpcode`, which takes a type for a slot. -/
def handleArenaTeamAcceptOpcode (guid : UInt32) (allied : Bool) : Except ArenaFault ArenaWorld :=
  match s.players guid with
  | none => .ok s
  | some p => do
    match ← s.getArenaTeamById p.arenaTeamIdInvited with
    | none => .ok s
    | some t =>
      if p.getArenaTeamId t.type ≠ 0 then .ok s
      else if !allied then .ok s
      else do
        let (_, s, t) ← s.addMember t guid
        .ok (s.write t)

def handleArenaTeamDeclineOpcode (guid : UInt32) : ArenaWorld :=
  match s.players guid with
  | none => s
  | some p => s.setPlayer guid { p with arenaTeamIdInvited := 0 }

/-- `HandleArenaTeamLeaveOpcode`. The player may be invited to a battleground. -/
def handleArenaTeamLeaveOpcode (guid id : UInt32) (invitedToBg : Bool) : Except ArenaFault ArenaWorld := do
  match ← s.getArenaTeamById id with
  | none => .ok s
  | some t =>
    if guid = t.captainGuid ∧ t.members.length > 1 then .ok s
    else if invitedToBg then .ok s
    else if guid = t.captainGuid then do
      let s ← s.disband t guid
      .ok (s.delete id)
    else do
      let (s, t) ← s.deleteMember t guid
      .ok (s.write t)

/-- `HandleArenaTeamDisbandOpcode`. A member may be in a fight. -/
def handleArenaTeamDisbandOpcode (guid id : UInt32) (invitedToBg fighting : Bool) :
    Except ArenaFault ArenaWorld := do
  match ← s.getArenaTeamById id with
  | none => .ok s
  | some t =>
    if t.captainGuid ≠ guid then .ok s
    else if invitedToBg then .ok s
    else if fighting then .ok s
    else do
      let s ← s.disband t guid
      .ok (s.delete id)

/-! ## Login -/

/-- `Player::_LoadArenaTeamInfo`. -/
def loadArenaTeamInfo (guid : UInt32) (p : Player) (rows : List ArenaTeamInfoRow) :
    Except ArenaFault Player :=
  rows.foldlM (fun p row => do
    match ← s.getArenaTeamById row.arenaTeamId with
    | none => .ok p
    | some t =>
      .ok <| p.setArenaTeamInfo t.getSlot.toNat
        #v[row.arenaTeamId, if t.captainGuid = guid then 0 else 1, row.playedWeek.toUInt32,
          row.playedSeason.toUInt32, 0, row.personalRating.toUInt32])
    { p with values := fun i => if i < 18 then 0 else p.values i }

/-- The check of the arena teams in `Player::LoadFromDB`. -/
def checkArenaTeams (guid : UInt32) (p : Player) : Except ArenaFault Player :=
  (List.range maxArenaSlot).foldlM (fun p slot =>
    if p.values (slot * 6) = 0 then .ok p
    else do
      match ← s.getArenaTeamById (p.values (slot * 6)) with
      | none => .ok (p.setArenaTeamInfo slot (.replicate 6 0))
      | some t =>
        .ok (if guid ∈ t.members then p else p.setArenaTeamInfo slot (.replicate 6 0))) p

/-- A character logs in: one that exists, and so has its entry in the cache. -/
def login (guid : UInt32) (rows : List ArenaTeamInfoRow) : Except ArenaFault ArenaWorld :=
  if (s.cache.getCharacterCacheByGuid guid).isNone then .ok s
  else do
    let p ← s.loadArenaTeamInfo guid ⟨false, false, fun _ => 0, 0⟩ rows
    let p ← s.checkArenaTeams guid p
    .ok (s.setPlayer guid p)

/-! ## Steps -/

inductive Op
  | create (captainGuid : UInt32) (type : UInt8) (teamName : String)
  | addMember (id guid : UInt32)
  | deleteMember (id guid : UInt32)
  | invite (guid id : UInt32)
  | accept (guid : UInt32) (allied : Bool)
  | decline (guid : UInt32)
  | leave (guid id : UInt32) (invitedToBg : Bool)
  | disband (guid id : UInt32) (invitedToBg fighting : Bool)
  | login (guid : UInt32) (rows : List ArenaTeamInfoRow)
  | logout (guid : UInt32)
  | setInWorld (guid : UInt32) (inWorld : Bool)
  | setInArena (guid : UInt32) (inArena : Bool)
  /-- A field behind those of the arena teams. -/
  | setValue (guid : UInt32) (index : ℕ) (value : UInt32)

/-- A connected player is changed. -/
def modifyPlayer (guid : UInt32) (f : Player → Player) : ArenaWorld :=
  { s with players := Function.update s.players guid ((s.players guid).map f) }

def step (s : ArenaWorld) : Op → Except ArenaFault ArenaWorld
  | .create captainGuid type teamName =>
    -- The caller has asked for the slot of the type.
    if maxArenaSlot ≤ (getSlotByType type).toNat then .ok s
    else do
      match ← s.create captainGuid type teamName with
      | none => .ok s
      | some (s, t) => .ok (s.write t)
  | .addMember id guid => do
    match ← s.getArenaTeamById id with
    | none => .ok s
    | some t =>
      let (_, s, t) ← s.addMember t guid
      .ok (s.write t)
  | .deleteMember id guid => do
    match ← s.getArenaTeamById id with
    | none => .ok s
    | some t =>
      let (s, t) ← s.deleteMember t guid
      .ok (s.write t)
  | .invite guid id => s.handleArenaTeamInviteOpcode guid id
  | .accept guid allied => s.handleArenaTeamAcceptOpcode guid allied
  | .decline guid => .ok (s.handleArenaTeamDeclineOpcode guid)
  | .leave guid id invitedToBg => s.handleArenaTeamLeaveOpcode guid id invitedToBg
  | .disband guid id invitedToBg fighting => s.handleArenaTeamDisbandOpcode guid id invitedToBg fighting
  | .login guid rows => s.login guid rows
  | .logout guid => .ok { s with players := Function.update s.players guid none }
  | .setInWorld guid inWorld => .ok (s.modifyPlayer guid fun p => { p with inWorld })
  | .setInArena guid inArena => .ok (s.modifyPlayer guid fun p => { p with inArena })
  | .setValue guid index value =>
    .ok (if index < 18 then s else s.modifyPlayer guid fun p => p.setUInt32Value index value)

/-- The server after its start, with the characters that exist. -/
def start (rows : List CharacterRow) : ArenaWorld :=
  ⟨CharacterCache.empty.loadCharacterCacheStorage rows, fun _ => none, ∅, [], 1⟩

end ArenaWorld

end Sunstrider.Battlegrounds
