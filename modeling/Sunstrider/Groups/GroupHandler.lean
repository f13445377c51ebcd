import Sunstrider.Groups.Group

/-!
# Packets about groups

`GroupHandler.cpp`, the joins and leaves of the raid of a battleground from `BattleGround.cpp`, and
login and logout. The checks of an invitation that do not depend on groups (factions, instances, game
masters, ignored players) only refuse packets, and so does a name that nobody has: a packet that they
refuse is no step. A name stands for the guid of its player.
-/

namespace Sunstrider.Groups

namespace World

def uninviteFromGroup (w : World) (guid : ℕ) : Except Fault World :=
  match (w.player guid).bind Player.groupInvite with
  | none => .ok w
  | some id => do
    let gr ← w.derefGroup id
    let w := w.removeInvite id guid
    if gr.isCreated then if gr.memberSlots.length ≤ 1 then w.disband id else .ok w
    else if (w.groups id).any fun gr => gr.invitees.length ≤ 1 then do
      let w ← w.removeAllInvites id
      .ok (w.deleteGroup id)
    else .ok w

/-! ## Invitations -/

/-- The start of a new group, which is not created until somebody joins. -/
def startGroup (w : World) (actor guid : ℕ) : Except Fault World :=
  let id := w.nextGroup
  let w := w.newGroup
  match w.addLeaderInvite id actor with
  | none => .ok (w.deleteGroup id)
  | some w =>
    match w.addInvite id guid with
    | none => do
      let w ← w.removeAllInvites id
      .ok (w.deleteGroup id)
    | some w => .ok w

def handleGroupInvite (w : World) (actor guid : ℕ) : Except Fault World :=
  match w.player actor, w.player guid with
  | some inviter, some player =>
    if guid = actor then .ok w
    else if (w.ownGroupOf player).isSome || player.groupInvite.isSome then .ok w
    else
      match w.ownGroupOf inviter with
      | none => w.startGroup actor guid
      | some id => do
        let gr ← w.derefGroup id
        if !gr.isLeader actor && !gr.isAssistant actor then .ok w
        else if gr.isFull then .ok w
        else .ok ((w.addInvite id guid).getD w)
  | _, _ => .ok w

def handleGroupAccept (w : World) (actor : ℕ) : Except Fault World :=
  match (w.player actor).bind Player.groupInvite with
  | none => .ok w
  | some id => do
    let gr ← w.derefGroup id
    if gr.isLeader actor then .ok w
    else
      let w := w.removeInvite id actor
      if gr.isFull then .ok w
      else if gr.isCreated then .ok ((w.addMember id actor).getD w)
      else
        match w.playerInWorld gr.leaderGuid with
        | none => w.removeAllInvites id
        | some _ => do
          let w ← (w.removeInvite id gr.leaderGuid).create id gr.leaderGuid
          .ok ((w.addMember id actor).getD w)

def handleGroupDecline (w : World) (actor : ℕ) : Except Fault World :=
  match (w.player actor).bind Player.groupInvite with
  | none => .ok w
  | some id => do
    let gr ← w.derefGroup id
    if (w.player gr.leaderGuid).isNone then .ok w
    else do
      let w ← if gr.isCreated then .ok w else do
        let w ← w.removeAllInvites id
        .ok (w.deleteGroup id)
      .ok (w.editPlayer actor fun pl => { pl with groupInvite := none })

/-- The members who may uninvite, as `CanUninviteFromGroup` has it, and their group. -/
def canUninviteFromGroup (w : World) (actor : ℕ) : Option ℕ :=
  (w.player actor).bind fun pl =>
    (w.groupOf pl).filter fun id =>
      (w.battleground actor).isNone &&
        (w.groups id).any fun gr => gr.isLeader actor || gr.isAssistant actor

/-- The end of both packets that uninvite: the invited player that is looked for. -/
def uninviteInvited (w : World) (id guid : ℕ) : Except Fault World := do
  let gr ← w.derefGroup id
  match ← w.getInvited guid gr.invitees with
  | none => .ok w
  | some guid => w.uninviteFromGroup guid

def handleGroupUninviteGuid (w : World) (actor guid : ℕ) : Except Fault World :=
  if guid = actor then .ok w
  else
    match w.canUninviteFromGroup actor with
    | none => .ok w
    | some id => do
      let gr ← w.derefGroup id
      if gr.isMember guid then w.removeMember id guid else w.uninviteInvited id guid

/-- `HandleGroupUninviteOpcode`, which spares the leader. -/
def handleGroupUninvite (w : World) (actor guid : ℕ) : Except Fault World :=
  if guid = actor then .ok w
  else
    match w.canUninviteFromGroup actor with
    | none => .ok w
    | some id => do
      let gr ← w.derefGroup id
      if gr.isMember guid then if gr.isLeader guid then .ok w else w.removeMember id guid
      else w.uninviteInvited id guid

/-! ## Members -/

/-- `HandleGroupDisbandOpcode`, with which a member leaves. -/
def handleGroupDisband (w : World) (actor : ℕ) : Except Fault World :=
  match (w.player actor).bind w.groupOf with
  | none => .ok w
  | some id => if (w.battleground actor).isSome then .ok w else w.removeMember id actor

def handleGroupSetLeader (w : World) (actor guid : ℕ) : World :=
  match (w.player actor).bind w.groupOf with
  | none => w
  | some id =>
    if (w.groups id).any (fun gr => gr.isLeader actor) ∧ (w.player guid).bind w.groupOf = some id then
      w.changeLeader id guid
    else w

def handleGroupRaidConvert (w : World) (actor : ℕ) : World :=
  match (w.player actor).bind w.groupOf with
  | none => w
  | some id =>
    if (w.battleground actor).isSome then w
    else if (w.groups id).any fun gr => gr.isLeader actor && 2 ≤ gr.memberSlots.length then
      w.editGroup id Group.convertToRaid
    else w

def handleGroupChangeSubGroup (w : World) (actor guid groupNr : ℕ) : World :=
  match (w.player actor).bind w.groupOf with
  | none => w
  | some id =>
    if maxRaidSubGroups ≤ groupNr then w
    else if (w.groups id).any fun gr => (gr.isLeader actor || gr.isAssistant actor) &&
        gr.hasFreeSlotSubGroup groupNr then
      w.changeMembersGroup id guid groupNr
    else w

def handleGroupAssistantLeader (w : World) (actor guid : ℕ) (apply : Bool) : World :=
  match (w.player actor).bind w.groupOf with
  | none => w
  | some id =>
    if (w.groups id).any fun gr => gr.isLeader actor then
      w.editGroup id fun gr => gr.setAssistant guid apply
    else w

/-! ## Battlegrounds -/

def addOrSetPlayerToCorrectBgGroup (w : World) (guid side : ℕ) : Except Fault World :=
  match w.bgRaid side with
  | none => ((w.newGroup).setBgRaid side w.nextGroup).create w.nextGroup guid
  | some id => do
    let gr ← w.derefGroup id
    if gr.isMember guid then
      .ok (w.editPlayer guid (w.setBattlegroundRaid id (gr.memberGroup guid)))
    else
      let w := (w.addMember id guid).getD w
      let original := ((w.player guid).bind w.originalGroupOf).bind w.groups
      .ok (if original.any fun gr => gr.isLeader guid then w.changeLeader id guid else w)

/-- `AddPlayer` of a battleground, for a connected player who is in none. -/
def joinBattleground (w : World) (guid side : ℕ) : Except Fault World :=
  if (w.player guid).isNone || (w.battleground guid).isSome then .ok w
  else
    { w with battleground := Function.update w.battleground guid (some side) }
      |>.addOrSetPlayerToCorrectBgGroup guid side

/-- `RemovePlayerAtLeave` of a battleground, for one of its players, connected or not. -/
def leaveBattleground (w : World) (guid : ℕ) : Except Fault World :=
  match w.battleground guid with
  | none => .ok w
  | some side => do
    let w ← match w.bgRaid side with
      | none => .ok w
      | some id => w.removeMember id guid
    .ok { w with battleground := Function.update w.battleground guid none }

/-! ## Login and logout -/

/-- `LogoutPlayer`: the references of the player go with his object. -/
def logout (w : World) (guid : ℕ) : Except Fault World := do
  let w ← w.uninviteFromGroup guid
  .ok { w with players := w.players.erase guid }

/-- A new player object, after `_LoadGroup`. -/
def login (w : World) (guid : ℕ) : World :=
  if (w.player guid).isSome then w
  else
    let loaded := (w.groupMember guid).bind fun id =>
      (w.groups id).map fun gr => ⟨id, gr.memberGroup guid⟩
    { w with
      players := w.players.insert guid ⟨w.nextSerial, none, loaded, none, true⟩
      nextSerial := w.nextSerial + 1 }

/-- A connected player leaves the world to change the map, or is back in it. -/
def setInWorld (w : World) (guid : ℕ) (isInWorld : Bool) : World :=
  w.editPlayer guid fun pl => { pl with isInWorld := isInWorld }

/-! ## Runs -/

inductive Op
  | invite (actor guid : ℕ)
  | accept (actor : ℕ)
  | decline (actor : ℕ)
  | uninviteGuid (actor guid : ℕ)
  | uninvite (actor guid : ℕ)
  | disband (actor : ℕ)
  | setLeader (actor guid : ℕ)
  | raidConvert (actor : ℕ)
  | changeSubGroup (actor guid groupNr : ℕ)
  | assistantLeader (actor guid : ℕ) (apply : Bool)
  | joinBattleground (guid side : ℕ)
  | leaveBattleground (guid : ℕ)
  | login (guid : ℕ)
  | logout (guid : ℕ)
  | setInWorld (guid : ℕ) (isInWorld : Bool)
  deriving DecidableEq

def step (w : World) : Op → Except Fault World
  | .invite actor guid => w.handleGroupInvite actor guid
  | .accept actor => w.handleGroupAccept actor
  | .decline actor => w.handleGroupDecline actor
  | .uninviteGuid actor guid => w.handleGroupUninviteGuid actor guid
  | .uninvite actor guid => w.handleGroupUninvite actor guid
  | .disband actor => w.handleGroupDisband actor
  | .setLeader actor guid => .ok (w.handleGroupSetLeader actor guid)
  | .raidConvert actor => .ok (w.handleGroupRaidConvert actor)
  | .changeSubGroup actor guid groupNr => .ok (w.handleGroupChangeSubGroup actor guid groupNr)
  | .assistantLeader actor guid apply => .ok (w.handleGroupAssistantLeader actor guid apply)
  | .joinBattleground guid side => w.joinBattleground guid side
  | .leaveBattleground guid => w.leaveBattleground guid
  | .login guid => .ok (w.login guid)
  | .logout guid => w.logout guid
  | .setInWorld guid isInWorld => .ok (w.setInWorld guid isInWorld)

end World

end Sunstrider.Groups
