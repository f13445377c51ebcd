import Sunstrider.Groups.Roll
import Sunstrider.Lib.Map

/-!
# Groups and their members

`Group.cpp`, with what it calls of `Player.cpp`, on a world of player objects and group objects. A
player object lives from login to logout. It is told apart from the next object of the same player by
its serial number, and a pointer in `m_invitees` is that pair. A group is known by its address, which
is never used again.

`GetGroup` and `GetOriginalGroup` go through references that the destructor of a group clears, so a
reference to a group that is gone reads as null. `GetGroupInvite` and the entries of `m_invitees` are
plain pointers: to follow one to an object that is gone is a fault.

A member is linked in `m_memberMgr` by the reference of his player object, so the size of
`m_memberMgr` is the number of references to the group. Left out: instances, looting apart from the
rolls, the flags of main assistants and main tanks, testing bots, and packets.
-/

namespace Sunstrider.Groups

open Lib (incU8 decU8)

def maxRaidSubGroups : ℕ := 8

inductive Fault
  /-- A pointer to a player object that was deleted. -/
  | deadPlayer
  /-- A pointer to a group that was deleted. -/
  | deadGroup
  /-- The `ASSERT` in `Create`. -/
  | assertion
  deriving DecidableEq

structure GroupReference where
  target : ℕ
  subGroup : ℕ
  deriving DecidableEq

structure Player where
  /-- Which of the objects of the player this is. -/
  serial : ℕ
  groupInvite : Option ℕ
  /-- `m_group`. -/
  group : Option GroupReference
  originalGroup : Option GroupReference
  isInWorld : Bool
  deriving DecidableEq

structure MemberSlot where
  guid : ℕ
  group : ℕ
  isAssistant : Bool
  deriving DecidableEq

structure Group where
  memberSlots : List MemberSlot
  invitees : List (ℕ × ℕ)
  leaderGuid : ℕ
  isRaidGroup : Bool
  /-- The side of a battleground that the group is the raid of. -/
  bgGroup : Option ℕ
  /-- `m_subGroupsCounts`, which a group has from its conversion on. -/
  subGroupsCounts : Option (ℕ → ℕ)
  rolls : Rolls

namespace Group

/-- `Group()`. -/
def new : Group := ⟨[], [], 0, false, none, none, Rolls.noRolls⟩

def isBGGroup (gr : Group) : Bool := gr.bgGroup.isSome

def isCreated (gr : Group) : Bool := 0 < gr.memberSlots.length

def isFull (gr : Group) : Bool :=
  if gr.isRaidGroup then maxRaidSize ≤ gr.memberSlots.length
  else maxGroupSize ≤ gr.memberSlots.length

def isLeader (gr : Group) (guid : ℕ) : Bool := gr.leaderGuid = guid

/-- `_getMemberSlot`. -/
def slotOf (gr : Group) (guid : ℕ) : Option MemberSlot := gr.memberSlots.find? fun m => m.guid = guid

def isMember (gr : Group) (guid : ℕ) : Bool := (gr.slotOf guid).isSome

def isAssistant (gr : Group) (guid : ℕ) : Bool := (gr.slotOf guid).any MemberSlot.isAssistant

/-- `GetMemberGroup`. -/
def memberGroup (gr : Group) (guid : ℕ) : ℕ :=
  ((gr.slotOf guid).map MemberSlot.group).getD (maxRaidSubGroups + 1)

def subGroupCounterIncrease (gr : Group) (subGroup : ℕ) : Group :=
  { gr with
    subGroupsCounts :=
      gr.subGroupsCounts.map fun c => Function.update c subGroup (incU8 (c subGroup)) }

def subGroupCounterDecrease (gr : Group) (subGroup : ℕ) : Group :=
  { gr with
    subGroupsCounts :=
      gr.subGroupsCounts.map fun c => Function.update c subGroup (decU8 (c subGroup)) }

def initRaidSubGroupsCounter (gr : Group) : Group :=
  { gr with
    subGroupsCounts :=
      some (gr.memberSlots.foldl (fun c m => Function.update c m.group (incU8 (c m.group)))
        fun _ => 0) }

/-- The group's side of `Create`. -/
def createdBy (gr : Group) (guid : ℕ) : Group :=
  let led := { gr with leaderGuid := guid, isRaidGroup := gr.isBGGroup }
  if gr.isBGGroup then led.initRaidSubGroupsCounter else led

def hasFreeSlotSubGroup (gr : Group) (subGroup : ℕ) : Bool :=
  gr.subGroupsCounts.any fun c => c subGroup < maxGroupSize

/-- "Get first not-full group", of `AddMember`. -/
def freeSubGroup (gr : Group) : Option ℕ :=
  match gr.subGroupsCounts with
  | none => some 0
  | some c => (List.range maxRaidSubGroups).find? fun i => c i < maxGroupSize

/-- The slot of a new member. -/
def pushSlot (gr : Group) (guid subGroup : ℕ) : Group :=
  let gr := { gr with memberSlots := gr.memberSlots ++ [MemberSlot.mk guid subGroup false] }
  gr.subGroupCounterIncrease subGroup

/-- The slot of a member who leaves. -/
def eraseSlot (gr : Group) (guid : ℕ) : Group :=
  match gr.slotOf guid with
  | none => gr
  | some slot =>
    { gr.subGroupCounterDecrease slot.group with
      memberSlots := gr.memberSlots.eraseP fun m => m.guid = guid }

/-- One slot is changed in its place. -/
def editSlot (gr : Group) (guid : ℕ) (f : MemberSlot → MemberSlot) : Group :=
  { gr with memberSlots := gr.memberSlots.map fun m => if m.guid = guid then f m else m }

def convertToRaid (gr : Group) : Group := { gr with isRaidGroup := true }.initRaidSubGroupsCounter

/-- `SetGroupMemberFlag`, for the flag of an assistant. -/
def setAssistant (gr : Group) (guid : ℕ) (apply : Bool) : Group :=
  if gr.isRaidGroup then gr.editSlot guid fun m => { m with isAssistant := apply } else gr

end Group

structure World where
  /-- The players who are connected. -/
  players : AList fun _ : ℕ => Player
  groups : ℕ → Option Group
  /-- The next address of a group, and the next serial number of a player object. -/
  nextGroup : ℕ
  nextSerial : ℕ
  /-- The table `group_member`, whose key is the member. -/
  groupMember : ℕ → Option ℕ
  /-- `GetBgRaid`, of each side of each battleground. -/
  bgRaid : ℕ → Option ℕ
  /-- The side of a battleground whose player somebody is, connected or not. -/
  battleground : ℕ → Option ℕ

namespace World

/-- A world without groups in which nobody is connected. -/
def empty : World := ⟨∅, fun _ => none, 0, 0, fun _ => none, fun _ => none, fun _ => none⟩

/-! ## Pointers and references -/

/-- `FindConnectedPlayer`. -/
def player (w : World) (guid : ℕ) : Option Player := w.players.lookup guid

/-- `FindPlayer`. -/
def playerInWorld (w : World) (guid : ℕ) : Option Player := (w.player guid).filter Player.isInWorld

def editPlayer (w : World) (guid : ℕ) (f : Player → Player) : World :=
  match w.player guid with
  | none => w
  | some pl => { w with players := w.players.insert guid (f pl) }

def editGroup (w : World) (id : ℕ) (f : Group → Group) : World :=
  { w with groups := Function.update w.groups id ((w.groups id).map f) }

/-- What a plain pointer to a group points to. -/
def derefGroup (w : World) (id : ℕ) : Except Fault Group :=
  match w.groups id with
  | none => .error .deadGroup
  | some gr => .ok gr

/-- A pointer to a player object can be followed. -/
def derefPlayer (w : World) (invitee : ℕ × ℕ) : Except Fault Player :=
  match w.player invitee.1 with
  | none => .error .deadPlayer
  | some pl => if pl.serial = invitee.2 then .ok pl else .error .deadPlayer

/-- A reference, which is null once its group is gone. -/
def live (w : World) (ref : Option GroupReference) : Option GroupReference :=
  ref.filter fun r => (w.groups r.target).isSome

/-- `GetGroup`. -/
def groupOf (w : World) (pl : Player) : Option ℕ := (w.live pl.group).map GroupReference.target

/-- `GetOriginalGroup`. -/
def originalGroupOf (w : World) (pl : Player) : Option ℕ :=
  (w.live pl.originalGroup).map GroupReference.target

def isBGGroup (w : World) (id : ℕ) : Bool := (w.groups id).any Group.isBGGroup

/-- The group of a player, or his original group where that is the raid of a battleground. -/
def ownGroupOf (w : World) (pl : Player) : Option ℕ :=
  match w.groupOf pl with
  | none => none
  | some id => if w.isBGGroup id then w.originalGroupOf pl else some id

/-- `m_memberMgr.getSize()`. -/
def memberMgrSize (w : World) (id : ℕ) : ℕ :=
  (w.players.entries.countP fun e => e.2.group.any fun r => r.target = id) +
    w.players.entries.countP fun e => e.2.originalGroup.any fun r => r.target = id

/-! ## Invitations -/

def removeInvite (w : World) (id guid : ℕ) : World :=
  match w.player guid with
  | none => w
  | some pl =>
    (w.editGroup id fun gr => { gr with invitees := gr.invitees.erase (guid, pl.serial) }).editPlayer
      guid fun pl => { pl with groupInvite := none }

/-- `AddInvite`, which answers nothing where it answers false. -/
def addInvite (w : World) (id guid : ℕ) : Option World :=
  match w.player guid with
  | none => none
  | some pl =>
    if pl.groupInvite.isSome then none
    else if (w.ownGroupOf pl).isSome then none
    else
      some (((w.removeInvite id guid).editGroup id fun gr =>
        { gr with invitees := (guid, pl.serial) :: gr.invitees }).editPlayer guid fun pl =>
          { pl with groupInvite := some id })

def addLeaderInvite (w : World) (id guid : ℕ) : Option World :=
  (w.addInvite id guid).map fun w => w.editGroup id fun gr => { gr with leaderGuid := guid }

/-- The loop of `RemoveAllInvites`, which follows the pointer to every invitee. -/
def uninvite (w : World) (invitee : ℕ × ℕ) : Except Fault World := do
  let _ ← w.derefPlayer invitee
  .ok (w.editPlayer invitee.1 fun pl => { pl with groupInvite := none })

def removeAllInvites (w : World) (id : ℕ) : Except Fault World := do
  let gr ← w.derefGroup id
  let w ← gr.invitees.foldlM uninvite w
  .ok (w.editGroup id fun gr => { gr with invitees := [] })

/-- `GetInvited`, which follows the pointers up to the one that it looks for. -/
def getInvited (w : World) (guid : ℕ) : List (ℕ × ℕ) → Except Fault (Option ℕ)
  | [] => .ok none
  | invitee :: invitees => do
    let _ ← w.derefPlayer invitee
    if invitee.1 = guid then .ok (some guid) else w.getInvited guid invitees

/-! ## Joining -/

/-- `new Group`. -/
def newGroup (w : World) : World :=
  { w with
    groups := Function.update w.groups w.nextGroup (some Group.new)
    nextGroup := w.nextGroup + 1 }

/-- `delete group`. The destructor tells the battleground. -/
def deleteGroup (w : World) (id : ℕ) : World :=
  { w with
    groups := Function.update w.groups id none
    bgRaid := fun side => if w.isBGGroup id ∧ w.bgRaid side = some id then none else w.bgRaid side }

def setBgRaid (w : World) (side id : ℕ) : World :=
  { w.editGroup id fun gr => { gr with bgGroup := some side } with
    bgRaid := Function.update w.bgRaid side (some id) }

def setBattlegroundRaid (w : World) (id subGroup : ℕ) (pl : Player) : Player :=
  { pl with
    originalGroup := w.live pl.group
    group := some ⟨id, subGroup⟩ }

def removeFromBattlegroundRaid (w : World) (pl : Player) : Player :=
  { pl with
    group := w.live pl.originalGroup
    originalGroup := none }

/-- The player's side of `AddMember`. -/
def joinedBy (w : World) (id subGroup : ℕ) (isBG : Bool) (pl : Player) : Player :=
  let pl := { pl with groupInvite := none }
  if (w.groupOf pl).isSome then
    if isBG then w.setBattlegroundRaid id subGroup pl
    else { pl with originalGroup := some ⟨id, subGroup⟩ }
  else { pl with group := some ⟨id, subGroup⟩ }

/-- The `INSERT` of a member, which fails where the member has a row. -/
def insertRow (w : World) (id guid : ℕ) : World :=
  match w.groupMember guid with
  | none => { w with groupMember := Function.update w.groupMember guid (some id) }
  | some _ => w

/-- `AddMember`, once a subgroup is found. -/
def addToSubGroup (w : World) (id guid subGroup : ℕ) (isBG : Bool) : World :=
  let w := (w.editGroup id fun gr => gr.pushSlot guid subGroup).editPlayer guid
    (w.joinedBy id subGroup isBG)
  if isBG then w else w.insertRow id guid

/-- `AddMember`, which answers nothing where it answers false. -/
def addMember (w : World) (id guid : ℕ) : Option World :=
  match w.groups id with
  | none => none
  | some gr => gr.freeSubGroup.map fun subGroup => w.addToSubGroup id guid subGroup gr.isBGGroup

def create (w : World) (id guid : ℕ) : Except Fault World :=
  let w := w.editGroup id fun gr => gr.createdBy guid
  match w.addMember id guid with
  | some w => .ok w
  | none => if w.isBGGroup id then .ok w else .error .assertion

/-! ## Leaving -/

/-- The player's side of leaving, in `RemoveMember` and `Disband`. -/
def leftBy (w : World) (id : ℕ) (isBG : Bool) (pl : Player) : Player :=
  if isBG then w.removeFromBattlegroundRaid pl
  else if w.originalGroupOf pl = some id then { pl with originalGroup := none }
  else { pl with group := none }

/-- `DelinkMember`. -/
def delinked (id : ℕ) (pl : Player) : Player :=
  if pl.group.any fun r => r.target = id then { pl with group := none }
  else if pl.originalGroup.any fun r => r.target = id then { pl with originalGroup := none }
  else pl

def changeLeader (w : World) (id guid : ℕ) : World :=
  if (w.player guid).isSome then
    w.editGroup id fun gr =>
      if gr.isMember guid then
        { gr with leaderGuid := guid }.editSlot guid fun m => { m with isAssistant := false }
      else gr
  else w

/-- "Pick new leader if necessary", of `RemoveMember`. -/
def pickLeader (w : World) (id guid : ℕ) : World :=
  match w.groups id with
  | none => w
  | some gr =>
    if gr.isLeader guid then
      match gr.memberSlots.find? fun m => (w.player m.guid).isSome with
      | none => w
      | some m => w.changeLeader id m.guid
    else w

def disband (w : World) (id : ℕ) : Except Fault World := do
  let gr ← w.derefGroup id
  let w := gr.memberSlots.foldl (fun w m => w.editPlayer m.guid (w.leftBy id gr.isBGGroup)) w
  let w := w.editGroup id fun gr => { gr with memberSlots := [] }
  let w ← w.removeAllInvites id
  let w := if gr.isBGGroup then w else
    { w with
      groupMember := fun guid => if w.groupMember guid = some id then none else w.groupMember guid }
  .ok (w.deleteGroup id)

/-- `RemoveMember`, up to the question whether enough members are left. -/
def withoutMember (w : World) (id guid : ℕ) (isBG : Bool) : World :=
  let w := w.editPlayer guid (w.leftBy id isBG)
  let w := if isBG then w else
    { w with groupMember := Function.update w.groupMember guid none }.editPlayer guid (delinked id)
  (w.editGroup id fun gr =>
    { gr.eraseSlot guid with rolls := gr.rolls.removeMember guid }).pickLeader id guid

def removeMember (w : World) (id guid : ℕ) : Except Fault World := do
  let gr ← w.derefGroup id
  if (if gr.isBGGroup then 1 else 2) < gr.memberSlots.length then
    let w := w.withoutMember id guid gr.isBGGroup
    if w.memberMgrSize id < if gr.isBGGroup then 1 else 2 then w.disband id else .ok w
  else w.disband id

def changeMembersGroup (w : World) (id guid subGroup : ℕ) : World :=
  match w.groups id with
  | none => w
  | some gr =>
    if !gr.isRaidGroup || !gr.isMember guid || gr.memberGroup guid = subGroup then w
    else
      let prevSubGroup := gr.memberGroup guid
      let w := w.editGroup id fun gr =>
        ((gr.editSlot guid fun m => { m with group := subGroup }).subGroupCounterIncrease
          subGroup).subGroupCounterDecrease prevSubGroup
      w.editPlayer guid fun pl =>
        if w.groupOf pl = some id then
          { pl with group := pl.group.map fun r => { r with subGroup := subGroup } }
        else
          { pl with originalGroup := pl.originalGroup.map fun r => { r with subGroup := subGroup } }

end World

end Sunstrider.Groups
