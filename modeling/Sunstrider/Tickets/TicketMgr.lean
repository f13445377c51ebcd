import Sunstrider.Lib.Map

/-!
# GM tickets

`TicketMgr.cpp`: the list of the tickets with the number of open ones, and the rows of `gm_ticket` that the
tickets are saved to and loaded from.

A position is kept as the words of its floats. Left out: what is sent to the players and written for the GMs,
the surveys, and the fields of a ticket that are never saved.
-/

namespace Sunstrider.Tickets

/-! ## Guids -/

/-- `ObjectGuid::HasEntry`: the kinds of guids that have no entry are listed. -/
def hasEntry (guid : UInt64) : Bool :=
  !(([0x4000, 0x0000, 0xF100, 0xF101, 0x1FC0, 0x1F40, 0x1F50] : List UInt64).contains (guid >>> 48))

/-- `ObjectGuid::GetCounter`. -/
def getCounter (guid : UInt64) : UInt32 :=
  if hasEntry guid then (guid &&& 0xFFFFFF).toUInt32 else (guid &&& 0xFFFFFFFF).toUInt32

/-- `ObjectGuid(HighGuid::Player, counter)`: the high word of a player is 0. -/
def playerGuid (counter : UInt32) : UInt64 := counter.toUInt64

/-! ## Tickets -/

/-- `TicketType`, as the column has it. -/
abbrev TicketType := UInt8

def ticketTypeOpen : TicketType := 0

def ticketTypeClosed : TicketType := 1

structure GmTicket where
  id : UInt32
  type : TicketType
  playerGuid : UInt64
  playerName : String
  message : String
  createTime : UInt64
  mapId : UInt16
  posX : UInt32
  posY : UInt32
  posZ : UInt32
  lastModifiedTime : UInt64
  /-- 0 for the console. -/
  closedBy : UInt64
  closedTime : UInt64
  /-- 0 for the console. -/
  resolvedBy : UInt64
  assignedTo : UInt64
  comment : String
  response : String
  completed : Bool
  escalatedStatus : UInt8
  viewed : Bool
  needMoreHelp : Bool
  deriving DecidableEq

/-- A row of `gm_ticket`, whose key is the id of the ticket. -/
structure TicketRow where
  type : UInt8
  playerGuid : UInt32
  name : String
  description : String
  createTime : UInt32
  mapId : UInt16
  posX : UInt32
  posY : UInt32
  posZ : UInt32
  lastModifiedTime : UInt32
  closedBy : Int32
  closedTime : UInt32
  assignedTo : UInt32
  comment : String
  response : String
  completed : UInt8
  escalated : UInt8
  viewed : UInt8
  needMoreHelp : UInt8
  resolvedBy : Int32
  deriving DecidableEq

/-- `PreparedStatement::setBool`. -/
def setBool (b : Bool) : UInt8 := if b then 1 else 0

/-- `Field::GetBool`. -/
def getBool (field : UInt8) : Bool := field == 1

/-- `GmTicket::LoadFromDB`, into a new ticket. -/
def TicketRow.loadFromDB (row : TicketRow) (id : UInt32) : GmTicket where
  id := id
  type := row.type
  playerGuid := Tickets.playerGuid row.playerGuid
  playerName := row.name
  message := row.description
  createTime := row.createTime.toUInt64
  mapId := row.mapId
  posX := row.posX
  posY := row.posY
  posZ := row.posZ
  lastModifiedTime := row.lastModifiedTime.toUInt64
  closedBy := row.closedBy.toInt64.toUInt64
  closedTime := row.closedTime.toUInt64
  -- the query does not ask for it
  resolvedBy := 0
  assignedTo := Tickets.playerGuid row.assignedTo
  comment := row.comment
  response := row.response
  completed := getBool row.completed
  escalatedStatus := row.escalated
  viewed := getBool row.viewed
  needMoreHelp := getBool row.needMoreHelp

namespace GmTicket

variable (t : GmTicket)

def isClosed : Bool := t.type != ticketTypeOpen

/-- `GmTicket::SaveToDB`: the row that it writes. -/
def saveToDB : TicketRow where
  type := t.type
  playerGuid := getCounter t.playerGuid
  name := t.playerName
  description := t.message
  createTime := t.createTime.toUInt32
  mapId := t.mapId
  posX := t.posX
  posY := t.posY
  posZ := t.posZ
  lastModifiedTime := t.lastModifiedTime.toUInt32
  closedBy := (getCounter t.closedBy).toInt32
  closedTime := t.closedTime.toUInt32
  assignedTo := getCounter t.assignedTo
  comment := t.comment
  response := t.response
  completed := setBool t.completed
  escalated := t.escalatedStatus
  viewed := setBool t.viewed
  needMoreHelp := setBool t.needMoreHelp
  resolvedBy := (getCounter t.resolvedBy).toInt32

/-- `GmTicket::SetClosedBy`, at a game time. -/
def setClosedBy (value now : UInt64) : GmTicket :=
  { t with closedBy := value, type := ticketTypeClosed, closedTime := now }

def setResolvedBy (value : UInt64) : GmTicket := { t with resolvedBy := value }

end GmTicket

/-! ## The manager -/

structure TicketMgr where
  ticketList : AList fun _ : UInt32 => GmTicket
  lastTicketId : UInt32
  openTicketCount : UInt32
  /-- The rows of `gm_ticket`. -/
  gmTicket : AList fun _ : UInt32 => TicketRow

namespace TicketMgr

variable (m : TicketMgr)

/-- A ticket of the list, or a new one, is saved. -/
def write (t : GmTicket) : TicketMgr :=
  { m with ticketList := m.ticketList.insert t.id t, gmTicket := m.gmTicket.insert t.id t.saveToDB }

def addTicket (t : GmTicket) : TicketMgr :=
  { m.write t with openTicketCount := if t.isClosed then m.openTicketCount else m.openTicketCount + 1 }

/-- A ticket is saved as closed. Only somebody who closes it is counted. -/
def close (t : GmTicket) (source : UInt64) : TicketMgr :=
  { m.write t with openTicketCount := if source ≠ 0 then m.openTicketCount - 1 else m.openTicketCount }

def closeTicket (ticketId : UInt32) (source now : UInt64) : TicketMgr :=
  match m.ticketList.lookup ticketId with
  | none => m
  | some t => m.close (t.setClosedBy source now) source

def resolveAndCloseTicket (ticketId : UInt32) (source now : UInt64) : TicketMgr :=
  match m.ticketList.lookup ticketId with
  | none => m
  | some t => m.close ((t.setClosedBy source now).setResolvedBy source) source

/-- `RemoveTicket`, whose ticket is the one with the id. -/
def removeTicket (ticketId : UInt32) : TicketMgr :=
  match m.ticketList.lookup ticketId with
  | none => m
  | some t =>
    { m with ticketList := m.ticketList.erase ticketId, gmTicket := m.gmTicket.erase t.id }

/-- `ResetTickets`. The table that it empties is `gm_tickets`, which is not that of the tickets. -/
def resetTickets : TicketMgr :=
  { m.ticketList.entries.foldl (fun m e => if e.2.isClosed then m.removeTicket e.2.id else m) m with
    lastTicketId := 0 }

/-- A row is loaded. -/
def loadTicket (id : UInt32) (row : TicketRow) : TicketMgr :=
  let t := row.loadFromDB id
  { m with
    ticketList := m.ticketList.insert t.id t
    lastTicketId := if m.lastTicketId < t.id then t.id else m.lastTicketId
    openTicketCount := if t.isClosed then m.openTicketCount else m.openTicketCount + 1 }

def loadTickets : TicketMgr :=
  m.gmTicket.entries.foldl (fun m e => m.loadTicket e.1 e.2)
    { m with ticketList := ∅, lastTicketId := 0, openTicketCount := 0 }

inductive Op
  | addTicket (t : GmTicket)
  | closeTicket (ticketId : UInt32) (source now : UInt64)
  | resolveAndCloseTicket (ticketId : UInt32) (source now : UInt64)
  | removeTicket (ticketId : UInt32)
  | resetTickets
  | loadTickets

def step (m : TicketMgr) : Op → TicketMgr
  | .addTicket t => m.addTicket t
  | .closeTicket ticketId source now => m.closeTicket ticketId source now
  | .resolveAndCloseTicket ticketId source now => m.resolveAndCloseTicket ticketId source now
  | .removeTicket ticketId => m.removeTicket ticketId
  | .resetTickets => m.resetTickets
  | .loadTickets => m.loadTickets

/-- The manager before it has loaded anything. -/
def start (gmTicket : AList fun _ : UInt32 => TicketRow) : TicketMgr := ⟨∅, 0, 0, gmTicket⟩

end TicketMgr

end Sunstrider.Tickets
