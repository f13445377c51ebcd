import Mathlib.Algebra.Group.Nat.Defs
import Mathlib.Data.List.Sort
import Mathlib.Logic.Function.Basic

/-!
# Guild event logs

`Guild::LogHolder` with event log entries: the events that `Guild::_LogEvent` adds, the rows of
`guild_eventlog` that they are saved in, and the loading of these rows by `GuildMgr::LoadGuilds` after a
restart. All guilds share the table.

The type of an event and its players are stored and read as they are, so an event is only a number here.
The clock is `WorldGameTime::GetGameTime`, which does not run backwards. Rows of different guilds may tie
in the order of the query. `logged` is a record of the entries that were ever made.
-/

namespace Sunstrider.Guilds

def guildEventLogGuidUndefined : ℕ := 0xFFFFFFFF

/-- `EventLogEntry`, which is a row of the table too. -/
structure EventLogEntry where
  guildId : ℕ
  guid : ℕ
  timestamp : ℕ
  event : ℕ
  deriving DecidableEq, Repr

namespace EventLogEntry

/-- The entry that `LoadEventLogFromDB` makes of a row, which has the time as a `uint32`. -/
def reload (row : EventLogEntry) : EventLogEntry := { row with timestamp := row.timestamp % 2 ^ 32 }

/-- `ORDER BY TimeStamp DESC, LogGuid DESC`. -/
def Before (row row' : EventLogEntry) : Prop :=
  row'.timestamp < row.timestamp ∨ row'.timestamp = row.timestamp ∧ row'.guid ≤ row.guid

instance : DecidableRel Before := fun row row' =>
  inferInstanceAs (Decidable (row'.timestamp < row.timestamp ∨
    row'.timestamp = row.timestamp ∧ row'.guid ≤ row.guid))

def saveToDB (rows : List EventLogEntry) (e : EventLogEntry) : List EventLogEntry :=
  (rows.filter fun row => ¬ (row.guildId = e.guildId ∧ row.guid = e.guid)) ++ [e]

end EventLogEntry

structure LogHolder where
  log : List EventLogEntry
  maxRecords : ℕ
  nextGUID : ℕ
  deriving DecidableEq, Repr

namespace LogHolder

/-- `LogHolder(maxRecords)`. -/
def new (maxRecords : ℕ) : LogHolder := ⟨[], maxRecords, guildEventLogGuidUndefined⟩

variable (h : LogHolder)

def canInsert : Bool := h.log.length < h.maxRecords

def loadEvent (e : EventLogEntry) : LogHolder :=
  { h with
    nextGUID := if h.nextGUID = guildEventLogGuidUndefined then e.guid else h.nextGUID
    log := e :: h.log }

/-- `AddEvent`, without the row that it saves. -/
def addEvent (e : EventLogEntry) : LogHolder :=
  { h with log := (if h.maxRecords ≤ h.log.length then h.log.tail else h.log) ++ [e] }

def getNextGUID : LogHolder :=
  { h with nextGUID :=
      if h.nextGUID = guildEventLogGuidUndefined then 0 else (h.nextGUID + 1) % h.maxRecords }

def loadEventLogFromDB (row : EventLogEntry) : LogHolder :=
  if h.canInsert then h.loadEvent row.reload else h

end LogHolder

/-- The event logs of the guilds, and the table. -/
structure EventLogs where
  clock : ℕ
  holders : ℕ → LogHolder
  rows : List EventLogEntry
  logged : ℕ → List EventLogEntry

namespace EventLogs

-- `CONFIG_GUILD_EVENT_LOG_COUNT`
variable (maxRecords : ℕ)

def new : EventLogs := ⟨0, fun _ => LogHolder.new maxRecords, [], fun _ => []⟩

inductive Op
  /-- An event of a guild, some seconds after the last one of all guilds. -/
  | logEvent (guildId elapsed event : ℕ)
  | restart
  deriving DecidableEq

def logEvent (s : EventLogs) (guildId elapsed event : ℕ) : EventLogs :=
  let h := (s.holders guildId).getNextGUID
  let e : EventLogEntry := ⟨guildId, h.nextGUID, s.clock + elapsed, event⟩
  { clock := s.clock + elapsed
    holders := Function.update s.holders guildId (h.addEvent e)
    rows := e.saveToDB s.rows
    logged := Function.update s.logged guildId (s.logged guildId ++ [e]) }

/-- A row of the loop in `GuildMgr::LoadGuilds`. -/
def loadRow (holders : ℕ → LogHolder) (row : EventLogEntry) : ℕ → LogHolder :=
  Function.update holders row.guildId ((holders row.guildId).loadEventLogFromDB row)

/-- The event logs in `GuildMgr::LoadGuilds`. -/
def loadGuilds (s : EventLogs) : EventLogs :=
  let rows := s.rows.filter fun row => row.guid ≤ maxRecords
  { s with
    rows := rows
    holders := (rows.insertionSort EventLogEntry.Before).foldl loadRow
      fun _ => LogHolder.new maxRecords }

def step (s : EventLogs) : Op → EventLogs
  | .logEvent guildId elapsed event => s.logEvent guildId elapsed event
  | .restart => s.loadGuilds maxRecords

end EventLogs

end Sunstrider.Guilds
