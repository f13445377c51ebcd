import Mathlib.Algebra.GroupWithZero.Nat
import Mathlib.Logic.Function.Basic
import Sunstrider.Lib.Multimap
import Sunstrider.Lib.Run

/-!
# Saved instances and their resets

`InstanceSaveMgr.cpp`, with what it calls of `Player.cpp` and `Group.cpp`. A save is an object with an
address; the table of the manager, the binds of players and the binds of groups point to it, and it
lists who is bound to it. The table is kept in the order in which an iterator walks over it, and an
iterator is a position. The queue of resets and the reset times at the start of the server follow.

Left out: the statements that go to the database, the maps of the instances, which a reset only marks,
and the warnings that players get.
-/

namespace Sunstrider.Instances

inductive Fault
  /-- A pointer to a save that was deleted. -/
  | deadSave
  /-- An iterator that points to nothing. -/
  | deadIterator
  /-- The `ASSERT` of `~InstanceSave`. -/
  | bound
  /-- The `ASSERT` of `_ResetSave`: the bind of a player in the list of a save goes to another save. -/
  | otherSave
  /-- The `ASSERT` of `SetResetTimeFor`. -/
  | noResetTime
  /-- A loop that does not come to its end. -/
  | endless
  deriving DecidableEq

structure InstanceSave where
  instanceId : ℕ
  mapId : ℕ
  difficulty : ℕ
  playerList : List ℕ
  groupList : List ℕ
  toDelete : Bool
  deriving DecidableEq

/-- `InstancePlayerBind` and `InstanceGroupBind`. -/
structure InstanceBind where
  save : ℕ
  perm : Bool
  deriving DecidableEq

structure InstResetEvent where
  type : ℕ
  mapId : ℕ
  difficulty : ℕ
  instanceId : ℕ
  deriving DecidableEq

/-- The stores and settings that a reset reads. -/
structure Stores where
  /-- `MapEntry::Instanceable`. -/
  instanceable : ℕ → Bool
  /-- The `resetTime` of the `MapDifficulty` of a map and a difficulty. -/
  mapDifficulty : ℕ → ℕ → Option ℕ
  /-- A reset time with the rate of the settings. -/
  rated : ℕ → ℕ
  instanceResetTimeHour : ℕ
  /-- There is a map of that instance of a map, and it has players. -/
  havePlayers : ℕ → ℕ → Bool

def minute : ℕ := 60

def hour : ℕ := 3600

def day : ℕ := 86400

namespace Stores

/-- The difficulty that `GetDownscaledMapDifficultyData` finds data for. -/
def downscaledDifficulty (st : Stores) (mapId difficulty : ℕ) : Option ℕ :=
  if (st.mapDifficulty mapId difficulty).isSome then some difficulty
  else if 0 < difficulty ∧ (st.mapDifficulty mapId (difficulty - 1)).isSome then
    some (difficulty - 1)
  else none

/-- `GetSubsequentResetTime`. -/
def subsequentResetTime (st : Stores) (mapId difficulty resetTime : ℕ) : ℕ :=
  match st.mapDifficulty mapId difficulty with
  | none => 0
  | some mapDiff =>
    if mapDiff = 0 then 0
    else
      let diff := st.instanceResetTimeHour * hour
      let period := if st.rated mapDiff < day then day else st.rated mapDiff
      (resetTime + minute) / day * day + period + diff

end Stores

structure Manager where
  /-- The saves that are not deleted. -/
  saves : ℕ → Option InstanceSave
  instanceSaveById : List (ℕ × ℕ)
  /-- `m_boundInstances` of a player: difficulty first, then map. -/
  playerBinds : ℕ → ℕ → ℕ → Option InstanceBind
  groupBinds : ℕ → ℕ → ℕ → Option InstanceBind
  lockInstLists : Bool
  resetTimeByMapDifficulty : ℕ → ℕ → Option ℕ
  resetTimeQueue : List (ℕ × InstResetEvent)

namespace Manager

def empty : Manager :=
  ⟨fun _ => none, [], fun _ _ _ => none, fun _ _ _ => none, false, fun _ _ => none, []⟩

def derefSave (m : Manager) (a : ℕ) : Except Fault InstanceSave :=
  match m.saves a with
  | none => .error .deadSave
  | some save => .ok save

def editSave (m : Manager) (a : ℕ) (f : InstanceSave → InstanceSave) : Manager :=
  { m with saves := Function.update m.saves a ((m.saves a).map f) }

/-- `delete save`. -/
def deleteSave (m : Manager) (a : ℕ) : Except Fault Manager := do
  let save ← m.derefSave a
  if save.playerList.isEmpty && save.groupList.isEmpty then
    .ok { m with saves := Function.update m.saves a none }
  else .error .bound

def removeInstanceSave (m : Manager) (instanceId : ℕ) : Manager :=
  match m.instanceSaveById.find? fun e => e.1 = instanceId with
  | none => m
  | some e =>
    { m.editSave e.2 fun save => { save with toDelete := true } with
      instanceSaveById := m.instanceSaveById.eraseP fun e => e.1 = instanceId }

def unloadIfEmpty (st : Stores) (m : Manager) (a : ℕ) : Except Fault Manager := do
  let save ← m.derefSave a
  if save.playerList.isEmpty && save.groupList.isEmpty &&
      !st.havePlayers save.mapId save.instanceId && !m.lockInstLists then
    .ok (m.removeInstanceSave save.instanceId)
  else .ok m

/-- The end of `RemovePlayer` and of `RemoveGroup`. -/
def unloadRemoved (st : Stores) (m : Manager) (a : ℕ) : Except Fault Manager := do
  let m ← m.unloadIfEmpty st a
  let save ← m.derefSave a
  if save.toDelete then m.deleteSave a else .ok m

def removePlayer (st : Stores) (m : Manager) (a player : ℕ) : Except Fault Manager := do
  let _ ← m.derefSave a
  (m.editSave a fun save =>
    { save with playerList := save.playerList.filter (· ≠ player) }).unloadRemoved st a

def removeGroup (st : Stores) (m : Manager) (a group : ℕ) : Except Fault Manager := do
  let _ ← m.derefSave a
  (m.editSave a fun save =>
    { save with groupList := save.groupList.filter (· ≠ group) }).unloadRemoved st a

/-- One entry of somebody's `m_boundInstances` is written. -/
def setBind (binds : ℕ → ℕ → ℕ → Option InstanceBind) (who difficulty mapId : ℕ)
    (bind : Option InstanceBind) : ℕ → ℕ → ℕ → Option InstanceBind :=
  fun who' difficulty' mapId' =>
    if who' = who ∧ difficulty' = difficulty ∧ mapId' = mapId then bind
    else binds who' difficulty' mapId'

/-- `Player::UnbindInstance`. -/
def unbindPlayer (st : Stores) (m : Manager) (player mapId difficulty : ℕ) :
    Except Fault Manager :=
  match m.playerBinds player difficulty mapId with
  | none => .ok m
  | some bind => do
    let m ← m.removePlayer st bind.save player
    .ok { m with playerBinds := setBind m.playerBinds player difficulty mapId none }

/-- `Group::UnbindInstance`. -/
def unbindGroup (st : Stores) (m : Manager) (group mapId difficulty : ℕ) : Except Fault Manager :=
  match m.groupBinds group difficulty mapId with
  | none => .ok m
  | some bind => do
    let m ← m.removeGroup st bind.save group
    .ok { m with groupBinds := setBind m.groupBinds group difficulty mapId none }

/-- `Player::GetBoundInstance`. -/
def boundInstance (st : Stores) (m : Manager) (player mapId difficulty : ℕ) : Option InstanceBind :=
  (st.downscaledDifficulty mapId difficulty).bind fun difficulty =>
    m.playerBinds player difficulty mapId

/-- The first loop of `_ResetSave`: the binds that should be unbound, and whether they are all. -/
def expiredBinds (st : Stores) (m : Manager) (a mapId difficulty : ℕ) :
    List ℕ → Except Fault (List ℕ × Bool)
  | [] => .ok ([], true)
  | player :: players =>
    match m.boundInstance st player mapId difficulty with
    | none => do
      let (temp, shouldDelete) ← m.expiredBinds st a mapId difficulty players
      .ok (player :: temp, shouldDelete)
    | some bind =>
      if bind.save ≠ a then .error .otherSave
      else do
        let (temp, shouldDelete) ← m.expiredBinds st a mapId difficulty players
        .ok (if bind.perm then (temp, false) else (player :: temp, shouldDelete))

/-- The loop of `_ResetSave` over the groups, which goes on while there is one. -/
def unbindGroups (st : Stores) (a mapId difficulty : ℕ) : ℕ → Manager → Except Fault Manager
  | 0, m => do
    let save ← m.derefSave a
    if save.groupList.isEmpty then .ok m else .error .endless
  | fuel + 1, m => do
    let save ← m.derefSave a
    match save.groupList with
    | [] => .ok m
    | group :: _ => do
      let m ← m.unbindGroup st group mapId difficulty
      unbindGroups st a mapId difficulty fuel m

/-- `_ResetSave`, which moves the iterator on, or deletes the save that it is at. -/
def resetSave (st : Stores) (m : Manager) (itr : ℕ) : Except Fault (Manager × ℕ) :=
  match m.instanceSaveById[itr]? with
  | none => .error .deadIterator
  | some (_, a) => do
    let m := { m with lockInstLists := true }
    let save ← m.derefSave a
    let (temp, shouldDelete) ← m.expiredBinds st a save.mapId save.difficulty save.playerList
    let m ← temp.foldlM (fun m player => m.unbindPlayer st player save.mapId save.difficulty) m
    let m ← unbindGroups st a save.mapId save.difficulty save.groupList.length m
    if shouldDelete then do
      let m ← m.deleteSave a
      .ok ({ m with
        instanceSaveById := m.instanceSaveById.eraseIdx itr
        lockInstLists := false }, itr)
    else .ok ({ m with lockInstLists := false }, itr + 1)

/-- The loop of `_ResetOrWarnAll` over the table. -/
def resetAll (st : Stores) (mapId difficulty : ℕ) : ℕ → Manager → ℕ → Except Fault Manager
  | 0, m, itr => if m.instanceSaveById.length ≤ itr then .ok m else .error .endless
  | fuel + 1, m, itr =>
    match m.instanceSaveById[itr]? with
    | none => .ok m
    | some (_, a) => do
      let save ← m.derefSave a
      if save.mapId = mapId ∧ save.difficulty = difficulty then do
        let (m, itr) ← m.resetSave st itr
        resetAll st mapId difficulty fuel m itr
      else resetAll st mapId difficulty fuel m (itr + 1)

def setResetTimeFor (m : Manager) (mapId difficulty t : ℕ) : Except Fault Manager :=
  if (m.resetTimeByMapDifficulty mapId difficulty).isSome then
    .ok { m with
      resetTimeByMapDifficulty := fun mapId' difficulty' =>
        if mapId' = mapId ∧ difficulty' = difficulty then some t
        else m.resetTimeByMapDifficulty mapId' difficulty' }
  else .error .noResetTime

/-- `ScheduleReset`, for a reset that is added. -/
def scheduleReset (m : Manager) (t : ℕ) (event : InstResetEvent) : Manager :=
  { m with
    resetTimeQueue := m.resetTimeQueue.takeWhile (fun e => e.1 ≤ t) ++ (t, event) ::
      m.resetTimeQueue.dropWhile fun e => e.1 ≤ t }

def resetOrWarnAll (st : Stores) (m : Manager) (mapId difficulty : ℕ) (warn : Bool)
    (resetTime : ℕ) : Except Fault Manager :=
  if !st.instanceable mapId || warn then .ok m
  else
    let nextReset := st.subsequentResetTime mapId difficulty resetTime
    if nextReset = 0 then .ok m
    else do
      let m ← resetAll st mapId difficulty m.instanceSaveById.length m 0
      let m ← m.setResetTimeFor mapId difficulty nextReset
      .ok (m.scheduleReset (nextReset - hour) ⟨1, mapId, difficulty, 0⟩)

end Manager

end Sunstrider.Instances

/-!
## The queue of instance resets

The rest of `InstanceSaveMgr.cpp` that works on the queue: cancelling an event, a forced global reset,
the reset of one instance and `Update`. Events come from `AddInstanceSave` and from
`InstanceMap::SetResetSchedule`, which both schedule an event of type 0 for an instance, and the second
also cancels it.

Times are past the first day, so that no subtraction goes below zero, and the ids of maps fit the
sixteen bits of an event. The ids of instances need not.
-/

namespace Sunstrider.Instances

open Sunstrider.Lib (drain)

/-- `ResetTimeDelay`, by the types 1 to 4. -/
def resetTimeDelay : ℕ → ℕ
  | 1 => 3600
  | 2 => 900
  | 3 => 300
  | 4 => 60
  | _ => 0

namespace InstResetEvent

/-- The event of an instance. It has sixteen bits for the id. -/
def ofInstance (mapId difficulty instanceId : ℕ) : InstResetEvent :=
  ⟨0, mapId, difficulty, instanceId % 2 ^ 16⟩

/-- `operator==`. -/
def equals (event e : InstResetEvent) : Bool := e.instanceId == event.instanceId

end InstResetEvent

namespace Manager

def getResetTimeFor (m : Manager) (mapId difficulty : ℕ) : ℕ :=
  match m.resetTimeByMapDifficulty mapId difficulty with
  | some t => t
  | none => 0

/-- `ScheduleReset`, for a reset that is cancelled. The whole queue is searched where there is no such
event at that time. -/
def cancelReset (m : Manager) (t : ℕ) (event : InstResetEvent) : Manager :=
  if m.resetTimeQueue.any fun e => e.1 == t && e.2.equals event then
    { m with resetTimeQueue := m.resetTimeQueue.eraseP fun e => e.1 == t && e.2.equals event }
  else { m with resetTimeQueue := m.resetTimeQueue.eraseP fun e => e.2.equals event }

/-- `ForceGlobalReset`, at the time `now`. -/
def forceGlobalReset (st : Stores) (m : Manager) (mapId difficulty now : ℕ) :
    Except Fault Manager :=
  match st.downscaledDifficulty mapId difficulty with
  | none => .ok m
  | some difficulty =>
    ((m.cancelReset 0 ⟨1, mapId, difficulty, 0⟩).cancelReset 0
      ⟨4, mapId, difficulty, 0⟩).resetOrWarnAll st mapId difficulty false now

def resetInstance (st : Stores) (m : Manager) (mapId instanceId : ℕ) : Except Fault Manager :=
  if !st.instanceable mapId then .ok m
  else
    match m.instanceSaveById.findIdx? fun e => e.1 = instanceId with
    | none => .ok m
    | some itr => do
      let (m, _) ← m.resetSave st itr
      .ok m

/-- `m_resetTimeQueue.erase(m_resetTimeQueue.begin())`. -/
def eraseFront (m : Manager) : Manager := { m with resetTimeQueue := m.resetTimeQueue.tail }

/-- `++event.type`, of the event at the front. -/
def nextType (m : Manager) : Manager :=
  { m with
    resetTimeQueue := m.resetTimeQueue.modifyHead fun e => (e.1, { e.2 with type := e.2.type + 1 }) }

/-- What `Update` does to the event at the front. -/
def handleFront (st : Stores) (m : Manager) (event : InstResetEvent) : Except Fault Manager :=
  if event.type = 0 then do
    let m ← m.resetInstance st event.mapId event.instanceId
    .ok m.eraseFront
  else do
    let resetTime := m.getResetTimeFor event.mapId event.difficulty
    let m ← m.resetOrWarnAll st event.mapId event.difficulty (event.type ≠ 4) resetTime
    if event.type ≠ 4 then
      .ok (m.nextType.scheduleReset (resetTime - resetTimeDelay (event.type + 1))
        { event with type := event.type + 1 }).eraseFront
    else .ok m.eraseFront

/-- The front of the queue, if it is due. -/
def due (now : ℕ) (m : Manager) : Option (ℕ × InstResetEvent) :=
  match m.resetTimeQueue with
  | [] => none
  | (t, event) :: _ => if t ≥ now then none else some (t, event)

/-- By how much the events are overdue, all together. -/
def overdue (now : ℕ) (m : Manager) : ℕ := (m.resetTimeQueue.map fun e => now - e.1).sum

/-- `Update`, at the time `now`. -/
def update (st : Stores) (m : Manager) (now : ℕ) : Except Fault Manager :=
  drain (due now) (fun m e => m.handleFront st e.2) .endless (m.overdue now) m

end Manager

end Sunstrider.Instances

/-!
## Reset times at the start of the server

`InstanceSaveManager::LoadResetTimes`, from the tables `instance`, `creature_respawn` and
`instance_reset` and the store of difficulties. What it writes to the tables is left out, and so are the
ids of instances that it marks as used.
-/

namespace Sunstrider.Instances

/-- A row of `instance`. A reset time of 0 is that of a raid or a heroic instance. -/
structure InstanceRow where
  id : ℕ
  mapId : ℕ
  difficulty : ℕ
  resetTime : ℕ
  deriving DecidableEq

/-- A row of the query for the last respawn of each instance. -/
structure RespawnRow where
  maxRespawnTime : ℕ
  instanceId : ℕ
  deriving DecidableEq

/-- A row of `instance_reset`. -/
structure ResetRow where
  mapId : ℕ
  difficulty : ℕ
  resetTime : ℕ
  deriving DecidableEq

/-- The tables, with their keys, and the keys of `sMapDifficultyMap`. The stored reset times are at the
hour of the settings. -/
structure ResetTables (st : Stores) where
  instances : List InstanceRow
  respawns : List RespawnRow
  resets : List ResetRow
  mapDifficulties : List (ℕ × ℕ)
  instances_sorted : instances.Pairwise fun r r' => r.id < r'.id
  instances_pos : ∀ r ∈ instances, 0 < r.id
  respawns_key : (respawns.map RespawnRow.instanceId).Nodup
  resets_key : (resets.map fun r => (r.mapId, r.difficulty)).Nodup
  resets_hour : ∀ r ∈ resets, r.resetTime % day = st.instanceResetTimeHour * hour
  mapDifficulties_key : mapDifficulties.Nodup
  mem_mapDifficulties : ∀ p, p ∈ mapDifficulties ↔ (st.mapDifficulty p.1 p.2).isSome

namespace Stores

variable (st : Stores)

/-- `period`: the reset delay must be at least one day. -/
def period (resetTime : ℕ) : ℕ := if st.rated resetTime < day then day else st.rated resetTime

/-- The next global reset of an instance, from the time `t` that is known: 0 where there is none. -/
def nextResetTime (now period t : ℕ) : ℕ :=
  let today := now / day * day
  let diff := st.instanceResetTimeHour * hour
  let t := if t = 0 then today + period + diff else t
  if t < now then
    -- assume that expired instances have already been cleaned
    let t := t / day * day
    t + ((today - t) / period + 1) * period + diff
  else t

end Stores

/-- The type of the first event of a global reset: a warning, or the reset itself. -/
def firstType (now t : ℕ) : ℕ :=
  if now < t - resetTimeDelay 1 then 1
  else if now < t - resetTimeDelay 2 then 2
  else if now < t - resetTimeDelay 3 then 3
  else 4

namespace ResetTables

variable {st : Stores} (tables : ResetTables st)

/-- `instResetTime` after the first query. -/
def normalInstances : List InstanceRow := tables.instances.filter fun r => r.resetTime ≠ 0

/-- The reset times of instances with what the second query says of their respawns. One row of it is
fetched. -/
def instResetTimes : List InstanceRow :=
  match tables.respawns with
  | [] => tables.normalInstances
  | row :: _ =>
    let resetTime := row.maxRespawnTime + 2 * hour
    tables.normalInstances.map fun r =>
      if r.id = row.instanceId ∧ r.resetTime ≠ resetTime then { r with resetTime := resetTime } else r

/-- The ids in `mapDiffResetInstances` of a map and a difficulty. -/
def resetInstances (mapId difficulty : ℕ) : List ℕ :=
  (tables.normalInstances.filter fun r => r.mapId = mapId ∧ r.difficulty = difficulty).map InstanceRow.id

end ResetTables

namespace Manager

variable {st : Stores}

def initializeResetTimeFor (m : Manager) (mapId difficulty t : ℕ) : Manager :=
  { m with
    resetTimeByMapDifficulty := fun mapId' difficulty' =>
      if mapId' = mapId ∧ difficulty' = difficulty then some t
      else m.resetTimeByMapDifficulty mapId' difficulty' }

/-- The reset of a normal instance is scheduled. -/
def scheduleInstance (now : ℕ) (m : Manager) (r : InstanceRow) : Manager :=
  if now < r.resetTime then
    m.scheduleReset r.resetTime (InstResetEvent.ofInstance r.mapId r.difficulty r.id)
  else m

/-- A row of `instance_reset`. The hour of the settings may have changed. -/
def loadReset (st : Stores) (m : Manager) (r : ResetRow) : Manager :=
  match st.mapDifficulty r.mapId r.difficulty with
  | none => m
  | some _ =>
    m.initializeResetTimeFor r.mapId r.difficulty
      (r.resetTime / day * day + st.instanceResetTimeHour * hour)

/-- The global reset of a map and a difficulty, with the events of its instances. -/
def scheduleGlobal (tables : ResetTables st) (now : ℕ) (m : Manager) (p : ℕ × ℕ) : Manager :=
  match st.mapDifficulty p.1 p.2 with
  | none => m
  | some resetTime =>
    if resetTime = 0 then m
    else
      let t := st.nextResetTime now (st.period resetTime) (m.getResetTimeFor p.1 p.2)
      let type := firstType now t
      let m := m.initializeResetTimeFor p.1 p.2 t
      let m := m.scheduleReset (t - resetTimeDelay type) ⟨type, p.1, p.2, 0⟩
      (tables.resetInstances p.1 p.2).foldl (fun m id =>
        m.scheduleReset (t - resetTimeDelay type) ⟨type, p.1, p.2, id % 2 ^ 16⟩) m

/-- `LoadResetTimes`, at the time `now`. -/
def loadResetTimes (tables : ResetTables st) (now : ℕ) : Manager :=
  let m := tables.instResetTimes.foldl (scheduleInstance now) empty
  let m := tables.resets.foldl (loadReset st) m
  tables.mapDifficulties.foldl (scheduleGlobal tables now) m

end Manager

end Sunstrider.Instances
