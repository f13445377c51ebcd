import Mathlib.Data.Finset.Basic
import Mathlib.Data.List.AList
import Mathlib.Logic.Function.Basic
import Sunstrider.Lib.Stream

/-!
# The script of an instance

`InstanceScript.cpp`: the states of the bosses, the doors and the spawn groups that depend on them, and the
string that they are saved to. With the script goes what it sees of its map: the gameobjects, and which
spawn groups are toggled (`Map::IsSpawnGroupActive`, `Map::SetSpawnGroupActive`).

Whether a minion of a boss is a living world boss is an answer that comes with a call of `SetBossState`.
Left out: what happens to the minions, and the objects that scripts ask for by their type.
-/

namespace Sunstrider.InstanceScripts

open Lib (Stream)

inductive EncounterState
  | notStarted
  | inProgress
  | fail
  | done
  | special
  | toBeDecided
  deriving DecidableEq

namespace EncounterState

def toNat : EncounterState → ℕ
  | .notStarted => 0
  | .inProgress => 1
  | .fail => 2
  | .done => 3
  | .special => 4
  | .toBeDecided => 5

/-- The conversion of a number below `TO_BE_DECIDED`. -/
def ofValue : ℕ → EncounterState
  | 0 => .notStarted
  | 1 => .inProgress
  | 2 => .fail
  | 3 => .done
  | _ => .special

end EncounterState

inductive DoorType
  | room
  | passage
  | spawnHole
  deriving DecidableEq

/-- The types in the order of their numbers. -/
def doorTypes : List DoorType := [.room, .passage, .spawnHole]

/-- `DoorInfo`, and a row of `DoorData` without the entry. The boss is given by its place. -/
structure DoorInfo where
  boss : ℕ
  type : DoorType
  deriving DecidableEq

inductive GOState
  | active
  | ready
  | activeAlternative
  deriving DecidableEq

structure GameObject where
  entry : ℕ
  goState : GOState
  deriving DecidableEq

structure InstanceSpawnGroupInfo where
  spawnGroupId : ℕ
  bossStateId : ℕ
  /-- The bits of the states. -/
  bossStates : ℕ
  activateSpawn : Bool
  blockSpawn : Bool
  deriving DecidableEq

/-- The flags of `SpawnGroupTemplateData`. -/
structure SpawnGroupTemplateData where
  system : Bool
  manualSpawn : Bool
  deriving DecidableEq

/-- What a script says of itself when it is made, and what the server says of its map. -/
structure Setup where
  /-- The argument of `SetHeaders`. -/
  dataHeaders : List Char
  /-- The argument of `SetBossNumber`. -/
  bossNumber : ℕ
  /-- The argument of `LoadDoorData`: entries, and what they are bound to. -/
  doorData : List (ℕ × DoorInfo)
  instanceSpawnGroups : Option (List InstanceSpawnGroupInfo)
  /-- `GetSpawnGroupData` of the map. -/
  spawnGroupData : ℕ → Option SpawnGroupTemplateData

namespace Setup

variable (u : Setup)

/-- `SetHeaders`. -/
def headers : List Char := u.dataHeaders.filter Char.isAlpha

/-- `doors`, the part for an entry. -/
def doors (entry : ℕ) : List DoorInfo :=
  (u.doorData.filter fun data => data.2.boss < u.bossNumber && data.1 = entry).map Prod.snd

/-- The rows of the spawn groups, of which there are none without a table. -/
def spawnGroups : List InstanceSpawnGroupInfo := u.instanceSpawnGroups.getD []

end Setup

structure BossInfo where
  state : EncounterState
  door : DoorType → List ℕ

inductive Fault
  /-- A variable is used that nothing has been read into. -/
  | uninitialized
  deriving DecidableEq

structure InstanceScript where
  bosses : ℕ → BossInfo
  gameObjects : AList fun _ : ℕ => GameObject
  toggledSpawnGroupIds : Finset ℕ
  /-- The string that `SaveToDB` has stored. -/
  stored : Option (List Char)

namespace InstanceScript

/-- The constructor, in a map that is made with it, for an instance with a string stored or none. -/
def new (stored : Option (List Char)) : InstanceScript :=
  ⟨fun _ => ⟨.toBeDecided, fun _ => []⟩, ∅, ∅, stored⟩

variable (u : Setup) (s : InstanceScript)

def getBossState (id : ℕ) : EncounterState :=
  if id < u.bossNumber then (s.bosses id).state else .toBeDecided

/-! ## Saving -/

def getSaveData : List Char :=
  u.headers.flatMap (fun header => [header, ' ']) ++
    (List.range u.bossNumber).flatMap fun i => (toString (s.bosses i).state.toNat).toList ++ [' ']

def saveToDB : InstanceScript :=
  let data := s.getSaveData u
  if data = [] then s else { s with stored := some data }

/-! ## Doors -/

/-- One round of the loop of `UpdateDoorState`. -/
def openFor (info : DoorInfo) : Bool :=
  match info.type with
  | .room => (s.bosses info.boss).state ≠ .inProgress
  | .passage => (s.bosses info.boss).state = .done
  | .spawnHole => (s.bosses info.boss).state = .inProgress

/-- `UpdateDoorState`, of the gameobject of a guid if the map has it. -/
def updateDoorState (guid : ℕ) : InstanceScript :=
  match s.gameObjects.lookup guid with
  | none => s
  | some door =>
    if u.doors door.entry = [] then s
    else
      let goState := if (u.doors door.entry).all s.openFor then GOState.active else .ready
      { s with gameObjects := s.gameObjects.insert guid { door with goState } }

/-- The sets of the bosses that an entry is bound to, after `f` has changed them. -/
def changeDoors (f : List ℕ → List ℕ) (entry : ℕ) : InstanceScript :=
  (u.doors entry).foldl (fun s info =>
    let boss := s.bosses info.boss
    { s with
      bosses := Function.update s.bosses info.boss
        { boss with door := Function.update boss.door info.type (f (boss.door info.type)) } }) s

/-- A gameobject comes to the map (`OnGameObjectCreate`, `AddDoor`). -/
def onGameObjectCreate (guid : ℕ) (go : GameObject) : InstanceScript :=
  if (s.gameObjects.lookup guid).isSome then s
  else
    let s := { s with gameObjects := s.gameObjects.insert guid go }
    (s.changeDoors u (·.insert guid) go.entry).updateDoorState u guid

/-- A gameobject leaves the map (`OnGameObjectRemove`, `AddDoor`). -/
def onGameObjectRemove (guid : ℕ) : InstanceScript :=
  match s.gameObjects.lookup guid with
  | none => s
  | some go =>
    let s := s.changeDoors u (·.filter (· ≠ guid)) go.entry
    { s with gameObjects := s.gameObjects.erase guid }

/-! ## Spawn groups -/

def isSpawnGroupActive (groupId : ℕ) : Bool :=
  match u.spawnGroupData groupId with
  | none => false
  | some data => if data.system then true else decide (groupId ∈ s.toggledSpawnGroupIds) != !data.manualSpawn

/-- `SetSpawnGroupActive`, and what `SpawnGroupSpawn` and `SetSpawnGroupInactive` do by it. -/
def setSpawnGroupActive (groupId : ℕ) (state : Bool) : InstanceScript :=
  match u.spawnGroupData groupId with
  | none => s
  | some data =>
    if data.system then s
    else if state != !data.manualSpawn then
      { s with toggledSpawnGroupIds := insert groupId s.toggledSpawnGroupIds }
    else { s with toggledSpawnGroupIds := s.toggledSpawnGroupIds.erase groupId }

/-- The enumeration in `UpdateSpawnGroups`. -/
inductive States
  | block
  | spawn
  | forceBlock
  deriving DecidableEq

/-- The state that a row is compared with. A script without bosses answers 0 for each of them
(`GetData`). -/
def stateFor (info : InstanceSpawnGroupInfo) : EncounterState :=
  if u.bossNumber ≠ 0 then s.getBossState u info.bossStateId else .notStarted

/-- One round of the loop over the rows. -/
def fold (curValue : States) (info : InstanceSpawnGroupInfo) : States :=
  if curValue = .forceBlock then curValue
  else if !info.bossStates.testBit (s.stateFor u info).toNat then curValue
  else if info.blockSpawn then .forceBlock
  else if info.activateSpawn then .spawn
  else curValue

def newStates : AList fun _ : ℕ => States :=
  u.spawnGroups.foldl (fun newStates info =>
    let curValue := (newStates.lookup info.spawnGroupId).getD .block
    newStates.insert info.spawnGroupId (s.fold u curValue info)) ∅

def updateSpawnGroups : InstanceScript :=
  (s.newStates u).entries.foldl (fun s pair =>
    let doSpawn := decide (pair.2 = .spawn)
    if s.isSpawnGroupActive u pair.1 = doSpawn then s else s.setSpawnGroupActive u pair.1 doSpawn) s

/-! ## Boss states -/

/-- Another state for a boss, and nothing more. -/
def withState (id : ℕ) (state : EncounterState) : InstanceScript :=
  { s with bosses := Function.update s.bosses id { s.bosses id with state } }

/-- The doors that are listed for a boss. -/
def doorsOf (id : ℕ) : List ℕ := doorTypes.flatMap (s.bosses id).door

/-- `SetBossState`, and what it returns. -/
def setBossState (id : ℕ) (state : EncounterState) (worldBossAlive : Bool) : Bool × InstanceScript :=
  if id < u.bossNumber then
    if (s.bosses id).state = .toBeDecided then (false, s.withState id state)
    else if (s.bosses id).state = state then (false, s)
    else if (s.bosses id).state = .done then (false, s)
    else if state = .done ∧ worldBossAlive then (false, s)
    else
      let s := (s.withState id state).saveToDB u
      let s := (s.doorsOf id).foldl (fun s guid => s.updateDoorState u guid) s
      (true, s.updateSpawnGroups u)
  else (false, s)

/-- A call of `SetBossState`. -/
structure Call where
  id : ℕ
  state : EncounterState
  worldBossAlive : Bool

def call (u : Setup) (s : InstanceScript) (c : Call) : InstanceScript :=
  (s.setBossState u c.id c.state c.worldBossAlive).2

def create : InstanceScript :=
  ((List.range u.bossNumber).foldl (fun s i => (s.setBossState u i .notStarted false).2) s).updateSpawnGroups u

/-- `ReadSaveDataHeaders`: whether they are there, and the rest of the stream. -/
def readSaveDataHeaders : List Char → Stream → Except Fault (Bool × Stream)
  | [], data => .ok (true, data)
  | header :: headers, data =>
    match data.readChar with
    | (none, _) => .error .uninitialized
    | (some buff, data) => if header ≠ buff then .ok (false, data) else readSaveDataHeaders headers data

/-- What `ReadSaveDataBossStates` makes of a number that it has read. -/
def settled (buff : ℕ) : ℕ := if buff = 1 ∨ buff = 2 ∨ buff = 4 then 0 else buff

/-- The loop of `ReadSaveDataBossStates`, from a boss on. -/
def readBossStates (worldBossAlive : ℕ → Bool) :
    ℕ → ℕ → Stream → InstanceScript → Except Fault InstanceScript
  | 0, _, _, s => .ok s
  | n + 1, bossId, data, s =>
    match data.readUInt32 with
    | (none, _) => .error .uninitialized
    | (some buff, data) =>
      let s := if settled buff < 5 then
        (s.setBossState u bossId (.ofValue (settled buff)) (worldBossAlive bossId)).2 else s
      readBossStates worldBossAlive n (bossId + 1) data s

def load (data : Option (List Char)) (worldBossAlive : ℕ → Bool) : Except Fault InstanceScript :=
  match data with
  | none => .ok s
  | some data => do
    let (found, stream) ← readSaveDataHeaders u.headers (.new data)
    if found then
      let s ← readBossStates u worldBossAlive u.bossNumber 0 stream s
      .ok (s.updateSpawnGroups u)
    else .ok s

end InstanceScript

/-! ## Lives of an instance -/

/-- A script, and whether `Create` or `Load` has been called on it. -/
structure Life where
  script : InstanceScript
  ready : Bool

namespace Life

open InstanceScript

inductive Op
  | create
  | load (data : Option (List Char)) (worldBossAlive : ℕ → Bool)
  | setBossState (c : Call)
  | onGameObjectCreate (guid : ℕ) (go : GameObject)
  | onGameObjectRemove (guid : ℕ)
  /-- The instance is unloaded, and made anew from the string that is stored if there is one. -/
  | reload (worldBossAlive : ℕ → Bool)

def step (u : Setup) (t : Life) : Op → Except Fault Life
  | .create => .ok ⟨t.script.create u, true⟩
  | .load data worldBossAlive => do
    let s ← t.script.load u data worldBossAlive
    .ok ⟨s, true⟩
  | .setBossState c => .ok { t with script := call u t.script c }
  | .onGameObjectCreate guid go => .ok { t with script := t.script.onGameObjectCreate u guid go }
  | .onGameObjectRemove guid => .ok { t with script := t.script.onGameObjectRemove u guid }
  | .reload worldBossAlive => do
    let s ← (new t.script.stored).load u t.script.stored worldBossAlive
    .ok ⟨s, t.script.stored.isSome⟩

/-- A script that nothing has been stored of. -/
def start : Life := ⟨new none, false⟩

end Life

end Sunstrider.InstanceScripts
