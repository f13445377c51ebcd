import Sunstrider.Lib.Heap
import Sunstrider.Lib.Run
import Mathlib.Data.Prod.Lex

/-!
# Respawns of a map

The respawn stores of `Map.cpp`: the `RespawnInfo` objects on the heap of the process, by their address,
the queue `_respawnTimes` that is ordered by their fields, and the two maps by spawn id. The handle of an
object in the queue is its address.

The queue is a `boost::heap::fibonacci_heap`, which is not part of the repository: the model takes any
`MutableHeap` for it. `CheckRespawn` and `DoRespawn` ask the world around the map, and its answers come
with the calls. Two of them call back: the pool system and the loading of an object save and remove
respawn times of the map, and can make other spawns respawn, so a call carries the calls that are made
inside it.

Left out: the database, and the scaling of respawn delays.
-/

namespace Sunstrider.Maps

open Lib (MutableHeap)

inductive SpawnObjectType
  | creature
  | gameObject
  deriving DecidableEq, Repr

def SpawnObjectType.toNat : SpawnObjectType → ℕ
  | .creature => 0
  | .gameObject => 1

structure RespawnInfo where
  type : SpawnObjectType
  spawnId : ℕ
  entry : ℕ
  respawnTime : ℕ
  gridId : ℕ
  zoneId : ℕ
  deriving DecidableEq, Repr

/-- What `CompareRespawnInfo` compares, in its order: an earlier time is higher, then a greater spawn id,
then a greater type. -/
abbrev Rank := ℕᵒᵈ ×ₗ ℕ ×ₗ ℕ

def RespawnInfo.rank (info : RespawnInfo) : Rank :=
  toLex (OrderDual.toDual info.respawnTime, toLex (info.spawnId, info.type.toNat))

/-- What stops the server. -/
inductive Fault
  /-- An object is read or written after it was deleted. -/
  | freed
  /-- `Respawn stores inconsistent`, of `DeleteRespawnInfo`. -/
  | inconsistent
  /-- The state desync of `AddRespawnInfo`. -/
  | desync
  /-- The infinite loop guard of `ProcessRespawns`. -/
  | loopGuard
  /-- `pop` of an empty queue. -/
  | emptyQueue
  /-- Not a fault of the server: the loop goes on beyond the answers it was given. -/
  | unanswered
  deriving DecidableEq, Repr

/-- The respawn stores of a map. -/
structure Map (H : MutableHeap ℕ Rank) where
  infos : ℕ → Option RespawnInfo
  nextInfo : ℕ
  respawnTimes : H.Carrier
  /-- `GetRespawnMapForType`: `_creatureRespawnTimesBySpawnId` and `_gameObjectRespawnTimesBySpawnId`. -/
  respawnMap : SpawnObjectType → ℕ → Option ℕ

/-- A call of the map by the world around it, with what happens inside. `respawn` is `RemoveRespawnTime`
that lets the spawn respawn. -/
inductive Call
  | save (type : SpawnObjectType) (spawnId entry respawnTime zoneId gridId : ℕ) (replace : Bool)
  | remove (type : SpawnObjectType) (spawnId : ℕ)
  /-- Whether the spawn group is active, whether the spawn is pooled, whether another instance of it is
  there; what the pool system calls, and what the loading of the object calls. -/
  | respawn (type : SpawnObjectType) (spawnId : ℕ) (force active pooled present : Bool)
    (pool load : List Call)

/-- The answers of the world about a spawn, in one round of `ProcessRespawns`. -/
structure Answer where
  active : Bool
  pooled : Bool
  present : Bool
  pool : List Call
  load : List Call

/-- The world, when a round asks it about the spawn that is due. -/
abbrev Answers : Type := SpawnObjectType → ℕ → Answer

namespace Map

variable {H : MutableHeap ℕ Rank}

def new : Map H := ⟨fun _ => none, 0, H.empty, fun _ _ => none⟩

/-- The keys by which the queue compares. -/
def rank (s : Map H) (info : ℕ) : Rank :=
  ((s.infos info).map RespawnInfo.rank).getD ⟨OrderDual.toDual 0, 0, 0⟩

/-- `GetCreatureRespawnTime` and `GetGORespawnTime`: the stored time of a spawn, 0 if there is none. -/
def respawnTime (s : Map H) (type : SpawnObjectType) (spawnId : ℕ) : ℕ :=
  (((s.respawnMap type spawnId).bind s.infos).map RespawnInfo.respawnTime).getD 0

/-- A pointer, read. -/
def read (s : Map H) (info : ℕ) : Except Fault RespawnInfo :=
  match s.infos info with
  | none => .error .freed
  | some ri => .ok ri

def writeTime (s : Map H) (info time : ℕ) : Except Fault (Map H) := do
  let ri ← s.read info
  .ok { s with infos := Function.update s.infos info (some { ri with respawnTime := time }) }

def eraseFromMap (s : Map H) (type : SpawnObjectType) (spawnId : ℕ) : Map H :=
  { s with
    respawnMap := Function.update s.respawnMap type (Function.update (s.respawnMap type) spawnId none) }

def free (s : Map H) (info : ℕ) : Map H := { s with infos := Function.update s.infos info none }

def deleteRespawnInfo (s : Map H) (info : ℕ) : Except Fault (Map H) := do
  let ri ← s.read info
  if (s.respawnMap ri.type ri.spawnId).isNone then .error .inconsistent
  else
    let s := s.eraseFromMap ri.type ri.spawnId
    let s := { s with respawnTimes := H.erase s.rank s.respawnTimes info }
    .ok (s.free info)

/-- The last part of `AddRespawnInfo`: a new object, in the queue and in its map. -/
def insert (s : Map H) (info : RespawnInfo) : Except Fault (Map H) :=
  let ri := s.nextInfo
  let s := { s with
    infos := Function.update s.infos ri (some info)
    nextInfo := ri + 1 }
  let s := { s with respawnTimes := H.push s.rank s.respawnTimes ri }
  if (s.respawnMap info.type info.spawnId).isSome then .error .desync
  else
    .ok { s with
      respawnMap := Function.update s.respawnMap info.type
        (Function.update (s.respawnMap info.type) info.spawnId (some ri)) }

def addRespawnInfo (s : Map H) (info : RespawnInfo) (replace : Bool) : Except Fault (Map H) :=
  if info.spawnId = 0 then .ok s
  else
    match s.respawnMap info.type info.spawnId with
    | none => s.insert info
    | some existing => do
      let old ← s.read existing
      if replace || info.respawnTime < old.respawnTime then
        let s ← s.deleteRespawnInfo existing
        s.insert info
      else .ok s

/-- `RemoveRespawnTime` of a spawn, which does not let it respawn. -/
def removeRespawnTime (s : Map H) (type : SpawnObjectType) (spawnId : ℕ) : Except Fault (Map H) :=
  match s.respawnMap type spawnId with
  | none => .ok s
  | some info => s.deleteRespawnInfo info

def saveRespawnTime (s : Map H) (info : RespawnInfo) (replace : Bool) : Except Fault (Map H) :=
  if info.respawnTime = 0 then s.removeRespawnTime info.type info.spawnId
  else s.addRespawnInfo info replace

/-- `CheckRespawn`, with what the pool system does. -/
def checkRespawn (s : Map H) (info : ℕ) (active pooled present : Bool)
    (updatePool : Map H → Except Fault (Map H)) : Except Fault (Map H × Bool) :=
  if !active then do
    let s ← s.writeTime info 0
    .ok (s, false)
  else if !pooled then
    if present then do
      let s ← s.writeTime info 0
      .ok (s, false)
    else .ok (s, true)
  else do
    let s ← updatePool s
    let s ← s.writeTime info 0
    .ok (s, false)

/-- `Respawn`, with what the pool system and `DoRespawn` do. -/
def respawn (s : Map H) (info : ℕ) (force active pooled present : Bool)
    (updatePool doRespawn : Map H → Except Fault (Map H)) : Except Fault (Map H) := do
  let (s, allowed) ← if force then .ok (s, true) else s.checkRespawn info active pooled present updatePool
  let ri ← s.read info
  if !allowed then
    if ri.respawnTime ≠ 0 then s.saveRespawnTime ri true else s.deleteRespawnInfo info
  else
    let s ← s.deleteRespawnInfo info
    doRespawn s

mutual

/-- A call from outside. -/
def call (s : Map H) : Call → Except Fault (Map H)
  | .save type spawnId entry respawnTime zoneId gridId replace =>
    s.saveRespawnTime ⟨type, spawnId, entry, respawnTime, gridId, zoneId⟩ replace
  | .remove type spawnId => s.removeRespawnTime type spawnId
  | .respawn type spawnId force active pooled present pool load =>
    match s.respawnMap type spawnId with
    | none => .ok s
    | some info =>
      s.respawn info force active pooled present (fun s => s.calls pool) (fun s => s.calls load)

def calls (s : Map H) : List Call → Except Fault (Map H)
  | [] => .ok s
  | c :: cs => do
    let s ← s.call c
    s.calls cs

end

/-- `pop` of the queue. -/
def pop (s : Map H) : Except Fault (Map H) :=
  match H.top s.respawnTimes with
  | none => .error .emptyQueue
  | some top => .ok { s with respawnTimes := H.erase s.rank s.respawnTimes top }

/-- One round of the loop of `ProcessRespawns`, for the info that is due. -/
def processRespawn (s : Map H) (now next : ℕ) (answers : Answers) : Except Fault (Map H) := do
  let ri ← s.read next
  let a := answers ri.type ri.spawnId
  let (s, allowed) ← s.checkRespawn next a.active a.pooled a.present fun s => s.calls a.pool
  if allowed then
    let s ← s.pop
    let ri ← s.read next
    let s ← (s.eraseFromMap ri.type ri.spawnId).calls a.load
    let _ ← s.read next
    .ok (s.free next)
  else
    let ri ← s.read next
    if ri.respawnTime = 0 then
      let s ← s.pop
      .ok ((s.eraseFromMap ri.type ri.spawnId).free next)
    else if now < ri.respawnTime then
      .ok { s with respawnTimes := H.decrease s.rank s.respawnTimes next }
    else .error .loopGuard

/-- The info at the top of the queue, if it is due. -/
def nextDue (s : Map H) (now : ℕ) : Except Fault (Option ℕ) :=
  match H.top s.respawnTimes with
  | none => .ok none
  | some next => do
    let ri ← s.read next
    .ok (if now < ri.respawnTime then none else some next)

/-- `ProcessRespawns`, with the answers of its rounds. -/
def processRespawns (s : Map H) (now : ℕ) : List Answers → Except Fault (Map H)
  | [] => do
    match ← s.nextDue now with
    | none => .ok s
    | some _ => .error .unanswered
  | answers :: rest => do
    match ← s.nextDue now with
    | none => .ok s
    | some next =>
      let s ← s.processRespawn now next answers
      s.processRespawns now rest

/-! ## Runs -/

/-- What happens to a map: a call from outside, or one round of `ProcessRespawns`. -/
inductive Op
  | call (c : Call)
  | round (now : ℕ) (answers : Answers)

def step (s : Map H) : Op → Except Fault (Map H)
  | .call c => s.call c
  | .round now answers => do
    match ← s.nextDue now with
    | none => .ok s
    | some next => s.processRespawn now next answers

end Map

end Sunstrider.Maps
