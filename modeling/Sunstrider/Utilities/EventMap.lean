import Sunstrider.Lib.Multimap

/-!
# Scheduled events of a script

`EventMap.h` and `EventMap.cpp`. The word of an event has its id in bits 0 to 15, its group as one of
bits 16 to 23 and its phase as one of bits 24 to 31. Times wrap at 32 bits. A time that the source draws
at random is an input.
-/

namespace Sunstrider.Utilities

open Lib (multimapInsert)

def word32 : ℕ := 4294967296

structure EventMap where
  time : ℕ
  /-- The mask of the active phases. -/
  phase : ℕ
  /-- The due times, with the words of the events. -/
  eventMap : List (ℕ × ℕ)
  lastEvent : ℕ
  deriving DecidableEq

namespace EventMap

/-- `EventMap()`. -/
def new : EventMap := ⟨0, 0, [], 0⟩

/-- The word that `ScheduleEvent` makes. -/
def eventData (eventId group phase : ℕ) : ℕ :=
  let data := if group ≠ 0 ∧ group ≤ 8 then eventId ||| 1 <<< (group + 15) else eventId
  if phase ≠ 0 ∧ phase ≤ 8 then data ||| 1 <<< (phase + 23) else data

def idOf (data : ℕ) : ℕ := data &&& 0x0000FFFF

def inGroup (group data : ℕ) : Bool := data &&& 1 <<< (group + 15) ≠ 0

/-- The event has a phase, and it is not active. -/
def isInactive (phase data : ℕ) : Bool :=
  phase ≠ 0 && data &&& 0xFF000000 ≠ 0 && data >>> 24 &&& phase = 0

def setPhase (m : EventMap) (phase : ℕ) : EventMap :=
  if phase = 0 then { m with phase := 0 }
  else if phase ≤ 8 then { m with phase := 1 <<< (phase - 1) }
  else m

def addPhase (m : EventMap) (phase : ℕ) : EventMap :=
  if phase ≠ 0 ∧ phase ≤ 8 then { m with phase := m.phase ||| 1 <<< (phase - 1) } else m

def removePhase (m : EventMap) (phase : ℕ) : EventMap :=
  if phase ≠ 0 ∧ phase ≤ 8 then { m with phase := m.phase &&& (255 ^^^ 1 <<< (phase - 1)) } else m

def update (m : EventMap) (time : ℕ) : EventMap := { m with time := (m.time + time) % word32 }

def scheduleEvent (m : EventMap) (eventId time group phase : ℕ) : EventMap :=
  { m with
    eventMap := multimapInsert m.eventMap
      ((m.time + time) % word32, eventData eventId group phase) }

def cancelEvent (m : EventMap) (eventId : ℕ) : EventMap :=
  { m with eventMap := m.eventMap.filter fun e => eventId ≠ idOf e.2 }

def cancelEventGroup (m : EventMap) (group : ℕ) : EventMap :=
  if group = 0 ∨ 8 < group then m
  else { m with eventMap := m.eventMap.filter fun e => !inGroup group e.2 }

def rescheduleEvent (m : EventMap) (eventId time group phase : ℕ) : EventMap :=
  (m.cancelEvent eventId).scheduleEvent eventId time group phase

/-- `Repeat`. -/
def repeatEvent (m : EventMap) (time : ℕ) : EventMap :=
  { m with eventMap := multimapInsert m.eventMap ((m.time + time) % word32, m.lastEvent) }

/-- `DelayEvents`, of one group. -/
def delayEvents (m : EventMap) (delay group : ℕ) : EventMap :=
  if group = 0 ∨ 8 < group then m
  else
    let delayed := ((m.eventMap.filter fun e => inGroup group e.2).map fun e =>
      ((e.1 + delay) % word32, e.2)).foldl multimapInsert []
    { m with
      eventMap := delayed.foldl multimapInsert (m.eventMap.filter fun e => !inGroup group e.2) }

/-- The loop of `SetMinimalDelay`, over the events from the iterator on. An event that is put back has a
later time than the one it stands for, and so comes behind the iterator. -/
def minimalDelayLoop (eventId delay : ℕ) : List (ℕ × ℕ) → List (ℕ × ℕ)
  | [] => []
  | e :: events =>
    if eventId = idOf e.2 ∧ e.1 < delay then
      minimalDelayLoop eventId delay (multimapInsert events (delay, e.2))
    else e :: minimalDelayLoop eventId delay events
termination_by events => events.length + events.countP fun e => e.1 < delay
decreasing_by
  · -- the event that is put back is not before the delay any more
    rename_i h
    rw [(Lib.multimapInsert_perm _ _).length_eq, (Lib.multimapInsert_perm _ _).countP_eq,
      List.countP_cons_of_neg (by simp), List.countP_cons_of_pos (by simpa using h.2)]
    simp only [List.length_cons]
    omega
  · have hle := (List.sublist_cons_self e events).countP_le (p := fun e => e.1 < delay)
    simp only [List.length_cons]
    omega

def setMinimalDelay (m : EventMap) (eventId delay : ℕ) : EventMap :=
  { m with eventMap := minimalDelayLoop eventId delay m.eventMap }

/-- The loop of `ExecuteEvent`, which takes events from the front. -/
def executeLoop (m : EventMap) : List (ℕ × ℕ) → EventMap × ℕ
  | [] => ({ m with eventMap := [] }, 0)
  | e :: events =>
    if m.time < e.1 then ({ m with eventMap := e :: events }, 0)
    else if isInactive m.phase e.2 then executeLoop m events
    else ({ m with eventMap := events, lastEvent := e.2 }, idOf e.2)

def executeEvent (m : EventMap) : EventMap × ℕ := m.executeLoop m.eventMap

/-! ## Runs -/

inductive Op
  | schedule (eventId time group phase : ℕ)
  | reschedule (eventId time group phase : ℕ)
  | cancel (eventId : ℕ)
  | cancelGroup (group : ℕ)
  | delay (delay group : ℕ)
  | setPhase (phase : ℕ)
  | addPhase (phase : ℕ)
  | removePhase (phase : ℕ)
  | update (time : ℕ)
  | repeatEvent (time : ℕ)
  | execute
  deriving DecidableEq

/-- One operation, with what it answers; only `ExecuteEvent` answers anything. -/
def step (m : EventMap) : Op → EventMap × ℕ
  | .schedule eventId time group phase => (m.scheduleEvent eventId time group phase, 0)
  | .reschedule eventId time group phase => (m.rescheduleEvent eventId time group phase, 0)
  | .cancel eventId => (m.cancelEvent eventId, 0)
  | .cancelGroup group => (m.cancelEventGroup group, 0)
  | .delay delay group => (m.delayEvents delay group, 0)
  | .setPhase phase => (m.setPhase phase, 0)
  | .addPhase phase => (m.addPhase phase, 0)
  | .removePhase phase => (m.removePhase phase, 0)
  | .update time => (m.update time, 0)
  | .repeatEvent time => (m.repeatEvent time, 0)
  | .execute => m.executeEvent

end EventMap

end Sunstrider.Utilities
