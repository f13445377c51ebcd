import Mathlib.Logic.Function.Basic
import Sunstrider.Lib.Multimap

/-!
# The event processor

`EventProcessor.h` and `EventProcessor.cpp`, as a machine of small steps. A loop makes one pass at a time.
What an event does in `Execute` or `Abort` is chosen anew at each step, and so is what `Execute` and
`IsDeletable` answer. `frames` is the stack of the loops and of the events that they have called.

Events are objects, known by the order in which they were made. Each is in one place at most, so an iterator
over the queue is known by its event.
-/

namespace Sunstrider.Utilities

open Lib (multimapInsert)

inductive AbortState
  | running
  | abortScheduled
  | aborted
  deriving DecidableEq

structure BasicEvent where
  abortState : AbortState
  addTime : ℕ
  execTime : ℕ
  deriving DecidableEq

/-- A loop, or an event that it has called. -/
inductive EventFrame
  /-- `Update`, before a pass. -/
  | update (call : ℕ)
  /-- `Update`, in `Execute`. -/
  | execute (call event : ℕ)
  /-- `Update`, in `Abort`. -/
  | abort (call event : ℕ)
  /-- `KillAllEvents`, before a pass. -/
  | kill (call : ℕ) (force : Bool) (itr : Option ℕ)
  /-- `KillAllEvents`, in `Abort`. -/
  | killAbort (call : ℕ) (force : Bool) (event : ℕ)
  deriving DecidableEq

/-- An event is executed by an `Update`. -/
structure Execution where
  call : ℕ
  event : ℕ
  due : ℕ
  now : ℕ
  deriving DecidableEq

/-- What is remembered of a run. -/
inductive EventRecord
  | added (event : ℕ)
  | executed (execution : Execution)
  | aborted (event : ℕ)
  | deleted (event : ℕ)
  | cleared (events : List ℕ)
  /-- A pass of a loop, with a measure of what it has before it. -/
  | passed (loop : EventFrame) (left : ℕ)
  /-- `Update` returns. -/
  | returned (call now : ℕ) (events : List (ℕ × ℕ))
  deriving DecidableEq

inductive EventFault
  /-- An event is used that has been deleted. -/
  | freed
  /-- An iterator is used that its container has erased. -/
  | badIterator
  /-- The assertion of `ScheduleAbort` or of `SetAborted`. -/
  | assertion
  deriving DecidableEq

structure EventProcessor where
  time : ℕ
  events : List (ℕ × ℕ)
  /-- `m_aborting`, which nothing reads. -/
  aborting : Bool
  heap : ℕ → Option BasicEvent
  /-- How many events have been made. -/
  made : ℕ
  frames : List EventFrame
  /-- How many loops there have been. -/
  calls : ℕ
  log : List EventRecord

namespace EventProcessor

/-- The constructor. -/
def new : EventProcessor := ⟨0, [], false, fun _ => none, 0, [], 0, []⟩

variable (s : EventProcessor)

/-- The events of the queue. -/
def queued : List ℕ := s.events.map Prod.snd

/-! ## Events -/

/-- The constructor of an event. -/
def make : EventProcessor :=
  { s with heap := Function.update s.heap s.made (some ⟨.running, 0, 0⟩), made := s.made + 1 }

def find (event : ℕ) : Except EventFault BasicEvent :=
  match s.heap event with
  | none => .error .freed
  | some e => .ok e

def set (event : ℕ) (e : BasicEvent) : EventProcessor :=
  { s with heap := Function.update s.heap event (some e) }

/-- The `delete` of an event. -/
def delete (event : ℕ) : Except EventFault EventProcessor := do
  let _ ← s.find event
  .ok { s with heap := Function.update s.heap event none, log := s.log ++ [.deleted event] }

def scheduleAbort (event : ℕ) : Except EventFault EventProcessor := do
  let e ← s.find event
  if e.abortState = .running then .ok (s.set event { e with abortState := .abortScheduled })
  else .error .assertion

def setAborted (event : ℕ) : Except EventFault EventProcessor := do
  let e ← s.find event
  if e.abortState = .aborted then .error .assertion
  else .ok (s.set event { e with abortState := .aborted })

def addEvent (event eTime : ℕ) (setAddtime : Bool) : Except EventFault EventProcessor := do
  let e ← s.find event
  let addTime := if setAddtime then s.time else e.addTime
  .ok { s.set event { e with addTime, execTime := eTime } with
    events := multimapInsert s.events (eTime, event)
    log := s.log ++ [.added event] }

def modifyEventTime (event newTime : ℕ) : Except EventFault EventProcessor :=
  if event ∈ s.queued then do
    let e ← s.find event
    .ok { s.set event { e with execTime := newTime } with
      events := multimapInsert (s.events.eraseP (·.2 = event)) (newTime, event) }
  else .ok s

/-! ## How much is left -/

/-- The entries of the queue from an iterator on. -/
def fromItr (itr : Option ℕ) : List (ℕ × ℕ) :=
  match itr with
  | none => []
  | some event => s.events.dropWhile (·.2 ≠ event)

/-- How many entries are due. -/
def due : ℕ := s.events.countP (·.1 ≤ s.time)

/-- The event is there, and has not been aborted. -/
def isLive (event : ℕ) : Bool :=
  match s.heap event with
  | none => false
  | some e => e.abortState ≠ .aborted

/-- The measure of a loop: for `Update` what is due, for `KillAllEvents` what has not been aborted, and then
what the iterator has not come to. -/
def left : EventFrame → ℕ
  | .update _ | .execute _ _ | .abort _ _ => s.due
  | .kill _ _ itr => s.queued.countP s.isLive * (s.events.length + 1) + (s.fromItr itr).length
  | .killAbort _ _ _ => s.queued.countP s.isLive * (s.events.length + 1) + s.events.length

/-- A pass is remembered. -/
def pass (loop : EventFrame) : EventProcessor := { s with log := s.log ++ [.passed loop (s.left loop)] }

/-! ## `Update` -/

/-- The end of a pass of `Update` with an event that has been aborted. -/
def discard (event : ℕ) (isDeletable : Bool) : Except EventFault EventProcessor :=
  if isDeletable then s.delete event else s.addEvent event (s.time + 1) false

/-- A pass through the loop of `Update`, up to a call of the event. -/
def updatePass (call : ℕ) (frames : List EventFrame) (isDeletable : Bool) :
    Except EventFault EventProcessor :=
  match s.events with
  | [] => .ok { s with frames, log := s.log ++ [.returned call s.time s.events] }
  | (due, event) :: events =>
    if due ≤ s.time then do
      let s := { s with events }
      let e ← s.find event
      match e.abortState with
      | .running =>
        .ok { s with
          frames := .execute call event :: frames
          log := s.log ++ [.executed ⟨call, event, due, s.time⟩] }
      | .abortScheduled =>
        .ok { s with frames := .abort call event :: frames, log := s.log ++ [.aborted event] }
      | .aborted => s.discard event isDeletable
    else .ok { s with frames, log := s.log ++ [.returned call s.time s.events] }

/-! ## `KillAllEvents` -/

/-- The iterator behind that of an event. -/
def next (event : ℕ) : Option ℕ := (s.fromItr (some event)).tail.head?.map Prod.snd

/-- The end of a pass of `KillAllEvents`: the event is deleted, or it stays. -/
def killEvent (call : ℕ) (force : Bool) (event : ℕ) (frames : List EventFrame) (isDeletable : Bool) :
    Except EventFault EventProcessor :=
  if event ∈ s.queued then do
    let _ ← s.find event
    let frames := .kill call force (s.next event) :: frames
    if !force && !isDeletable then .ok { s with frames }
    else
      let s ← s.delete event
      .ok { s with events := if force then s.events else s.events.eraseP (·.2 = event), frames }
  else .error .badIterator

/-- A pass through the loop of `KillAllEvents`, up to a call of the event. -/
def killPass (call : ℕ) (force : Bool) (itr : Option ℕ) (frames : List EventFrame) (isDeletable : Bool) :
    Except EventFault EventProcessor :=
  match itr with
  | none =>
    if force then .ok { s with events := [], frames, log := s.log ++ [.cleared s.queued] }
    else .ok { s with frames }
  | some event => do
    let e ← s.find event
    if e.abortState = .aborted then s.killEvent call force event frames isDeletable
    else
      let s ← s.setAborted event
      .ok { s with frames := .killAbort call force event :: frames, log := s.log ++ [.aborted event] }

/-! ## Steps -/

inductive Op
  /-- An event is made. -/
  | make
  | addEvent (event eTime : ℕ)
  | modifyEventTime (event newTime : ℕ)
  | scheduleAbort (event : ℕ)
  | update (pTime : ℕ)
  | killAllEvents (force : Bool)
  /-- A loop makes a pass, or goes on with the answer of an event that it has called: of `Execute`, or of
  `IsDeletable`. -/
  | proceed (answer : Bool)
  deriving DecidableEq

def proceed (answer : Bool) : Except EventFault EventProcessor :=
  match s.frames with
  | [] => .ok s
  | .update call :: frames => (s.pass (.update call)).updatePass call frames answer
  | .execute call event :: frames => do
    let s ← if answer then s.delete event else .ok s
    .ok { s with frames := .update call :: frames }
  | .abort call event :: frames => do
    let s ← s.setAborted event
    let s ← s.discard event answer
    .ok { s with frames := .update call :: frames }
  | .kill call force itr :: frames =>
    (s.pass (.kill call force itr)).killPass call force itr frames answer
  | .killAbort call force event :: frames => s.killEvent call force event frames answer

/-- A loop is before a pass, and nothing else runs. -/
def inLoop : Bool :=
  match s.frames with
  | .update _ :: _ | .kill _ _ _ :: _ => true
  | _ => false

/-- One step: of a loop, of the event that has been called, or from outside where there is no loop. Events do
not call `Update`. -/
def step (s : EventProcessor) (op : Op) : Except EventFault EventProcessor :=
  match op with
  | .proceed answer => s.proceed answer
  | .make => .ok (if s.inLoop then s else s.make)
  | .addEvent event eTime => if s.inLoop then .ok s else s.addEvent event eTime true
  | .modifyEventTime event newTime => if s.inLoop then .ok s else s.modifyEventTime event newTime
  | .scheduleAbort event => if s.inLoop then .ok s else s.scheduleAbort event
  | .update pTime =>
    .ok <| if s.frames = [] then
      { s with time := s.time + pTime, frames := [.update s.calls], calls := s.calls + 1 }
    else s
  | .killAllEvents force =>
    .ok <| if s.inLoop then s
    else
      { s with
        aborting := true
        frames := .kill s.calls force (s.queued.head?) :: s.frames
        calls := s.calls + 1 }

end EventProcessor

end Sunstrider.Utilities
