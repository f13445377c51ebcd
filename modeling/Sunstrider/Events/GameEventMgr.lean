import Sunstrider.Lib.Word

/-!
# Game events

`GameEventMgr.cpp`: which events are active at a time, and when they are looked at again. Times are in
seconds, the length of an event and its occurence in minutes, whose seconds are unsigned words. A
remainder by such a word that is 0 is a fault, and answers `none`.

The conditions of an event, and what an event spawns, are left out.
-/

namespace Sunstrider.Events

open Sunstrider.Lib (mulU32 toU32)

def maxGeCheckDelay : ℕ := 86400

def minute : ℕ := 60

inductive GameEventState
  | normal
  | worldInactive
  | worldConditions
  | worldNextphase
  | worldFinished
  | internal
  deriving DecidableEq

/-- `GameEventData`. Its `end` is `endTime` here. The prerequisite events are those that must be completed before this one. -/
structure GameEventData where
  start : ℤ
  endTime : ℤ
  nextstart : ℤ
  occurence : ℕ
  length : ℕ
  state : GameEventState
  prerequisiteEvents : List ℕ

/-- A remainder by a word. -/
def remainder (x : ℤ) (n : ℕ) : Option ℤ := if n = 0 then none else some (x.tmod n)

namespace GameEventData

variable (e : GameEventData)

/-- `occurence * MINUTE` and `length * MINUTE`. -/
def occurenceSeconds : ℕ := mulU32 e.occurence minute

def lengthSeconds : ℕ := mulU32 e.length minute

/-- `GameEventMgr::CheckOneGameEvent`, with the other events by their numbers. -/
def checkOneGameEvent (mGameEvent : ℕ → GameEventData) (currenttime : ℤ) : Option Bool :=
  match e.state with
  | .normal =>
    if e.start < currenttime ∧ currenttime < e.endTime then
      (remainder (currenttime - e.start) e.occurenceSeconds).map fun (r : ℤ) => decide (r < e.lengthSeconds)
    else some false
  | .worldConditions | .worldNextphase => some true
  | .worldFinished | .internal => some false
  | .worldInactive =>
    some (e.prerequisiteEvents.all (fun itr =>
        ((mGameEvent itr).state = .worldNextphase || (mGameEvent itr).state = .worldFinished) &&
          decide ((mGameEvent itr).nextstart ≤ currenttime)) &&
      !e.prerequisiteEvents.isEmpty)

/-- `GameEventMgr::NextCheck`: the seconds until the event is to be looked at again. -/
def nextCheck (currenttime : ℤ) : Option ℕ :=
  if (e.state = .worldNextphase ∨ e.state = .worldFinished) ∧ currenttime ≤ e.nextstart then
    some (toU32 (e.nextstart - currenttime))
  else if e.state = .worldConditions then
    some (if e.length ≠ 0 then e.lengthSeconds else maxGeCheckDelay)
  else if e.endTime < currenttime then some maxGeCheckDelay
  else if currenttime < e.start then some (toU32 (e.start - currenttime))
  else
    (remainder (currenttime - e.start) e.occurenceSeconds).map fun (r : ℤ) =>
      let delay := toU32 (if r < e.lengthSeconds then e.lengthSeconds - r else e.occurenceSeconds - r)
      if e.endTime < currenttime + delay then toU32 (e.endTime - currenttime) else delay

end GameEventData

end Sunstrider.Events
