import Mathlib.Data.List.Sort
import Mathlib.Logic.Function.Basic

/-!
# The task scheduler

`TaskScheduler.h` and `TaskScheduler.cpp`, as a machine of small steps: what a callable that runs does to
the scheduler is chosen anew at each step, and so is what the validator answers. `frames` is the stack of the
callables that run. Tasks are shared objects, and are known by the order in which they were made; so are
asynchronous callables.

Left out: what `Update` calls when it is done, which finds the scheduler as one from outside does, and
contexts that are used when their task does not run.
-/

namespace Sunstrider.Utilities

structure Task where
  /-- `_end`. -/
  endTime : ℕ
  duration : ℕ
  group : Option ℕ
  repeated : UInt32

namespace Task

def isInGroup (task : Task) (group : ℕ) : Bool := task.group = some group

end Task

structure TaskContext where
  task : ℕ
  consumed : Bool
  deriving DecidableEq

/-- A callable that runs, in the loop of an `Update`. -/
inductive Frame
  | async (update : ℕ)
  | task (update : ℕ) (context : TaskContext)
  deriving DecidableEq

/-- A task is invoked by an `Update`. -/
structure Invocation where
  update : ℕ
  task : ℕ
  due : ℕ
  now : ℕ
  deriving DecidableEq

/-- What is remembered of a run. -/
inductive TaskEvent
  | pushed (task : ℕ)
  | cancelled (tasks : List ℕ)
  | invoked (invocation : Invocation)
  | asyncInvoked (async : ℕ)
  deriving DecidableEq

inductive TaskFault
  /-- `pop` on an empty queue. -/
  | emptyPop
  /-- The assertion that a context has not been consumed. -/
  | badTaskLogic
  deriving DecidableEq

structure TaskScheduler where
  now : ℕ
  tasks : ℕ → Task
  /-- How many tasks have been made. -/
  made : ℕ
  taskHolder : List ℕ
  asyncHolder : List ℕ
  /-- How many asynchronous callables there have been. -/
  asyncs : ℕ
  /-- How many times `Update` has been called. -/
  updates : ℕ
  frames : List Frame
  log : List TaskEvent

namespace TaskScheduler

/-- The constructor. -/
def new (now : ℕ) : TaskScheduler := ⟨now, fun _ => ⟨0, 0, none, 0⟩, 0, [], [], 0, 0, [], []⟩

variable (s : TaskScheduler)

def endOf (task : ℕ) : ℕ := (s.tasks task).endTime

/-! ## The queue of the tasks -/

/-- The insertion into a multiset, behind the tasks that end at the same time. -/
def insert (task : ℕ) : TaskScheduler :=
  { s with taskHolder := s.taskHolder.orderedInsert (fun a b => s.endOf a < s.endOf b) task }

def insertTask (task : ℕ) : TaskScheduler :=
  { s.insert task with log := s.log ++ [.pushed task] }

def removeIf (filter : Task → Bool) : TaskScheduler :=
  { s with
    taskHolder := s.taskHolder.filter fun task => !filter (s.tasks task)
    log := s.log ++ [.cancelled (s.taskHolder.filter fun task => filter (s.tasks task))] }

/-- `ModifyIf`, by a filter that changes a task or passes it over: the changed ones leave the queue, and
come back in their old order. -/
def modifyIf (filter : Task → Option Task) : TaskScheduler :=
  let cache := s.taskHolder.filter fun task => (filter (s.tasks task)).isSome
  cache.foldl insert
    { s with
      tasks := fun task => if task ∈ cache then (filter (s.tasks task)).getD (s.tasks task) else s.tasks task
      taskHolder := s.taskHolder.filter fun task => (filter (s.tasks task)).isNone }

/-! ## What is asked of the scheduler -/

def scheduleAt («end» time : ℕ) (group : Option ℕ) : TaskScheduler :=
  insertTask
    { s with
      tasks := Function.update s.tasks s.made ⟨«end» + time, time, group, 0⟩
      made := s.made + 1 } s.made

/-- The time from which `Schedule` counts: the end of the task that runs, if it asks. -/
def start : ℕ :=
  match s.frames with
  | .task _ context :: _ => s.endOf context.task
  | _ => s.now

def async : TaskScheduler := { s with asyncHolder := s.asyncHolder ++ [s.asyncs], asyncs := s.asyncs + 1 }

def cancelAll : TaskScheduler :=
  { s with taskHolder := [], asyncHolder := [], log := s.log ++ [.cancelled s.taskHolder] }

def cancelGroup (group : ℕ) : TaskScheduler := s.removeIf (·.isInGroup group)

def cancelGroupsOf (groups : List ℕ) : TaskScheduler := groups.foldl cancelGroup s

/-- A filter for the tasks of a group. -/
def ofGroup (group : ℕ) (change : Task → Task) (task : Task) : Option Task :=
  if task.isInGroup group then some (change task) else none

def delayAll (duration : ℕ) : TaskScheduler :=
  s.modifyIf fun task => some { task with endTime := task.endTime + duration }

def delayGroup (group duration : ℕ) : TaskScheduler :=
  s.modifyIf (ofGroup group fun task => { task with endTime := task.endTime + duration })

def rescheduleAll (duration : ℕ) : TaskScheduler :=
  s.modifyIf fun task => some { task with endTime := s.now + duration }

def rescheduleGroup (group duration : ℕ) : TaskScheduler :=
  s.modifyIf (ofGroup group fun task => { task with endTime := s.now + duration })

/-- `SetGroup` and `ClearGroup` of the context of the task that runs. -/
def setGroup (group : Option ℕ) : TaskScheduler :=
  match s.frames with
  | .task _ context :: _ =>
    { s with tasks := Function.update s.tasks context.task { s.tasks context.task with group } }
  | _ => s

/-- `Repeat` of the context of the task that runs, with another duration or the same. -/
def repeatTask (duration : Option ℕ) : Except TaskFault TaskScheduler :=
  match s.frames with
  | .task update context :: frames =>
    if context.consumed then .error .badTaskLogic
    else
      let task := s.tasks context.task
      let duration := duration.getD task.duration
      .ok <| insertTask
        { s with
          tasks := Function.update s.tasks context.task
            { task with duration, endTime := task.endTime + duration, repeated := task.repeated + 1 }
          frames := .task update { context with consumed := true } :: frames } context.task
  | _ => .ok s

/-! ## Dispatching -/

/-- The head of the loop over the tasks. -/
def dispatchTasks (update : ℕ) : TaskScheduler :=
  match s.taskHolder with
  | [] => s
  | task :: rest =>
    if s.now < s.endOf task then s
    else
      { s with
        taskHolder := rest
        frames := .task update ⟨task, false⟩ :: s.frames
        log := s.log ++ [.invoked ⟨update, task, s.endOf task, s.now⟩] }

/-- The head of the loop over the asynchronous callables. -/
def dispatchAsyncs (update : ℕ) : TaskScheduler :=
  match s.asyncHolder with
  | [] => s.dispatchTasks update
  | callable :: _ =>
    { s with frames := .async update :: s.frames, log := s.log ++ [.asyncInvoked callable] }

/-- `Update`, up to the first callable. -/
def update (difftime : ℕ) (valid : Bool) : TaskScheduler :=
  let s' := { s with now := s.now + difftime, updates := s.updates + 1 }
  if valid then s'.dispatchAsyncs s.updates else s'

/-- The callable that runs is done, and `Dispatch` goes on. -/
def finish (valid : Bool) : Except TaskFault TaskScheduler :=
  match s.frames with
  | [] => .ok s
  | .async update :: frames =>
    match s.asyncHolder with
    | [] => .error .emptyPop
    | _ :: asyncHolder =>
      let s := { s with asyncHolder, frames }
      .ok (if valid then s.dispatchAsyncs update else s)
  | .task update _ :: frames =>
    let s := { s with frames }
    .ok (if valid then s.dispatchTasks update else s)

/-! ## Steps -/

inductive Op
  | schedule (time : ℕ) (group : Option ℕ)
  | async
  | cancelAll
  | cancelGroup (group : ℕ)
  | cancelGroupsOf (groups : List ℕ)
  | delayAll (duration : ℕ)
  | delayGroup (group duration : ℕ)
  | rescheduleAll (duration : ℕ)
  | rescheduleGroup (group duration : ℕ)
  | setGroup (group : Option ℕ)
  | repeatTask (duration : Option ℕ)
  /-- With the time that has passed since the last one. -/
  | update (difftime : ℕ) (valid : Bool)
  /-- The callable that runs is done. -/
  | finish (valid : Bool)

def inTask : Bool :=
  match s.frames with
  | .task _ _ :: _ => true
  | _ => false

/-- One step, of the callable that runs or from outside. A task has no `Update` in its context. -/
def step (s : TaskScheduler) : Op → Except TaskFault TaskScheduler
  | .schedule time group => .ok (s.scheduleAt s.start time group)
  | .async => .ok s.async
  | .cancelAll => .ok s.cancelAll
  | .cancelGroup group => .ok (s.cancelGroup group)
  | .cancelGroupsOf groups => .ok (s.cancelGroupsOf groups)
  | .delayAll duration => .ok (s.delayAll duration)
  | .delayGroup group duration => .ok (s.delayGroup group duration)
  | .rescheduleAll duration => .ok (s.rescheduleAll duration)
  | .rescheduleGroup group duration => .ok (s.rescheduleGroup group duration)
  | .setGroup group => .ok (s.setGroup group)
  | .repeatTask duration => s.repeatTask duration
  | .update difftime valid => .ok (if s.inTask then s else s.update difftime valid)
  | .finish valid => s.finish valid

end TaskScheduler

end Sunstrider.Utilities
