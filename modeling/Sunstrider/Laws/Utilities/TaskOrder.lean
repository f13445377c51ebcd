import Sunstrider.Laws.Utilities.TaskQueue
import Sunstrider.Lib.Run

/-!
# The order of the tasks

A task that runs, and every task in the queue, ends no sooner than those that the same `Update` has invoked
before (`Low`). No callable can undo this, for what it schedules, delays or reschedules ends no sooner
than the task that runs, or now. The loop over the asynchronous callables is another matter: the one that
runs is still at the front of its queue.
-/

namespace Sunstrider.Utilities

open Lib

/-- The `Update` in whose loop the callable runs. -/
def Frame.update : Frame → ℕ
  | .async update => update
  | .task update _ => update

namespace TaskScheduler

variable {s : TaskScheduler}

/-- The tasks that have been invoked. -/
def invocations (log : List TaskEvent) : List Invocation :=
  log.filterMap fun
    | .invoked invocation => some invocation
    | _ => none

/-- The asynchronous callables that have been invoked. -/
def asyncsInvoked (log : List TaskEvent) : List ℕ :=
  log.filterMap fun
    | .asyncInvoked callable => some callable
    | _ => none

/-- What is asked of the scheduler at each moment: the queue is in order, each task was due when it was
invoked, the tasks of one `Update` were due in the order in which they were invoked, each was pending then,
and asynchronous callables were invoked in their order, and at most once. -/
structure Orderly (s : TaskScheduler) : Prop where
  sorted : s.taskHolder.Pairwise fun a b => s.endOf a ≤ s.endOf b
  onTime : ∀ i ∈ invocations s.log, i.due ≤ i.now
  inOrder : (invocations s.log).Pairwise fun i j => i.update = j.update → i.due ≤ j.due
  once : Matched Pushes Ends s.log
  asyncs : (asyncsInvoked s.log).Pairwise (· < ·)

/-- The callable that runs is an asynchronous one. -/
def inAsync (s : TaskScheduler) : Bool :=
  match s.frames with
  | .async _ :: _ => true
  | _ => false

/-- The asynchronous callables that have not been invoked. -/
def waiting (s : TaskScheduler) : List ℕ := if s.inAsync then s.asyncHolder.tail else s.asyncHolder

/-- The time is no later than now, and no task that is in the queue or runs ends before it. -/
structure Low (s : TaskScheduler) (time : ℕ) : Prop where
  now : time ≤ s.now
  queue : ∀ task ∈ s.taskHolder, time ≤ s.endOf task
  runs : ∀ update context, .task update context ∈ s.frames → time ≤ s.endOf context.task

/-- What holds as long as asynchronous callables do not touch the queue that they are in. -/
structure Good (s : TaskScheduler) : Prop where
  queued : s.Queued
  onTime : ∀ i ∈ invocations s.log, i.due ≤ i.now
  inOrder : (invocations s.log).Pairwise fun i j => i.update = j.update → i.due ≤ j.due
  numbered : ∀ i ∈ invocations s.log, i.update < s.updates
  single : s.frames.length ≤ 1
  counted : ∀ frame ∈ s.frames, frame.update < s.updates
  floor : ∀ frame ∈ s.frames, ∀ i ∈ invocations s.log, i.update = frame.update → s.Low i.due
  running : ∀ update context, .task update context ∈ s.frames →
    context.task < s.made ∧ (context.consumed = false → context.task ∉ s.taskHolder)
  asyncs : (asyncsInvoked s.log ++ s.waiting).Pairwise (· < ·)
  given : ∀ callable ∈ asyncsInvoked s.log ++ s.waiting, callable < s.asyncs
  held : s.inAsync = true → s.asyncHolder ≠ []

theorem Good.orderly (h : s.Good) : s.Orderly where
  sorted := h.queued.sorted
  onTime := h.onTime
  inOrder := h.inOrder
  once := h.queued.matched
  asyncs := (List.pairwise_append.mp h.asyncs).1

theorem good_new (now : ℕ) : (new now).Good where
  queued := queued_new now
  onTime _ h := nomatch h
  inOrder := List.Pairwise.nil
  numbered _ h := nomatch h
  single := Nat.zero_le 1
  counted _ h := nomatch h
  floor _ h := nomatch h
  running _ _ h := nomatch h
  asyncs := List.Pairwise.nil
  given _ h := nomatch h
  held h := nomatch h

/-! ## Changes while a callable runs -/

/-- A step that leaves the loops where they are. -/
structure Stays (s s' : TaskScheduler) : Prop where
  invocations : invocations s'.log = invocations s.log
  asyncsInvoked : asyncsInvoked s'.log = asyncsInvoked s.log
  asyncHolder : s'.asyncHolder = s.asyncHolder
  asyncs : s'.asyncs = s.asyncs
  updates : s.updates ≤ s'.updates
  frames : s'.frames.map Frame.update = s.frames.map Frame.update
  inAsync : s'.inAsync = s.inAsync

variable {s' : TaskScheduler}

theorem Stays.waiting (h : s.Stays s') : s'.waiting = s.waiting := by
  rw [TaskScheduler.waiting, h.inAsync, h.asyncHolder, TaskScheduler.waiting]

theorem Good.stays (h : s.Good) (hstays : s.Stays s') (hqueued : s'.Queued)
    (hlow : ∀ time, s.Low time → s'.Low time)
    (hrunning : ∀ update context, .task update context ∈ s'.frames →
      context.task < s'.made ∧ (context.consumed = false → context.task ∉ s'.taskHolder)) :
    s'.Good where
  queued := hqueued
  onTime := by
    rw [hstays.invocations]
    exact h.onTime
  inOrder := by
    rw [hstays.invocations]
    exact h.inOrder
  numbered i hi := by
    rw [hstays.invocations] at hi
    exact (h.numbered i hi).trans_le hstays.updates
  single := by
    have hlength := congrArg List.length hstays.frames
    rw [List.length_map, List.length_map] at hlength
    rw [hlength]
    exact h.single
  counted frame hframe := by
    have hmem := List.mem_map_of_mem (f := Frame.update) hframe
    rw [hstays.frames] at hmem
    obtain ⟨frame', hframe', heq⟩ := List.mem_map.mp hmem
    rw [← heq]
    exact (h.counted frame' hframe').trans_le hstays.updates
  floor frame hframe i hi hupdate := by
    have hmem := List.mem_map_of_mem (f := Frame.update) hframe
    rw [hstays.frames] at hmem
    obtain ⟨frame', hframe', heq⟩ := List.mem_map.mp hmem
    rw [hstays.invocations] at hi
    exact hlow i.due (h.floor frame' hframe' i hi (hupdate.trans heq.symm))
  running := hrunning
  asyncs := by
    rw [hstays.asyncsInvoked, hstays.waiting]
    exact h.asyncs
  given := by
    rw [hstays.asyncsInvoked, hstays.waiting, hstays.asyncs]
    exact h.given
  held := by
    rw [hstays.inAsync, hstays.asyncHolder]
    exact h.held

theorem Good.removeIf (h : s.Good) (filter : Task → Bool) : (s.removeIf filter).Good := by
  refine h.stays ⟨?_, ?_, rfl, rfl, le_rfl, rfl, rfl⟩ (h.queued.removeIf filter) (fun time hlow => ?_)
    fun update context hframe => ?_
  · simp [TaskScheduler.removeIf, invocations]
  · simp [TaskScheduler.removeIf, asyncsInvoked]
  · exact ⟨hlow.now, fun task htask => hlow.queue task (List.mem_of_mem_filter htask), hlow.runs⟩
  · obtain ⟨hmade, hnot⟩ := h.running update context hframe
    exact ⟨hmade, fun hconsumed htask => hnot hconsumed (List.mem_of_mem_filter htask)⟩

theorem Good.cancelGroupsOf (h : s.Good) (groups : List ℕ) : (s.cancelGroupsOf groups).Good :=
  foldl_keeps (fun _ group h => h.removeIf (·.isInGroup group)) groups h

/-- Ends are changed, and none to a time that is sooner than both the old end and now. -/
theorem Good.modifyIf (h : s.Good) {filter : Task → Option Task}
    (hfilter : ∀ task task', filter task = some task' →
      task.endTime ≤ task'.endTime ∨ s.now ≤ task'.endTime) : (s.modifyIf filter).Good := by
  have hqueued := h.queued.modifyIf filter
  obtain ⟨tasks, taskHolder, heq, hperm, -, htasks⟩ := modifyIf_eq filter h.queued.sorted
  rw [heq] at hqueued ⊢
  have hend : ∀ time, s.Low time → ∀ task, time ≤ s.endOf task → time ≤ (tasks task).endTime := by
    intro time hlow task htime
    obtain hsame | ⟨-, hsome⟩ := htasks task
    · rw [hsame]
      exact htime
    · exact (hfilter _ _ hsome).elim htime.trans hlow.now.trans
  refine h.stays ⟨rfl, rfl, rfl, rfl, le_rfl, rfl, rfl⟩ hqueued (fun time hlow => ?_)
    fun update context hframe => ?_
  · exact ⟨hlow.now, fun task htask => hend time hlow task (hlow.queue task (hperm.mem_iff.mp htask)),
      fun update context hframe => hend time hlow _ (hlow.runs update context hframe)⟩
  · obtain ⟨hmade, hnot⟩ := h.running update context hframe
    exact ⟨hmade, fun hconsumed htask => hnot hconsumed (hperm.mem_iff.mp htask)⟩

/-- A filter for a group changes a task as the change does. -/
theorem ofGroup_eq_some {group : ℕ} {change : Task → Task} {task task' : Task}
    (h : ofGroup group change task = some task') : task' = change task := by
  rw [ofGroup] at h
  split at h
  · exact (Option.some.inj h).symm
  · exact nomatch h

theorem endOf_insertTask (task k : ℕ) : (s.insertTask task).endOf k = s.endOf k := rfl

/-- No task that runs ends before a low time, and a new task counts from the end of one, or from now. -/
theorem Low.start {time : ℕ} (h : s.Low time) : time ≤ s.start := by
  rw [TaskScheduler.start]
  split
  · next update context frames hframes =>
    exact h.runs update context (by rw [hframes]; exact List.mem_cons_self)
  · exact h.now

/-- **The rule for what is pushed**: a task that is not in the queue, made anew or changed, and that ends no
sooner than what is low. -/
theorem Good.push (h : s.Good) {task : ℕ} (hnew : task ∉ s.taskHolder) (htask : task < s'.made)
    (hstays : s.Stays s') (hnow : s'.now = s.now) (hmade : s.made ≤ s'.made)
    (hholder : s'.taskHolder = s.taskHolder) (hlog : s'.log = s.log)
    (hend : ∀ k < s.made, k ≠ task → s'.endOf k = s.endOf k)
    (hlow : ∀ time, s.Low time → time ≤ s'.endOf task)
    (hruns : ∀ update context, .task update context ∈ s'.frames →
      ∃ context', .task update context' ∈ s.frames ∧ context'.task = context.task ∧
        (context.consumed = false → context'.consumed = false ∧ context.task ≠ task)) :
    (s'.insertTask task).Good := by
  have hqueue : ∀ k ∈ s.taskHolder, s'.endOf k = s.endOf k := fun k hk =>
    hend k (h.queued.made k hk) fun heq => hnew (heq ▸ hk)
  refine h.stays ⟨?_, ?_, hstays.asyncHolder, hstays.asyncs, hstays.updates, hstays.frames,
    hstays.inAsync⟩ ?_ (fun time htime => ⟨?_, fun k hk => ?_, fun update context hframe => ?_⟩)
    fun update context hframe => ?_
  · simp [insertTask, insert, invocations, hlog]
  · simp [insertTask, insert, asyncsInvoked, hlog]
  · exact (h.queued.congr hmade hholder hlog hqueue).insertTask htask (by rw [hholder]; exact hnew)
  · exact htime.now.trans_eq hnow.symm
  · rw [endOf_insertTask]
    rw [mem_insertTask, hholder] at hk
    obtain rfl | hk := hk
    · exact hlow time htime
    · rw [hqueue k hk]
      exact htime.queue k hk
  · rw [endOf_insertTask]
    obtain ⟨context', hframe', heq, -⟩ := hruns update context hframe
    by_cases hk : context.task = task
    · rw [hk]
      exact hlow time htime
    · rw [hend _ (heq ▸ (h.running update context' hframe').1) hk, ← heq]
      exact htime.runs update context' hframe'
  · obtain ⟨context', hframe', heq, hfresh⟩ := hruns update context hframe
    obtain ⟨hlt, hnot⟩ := h.running update context' hframe'
    rw [heq] at hlt hnot
    refine ⟨hlt.trans_le hmade, fun hconsumed hmem => ?_⟩
    obtain ⟨hconsumed', hne⟩ := hfresh hconsumed
    rw [mem_insertTask, hholder] at hmem
    exact hmem.elim hne (hnot hconsumed')

theorem Good.schedule (h : s.Good) (time : ℕ) (group : Option ℕ) :
    (s.scheduleAt s.start time group).Good := by
  have hnew : s.made ∉ s.taskHolder := fun hmem => (h.queued.made _ hmem).ne rfl
  refine h.push hnew (Nat.lt_succ_self s.made) ⟨rfl, rfl, rfl, rfl, le_rfl, rfl, rfl⟩ rfl
    (Nat.le_succ s.made) rfl rfl (fun k _ hne => ?_) (fun low hlow => ?_) fun update context hframe => ?_
  · exact congrArg Task.endTime (Function.update_of_ne hne _ _)
  · rw [endOf]
    dsimp only
    rw [Function.update_self]
    exact hlow.start.trans (Nat.le_add_right _ _)
  · exact ⟨context, hframe, rfl, fun hconsumed => ⟨hconsumed, (h.running update context hframe).1.ne⟩⟩

theorem Good.setGroup (h : s.Good) (group : Option ℕ) : (s.setGroup group).Good := by
  rw [TaskScheduler.setGroup]
  split
  · next update context frames hframes =>
    have hend : ∀ task, (Function.update s.tasks context.task
        { s.tasks context.task with group } task).endTime = s.endOf task := by
      intro task
      rw [Function.update_apply]
      split_ifs with htask
      · rw [htask, endOf]
      · rfl
    refine h.stays ⟨rfl, rfl, rfl, rfl, le_rfl, rfl, rfl⟩
      (h.queued.congr le_rfl rfl rfl fun task _ => hend task) (fun time hlow => ?_) h.running
    refine ⟨hlow.now, fun task htask => ?_, fun update context hframe => ?_⟩
    · rw [endOf, hend]
      exact hlow.queue task htask
    · rw [endOf, hend]
      exact hlow.runs update context hframe
  · exact h

theorem Good.repeatTask (h : s.Good) (duration : Option ℕ)
    (hconsumed : ∀ update context, s.frames.head? = some (.task update context) →
      context.consumed = false) :
    Yields (s.repeatTask duration) Good := by
  rw [TaskScheduler.repeatTask]
  split
  · next update context frames hframes =>
    have hfresh := hconsumed update context (by rw [hframes]; rfl)
    obtain rfl : frames = [] := by
      have hsingle := h.single
      rw [hframes, List.length_cons] at hsingle
      exact List.length_eq_zero_iff.mp (by omega)
    have hmem : Frame.task update context ∈ s.frames := by
      rw [hframes]
      exact List.mem_cons_self
    obtain ⟨hmade, hnot⟩ := h.running update context hmem
    rw [hfresh, if_neg Bool.false_ne_true]
    dsimp only
    obtain ⟨task', htask'⟩ : ∃ task' : Task, task' =
      { s.tasks context.task with
        duration := duration.getD (s.tasks context.task).duration
        endTime := (s.tasks context.task).endTime + duration.getD (s.tasks context.task).duration
        repeated := (s.tasks context.task).repeated + 1 } := ⟨_, rfl⟩
    have hend : s.endOf context.task ≤ task'.endTime := by
      rw [htask']
      exact Nat.le_add_right _ _
    rw [← htask']
    refine .ok (h.push (hnot hfresh) hmade ⟨rfl, rfl, rfl, rfl, le_rfl, ?_, ?_⟩ rfl le_rfl rfl rfl
      (fun k _ hne => ?_) (fun time hlow => ?_) fun update' context' hframe => ?_)
    · rw [hframes]
      rfl
    · rw [inAsync, inAsync, hframes]
    · exact congrArg Task.endTime (Function.update_of_ne hne _ _)
    · rw [endOf]
      dsimp only
      rw [Function.update_self]
      exact (hlow.runs update context hmem).trans hend
    · cases List.mem_singleton.mp hframe
      exact ⟨context, hmem, rfl, fun hfalse => nomatch hfalse⟩
  · exact .ok h

/-! ## Asynchronous callables -/

theorem Good.async (h : s.Good) : s.async.Good := by
  have hwaiting : s.async.waiting = s.waiting ++ [s.asyncs] := by
    rw [waiting, waiting]
    show (if s.inAsync then (s.asyncHolder ++ [s.asyncs]).tail else s.asyncHolder ++ [s.asyncs]) = _
    split
    · next hin => exact List.tail_append_of_ne_nil (h.held hin)
    · rfl
  refine ⟨h.queued.congr le_rfl rfl rfl fun _ _ => rfl, h.onTime, h.inOrder, h.numbered, h.single,
    h.counted, fun frame hframe i hi hupdate => ?_, h.running, ?_, ?_, fun _ => ?_⟩
  · obtain ⟨hnow, hqueue, hruns⟩ := h.floor frame hframe i hi hupdate
    exact ⟨hnow, hqueue, hruns⟩
  · rw [hwaiting, ← List.append_assoc]
    refine List.pairwise_append.mpr ⟨h.asyncs, List.pairwise_singleton _ _, fun c hc c' hc' => ?_⟩
    rw [List.mem_singleton.mp hc']
    exact h.given c hc
  · rw [hwaiting, ← List.append_assoc]
    refine List.forall_mem_append.mpr ⟨fun c hc => (h.given c hc).trans (Nat.lt_succ_self _), ?_⟩
    exact fun c hc => (List.mem_singleton.mp hc).trans_lt (Nat.lt_succ_self _)
  · exact List.append_ne_nil_of_right_ne_nil _ (List.cons_ne_nil _ _)

/-- Not the asynchronous callable that runs, but any other one and any task may cancel all. -/
theorem Good.cancelAll (h : s.Good) (hin : s.inAsync = false) : s.cancelAll.Good := by
  have hqueued : s.cancelAll.Queued := by
    have hall := h.queued.filter fun _ => true
    simp only [Bool.not_true, List.filter_false, List.filter_true] at hall
    exact hall.congr le_rfl rfl rfl fun _ _ => rfl
  have hinvocations : invocations s.cancelAll.log = invocations s.log := by
    simp [TaskScheduler.cancelAll, invocations]
  have hasyncs : asyncsInvoked s.cancelAll.log ++ s.cancelAll.waiting = asyncsInvoked s.log := by
    show (asyncsInvoked (s.log ++ _) ++ if s.inAsync then _ else []) = _
    simp [hin, asyncsInvoked]
  refine ⟨hqueued, ?_, ?_, ?_, h.single, h.counted, fun frame hframe i hi hupdate => ?_,
    fun update context hframe => ⟨(h.running update context hframe).1, fun _ hmem => nomatch hmem⟩,
    ?_, ?_, fun hin' => ?_⟩
  · rw [hinvocations]
    exact h.onTime
  · rw [hinvocations]
    exact h.inOrder
  · rw [hinvocations]
    exact h.numbered
  · rw [hinvocations] at hi
    obtain ⟨hnow, -, hruns⟩ := h.floor frame hframe i hi hupdate
    exact ⟨hnow, fun _ hmem => (nomatch hmem), hruns⟩
  · rw [hasyncs]
    exact (List.pairwise_append.mp h.asyncs).1
  · rw [hasyncs]
    exact fun c hc => h.given c (List.mem_append_left _ hc)
  · exact absurd (hin.symm.trans hin') Bool.false_ne_true

/-! ## Dispatching -/

/-- The loops of an `Update` are not in a callable, and what it has invoked is low. -/
structure Between (s : TaskScheduler) (update : ℕ) : Prop where
  good : s.Good
  frames : s.frames = []
  counted : update < s.updates
  floor : ∀ i ∈ invocations s.log, i.update = update → s.Low i.due

theorem Between.dispatchTasks {update : ℕ} (h : s.Between update) : (s.dispatchTasks update).Good := by
  rw [TaskScheduler.dispatchTasks]
  split
  · exact h.good
  · next task rest hholder =>
    split
    · exact h.good
    · next hdue =>
      have hmem : task ∈ s.taskHolder := by
        rw [hholder]
        exact List.mem_cons_self
      have hrest : ∀ k ∈ rest, k ∈ s.taskHolder := fun k hk => by
        rw [hholder]
        exact List.mem_cons_of_mem task hk
      obtain ⟨hnot, -⟩ : task ∉ rest ∧ rest.Nodup := by
        have hnodup := h.good.queued.nodup
        rw [hholder] at hnodup
        exact List.nodup_cons.mp hnodup
      have hfirst : ∀ k ∈ rest, s.endOf task ≤ s.endOf k := by
        have hsorted := h.good.queued.sorted
        rw [hholder] at hsorted
        exact (List.pairwise_cons.mp hsorted).1
      have hinvocations : invocations (s.log ++ [.invoked ⟨update, task, s.endOf task, s.now⟩]) =
          invocations s.log ++ [⟨update, task, s.endOf task, s.now⟩] := by
        simp [invocations]
      have hasyncs : asyncsInvoked (s.log ++ [.invoked ⟨update, task, s.endOf task, s.now⟩]) =
          asyncsInvoked s.log := by
        simp [asyncsInvoked]
      have hwaiting : s.waiting = s.asyncHolder := by
        rw [waiting, inAsync, h.frames]
        rfl
      refine ⟨?_, ?_, ?_, ?_, ?_, ?_, ?_, ?_, ?_, ?_, fun hin => (nomatch hin)⟩
      · exact (h.good.queued.invoke hholder rfl).congr le_rfl rfl rfl fun _ _ => rfl
      · rw [hinvocations]
        refine List.forall_mem_append.mpr ⟨h.good.onTime, fun i hi => ?_⟩
        rw [List.mem_singleton.mp hi]
        exact not_lt.mp hdue
      · rw [hinvocations]
        refine List.pairwise_append.mpr ⟨h.good.inOrder, List.pairwise_singleton _ _, ?_⟩
        intro i hi j hj hupdate
        rw [List.mem_singleton.mp hj] at hupdate ⊢
        exact (h.floor i hi hupdate).queue task hmem
      · rw [hinvocations]
        refine List.forall_mem_append.mpr ⟨h.good.numbered, fun i hi => ?_⟩
        rw [List.mem_singleton.mp hi]
        exact h.counted
      · rw [h.frames]
        exact le_rfl
      · rw [h.frames]
        intro frame hframe
        rw [List.mem_singleton.mp hframe]
        exact h.counted
      · rw [hinvocations, h.frames]
        intro frame hframe i hi hupdate
        rw [List.mem_singleton.mp hframe] at hupdate
        -- What was invoked before was low, and so is the end of the first task of the queue.
        have hlow : i.due ≤ s.now ∧ (∀ k ∈ rest, i.due ≤ s.endOf k) ∧ i.due ≤ s.endOf task := by
          obtain hi | hi := List.mem_append.mp hi
          · have hlow := h.floor i hi hupdate
            exact ⟨hlow.now, fun k hk => hlow.queue k (hrest k hk), hlow.queue task hmem⟩
          · rw [List.mem_singleton.mp hi]
            exact ⟨not_lt.mp hdue, hfirst, le_rfl⟩
        refine ⟨hlow.1, hlow.2.1, fun update' context hframe' => ?_⟩
        cases List.mem_singleton.mp hframe'
        exact hlow.2.2
      · rw [h.frames]
        intro update' context hframe
        cases List.mem_singleton.mp hframe
        exact ⟨h.good.queued.made task hmem, fun _ => hnot⟩
      · rw [hasyncs]
        show (asyncsInvoked s.log ++ s.asyncHolder).Pairwise (· < ·)
        rw [← hwaiting]
        exact h.good.asyncs
      · rw [hasyncs]
        show ∀ callable ∈ asyncsInvoked s.log ++ s.asyncHolder, callable < s.asyncs
        rw [← hwaiting]
        exact h.good.given

theorem Between.dispatchAsyncs {update : ℕ} (h : s.Between update) : (s.dispatchAsyncs update).Good := by
  rw [TaskScheduler.dispatchAsyncs]
  split
  · exact h.dispatchTasks
  · next callable rest hholder =>
    have hinvocations : invocations (s.log ++ [.asyncInvoked callable]) = invocations s.log := by
      simp [invocations]
    have hwaiting : asyncsInvoked (s.log ++ [.asyncInvoked callable]) ++ rest =
        asyncsInvoked s.log ++ s.waiting := by
      rw [waiting, inAsync, h.frames]
      simp [asyncsInvoked, hholder]
    have hrest : s.asyncHolder.tail = rest := by
      rw [hholder]
      rfl
    refine ⟨?_, ?_, ?_, ?_, ?_, ?_, ?_, ?_, ?_, ?_, fun _ => ?_⟩
    · have hqueued := h.good.queued.log_concat (e := .asyncInvoked callable) (fun _ hk => hk) fun _ hk => hk
      exact hqueued.congr le_rfl rfl rfl fun _ _ => rfl
    · rw [hinvocations]
      exact h.good.onTime
    · rw [hinvocations]
      exact h.good.inOrder
    · rw [hinvocations]
      exact h.good.numbered
    · rw [h.frames]
      exact le_rfl
    · rw [h.frames]
      intro frame hframe
      rw [List.mem_singleton.mp hframe]
      exact h.counted
    · rw [hinvocations, h.frames]
      intro frame hframe i hi hupdate
      rw [List.mem_singleton.mp hframe] at hupdate
      obtain ⟨hnow, hqueue, -⟩ := h.floor i hi hupdate
      exact ⟨hnow, hqueue, fun _ _ hframe => nomatch List.mem_singleton.mp hframe⟩
    · rw [h.frames]
      exact fun _ _ hframe => nomatch List.mem_singleton.mp hframe
    · show (asyncsInvoked (s.log ++ [.asyncInvoked callable]) ++ s.asyncHolder.tail).Pairwise (· < ·)
      rw [hrest, hwaiting]
      exact h.good.asyncs
    · show ∀ c ∈ asyncsInvoked (s.log ++ [.asyncInvoked callable]) ++ s.asyncHolder.tail, c < s.asyncs
      rw [hrest, hwaiting]
      exact h.good.given
    · rw [hholder]
      exact List.cons_ne_nil _ _

/-- `Update` from outside, or from an asynchronous callable where the validator ends it at once. -/
theorem Good.update (h : s.Good) (hin : s.inTask = false) (difftime : ℕ) {valid : Bool}
    (hvalid : s.inAsync = true → valid = false) : (s.update difftime valid).Good := by
  have hlater : Good { s with now := s.now + difftime, updates := s.updates + 1 } := by
    refine h.stays ⟨rfl, rfl, rfl, rfl, Nat.le_succ _, rfl, rfl⟩
      (h.queued.congr le_rfl rfl rfl fun _ _ => rfl) (fun time hlow => ?_) h.running
    exact ⟨hlow.now.trans (Nat.le_add_right _ _), hlow.queue, hlow.runs⟩
  cases valid with
  | false => exact hlater
  | true =>
    have hframes : s.frames = [] := by
      cases hframes : s.frames with
      | nil => rfl
      | cons frame frames =>
        rw [inAsync, hframes] at hvalid
        rw [inTask, hframes] at hin
        cases frame with
        | async _ => exact nomatch hvalid rfl
        | task _ _ => exact nomatch hin
    exact Between.dispatchAsyncs ⟨hlater, hframes, Nat.lt_succ_self _, fun i hi heq =>
      absurd heq (h.numbered i hi).ne⟩

theorem Good.leave (h : s.Good) {frame : Frame} (hframes : s.frames = [frame]) :
    Between { s with asyncHolder := s.waiting, frames := [] } frame.update := by
  have hmem : frame ∈ s.frames := by
    rw [hframes]
    exact List.mem_cons_self
  refine ⟨⟨h.queued.congr le_rfl rfl rfl fun _ _ => rfl, h.onTime, h.inOrder, h.numbered, Nat.zero_le 1,
    fun _ hframe => (nomatch hframe), fun _ hframe => (nomatch hframe), fun _ _ hframe => (nomatch hframe),
    h.asyncs, h.given, fun hin => (nomatch hin)⟩, rfl, h.counted frame hmem, fun i hi hupdate => ?_⟩
  obtain ⟨hnow, hqueue, -⟩ := h.floor frame hmem i hi hupdate
  exact ⟨hnow, hqueue, fun _ _ hframe => nomatch hframe⟩

theorem Good.finish (h : s.Good) (valid : Bool) : Yields (s.finish valid) Good := by
  have hsingle : ∀ {frame frames}, s.frames = frame :: frames → frames = [] := by
    intro frame frames hframes
    have hlength := h.single
    rw [hframes, List.length_cons] at hlength
    exact List.length_eq_zero_iff.mp (by omega)
  rw [TaskScheduler.finish]
  split
  · exact .ok h
  · next update frames hframes =>
    obtain rfl := hsingle hframes
    have hin : s.inAsync = true := by rw [inAsync, hframes]
    have hleave := h.leave hframes
    rw [waiting, if_pos hin] at hleave
    cases hholder : s.asyncHolder with
    | nil => exact absurd hholder (h.held hin)
    | cons callable rest =>
      rw [hholder] at hleave
      cases valid with
      | false => exact .ok hleave.good
      | true => exact .ok hleave.dispatchAsyncs
  · next update context frames hframes =>
    obtain rfl := hsingle hframes
    have hin : s.inAsync = false := by rw [inAsync, hframes]
    have hleave := h.leave hframes
    rw [waiting, hin] at hleave
    cases valid with
    | false => exact .ok hleave.good
    | true => exact .ok hleave.dispatchTasks

/-! ## Runs -/

/-- An operation meets this condition where no asynchronous callable cancels all or updates the scheduler,
unless the validator ends that `Update` at once. A context is not repeated twice. -/
def Careful (s : TaskScheduler) : Op → Prop
  | .cancelAll => s.inAsync = false
  | .update _ valid => s.inAsync = true → valid = false
  | .repeatTask _ => ∀ update context, s.frames.head? = some (.task update context) →
      context.consumed = false
  | _ => True

/-- **A careful step keeps the tasks in order.** -/
theorem Good.step (h : s.Good) {op : Op} (hop : s.Careful op) : Yields (s.step op) Good := by
  cases op with
  | schedule time group => exact .ok (h.schedule time group)
  | async => exact .ok h.async
  | cancelAll => exact .ok (h.cancelAll hop)
  | cancelGroup group => exact .ok (h.removeIf _)
  | cancelGroupsOf groups => exact .ok (h.cancelGroupsOf groups)
  | delayAll duration =>
    refine .ok (h.modifyIf fun task task' hsome => .inl ?_)
    rw [← Option.some.inj hsome]
    exact Nat.le_add_right _ _
  | delayGroup group duration =>
    refine .ok (h.modifyIf fun task task' hsome => .inl ?_)
    rw [ofGroup_eq_some hsome]
    exact Nat.le_add_right _ _
  | rescheduleAll duration =>
    refine .ok (h.modifyIf fun task task' hsome => .inr ?_)
    rw [← Option.some.inj hsome]
    exact Nat.le_add_right _ _
  | rescheduleGroup group duration =>
    refine .ok (h.modifyIf fun task task' hsome => .inr ?_)
    rw [ofGroup_eq_some hsome]
    exact Nat.le_add_right _ _
  | setGroup group => exact .ok (h.setGroup group)
  | repeatTask duration => exact h.repeatTask duration hop
  | update difftime valid =>
    show Yields (.ok (if s.inTask then s else s.update difftime valid)) Good
    cases hin : s.inTask with
    | true => exact .ok h
    | false => exact .ok (h.update hin difftime hop)
  | finish valid => exact h.finish valid

/-- **The scheduler runs each task once, and in order**, at every moment of a run of careful operations, and
takes nothing from an empty queue. -/
theorem tasks_in_order (now : ℕ) (ops : List Op) (h : Admitted step Careful (new now) ops) (past : List Op)
    (hpast : past <+: ops) : Yields (run step (new now) past) Orderly := by
  obtain ⟨rest, rfl⟩ := hpast
  have hrun := run_keeps_of_admitted (I := Good) (fun s op h hop => h.step hop) (good_new now) h.append.1
  exact hrun.mono fun s hs => hs.orderly

/-- A task is due, is repeated while it runs, and is due again: both are in order. -/
theorem tasks_in_order_repeated :
    Yields (run step (new 0) [.schedule 5 none, .update 20 true, .repeatTask none, .finish true])
      fun s => invocations s.log = [⟨0, 0, 5, 20⟩, ⟨0, 0, 10, 20⟩] ∧ Matched Pushes Ends s.log := by
  have hcareful : Admitted step Careful (new 0)
      [.schedule 5 none, .update 20 true, .repeatTask none, .finish true] := by
    refine ⟨trivial, fun h => (nomatch h), fun update context hframe => ?_, trivial, trivial⟩
    cases hframe
    rfl
  obtain ⟨s, hs, horderly⟩ := tasks_in_order 0 _ hcareful _ (List.prefix_refl _)
  refine ⟨s, hs, ?_, horderly.once⟩
  cases hs
  decide

/-- **An asynchronous callable is not safe to cancel all or to update**: what is taken from its queue when it
is done is not there any more, or it is invoked again while it runs. -/
theorem async_modifies_scheduler :
    run step (new 0) [.async, .update 1 true, .cancelAll, .finish true] = .error .emptyPop ∧
      Yields (run step (new 0) [.async, .update 1 true, .update 1 true]) fun s =>
        asyncsInvoked s.log = [0, 0] ∧ ¬ s.Orderly := by
  refine ⟨rfl, .ok ⟨by decide, fun h => ?_⟩⟩
  have hasyncs := h.asyncs
  revert hasyncs
  decide

end TaskScheduler

end Sunstrider.Utilities
