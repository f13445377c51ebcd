import Sunstrider.Lib.Multimap
import Sunstrider.Lib.Pending
import Sunstrider.Utilities.TaskScheduler

/-!
# The queue of the tasks

The queue has the tasks that are pending in the log: those that were pushed, and neither invoked nor
cancelled since. It stays in the order of their ends, also where these are changed (`Queued.modifyIf`).
-/

namespace Sunstrider.Utilities

open Lib

namespace TaskScheduler

variable {s : TaskScheduler}

/-- `Schedule` or `Repeat` pushes the task. -/
def Pushes : TaskEvent → ℕ → Prop
  | .pushed task, k => task = k
  | _, _ => False

/-- The task is invoked or cancelled. -/
def Ends : TaskEvent → ℕ → Prop
  | .invoked invocation, k => invocation.task = k
  | .cancelled tasks, k => k ∈ tasks
  | _, _ => False

/-- The queue is in order, and has the pending tasks. -/
structure Queued (s : TaskScheduler) : Prop where
  sorted : s.taskHolder.Pairwise fun a b => s.endOf a ≤ s.endOf b
  nodup : s.taskHolder.Nodup
  made : ∀ task ∈ s.taskHolder, task < s.made
  pending : ∀ task, Pending Pushes Ends s.log task ↔ task ∈ s.taskHolder
  matched : Matched Pushes Ends s.log

theorem queued_new (now : ℕ) : (new now).Queued where
  sorted := List.Pairwise.nil
  nodup := List.nodup_nil
  made _ h := nomatch h
  pending _ := ⟨fun h => absurd h not_pending_nil, fun h => nomatch h⟩
  matched := matched_nil

theorem Queued.congr {s' : TaskScheduler} (h : s.Queued) (hmade : s.made ≤ s'.made)
    (hholder : s'.taskHolder = s.taskHolder) (hlog : s'.log = s.log)
    (hend : ∀ task ∈ s.taskHolder, s'.endOf task = s.endOf task) : s'.Queued where
  sorted := by
    rw [hholder]
    refine h.sorted.imp_of_mem fun ha hb hle => ?_
    rw [hend _ ha, hend _ hb]
    exact hle
  nodup := by
    rw [hholder]
    exact h.nodup
  made task htask := by
    rw [hholder] at htask
    exact (h.made task htask).trans_le hmade
  pending task := by
    rw [hlog, hholder]
    exact h.pending task
  matched := by
    rw [hlog]
    exact h.matched

theorem Queued.log_concat (h : s.Queued) {e : TaskEvent} (hpushes : ∀ k, ¬ Pushes e k)
    (hends : ∀ k, ¬ Ends e k) : Queued { s with log := s.log ++ [e] } where
  sorted := h.sorted
  nodup := h.nodup
  made := h.made
  pending task := by
    rw [pending_concat, ← h.pending task]
    simp [hpushes, hends]
  matched := matched_concat.mpr ⟨h.matched, fun k hk => absurd hk (hends k)⟩

variable {task : ℕ}

theorem mem_insertTask {k : ℕ} : k ∈ (s.insertTask task).taskHolder ↔ k = task ∨ k ∈ s.taskHolder :=
  List.mem_orderedInsert _

/-- A new task is put behind those that end no later. -/
theorem Queued.insertTask (h : s.Queued) (hmade : task < s.made) (hnew : task ∉ s.taskHolder) :
    (s.insertTask task).Queued where
  sorted := pairwise_orderedInsert h.sorted task
  nodup := (List.perm_orderedInsert _ task s.taskHolder).nodup_iff.mpr (List.nodup_cons.mpr ⟨hnew, h.nodup⟩)
  made k hk := by
    obtain rfl | hk := mem_insertTask.mp hk
    · exact hmade
    · exact h.made k hk
  pending k := by
    rw [mem_insertTask, ← h.pending k]
    refine pending_concat.trans ?_
    simp [Pushes, Ends, eq_comm]
  matched := matched_concat.mpr ⟨h.matched, fun k hk => False.elim hk⟩

theorem Queued.filter (h : s.Queued) (p : ℕ → Bool) :
    Queued { s with
      taskHolder := s.taskHolder.filter fun task => !p task
      log := s.log ++ [.cancelled (s.taskHolder.filter p)] } where
  sorted := h.sorted.filter _
  nodup := h.nodup.filter _
  made task htask := h.made task (List.mem_of_mem_filter htask)
  pending task := by
    rw [pending_concat, h.pending task]
    by_cases htask : task ∈ s.taskHolder <;> simp [Pushes, Ends, htask]
  matched := matched_concat.mpr ⟨h.matched, fun k hk => (h.pending k).mpr (List.mem_of_mem_filter hk)⟩

theorem Queued.removeIf (h : s.Queued) (filter : Task → Bool) : (s.removeIf filter).Queued :=
  h.filter fun task => filter (s.tasks task)

/-- The first task is taken out and invoked. -/
theorem Queued.invoke (h : s.Queued) {rest : List ℕ} (hholder : s.taskHolder = task :: rest)
    {invocation : Invocation} (htask : invocation.task = task) :
    Queued { s with taskHolder := rest, log := s.log ++ [.invoked invocation] } where
  sorted := by
    have hsorted := h.sorted
    rw [hholder] at hsorted
    exact hsorted.of_cons
  nodup := by
    have hnodup := h.nodup
    rw [hholder] at hnodup
    exact hnodup.of_cons
  made k hk := h.made k (by rw [hholder]; exact List.mem_cons_of_mem task hk)
  pending k := by
    have hnot : task ∉ rest := by
      have hnodup := h.nodup
      rw [hholder] at hnodup
      exact (List.nodup_cons.mp hnodup).1
    rw [pending_concat, h.pending k, hholder]
    by_cases hk : k = task
    · subst hk
      simp [Pushes, Ends, htask, hnot]
    · simp [Pushes, Ends, htask, hk, Ne.symm hk]
  matched := by
    refine matched_concat.mpr ⟨h.matched, fun k hk => (h.pending k).mpr ?_⟩
    rw [hholder, ← htask, show invocation.task = k from hk]
    exact List.mem_cons_self

/-! ## Changed ends -/

theorem foldl_insert (l : List ℕ) (s : TaskScheduler)
    (h : s.taskHolder.Pairwise fun a b => s.endOf a ≤ s.endOf b) :
    ∃ taskHolder, l.foldl insert s = { s with taskHolder } ∧ taskHolder.Perm (l ++ s.taskHolder) ∧
      taskHolder.Pairwise fun a b => s.endOf a ≤ s.endOf b := by
  induction l generalizing s with
  | nil => exact ⟨s.taskHolder, rfl, List.Perm.refl _, h⟩
  | cons task l ih =>
    obtain ⟨taskHolder, heq, hperm, hsorted⟩ := ih (s.insert task) (pairwise_orderedInsert h task)
    refine ⟨taskHolder, heq, hperm.trans ?_, hsorted⟩
    exact ((List.perm_orderedInsert _ task s.taskHolder).append_left l).trans List.perm_middle

/-- **What `ModifyIf` does**: the queue has the same tasks, in the order of their new ends. -/
theorem modifyIf_eq (filter : Task → Option Task)
    (h : s.taskHolder.Pairwise fun a b => s.endOf a ≤ s.endOf b) :
    ∃ tasks taskHolder, s.modifyIf filter = { s with tasks, taskHolder } ∧
      taskHolder.Perm s.taskHolder ∧
      (taskHolder.Pairwise fun a b => (tasks a).endTime ≤ (tasks b).endTime) ∧
      ∀ task, tasks task = s.tasks task ∨
        (task ∈ s.taskHolder ∧ filter (s.tasks task) = some (tasks task)) := by
  obtain ⟨cache, hcache⟩ : ∃ cache, cache = s.taskHolder.filter fun task =>
    (filter (s.tasks task)).isSome := ⟨_, rfl⟩
  obtain ⟨tasks, htasks⟩ : ∃ tasks : ℕ → Task, tasks = fun task =>
    if task ∈ cache then (filter (s.tasks task)).getD (s.tasks task) else s.tasks task := ⟨_, rfl⟩
  have hrest : (s.taskHolder.filter fun task => (filter (s.tasks task)).isNone).Pairwise
      fun a b => (tasks a).endTime ≤ (tasks b).endTime := by
    refine (h.filter _).imp_of_mem fun ha hb hle => ?_
    have hsame : ∀ {task}, (task ∈ s.taskHolder.filter fun task => (filter (s.tasks task)).isNone) →
        tasks task = s.tasks task := by
      intro task htask
      have hnone := (List.mem_filter.mp htask).2
      rw [htasks]
      refine if_neg fun hmem => ?_
      rw [hcache] at hmem
      have hsome := (List.mem_filter.mp hmem).2
      rw [Option.isNone_iff_eq_none.mp hnone] at hsome
      exact nomatch hsome
    rw [hsame ha, hsame hb]
    exact hle
  obtain ⟨taskHolder, heq, hperm, hsorted⟩ := foldl_insert cache
    { s with tasks, taskHolder := s.taskHolder.filter fun task => (filter (s.tasks task)).isNone } hrest
  refine ⟨tasks, taskHolder, ?_, hperm.trans ?_, hsorted, fun task => ?_⟩
  · rw [modifyIf, ← hcache, ← htasks]
    exact heq
  · rw [hcache]
    have hnot : (fun task => (filter (s.tasks task)).isNone) =
        fun task => !(filter (s.tasks task)).isSome := by
      funext task
      cases filter (s.tasks task) <;> rfl
    rw [hnot]
    exact List.filter_append_perm _ s.taskHolder
  · rw [htasks]
    dsimp only
    split
    · next hmem =>
      rw [hcache] at hmem
      obtain ⟨htask, hsome⟩ := List.mem_filter.mp hmem
      obtain ⟨task', htask'⟩ := Option.isSome_iff_exists.mp hsome
      rw [htask']
      exact .inr ⟨htask, rfl⟩
    · exact .inl rfl

theorem Queued.perm (h : s.Queued) {tasks : ℕ → Task} {taskHolder : List ℕ}
    (hperm : taskHolder.Perm s.taskHolder)
    (hsorted : taskHolder.Pairwise fun a b => (tasks a).endTime ≤ (tasks b).endTime) :
    Queued { s with tasks, taskHolder } where
  sorted := hsorted
  nodup := hperm.nodup_iff.mpr h.nodup
  made task htask := h.made task (hperm.mem_iff.mp htask)
  pending task := (h.pending task).trans hperm.mem_iff.symm
  matched := h.matched

/-- Tasks whose ends change are taken out and put back in order. -/
theorem Queued.modifyIf (h : s.Queued) (filter : Task → Option Task) : (s.modifyIf filter).Queued := by
  obtain ⟨tasks, taskHolder, heq, hperm, hsorted, -⟩ := modifyIf_eq filter h.sorted
  rw [heq]
  exact h.perm hperm hsorted

end TaskScheduler

end Sunstrider.Utilities
