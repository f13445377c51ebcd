import Sunstrider.Laws.Utilities.EventQueue

/-!
# What a log of events says

An event that has been aborted has its mark, or `Update` is just calling its `Abort` (`Marked`). What an
`Update` has executed was due no later than anything that is left in the queue (`Times`). Each pass of a loop
has less before it than the one before (`Ranked`).
-/

namespace Sunstrider.Utilities

open Lib

namespace EventProcessor

variable {s : EventProcessor} {later : Prop}

/-! ## Parts of a log -/

def executions (log : List EventRecord) : List Execution :=
  log.filterMap fun
    | .executed execution => some execution
    | _ => none

def aborts (log : List EventRecord) : List ℕ :=
  log.filterMap fun
    | .aborted event => some event
    | _ => none

def deletions (log : List EventRecord) : List ℕ :=
  log.filterMap fun
    | .deleted event => some event
    | _ => none

/-- The passes of the loops, each with what was left. -/
def passes (log : List EventRecord) : List (EventFrame × ℕ) :=
  log.filterMap fun
    | .passed loop left => some (loop, left)
    | _ => none

/-- What was in the queue when an `Update` returned, and when that was. -/
def returns (log : List EventRecord) : List (ℕ × List (ℕ × ℕ)) :=
  log.filterMap fun
    | .returned _ now events => some (now, events)
    | _ => none

@[simp] theorem executions_append (l l' : List EventRecord) :
    executions (l ++ l') = executions l ++ executions l' := List.filterMap_append

@[simp] theorem aborts_append (l l' : List EventRecord) : aborts (l ++ l') = aborts l ++ aborts l' :=
  List.filterMap_append

@[simp] theorem deletions_append (l l' : List EventRecord) :
    deletions (l ++ l') = deletions l ++ deletions l' := List.filterMap_append

@[simp] theorem passes_append (l l' : List EventRecord) : passes (l ++ l') = passes l ++ passes l' :=
  List.filterMap_append

@[simp] theorem returns_append (l l' : List EventRecord) : returns (l ++ l') = returns l ++ returns l' :=
  List.filterMap_append

/-- No event is executed behind the abort of it. -/
def NotAborted (log : List EventRecord) : Prop :=
  log.Pairwise fun r r' => ∀ x, r' = .executed x → r ≠ .aborted x.event

variable {records : List EventRecord}

theorem notAborted_append {log : List EventRecord} (h : NotAborted log)
    (hrecords : NotAborted records) (hnot : ∀ x ∈ executions records, x.event ∉ aborts log) :
    NotAborted (log ++ records) := by
  refine List.pairwise_append.mpr ⟨h, hrecords, ?_⟩
  rintro r hr _ hr' x rfl rfl
  exact hnot x (List.mem_filterMap.mpr ⟨_, hr', rfl⟩) (List.mem_filterMap.mpr ⟨_, hr, rfl⟩)

theorem notAborted_of_executions (h : executions records = []) : NotAborted records := by
  refine List.pairwise_of_forall_mem_list ?_
  rintro r _ _ hr' x rfl
  have hmem : x ∈ executions records := List.mem_filterMap.mpr ⟨_, hr', rfl⟩
  rw [h] at hmem
  exact nomatch hmem

/-! ## Marks -/

/-- An event has its mark if it has been aborted, but where `Update` is calling its `Abort`. -/
structure Marked (s : EventProcessor) : Prop where
  marked : ∀ event e, s.heap event = some e → e.abortState = .aborted → event ∈ aborts s.log
  unmarked : ∀ event e, s.heap event = some e → e.abortState ≠ .aborted → event ∈ aborts s.log →
    ∃ call, .abort call event ∈ s.frames
  called : ∀ call event, .abort call event ∈ s.frames → event ∈ aborts s.log
  made : ∀ event ∈ aborts s.log, event < s.made
  once : (aborts s.log).Nodup
  notAborted : NotAborted s.log
  gone : ∀ event ∈ deletions s.log, s.heap event = none ∧ event < s.made
  goneOnce : (deletions s.log).Nodup

theorem marked_new : new.Marked where
  marked _ _ h := nomatch h
  unmarked _ _ h := nomatch h
  called _ _ h := nomatch h
  made _ h := nomatch h
  once := List.nodup_nil
  notAborted := List.Pairwise.nil
  gone _ h := nomatch h
  goneOnce := List.nodup_nil

variable {s' : EventProcessor}

/-- **The rule for marks that stay**: nothing is aborted, executed or deleted, and an event has its mark just
if it had it. -/
theorem Marked.stays (h : s.Marked) (hlog : s'.log = s.log ++ records)
    (haborts : aborts records = []) (hdeletions : deletions records = [])
    (hexecutions : executions records = []) (hmade : s.made ≤ s'.made)
    (hheap : ∀ event e', s'.heap event = some e' →
      (∃ e, s.heap event = some e ∧ (e'.abortState = .aborted ↔ e.abortState = .aborted)) ∨
        (s.made ≤ event ∧ e'.abortState ≠ .aborted))
    (hgone : ∀ event < s.made, s.heap event = none → s'.heap event = none)
    (hframes : ∀ call event, .abort call event ∈ s'.frames ↔ .abort call event ∈ s.frames) :
    s'.Marked := by
  have haborts' : aborts s'.log = aborts s.log := by rw [hlog, aborts_append, haborts, List.append_nil]
  have hdeletions' : deletions s'.log = deletions s.log := by
    rw [hlog, deletions_append, hdeletions, List.append_nil]
  refine ⟨fun event e' he' hstate => ?_, fun event e' he' hstate hmem => ?_, fun call event hframe => ?_,
    ?_, ?_, ?_, ?_, ?_⟩
  · obtain ⟨e, he, hiff⟩ | ⟨-, hne⟩ := hheap event e' he'
    · rw [haborts']
      exact h.marked event e he (hiff.mp hstate)
    · exact absurd hstate hne
  · rw [haborts'] at hmem
    obtain ⟨e, he, hiff⟩ | ⟨hnew, -⟩ := hheap event e' he'
    · obtain ⟨call, hcall⟩ := h.unmarked event e he (fun hold => hstate (hiff.mpr hold)) hmem
      exact ⟨call, (hframes call event).mpr hcall⟩
    · exact absurd (h.made event hmem) (not_lt.mpr hnew)
  · rw [haborts']
    exact h.called call event ((hframes call event).mp hframe)
  · rw [haborts']
    exact fun event hevent => (h.made event hevent).trans_le hmade
  · rw [haborts']
    exact h.once
  · rw [hlog]
    refine notAborted_append h.notAborted (notAborted_of_executions hexecutions) fun x hx => ?_
    rw [hexecutions] at hx
    exact nomatch hx
  · rw [hdeletions']
    intro event hevent
    obtain ⟨hnone, hlt⟩ := h.gone event hevent
    exact ⟨hgone event hlt hnone, hlt.trans_le hmade⟩
  · rw [hdeletions']
    exact h.goneOnce

theorem Marked.untouched (h : s.Marked) (hlog : s'.log = s.log ++ records)
    (haborts : aborts records = []) (hdeletions : deletions records = [])
    (hexecutions : executions records = []) (hmade : s'.made = s.made) (hheap : s'.heap = s.heap)
    (hframes : ∀ call event, .abort call event ∈ s'.frames ↔ .abort call event ∈ s.frames) :
    s'.Marked :=
  h.stays hlog haborts hdeletions hexecutions hmade.ge (fun _ e he => .inl ⟨e, hheap ▸ he, Iff.rfl⟩)
    (fun _ _ hnone => hheap ▸ hnone) hframes

variable {event : ℕ} {e : BasicEvent}

theorem Marked.delete (h : s.Marked) (he : s.heap event = some e) (hmade : event < s.made) :
    (s.gone event).Marked := by
  have hother : ∀ k e', (s.gone event).heap k = some e' → s.heap k = some e' := by
    intro k e' hk
    by_cases heq : k = event
    · rw [heq] at hk
      exact absurd (hk.symm.trans (Function.update_self _ _ _)) (Option.some_ne_none e')
    · exact (Function.update_of_ne heq _ _).symm.trans hk
  have haborts : aborts (s.gone event).log = aborts s.log := by simp [EventProcessor.gone, aborts]
  have hdeletions : deletions (s.gone event).log = deletions s.log ++ [event] := by
    simp [EventProcessor.gone, deletions]
  have hnot : event ∉ deletions s.log := by
    intro hmem
    rw [(h.gone event hmem).1] at he
    exact nomatch he
  refine ⟨fun k e' hk => ?_, fun k e' hk hstate hmem => ?_, ?_, ?_, ?_, ?_, ?_, ?_⟩
  · rw [haborts]
    exact h.marked k e' (hother k e' hk)
  · rw [haborts] at hmem
    exact h.unmarked k e' (hother k e' hk) hstate hmem
  · rw [haborts]
    exact h.called
  · rw [haborts]
    exact h.made
  · rw [haborts]
    exact h.once
  · exact notAborted_append h.notAborted (notAborted_of_executions rfl) fun x hx => nomatch hx
  · rw [hdeletions]
    refine List.forall_mem_append.mpr ⟨fun k hk => ?_, fun k hk => ?_⟩
    · obtain ⟨hnone, hlt⟩ := h.gone k hk
      refine ⟨?_, hlt⟩
      show Function.update s.heap event none k = none
      rw [Function.update_apply, hnone, ite_self]
    · rw [List.mem_singleton.mp hk]
      exact ⟨Function.update_self _ _ _, hmade⟩
  · rw [hdeletions]
    exact List.nodup_append.mpr ⟨h.goneOnce, List.nodup_singleton _, fun a ha b hb heq =>
      hnot (by rw [← List.mem_singleton.mp hb, ← heq]; exact ha)⟩

/-- The `Abort` of an event is called that has no mark yet: it gets it now, or `Update` goes to the event. -/
theorem Marked.abort (h : s.Marked) (he : s.heap event = some e) (hstate : e.abortState ≠ .aborted)
    (hmade : event < s.made) (hcalled : ∀ call, .abort call event ∉ s.frames)
    (hlog : s'.log = s.log ++ [.aborted event]) (hsmade : s'.made = s.made)
    (hother : ∀ k, k ≠ event → s'.heap k = s.heap k) (hself : ∃ e', s'.heap event = some e' ∧
      (e'.abortState = .aborted ∨ ∃ call, .abort call event ∈ s'.frames))
    (hframes : ∀ call k, .abort call k ∈ s.frames → .abort call k ∈ s'.frames)
    (hnew : ∀ call k, .abort call k ∈ s'.frames → k = event ∨ .abort call k ∈ s.frames) :
    s'.Marked := by
  have haborts : aborts s'.log = aborts s.log ++ [event] := by rw [hlog]; simp [aborts]
  have hdeletions : deletions s'.log = deletions s.log := by rw [hlog]; simp [deletions]
  have hnot : event ∉ aborts s.log := fun hmem =>
    let ⟨call, hcall⟩ := h.unmarked event e he hstate hmem
    hcalled call hcall
  obtain ⟨e', he', hmark⟩ := hself
  refine ⟨fun k ek hk hkstate => ?_, fun k ek hk hkstate hmem => ?_, fun call k hframe => ?_, ?_, ?_, ?_,
    ?_, ?_⟩
  · rw [haborts]
    by_cases heq : k = event
    · rw [heq]
      exact List.mem_append_right _ (List.mem_singleton_self event)
    · rw [hother k heq] at hk
      exact List.mem_append_left _ (h.marked k ek hk hkstate)
  · by_cases heq : k = event
    · subst heq
      rw [he'] at hk
      cases hk
      exact hmark.resolve_left hkstate
    · rw [hother k heq] at hk
      rw [haborts] at hmem
      obtain hmem | hmem := List.mem_append.mp hmem
      · obtain ⟨call, hcall⟩ := h.unmarked k ek hk hkstate hmem
        exact ⟨call, hframes call k hcall⟩
      · exact absurd (List.mem_singleton.mp hmem) heq
  · rw [haborts]
    obtain rfl | hold := hnew call k hframe
    · exact List.mem_append_right _ (List.mem_singleton_self k)
    · exact List.mem_append_left _ (h.called call k hold)
  · rw [haborts, hsmade]
    exact List.forall_mem_append.mpr ⟨h.made, fun k hk => (List.mem_singleton.mp hk).trans_lt hmade⟩
  · rw [haborts]
    exact List.nodup_append.mpr ⟨h.once, List.nodup_singleton _, fun a ha b hb heq =>
      hnot (by rw [← List.mem_singleton.mp hb, ← heq]; exact ha)⟩
  · rw [hlog]
    exact notAborted_append h.notAborted (notAborted_of_executions rfl) fun x hx => nomatch hx
  · rw [hdeletions, hsmade]
    intro k hk
    obtain ⟨hnone, hlt⟩ := h.gone k hk
    refine ⟨?_, hlt⟩
    rw [hother k, hnone]
    rintro rfl
    rw [hnone] at he
    exact nomatch he
  · rw [hdeletions]
    exact h.goneOnce

theorem Marked.execute (h : s.Marked) {x : Execution} (he : s.heap x.event = some e)
    (hstate : e.abortState ≠ .aborted) (hcalled : ∀ call, .abort call x.event ∉ s.frames)
    (hlog : s'.log = s.log ++ [.executed x]) (hmade : s'.made = s.made) (hheap : s'.heap = s.heap)
    (hframes : ∀ call k, .abort call k ∈ s'.frames ↔ .abort call k ∈ s.frames) : s'.Marked := by
  have haborts : aborts s'.log = aborts s.log := by rw [hlog]; simp [aborts]
  have hdeletions : deletions s'.log = deletions s.log := by rw [hlog]; simp [deletions]
  refine ⟨?_, fun k ek hk hkstate hmem => ?_, fun call k hframe => ?_, ?_, ?_, ?_, ?_, ?_⟩
  · rw [haborts, hheap]
    exact h.marked
  · rw [haborts] at hmem
    rw [hheap] at hk
    obtain ⟨call, hcall⟩ := h.unmarked k ek hk hkstate hmem
    exact ⟨call, (hframes call k).mpr hcall⟩
  · rw [haborts]
    exact h.called call k ((hframes call k).mp hframe)
  · rw [haborts, hmade]
    exact h.made
  · rw [haborts]
    exact h.once
  · rw [hlog]
    refine notAborted_append h.notAborted (List.pairwise_singleton _ _) fun y hy hmem => ?_
    obtain rfl : y = x := by simpa [executions] using hy
    obtain ⟨call, hcall⟩ := h.unmarked y.event e he hstate hmem
    exact hcalled call hcall
  · rw [hdeletions, hheap, hmade]
    exact h.gone
  · rw [hdeletions]
    exact h.goneOnce

theorem Marked.setAborted (h : s.Marked) (he : s.heap event = some e) (hmem : event ∈ aborts s.log)
    {frames : List EventFrame}
    (hframes : ∀ call k, .abort call k ∈ s.frames → k ≠ event → .abort call k ∈ frames)
    (hnew : ∀ call k, .abort call k ∈ frames → .abort call k ∈ s.frames) :
    Marked { s.set event { e with abortState := .aborted } with frames } := by
  have hother : ∀ k, k ≠ event →
      (s.set event { e with abortState := .aborted }).heap k = s.heap k :=
    fun k hk => Function.update_of_ne hk _ _
  refine ⟨fun k ek hk hkstate => ?_, fun k ek hk hkstate hkmem => ?_,
    fun call k hframe => h.called call k (hnew call k hframe), h.made, h.once, h.notAborted,
    fun k hk => ?_, h.goneOnce⟩
  · by_cases heq : k = event
    · rw [heq]
      exact hmem
    · exact h.marked k ek ((hother k heq).symm.trans hk) hkstate
  · by_cases heq : k = event
    · rw [heq] at hk
      have hek := Option.some.inj (hk.symm.trans (Function.update_self _ _ _))
      rw [hek] at hkstate
      exact absurd rfl hkstate
    · obtain ⟨call', hcall'⟩ := h.unmarked k ek ((hother k heq).symm.trans hk) hkstate hkmem
      exact ⟨call', hframes call' k hcall' heq⟩
  · obtain ⟨hnone, hlt⟩ := h.gone k hk
    refine ⟨(hother k ?_).trans hnone, hlt⟩
    rintro rfl
    rw [hnone] at he
    exact nomatch he

/-! ## Times -/

/-- What an `Update` has executed was due, and due no later than what is left, if what is done while one runs
goes to later times. -/
structure Times (later : Prop) (s : EventProcessor) : Prop where
  onTime : ∀ x ∈ executions s.log, x.due ≤ x.now
  inOrder : later → (executions s.log).Pairwise fun x y => x.call = y.call → x.due ≤ y.due
  returns : ∀ p ∈ returns s.log, ∀ entry ∈ p.2, p.1 < entry.1
  counted : ∀ x ∈ executions s.log, x.call < s.calls
  floor : later → ∀ f ∈ s.frames, f.isUpdate = true → ∀ x ∈ executions s.log, x.call = f.call →
    x.due ≤ s.time ∧ ∀ entry ∈ s.events, x.due ≤ entry.1

theorem times_new : new.Times later where
  onTime _ h := nomatch h
  inOrder _ := List.Pairwise.nil
  returns _ h := nomatch h
  counted _ h := nomatch h
  floor _ _ h := nomatch h

/-- A loop goes on, or has just begun. -/
def GoesOn (s : EventProcessor) (f : EventFrame) : Prop :=
  (∃ g ∈ s.frames, g.isUpdate = f.isUpdate ∧ g.call = f.call) ∨ s.calls ≤ f.call

/-- **The rule for times that stay**: nothing is executed, and what comes to the queue while an `Update` runs
is later than now. -/
theorem Times.stays (h : s.Times later) (hlog : s'.log = s.log ++ records)
    (hexecutions : executions records = []) (hreturns : EventProcessor.returns records = [])
    (htime : s.time ≤ s'.time) (hcalls : s.calls ≤ s'.calls)
    (hframes : ∀ f ∈ s'.frames, f.isUpdate = true → s.GoesOn f)
    (hevents : later → (∃ f ∈ s'.frames, f.isUpdate = true) →
      ∀ entry ∈ s'.events, entry ∈ s.events ∨ s.time < entry.1) : s'.Times later := by
  have hsame : executions s'.log = executions s.log := by
    rw [hlog, executions_append, hexecutions, List.append_nil]
  refine ⟨?_, ?_, ?_, ?_, fun hlater f hf hupdate x hx hcall => ?_⟩
  · rw [hsame]
    exact h.onTime
  · rw [hsame]
    exact h.inOrder
  · rw [hlog, returns_append, hreturns, List.append_nil]
    exact h.returns
  · rw [hsame]
    exact fun x hx => (h.counted x hx).trans_le hcalls
  · rw [hsame] at hx
    obtain ⟨g, hg, hgupdate, hgcall⟩ | hnew := hframes f hf hupdate
    · obtain ⟨hnow, hfloor⟩ := h.floor hlater g hg (hgupdate.trans hupdate) x hx (hcall.trans hgcall.symm)
      refine ⟨hnow.trans htime, fun entry hentry => ?_⟩
      obtain hold | hafter := hevents hlater ⟨f, hf, hupdate⟩ entry hentry
      · exact hfloor entry hold
      · exact hnow.trans hafter.le
    · have hlt := h.counted x hx
      omega

theorem Times.execute (h : s.Times later) (hordered : KeyOrdered s.events) {call due : ℕ}
    (hcall : call < s.calls) (hframes : s.frames = [.update call]) {events : List (ℕ × ℕ)}
    (hevents : s.events = (due, event) :: events) (hdue : due ≤ s.time) :
    Times later { s with
      events, frames := [.execute call event], log := s.log ++ [.executed ⟨call, event, due, s.time⟩] } := by
  have hmem : EventFrame.update call ∈ s.frames := by
    rw [hframes]
    exact List.mem_cons_self
  have hrest : ∀ entry ∈ events, due ≤ entry.1 := by
    rw [hevents] at hordered
    exact (List.pairwise_cons.mp hordered).1
  have hexecutions : executions (s.log ++ [.executed ⟨call, event, due, s.time⟩]) =
      executions s.log ++ [⟨call, event, due, s.time⟩] := by simp [executions]
  refine ⟨?_, fun hlater => ?_, ?_, ?_, fun hlater f hf _ x hx hcall' => ?_⟩
  · rw [hexecutions]
    refine List.forall_mem_append.mpr ⟨h.onTime, fun x hx => ?_⟩
    rw [List.mem_singleton.mp hx]
    exact hdue
  · rw [hexecutions]
    refine List.pairwise_append.mpr ⟨h.inOrder hlater, List.pairwise_singleton _ _, fun x hx y hy heq => ?_⟩
    rw [List.mem_singleton.mp hy] at heq ⊢
    refine (h.floor hlater _ hmem rfl x hx heq).2 (due, event) ?_
    rw [hevents]
    exact List.mem_cons_self
  · rw [returns_append]
    exact List.forall_mem_append.mpr ⟨h.returns, fun p hp => nomatch hp⟩
  · rw [hexecutions]
    refine List.forall_mem_append.mpr ⟨h.counted, fun x hx => ?_⟩
    rw [List.mem_singleton.mp hx]
    exact hcall
  · rw [List.mem_singleton.mp hf] at hcall'
    rw [hexecutions] at hx
    obtain hx | hx := List.mem_append.mp hx
    · obtain ⟨hnow, hfloor⟩ := h.floor hlater _ hmem rfl x hx hcall'
      refine ⟨hnow, fun entry hentry => hfloor entry ?_⟩
      rw [hevents]
      exact List.mem_cons_of_mem _ hentry
    · rw [List.mem_singleton.mp hx]
      exact ⟨hdue, hrest⟩

theorem Times.return (h : s.Times later) (call : ℕ) (hnone : ∀ entry ∈ s.events, s.time < entry.1) :
    Times later { s with frames := [], log := s.log ++ [.returned call s.time s.events] } := by
  have hexecutions : executions (s.log ++ [.returned call s.time s.events]) = executions s.log := by
    simp [executions]
  refine ⟨?_, ?_, ?_, ?_, fun _ _ hf => nomatch hf⟩
  · rw [hexecutions]
    exact h.onTime
  · rw [hexecutions]
    exact h.inOrder
  · rw [returns_append]
    refine List.forall_mem_append.mpr ⟨h.returns, fun p hp => ?_⟩
    obtain rfl : p = (s.time, s.events) := by simpa [EventProcessor.returns] using hp
    exact hnone
  · rw [hexecutions]
    exact h.counted

/-! ## Passes -/

/-- Each pass of a loop has had less before it than the one before, and less is left now: for an `Update`, if
what is done while one runs goes to later times. -/
structure Ranked (later : Prop) (s : EventProcessor) : Prop where
  descending : (passes s.log).Pairwise fun p q =>
    p.1.call = q.1.call → (q.1.isUpdate = true → later) → q.2 < p.2
  counted : ∀ p ∈ passes s.log, p.1.call < s.calls
  left : ∀ f ∈ s.frames, (f.isUpdate = true → later) → ∀ p ∈ passes s.log, p.1.call = f.call → s.left f < p.2

theorem ranked_new : new.Ranked later where
  descending := List.Pairwise.nil
  counted _ h := nomatch h
  left _ h := nomatch h

/-- A loop goes on with no more before it than it had. -/
def Continues (s s' : EventProcessor) (f : EventFrame) : Prop :=
  ∃ g ∈ s.frames, g.isUpdate = f.isUpdate ∧ g.call = f.call ∧ s'.left f ≤ s.left g

/-- **The rule for steps without a pass**: a loop has no more before it than it had, or has just begun. -/
theorem Ranked.stays (h : s.Ranked later) (hlog : s'.log = s.log ++ records)
    (hpasses : passes records = []) (hcalls : s.calls ≤ s'.calls)
    (hframes : ∀ f ∈ s'.frames, (f.isUpdate = true → later) → s.Continues s' f ∨ s.calls ≤ f.call) :
    s'.Ranked later := by
  have hsame : passes s'.log = passes s.log := by rw [hlog, passes_append, hpasses, List.append_nil]
  refine ⟨?_, ?_, fun f hf hlater p hp hcall => ?_⟩
  · rw [hsame]
    exact h.descending
  · rw [hsame]
    exact fun p hp => (h.counted p hp).trans_le hcalls
  · rw [hsame] at hp
    obtain ⟨g, hg, hupdate, hgcall, hle⟩ | hnew := hframes f hf hlater
    · refine hle.trans_lt (h.left g hg ?_ p hp (hcall.trans hgcall.symm))
      rwa [hupdate]
    · have hlt := h.counted p hp
      omega

/-- **The rule for a pass**: the loop that makes it has less before it than it had. -/
theorem Ranked.pass (h : s.Ranked later) {f : EventFrame} (hf : f ∈ s.frames)
    (hcounted : f.call < s.calls) (hlog : s'.log = s.log ++ .passed f (s.left f) :: records)
    (hpasses : passes records = []) (hcalls : s'.calls = s.calls)
    (hframes : ∀ g ∈ s'.frames, (g.call = f.call → s'.left g < s.left f) ∧ s.Continues s' g) :
    s'.Ranked later := by
  have hmore : passes s'.log = passes s.log ++ [(f, s.left f)] := by
    rw [hlog, passes_append, show passes (.passed f (s.left f) :: records) =
      (f, s.left f) :: passes records from rfl, hpasses]
  refine ⟨?_, ?_, fun g hg hlater p hp hcall => ?_⟩
  · rw [hmore]
    refine List.pairwise_append.mpr ⟨h.descending, List.pairwise_singleton _ _,
      fun p hp q hq heq hlater => ?_⟩
    rw [List.mem_singleton.mp hq] at heq hlater ⊢
    exact h.left f hf hlater p hp heq
  · rw [hmore, hcalls]
    refine List.forall_mem_append.mpr ⟨h.counted, fun p hp => ?_⟩
    rw [List.mem_singleton.mp hp]
    exact hcounted
  · rw [hmore] at hp
    obtain ⟨hless, g', hg', hupdate, hcall', hle⟩ := hframes g hg
    obtain hp | hp := List.mem_append.mp hp
    · refine hle.trans_lt (h.left g' hg' ?_ p hp (hcall.trans hcall'.symm))
      rwa [hupdate]
    · rw [List.mem_singleton.mp hp] at hcall ⊢
      exact hless hcall.symm

/-! ## What has been added -/

/-- `AddEvent` adds an event. -/
def Adds : EventRecord → ℕ → Prop
  | .added event, k => event = k
  | _, _ => False

/-- The event is executed or aborted, or the queue is cleared with it. -/
def Leaves : EventRecord → ℕ → Prop
  | .executed x, k => x.event = k
  | .aborted event, k => event = k
  | .cleared events, k => k ∈ events
  | _, _ => False

/-- What has been added and has not been executed since is in the queue, if it has not been aborted. -/
def Accounted (s : EventProcessor) : Prop :=
  ∀ event, Pending Adds Leaves s.log event → event ∈ s.queued ∨ event ∈ aborts s.log

/-- **The rule for what is accounted for**: what is added is in the queue, and what leaves the queue is
executed or has been aborted. -/
theorem Accounted.step (h : s.Accounted) (hlog : s'.log = s.log ++ records)
    (hadds : ∀ r ∈ records, ∀ event, Adds r event → event ∈ s'.queued ∨ event ∈ aborts s'.log)
    (hleaves : ∀ event ∈ s.queued, (∀ r ∈ records, ¬ Leaves r event) →
      event ∈ s'.queued ∨ event ∈ aborts s'.log) : s'.Accounted := by
  intro event hpending
  rw [hlog] at hpending
  obtain ⟨r, hr, hadd⟩ | ⟨hpending, hnot⟩ := pending_append hpending
  · exact hadds r hr event hadd
  · obtain hmem | hmem := h event hpending
    · exact hleaves event hmem hnot
    · rw [hlog, aborts_append]
      exact .inr (List.mem_append_left _ hmem)

theorem Accounted.record (h : s.Accounted) {r : EventRecord} (hlog : s'.log = s.log ++ [r])
    (hadds : ∀ event, ¬ Adds r event)
    (hleaves : ∀ event ∈ s.queued, ¬ Leaves r event → event ∈ s'.queued ∨ event ∈ aborts s'.log) :
    s'.Accounted := by
  refine h.step hlog (fun r' hr event hadd => ?_) fun event hevent hnot => ?_
  · rw [List.mem_singleton.mp hr] at hadd
    exact absurd hadd (hadds event)
  · exact hleaves event hevent (hnot r (List.mem_singleton_self r))

theorem Accounted.recordFirst (h : s.Accounted) {r : EventRecord} (hlog : s'.log = s.log ++ [r])
    (hadds : ∀ event, ¬ Adds r event) {due : ℕ} {events : List (ℕ × ℕ)}
    (hevents : s.events = (due, event) :: events) (hevents' : s'.events = events)
    (hleaves : Leaves r event) : s'.Accounted := by
  refine h.record hlog hadds fun k hk hnot => .inl ?_
  rw [queued, hevents] at hk
  rw [queued, hevents']
  exact (List.mem_cons.mp hk).resolve_left fun heq => hnot (heq ▸ hleaves)

end EventProcessor

end Sunstrider.Utilities
