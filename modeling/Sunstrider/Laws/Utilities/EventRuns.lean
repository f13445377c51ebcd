import Sunstrider.Laws.Utilities.EventMarks

/-!
# Runs of the event processor

What holds at every moment of a run (`Sound`), as long as what an event does while a loop runs goes to times
later than now, and no event of a `KillAllEvents` adds events or begins another one. Here are the operations
that leave the loops where they are.
-/

namespace Sunstrider.Utilities

open Lib

namespace EventProcessor

variable {s : EventProcessor} {later : Prop}

/-- What holds of the queue, the events and the log, but for the passes of the loops. -/
structure Kept (later : Prop) (s : EventProcessor) : Prop where
  held : s.Held
  marked : s.Marked
  times : s.Times later
  accounted : s.Accounted

/-- What holds of every state of a careful run. -/
structure Sound (later : Prop) (s : EventProcessor) : Prop where
  kept : s.Kept later
  ranked : s.Ranked later

theorem sound_new : new.Sound later where
  kept := ⟨held_new, marked_new, times_new, fun _ h => absurd h not_pending_nil⟩
  ranked := ranked_new

theorem Kept.pass (h : s.Kept later) (loop : EventFrame) : (s.pass loop).Kept later where
  held := h.held.congr rfl rfl rfl rfl rfl
  marked := by
    refine h.marked.untouched rfl rfl rfl rfl rfl rfl fun _ _ => Iff.rfl
  times := by
    refine h.times.stays rfl rfl rfl le_rfl le_rfl (fun f hf _ => .inl ⟨f, hf, rfl, rfl⟩)
      fun _ _ entry hentry => .inl hentry
  accounted := by
    exact h.accounted.record rfl (fun _ => not_false) fun _ hk _ => .inl hk

/-! ## Measures -/

variable {s' : EventProcessor}

/-- Nothing new is due where what is added is later than now. -/
theorem due_le (hnodup : s'.queued.Nodup) (htime : s'.time = s.time)
    (hevents : ∀ entry ∈ s'.events, entry ∈ s.events ∨ s.time < entry.1) : s'.due ≤ s.due := by
  rw [due, due, List.countP_eq_length_filter, List.countP_eq_length_filter, htime]
  refine (List.subperm_of_subset ((hnodup.of_map Prod.snd).filter _) fun entry hentry => ?_).length_le
  obtain ⟨hmem, hdue⟩ := List.mem_filter.mp hentry
  refine List.mem_filter.mpr ⟨(hevents entry hmem).resolve_right ?_, hdue⟩
  exact not_lt.mpr (of_decide_eq_true hdue)

variable {event : ℕ}

/-- Fewer entries are due where the first of them was taken out. -/
theorem due_lt {due : ℕ} {events : List (ℕ × ℕ)} (heq : s.events = (due, event) :: events)
    (hdue : due ≤ s.time) (hnodup : s'.queued.Nodup) (htime : s'.time = s.time)
    (hevents : ∀ entry ∈ s'.events, entry ∈ events ∨ s.time < entry.1) : s'.due < s.due := by
  have hle : s'.due ≤ EventProcessor.due { s with events } := due_le hnodup htime hevents
  have hone : s.due = EventProcessor.due { s with events } + 1 := by
    rw [EventProcessor.due, heq, List.countP_cons_of_pos (by simpa using hdue), EventProcessor.due]
  omega

variable {f : EventFrame}

theorem left_update (hf : f.isUpdate = true) : s.left f = s.due := by
  cases f with
  | update call => rfl
  | execute call event => rfl
  | abort call event => rfl
  | kill call force itr => exact nomatch hf
  | killAbort call force event => exact nomatch hf

theorem isUpdate_of_isCalled (hf : f.isCalled = true) : f.isUpdate = true := by
  cases f with
  | execute call event => rfl
  | abort call event => rfl
  | update call => exact nomatch hf
  | kill call force itr => exact nomatch hf
  | killAbort call force event => exact nomatch hf

theorem countP_lt_countP {p q : ℕ → Bool} {l : List ℕ} (himp : ∀ k, p k = true → q k = true)
    (hmem : event ∈ l) (hp : p event = false) (hq : q event = true) : l.countP p < l.countP q := by
  obtain ⟨before, after, rfl⟩ := List.append_of_mem hmem
  have hbefore : before.countP p ≤ before.countP q := List.countP_mono_left fun k _ => himp k
  have hafter : after.countP p ≤ after.countP q := List.countP_mono_left fun k _ => himp k
  rw [List.countP_append, List.countP_append, List.countP_cons_of_neg (by simp [hp]),
    List.countP_cons_of_pos hq]
  omega

/-- How many events of the queue have not been aborted. -/
def live (s : EventProcessor) : ℕ := s.queued.countP s.isLive

theorem length_queued (s : EventProcessor) : s.queued.length = s.events.length := List.length_map _

theorem length_fromItr (s : EventProcessor) (itr : Option ℕ) :
    (s.fromItr itr).length ≤ s.events.length := by
  cases itr with
  | none => exact Nat.zero_le _
  | some event => exact (List.dropWhile_sublist _).length_le

/-- A loop of `KillAllEvents` that has called an event has the most before it that it may have. -/
theorem left_le_killAbort (hlive : s'.live ≤ s.live) (hlength : s'.events.length ≤ s.events.length)
    (hf : f.isUpdate = false) : s'.left f ≤ s.live * (s.events.length + 1) + s.events.length := by
  have hmul : s'.live * (s'.events.length + 1) ≤ s.live * (s.events.length + 1) :=
    Nat.mul_le_mul hlive (by omega)
  cases f with
  | kill call force itr => exact Nat.add_le_add hmul ((length_fromItr s' itr).trans hlength)
  | killAbort call force event => exact Nat.add_le_add hmul hlength
  | _ => exact nomatch hf

theorem live_le (s' : EventProcessor) (hsublist : s'.queued.Sublist s.queued)
    (hlive : ∀ event, s'.isLive event = true → s.isLive event = true) : s'.live ≤ s.live :=
  (List.countP_mono_left fun event _ => hlive event).trans hsublist.countP_le

theorem isLive_eq_true_iff :
    s.isLive event = true ↔ ∃ e, s.heap event = some e ∧ e.abortState ≠ .aborted := by
  rw [isLive]
  split
  next h => simp [h]
  next e h => simp [h]

/-! ## What an event or the outside does -/

/-- **The rule for what is done between the passes**: nothing is called, and nothing goes to a time that is
due while an `Update` runs. -/
theorem Kept.quiet (h : s.Kept later) {records : List EventRecord} (hheld : s'.Held)
    (hlog : s'.log = s.log ++ records)
    (hrecords : ∀ r ∈ records, ∃ event ∈ s'.queued, r = .added event)
    (hframes : s'.frames = s.frames) (htime : s'.time = s.time) (hcalls : s'.calls = s.calls)
    (hmade : s.made ≤ s'.made) (hheap : ∀ event e', s'.heap event = some e' →
      (∃ e, s.heap event = some e ∧ (e'.abortState = .aborted ↔ e.abortState = .aborted)) ∨
        (s.made ≤ event ∧ e'.abortState ≠ .aborted))
    (hgone : ∀ event < s.made, s.heap event = none → s'.heap event = none)
    (hqueued : ∀ event ∈ s.queued, event ∈ s'.queued)
    (hevents : later → (∃ f ∈ s.frames, f.isUpdate = true) →
      ∀ entry ∈ s'.events, entry ∈ s.events ∨ s.time < entry.1) : s'.Kept later := by
  have hnone : ∀ {β : Type} (g : EventRecord → Option β), (∀ event, g (.added event) = none) →
      records.filterMap g = [] := by
    intro β g hg
    refine List.filterMap_eq_nil_iff.mpr fun r hr => ?_
    obtain ⟨event, -, rfl⟩ := hrecords r hr
    exact hg event
  refine ⟨hheld, ?_, ?_, ?_⟩
  · refine h.marked.stays hlog (hnone _ fun _ => rfl) (hnone _ fun _ => rfl) (hnone _ fun _ => rfl)
      hmade hheap hgone fun call event => ?_
    rw [hframes]
  · refine h.times.stays hlog (hnone _ fun _ => rfl) (hnone _ fun _ => rfl) htime.ge hcalls.ge
      (fun f hf _ => .inl ⟨f, ?_, rfl, rfl⟩) ?_
    · rw [← hframes]
      exact hf
    · rw [hframes]
      exact hevents
  · refine h.accounted.step hlog (fun r hr k hadds => ?_) fun event hevent _ => .inl (hqueued event hevent)
    obtain ⟨event, hevent, rfl⟩ := hrecords r hr
    rw [show event = k from hadds] at hevent
    exact .inl hevent

/-- What leaves the loops where they are leaves them no more to do. -/
theorem Ranked.quiet (h : s.Ranked later) {records : List EventRecord} (hheld : s'.Held)
    (hlog : s'.log = s.log ++ records)
    (hrecords : ∀ r ∈ records, ∃ event ∈ s'.queued, r = .added event)
    (hframes : s'.frames = s.frames) (htime : s'.time = s.time) (hcalls : s'.calls = s.calls)
    (hevents : later → (∃ f ∈ s.frames, f.isUpdate = true) →
      ∀ entry ∈ s'.events, entry ∈ s.events ∨ s.time < entry.1)
    (hkill : ∀ f ∈ s.frames, f.isUpdate = false → s'.left f ≤ s.left f) : s'.Ranked later := by
  have hpasses : passes records = [] := by
    refine List.filterMap_eq_nil_iff.mpr fun r hr => ?_
    obtain ⟨event, -, rfl⟩ := hrecords r hr
    rfl
  refine h.stays hlog hpasses hcalls.ge fun f hf hlater => .inl ⟨f, ?_, rfl, rfl, ?_⟩
  · rw [← hframes]
    exact hf
  · rw [hframes] at hf
    cases hupdate : f.isUpdate with
    | false => exact hkill f hf hupdate
    | true =>
      rw [left_update hupdate, left_update hupdate]
      exact due_le hheld.nodup htime (hevents (hlater hupdate) ⟨f, hf, hupdate⟩)

/-- A new event is in no queue. -/
theorem Sound.make (h : s.Sound later) : s.make.Sound later := by
  have hother : ∀ event < s.made, s.make.heap event = s.heap event :=
    fun event hlt => Function.update_of_ne hlt.ne _ _
  refine ⟨h.kept.quiet h.kept.held.make (List.append_nil _).symm (fun _ hr => nomatch hr)
    rfl rfl rfl (Nat.le_succ _) (fun event e' he' => ?_)
    (fun event hlt hnone => (hother event hlt).trans hnone) (fun _ hevent => hevent)
    fun _ _ entry hentry => .inl hentry, h.ranked.quiet h.kept.held.make
      (List.append_nil _).symm (fun _ hr => nomatch hr) rfl rfl rfl (fun _ _ entry hentry => .inl hentry)
      fun f hf hupdate => ?_⟩
  · by_cases heq : event = s.made
    · rw [heq] at he' ⊢
      refine .inr ⟨le_rfl, ?_⟩
      have hself : s.make.heap s.made = some ⟨.running, 0, 0⟩ := Function.update_self _ _ _
      rw [← Option.some.inj (hself.symm.trans he')]
      exact AbortState.noConfusion
    · exact .inl ⟨e', (Function.update_of_ne heq _ _).symm.trans he', Iff.rfl⟩
  · have hlive : s.make.live = s.live := by
      refine List.countP_congr fun event hevent => ?_
      rw [isLive, isLive, hother event (h.kept.held.queuedMade event hevent)]
    cases f with
    | kill call force itr =>
      show s.make.live * _ + _ ≤ s.live * _ + _
      rw [hlive]
      exact le_rfl
    | killAbort call force event =>
      show s.make.live * _ + _ ≤ s.live * _ + _
      rw [hlive]
      exact le_rfl
    | _ => exact nomatch hupdate

variable {e e' : BasicEvent}

theorem mark_set (he : s.heap event = some e)
    (hstate : e'.abortState = .aborted ↔ e.abortState = .aborted) (k : ℕ) (ek : BasicEvent)
    (hk : (s.set event e').heap k = some ek) :
    ∃ e, s.heap k = some e ∧ (ek.abortState = .aborted ↔ e.abortState = .aborted) := by
  by_cases heq : k = event
  · rw [heq] at hk ⊢
    have hself : (s.set event e').heap event = some e' := Function.update_self _ _ _
    rw [← Option.some.inj (hself.symm.trans hk)]
    exact ⟨e, he, hstate⟩
  · exact ⟨ek, (Function.update_of_ne heq _ _).symm.trans hk, Iff.rfl⟩

theorem gone_set (he : s.heap event = some e) (k : ℕ) (hk : s.heap k = none) :
    (s.set event e').heap k = none := by
  refine (Function.update_of_ne ?_ _ _).trans hk
  rintro rfl
  rw [hk] at he
  exact nomatch he

theorem isLive_set (he : s.heap event = some e)
    (hstate : e'.abortState = .aborted ↔ e.abortState = .aborted) (k : ℕ) :
    (s.set event e').isLive k = s.isLive k := by
  by_cases heq : k = event
  · subst heq
    rw [isLive, isLive, he, show (s.set k e').heap k = some e' from Function.update_self _ _ _]
    simp [hstate]
  · rw [isLive, isLive, show (s.set event e').heap k = s.heap k from Function.update_of_ne heq _ _]

/-- A running event is marked for its abort. -/
theorem Sound.scheduleAbort (h : s.Sound later) (he : s.heap event = some e)
    (hstate : e.abortState = .running) : Yields (s.scheduleAbort event) (Sound later) := by
  have heq : s.scheduleAbort event = .ok (s.set event { e with abortState := .abortScheduled }) := by
    rw [EventProcessor.scheduleAbort, find_eq he]
    exact if_pos hstate
  have hiff : (AbortState.abortScheduled = .aborted ↔ e.abortState = .aborted) := by rw [hstate]; simp
  rw [heq]
  have hheld := h.kept.held.set { e with abortState := .abortScheduled } he fun hne =>
    absurd hstate hne
  refine .ok ⟨h.kept.quiet hheld (List.append_nil _).symm (fun _ hr => nomatch hr) rfl rfl
    rfl le_rfl (fun k ek hk => .inl (mark_set he hiff k ek hk)) (fun k _ hk => gone_set he k hk)
    (fun _ hevent => hevent) fun _ _ entry hentry => .inl hentry, h.ranked.quiet hheld
      (List.append_nil _).symm (fun _ hr => nomatch hr) rfl rfl rfl (fun _ _ entry hentry => .inl hentry)
      fun f hf hupdate => ?_⟩
  have hlive : (s.set event { e with abortState := .abortScheduled }).live = s.live :=
    List.countP_congr fun k _ => by rw [isLive_set he hiff]
  cases f with
  | kill call force itr =>
    show EventProcessor.live _ * _ + _ ≤ s.live * _ + _
    rw [hlive]
    exact le_rfl
  | killAbort call force event =>
    show EventProcessor.live _ * _ + _ ≤ s.live * _ + _
    rw [hlive]
    exact le_rfl
  | _ => exact nomatch hupdate

theorem mem_placed {eTime : ℕ} (hlater : s.frames ≠ [] → s.time < eTime)
    (hframes : ∃ f ∈ s.frames, f.isUpdate = true) (entry : ℕ × ℕ)
    (hentry : entry ∈ (s.placed event e eTime).events) : entry ∈ s.events ∨ s.time < entry.1 := by
  obtain rfl | hentry := mem_multimapInsert.mp hentry
  · obtain ⟨f, hf, -⟩ := hframes
    exact .inr (hlater (List.ne_nil_of_mem hf))
  · exact .inl hentry

theorem Kept.placed (h : s.Kept later) (he : s.heap event = some e)
    (hstate : e'.abortState = e.abortState) (hnot : event ∉ s.queued) (hkill : s.NoKill)
    (hcalled : ∀ call, .abort call event ∉ s.frames) (eTime : ℕ)
    (hlater : s.frames ≠ [] → s.time < eTime) : (s.placed event e' eTime).Kept later := by
  refine h.quiet (h.held.placed he hstate hnot hkill hcalled eTime) rfl (fun r hr => ?_) rfl rfl
    rfl le_rfl (fun k ek hk => .inl (mark_set he (by rw [hstate]) k ek hk))
    (fun k _ hk => gone_set he k hk) (fun k hk => queued_placed.mpr (.inr hk)) fun _ => mem_placed hlater
  exact ⟨event, queued_placed.mpr (.inl rfl), List.mem_singleton.mp hr⟩

/-- An event that is in no queue is added. -/
theorem Sound.addEvent (h : s.Sound later) (he : s.heap event = some e) (hnot : event ∉ s.queued)
    (hkill : s.NoKill) (hcalled : ∀ call, .abort call event ∉ s.frames) {eTime : ℕ}
    (hlater : s.frames ≠ [] → s.time < eTime) :
    Yields (s.addEvent event eTime true) (Sound later) := by
  obtain ⟨e', hstate, heq⟩ := addEvent_eq he eTime true
  rw [heq]
  have hkept := h.kept.placed he hstate hnot hkill hcalled eTime hlater
  refine .ok ⟨hkept, h.ranked.quiet hkept.held rfl (fun r hr => ?_) rfl rfl rfl (fun _ => mem_placed hlater)
    fun f hf hupdate => absurd (hkill f hf) (by rw [hupdate]; exact Bool.false_ne_true)⟩
  exact ⟨event, queued_placed.mpr (.inl rfl), List.mem_singleton.mp hr⟩

theorem inLoop_of_kill {frames : List EventFrame} (hstack : Stack s.frames) (hf : s.frames = frames)
    {call : ℕ} {force : Bool} {itr : Option ℕ} (hkill : .kill call force itr ∈ frames) : s.inLoop = true := by
  cases frames with
  | nil => cases hkill
  | cons top frames =>
    rw [hf] at hstack
    obtain rfl | hmem := List.mem_cons.mp hkill
    · rw [inLoop, hf]
    · cases (hstack.tail.2 _ hmem).1

/-- An event is moved to another time, where no loop runs. -/
theorem Sound.modifyEventTime (h : s.Sound later) (he : s.heap event = some e)
    (hloop : s.inLoop = false) (hother : ∀ call force, .killAbort call force event ∉ s.frames)
    {newTime : ℕ} (hlater : later → (∃ f ∈ s.frames, f.isUpdate = true) → s.time < newTime) :
    Yields (s.modifyEventTime event newTime) (Sound later) := by
  rw [EventProcessor.modifyEventTime]
  split
  · next hmem =>
    rw [find_eq he]
    obtain ⟨e', hstate, heq⟩ : ∃ e', e'.abortState = e.abortState ∧
      e' = { e with execTime := newTime } := ⟨_, rfl, rfl⟩
    have hiff : e'.abortState = .aborted ↔ e.abortState = .aborted := by rw [hstate]
    have hperm := perm_moved hmem e' newTime
    show Yields (.ok (s.moved event { e with execTime := newTime } newTime)) (Sound later)
    rw [← heq]
    have hheld := h.kept.held.moved he hstate hmem hloop hother newTime
    have hevents : later → (∃ f ∈ s.frames, f.isUpdate = true) →
        ∀ entry ∈ (s.moved event e' newTime).events, entry ∈ s.events ∨ s.time < entry.1 := by
      intro hlate hupdate entry hentry
      obtain rfl | hentry := mem_multimapInsert.mp hentry
      · exact .inr (hlater hlate hupdate)
      · exact .inl (List.mem_of_mem_eraseP hentry)
    have hlive : (s.moved event e' newTime).live = s.live := by
      refine (hperm.countP_eq _).trans (List.countP_congr fun k _ => ?_)
      rw [← isLive_set he hiff k]
      rfl
    have hlength : (s.moved event e' newTime).events.length = s.events.length := by
      rw [← length_queued, ← length_queued, hperm.length_eq]
    refine .ok ⟨?_, ?_⟩
    · exact h.kept.quiet hheld (List.append_nil _).symm (fun _ hr => nomatch hr) rfl
        rfl rfl le_rfl (fun k ek hk => .inl (mark_set he hiff k ek hk)) (fun k _ hk => gone_set he k hk)
        (fun k hk => hperm.mem_iff.mpr hk) hevents
    · refine h.ranked.quiet hheld
        (List.append_nil _).symm (fun _ hr => nomatch hr) rfl rfl rfl hevents fun f hf hupdate => ?_
      cases f with
      | killAbort call force k => exact left_le_killAbort hlive.le hlength.le rfl
      | kill call force itr =>
        rw [inLoop_of_kill h.kept.held.stack rfl hf] at hloop
        cases hloop
      | _ => exact nomatch hupdate
  · exact .ok h

end EventProcessor

end Sunstrider.Utilities
