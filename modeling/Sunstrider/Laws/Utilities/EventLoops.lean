import Sunstrider.Laws.Utilities.EventRuns

/-!
# The loops of the event processor

The passes of `Update` and of `KillAllEvents`, and what comes of a run (`events_timely`).
-/

namespace Sunstrider.Utilities

open Lib

namespace EventProcessor

variable {s : EventProcessor} {later : Prop}

/-! ## Loops that go on -/

variable {f : EventFrame} {frames : List EventFrame}

theorem Stack.eq_nil (h : Stack (f :: frames)) (hf : f.isUpdate = true) : frames = [] := by
  cases h with
  | update _ => rfl
  | kill hkill => exact absurd (hf.symm.trans hkill) (Bool.false_ne_true ∘ Eq.symm)
  | killIn hkill _ _ => exact absurd (hf.symm.trans hkill) (Bool.false_ne_true ∘ Eq.symm)

theorem noKill_of_frames (hframes : s.frames = [f]) (hf : f.isUpdate = true) : s.NoKill := by
  intro g hg
  rw [hframes] at hg
  rw [List.mem_singleton.mp hg]
  exact hf

variable {call : ℕ}

theorem no_abort_of_update (hframes : s.frames = [.update call]) (call' event : ℕ) :
    EventFrame.abort call' event ∉ s.frames := by
  rw [hframes]
  exact fun hmem => nomatch List.mem_singleton.mp hmem

theorem Kept.goto (h : s.Kept later) (f : EventFrame) (hkill : s.NoKill) (hf : f.isUpdate = true)
    (hok : s.FrameOk f) (hcall : s.GoesOn f) (calls : ℕ) (hcalls : s.calls ≤ calls)
    (hcounted : f.call < calls)
    (haborts : ∀ call event, .abort call event ∈ [f] ↔ .abort call event ∈ s.frames) :
    Kept later { s with frames := [f], calls } where
  held := by
    refine h.held.goto [f] calls (.update hf) ?_ ?_ fun entry hentry => ?_
    · exact fun g hg => by
        rw [List.mem_singleton.mp hg]
        exact hok
    · exact fun g hg => by
        rw [List.mem_singleton.mp hg]
        exact hcounted
    · rw [exposed_of_noKill hkill]
      rw [exposed_of_noKill (s := { s with frames := [f] }) (noKill_of_frames rfl hf)] at hentry
      exact hentry
  marked := h.marked.untouched (List.append_nil _).symm rfl rfl rfl rfl rfl haborts
  times := by
    refine h.times.stays (List.append_nil _).symm rfl rfl le_rfl hcalls (fun g hg _ => ?_)
      fun _ _ entry hentry => .inl hentry
    rw [List.mem_singleton.mp hg]
    exact hcall
  accounted := h.accounted

variable {event : ℕ} {e : BasicEvent}

/-- An event that is no longer queued is deleted, while no `KillAllEvents` runs. -/
theorem Kept.gone (h : s.Kept later) (he : s.heap event = some e) (hnot : event ∉ s.queued)
    (hkill : s.NoKill) (hcalled : ∀ call, .abort call event ∉ s.frames) :
    (s.gone event).Kept later where
  held := by
    refine h.held.gone (fun entry hentry => ?_) hcalled fun call force hmem => nomatch hkill _ hmem
    rw [exposed_of_noKill hkill] at hentry
    rintro rfl
    exact hnot (List.mem_map_of_mem hentry)
  marked := h.marked.delete he (h.held.made he)
  times := h.times.stays rfl rfl rfl le_rfl le_rfl (fun f hf _ => .inl ⟨f, hf, rfl, rfl⟩)
    fun _ _ entry hentry => .inl hentry
  accounted := by
    exact h.accounted.record rfl (fun _ => not_false) fun _ hk _ => .inl hk

variable {s' : EventProcessor} {records : List EventRecord}

theorem Ranked.goto (h : s.Ranked later) {f' : EventFrame} (hframes : s.frames = [f])
    (hframes' : s'.frames = [f']) (hlog : s'.log = s.log ++ records) (hpasses : passes records = [])
    (hcalls : s'.calls = s.calls) (hf : f.isUpdate = true) (hf' : f'.isUpdate = true)
    (hcall : f.call = f'.call) (hdue : s'.due ≤ s.due) : s'.Ranked later := by
  refine h.stays hlog hpasses hcalls.ge fun g hg _ => .inl ⟨f, ?_, ?_, ?_, ?_⟩
  · rw [hframes]
    exact List.mem_cons_self
  · rw [hframes'] at hg
    rw [List.mem_singleton.mp hg, hf, hf']
  · rw [hframes'] at hg
    rw [List.mem_singleton.mp hg]
    exact hcall
  · rw [hframes'] at hg
    rw [List.mem_singleton.mp hg, left_update hf, left_update hf']
    exact hdue

theorem Ranked.updatePass (h : s.Ranked later) (hframes : s.frames = [.update call])
    (hcounted : call < s.calls) (hlog : s'.log = s.log ++ .passed (.update call) s.due :: records)
    (hpasses : passes records = []) (hcalls : s'.calls = s.calls) (hframes' : s'.frames = frames)
    (hless : ∀ f ∈ frames, f.isUpdate = true ∧ f.call = call ∧ s'.due < s.due) :
    s'.Ranked later := by
  have hmem : EventFrame.update call ∈ s.frames := mem_frames hframes
  refine h.pass hmem hcounted hlog hpasses hcalls fun g hg => ?_
  rw [hframes'] at hg
  obtain ⟨hupdate, hcall, hlt⟩ := hless g hg
  rw [left_update hupdate]
  refine ⟨fun _ => hlt, _, hmem, hupdate.symm, hcall.symm, ?_⟩
  rw [left_update hupdate]
  exact hlt.le

variable {due : ℕ} {events : List (ℕ × ℕ)}

theorem Ranked.callFirst (h : s.Ranked later) (hframes : s.frames = [.update call])
    (hcounted : call < s.calls) (hevents : s.events = (due, event) :: events) (hdue : due ≤ s.time)
    (hlog : s'.log = s.log ++ .passed (.update call) s.due :: records)
    (hpasses : passes records = []) (hcalls : s'.calls = s.calls) (hframes' : s'.frames = [f])
    (hf : f.isUpdate = true ∧ f.call = call) (hnodup : s'.queued.Nodup) (htime : s'.time = s.time)
    (hevents' : s'.events = events) : s'.Ranked later := by
  have hless : s'.due < s.due := due_lt hevents hdue hnodup htime fun _ hentry => .inl (hevents' ▸ hentry)
  refine h.updatePass hframes hcounted hlog hpasses hcalls hframes' fun g hg => ?_
  rw [List.mem_singleton.mp hg]
  exact ⟨hf.1, hf.2, hless⟩

/-! ## A pass of `Update` -/

/-- `Update` returns: nothing is due. -/
theorem Sound.return (h : s.Sound later) (hframes : s.frames = [.update call])
    (hnone : ∀ entry ∈ s.events, s.time < entry.1) :
    Sound later { s.pass (.update call) with
      frames := []
      log := (s.pass (.update call)).log ++ [.returned call s.time s.events] } := by
  have hkill := noKill_of_frames hframes rfl
  have hkept := h.kept.pass (.update call)
  have hcounted : call < s.calls :=
    h.kept.held.counted (.update call) (mem_frames hframes)
  refine ⟨⟨?_, ?_, hkept.times.return call hnone, ?_⟩, ?_⟩
  · refine (hkept.held.goto [] s.calls .empty (fun _ hf => nomatch hf) (fun _ hf => nomatch hf)
      fun entry hentry => ?_).congr rfl rfl rfl rfl rfl
    rw [exposed_of_noKill (s := s.pass (.update call)) hkill]
    exact hentry
  · refine hkept.marked.untouched rfl rfl rfl rfl rfl rfl fun call' event => ?_
    rw [show (s.pass (.update call)).frames = _ from hframes]
    simp
  · exact hkept.accounted.record rfl (fun _ => not_false) fun _ hk _ => .inl hk
  · exact h.ranked.updatePass hframes hcounted (List.append_assoc _ _ _) rfl rfl rfl fun _ hf => nomatch hf

section First

variable (h : s.Sound later) (hframes : s.frames = [.update call])
  (hevents : s.events = (due, event) :: events) (hdue : due ≤ s.time) (he : s.heap event = some e)

include h hframes hevents hdue he

theorem Sound.execute (hstate : e.abortState = .running) :
    Sound later { s.pass (.update call) with
      events
      frames := [.execute call event]
      log := (s.pass (.update call)).log ++ [.executed ⟨call, event, due, s.time⟩] } := by
  have hkept := h.kept.pass (.update call)
  have hcounted : call < s.calls :=
    h.kept.held.counted (.update call) (mem_frames hframes)
  obtain ⟨hpop, -, -⟩ := hkept.held.pop hframes hevents
  have hno := no_abort_of_update hframes
  have hkill : NoKill { s.pass (.update call) with events } := noKill_of_frames hframes rfl
  refine ⟨⟨?_, ?_, hkept.times.execute hkept.held.ordered hcounted hframes hevents hdue, ?_⟩, ?_⟩
  · refine (hpop.goto [.execute call event] s.calls (.update rfl) (fun f hf => ?_)
      (fun f hf => ?_) fun entry hentry => ?_).congr rfl rfl rfl rfl rfl
    · rw [List.mem_singleton.mp hf]
      trivial
    · rw [List.mem_singleton.mp hf]
      exact hcounted
    · rw [exposed_of_noKill hkill]
      exact hentry
  · refine hkept.marked.execute (x := ⟨call, event, due, s.time⟩) he
      (by rw [hstate]; exact AbortState.noConfusion) (hno · event) rfl rfl rfl fun call' k =>
        ⟨fun hmem => (nomatch List.mem_singleton.mp hmem), fun hmem => absurd hmem (hno call' k)⟩
  · exact hkept.accounted.recordFirst rfl (fun _ => not_false) hevents rfl rfl
  · exact h.ranked.callFirst hframes hcounted hevents hdue (List.append_assoc _ _ _) rfl rfl rfl ⟨rfl, rfl⟩
      hpop.nodup rfl rfl

theorem Sound.abort (hstate : e.abortState = .abortScheduled) :
    Sound later { s.pass (.update call) with
      events
      frames := [.abort call event]
      log := (s.pass (.update call)).log ++ [.aborted event] } := by
  have hkept := h.kept.pass (.update call)
  have hmem : EventFrame.update call ∈ s.frames := mem_frames hframes
  have hcounted : call < s.calls := h.kept.held.counted _ hmem
  obtain ⟨hpop, hnot, -⟩ := hkept.held.pop hframes hevents
  have hno := no_abort_of_update hframes
  have hkill : NoKill { s.pass (.update call) with events } := noKill_of_frames hframes rfl
  refine ⟨⟨?_, ?_, ?_, ?_⟩, ?_⟩
  · refine (hpop.goto [.abort call event] s.calls (.update rfl) (fun f hf => ?_)
      (fun f hf => ?_) fun entry hentry => ?_).congr rfl rfl rfl rfl rfl
    · rw [List.mem_singleton.mp hf]
      exact ⟨hnot, e, he, hstate⟩
    · rw [List.mem_singleton.mp hf]
      exact hcounted
    · rw [exposed_of_noKill hkill]
      exact hentry
  · refine hkept.marked.abort he (by rw [hstate]; exact AbortState.noConfusion) (h.kept.held.made he)
      (hno · event) rfl rfl (fun _ _ => rfl) ⟨e, he, .inr ⟨call, List.mem_singleton_self _⟩⟩
      (fun call' k hmem => absurd hmem (hno call' k)) fun call' k hmem => .inl ?_
    cases List.mem_singleton.mp hmem
    rfl
  · refine hkept.times.stays rfl rfl rfl le_rfl le_rfl (fun f hf _ => .inl ⟨_, hmem, ?_, ?_⟩)
      fun _ _ entry hentry => .inl ?_
    · rw [List.mem_singleton.mp hf]
      rfl
    · rw [List.mem_singleton.mp hf]
      rfl
    · rw [show (s.pass (.update call)).events = _ from hevents]
      exact List.mem_cons_of_mem _ hentry
  · exact hkept.accounted.recordFirst rfl (fun _ => not_false) hevents rfl rfl
  · exact h.ranked.callFirst hframes hcounted hevents hdue (List.append_assoc _ _ _) rfl rfl rfl ⟨rfl, rfl⟩
      hpop.nodup rfl rfl

/-- `Update` deletes the first event, which has been aborted, or puts it back to a later time. -/
theorem Sound.discard (hstate : e.abortState = .aborted) (isDeletable : Bool) :
    Yields (EventProcessor.discard { s.pass (.update call) with events } event isDeletable) (Sound later) := by
  have hkept := h.kept.pass (.update call)
  have hmem : EventFrame.update call ∈ s.frames := mem_frames hframes
  have hcounted : call < s.calls := h.kept.held.counted _ hmem
  obtain ⟨hpop, hnot, -⟩ := hkept.held.pop hframes hevents
  have hno := no_abort_of_update hframes
  have hkill : NoKill { s.pass (.update call) with events } := noKill_of_frames hframes rfl
  have htaken : Kept later { s.pass (.update call) with events } := by
    refine ⟨hpop, hkept.marked.untouched (List.append_nil _).symm rfl rfl rfl rfl rfl fun _ _ => Iff.rfl,
      hkept.times.stays (List.append_nil _).symm rfl rfl le_rfl le_rfl
        (fun f hf _ => .inl ⟨f, hf, rfl, rfl⟩) fun _ _ entry hentry => .inl ?_, ?_⟩
    · rw [show (s.pass (.update call)).events = _ from hevents]
      exact List.mem_cons_of_mem _ hentry
    · refine hkept.accounted.step (List.append_nil _).symm (fun _ hr => nomatch hr)
        fun k hk _ => ?_
      rw [queued, show (s.pass (.update call)).events = _ from hevents] at hk
      obtain rfl | hk := List.mem_cons.mp hk
      · exact .inr (hkept.marked.marked _ e he hstate)
      · exact .inl hk
  obtain ⟨e', hstate', heq⟩ := discard_eq (s := { s.pass (.update call) with events }) he isDeletable
  rw [heq]
  cases isDeletable with
  | true =>
    have hgone := htaken.gone he hnot hkill (hno · event)
    refine .ok ⟨hgone, ?_⟩
    refine h.ranked.updatePass hframes hcounted (List.append_assoc _ _ _) rfl rfl hframes fun f hf => ?_
    rw [List.mem_singleton.mp hf]
    exact ⟨rfl, rfl, due_lt hevents hdue hgone.held.nodup rfl fun _ hentry => .inl hentry⟩
  | false =>
    have hlater : s.time < s.time + 1 := Nat.lt_succ_self _
    have hplaced := htaken.placed he hstate' hnot hkill (hno · event) (s.time + 1) fun _ => hlater
    refine .ok ⟨hplaced, ?_⟩
    refine h.ranked.updatePass hframes hcounted (List.append_assoc _ _ _) rfl rfl hframes fun f hf => ?_
    rw [List.mem_singleton.mp hf]
    refine ⟨rfl, rfl, due_lt hevents hdue hplaced.held.nodup rfl fun entry hentry => ?_⟩
    exact mem_placed (s := { s.pass (.update call) with events }) (fun _ => hlater)
      ⟨_, hmem, rfl⟩ entry hentry

end First

theorem updatePass_of_none (hnone : ∀ entry ∈ s.events, s.time < entry.1) (call : ℕ)
    (frames : List EventFrame) (isDeletable : Bool) :
    s.updatePass call frames isDeletable =
      .ok { s with frames, log := s.log ++ [.returned call s.time s.events] } := by
  rw [EventProcessor.updatePass]
  split
  · rfl
  · next due event events hevents =>
    refine if_neg (not_le.mpr (hnone (due, event) ?_))
    rw [hevents]
    exact List.mem_cons_self

theorem updatePass_of_due (hevents : s.events = (due, event) :: events) (hdue : due ≤ s.time)
    (he : s.heap event = some e) (call : ℕ) (frames : List EventFrame) (isDeletable : Bool) :
    s.updatePass call frames isDeletable =
      match e.abortState with
      | .running =>
        .ok { s with
          events
          frames := .execute call event :: frames
          log := s.log ++ [.executed ⟨call, event, due, s.time⟩] }
      | .abortScheduled =>
        .ok { s with events, frames := .abort call event :: frames, log := s.log ++ [.aborted event] }
      | .aborted => EventProcessor.discard { s with events } event isDeletable := by
  rw [EventProcessor.updatePass]
  split
  next hnil => exact nomatch hevents.symm.trans hnil
  next due' event' events' hevents' =>
    cases hevents.symm.trans hevents'
    rw [if_pos hdue]
    dsimp only
    rw [find_eq (s := { s with events }) he]
    rfl

theorem Sound.updatePass (h : s.Sound later) (hframes : s.frames = [.update call])
    (isDeletable : Bool) :
    Yields ((s.pass (.update call)).updatePass call [] isDeletable) (Sound later) := by
  by_cases hnone : ∀ entry ∈ s.events, s.time < entry.1
  · rw [updatePass_of_none (s := s.pass (.update call)) hnone]
    exact .ok (h.return hframes hnone)
  · obtain ⟨⟨due, event⟩, events, hevents⟩ : ∃ entry events, s.events = entry :: events := by
      cases hevents : s.events with
      | nil =>
        rw [hevents] at hnone
        exact absurd (fun _ hentry => nomatch hentry) hnone
      | cons entry events => exact ⟨entry, events, rfl⟩
    have hdue : due ≤ s.time := by
      by_contra hlater
      have hordered := h.kept.held.ordered
      rw [hevents] at hordered hnone
      refine hnone (List.forall_mem_cons.mpr ⟨not_le.mp hlater, fun entry hentry => ?_⟩)
      exact (not_le.mp hlater).trans_le ((List.pairwise_cons.mp hordered).1 entry hentry)
    obtain ⟨-, -, e, he⟩ := (h.kept.pass (.update call)).held.pop hframes hevents
    rw [updatePass_of_due (s := s.pass (.update call)) hevents hdue he]
    cases hstate : e.abortState with
    | running => exact .ok (h.execute hframes hevents hdue he hstate)
    | abortScheduled => exact .ok (h.abort hframes hevents hdue he hstate)
    | aborted => exact h.discard hframes hevents hdue he hstate isDeletable

/-! ## An event comes back to `Update` -/

theorem Sound.executed (h : s.Sound later) (hframes : s.frames = [.execute call event]) :
    Sound later { s with frames := [.update call] } := by
  have hkill := noKill_of_frames hframes rfl
  have hmem : EventFrame.execute call event ∈ s.frames := mem_frames hframes
  have hok : s.FrameOk (.update call) := trivial
  have hcounted : call < s.calls := h.kept.held.counted _ hmem
  refine ⟨h.kept.goto (.update call) hkill rfl hok (.inl ⟨_, hmem, rfl, rfl⟩) s.calls le_rfl
    hcounted fun call' k => ?_, ?_⟩
  · rw [hframes]
    simp
  · exact h.ranked.goto hframes rfl (List.append_nil _).symm rfl rfl rfl rfl rfl le_rfl

theorem Sound.gone (h : s.Sound later) (he : s.heap event = some e) (hnot : event ∉ s.queued)
    (hframes : s.frames = [.update call]) : (s.gone event).Sound later := by
  have hkill := noKill_of_frames hframes rfl
  refine ⟨h.kept.gone he hnot hkill fun call' hmem => ?_, ?_⟩
  · rw [hframes] at hmem
    exact nomatch List.mem_singleton.mp hmem
  · exact h.ranked.goto hframes hframes rfl rfl rfl rfl rfl rfl le_rfl

/-- `Abort` returns: the event gets its mark, and is deleted, or put back to a later time. -/
theorem Sound.aborted (h : s.Sound later) (hframes : s.frames = [.abort call event])
    (answer : Bool) :
    Yields (s.proceed answer) (Sound later) := by
  have hkill := noKill_of_frames hframes rfl
  have hmem : EventFrame.abort call event ∈ s.frames := mem_frames hframes
  obtain ⟨hnot, e, he, hstate⟩ := h.kept.held.frames _ hmem
  have hcounted : call < s.calls := h.kept.held.counted _ hmem
  have hne : e.abortState ≠ .aborted := by
    rw [hstate]
    exact AbortState.noConfusion
  have hone : ∀ call' k, EventFrame.abort call' k ∈ s.frames → k = event := by
    intro call' k hk
    rw [hframes] at hk
    cases List.mem_singleton.mp hk
    rfl
  obtain ⟨e', he'⟩ : ∃ e', e' = { e with abortState := .aborted } := ⟨_, rfl⟩
  have hmarked : Kept later { s.set event e' with frames := [.update call] } := by
    refine ⟨?_, ?_, ?_, ?_⟩
    · refine h.kept.held.setGoto e' he [.update call] (.update rfl) (fun f hf => ?_) (fun f hf => ?_) fun entry hentry => ?_
      · rw [List.mem_singleton.mp hf]
        trivial
      · rw [List.mem_singleton.mp hf]
        exact hcounted
      · rw [exposed_of_noKill hkill]
        rw [exposed_of_noKill (s := { s with frames := [.update call] }) (noKill_of_frames rfl rfl)] at hentry
        exact hentry
    · rw [he']
      refine h.kept.marked.setAborted he (h.kept.marked.called call event hmem)
        (fun call' k hk hkne => absurd (hone call' k hk) hkne) fun call' k hk => ?_
      exact nomatch List.mem_singleton.mp hk
    · refine h.kept.times.stays (List.append_nil _).symm rfl rfl le_rfl le_rfl
        (fun f hf _ => .inl ⟨_, hmem, ?_, ?_⟩) fun _ _ entry hentry => .inl hentry
      · rw [List.mem_singleton.mp hf]
        rfl
      · rw [List.mem_singleton.mp hf]
        rfl
    · exact h.kept.accounted
  have hself : (s.set event e').heap event = some e' := Function.update_self _ _ _
  have hno : ∀ call', EventFrame.abort call' event ∉ [EventFrame.update call] :=
    fun call' hk => nomatch List.mem_singleton.mp hk
  obtain ⟨e'', hstate'', heq⟩ := discard_eq hself answer
  have hproceed : s.proceed answer =
      .ok { (if answer then (s.set event e').gone event
        else (s.set event e').placed event e'' (s.time + 1)) with frames := [.update call] } := by
    rw [proceed, hframes]
    dsimp only
    rw [setAborted_eq he hne, ← he']
    show ((s.set event e').discard event answer >>= _) = _
    rw [heq]
    rfl
  rw [hproceed]
  cases answer with
  | true =>
    refine .ok ⟨hmarked.gone hself hnot (noKill_of_frames rfl rfl) hno, ?_⟩
    exact h.ranked.goto hframes rfl rfl rfl rfl rfl rfl rfl le_rfl
  | false =>
    have hlater : s.time < s.time + 1 := Nat.lt_succ_self _
    have hplaced := hmarked.placed hself hstate'' hnot (noKill_of_frames rfl rfl) hno (s.time + 1) fun _ =>
      hlater
    refine .ok ⟨hplaced, h.ranked.goto hframes rfl rfl rfl rfl rfl rfl rfl ?_⟩
    refine due_le hplaced.held.nodup rfl fun entry hentry => ?_
    exact mem_placed (s := { s.set event e' with frames := [.update call] }) (fun _ => hlater)
      ⟨_, List.mem_singleton_self _, rfl⟩ entry hentry

/-! ## Loops that begin -/

theorem Sound.update (h : s.Sound later) (hframes : s.frames = []) (pTime : ℕ) :
    Sound later { s with time := s.time + pTime, frames := [.update s.calls], calls := s.calls + 1 } := by
  have hkill : s.NoKill := by
    intro f hf
    rw [hframes] at hf
    exact nomatch hf
  have hok : s.FrameOk (.update s.calls) := trivial
  have hbegun := h.kept.goto (.update s.calls) hkill rfl hok (.inr le_rfl) (s.calls + 1) (Nat.le_succ s.calls)
    (Nat.lt_succ_self s.calls) fun call event => by
      rw [hframes]
      simp
  refine ⟨⟨hbegun.held.congr rfl rfl rfl rfl rfl, ?_, ?_, h.kept.accounted⟩, ?_⟩
  · exact hbegun.marked.untouched (List.append_nil _).symm rfl rfl rfl rfl rfl fun _ _ => Iff.rfl
  · refine h.kept.times.stays (List.append_nil _).symm rfl rfl (Nat.le_add_right _ _)
      (Nat.le_succ _) (fun f hf _ => .inr ?_) fun _ _ entry hentry => .inl hentry
    rw [List.mem_singleton.mp hf]
    exact le_rfl
  · refine h.ranked.stays (List.append_nil _).symm rfl (Nat.le_succ _) fun f hf _ => .inr ?_
    rw [List.mem_singleton.mp hf]
    exact le_rfl

theorem isCalled_of_frames (hstack : Stack s.frames) (hloop : s.inLoop = false) (hkill : s.NoKill) :
    s.frames = [] ∨ ∃ g, s.frames = [g] ∧ g.isCalled = true := by
  cases hframes : s.frames with
  | nil => exact .inl rfl
  | cons g frames =>
    rw [hframes] at hstack
    have hupdate := hkill g (mem_frames hframes)
    rw [hstack.eq_nil hupdate]
    refine .inr ⟨g, rfl, ?_⟩
    rw [inLoop, hframes] at hloop
    cases g with
    | execute call event => rfl
    | abort call event => rfl
    | update call => cases hloop
    | kill call force itr => cases hloop
    | killAbort call force event => cases hupdate

theorem Sound.killAllEvents (h : s.Sound later) (hloop : s.inLoop = false) (hkill : s.NoKill) (force : Bool) :
    Sound later { s with
      aborting := true
      frames := .kill s.calls force (s.queued.head?) :: s.frames
      calls := s.calls + 1 } := by
  have hstack : Stack (.kill s.calls force (s.queued.head?) :: s.frames) := by
    obtain hframes | ⟨g, hframes, hg⟩ := isCalled_of_frames h.kept.held.stack hloop hkill
    · rw [hframes]
      exact .kill rfl
    · rw [hframes]
      refine .killIn rfl hg (h.kept.held.counted g ?_).ne'
      rw [hframes]
      exact List.mem_cons_self
  have hhead : s.queued.head? = s.events.head?.map Prod.snd := List.head?_map ..
  refine ⟨⟨?_, ?_, ?_, h.kept.accounted⟩, ?_⟩
  · refine (h.kept.held.goto _ (s.calls + 1) hstack (List.forall_mem_cons.mpr ⟨?_, h.kept.held.frames⟩)
      (List.forall_mem_cons.mpr ⟨Nat.lt_succ_self s.calls, fun f hf =>
        (h.kept.held.counted f hf).trans (Nat.lt_succ_self _)⟩) fun entry hentry => ?_).congr
        rfl rfl rfl rfl rfl
    · cases hfirst : s.queued.head? with
      | none => trivial
      | some event => exact List.mem_of_mem_head? hfirst
    · rw [exposed_of_noKill hkill]
      cases force with
      | false => exact hentry
      | true =>
        rw [exposed, hhead] at hentry
        have hfirst := fromItr_head (s := s) [] s.events rfl h.kept.held.nodup rfl
        rw [← hfirst]
        exact hentry
  · refine h.kept.marked.untouched (List.append_nil _).symm rfl rfl rfl rfl rfl fun call event => ?_
    simp
  · refine h.kept.times.stays (List.append_nil _).symm rfl rfl le_rfl (Nat.le_succ _)
      (fun f hf hupdate => ?_) fun _ _ entry hentry => .inl hentry
    obtain rfl | hf := List.mem_cons.mp hf
    · cases hupdate
    · exact .inl ⟨f, hf, rfl, rfl⟩
  · refine h.ranked.stays (List.append_nil _).symm rfl (Nat.le_succ _) fun f hf _ => ?_
    obtain rfl | hf := List.mem_cons.mp hf
    · exact .inr le_rfl
    · exact .inl ⟨f, hf, rfl, rfl, by cases f <;> exact le_rfl⟩

/-! ## A pass of `KillAllEvents` -/

theorem under_le (s' : EventProcessor) (hstack : Stack (f :: frames)) (hnodup : s'.queued.Nodup)
    (htime : s'.time = s.time) (hevents : ∀ entry ∈ s'.events, entry ∈ s.events) :
    ∀ g ∈ frames, g.call ≠ f.call ∧ s'.left g ≤ s.left g := by
  intro g hg
  obtain ⟨hcalled, hne⟩ := hstack.tail.2 g hg
  have hupdate := isUpdate_of_isCalled hcalled
  rw [left_update hupdate, left_update hupdate]
  exact ⟨hne.symm, due_le hnodup htime fun entry hentry => .inl (hevents entry hentry)⟩

variable {force : Bool}

theorem Sound.killEnd (h : s.Sound later) (hframes : s.frames = .kill call force none :: frames)
    (answer : Bool) :
    Yields ((s.pass (.kill call force none)).killPass call force none frames answer) (Sound later) := by
  have hstack := h.kept.held.stack
  rw [hframes] at hstack
  have hmem : EventFrame.kill call force none ∈ s.frames := mem_frames hframes
  have hsub : ∀ f ∈ frames, f ∈ s.frames := fun _ hf => mem_frames_of_under hframes hf
  have hkept := h.kept.pass (.kill call force none)
  have hkill : ∀ f ∈ frames, f.isUpdate = true := fun f hf =>
    isUpdate_of_isCalled (hstack.tail.2 f hf).1
  have haborts : ∀ call' event, EventFrame.abort call' event ∈ frames ↔
      EventFrame.abort call' event ∈ s.frames := by
    intro call' event
    rw [hframes]
    simp
  rw [killPass]
  cases force with
  | true =>
    refine .ok ⟨⟨?_, ?_, ?_, ?_⟩, ?_⟩
    · refine ⟨keyOrdered_nil, List.nodup_nil, h.kept.held.fresh, fun _ hevent => absurd hevent List.not_mem_nil,
        fun entry hentry => ?_, hstack.tail.1, fun f hf => ?_, fun f hf => h.kept.held.counted f (hsub f hf)⟩
      · have hnil : exposed { s with events := [], frames } = [] :=
          exposed_of_noKill (s := { s with events := [], frames }) hkill
        have hentry' : entry ∈ exposed { s with events := [], frames } := hentry
        rw [hnil] at hentry'
        cases hentry'
      · have hok := h.kept.held.frames f (hsub f hf)
        have hcalled := (hstack.tail.2 f hf).1
        cases f with
        | abort call' event => exact ⟨fun hevent => absurd hevent List.not_mem_nil, hok.2⟩
        | execute call' event => trivial
        | update call' => cases hcalled
        | kill call' force' itr => cases hcalled
        | killAbort call' force' event => cases hcalled
    · exact hkept.marked.untouched rfl rfl rfl rfl rfl rfl haborts
    · exact hkept.times.stays rfl rfl rfl le_rfl le_rfl (fun f hf _ => .inl ⟨f, hsub f hf, rfl, rfl⟩)
        fun _ _ _ hentry => absurd hentry List.not_mem_nil
    · refine hkept.accounted.step rfl (fun r hr k hadds => ?_) fun k hk hleaves => ?_
      · rw [List.mem_singleton.mp hr] at hadds
        exact False.elim hadds
      · exact absurd hk (hleaves _ (List.mem_singleton_self _))
    · refine h.ranked.pass hmem (h.kept.held.counted _ hmem) (List.append_assoc _ _ _) rfl rfl fun g hg => ?_
      obtain ⟨hne, hle⟩ := under_le (s := s) { s with events := [] } hstack List.nodup_nil rfl
        (fun _ hentry => absurd hentry List.not_mem_nil) g hg
      refine ⟨fun heq => absurd heq hne, g, hsub g hg, rfl, rfl, ?_⟩
      exact hle
  | false =>
    refine .ok ⟨⟨?_, ?_, ?_, hkept.accounted⟩, ?_⟩
    · refine (hkept.held.goto _ s.calls hstack.tail.1
        (fun f hf => hkept.held.frames f (hsub f hf)) (fun f hf => hkept.held.counted f (hsub f hf))
        fun entry hentry => ?_).congr rfl rfl rfl rfl rfl
      rw [exposed, show (s.pass (.kill call false none)).frames = _ from hframes]
      show entry ∈ s.events
      rw [← exposed_of_noKill (s := { s with frames }) hkill]
      exact hentry
    · exact hkept.marked.untouched (List.append_nil _).symm rfl rfl rfl rfl rfl haborts
    · exact hkept.times.stays (List.append_nil _).symm rfl rfl le_rfl le_rfl
        (fun f hf _ => .inl ⟨f, hsub f hf, rfl, rfl⟩) fun _ _ entry hentry => .inl hentry
    · refine h.ranked.pass hmem (h.kept.held.counted _ hmem) rfl rfl rfl fun g hg => ?_
      refine ⟨fun heq => absurd heq (hstack.tail.2 g hg).2.symm, g, hsub g hg, rfl, rfl, ?_⟩
      exact le_rfl

/-- An event that a loop of `KillAllEvents` is at is there. -/
theorem Held.atEvent (h : s.Held) (hat : s.AtEvent call force event frames)
    (hmem : event ∈ s.queued) : ∃ e, s.heap event = some e := by
  obtain ⟨before, due, after, heq⟩ := exists_split hmem
  refine Option.ne_none_iff_exists'.mp (h.live (due, event) ?_)
  rw [hat.exposed]
  cases force with
  | true =>
    rw [if_pos rfl, fromItr, fromItr_split heq h.nodup]
    exact List.mem_cons_self
  | false =>
    rw [if_neg Bool.false_ne_true, heq]
    simp

theorem Kept.killed (h : s.Kept later) (hat : s.AtEvent call force event frames)
    (hmem : event ∈ s.queued) (he : s.heap event = some e) (hstate : e.abortState = .aborted)
    (isDeletable : Bool) : (s.killed call force event frames isDeletable).Kept later := by
  have hheld := h.held.killed hat hmem isDeletable
  have hsub : ∀ f ∈ frames, f ∈ s.frames := by
    intro f hf
    obtain hframes | hframes := hat <;> rw [hframes] <;> exact List.mem_cons_of_mem _ hf
  have haborts : ∀ call' k, EventFrame.abort call' k ∈ .kill call force (s.next event) :: frames ↔
      EventFrame.abort call' k ∈ s.frames := by
    intro call' k
    obtain hframes | hframes := hat <;> rw [hframes] <;> simp
  have hgoes : ∀ f ∈ EventFrame.kill call force (s.next event) :: frames, f.isUpdate = true →
      s.GoesOn f := by
    intro f hf hupdate
    obtain rfl | hf := List.mem_cons.mp hf
    · exact nomatch hupdate
    · exact .inl ⟨f, hsub f hf, rfl, rfl⟩
  by_cases hstays : (!force && !isDeletable) = true
  · rw [EventProcessor.killed, if_pos hstays] at hheld ⊢
    exact ⟨hheld, h.marked.untouched (List.append_nil _).symm rfl rfl rfl rfl rfl haborts,
      h.times.stays (List.append_nil _).symm rfl rfl le_rfl le_rfl hgoes
        fun _ _ entry hentry => .inl hentry, h.accounted⟩
  · rw [EventProcessor.killed, if_neg hstays] at hheld ⊢
    have hgone := h.marked.delete he (h.held.made he)
    refine ⟨hheld, hgone.untouched (List.append_nil _).symm rfl rfl rfl rfl rfl haborts,
      h.times.stays rfl rfl rfl le_rfl le_rfl hgoes fun _ _ entry hentry => .inl ?_, ?_⟩
    · cases force with
      | true => exact hentry
      | false => exact List.mem_of_mem_eraseP hentry
    · refine h.accounted.step rfl (fun r hr k hadds => ?_) fun k hk _ => ?_
      · rw [List.mem_singleton.mp hr] at hadds
        exact False.elim hadds
      · by_cases heq : k = event
        · rw [heq]
          refine .inr ?_
          show event ∈ aborts (s.log ++ [.deleted event])
          rw [aborts_append]
          exact List.mem_append_left _ (h.marked.marked event e he hstate)
        · refine .inl ?_
          obtain ⟨due, hentry⟩ := mem_queued_iff.mp hk
          refine mem_queued_iff.mpr ⟨due, ?_⟩
          cases force with
          | true => exact hentry
          | false => exact (mem_eraseP_iff h.held.nodup).mpr ⟨hentry, heq⟩

theorem live_killed (call : ℕ) (force : Bool) (frames : List EventFrame) (isDeletable : Bool)
    {before after : List (ℕ × ℕ)} (heq : s.events = before ++ (due, event) :: after)
    (hnodup : s.queued.Nodup) :
    (s.killed call force event frames isDeletable).live ≤ s.live ∧
      (s.killed call force event frames isDeletable).events.length ≤ s.events.length ∧
      ((s.killed call force event frames isDeletable).fromItr (s.next event)).length ≤ after.length := by
  have hfrom : s.fromItr (some event) = (due, event) :: after := fromItr_split heq hnodup
  have hnext : s.next event = after.head?.map Prod.snd := by
    rw [next, hfrom]
    rfl
  have hrest : s.fromItr (s.next event) = after := by
    rw [hnext]
    exact fromItr_head (before ++ [(due, event)]) after (by rw [heq, List.append_assoc]; rfl) hnodup rfl
  have hgone : ∀ k, (s.gone event).isLive k = true → s.isLive k = true := by
    intro k hk
    obtain ⟨e, he, hstate⟩ := isLive_eq_true_iff.mp hk
    refine isLive_eq_true_iff.mpr ⟨e, ?_, hstate⟩
    by_cases hkevent : k = event
    · rw [hkevent] at he
      exact absurd (he.symm.trans (Function.update_self _ _ _)) (Option.some_ne_none e)
    · exact (Function.update_of_ne hkevent _ _).symm.trans he
  by_cases hstays : (!force && !isDeletable) = true
  · rw [killed, if_pos hstays]
    exact ⟨le_rfl, le_rfl, (congrArg List.length hrest).le⟩
  · rw [killed, if_neg hstays]
    cases force with
    | true =>
      exact ⟨live_le (s := s) (s.gone event) (List.Sublist.refl _) hgone, le_rfl,
        (congrArg List.length hrest).le⟩
    | false =>
      have hsublist : (s.events.eraseP (·.2 = event)).Sublist s.events := List.eraseP_sublist
      have herase : s.events.eraseP (·.2 = event) = before ++ after := by
        have hbefore : ∀ x ∈ before, x.2 ≠ event := by
          intro x hx hxevent
          rw [queued, heq, List.map_append, List.map_cons] at hnodup
          refine (List.nodup_append.mp hnodup).2.2 event ?_ event List.mem_cons_self rfl
          rw [← hxevent]
          exact List.mem_map_of_mem hx
        rw [heq, List.eraseP_append_right _ (by simpa using hbefore), List.eraseP_cons_of_pos (by simp)]
      have hrest' : fromItr { s with events := s.events.eraseP (·.2 = event) } (s.next event) = after := by
        rw [hnext]
        exact fromItr_head before after herase (hnodup.sublist (hsublist.map Prod.snd)) rfl
      refine ⟨live_le (s := s) { s.gone event with events := s.events.eraseP (·.2 = event) }
        (hsublist.map Prod.snd) hgone, hsublist.length_le, (congrArg List.length hrest').le⟩

theorem killed_frame (s : EventProcessor) (call : ℕ) (force : Bool) (event : ℕ) (frames : List EventFrame)
    (isDeletable : Bool) :
    (∃ records, (s.killed call force event frames isDeletable).log = s.log ++ records ∧
      passes records = []) ∧
      (s.killed call force event frames isDeletable).calls = s.calls ∧
      (s.killed call force event frames isDeletable).time = s.time ∧
      (s.killed call force event frames isDeletable).frames = .kill call force (s.next event) :: frames ∧
      ∀ entry ∈ (s.killed call force event frames isDeletable).events, entry ∈ s.events := by
  rw [killed]
  split
  · exact ⟨⟨[], (List.append_nil _).symm, rfl⟩, rfl, rfl, rfl, fun _ hentry => hentry⟩
  · refine ⟨⟨[.deleted event], rfl, rfl⟩, rfl, rfl, rfl, fun entry hentry => ?_⟩
    cases force with
    | true => exact hentry
    | false => exact List.mem_of_mem_eraseP hentry

theorem Sound.killAborted (h : s.Sound later)
    (hframes : s.frames = .killAbort call force event :: frames) (isDeletable : Bool) :
    Yields (s.killEvent call force event frames isDeletable) (Sound later) := by
  have hmem : EventFrame.killAbort call force event ∈ s.frames := mem_frames hframes
  obtain ⟨hqueued, e, he, hstate⟩ := h.kept.held.frames _ hmem
  rw [killEvent_eq hqueued he]
  have hkept := h.kept.killed (.inr hframes) hqueued he hstate isDeletable
  refine .ok ⟨hkept, ?_⟩
  obtain ⟨before, due, after, heq⟩ := exists_split hqueued
  obtain ⟨hlive, hlength, -⟩ := live_killed call force frames isDeletable heq h.kept.held.nodup
  obtain ⟨⟨records, hlog, hpasses⟩, hcalls, htime, hframes', hevents⟩ :=
    killed_frame s call force event frames isDeletable
  have hstack := h.kept.held.stack
  rw [hframes] at hstack
  refine h.ranked.stays hlog hpasses hcalls.ge fun f hf _ => .inl ?_
  rw [hframes'] at hf
  obtain rfl | hf := List.mem_cons.mp hf
  · exact ⟨_, hmem, rfl, rfl, left_le_killAbort hlive hlength rfl⟩
  · refine ⟨f, ?_, rfl, rfl, (under_le _ hstack hkept.held.nodup htime hevents f hf).2⟩
    rw [hframes]
    exact List.mem_cons_of_mem _ hf

theorem Sound.killMarked (h : s.Sound later)
    (hframes : s.frames = .kill call force (some event) :: frames) (he : s.heap event = some e)
    (hstate : e.abortState = .aborted) (isDeletable : Bool) :
    Yields ((s.pass (.kill call force (some event))).killEvent call force event frames isDeletable)
      (Sound later) := by
  have hmem : EventFrame.kill call force (some event) ∈ s.frames := mem_frames hframes
  have hqueued : event ∈ s.queued := h.kept.held.frames _ hmem
  rw [killEvent_eq (s := s.pass (.kill call force (some event))) hqueued he]
  have hkept := (h.kept.pass (.kill call force (some event))).killed (.inl hframes) hqueued he hstate
    isDeletable
  refine .ok ⟨hkept, ?_⟩
  obtain ⟨before, due, after, heq⟩ := exists_split hqueued
  have hnodup := h.kept.held.nodup
  obtain ⟨hlive, hlength, hfrom⟩ := live_killed (s := s.pass (.kill call force (some event)))
    call force frames isDeletable heq hnodup
  obtain ⟨⟨records, hlog, hpasses⟩, hcalls, htime, hframes', hevents⟩ :=
    killed_frame (s.pass (.kill call force (some event))) call force event frames isDeletable
  have hstack := h.kept.held.stack
  rw [hframes] at hstack
  refine h.ranked.pass hmem (h.kept.held.counted _ hmem) (hlog.trans (List.append_assoc _ _ _)) hpasses
    hcalls fun g hg => ?_
  rw [hframes'] at hg
  obtain rfl | hg := List.mem_cons.mp hg
  · -- The iterator has one entry less before it.
    have hless : EventProcessor.left ((s.pass (.kill call force (some event))).killed call force event
        frames isDeletable) (.kill call force ((s.pass (.kill call force (some event))).next event)) <
        s.left (.kill call force (some event)) := by
      have hitr : (s.fromItr (some event)).length = after.length + 1 :=
        congrArg List.length (fromItr_split heq hnodup)
      refine (Nat.add_le_add (Nat.mul_le_mul hlive (Nat.succ_le_succ hlength)) hfrom).trans_lt ?_
      rw [left, hitr]
      exact Nat.lt_succ_self _
    exact ⟨fun _ => hless, _, hmem, rfl, rfl, hless.le⟩
  · obtain ⟨hne, hle⟩ := under_le _ hstack hkept.held.nodup htime hevents g hg
    refine ⟨fun hcall => absurd hcall hne, g, ?_, rfl, rfl, hle⟩
    rw [hframes]
    exact List.mem_cons_of_mem _ hg

/-! ## The loop of `KillAllEvents` calls an event -/

theorem live_set_lt {e' : BasicEvent} (he : s.heap event = some e)
    (hstate : e.abortState ≠ .aborted) (hstate' : e'.abortState = .aborted)
    (hmem : event ∈ s.queued) : (s.set event e').live < s.live := by
  have hself : (s.set event e').isLive event = false := by
    rw [isLive, show (s.set event e').heap event = some e' from Function.update_self _ _ _]
    simp [hstate']
  refine countP_lt_countP (fun k hk => ?_) hmem ?_ (isLive_eq_true_iff.mpr ⟨e, he, hstate⟩)
  · have hne : k ≠ event := by
      rintro rfl
      rw [hself] at hk
      cases hk
    rw [isLive, show (s.set event e').heap k = s.heap k from Function.update_of_ne hne _ _] at hk
    exact hk
  · exact hself

/-- The loop comes to an event without a mark: the event gets it, and its `Abort` is called. -/
theorem Sound.killUnmarked (h : s.Sound later)
    (hframes : s.frames = .kill call force (some event) :: frames) (he : s.heap event = some e)
    (hstate : e.abortState ≠ .aborted) :
    Sound later { (s.pass (.kill call force (some event))).set event { e with abortState := .aborted } with
      frames := .killAbort call force event :: frames
      log := (s.pass (.kill call force (some event))).log ++ [.aborted event] } := by
  obtain ⟨e', he'⟩ : ∃ e', e' = { e with abortState := .aborted } := ⟨_, rfl⟩
  have hmark : e'.abortState = .aborted := by rw [he']
  rw [← he']
  have hmem : EventFrame.kill call force (some event) ∈ s.frames := mem_frames hframes
  have hqueued : event ∈ s.queued := h.kept.held.frames _ hmem
  have hsub : ∀ f ∈ frames, f ∈ s.frames := fun _ hf => mem_frames_of_under hframes hf
  have hkept := h.kept.pass (.kill call force (some event))
  have hstack := h.kept.held.stack
  rw [hframes] at hstack
  have hself : (s.set event e').heap event = some e' := Function.update_self _ _ _
  have hcalled : ∀ call', EventFrame.abort call' event ∉ s.frames :=
    fun call' hk => (h.kept.held.frames _ hk).1 hqueued
  have hunder : ∀ f ∈ frames, FrameOk (s.set event e') f := by
    intro f hf
    have hok := h.kept.held.frames f (hsub f hf)
    have hcalled' := (hstack.tail.2 f hf).1
    cases f with
    | abort call' k =>
      refine ⟨hok.1, ?_⟩
      have hne : k ≠ event := by
        rintro rfl
        exact hok.1 hqueued
      rw [show (s.set event e').heap k = s.heap k from Function.update_of_ne hne _ _]
      exact hok.2
    | execute call' k => trivial
    | update call' => cases hcalled'
    | kill call' force' itr => cases hcalled'
    | killAbort call' force' k => cases hcalled'
  refine ⟨⟨?_, ?_, ?_, ?_⟩, ?_⟩
  · refine (hkept.held.setGoto e' he (.killAbort call force event :: frames)
      (hstack.replace rfl rfl rfl) (List.forall_mem_cons.mpr ⟨⟨hqueued, e', hself, hmark⟩, hunder⟩)
      (List.forall_mem_cons.mpr ⟨hkept.held.counted (.kill call force (some event)) hmem, fun f hf =>
        hkept.held.counted f (hsub f hf)⟩) fun entry hentry => ?_).congr rfl rfl rfl rfl rfl
    rw [exposed, show (s.pass (.kill call force (some event))).frames = _ from hframes]
    cases force <;> exact hentry
  · refine hkept.marked.abort he hstate (h.kept.held.made he) hcalled rfl rfl
      (fun k hk => Function.update_of_ne hk _ _) ⟨e', hself, .inl hmark⟩ (fun call' k hk => ?_)
      fun call' k hk => .inr ?_
    · have hk' : EventFrame.abort call' k ∈ s.frames := hk
      rw [hframes] at hk'
      simpa using hk'
    · show EventFrame.abort call' k ∈ s.frames
      rw [hframes]
      simpa using hk
  · refine hkept.times.stays rfl rfl rfl le_rfl le_rfl (fun f hf hupdate => ?_)
      fun _ _ entry hentry => .inl hentry
    obtain rfl | hf := List.mem_cons.mp hf
    · cases hupdate
    · exact .inl ⟨f, hsub f hf, rfl, rfl⟩
  · exact hkept.accounted.record rfl (fun _ => not_false) fun _ hk _ => .inl hk
  · refine h.ranked.pass hmem (h.kept.held.counted _ hmem) (List.append_assoc _ _ _) rfl rfl fun g hg => ?_
    obtain rfl | hg := List.mem_cons.mp hg
    · -- One event less has not been aborted, and the iterator is not at the end.
      have hlive := live_set_lt he hstate hmark hqueued
      have hmul : (s.set event e').live * (s.events.length + 1) + (s.events.length + 1) ≤
          s.live * (s.events.length + 1) := by
        rw [← Nat.succ_mul]
        exact Nat.mul_le_mul_right _ hlive
      have hless : (s.set event e').live * (s.events.length + 1) + s.events.length <
          s.live * (s.events.length + 1) + (s.fromItr (some event)).length := by omega
      exact ⟨fun _ => hless, _, hmem, rfl, rfl, hless.le⟩
    · obtain ⟨hne, hle⟩ := under_le (s := s) s hstack h.kept.held.nodup rfl
        (fun _ hentry => hentry) g hg
      have hupdate := isUpdate_of_isCalled (hstack.tail.2 g hg).1
      refine ⟨fun hcall => absurd hcall hne, g, hsub g hg, rfl, rfl, ?_⟩
      rw [left_update hupdate, left_update hupdate]
      exact le_rfl

theorem Sound.killPass (h : s.Sound later)
    (hframes : s.frames = .kill call force (some event) :: frames) (answer : Bool) :
    Yields ((s.pass (.kill call force (some event))).killPass call force (some event) frames answer)
      (Sound later) := by
  have hqueued : event ∈ s.queued := h.kept.held.frames (.kill call force (some event)) (by
    rw [hframes]
    exact List.mem_cons_self)
  obtain ⟨e, he⟩ := h.kept.held.atEvent (.inl hframes) hqueued
  have hfind := find_eq (s := s.pass (.kill call force (some event))) he
  rw [EventProcessor.killPass, hfind]
  by_cases hstate : e.abortState = .aborted
  · show Yields (if e.abortState = .aborted then _ else _) _
    rw [if_pos hstate]
    exact h.killMarked hframes he hstate answer
  · show Yields (if e.abortState = .aborted then _ else _) _
    rw [if_neg hstate, setAborted_eq (s := s.pass (.kill call force (some event))) he hstate]
    exact .ok (h.killUnmarked hframes he hstate)

/-! ## Runs -/

/-- The event that has been called may be deleted: it is there, and not in the queue. -/
def Deletable (s : EventProcessor) : Prop :=
  match s.frames with
  | .execute _ event :: _ => s.heap event ≠ none ∧ event ∉ s.queued
  | _ => True

/-- What the events and the outside may do. An event is in one place at most, and is added later than now by
another one. -/
def Allowed (s : EventProcessor) : Op → Prop
  | .make | .update _ | .killAllEvents _ => True
  | .addEvent event eTime =>
    s.heap event ≠ none ∧ event ∉ s.queued ∧ (∀ f ∈ s.frames, f.aborting ≠ some event) ∧
      (s.frames ≠ [] → s.time < eTime)
  | .modifyEventTime event _ => s.heap event ≠ none ∧ ∀ f ∈ s.frames, f.killing ≠ some event
  | .scheduleAbort event => (s.heap event).map BasicEvent.abortState = some .running
  | .proceed answer => answer = true → s.Deletable

/-- The events of a `KillAllEvents` add no events, and do not call it again. -/
def Guarded (s : EventProcessor) : Op → Prop
  | .addEvent _ _ | .killAllEvents _ => s.NoKill
  | _ => True

/-- While an `Update` runs, events are given times later than now. -/
def Later (s : EventProcessor) : Op → Prop
  | .modifyEventTime _ newTime => (∃ f ∈ s.frames, f.isUpdate = true) → s.time < newTime
  | _ => True

instance decidableNoKill (s : EventProcessor) : Decidable s.NoKill :=
  inferInstanceAs (Decidable (∀ f ∈ s.frames, f.isUpdate = true))

instance decidableDeletable (s : EventProcessor) : Decidable s.Deletable := by
  unfold Deletable
  split <;> infer_instance

instance decidableAllowed (s : EventProcessor) : ∀ op, Decidable (s.Allowed op)
  | .make | .update _ | .killAllEvents _ => inferInstanceAs (Decidable True)
  | .addEvent event eTime =>
    inferInstanceAs (Decidable (s.heap event ≠ none ∧ event ∉ s.queued ∧
      (∀ f ∈ s.frames, f.aborting ≠ some event) ∧ (s.frames ≠ [] → s.time < eTime)))
  | .modifyEventTime event _ =>
    inferInstanceAs (Decidable (s.heap event ≠ none ∧ ∀ f ∈ s.frames, f.killing ≠ some event))
  | .scheduleAbort event =>
    inferInstanceAs (Decidable ((s.heap event).map BasicEvent.abortState = some .running))
  | .proceed answer => inferInstanceAs (Decidable (answer = true → s.Deletable))

instance decidableGuarded (s : EventProcessor) : ∀ op, Decidable (s.Guarded op)
  | .addEvent _ _ | .killAllEvents _ => inferInstanceAs (Decidable s.NoKill)
  | .make | .update _ | .modifyEventTime _ _ | .scheduleAbort _ | .proceed _ =>
    inferInstanceAs (Decidable True)

theorem Sound.proceed (h : s.Sound later) {answer : Bool} (hallowed : s.Allowed (.proceed answer)) :
    Yields (s.proceed answer) (Sound later) := by
  have hstack := h.kept.held.stack
  cases hframes : s.frames with
  | nil =>
    rw [EventProcessor.proceed, hframes]
    exact .ok h
  | cons f frames =>
    cases f with
    | update call =>
      rw [hframes] at hstack
      obtain rfl := hstack.eq_nil rfl
      rw [EventProcessor.proceed, hframes]
      exact h.updatePass hframes answer
    | execute call event =>
      rw [hframes] at hstack
      obtain rfl := hstack.eq_nil rfl
      have hreturned := h.executed hframes
      rw [EventProcessor.proceed, hframes]
      cases answer with
      | false => exact .ok hreturned
      | true =>
        have hdeletable := hallowed rfl
        rw [Deletable, hframes] at hdeletable
        obtain ⟨hthere, hnot⟩ := hdeletable
        obtain ⟨e, he⟩ := Option.ne_none_iff_exists'.mp hthere
        show Yields (s.delete event >>= _) _
        rw [delete_eq he]
        exact .ok (hreturned.gone he hnot rfl)
    | abort call event =>
      rw [hframes] at hstack
      obtain rfl := hstack.eq_nil rfl
      exact h.aborted hframes answer
    | kill call force itr =>
      rw [EventProcessor.proceed, hframes]
      cases itr with
      | none => exact h.killEnd hframes answer
      | some event => exact h.killPass hframes answer
    | killAbort call force event =>
      rw [EventProcessor.proceed, hframes]
      exact h.killAborted hframes answer

/-- **What one step keeps.** -/
theorem Sound.step (h : s.Sound later) {op : Op} (hallowed : s.Allowed op) (hkill : s.Guarded op)
    (hlater : later → s.Later op) : Yields (s.step op) (Sound later) := by
  cases op with
  | proceed answer => exact h.proceed hallowed
  | make =>
    rw [EventProcessor.step]
    split
    · exact .ok h
    · exact .ok h.make
  | addEvent event eTime =>
    obtain ⟨hthere, hnot, hcalled, htime⟩ := hallowed
    obtain ⟨e, he⟩ := Option.ne_none_iff_exists'.mp hthere
    rw [EventProcessor.step]
    split
    · exact .ok h
    · exact h.addEvent he hnot hkill (fun call hmem => hcalled _ hmem rfl) htime
  | modifyEventTime event newTime =>
    obtain ⟨hthere, hother⟩ := hallowed
    obtain ⟨e, he⟩ := Option.ne_none_iff_exists'.mp hthere
    rw [EventProcessor.step]
    split
    · exact .ok h
    · next hloop =>
      exact h.modifyEventTime he (Bool.eq_false_iff.mpr hloop)
        (fun call force hmem => hother _ hmem rfl) hlater
  | scheduleAbort event =>
    obtain ⟨e, he, hstate⟩ := Option.map_eq_some_iff.mp hallowed
    rw [EventProcessor.step]
    split
    · exact .ok h
    · exact h.scheduleAbort he hstate
  | update pTime =>
    rw [EventProcessor.step]
    split
    · next hframes => exact .ok (h.update hframes pTime)
    · exact .ok h
  | killAllEvents force =>
    rw [EventProcessor.step]
    split
    · exact .ok h
    · next hloop => exact .ok (h.killAllEvents (Bool.eq_false_iff.mpr hloop) hkill force)

theorem run_sound {ops : List Op} (hallowed : Admitted step Allowed s ops)
    (hguarded : Admitted step Guarded s ops) (hlater : later → Admitted step Later s ops)
    (h : s.Sound later) : Yields (run step s ops) (Sound later) := by
  refine run_keeps_of_admitted (fun s op hsound hop => ?_) h
    ((hallowed.and_imp (p := True) fun _ => hguarded).and_imp hlater)
  exact hsound.step hop.1.1 (hop.1.2 trivial) hop.2

/-- **Timed events run once, on time, and are freed once.** -/
structure Timely (later : Prop) (s : EventProcessor) : Prop where
  /-- No event is executed before its time. -/
  onTime : ∀ x ∈ executions s.log, x.due ≤ x.now
  /-- No event is executed after it was aborted. -/
  notAborted : NotAborted s.log
  /-- Within one `Update`, events are executed in the order of their times. -/
  inOrder : later → (executions s.log).Pairwise fun x y => x.call = y.call → x.due ≤ y.due
  /-- When `Update` returns, nothing in the queue is due. -/
  returns : ∀ p ∈ returns s.log, ∀ entry ∈ p.2, p.1 < entry.1
  /-- An event that was added and has not been executed since is in the queue, or was aborted. -/
  accounted : Accounted s
  abortedOnce : (aborts s.log).Nodup
  deletedOnce : (deletions s.log).Nodup
  /-- Each pass of a loop has less before it than the one before, so that the loop ends. -/
  ends : (passes s.log).Pairwise fun p q =>
    p.1.call = q.1.call → (q.1.isUpdate = true → later) → q.2 < p.2

theorem Sound.timely (h : s.Sound later) : s.Timely later where
  onTime := h.kept.times.onTime
  notAborted := h.kept.marked.notAborted
  inOrder := h.kept.times.inOrder
  returns := h.kept.times.returns
  accounted := h.kept.accounted
  abortedOnce := h.kept.marked.once
  deletedOnce := h.kept.marked.goneOnce
  ends := h.ranked.descending

/-- **No step uses an event that has been deleted or an iterator that has been erased**, and timed events run
once, on time, and are freed once. -/
theorem events_timely (ops : List Op) (hallowed : Admitted step Allowed new ops)
    (hguarded : Admitted step Guarded new ops) :
    Yields (run step new ops) (Timely (Admitted step Later new ops)) :=
  (run_sound hallowed hguarded (fun hlater => hlater) sound_new).mono fun _ => Sound.timely

/-- An event that is due is given a later time while an `Update` runs. -/
theorem events_timely_postponed :
    Yields (run step new [.make, .make, .addEvent 0 1, .addEvent 1 3, .update 5, .proceed false,
      .modifyEventTime 1 6, .proceed true, .proceed false])
      (Timely (Admitted step Later new [.make, .make, .addEvent 0 1, .addEvent 1 3, .update 5,
        .proceed false, .modifyEventTime 1 6, .proceed true, .proceed false])) :=
  events_timely _ (by decide) (by decide)

/-! ## What is allowed but not guarded -/

/-- The `Abort` of the only event of the queue makes another one, and adds it. -/
def respawn (k : ℕ) : List Op := [.proceed false, .make, .addEvent (k + 1) 1, .proceed true]

theorem respawn_step {heap : ℕ → Option BasicEvent} (log : List EventRecord) {k : ℕ}
    (hk : heap k = some ⟨.running, 0, 1⟩) :
    Admitted step Allowed ⟨0, [(1, k)], true, heap, k + 1, [.kill 0 false (some k)], 1, log⟩ (respawn k) ∧
    ∃ heap' log', run step ⟨0, [(1, k)], true, heap, k + 1, [.kill 0 false (some k)], 1, log⟩ (respawn k) =
      .ok ⟨0, [(1, k + 1)], true, heap', k + 2, [.kill 0 false (some (k + 1))], 1, log'⟩ ∧
      heap' (k + 1) = some ⟨.running, 0, 1⟩ ∧ (passes log').length = (passes log).length + 1 := by
  constructor
  · simp [respawn, Admitted, Allowed, Deletable, step, proceed, killPass, find, hk, pass, setAborted, set,
      inLoop, make, queued, EventFrame.aborting, addEvent, bind, Except.bind]
    split <;> trivial
  · simp [respawn, run, step, proceed, killPass, find, hk, pass, setAborted, set, inLoop, make, queued,
      addEvent, killEvent, delete, multimapInsert, next, fromItr, passes, bind, Except.bind, pure,
      Except.pure]

/-- **`KillAllEvents` makes any number of passes where the events that it aborts add others**: `m_aborting`
does not prevent it. -/
theorem killAllEvents_respawn (n : ℕ) :
    Admitted step Allowed new ([.make, .addEvent 0 1, .killAllEvents false] ++
      (List.range n).flatMap respawn) ∧
    Yields (run step new ([.make, .addEvent 0 1, .killAllEvents false] ++ (List.range n).flatMap respawn))
      fun s => s.frames = [.kill 0 false (some n)] ∧ (passes s.log).length = n := by
  suffices h : Admitted step Allowed new ([.make, .addEvent 0 1, .killAllEvents false] ++
      (List.range n).flatMap respawn) ∧
      ∃ heap log, run step new ([.make, .addEvent 0 1, .killAllEvents false] ++
        (List.range n).flatMap respawn) =
          .ok ⟨0, [(1, n)], true, heap, n + 1, [.kill 0 false (some n)], 1, log⟩ ∧
        heap n = some ⟨.running, 0, 1⟩ ∧ (passes log).length = n by
    obtain ⟨hallowed, heap, log, hrun, -, hpasses⟩ := h
    exact ⟨hallowed, _, hrun, rfl, hpasses⟩
  induction n with
  | zero => exact ⟨by decide, _, _, rfl, rfl, rfl⟩
  | succ n ih =>
    obtain ⟨hallowed, heap, log, hrun, hevent, hpasses⟩ := ih
    obtain ⟨hround, heap', log', hrun', hevent', hpasses'⟩ := respawn_step log hevent
    have hops : (List.range (n + 1)).flatMap respawn = (List.range n).flatMap respawn ++ respawn n := by
      simp [List.range_succ]
    rw [hops, ← List.append_assoc, run_append, hrun]
    exact ⟨hallowed.concat hrun hround, heap', log', hrun', hevent', by omega⟩

/-- An `Update` executes events against the order of their times; a `KillAllEvents` uses an iterator that
another one has erased; a `KillAllEvents` goes on for any number of passes. -/
theorem events_not_timely :
    (Admitted step Allowed new [.make, .make, .addEvent 0 10, .addEvent 1 30, .update 40, .proceed false,
        .modifyEventTime 1 5, .proceed true, .proceed false] ∧
      (run step new [.make, .make, .addEvent 0 10, .addEvent 1 30, .update 40, .proceed false,
        .modifyEventTime 1 5, .proceed true, .proceed false]).map (executions ·.log) =
        .ok [⟨0, 0, 10, 40⟩, ⟨0, 1, 5, 40⟩]) ∧
    (Admitted step Allowed new [.make, .addEvent 0 5, .killAllEvents true, .proceed true,
        .killAllEvents true, .proceed true, .proceed true, .proceed true] ∧
      run step new [.make, .addEvent 0 5, .killAllEvents true, .proceed true, .killAllEvents true,
        .proceed true, .proceed true, .proceed true] = .error .badIterator) ∧
    ∀ n, Admitted step Allowed new ([.make, .addEvent 0 1, .killAllEvents false] ++
        (List.range n).flatMap respawn) ∧
      Yields (run step new ([.make, .addEvent 0 1, .killAllEvents false] ++
        (List.range n).flatMap respawn)) fun s =>
          s.frames = [.kill 0 false (some n)] ∧ (passes s.log).length = n :=
  ⟨⟨by decide, rfl⟩, ⟨by decide, rfl⟩, killAllEvents_respawn⟩

end EventProcessor

end Sunstrider.Utilities
