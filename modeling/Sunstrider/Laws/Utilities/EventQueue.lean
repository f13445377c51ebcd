import Sunstrider.Lib.Pending
import Sunstrider.Lib.Run
import Sunstrider.Utilities.EventProcessor

/-!
# The queue of the events

Which events are in the queue, and which of them are still there. Only a forced `KillAllEvents` leaves
deleted events in the queue, and only behind its iterator (`Held`).
-/

namespace Sunstrider.Utilities

open Lib

namespace EventFrame

/-- The number of the loop. -/
def call : EventFrame → ℕ
  | .update call | .execute call _ | .abort call _ | .kill call _ _ | .killAbort call _ _ => call

/-- The loop is that of `Update`. -/
def isUpdate : EventFrame → Bool
  | .update _ | .execute _ _ | .abort _ _ => true
  | .kill _ _ _ | .killAbort _ _ _ => false

/-- `Update` has called an event. -/
def isCalled : EventFrame → Bool
  | .execute _ _ | .abort _ _ => true
  | _ => false

/-- The event whose `Abort` is called by `Update`. -/
def aborting : EventFrame → Option ℕ
  | .abort _ event => some event
  | _ => none

/-- The event whose `Abort` is called by `KillAllEvents`. -/
def killing : EventFrame → Option ℕ
  | .killAbort _ _ event => some event
  | _ => none

end EventFrame

namespace EventProcessor

variable {s : EventProcessor}

/-! ## What the operations come to -/

/-- The event after it has been deleted. -/
def gone (s : EventProcessor) (event : ℕ) : EventProcessor :=
  { s with heap := Function.update s.heap event none, log := s.log ++ [.deleted event] }

/-- The event after it has been added. -/
def placed (s : EventProcessor) (event : ℕ) (e : BasicEvent) (eTime : ℕ) : EventProcessor :=
  { s with
    heap := Function.update s.heap event (some e)
    events := multimapInsert s.events (eTime, event)
    log := s.log ++ [.added event] }

variable {f : EventFrame} {frames : List EventFrame}

theorem mem_frames (h : s.frames = f :: frames) : f ∈ s.frames := by
  rw [h]
  exact List.mem_cons_self

theorem mem_frames_of_under {g : EventFrame} (h : s.frames = f :: frames) (hg : g ∈ frames) :
    g ∈ s.frames := by
  rw [h]
  exact List.mem_cons_of_mem f hg

variable {event : ℕ} {e : BasicEvent}

section

variable (h : s.heap event = some e)

include h

theorem find_eq : s.find event = .ok e := by
  rw [find, h]

theorem delete_eq : s.delete event = .ok (s.gone event) := by
  rw [delete, find_eq h]
  rfl

theorem addEvent_eq (eTime : ℕ) (setAddtime : Bool) : ∃ e', e'.abortState = e.abortState ∧
      s.addEvent event eTime setAddtime = .ok (s.placed event e' eTime) := by
  refine ⟨{ e with addTime := if setAddtime then s.time else e.addTime, execTime := eTime }, rfl, ?_⟩
  rw [addEvent, find_eq h]
  rfl

theorem discard_eq (isDeletable : Bool) :
    ∃ e', e'.abortState = e.abortState ∧ s.discard event isDeletable =
      .ok (if isDeletable then s.gone event else s.placed event e' (s.time + 1)) := by
  obtain ⟨e', hstate, heq⟩ := addEvent_eq h (s.time + 1) false
  refine ⟨e', hstate, ?_⟩
  cases isDeletable with
  | true => exact delete_eq h
  | false => exact heq

theorem setAborted_eq (hstate : e.abortState ≠ .aborted) :
    s.setAborted event = .ok (s.set event { e with abortState := .aborted }) := by
  rw [setAborted, find_eq h]
  exact if_neg hstate

end

/-! ## The queue -/

/-- The stacks of loops: no loop of `KillAllEvents` is in another one. -/
inductive Stack : List EventFrame → Prop
  | empty : Stack []
  | update {f : EventFrame} (hf : f.isUpdate = true) : Stack [f]
  | kill {f : EventFrame} (hf : f.isUpdate = false) : Stack [f]
  | killIn {f g : EventFrame} (hf : f.isUpdate = false) (hg : g.isCalled = true)
      (hne : f.call ≠ g.call) : Stack [f, g]

/-- What a loop expects of the event that it has called, and of its iterator. -/
def FrameOk (s : EventProcessor) : EventFrame → Prop
  | .abort _ event => event ∉ s.queued ∧ ∃ e, s.heap event = some e ∧ e.abortState = .abortScheduled
  | .kill _ _ (some event) => event ∈ s.queued
  | .killAbort _ _ event => event ∈ s.queued ∧ ∃ e, s.heap event = some e ∧ e.abortState = .aborted
  | _ => True

/-- The entries that a loop may still come to: those from the iterator on, where it clears the queue at the
end. -/
def exposed (s : EventProcessor) : List (ℕ × ℕ) :=
  match s.frames with
  | .kill _ true itr :: _ => s.fromItr itr
  | .killAbort _ true event :: _ => s.fromItr (some event)
  | _ => s.events

/-- The queue is in order, each event is in it once, and those that a loop may come to are there. -/
structure Held (s : EventProcessor) : Prop where
  ordered : KeyOrdered s.events
  nodup : s.queued.Nodup
  fresh : ∀ event, s.made ≤ event → s.heap event = none
  queuedMade : ∀ event ∈ s.queued, event < s.made
  live : ∀ entry ∈ s.exposed, s.heap entry.2 ≠ none
  stack : Stack s.frames
  frames : ∀ f ∈ s.frames, s.FrameOk f
  counted : ∀ f ∈ s.frames, f.call < s.calls

theorem held_new : new.Held where
  ordered := keyOrdered_nil
  nodup := List.nodup_nil
  fresh _ _ := rfl
  queuedMade _ h := nomatch h
  live _ h := nomatch h
  stack := .empty
  frames _ h := nomatch h
  counted _ h := nomatch h

theorem Held.made (h : s.Held) (he : s.heap event = some e) : event < s.made := by
  by_contra hge
  rw [h.fresh event (not_lt.mp hge)] at he
  exact nomatch he

theorem Held.congr {s' : EventProcessor} (h : s.Held) (hevents : s'.events = s.events)
    (hheap : s'.heap = s.heap) (hmade : s'.made = s.made) (hframes : s'.frames = s.frames)
    (hcalls : s'.calls = s.calls) : s'.Held := by
  obtain ⟨time, events, aborting, heap, made, frames, calls, log⟩ := s
  cases hevents
  cases hheap
  cases hmade
  cases hframes
  cases hcalls
  exact ⟨h.ordered, h.nodup, h.fresh, h.queuedMade, h.live, h.stack, h.frames, h.counted⟩

theorem exists_split (h : event ∈ s.queued) :
    ∃ before due after, s.events = before ++ (due, event) :: after := by
  obtain ⟨⟨due, event⟩, hmem, rfl⟩ := List.mem_map.mp h
  obtain ⟨before, after, heq⟩ := List.append_of_mem hmem
  exact ⟨before, due, after, heq⟩

variable {events : List (ℕ × ℕ)}

theorem fromItr_split {before after : List (ℕ × ℕ)} {due : ℕ}
    (heq : events = before ++ (due, event) :: after) (hnodup : (events.map Prod.snd).Nodup) :
    events.dropWhile (fun entry => entry.2 ≠ event) = (due, event) :: after := by
  rw [heq, List.map_append, List.map_cons] at hnodup
  have hnot : event ∉ before.map Prod.snd := fun hmem =>
    (List.nodup_append.mp hnodup).2.2 event hmem event List.mem_cons_self rfl
  rw [heq, List.dropWhile_append_of_pos]
  · simp
  · intro entry hentry
    refine decide_eq_true fun hevent => hnot ?_
    rw [← hevent]
    exact List.mem_map_of_mem hentry

theorem fromItr_head (before after : List (ℕ × ℕ)) (heq : events = before ++ after)
    (hnodup : (events.map Prod.snd).Nodup) (hevents : s.events = events) :
    s.fromItr (after.head?.map Prod.snd) = after := by
  cases after with
  | nil => rfl
  | cons entry after =>
    obtain ⟨due, event⟩ := entry
    show s.events.dropWhile (fun entry => entry.2 ≠ event) = _
    rw [hevents]
    exact fromItr_split heq hnodup

theorem mem_queued_iff : event ∈ s.queued ↔ ∃ due, (due, event) ∈ s.events := by
  rw [queued, List.mem_map]
  exact ⟨fun ⟨⟨due, _⟩, hmem, rfl⟩ => ⟨due, hmem⟩, fun ⟨due, hmem⟩ => ⟨_, hmem, rfl⟩⟩

theorem mem_eraseP_iff (hnodup : s.queued.Nodup) {entry : ℕ × ℕ} :
    entry ∈ s.events.eraseP (fun x => x.2 = event) ↔ entry ∈ s.events ∧ entry.2 ≠ event := by
  by_cases hmem : event ∈ s.queued
  · obtain ⟨before, due, after, heq⟩ := exists_split hmem
    rw [queued, heq, List.map_append, List.map_cons] at hnodup
    obtain ⟨-, hafter, hacross⟩ := List.nodup_append.mp hnodup
    have hbefore : ∀ x ∈ before, x.2 ≠ event := fun x hx =>
      hacross x.2 (List.mem_map_of_mem hx) event List.mem_cons_self
    have hbehind : ∀ x ∈ after, x.2 ≠ event := by
      intro x hx hevent
      refine (List.nodup_cons.mp hafter).1 ?_
      show event ∈ after.map Prod.snd
      rw [← hevent]
      exact List.mem_map_of_mem hx
    rw [heq, List.eraseP_append_right _ (by simpa using hbefore), List.eraseP_cons_of_pos (by simp)]
    simp only [List.mem_append, List.mem_cons]
    constructor
    · rintro (hx | hx)
      · exact ⟨.inl hx, hbefore entry hx⟩
      · exact ⟨.inr (.inr hx), hbehind entry hx⟩
    · rintro ⟨hx | rfl | hx, hne⟩
      · exact .inl hx
      · exact absurd rfl hne
      · exact .inr hx
  · have hnot : ∀ x ∈ s.events, x.2 ≠ event := by
      rintro x hx rfl
      exact hmem (List.mem_map_of_mem hx)
    rw [List.eraseP_of_forall_not (by simpa using hnot)]
    exact ⟨fun hx => ⟨hx, hnot entry hx⟩, And.left⟩

/-! ## What keeps the queue -/

theorem FrameOk.congr {s' : EventProcessor} (h : s.FrameOk f)
    (hqueued : ∀ event, event ∈ s'.queued ↔ event ∈ s.queued)
    (hheap : ∀ event e, s.heap event = some e → e.abortState ≠ .running →
      ∃ e', s'.heap event = some e' ∧ e'.abortState = e.abortState) : s'.FrameOk f := by
  cases f with
  | abort call event =>
    obtain ⟨hnot, e, he, hstate⟩ := h
    obtain ⟨e', he', hstate'⟩ := hheap event e he (by rw [hstate]; exact AbortState.noConfusion)
    exact ⟨fun hmem => hnot ((hqueued event).mp hmem), e', he', hstate'.trans hstate⟩
  | kill call force itr =>
    cases itr with
    | none => trivial
    | some event => exact (hqueued event).mpr h
  | killAbort call force event =>
    obtain ⟨hmem, e, he, hstate⟩ := h
    obtain ⟨e', he', hstate'⟩ := hheap event e he (by rw [hstate]; exact AbortState.noConfusion)
    exact ⟨(hqueued event).mpr hmem, e', he', hstate'.trans hstate⟩
  | _ => trivial

theorem Held.heap (h : s.Held) {heap : ℕ → Option BasicEvent} {made : ℕ} (hmade : s.made ≤ made)
    (hfresh : ∀ event, made ≤ event → heap event = none)
    (hsome : ∀ event, s.heap event ≠ none → heap event ≠ none)
    (hstate : ∀ event e, s.heap event = some e → e.abortState ≠ .running →
      ∃ e', heap event = some e' ∧ e'.abortState = e.abortState) : Held { s with heap, made } where
  ordered := h.ordered
  nodup := h.nodup
  fresh := hfresh
  queuedMade event hevent := (h.queuedMade event hevent).trans_le hmade
  live entry hentry := hsome entry.2 (h.live entry hentry)
  stack := h.stack
  frames f hf := (h.frames f hf).congr (fun _ => Iff.rfl) hstate
  counted := h.counted

theorem Held.make (h : s.Held) : s.make.Held := by
  have hne : ∀ event, s.heap event ≠ none → event ≠ s.made := by
    rintro _ hsome rfl
    exact hsome (h.fresh s.made le_rfl)
  refine h.heap (Nat.le_succ _) (fun event hevent => ?_) (fun event hsome => ?_) fun event e he _ => ⟨e, ?_, rfl⟩
  · rw [Function.update_of_ne (by omega)]
    exact h.fresh event (by omega)
  · rw [Function.update_of_ne (hne event hsome)]
    exact hsome
  · rw [Function.update_of_ne (hne event (by rw [he]; exact Option.some_ne_none e))]
    exact he

theorem Held.set (h : s.Held) (e' : BasicEvent) (he : s.heap event = some e)
    (hstate : e.abortState ≠ .running → e'.abortState = e.abortState) : (s.set event e').Held := by
  refine h.heap le_rfl (fun k hk => ?_) (fun k hsome => ?_) fun k ek hek hrunning => ?_
  · rw [Function.update_of_ne, h.fresh k hk]
    rintro rfl
    rw [h.fresh k hk] at he
    exact nomatch he
  · rw [Function.update_apply]
    split_ifs
    · exact Option.some_ne_none e'
    · exact hsome
  · rw [Function.update_apply]
    split_ifs with heq
    · rw [heq, he] at hek
      cases hek
      exact ⟨e', rfl, hstate hrunning⟩
    · exact ⟨ek, hek, rfl⟩

theorem Held.goto (h : s.Held) (frames : List EventFrame) (calls : ℕ) (hstack : Stack frames)
    (hok : ∀ f ∈ frames, s.FrameOk f) (hcounted : ∀ f ∈ frames, f.call < calls)
    (hexposed : ∀ entry ∈ exposed { s with frames }, entry ∈ s.exposed) :
    Held { s with frames, calls } where
  ordered := h.ordered
  nodup := h.nodup
  fresh := h.fresh
  queuedMade := h.queuedMade
  live entry hentry := h.live entry (hexposed entry hentry)
  stack := hstack
  frames := hok
  counted := hcounted

theorem Held.setGoto (h : s.Held) (e' : BasicEvent) (he : s.heap event = some e)
    (frames : List EventFrame) (hstack : Stack frames)
    (hok : ∀ f ∈ frames, FrameOk { s.set event e' with frames } f)
    (hcounted : ∀ f ∈ frames, f.call < s.calls)
    (hexposed : ∀ entry ∈ exposed { s with frames }, entry ∈ s.exposed) :
    Held { s.set event e' with frames } where
  ordered := h.ordered
  nodup := h.nodup
  fresh k hk := by
    refine (Function.update_of_ne ?_ _ _).trans (h.fresh k hk)
    rintro rfl
    exact absurd (h.made he) (not_lt.mpr hk)
  queuedMade := h.queuedMade
  live entry hentry := by
    have hlive := h.live entry (hexposed entry hentry)
    show Function.update s.heap event (some e') entry.2 ≠ none
    rw [Function.update_apply]
    split_ifs
    · exact Option.some_ne_none e'
    · exact hlive
  stack := hstack
  frames := hok
  counted := hcounted

/-- There is no loop of `KillAllEvents`. -/
def NoKill (s : EventProcessor) : Prop := ∀ f ∈ s.frames, f.isUpdate = true

theorem exposed_of_noKill (h : s.NoKill) : s.exposed = s.events := by
  rw [exposed]
  split
  · next call itr frames hframes =>
    exact nomatch h (.kill call true itr) (by rw [hframes]; exact List.mem_cons_self)
  · next call event frames hframes =>
    exact nomatch h (.killAbort call true event) (by rw [hframes]; exact List.mem_cons_self)
  · rfl

theorem queued_placed {eTime k : ℕ} :
    k ∈ (s.placed event e eTime).queued ↔ k = event ∨ k ∈ s.queued := by
  rw [mem_queued_iff, mem_queued_iff]
  simp only [placed, mem_multimapInsert, Prod.mk.injEq]
  constructor
  · rintro ⟨due, ⟨-, rfl⟩ | hmem⟩
    · exact .inl rfl
    · exact .inr ⟨due, hmem⟩
  · rintro (rfl | ⟨due, hmem⟩)
    · exact ⟨eTime, .inl ⟨rfl, rfl⟩⟩
    · exact ⟨due, .inr hmem⟩

theorem Held.placed (h : s.Held) {e' : BasicEvent} (he : s.heap event = some e)
    (hstate : e'.abortState = e.abortState) (hnot : event ∉ s.queued) (hkill : s.NoKill)
    (hcalled : ∀ call, .abort call event ∉ s.frames) (eTime : ℕ) :
    (s.placed event e' eTime).Held := by
  have hset := h.set e' he fun _ => hstate
  refine ⟨keyOrdered_insert h.ordered _, ?_, hset.fresh, fun k hk => ?_, fun entry hentry => ?_, h.stack,
    fun f hf => ?_, h.counted⟩
  · have hperm := (multimapInsert_perm s.events (eTime, event)).map Prod.snd
    exact hperm.nodup_iff.mpr (List.nodup_cons.mpr ⟨hnot, h.nodup⟩)
  · obtain rfl | hk := queued_placed.mp hk
    · exact h.made he
    · exact h.queuedMade k hk
  · rw [exposed_of_noKill (s := s.placed event e' eTime) hkill] at hentry
    obtain rfl | hentry := mem_multimapInsert.mp hentry
    · show Function.update s.heap event (some e') event ≠ none
      rw [Function.update_self]
      exact Option.some_ne_none e'
    · refine hset.live entry ?_
      rw [exposed_of_noKill (s := s.set event e') hkill]
      exact hentry
  · have hok := hset.frames f hf
    cases f with
    | abort call event' =>
      refine ⟨fun hmem => ?_, hok.2⟩
      obtain rfl | hmem := queued_placed.mp hmem
      · exact hcalled call hf
      · exact hok.1 hmem
    | kill call force itr => exact nomatch hkill _ hf
    | killAbort call force event' => exact nomatch hkill _ hf
    | _ => trivial

/-- The event after its time has been modified. -/
def moved (s : EventProcessor) (event : ℕ) (e : BasicEvent) (newTime : ℕ) : EventProcessor :=
  { s.set event e with events := multimapInsert (s.events.eraseP (·.2 = event)) (newTime, event) }

theorem perm_moved (hmem : event ∈ s.queued) (e : BasicEvent) (newTime : ℕ) :
    (s.moved event e newTime).queued.Perm s.queued := by
  obtain ⟨before, due, after, heq⟩ := exists_split hmem
  obtain ⟨entry, l₁, l₂, -, hentry, heq', herase⟩ := List.exists_of_eraseP
    (p := fun x : ℕ × ℕ => decide (x.2 = event)) (l := s.events) (a := (due, event))
    (by rw [heq]; simp) (by simp)
  have hperm := (multimapInsert_perm (s.events.eraseP (·.2 = event)) (newTime, event)).map Prod.snd
  refine hperm.trans ?_
  rw [List.map_cons, herase, queued, heq']
  simp only [List.map_append, List.map_cons]
  rw [of_decide_eq_true hentry]
  exact List.perm_middle.symm

/-- An event of the queue is given another time. An iterator is not at the event, and what is behind the
iterator is there. -/
theorem Held.moved (h : s.Held) {e' : BasicEvent} (he : s.heap event = some e)
    (hstate : e'.abortState = e.abortState) (hmem : event ∈ s.queued) (hloop : s.inLoop = false)
    (hother : ∀ call force, .killAbort call force event ∉ s.frames) (newTime : ℕ) :
    (s.moved event e' newTime).Held := by
  have hset := h.set e' he fun _ => hstate
  have hperm := perm_moved hmem e' newTime
  have hself : (s.set event e').heap event ≠ none := by
    show Function.update s.heap event (some e') event ≠ none
    rw [Function.update_self]
    exact Option.some_ne_none e'
  refine ⟨keyOrdered_insert (h.ordered.sublist List.eraseP_sublist) _, hperm.nodup_iff.mpr h.nodup,
    hset.fresh, fun k hk => h.queuedMade k (hperm.mem_iff.mp hk), fun entry hentry => ?_, h.stack,
    fun f hf => ?_, h.counted⟩
  · -- What is exposed is what was, or the event itself.
    have hold : entry = (newTime, event) ∨ entry ∈ (s.set event e').exposed := by
      rw [exposed] at hentry ⊢
      split at hentry
      next hframes =>
        rw [inLoop, show s.frames = _ from hframes] at hloop
        exact nomatch hloop
      next call event' frames hframes =>
        have hne : event ≠ event' := by
          rintro rfl
          refine hother call true ?_
          rw [show s.frames = _ from hframes]
          exact List.mem_cons_self
        rw [show (s.set event e').frames = _ from hframes]
        refine (mem_dropWhile_insert (by simpa using hne) hentry).imp_right fun hentry => ?_
        refine mem_dropWhile_of_eraseP (fun x hx => ?_) hentry
        rw [of_decide_eq_true hx]
        simpa using hne
      next hkill hkillAbort =>
        refine (mem_multimapInsert.mp hentry).imp_right fun hentry => ?_
        split
        · next hframes => exact absurd hframes (hkill _ _ _)
        · next hframes => exact absurd hframes (hkillAbort _ _ _)
        · exact List.mem_of_mem_eraseP hentry
    obtain rfl | hentry := hold
    · exact hself
    · exact hset.live entry hentry
  · exact (hset.frames f hf).congr (fun _ => hperm.mem_iff) fun _ k hk _ => ⟨k, hk, rfl⟩

variable {call : ℕ}

theorem Held.pop (h : s.Held) (hframes : s.frames = [.update call]) {due : ℕ}
    (hevents : s.events = (due, event) :: events) :
    Held { s with events } ∧ event ∉ queued { s with events } ∧ ∃ e, s.heap event = some e := by
  have hkill : s.NoKill := by
    intro f hf
    rw [hframes] at hf
    rw [List.mem_singleton.mp hf]
    rfl
  have hexposed := exposed_of_noKill hkill
  obtain ⟨hnot, hnodup⟩ : event ∉ events.map Prod.snd ∧ (events.map Prod.snd).Nodup := by
    have hnodup := h.nodup
    rw [queued, hevents] at hnodup
    exact List.nodup_cons.mp hnodup
  have hordered := h.ordered
  rw [hevents] at hordered
  have hmade := h.queuedMade
  rw [queued, hevents] at hmade
  refine ⟨⟨hordered.of_cons, hnodup, h.fresh, (List.forall_mem_cons.mp hmade).2, fun entry hentry => ?_,
    h.stack, fun f hf => ?_, h.counted⟩, hnot, ?_⟩
  · refine h.live entry ?_
    rw [hexposed, hevents]
    rw [exposed_of_noKill (s := { s with events }) hkill] at hentry
    exact List.mem_cons_of_mem _ hentry
  · rw [show s.frames = _ from hframes] at hf
    rw [List.mem_singleton.mp hf]
    trivial
  · refine Option.ne_none_iff_exists'.mp (h.live (due, event) ?_)
    rw [hexposed, hevents]
    exact List.mem_cons_self

theorem Held.gone (h : s.Held) (hexposed : ∀ entry ∈ s.exposed, entry.2 ≠ event)
    (hcalled : ∀ call, .abort call event ∉ s.frames)
    (hkill : ∀ call force, .killAbort call force event ∉ s.frames) : (s.gone event).Held := by
  have hother : ∀ k, k ≠ event → (s.gone event).heap k = s.heap k :=
    fun k hk => Function.update_of_ne hk _ _
  refine ⟨h.ordered, h.nodup, fun k hk => ?_, h.queuedMade, fun entry hentry => ?_, h.stack,
    fun f hf => ?_, h.counted⟩
  · by_cases heq : k = event
    · rw [heq]
      exact Function.update_self _ _ _
    · rw [hother k heq]
      exact h.fresh k hk
  · rw [hother _ (hexposed entry hentry)]
    exact h.live entry hentry
  · have hok := h.frames f hf
    cases f with
    | abort call k =>
      refine ⟨hok.1, ?_⟩
      rw [hother k fun heq => hcalled call (heq ▸ hf)]
      exact hok.2
    | kill call force itr => cases itr <;> exact hok
    | killAbort call force k =>
      refine ⟨hok.1, ?_⟩
      rw [hother k fun heq => hkill call force (heq ▸ hf)]
      exact hok.2
    | _ => trivial

/-! ## The loop of `KillAllEvents` -/

theorem Stack.replace {f' : EventFrame} (h : Stack (f :: frames)) (hf : f.isUpdate = false)
    (hf' : f'.isUpdate = false) (hcall : f'.call = f.call) : Stack (f' :: frames) := by
  cases h with
  | update hupdate => exact absurd (hf.symm.trans hupdate) Bool.false_ne_true
  | kill _ => exact .kill hf'
  | killIn _ hg hne => exact .killIn hf' hg (by rwa [hcall])

theorem Stack.tail (h : Stack (f :: frames)) :
    Stack frames ∧ ∀ g ∈ frames, g.isCalled = true ∧ f.call ≠ g.call := by
  cases h with
  | update _ => exact ⟨.empty, fun _ hg => nomatch hg⟩
  | kill _ => exact ⟨.empty, fun _ hg => nomatch hg⟩
  | @killIn _ g _ hg hne =>
    refine ⟨.update ?_, fun g' hg' => ?_⟩
    · cases g <;> first | rfl | exact nomatch hg
    · rw [List.mem_singleton.mp hg']
      exact ⟨hg, hne⟩

/-- The loop is at the event, before its pass or in its `Abort`. -/
def AtEvent (s : EventProcessor) (call : ℕ) (force : Bool) (event : ℕ) (frames : List EventFrame) : Prop :=
  s.frames = .kill call force (some event) :: frames ∨ s.frames = .killAbort call force event :: frames

/-- What `killEvent` comes to. -/
def killed (s : EventProcessor) (call : ℕ) (force : Bool) (event : ℕ) (frames : List EventFrame)
    (isDeletable : Bool) : EventProcessor :=
  if !force && !isDeletable then { s with frames := .kill call force (s.next event) :: frames }
  else
    { s.gone event with
      events := if force then s.events else s.events.eraseP (·.2 = event)
      frames := .kill call force (s.next event) :: frames }

theorem killEvent_eq (hmem : event ∈ s.queued) (he : s.heap event = some e) (call : ℕ)
    (force : Bool) (frames : List EventFrame) (isDeletable : Bool) :
    s.killEvent call force event frames isDeletable =
      .ok (s.killed call force event frames isDeletable) := by
  rw [killEvent, if_pos hmem, find_eq he, killed]
  show (if _ then _ else s.delete event >>= _) = _
  rw [delete_eq he]
  split <;> rfl

theorem AtEvent.exposed {force : Bool} (hat : s.AtEvent call force event frames) :
    s.exposed = if force then s.fromItr (some event) else s.events := by
  obtain hframes | hframes := hat
  · rw [EventProcessor.exposed, hframes]
    cases force <;> rfl
  · rw [EventProcessor.exposed, hframes]
    cases force <;> rfl

/-- **The loop goes on behind the event**, which has been deleted or stays. -/
theorem Held.killed (h : s.Held) {force : Bool} (hat : s.AtEvent call force event frames)
    (hmem : event ∈ s.queued) (isDeletable : Bool) :
    (s.killed call force event frames isDeletable).Held := by
  obtain ⟨top, htop, hupdate, hcall⟩ : ∃ top, s.frames = top :: frames ∧ top.isUpdate = false ∧
      top.call = call := by
    obtain hframes | hframes := hat
    · exact ⟨_, hframes, rfl, rfl⟩
    · exact ⟨_, hframes, rfl, rfl⟩
  have hstack := h.stack
  rw [htop] at hstack
  have hnew : ∀ itr, Stack (.kill call force itr :: frames) := fun itr =>
    hstack.replace hupdate rfl hcall.symm
  have hcounted : ∀ itr, ∀ f ∈ .kill call force itr :: frames, f.call < s.calls := by
    intro itr
    refine List.forall_mem_cons.mpr ⟨?_, fun f hf => h.counted f ?_⟩
    · rw [← hcall] at *
      exact h.counted top (by rw [htop]; exact List.mem_cons_self)
    · rw [htop]
      exact List.mem_cons_of_mem top hf
  have hunder : ∀ f ∈ frames, s.FrameOk f := fun f hf => h.frames f (by
    rw [htop]
    exact List.mem_cons_of_mem top hf)
  obtain ⟨before, due, after, heq⟩ := exists_split hmem
  have hfrom : s.fromItr (some event) = (due, event) :: after := fromItr_split heq h.nodup
  have hnext : s.next event = after.head?.map Prod.snd := by
    rw [next, hfrom]
    rfl
  have hafter : ∀ entry ∈ after, entry ∈ s.events ∧ entry.2 ≠ event := by
    intro entry hentry
    have hnodup := h.nodup
    rw [queued, heq, List.map_append, List.map_cons] at hnodup
    refine ⟨by rw [heq]; simp [hentry], fun hevent => ?_⟩
    refine (List.nodup_cons.mp (List.nodup_append.mp hnodup).2.1).1 ?_
    show event ∈ after.map Prod.snd
    rw [← hevent]
    exact List.mem_map_of_mem hentry
  have hitr : ∀ k, s.next event = some k → ∃ entry ∈ after, entry.2 = k := by
    intro k hk
    rw [hnext] at hk
    obtain ⟨entry, hentry, rfl⟩ := Option.map_eq_some_iff.mp hk
    exact ⟨entry, List.mem_of_mem_head? hentry, rfl⟩
  have hexposed := hat.exposed
  rw [hfrom] at hexposed
  have hother : ∀ k, k ≠ event → (s.gone event).heap k = s.heap k :=
    fun k hk => Function.update_of_ne hk _ _
  have hfresh : ∀ k, s.made ≤ k → (s.gone event).heap k = none := by
    intro k hk
    by_cases heq : k = event
    · rw [heq]
      exact Function.update_self _ _ _
    · rw [hother k heq]
      exact h.fresh k hk
  rw [EventProcessor.killed]
  split
  · next hstays =>
    obtain rfl : force = false := by simp_all
    refine h.goto _ s.calls (hnew _) (List.forall_mem_cons.mpr ⟨?_, hunder⟩) (hcounted _) fun entry hentry => ?_
    · cases hnext' : s.next event with
      | none => trivial
      | some k =>
        obtain ⟨entry, hentry, rfl⟩ := hitr k hnext'
        exact List.mem_map_of_mem (hafter entry hentry).1
    · rw [hexposed]
      exact hentry
  · -- The event is deleted; a loop that clears the queue at the end leaves its entry behind.
    have hframeOk : ∀ {events : List (ℕ × ℕ)}, (∀ entry ∈ events, entry ∈ s.events) →
        (∀ entry ∈ after, entry ∈ events) →
        ∀ f ∈ .kill call force (s.next event) :: frames,
          FrameOk { s.gone event with events, frames := .kill call force (s.next event) :: frames } f := by
      intro events hsub hsup
      refine List.forall_mem_cons.mpr ⟨?_, fun f hf => ?_⟩
      · cases hnext' : s.next event with
        | none => trivial
        | some k =>
          obtain ⟨entry, hentry, rfl⟩ := hitr k hnext'
          exact List.mem_map_of_mem (hsup entry hentry)
      · have hok := hunder f hf
        have hcalled := (hstack.tail.2 f hf).1
        cases f with
        | abort call k =>
          have hne : k ≠ event := by
            rintro rfl
            exact hok.1 hmem
          refine ⟨fun hk => hok.1 ?_, ?_⟩
          · obtain ⟨entry, hentry, rfl⟩ := List.mem_map.mp hk
            exact List.mem_map_of_mem (hsub entry hentry)
          · show ∃ e, (s.gone event).heap k = some e ∧ _
            rw [hother k hne]
            exact hok.2
        | execute call k => trivial
        | update call => exact nomatch hcalled
        | kill call force itr => exact nomatch hcalled
        | killAbort call force k => exact nomatch hcalled
    cases force with
    | true =>
      refine ⟨h.ordered, h.nodup, hfresh, h.queuedMade, fun entry hentry => ?_, hnew _,
        hframeOk (fun _ hentry => hentry) fun entry hentry => (hafter entry hentry).1, hcounted _⟩
      have hentry' : entry ∈ after := by
        have hrest := fromItr_head (s := s) (before ++ [(due, event)]) after
          (by rw [heq, List.append_assoc]; rfl) h.nodup rfl
        rw [← hnext] at hrest
        rw [← hrest]
        exact hentry
      show (s.gone event).heap entry.2 ≠ none
      rw [hother _ (hafter entry hentry').2]
      refine h.live entry ?_
      rw [hexposed, if_pos rfl]
      exact List.mem_cons_of_mem _ hentry'
    | false =>
      have hsub : ∀ entry ∈ s.events.eraseP (·.2 = event), entry ∈ s.events ∧ entry.2 ≠ event :=
        fun entry hentry => (mem_eraseP_iff h.nodup).mp hentry
      have hsublist := (List.eraseP_sublist (p := fun x : ℕ × ℕ => decide (x.2 = event))
        (l := s.events)).map Prod.snd
      refine ⟨h.ordered.sublist List.eraseP_sublist, h.nodup.sublist hsublist, hfresh,
        fun k hk => h.queuedMade k (hsublist.subset hk), fun entry hentry => ?_, hnew _,
        hframeOk (fun entry hentry => (hsub entry hentry).1) fun entry hentry =>
          (mem_eraseP_iff h.nodup).mpr (hafter entry hentry), hcounted _⟩
      have hentry' := hsub entry hentry
      show (s.gone event).heap entry.2 ≠ none
      rw [hother _ hentry'.2]
      refine h.live entry ?_
      rw [hexposed]
      exact hentry'.1

end EventProcessor

end Sunstrider.Utilities
