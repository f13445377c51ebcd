import Sunstrider.Utilities.EventMap
import Mathlib.Algebra.Order.BigOperators.Group.Multiset
import Mathlib.Algebra.Order.Ring.Nat

/-!
# The minimal delay of an event

`SetMinimalDelay` is to move every entry of an event to a time no nearer than `delay` from now, which is
what `DelaysFromNow` says. It compares the absolute due times with the delay alone, and so what it comes
to is a due time of at least `delay`, from the start of the timer (`setMinimalDelay_eventMap`).

The two agree just where no entry of the event has to be moved away from now, or where the timer has not
started (`setMinimalDelay_delays_iff`).
-/

namespace Sunstrider.Utilities

open Lib (coe_multimapInsert KeyOrdered keyOrdered_insert)

namespace EventMap

variable {eventId delay : ℕ}

/-- An entry of the event is due at `due` at the earliest. -/
def dueFrom (eventId due : ℕ) (e : ℕ × ℕ) : ℕ × ℕ := if eventId = idOf e.2 then (max e.1 due, e.2) else e

/-- Every entry of the event is due `delay` from now at the earliest, and nothing else has changed. -/
structure DelaysFromNow (m : EventMap) (eventId delay : ℕ) (m' : EventMap) : Prop where
  entries : (m'.eventMap : Multiset (ℕ × ℕ)) =
    (m.eventMap : Multiset (ℕ × ℕ)).map (dueFrom eventId (m.time + delay))
  rest : { m' with eventMap := m.eventMap } = m

/-! ## The loop -/

theorem coe_minimalDelayLoop (eventId delay : ℕ) (events : List (ℕ × ℕ)) :
    (minimalDelayLoop eventId delay events : Multiset (ℕ × ℕ)) =
      (events : Multiset (ℕ × ℕ)).map (dueFrom eventId delay) := by
  fun_induction minimalDelayLoop eventId delay events with
  | case1 => rfl
  | case2 e events h ih =>
    -- the event that is put back is at the delay already
    have hback : dueFrom eventId delay (delay, e.2) = dueFrom eventId delay e := by
      unfold dueFrom
      rw [if_pos h.1, if_pos h.1, max_self, max_eq_right h.2.le]
    rw [ih, coe_multimapInsert, Multiset.map_cons, hback, ← Multiset.cons_coe, Multiset.map_cons]
  | case3 e events h ih =>
    have hkeep : dueFrom eventId delay e = e := by
      unfold dueFrom
      split
      · next hid => rw [max_eq_left (not_lt.mp fun hlt => h ⟨hid, hlt⟩)]
      · rfl
    rw [← Multiset.cons_coe, ih, ← Multiset.cons_coe, Multiset.map_cons, hkeep]

theorem setMinimalDelay_eventMap (m : EventMap) (eventId delay : ℕ) :
    ((m.setMinimalDelay eventId delay).eventMap : Multiset (ℕ × ℕ)) =
      (m.eventMap : Multiset (ℕ × ℕ)).map (dueFrom eventId delay) :=
  coe_minimalDelayLoop eventId delay m.eventMap

/-! ## Times from now -/

theorem dueFrom_le (e : ℕ × ℕ) {due due' : ℕ} (h : due ≤ due') :
    (dueFrom eventId due e).1 ≤ (dueFrom eventId due' e).1 := by
  unfold dueFrom
  split
  · exact max_le_max_left e.1 h
  · exact le_rfl

/-- Entries that are only put off, to the same times altogether, are the same. -/
theorem forall_of_map_eq {l : Multiset (ℕ × ℕ)} {f g : ℕ × ℕ → ℕ × ℕ} (hle : ∀ e, (f e).1 ≤ (g e).1)
    (h : l.map f = l.map g) : ∀ e ∈ l, (f e).1 = (g e).1 := by
  intro e he
  by_contra hne
  have hlt : (l.map fun e => (f e).1).sum < (l.map fun e => (g e).1).sum :=
    Multiset.sum_lt_sum (fun e _ => hle e) ⟨e, he, lt_of_le_of_ne (hle e) hne⟩
  have hsum := congrArg (fun l' => (Multiset.map Prod.fst l').sum) h
  simp only [Multiset.map_map, Function.comp_def] at hsum
  omega

/-- **The delay is one from now just if the timer has not started, or no entry of the event is nearer
than that.** -/
theorem setMinimalDelay_delays_iff (m : EventMap) (eventId delay : ℕ) :
    DelaysFromNow m eventId delay (m.setMinimalDelay eventId delay) ↔
      m.time = 0 ∨ ∀ e ∈ m.eventMap, idOf e.2 = eventId → m.time + delay ≤ e.1 := by
  constructor
  · intro h
    have heq := h.entries
    rw [setMinimalDelay_eventMap] at heq
    have hlater : ∀ e, (dueFrom eventId delay e).1 ≤ (dueFrom eventId (m.time + delay) e).1 :=
      fun e => dueFrom_le e (Nat.le_add_left delay m.time)
    have hdue := forall_of_map_eq hlater heq
    by_contra! hnot
    obtain ⟨hstarted, e, he, hid, hnear⟩ := hnot
    have := hdue e he
    unfold dueFrom at this
    rw [if_pos hid.symm, if_pos hid.symm] at this
    omega
  · intro h
    refine ⟨?_, rfl⟩
    rw [setMinimalDelay_eventMap]
    refine Multiset.map_congr rfl fun e he => ?_
    unfold dueFrom
    split
    · next hid =>
      rcases h with hzero | hfar
      · rw [hzero, Nat.zero_add]
      · have := hfar e he hid.symm
        rw [max_eq_left this, max_eq_left (by omega)]
    · rfl

/-- The event 7 is due in half a second, a second after the start of the timer. -/
def startedTimer : EventMap := ⟨1000, 0, [(1500, 7)], 0⟩

theorem startedTimer_not_delayed : ¬ DelaysFromNow startedTimer 7 1000 (startedTimer.setMinimalDelay 7 1000) := by
  intro h
  have hentries := h.entries
  rw [setMinimalDelay_eventMap] at hentries
  exact absurd hentries (by decide)

end EventMap

end Sunstrider.Utilities
