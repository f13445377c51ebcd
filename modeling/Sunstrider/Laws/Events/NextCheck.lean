import Mathlib.Algebra.Order.Ring.Int
import Sunstrider.Events.GameEventMgr

/-!
# The checks of game events

A scheduled event is looked at again when it changes, at the latest. The test of the activity and the
delay to the next change are two computations with remainders, and they agree at every second but one
(`GameEventData.inTime_iff`): at the start itself the event is not yet active, and the delay is already
the one to the end of its first window.
-/

namespace Sunstrider.Events

open Sunstrider.Lib (mulU32 toU32 toU32_eq toU32_le)

/-! ## Windows -/

/-- A window of a period is not left or entered before what is left of it has passed. -/
theorem emod_lt_iff_of_lt {a i : ℤ} {p l : ℕ} (hp : p ≠ 0) (hi : 0 ≤ i)
    (h : i < if a % p < l then (l : ℤ) - a % p else p - a % p) : (a + i) % p < l ↔ a % p < l := by
  have hpos : (0 : ℤ) < p := by omega
  have hr := Int.emod_nonneg a hpos.ne'
  have hlt := Int.emod_lt_of_pos (a + i) hpos
  have hadd (hsum : a % p + i < p) : (a + i) % p = a % p + i := by
    rw [← Int.emod_add_emod]
    exact Int.emod_eq_of_lt (add_nonneg hr hi) hsum
  split at h
  next hin =>
    refine ⟨fun _ => hin, fun _ => ?_⟩
    by_cases hsum : a % p + i < p
    · rw [hadd hsum]
      omega
    · -- the window is longer than the period
      omega
  next hout =>
    rw [hadd (by omega)]
    omega

/-- Whatever word the minutes of an event make, it is a multiple of four. -/
theorem mulU32_minute (n : ℕ) : mulU32 n minute = 0 ∨ 4 ≤ mulU32 n minute := by
  have hfour : 4 ∣ mulU32 n minute :=
    (Nat.dvd_mod_iff (by decide)).mpr (Dvd.dvd.mul_left (by decide) n)
  omega

theorem mulU32_lt (a b : ℕ) : mulU32 a b < 2 ^ 32 := Nat.mod_lt _ (by decide)

theorem remainder_eq {x : ℤ} {p : ℕ} (hp : p ≠ 0) (hx : 0 ≤ x) : remainder x p = some (x % p) := by
  unfold remainder
  rw [if_neg hp, Int.tmod_eq_emod_of_nonneg hx]

namespace GameEventData

variable {e : GameEventData} {mGameEvent : ℕ → GameEventData} {now t : ℤ}

/-! ## A scheduled event -/

/-- The event is in a window at that time. -/
def InWindow (e : GameEventData) (t : ℤ) : Prop :=
  e.start < t ∧ t < e.endTime ∧ (t - e.start) % e.occurenceSeconds < e.lengthSeconds

instance (e : GameEventData) (t : ℤ) : Decidable (e.InWindow t) := inferInstanceAs (Decidable (_ ∧ _))

theorem check_outside (hstate : e.state = .normal) (h : ¬ (e.start < t ∧ t < e.endTime)) :
    e.checkOneGameEvent mGameEvent t = some false := by
  unfold checkOneGameEvent
  rw [hstate]
  exact if_neg h

theorem check_eq (hstate : e.state = .normal) (hp : e.occurenceSeconds ≠ 0) :
    e.checkOneGameEvent mGameEvent t = some (decide (e.InWindow t)) := by
  by_cases h : e.start < t ∧ t < e.endTime
  · unfold checkOneGameEvent
    rw [hstate]
    rw [if_pos h, remainder_eq hp (by omega), Option.map_some]
    simp [InWindow, h]
  · rw [check_outside hstate h]
    have hnot : ¬ e.InWindow t := fun hw => h ⟨hw.1, hw.2.1⟩
    simp [hnot]

/-- The delay to the next change, as the remainder gives it. -/
def windowDelay (e : GameEventData) (now : ℤ) : ℤ :=
  if (now - e.start) % e.occurenceSeconds < e.lengthSeconds then
    e.lengthSeconds - (now - e.start) % e.occurenceSeconds
  else e.occurenceSeconds - (now - e.start) % e.occurenceSeconds

theorem windowDelay_pos (now : ℤ) (hp : e.occurenceSeconds ≠ 0) : 0 < e.windowDelay now := by
  have hlt := Int.emod_lt_of_pos (now - e.start) (b := e.occurenceSeconds) (by omega)
  unfold windowDelay
  split <;> omega

theorem windowDelay_lt (hp : e.occurenceSeconds ≠ 0) : e.windowDelay now < 2 ^ 32 := by
  have hr := Int.emod_nonneg (now - e.start) (b := e.occurenceSeconds) (by omega)
  have hl : e.lengthSeconds < 2 ^ 32 := mulU32_lt _ _
  have ho : e.occurenceSeconds < 2 ^ 32 := mulU32_lt _ _
  unfold windowDelay
  split <;> omega

/-- **What `NextCheck` answers for a scheduled event.** Between its start and its end, the delay is the
one to the next change, or to the end if that comes before. -/
theorem nextCheck_cases (now : ℤ) (hstate : e.state = .normal) :
    (e.endTime < now ∧ e.nextCheck now = some maxGeCheckDelay) ∨
    (now ≤ e.endTime ∧ now < e.start ∧ e.nextCheck now = some (toU32 (e.start - now))) ∨
    (e.start ≤ now ∧ now ≤ e.endTime ∧ e.occurenceSeconds = 0 ∧ e.nextCheck now = none) ∨
    (e.start ≤ now ∧ now ≤ e.endTime ∧ e.occurenceSeconds ≠ 0 ∧
      ∃ n : ℕ, e.nextCheck now = some n ∧ (n : ℤ) = min (e.windowDelay now) (e.endTime - now)) := by
  unfold nextCheck
  rw [if_neg fun h => by simp [hstate] at h, if_neg (by simp [hstate])]
  by_cases hend : e.endTime < now
  · exact .inl ⟨hend, if_pos hend⟩
  rw [if_neg hend]
  have hend' := not_lt.mp hend
  by_cases hstart : now < e.start
  · exact .inr (.inl ⟨hend', hstart, if_pos hstart⟩)
  rw [if_neg hstart]
  have hstart' := not_lt.mp hstart
  by_cases hp : e.occurenceSeconds = 0
  · refine .inr (.inr (.inl ⟨hstart', hend', hp, ?_⟩))
    unfold remainder
    rw [if_pos hp, Option.map_none]
  · have hdelay : (toU32 (e.windowDelay now) : ℤ) = e.windowDelay now :=
      toU32_eq (windowDelay_pos now hp).le (windowDelay_lt hp)
    rw [remainder_eq hp (by omega), Option.map_some]
    refine .inr (.inr (.inr ⟨hstart', hend', hp, _, rfl, ?_⟩))
    show ((if e.endTime < now + toU32 (e.windowDelay now) then toU32 (e.endTime - now)
      else toU32 (e.windowDelay now) : ℕ) : ℤ) = _
    split
    · next hcut =>
      rw [toU32_eq (by omega) ((by omega : e.endTime - now < e.windowDelay now).trans
        (windowDelay_lt hp)), min_eq_right (by omega)]
    · rw [hdelay, min_eq_left (by omega)]

/-! ## Checks in time -/

/-- **The check of an event comes in time**: the activity stays what it is until the next check is due,
and where the next update comes a second after it, or after a shorter delay, a change before that update
is at most one second old. -/
def InTime (mGameEvent : ℕ → GameEventData) (e : GameEventData) (now : ℤ) : Prop :=
  ∃ n, e.nextCheck now = some n ∧
    (∀ t, now ≤ t → t < now + max 1 n →
      e.checkOneGameEvent mGameEvent t = e.checkOneGameEvent mGameEvent now) ∧
    ∀ delay ≤ n, ∀ t, now < t → t ≤ now + delay + 1 →
      e.checkOneGameEvent mGameEvent t ≠ e.checkOneGameEvent mGameEvent (t - 1) →
      now + delay + 1 - t ≤ 1

/-- The changes are in time where the activity is constant. -/
theorem inTime_of_constant {n : ℕ} (hn : e.nextCheck now = some n)
    (h : ∀ t, now ≤ t → t < now + max 1 n →
      e.checkOneGameEvent mGameEvent t = e.checkOneGameEvent mGameEvent now) :
    InTime mGameEvent e now := by
  refine ⟨n, hn, h, fun delay hdelay t ht hle hchange => ?_⟩
  by_contra hlate
  refine hchange ((h t ht.le ?_).trans (h (t - 1) (by omega) ?_).symm)
  · omega
  · omega

theorem inWindow_iff_of_le (hp : e.occurenceSeconds ≠ 0) (hstart : e.start < now) (hend : now < e.endTime)
    (hle : now ≤ t) (hdelay : t < now + e.windowDelay now) (hcut : t < e.endTime) :
    e.InWindow t ↔ e.InWindow now := by
  have hsum : t - e.start = (now - e.start) + (t - now) := by omega
  have hsame := emod_lt_iff_of_lt (a := now - e.start) (i := t - now) (l := e.lengthSeconds) hp
    (by omega) (by
      unfold windowDelay at hdelay
      omega)
  unfold InWindow
  rw [hsum, hsame]
  constructor
  · exact fun h => ⟨hstart, hend, h.2.2⟩
  · exact fun h => ⟨by omega, hcut, h.2.2⟩

/-- At its start, an event with a window that is longer than a second is not in time. -/
theorem not_inTime_start (hstate : e.state = .normal) (hp : e.occurenceSeconds ≠ 0)
    (hl : e.lengthSeconds ≠ 0) (hspan : e.start + 1 < e.endTime) : ¬ InTime mGameEvent e e.start := by
  intro h
  obtain ⟨n, hn, hconstant, -⟩ := h
  have hp4 := (mulU32_minute e.occurence).resolve_left hp
  have hl4 := (mulU32_minute e.length).resolve_left hl
  have hzero : (e.start - e.start) % (e.occurenceSeconds : ℤ) = 0 := by
    rw [sub_self, Int.zero_emod]
  -- the delay goes to the end of the window, which begins a second later
  have hlong : (2 : ℤ) ≤ n := by
    rcases nextCheck_cases e.start hstate with h | h | h | ⟨-, -, -, m, hm, hmin⟩
    · omega
    · omega
    · exact absurd h.2.2.1 hp
    · rw [hn] at hm
      cases hm
      unfold windowDelay at hmin
      unfold lengthSeconds at hmin
      omega
  have hnow : ¬ e.InWindow e.start := fun h => lt_irrefl e.start h.1
  have hnext : e.InWindow (e.start + 1) := by
    refine ⟨by omega, hspan, ?_⟩
    rw [add_sub_cancel_left, Int.emod_eq_of_lt (by decide) (by unfold occurenceSeconds; omega)]
    unfold lengthSeconds
    omega
  have hchange := hconstant (e.start + 1) (by omega) (by omega)
  rw [check_eq hstate hp, check_eq hstate hp, Option.some_inj, decide_eq_decide] at hchange
  exact hnow (hchange.mp hnext)

/-- **When the checks of a scheduled event come in time**: at every second but the start itself. There
the event is not active yet, and the next check comes after the window that begins then. Beside that,
the occurence in seconds must not be 0 as a word. -/
theorem inTime_iff (mGameEvent : ℕ → GameEventData) (e : GameEventData) (now : ℤ)
    (hstate : e.state = .normal) (hspan : e.start < e.endTime) :
    InTime mGameEvent e now ↔ now < e.start ∨ e.endTime < now ∨ e.occurenceSeconds ≠ 0 ∧
      (now ≠ e.start ∨ e.endTime = e.start + 1 ∨ e.lengthSeconds = 0) := by
  rcases nextCheck_cases now hstate with ⟨hend, hn⟩ | ⟨-, hstart, hn⟩ | ⟨hstart, hend, hp, hn⟩ |
    ⟨hstart, hend, hp, n, hn, hmin⟩
  · -- after the end
    refine ⟨fun _ => .inr (.inl hend), fun _ => inTime_of_constant hn fun t hle _ => ?_⟩
    rw [check_outside hstate (by omega), check_outside hstate (by omega)]
  · -- before the start
    refine ⟨fun _ => .inl hstart, fun _ => inTime_of_constant hn fun t _ hlt => ?_⟩
    have hle := toU32_le (x := e.start - now) (by omega)
    rw [check_outside hstate (by omega), check_outside hstate (by omega)]
  · -- the remainder is a fault
    constructor
    · intro h
      obtain ⟨n, hsome, -⟩ := h
      rw [hn] at hsome
      cases hsome
    · intro h
      omega
  · constructor
    · intro h
      refine .inr (.inr ⟨hp, ?_⟩)
      by_contra hnot
      push Not at hnot
      obtain ⟨rfl, hend', hl⟩ := hnot
      exact not_inTime_start hstate hp hl (by omega) h
    · intro h
      refine inTime_of_constant hn fun t hle hlt => ?_
      rw [check_eq hstate hp, check_eq hstate hp, Option.some_inj, decide_eq_decide]
      by_cases hsame : t = now
      · rw [hsame]
      by_cases hnow : now = e.start
      · -- the window is empty, or there is no second before the end
        have hempty : e.endTime = e.start + 1 ∨ e.lengthSeconds = 0 := by omega
        have hnone (t : ℤ) (ht : e.endTime = e.start + 1 → t < e.endTime) : ¬ e.InWindow t := by
          intro hw
          rcases hempty with h | h
          · have := hw.1
            omega
          · have hr := Int.emod_nonneg (t - e.start) (b := e.occurenceSeconds) (by omega)
            have := hw.2.2
            omega
        exact iff_of_false (hnone t (by omega)) (hnone now (by omega))
      · exact inWindow_iff_of_le hp (by omega) (by omega) hle (by omega) (by omega)

/-- An event of an hour, of which it is active for half an hour. -/
def halfHour : GameEventData := ⟨1000, 100000, 0, 60, 30, .normal, []⟩

/-- A second after its start the event is checked in time. -/
theorem inTime_halfHour : InTime (fun _ => halfHour) halfHour 1001 :=
  (inTime_iff (fun _ => halfHour) halfHour 1001 rfl (by decide)).mpr (by decide)

/-- At its start it is not: the next check is due when the window is over. -/
theorem not_inTime_halfHour :
    ¬ ∀ (mGameEvent : ℕ → GameEventData) (e : GameEventData) (now : ℤ), e.state = .normal →
      0 < e.length → e.length < e.occurence → e.start < e.endTime → InTime mGameEvent e now := by
  intro h
  have hin := h (fun _ => halfHour) halfHour 1000 rfl (by decide) (by decide) (by decide)
  exact not_inTime_start rfl (by decide) (by decide) (by decide) hin

end GameEventData

end Sunstrider.Events
