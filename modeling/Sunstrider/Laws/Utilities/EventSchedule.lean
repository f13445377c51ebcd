import Mathlib.Data.Finset.Basic
import Mathlib.Data.Nat.Bitwise
import Sunstrider.Lib.Run
import Sunstrider.Utilities.EventMap

/-!
# Event maps as lists of entries

The id, the group and the phase of an event are read back from its word as they were put in. So a map is a
list of entries with these three, and it is compared with such lists.
-/

namespace Sunstrider.Utilities

namespace EventMap

variable {eventId group phase : ℕ}

/-- The bits of a word: those of the id, and one for the group and one for the phase where there is
one. -/
theorem testBit_eventData (hgroup : group ≤ 8) (hphase : phase ≤ 8) (i : ℕ) :
    (eventData eventId group phase).testBit i =
      (eventId.testBit i || decide (group ≠ 0 ∧ group + 15 = i) ||
        decide (phase ≠ 0 ∧ phase + 23 = i)) := by
  unfold eventData
  simp only [Nat.one_shiftLeft]
  by_cases hg : group = 0 <;> by_cases hp : phase = 0 <;>
    simp [hg, hp, hgroup, hphase, Nat.testBit_or, Nat.testBit_two_pow]

theorem testBit_id (hid : eventId < 65536) {i : ℕ} (hi : 16 ≤ i) : eventId.testBit i = false := by
  have hpow : 2 ^ 16 ≤ 2 ^ i := Nat.pow_le_pow_right (by decide) hi
  exact Nat.testBit_lt_two_pow (lt_of_lt_of_le hid hpow)

theorem idOf_eventData (hid : eventId < 65536) (hgroup : group ≤ 8) (hphase : phase ≤ 8) :
    idOf (eventData eventId group phase) = eventId := by
  refine Nat.eq_of_testBit_eq fun i => ?_
  have hmask : (0x0000FFFF : ℕ).testBit i = decide (i < 16) := Nat.testBit_two_pow_sub_one 16 i
  rw [idOf, Nat.testBit_and, hmask, testBit_eventData hgroup hphase]
  by_cases hi : i < 16
  · have hg : ¬ (group ≠ 0 ∧ group + 15 = i) := by omega
    have hp : ¬ (phase ≠ 0 ∧ phase + 23 = i) := by omega
    simp only [hi, hg, hp, decide_true, decide_false, Bool.or_false, Bool.and_true]
  · rw [testBit_id hid (Nat.le_of_not_lt hi)]
    simp [hi]

theorem and_one_shiftLeft_ne_zero (n i : ℕ) : n &&& 1 <<< i ≠ 0 ↔ n.testBit i = true := by
  rw [Nat.one_shiftLeft, Nat.and_two_pow]
  cases n.testBit i <;> simp

theorem inGroup_eventData (hid : eventId < 65536) (hgroup : group ≤ 8) (hphase : phase ≤ 8) {k : ℕ}
    (hk : k ≠ 0) (hk' : k ≤ 8) : inGroup k (eventData eventId group phase) = decide (group = k) := by
  have hbit : (eventData eventId group phase).testBit (k + 15) = decide (group = k) := by
    have hg : (group ≠ 0 ∧ group + 15 = k + 15) ↔ group = k := by omega
    have hp : ¬ (phase ≠ 0 ∧ phase + 23 = k + 15) := by omega
    rw [testBit_eventData hgroup hphase, testBit_id hid (by omega)]
    simp only [hg, hp, decide_false, Bool.or_false, Bool.false_or]
  rw [inGroup, ← hbit, Bool.eq_iff_iff, decide_eq_true_iff]
  exact and_one_shiftLeft_ne_zero _ _

theorem shiftRight_eventData (hid : eventId < 65536) (hgroup : group ≤ 8) (hphase : phase ≤ 8) :
    eventData eventId group phase >>> 24 = if phase = 0 then 0 else 2 ^ (phase - 1) := by
  refine Nat.eq_of_testBit_eq fun i => ?_
  have hg : ¬ (group ≠ 0 ∧ group + 15 = 24 + i) := by omega
  rw [Nat.testBit_shiftRight, testBit_eventData hgroup hphase, testBit_id hid (by omega)]
  split
  next hp => simp [hp, hg]
  next hp =>
    have hi : (phase ≠ 0 ∧ phase + 23 = 24 + i) ↔ phase - 1 = i := by omega
    simp only [hg, hi, decide_false, Bool.false_or, Nat.testBit_two_pow]

theorem and_phases_ne_zero (hid : eventId < 65536) (hgroup : group ≤ 8) (hphase : phase ≤ 8) :
    eventData eventId group phase &&& 0xFF000000 ≠ 0 ↔ phase ≠ 0 := by
  have hmask : (0xFF000000 : ℕ) = (2 ^ 8 - 1) <<< 24 := by decide
  have hbit : ∀ i, (eventData eventId group phase &&& 0xFF000000).testBit i =
      decide (phase ≠ 0 ∧ phase + 23 = i) := by
    intro i
    rw [Nat.testBit_and, hmask, Nat.testBit_shiftLeft, Nat.testBit_two_pow_sub_one,
      testBit_eventData hgroup hphase]
    by_cases hi : 24 ≤ i
    · have hg : ¬ (group ≠ 0 ∧ group + 15 = i) := by omega
      rw [testBit_id hid (by omega)]
      by_cases hp : phase ≠ 0 ∧ phase + 23 = i
      · have hlt : i - 24 < 8 := by omega
        simp [hg, hp, hi, hlt]
      · simp [hg, hp]
    · have hp : ¬ (phase ≠ 0 ∧ phase + 23 = i) := by omega
      simp [hi, hp]
  constructor
  · intro hne hzero
    refine hne (Nat.zero_of_testBit_eq_false fun i => ?_)
    rw [hbit]
    exact decide_eq_false fun h => h.1 hzero
  · intro hp hzero
    have htrue := hbit (phase + 23)
    rw [hzero, Nat.zero_testBit] at htrue
    exact absurd htrue.symm (by simp [hp])

/-- The word has a phase that is not active in a mask of phases. -/
theorem isInactive_eventData (hid : eventId < 65536) (hgroup : group ≤ 8) (hphase : phase ≤ 8)
    (mask : ℕ) :
    isInactive mask (eventData eventId group phase) =
      decide (mask ≠ 0 ∧ phase ≠ 0 ∧ mask.testBit (phase - 1) = false) := by
  have hand : eventData eventId group phase >>> 24 &&& mask = 0 ↔
      phase = 0 ∨ mask.testBit (phase - 1) = false := by
    rw [shiftRight_eventData hid hgroup hphase]
    split
    next hp => simp [hp]
    next hp =>
      rw [Nat.and_comm, Nat.and_two_pow]
      cases mask.testBit (phase - 1) <;> simp [hp]
  have hphases := and_phases_ne_zero hid hgroup hphase
  rw [isInactive, Bool.eq_iff_iff]
  simp only [Bool.and_eq_true, decide_eq_true_iff, hand, hphases]
  constructor
  · rintro ⟨⟨hmask, hp⟩, hzero | hbit⟩
    · exact absurd hzero hp
    · exact ⟨hmask, hp, hbit⟩
  · rintro ⟨hmask, hp, hbit⟩
    exact ⟨⟨hmask, hp⟩, .inr hbit⟩

end EventMap

end Sunstrider.Utilities

/-!
## An event map is a list of entries

What an event map is for: a set of entries, each with a due time, an id, a group and a phase, from which
an execution takes one that is due first among those that are due and that no phase keeps back. Every
entry has a number of its own, so that one can say that it is executed at most once.
-/

namespace Sunstrider.Utilities

open Lib (Trace AllAlong answers final simulates KeyOrdered multimapInsert coe_multimapInsert
  keyOrdered_insert keyOrdered_filter keyOrdered_foldl_insert coe_foldl_multimapInsert
  coe_filter_add_map)

/-- What an entry is, apart from when it is due. -/
structure EventKind where
  eventId : ℕ
  group : ℕ
  phase : ℕ

structure Entry where
  due : ℕ
  kind : EventKind
  number : ℕ

/-- The entries of a script, with the numbers of those that were executed. -/
structure Schedule where
  now : ℕ
  active : Finset ℕ
  entries : Multiset Entry
  last : EventKind
  nextNumber : ℕ
  executed : List ℕ

namespace Schedule

open EventMap (Op)

def new : Schedule := ⟨0, ∅, 0, ⟨0, 0, 0⟩, 0, []⟩

/-- No phase is asked for, or one that is active, or there is no active one. -/
def Open (s : Schedule) (k : EventKind) : Prop := k.phase = 0 ∨ k.phase ∈ s.active ∨ s.active = ∅

def Due (s : Schedule) (e : Entry) : Prop := e.due ≤ s.now

def add (s : Schedule) (time : ℕ) (k : EventKind) : Schedule :=
  { s with
    entries := ⟨s.now + time, k, s.nextNumber⟩ ::ₘ s.entries
    nextNumber := s.nextNumber + 1 }

open Classical in
/-- Only the entries that meet `P` stay. -/
noncomputable def keep (s : Schedule) (P : EventKind → Prop) : Schedule :=
  { s with entries := s.entries.filter fun e => P e.kind }

open Classical in
/-- The entries that meet `P` are put off. -/
noncomputable def putOff (s : Schedule) (delay : ℕ) (P : EventKind → Prop) : Schedule :=
  { s with
    entries := s.entries.map fun e => if P e.kind then { e with due := e.due + delay } else e }

/-- An execution takes an entry that is due first among those that are due and open, and drops entries
that are due and not open; where no entry is due and open, it takes none. -/
inductive Executes (s : Schedule) : ℕ → Schedule → Prop
  | take (e : Entry) (dropped rest : Multiset Entry) (split : s.entries = e ::ₘ (dropped + rest))
      (due : s.Due e) (isOpen : s.Open e.kind)
      (first : ∀ e' ∈ s.entries, s.Due e' → s.Open e'.kind → e.due ≤ e'.due)
      (shut : ∀ d ∈ dropped, s.Due d ∧ ¬ s.Open d.kind) :
      Executes s e.kind.eventId
        { s with
          entries := rest
          last := e.kind
          executed := e.number :: s.executed }
  | skip (dropped rest : Multiset Entry) (split : s.entries = dropped + rest)
      (none : ∀ e ∈ s.entries, s.Due e → ¬ s.Open e.kind)
      (shut : ∀ d ∈ dropped, s.Due d ∧ ¬ s.Open d.kind) :
      Executes s 0 { s with entries := rest }

/-- The step of a schedule. -/
inductive Step : Schedule → Op → ℕ → Schedule → Prop
  | schedule (s : Schedule) (eventId time group phase : ℕ) :
      Step s (.schedule eventId time group phase) 0 (s.add time ⟨eventId, group, phase⟩)
  | reschedule (s : Schedule) (eventId time group phase : ℕ) :
      Step s (.reschedule eventId time group phase) 0
        ((s.keep fun k => k.eventId ≠ eventId).add time ⟨eventId, group, phase⟩)
  | cancel (s : Schedule) (eventId : ℕ) :
      Step s (.cancel eventId) 0 (s.keep fun k => k.eventId ≠ eventId)
  | cancelGroup (s : Schedule) (group : ℕ) :
      Step s (.cancelGroup group) 0 (s.keep fun k => k.group = 0 ∨ k.group ≠ group)
  | delay (s : Schedule) (delay group : ℕ) :
      Step s (.delay delay group) 0 (s.putOff delay fun k => k.group ≠ 0 ∧ k.group = group)
  | setPhase (s : Schedule) (phase : ℕ) :
      Step s (.setPhase phase) 0 { s with active := if phase = 0 then ∅ else {phase} }
  | addPhase (s : Schedule) (phase : ℕ) :
      Step s (.addPhase phase) 0
        { s with active := if phase = 0 then s.active else insert phase s.active }
  | removePhase (s : Schedule) (phase : ℕ) :
      Step s (.removePhase phase) 0 { s with active := s.active.erase phase }
  | update (s : Schedule) (time : ℕ) : Step s (.update time) 0 { s with now := s.now + time }
  | repeatEvent (s : Schedule) (time : ℕ) : Step s (.repeatEvent time) 0 (s.add time s.last)
  | execute {s s' : Schedule} {r : ℕ} (h : Executes s r s') : Step s .execute r s'

/-! ## No entry is executed twice -/

/-- The entries and the executed ones have different numbers. -/
structure Numbered (s : Schedule) : Prop where
  nodup : (s.entries.map Entry.number + (s.executed : Multiset ℕ)).Nodup
  below : ∀ n ∈ s.entries.map Entry.number + (s.executed : Multiset ℕ), n < s.nextNumber

theorem numbered_new : Numbered new where
  nodup := Multiset.nodup_zero
  below := fun _ h => by cases h

variable {s : Schedule}

theorem Numbered.of_le {s' : Schedule} (h : Numbered s)
    (hle : s'.entries.map Entry.number + (s'.executed : Multiset ℕ) ≤
      s.entries.map Entry.number +
    (s.executed : Multiset ℕ)) (hnext : s'.nextNumber = s.nextNumber) :
    Numbered s' where
  nodup := Multiset.nodup_of_le hle h.nodup
  below := fun n hn => hnext ▸ h.below n (Multiset.mem_of_le hle hn)

theorem Numbered.add (h : Numbered s) (time : ℕ) (k : EventKind) : Numbered (s.add time k) where
  nodup := by
    show ((_ ::ₘ s.entries).map Entry.number + _).Nodup
    rw [Multiset.map_cons, Multiset.cons_add, Multiset.nodup_cons]
    exact ⟨fun hmem => Nat.lt_irrefl _ (h.below _ hmem), h.nodup⟩
  below := by
    intro n hn
    replace hn : n ∈ (_ ::ₘ s.entries).map Entry.number + (s.executed : Multiset ℕ) := hn
    rw [Multiset.map_cons, Multiset.cons_add, Multiset.mem_cons] at hn
    rcases hn with rfl | hn
    · exact Nat.lt_succ_self _
    · exact Nat.lt_succ_of_lt (h.below n hn)

open Classical in
theorem Numbered.keep (h : Numbered s) (P : EventKind → Prop) : Numbered (s.keep P) := by
  refine h.of_le (add_le_add_left (Multiset.map_le_map ?_) _) rfl
  unfold Schedule.keep
  exact Multiset.filter_le _ _

theorem Numbered.step {s' : Schedule} {op : Op} {r : ℕ} (h : Numbered s) (hstep : Step s op r s') :
    Numbered s' := by
  cases hstep with
  | schedule eventId time group phase => exact h.add time _
  | reschedule eventId time group phase => exact (h.keep _).add time _
  | cancel eventId => exact h.keep _
  | cancelGroup group => exact h.keep _
  | delay delay group =>
    refine h.of_le (le_of_eq ?_) rfl
    refine congrArg (· + _) ?_
    show (s.entries.map _).map Entry.number = s.entries.map Entry.number
    rw [Multiset.map_map]
    refine Multiset.map_congr rfl fun e _ => ?_
    simp only [Function.comp_apply]
    split <;> rfl
  | setPhase phase => exact h.of_le le_rfl rfl
  | addPhase phase => exact h.of_le le_rfl rfl
  | removePhase phase => exact h.of_le le_rfl rfl
  | update time => exact h.of_le le_rfl rfl
  | repeatEvent time => exact h.add time _
  | execute hexec =>
    cases hexec with
    | take e dropped rest split due isOpen first shut =>
      refine h.of_le ?_ rfl
      show rest.map Entry.number + (e.number ::ₘ (s.executed : Multiset ℕ)) ≤ _
      rw [split, Multiset.map_cons, Multiset.map_add, Multiset.add_cons, Multiset.cons_add,
        Multiset.cons_le_cons_iff]
      exact add_le_add_left (Multiset.le_add_left _ _) _
    | skip dropped rest split none shut =>
      refine h.of_le (add_le_add_left ?_ _) rfl
      rw [split]
      exact Multiset.map_le_map (Multiset.le_add_left _ _)

end Schedule

/-! ## The map of a schedule -/

namespace EventMap

open Schedule (Step Numbered)

/-- The parameters of the kinds that can be scheduled. The kind of an event map that has executed
nothing has the id 0. -/
def Fits (k : EventKind) : Prop := k.eventId < 65536 ∧ k.group ≤ 8 ∧ k.phase ≤ 8

/-- The word of a kind. -/
def wordOf (k : EventKind) : ℕ := eventData k.eventId k.group k.phase

/-- The pair of an entry. -/
def pairOf (e : Entry) : ℕ × ℕ := (e.due, wordOf e.kind)

/-- An event map holds a schedule. -/
structure Holds (m : EventMap) (s : Schedule) : Prop where
  time : m.time = s.now
  ordered : KeyOrdered m.eventMap
  entries : (m.eventMap : Multiset (ℕ × ℕ)) = s.entries.map pairOf
  fits : ∀ e ∈ s.entries, Fits e.kind
  last : m.lastEvent = wordOf s.last
  lastFits : Fits s.last
  mask : m.phase < 2 ^ 8
  phases : ∀ i, m.phase.testBit i = decide (i + 1 ∈ s.active)
  noZero : 0 ∉ s.active

theorem holds_new : Holds new Schedule.new where
  time := rfl
  ordered := List.Pairwise.nil
  entries := rfl
  fits := fun _ h => by cases h
  last := rfl
  lastFits := ⟨by decide, by decide, by decide⟩
  mask := by decide
  phases := fun i => by simp [new, Schedule.new]
  noZero := by simp [Schedule.new]

/-- What is asked of an operation: an id of sixteen bits that is not 0, groups and phases of 0 to 8, and
times that do not wrap. -/
def Admits (m : EventMap) : Op → Prop
  | .schedule eventId time group phase | .reschedule eventId time group phase =>
    (1 ≤ eventId ∧ eventId ≤ 65535) ∧ group ≤ 8 ∧ phase ≤ 8 ∧ m.time + time < word32
  | .cancelGroup group => group ≤ 8
  | .delay delay group =>
    group ≤ 8 ∧ ∀ e ∈ m.eventMap, inGroup group e.2 → e.1 + delay < word32
  | .setPhase phase | .addPhase phase | .removePhase phase => phase ≤ 8
  | .update time | .repeatEvent time => m.time + time < word32
  | .cancel _ | .execute => True

instance : DecidableRel Admits := fun m op => by
  cases op <;> unfold Admits <;> infer_instance

variable {m : EventMap} {s : Schedule}

variable {k : EventKind}

theorem idOf_wordOf (h : Fits k) : idOf (wordOf k) = k.eventId :=
  idOf_eventData h.1 h.2.1 h.2.2

variable {group : ℕ}

theorem inGroup_wordOf (h : Fits k) (hg : group ≠ 0) (hg' : group ≤ 8) :
    inGroup group (wordOf k) = decide (k.group = group) :=
  inGroup_eventData h.1 h.2.1 h.2.2 hg hg'

theorem Holds.phase_eq_zero (h : Holds m s) : m.phase = 0 ↔ s.active = ∅ := by
  constructor
  · intro hzero
    refine Finset.eq_empty_of_forall_notMem fun i hi => ?_
    cases i with
    | zero => exact h.noZero hi
    | succ i =>
      have hbit := h.phases i
      rw [hzero, Nat.zero_testBit] at hbit
      exact of_decide_eq_false hbit.symm hi
  · intro hempty
    refine Nat.zero_of_testBit_eq_false fun i => ?_
    rw [h.phases, hempty]
    simp

theorem Holds.isInactive (h : Holds m s) (hk : Fits k) :
    isInactive m.phase (wordOf k) = true ↔ ¬ s.Open k := by
  rw [wordOf, isInactive_eventData hk.1 hk.2.1 hk.2.2, decide_eq_true_iff, h.phases,
    decide_eq_false_iff_not, Schedule.Open, ne_eq, h.phase_eq_zero]
  by_cases hp : k.phase = 0
  · simp [hp]
  · have hsucc : k.phase - 1 + 1 = k.phase := Nat.succ_pred_eq_of_ne_zero hp
    rw [hsucc]
    tauto

/-! ## One operation -/

theorem Holds.add (h : Holds m s) {time : ℕ} (hwrap : m.time + time < word32) (hk : Fits k) :
    Holds { m with eventMap := multimapInsert m.eventMap ((m.time + time) % word32, wordOf k) }
      (s.add time k) where
  time := h.time
  ordered := keyOrdered_insert h.ordered _
  entries := by
    show (multimapInsert m.eventMap _ : Multiset (ℕ × ℕ)) = (_ ::ₘ s.entries).map pairOf
    rw [coe_multimapInsert, h.entries, Multiset.map_cons, Nat.mod_eq_of_lt hwrap, h.time]
    rfl
  fits := by
    intro e he
    rcases Multiset.mem_cons.mp he with rfl | he
    · exact hk
    · exact h.fits e he
  last := h.last
  lastFits := h.lastFits
  mask := h.mask
  phases := h.phases
  noZero := h.noZero

open Classical in
theorem Holds.keep (h : Holds m s) {p : ℕ × ℕ → Bool} {P : EventKind → Prop}
    (hp : ∀ e : Entry, Fits e.kind → (p (pairOf e) = true ↔ P e.kind)) :
    Holds { m with eventMap := m.eventMap.filter p } (s.keep P) where
  time := h.time
  ordered := keyOrdered_filter h.ordered p
  entries := by
    show (m.eventMap.filter p : Multiset (ℕ × ℕ)) = (s.keep P).entries.map pairOf
    have hfilter : (m.eventMap : Multiset (ℕ × ℕ)).filter (fun x => p x = true) =
        ((s.entries.filter fun e => P e.kind).map pairOf) := by
      rw [h.entries, Multiset.filter_map]
      exact congrArg _ (Multiset.filter_congr fun e he => hp e (h.fits e he))
    rw [Multiset.filter_coe] at hfilter
    simp only [Bool.decide_eq_true] at hfilter
    exact hfilter
  fits := fun e he => h.fits e (Multiset.mem_of_mem_filter he)
  last := h.last
  lastFits := h.lastFits
  mask := h.mask
  phases := h.phases
  noZero := h.noZero

theorem Holds.cancelEvent (h : Holds m s) (eventId : ℕ) :
    Holds (m.cancelEvent eventId) (s.keep fun k => k.eventId ≠ eventId) := by
  refine h.keep fun e he => ?_
  rw [pairOf, idOf_wordOf he, decide_eq_true_iff]
  exact ne_comm

open Classical in
theorem keep_eq_self {P : EventKind → Prop} (hP : ∀ e ∈ s.entries, P e.kind) : s.keep P = s :=
  congrArg (fun entries => { s with entries := entries })
    (Multiset.filter_eq_self.mpr hP : s.entries.filter (fun e => P e.kind) = s.entries)

theorem Holds.cancelEventGroup (h : Holds m s) (hg : group ≤ 8) :
    Holds (m.cancelEventGroup group) (s.keep fun k => k.group = 0 ∨ k.group ≠ group) := by
  unfold EventMap.cancelEventGroup
  split
  next hnone =>
    obtain rfl : group = 0 := by omega
    rw [keep_eq_self fun e _ => eq_or_ne e.kind.group 0]
    exact h
  next hsome =>
    have hpos : group ≠ 0 := fun hzero => hsome (.inl hzero)
    refine h.keep fun e he => ?_
    rw [pairOf, inGroup_wordOf he hpos hg, Bool.not_eq_true', decide_eq_false_iff_not]
    constructor
    · exact fun hne => .inr hne
    · rintro (hzero | hne)
      · exact fun heq => hpos (heq.symm.trans hzero)
      · exact hne

open Classical in
theorem Holds.delayEvents (h : Holds m s) {delay : ℕ} (hg : group ≤ 8)
    (hwrap : ∀ e ∈ m.eventMap, inGroup group e.2 → e.1 + delay < word32) :
    Holds (m.delayEvents delay group) (s.putOff delay fun k => k.group ≠ 0 ∧ k.group = group) := by
  have hfits : ∀ e ∈ (s.putOff delay fun k => k.group ≠ 0 ∧ k.group = group).entries, Fits e.kind := by
    intro e he
    obtain ⟨e', he', rfl⟩ := Multiset.mem_map.mp he
    split
    · exact h.fits e' he'
    · exact h.fits e' he'
  unfold EventMap.delayEvents
  split
  next hnone =>
    obtain rfl : group = 0 := by omega
    refine { h with
      entries := ?_
      fits := hfits }
    rw [h.entries]
    show _ = (s.entries.map _).map pairOf
    rw [Multiset.map_map]
    refine Multiset.map_congr rfl fun e _ => ?_
    rw [Function.comp_apply, if_neg fun heq => heq.1 heq.2]
  next hsome =>
    have hpos : group ≠ 0 := fun hzero => hsome (.inl hzero)
    refine { h with
      ordered := keyOrdered_foldl_insert (keyOrdered_filter h.ordered _) _
      entries := ?_
      fits := hfits }
    -- the two parts of the events, and of the entries
    show ((List.foldl multimapInsert (m.eventMap.filter fun e => !inGroup group e.2) _ : List (ℕ × ℕ)) :
      Multiset (ℕ × ℕ)) = (s.entries.map _).map pairOf
    rw [coe_foldl_multimapInsert, coe_foldl_multimapInsert, Multiset.coe_nil, zero_add,
      coe_filter_add_map, h.entries, Multiset.map_map, Multiset.map_map]
    refine Multiset.map_congr rfl fun e he => ?_
    have hfit := h.fits e he
    have hmem : pairOf e ∈ m.eventMap := by
      rw [← Multiset.mem_coe, h.entries]
      exact Multiset.mem_map_of_mem pairOf he
    have hin : inGroup group (pairOf e).2 = decide (e.kind.group = group) := inGroup_wordOf hfit hpos hg
    simp only [Function.comp_apply, hin, decide_eq_true_eq]
    by_cases heq : e.kind.group = group
    · have hlt := hwrap (pairOf e) hmem (hin.trans (decide_eq_true heq))
      have hgroup : e.kind.group ≠ 0 ∧ e.kind.group = group := ⟨heq ▸ hpos, heq⟩
      rw [if_pos heq, if_pos hgroup, Nat.mod_eq_of_lt hlt]
      rfl
    · rw [if_neg heq, if_neg fun hgroup => heq hgroup.2]

theorem testBit_one_shiftLeft {p i : ℕ} (hp : p ≠ 0) :
    (1 <<< (p - 1)).testBit i = decide (i + 1 = p) := by
  have hsub : p - 1 = i ↔ i + 1 = p := by omega
  rw [Nat.one_shiftLeft, Nat.testBit_two_pow, decide_eq_decide]
  exact hsub

theorem one_shiftLeft_lt {p : ℕ} (hp' : p ≤ 8) : 1 <<< (p - 1) < 2 ^ 8 := by
  rw [Nat.one_shiftLeft]
  exact Nat.pow_lt_pow_right (by decide) (by omega)

theorem Holds.setMask (h : Holds m s) {mask : ℕ} {active : Finset ℕ} (hmask : mask < 2 ^ 8)
    (hphases : ∀ i, mask.testBit i = decide (i + 1 ∈ active)) (hzero : 0 ∉ active) :
    Holds { m with phase := mask } { s with active := active } :=
  { h with
    mask := hmask
    phases := hphases
    noZero := hzero }

variable {phase : ℕ}

theorem Holds.setPhase (h : Holds m s) (hp : phase ≤ 8) :
    Holds (m.setPhase phase) { s with active := if phase = 0 then ∅ else {phase} } := by
  unfold EventMap.setPhase
  by_cases hzero : phase = 0
  · rw [if_pos hzero, if_pos hzero]
    exact h.setMask (by decide) (fun i => by simp) (by simp)
  · rw [if_neg hzero, if_pos hp, if_neg hzero]
    refine h.setMask (one_shiftLeft_lt hp) (fun i => ?_) (by simpa using Ne.symm hzero)
    simp only [testBit_one_shiftLeft hzero, Finset.mem_singleton]

theorem Holds.addPhase (h : Holds m s) (hp : phase ≤ 8) :
    Holds (m.addPhase phase)
      { s with active := if phase = 0 then s.active else insert phase s.active } := by
  unfold EventMap.addPhase
  by_cases hzero : phase = 0
  · rw [if_neg fun hpos => hpos.1 hzero, if_pos hzero]
    exact h
  · rw [if_pos ⟨hzero, hp⟩, if_neg hzero]
    refine h.setMask (Nat.or_lt_two_pow h.mask (one_shiftLeft_lt hp)) (fun i => ?_) ?_
    · rw [Nat.testBit_or, h.phases, testBit_one_shiftLeft hzero, Bool.or_comm]
      simp
    · rw [Finset.mem_insert, not_or]
      exact ⟨Ne.symm hzero, h.noZero⟩

theorem Holds.removePhase (h : Holds m s) (hp : phase ≤ 8) :
    Holds (m.removePhase phase) { s with active := s.active.erase phase } := by
  unfold EventMap.removePhase
  by_cases hzero : phase = 0
  · rw [if_neg fun hpos => hpos.1 hzero, hzero, Finset.erase_eq_of_notMem h.noZero]
    exact h
  · rw [if_pos ⟨hzero, hp⟩]
    refine h.setMask (Nat.lt_of_le_of_lt Nat.and_le_left h.mask) (fun i => ?_) fun hmem =>
      h.noZero (Finset.mem_of_mem_erase hmem)
    have hfull : (255 : ℕ).testBit i = decide (i < 8) := Nat.testBit_two_pow_sub_one 8 i
    rw [Nat.testBit_and, Nat.testBit_xor, hfull, h.phases, testBit_one_shiftLeft hzero]
    by_cases heq : i + 1 = phase
    · have hlt : i < 8 := by omega
      simp [heq, hlt]
    · by_cases hlt : i < 8
      · simp [heq, hlt]
      · -- the mask has no such bit
        have hbit := Nat.testBit_lt_two_pow (lt_of_lt_of_le h.mask
          (Nat.pow_le_pow_right (by decide) (Nat.le_of_not_lt hlt)))
        rw [h.phases] at hbit
        simp [hbit, heq, hlt]

/-! ## Execution -/

/-- The state of the loop: the events in front were dropped, and they were due and not open. -/
structure Drops (m : EventMap) (s : Schedule) (events : List (ℕ × ℕ)) (dropped rest : Multiset Entry) :
    Prop where
  split : s.entries = dropped + rest
  pairs : (events : Multiset (ℕ × ℕ)) = rest.map pairOf
  ordered : KeyOrdered events
  shut : ∀ d ∈ dropped, s.Due d ∧ ¬ s.Open d.kind

theorem Drops.front {events : List (ℕ × ℕ)} {dropped rest : Multiset Entry} {x : ℕ × ℕ}
    (h : Drops m s (x :: events) dropped rest) :
    ∃ e rest', rest = e ::ₘ rest' ∧ pairOf e = x ∧
      (events : Multiset (ℕ × ℕ)) = rest'.map pairOf ∧ ∀ e' ∈ rest, e.due ≤ e'.due := by
  have hmem : x ∈ rest.map pairOf := by
    rw [← h.pairs]
    exact List.mem_cons_self
  obtain ⟨e, he, rfl⟩ := Multiset.mem_map.mp hmem
  obtain ⟨rest', rfl⟩ := Multiset.exists_cons_of_mem he
  refine ⟨e, rest', rfl, rfl, ?_, fun e' he' => ?_⟩
  · have hcons := h.pairs
    rw [Multiset.map_cons, ← Multiset.cons_coe] at hcons
    exact (Multiset.cons_inj_right _).mp hcons
  · have hin : pairOf e' ∈ pairOf e :: events := by
      rw [← Multiset.mem_coe, h.pairs]
      exact Multiset.mem_map_of_mem pairOf he'
    rcases List.mem_cons.mp hin with heq | hin
    · exact le_of_eq (congrArg Prod.fst heq).symm
    · exact (List.pairwise_cons.mp h.ordered).1 (pairOf e') hin

theorem executeLoop_holds (h : Holds m s) {events : List (ℕ × ℕ)} {dropped rest : Multiset Entry}
    (hdrops : Drops m s events dropped rest) :
    ∃ s', Schedule.Executes s (m.executeLoop events).2 s' ∧ Holds (m.executeLoop events).1 s' := by
  have hrest : ∀ e ∈ rest, e ∈ s.entries := fun e he => by
    rw [hdrops.split]
    exact Multiset.mem_add.mpr (.inr he)
  have hnone : ∀ e ∈ s.entries, s.Due e → s.Open e.kind → e ∈ rest := by
    intro e he _ hopen
    rw [hdrops.split] at he
    rcases Multiset.mem_add.mp he with hd | hr
    · exact absurd hopen (hdrops.shut e hd).2
    · exact hr
  induction events generalizing dropped rest with
  | nil =>
    have hempty : rest = 0 := Multiset.map_eq_zero.mp hdrops.pairs.symm
    subst hempty
    refine ⟨{ s with entries := 0 }, .skip dropped 0 hdrops.split (fun e he hdue hopen => ?_)
      hdrops.shut, ?_⟩
    · exact absurd (hnone e he hdue hopen) (Multiset.notMem_zero e)
    · exact { h with
        ordered := List.Pairwise.nil
        entries := rfl
        fits := fun _ he => by cases he }
  | cons x events ih =>
    obtain ⟨e, rest', rfl, rfl, hevents, hfirst⟩ := hdrops.front
    have hfit := h.fits e (hrest e (Multiset.mem_cons_self e rest'))
    unfold executeLoop
    by_cases hlate : m.time < (pairOf e).1
    · -- the first event is not due, so none is
      rw [if_pos hlate]
      refine ⟨{ s with entries := e ::ₘ rest' }, .skip dropped _ hdrops.split
        (fun e' he' hdue hopen => ?_) hdrops.shut, ?_⟩
      · have hle := hfirst e' (hnone e' he' hdue hopen)
        have hnow : e'.due ≤ s.now := hdue
        rw [h.time] at hlate
        exact absurd (lt_of_lt_of_le hlate (hle.trans hnow)) (lt_irrefl _)
      · exact { h with
          ordered := hdrops.ordered
          entries := hdrops.pairs
          fits := fun e' he' => h.fits e' (hrest e' he') }
    · rw [if_neg hlate]
      have hdue : s.Due e := by
        rw [Schedule.Due, ← h.time]
        exact Nat.le_of_not_lt hlate
      by_cases hshut : isInactive m.phase (pairOf e).2 = true
      · rw [if_pos hshut]
        have hclosed : ¬ s.Open e.kind := (h.isInactive hfit).mp hshut
        have hnext : Drops m s events (e ::ₘ dropped) rest' :=
          { split := by
              rw [hdrops.split, Multiset.add_cons, Multiset.cons_add]
            pairs := hevents
            ordered := (List.pairwise_cons.mp hdrops.ordered).2
            shut := fun d hd => by
              rcases Multiset.mem_cons.mp hd with rfl | hd
              · exact ⟨hdue, hclosed⟩
              · exact hdrops.shut d hd }
        refine ih hnext (fun e' he' => hrest e' (Multiset.mem_cons_of_mem he'))
          fun e' he' hdue' hopen' => ?_
        rcases Multiset.mem_cons.mp (hnone e' he' hdue' hopen') with rfl | hmem
        · exact absurd hopen' hclosed
        · exact hmem
      · rw [if_neg hshut]
        have hopen : s.Open e.kind := by
          by_contra hclosed
          exact hshut ((h.isInactive hfit).mpr hclosed)
        have hid : idOf (pairOf e).2 = e.kind.eventId := idOf_wordOf hfit
        rw [hid]
        refine ⟨_, .take e dropped rest' ?_ hdue hopen (fun e' he' hdue' hopen' => ?_) hdrops.shut, ?_⟩
        · rw [hdrops.split, Multiset.add_cons]
        · exact hfirst e' (hnone e' he' hdue' hopen')
        · exact { h with
            ordered := (List.pairwise_cons.mp hdrops.ordered).2
            entries := hevents
            fits := fun e' he' => h.fits e' (hrest e' (Multiset.mem_cons_of_mem he'))
            last := rfl
            lastFits := hfit }

/-! ## Runs -/

theorem Holds.step (h : Holds m s) {op : Op} (hop : Admits m op) :
    ∃ s', Step s op (m.step op).2 s' ∧ Holds (m.step op).1 s' := by
  cases op with
  | schedule eventId time group phase =>
    obtain ⟨⟨-, hid⟩, hg, hp, hwrap⟩ := hop
    exact ⟨_, .schedule s eventId time group phase,
      h.add hwrap (k := ⟨eventId, group, phase⟩) ⟨Nat.lt_succ_of_le hid, hg, hp⟩⟩
  | reschedule eventId time group phase =>
    obtain ⟨⟨-, hid⟩, hg, hp, hwrap⟩ := hop
    exact ⟨_, .reschedule s eventId time group phase,
      (h.cancelEvent eventId).add hwrap (k := ⟨eventId, group, phase⟩)
        ⟨Nat.lt_succ_of_le hid, hg, hp⟩⟩
  | cancel eventId => exact ⟨_, .cancel s eventId, h.cancelEvent eventId⟩
  | cancelGroup group => exact ⟨_, .cancelGroup s group, h.cancelEventGroup hop⟩
  | delay delay group => exact ⟨_, .delay s delay group, h.delayEvents hop.1 hop.2⟩
  | setPhase phase => exact ⟨_, .setPhase s phase, h.setPhase hop⟩
  | addPhase phase => exact ⟨_, .addPhase s phase, h.addPhase hop⟩
  | removePhase phase => exact ⟨_, .removePhase s phase, h.removePhase hop⟩
  | update time =>
    refine ⟨_, .update s time, { h with time := ?_ }⟩
    exact (Nat.mod_eq_of_lt hop).trans (congrArg (· + time) h.time)
  | repeatEvent time =>
    refine ⟨_, .repeatEvent s time, ?_⟩
    have hadd := h.add hop h.lastFits
    rw [← h.last] at hadd
    exact hadd
  | execute =>
    have hstart : Drops m s m.eventMap 0 s.entries :=
      { split := (zero_add _).symm
        pairs := h.entries
        ordered := h.ordered
        shut := fun d hd => by cases hd }
    obtain ⟨s', hexec, hs'⟩ := executeLoop_holds h hstart
    exact ⟨s', .execute hexec, hs'⟩

/-- **An event map behaves as a schedule.** Whatever is done to it, a schedule can be run that gives the
same answers and holds the same entries, and no entry is executed twice. -/
theorem runs_as_schedule (ops : List Op)
    (hops : AllAlong (fun m op => (step m op).1) Admits new ops) :
    ∃ s, Trace Step Schedule.new ops (answers step new ops) s ∧ Holds (final step new ops) s ∧
      s.executed.Nodup := by
  obtain ⟨s, htrace, hs⟩ := simulates (fun h hop => h.step hop) holds_new hops
  have hnumbered : Numbered s :=
    htrace.keeps (fun h hstep => h.step hstep) Schedule.numbered_new
  refine ⟨s, htrace, hs, ?_⟩
  exact Multiset.coe_nodup.mp (Multiset.nodup_of_le (Multiset.le_add_left _ _) hnumbered.nodup)

/-- Two groups and two phases, with an event that is put off, one that is dropped, and one that is
repeated. -/
theorem runs_as_schedule_mixed :
    ∃ s, Trace Step Schedule.new
        [.schedule 1 10 1 0, .schedule 2 5 0 2, .setPhase 1, .schedule 3 5 2 1, .delay 20 1, .update 30,
          .execute, .repeatEvent 100, .cancelGroup 2, .execute, .execute]
        (answers step new
          [.schedule 1 10 1 0, .schedule 2 5 0 2, .setPhase 1, .schedule 3 5 2 1, .delay 20 1,
            .update 30, .execute, .repeatEvent 100, .cancelGroup 2, .execute, .execute]) s ∧
      Holds (final step new
          [.schedule 1 10 1 0, .schedule 2 5 0 2, .setPhase 1, .schedule 3 5 2 1, .delay 20 1,
            .update 30, .execute, .repeatEvent 100, .cancelGroup 2, .execute, .execute]) s ∧
      s.executed.Nodup :=
  runs_as_schedule _ (by decide)

end EventMap

end Sunstrider.Utilities
