import Mathlib.Algebra.BigOperators.Group.List.Basic
import Mathlib.Algebra.GroupWithZero.Nat
import Sunstrider.Utilities.Util

/-!
# A printed duration reads back

A duration is a row of groups, each a number and its unit (`DigitGroup`). Reading one multiplies the number out and
adds it to the seconds so far, so no number on the way is greater than the seconds of the whole row. What
`secsToTimeString` prints is such a row, of the parts that are not zero.
-/

namespace Sunstrider.Utilities

variable {st : TimeScan}

inductive TimeUnit where
  | day | hour | minute | second

namespace TimeUnit

def letter : TimeUnit → Char
  | day => 'd'
  | hour => 'h'
  | minute => 'm'
  | second => 's'

def seconds : TimeUnit → UInt32
  | day => 86400
  | hour => 3600
  | minute => 60
  | second => 1

@[simp] theorem multiplier_letter (u : TimeUnit) : multiplier u.letter = some u.seconds := by cases u <;> rfl

@[simp] theorem isDigit_letter (u : TimeUnit) : u.letter.isDigit = false := by cases u <;> rfl

theorem seconds_pos (u : TimeUnit) : 0 < u.seconds.toNat := by cases u <;> decide

end TimeUnit

/-- A number and its unit. -/
structure DigitGroup where
  digits : List Char
  unit : TimeUnit
  isDigit : ∀ c ∈ digits, c.isDigit = true

namespace DigitGroup

def number (g : DigitGroup) : ℕ := Nat.ofDigitChars 10 g.digits 0

def seconds (g : DigitGroup) : ℕ := g.number * g.unit.seconds.toNat

def text (groups : List DigitGroup) : List Char := groups.flatMap fun g => g.digits ++ [g.unit.letter]

def total (groups : List DigitGroup) : ℕ := (groups.map seconds).sum

@[simp] theorem total_nil : total [] = 0 := rfl

@[simp] theorem total_cons (g : DigitGroup) (groups : List DigitGroup) :
    total (g :: groups) = g.seconds + total groups := by
  simp [total]

@[simp] theorem total_append (l l' : List DigitGroup) : total (l ++ l') = total l + total l' := by
  simp [total]

@[simp] theorem text_append (l l' : List DigitGroup) : text (l ++ l') = text l ++ text l' := by
  simp [text]

end DigitGroup

/-! ## Reading a group -/

/-- No product or sum of the scan leaves 32 bits. -/
def TimeScan.Fits (st : TimeScan) : List Char → Prop
  | [] => True
  | c :: cs =>
    (if c.isDigit then st.buffer.toNat * 10 + (c.toNat - '0'.toNat) < 2 ^ 32
      else ∀ m, multiplier c = some m →
        st.buffer.toNat * m.toNat < 2 ^ 32 ∧ st.secs.toNat + st.buffer.toNat * m.toNat < 2 ^ 32) ∧
    ∀ st', st.read c = some st' → st'.Fits cs

variable {c : Char}

theorem digit_le (h : c.isDigit = true) : '0'.toNat ≤ c.toNat := by
  simp only [Char.isDigit, Bool.and_eq_true, decide_eq_true_eq] at h
  exact h.1

/-- A digit is read exactly where the number still fits. -/
theorem read_digit (h : c.isDigit = true)
    (hfits : st.buffer.toNat * 10 + (c.toNat - '0'.toNat) < 2 ^ 32) :
    ∃ st', st.read c = some st' ∧ st'.secs = st.secs ∧
      st'.buffer.toNat = 10 * st.buffer.toNat + (c.toNat - '0'.toNat) := by
  refine ⟨⟨st.secs, st.buffer * 10 + (c.val - '0'.val)⟩, by rw [TimeScan.read, if_pos h], rfl, ?_⟩
  have hsub : (c.val - '0'.val).toNat = c.toNat - '0'.toNat :=
    UInt32.toNat_sub_of_le c.val '0'.val (digit_le h)
  rw [UInt32.toNat_add, UInt32.toNat_mul, hsub]
  have hmul : st.buffer.toNat * (10 : UInt32).toNat % 2 ^ 32 = st.buffer.toNat * 10 :=
    Nat.mod_eq_of_lt (show st.buffer.toNat * 10 < 2 ^ 32 by omega)
  rw [hmul, Nat.mod_eq_of_lt hfits, Nat.mul_comm]

theorem read_letter (st : TimeScan) (u : TimeUnit) (hbuffer : st.buffer.toNat * u.seconds.toNat < 2 ^ 32)
    (hsecs : st.secs.toNat + st.buffer.toNat * u.seconds.toNat < 2 ^ 32) :
    ∃ st', st.read u.letter = some st' ∧ st'.buffer = 0 ∧
      st'.secs.toNat = st.secs.toNat + st.buffer.toNat * u.seconds.toNat := by
  refine ⟨⟨st.secs + st.buffer * u.seconds, 0⟩, by simp [TimeScan.read], rfl, ?_⟩
  rw [UInt32.toNat_add, UInt32.toNat_mul, Nat.mod_eq_of_lt hbuffer, Nat.mod_eq_of_lt hsecs]

theorem le_ofDigitChars (cs : List Char) (n : ℕ) : n ≤ Nat.ofDigitChars 10 cs n := by
  induction cs generalizing n with
  | nil => simp
  | cons c cs ih =>
    rw [Nat.ofDigitChars_cons]
    have := ih (10 * n + (c.toNat - '0'.toNat))
    omega

/-- Reading the digits of a number leaves it in the buffer, exactly. -/
theorem run_digits (st : TimeScan) {digits : List Char} (rest : List Char)
    (hdigits : ∀ c ∈ digits, c.isDigit = true) (h : Nat.ofDigitChars 10 digits st.buffer.toNat < 2 ^ 32) :
    ∃ st' : TimeScan, st'.secs = st.secs ∧ st'.buffer.toNat = Nat.ofDigitChars 10 digits st.buffer.toNat ∧
      st.run (digits ++ rest) = st'.run rest ∧ (st'.Fits rest → st.Fits (digits ++ rest)) := by
  induction digits generalizing st with
  | nil => exact ⟨st, rfl, by simp, rfl, id⟩
  | cons c cs ih =>
    have hc := hdigits c (List.mem_cons_self ..)
    rw [Nat.ofDigitChars_cons] at h
    have hle := le_ofDigitChars cs (10 * st.buffer.toNat + (c.toNat - '0'.toNat))
    have hfits : st.buffer.toNat * 10 + (c.toNat - '0'.toNat) < 2 ^ 32 := by omega
    obtain ⟨st₁, hread, hsecs, hbuffer⟩ := read_digit hc hfits
    have hcs : ∀ c' ∈ cs, c'.isDigit = true := fun c' hc' => hdigits c' (List.mem_cons_of_mem _ hc')
    obtain ⟨st', hsecs', hbuffer', hrun, hrest⟩ := ih st₁ hcs (by rwa [hbuffer])
    refine ⟨st', hsecs'.trans hsecs, ?_, ?_, fun hst' => ?_⟩
    · rw [hbuffer', hbuffer, Nat.ofDigitChars_cons]
    · rw [List.cons_append, TimeScan.run, hread]
      exact hrun
    · rw [List.cons_append, TimeScan.Fits, if_pos hc]
      refine ⟨hfits, fun st'' hst'' => ?_⟩
      obtain rfl : st₁ = st'' := Option.some.inj (hread.symm.trans hst'')
      exact hrest hst'

theorem run_group {g : DigitGroup} (rest : List Char) (hbuffer : st.buffer = 0)
    (h : st.secs.toNat + g.seconds < 2 ^ 32) :
    ∃ st' : TimeScan, st'.buffer = 0 ∧ st'.secs.toNat = st.secs.toNat + g.seconds ∧
      st.run (g.digits ++ g.unit.letter :: rest) = st'.run rest ∧
      (st'.Fits rest → st.Fits (g.digits ++ g.unit.letter :: rest)) := by
  have hzero : st.buffer.toNat = 0 := by rw [hbuffer]; rfl
  have hnumber : g.number ≤ g.seconds := Nat.le_mul_of_pos_right _ g.unit.seconds_pos
  have hlt : g.seconds < 2 ^ 32 := Nat.lt_of_le_of_lt (Nat.le_add_left ..) h
  obtain ⟨st₁, hsecs, hbuffer₁, hrun, hrest⟩ := run_digits st (g.unit.letter :: rest)
    g.isDigit (by rw [hzero]; exact Nat.lt_of_le_of_lt hnumber hlt)
  rw [hzero] at hbuffer₁
  have hmul : st₁.buffer.toNat * g.unit.seconds.toNat = g.seconds := by rw [hbuffer₁]; rfl
  obtain ⟨st', hread, hbuffer', hsecs'⟩ := read_letter st₁ g.unit (by rw [hmul]; omega)
    (by rw [hsecs, hmul]; exact h)
  refine ⟨st', hbuffer', by rw [hsecs', hsecs, hmul], ?_, fun hst' => hrest ?_⟩
  · rw [hrun, TimeScan.run, hread]
  · rw [TimeScan.Fits, if_neg (by simp)]
    refine ⟨fun m hm => ?_, fun st'' hst'' => ?_⟩
    · obtain rfl : g.unit.seconds = m := by simpa using hm
      rw [hmul, hsecs]
      omega
    · obtain rfl : st' = st'' := Option.some.inj (hread.symm.trans hst'')
      exact hst'

/-- Reading a row adds its seconds, exactly: one group after another. -/
theorem run_text (st : TimeScan) (groups : List DigitGroup) (hbuffer : st.buffer = 0)
    (h : st.secs.toNat + DigitGroup.total groups < 2 ^ 32) :
    (st.run (DigitGroup.text groups)).toNat = st.secs.toNat + DigitGroup.total groups ∧
      st.Fits (DigitGroup.text groups) := by
  induction groups generalizing st with
  | nil => exact ⟨by simp [DigitGroup.text, TimeScan.run], trivial⟩
  | cons g groups ih =>
    rw [DigitGroup.total_cons] at h ⊢
    have htext : DigitGroup.text (g :: groups) = g.digits ++ g.unit.letter :: DigitGroup.text groups := by
      simp [DigitGroup.text]
    obtain ⟨st', hbuffer', hsecs, hrun, hfits⟩ := run_group (DigitGroup.text groups) hbuffer
      (show st.secs.toNat + g.seconds < 2 ^ 32 by omega)
    obtain ⟨hvalue, hrest⟩ := ih st' hbuffer' (by rw [hsecs]; omega)
    rw [htext]
    exact ⟨by rw [hrun, hvalue, hsecs, Nat.add_assoc], hfits hrest⟩

/-- A character that is no digit and no unit is a bad format. -/
theorem run_bad {cs : List Char} (hmem : c ∈ cs) (hdigit : c.isDigit = false)
    (hunit : multiplier c = none) : st.run cs = 0 := by
  induction cs generalizing st with
  | nil => cases hmem
  | cons head cs ih =>
    rw [TimeScan.run]
    cases hread : st.read head with
    | none => rfl
    | some st' =>
      rcases List.mem_cons.mp hmem with rfl | hmem
      · simp [TimeScan.read, hdigit, hunit] at hread
      · exact ih hmem

/-! ## What is printed -/

def DigitGroup.ofNumber (n : UInt32) (unit : TimeUnit) : DigitGroup :=
  ⟨Utilities.digits n, unit, fun _ hc => Nat.isDigit_of_mem_toDigits (by decide) (by decide) hc⟩

/-- A part of the text that is printed where the number is not zero. -/
def part (p : Prop) [Decidable p] (n : UInt32) (unit : TimeUnit) : List DigitGroup :=
  if p then [.ofNumber n unit] else []

theorem total_part {p : Prop} [Decidable p] {n : UInt32} (h : ¬p → n = 0) (unit : TimeUnit) :
    DigitGroup.total (part p n unit) = n.toNat * unit.seconds.toNat := by
  have hone : DigitGroup.total [.ofNumber n unit] = n.toNat * unit.seconds.toNat := by
    simp [DigitGroup.total, DigitGroup.seconds, DigitGroup.number, DigitGroup.ofNumber, Utilities.digits]
  by_cases hp : p
  · rw [part, if_pos hp, hone]
  · rw [part, if_neg hp, h hp]
    simp

theorem text_part {p : Prop} [Decidable p] (n : UInt32) (unit : TimeUnit) :
    DigitGroup.text (part p n unit) = if p then digits n ++ [unit.letter] else [] := by
  unfold part
  split <;> simp [DigitGroup.text, DigitGroup.ofNumber]

/-- The parts of a duration. -/
def parts (t : UInt32) : List DigitGroup :=
  part (t / 86400 ≠ 0) (t / 86400) .day ++ part (t % 86400 / 3600 ≠ 0) (t % 86400 / 3600) .hour ++
    part (t % 3600 / 60 ≠ 0) (t % 3600 / 60) .minute ++
    part (t % 60 ≠ 0 ∨ (t / 86400 = 0 ∧ t % 86400 / 3600 = 0 ∧ t % 3600 / 60 = 0)) (t % 60) .second

theorem secsToTimeString_eq (t : UInt32) : secsToTimeString t true false = DigitGroup.text (parts t) := by
  simp [secsToTimeString, parts, text_part, TimeUnit.letter]

theorem total_parts (t : UInt32) : DigitGroup.total (parts t) = t.toNat := by
  simp only [parts, DigitGroup.total_append]
  rw [total_part not_not.mp, total_part not_not.mp, total_part not_not.mp,
    total_part fun h => not_not.mp (not_or.mp h).1]
  show t.toNat / 86400 * 86400 + t.toNat % 86400 / 3600 * 3600 + t.toNat % 3600 / 60 * 60 + t.toNat % 60 * 1 = _
  omega

/-- Durations print and parse consistently: what is printed reads back with no wrap around on the way, a row of
groups is read as the sum of its seconds, and any other character makes the whole text zero. -/
theorem durations_agree :
    (∀ t, TimeScan.Fits ⟨0, 0⟩ (secsToTimeString t true false) ∧
      timeStringToSecs (secsToTimeString t true false) = t) ∧
    (∀ groups, DigitGroup.total groups < 2 ^ 32 →
      (timeStringToSecs (DigitGroup.text groups)).toNat = DigitGroup.total groups) ∧
    ∀ cs : List Char, (∃ c ∈ cs, c.isDigit = false ∧ multiplier c = none) → timeStringToSecs cs = 0 := by
  have hread : ∀ {groups : List DigitGroup}, DigitGroup.total groups < 2 ^ 32 →
      (timeStringToSecs (DigitGroup.text groups)).toNat = DigitGroup.total groups ∧
        TimeScan.Fits ⟨0, 0⟩ (DigitGroup.text groups) := by
    intro groups h
    obtain ⟨hvalue, hfits⟩ := run_text ⟨0, 0⟩ groups rfl
      (by rw [UInt32.toNat_zero, Nat.zero_add]; exact h)
    exact ⟨by rw [timeStringToSecs, hvalue, UInt32.toNat_zero, Nat.zero_add], hfits⟩
  refine ⟨fun t => ?_, fun groups h => (hread h).1, fun cs => ?_⟩
  · have hlt : DigitGroup.total (parts t) < 2 ^ 32 := by rw [total_parts]; exact t.toNat_lt
    obtain ⟨hvalue, hfits⟩ := hread hlt
    rw [secsToTimeString_eq]
    exact ⟨hfits, UInt32.toNat_inj.mp (by rw [hvalue, total_parts])⟩
  · rintro ⟨c, hmem, hdigit, hunit⟩
    exact run_bad hmem hdigit hunit

/-- An hour and five seconds. -/
def hourAndFive : List DigitGroup := [⟨['1'], .hour, List.forall_mem_singleton.mpr rfl⟩,
  ⟨['5'], .second, List.forall_mem_singleton.mpr rfl⟩]

theorem total_hourAndFive : DigitGroup.total hourAndFive = 3605 := by
  simp [hourAndFive, DigitGroup.seconds, DigitGroup.number, TimeUnit.seconds, Nat.ofDigitChars_cons]

/-- "1h5s" is read as 3605 seconds, and "1h-" as none. -/
theorem durations_agree_hour :
    (timeStringToSecs (DigitGroup.text hourAndFive)).toNat = DigitGroup.total hourAndFive ∧
      timeStringToSecs ['1', 'h', '-'] = 0 :=
  ⟨durations_agree.2.1 hourAndFive (by rw [total_hourAndFive]; decide),
    durations_agree.2.2 ['1', 'h', '-'] ⟨'-', by decide, by decide, by decide⟩⟩

end Sunstrider.Utilities
