import Sunstrider.Spells.SpellHistory

/-!
# Reading cooldowns back

A reader of the packet takes the count, and then as many records of one size. `Readable` says that it gets the
record of every cooldown, with no byte left, and that a cooldown that still holds does not look like one that has
ended.

The packet is readable just where the count has room for all cooldowns, no cooldown of a pet is on hold, and the
durations of those that still hold do not both come to 0 (`writePacket_readable_iff`).
-/

namespace Sunstrider.Spells

open Sunstrider.Lib (toBytes ofBytes length_toBytes ofBytes_toBytes toBytes_eq_replicate_iff takeFrames
  takeFrames_flatten takeFrames_eq_some toU32)

/-- The cooldown is on hold, or has not ended. -/
def CooldownEntry.Holds (e : CooldownEntry) (now : ℕ) : Prop := e.onHold = true ∨ now < e.cooldownEnd

/-- Both durations of a record are 0. -/
def OwnerType.LooksEnded (o : OwnerType) (record : List UInt8) : Prop :=
  record.drop (o.recordSize - 8) = List.replicate 8 0

/-- The reader gets every record, and sees of each cooldown whether it still holds. -/
structure SpellHistory.Readable (h : SpellHistory) (o : OwnerType) (now : ℕ) (packet : List UInt8) : Prop where
  read : takeFrames (fun _ => o.recordSize) (ofBytes (packet.take o.countWidth)) (packet.drop o.countWidth) =
    some (h.records o now, [])
  told : ∀ itr ∈ h.spellCooldowns.entries, itr.2.entry.Holds now →
    ¬ o.LooksEnded (o.writeCooldown now itr.1 itr.2.entry)

/-! ## Durations -/

section Durations

variable {now t : ℕ}

theorem millisecondsFrom_of_le (h : now ≤ t) : millisecondsFrom now t = ((t - now) / milliseconds 1 : ℕ) := by
  unfold millisecondsFrom
  rw [← Int.ofNat_sub h, Int.tdiv_eq_ediv_of_nonneg (Int.natCast_nonneg _), Int.natCast_ediv]

theorem millisecondsFrom_of_ge (h : t ≤ now) : millisecondsFrom now t = -((now - t) / milliseconds 1 : ℕ) := by
  unfold millisecondsFrom
  rw [← neg_sub, Int.neg_tdiv, ← Int.ofNat_sub h, Int.tdiv_eq_ediv_of_nonneg (Int.natCast_nonneg _),
    Int.natCast_ediv]

theorem millisecondsFrom_pos_iff : 0 < millisecondsFrom now t ↔ now + milliseconds 1 ≤ t := by
  rcases le_total now t with h | h
  · rw [millisecondsFrom_of_le h, Int.natCast_pos, Nat.div_pos_iff]
    unfold milliseconds
    omega
  · rw [millisecondsFrom_of_ge h]
    unfold milliseconds
    omega

theorem millisecondsFrom_nonneg_iff : 0 ≤ millisecondsFrom now t ↔ now < t + milliseconds 1 := by
  rcases le_total now t with h | h
  · rw [millisecondsFrom_of_le h]
    unfold milliseconds
    omega
  · rw [millisecondsFrom_of_ge h, Int.neg_nonneg, Int.natCast_nonpos_iff, Nat.div_eq_zero_iff]
    unfold milliseconds
    omega

theorem dvd_toU32_iff (n : ℕ) : 256 ^ 4 ∣ toU32 n ↔ 2 ^ 32 ∣ n := by
  unfold toU32
  omega

/-- Both durations are 0, as they are written. -/
theorem durations_eq_replicate_iff (cooldown category : ℕ) :
    durations cooldown category = List.replicate 8 0 ↔ 256 ^ 4 ∣ cooldown ∧ 256 ^ 4 ∣ category := by
  have hsplit : List.replicate 8 (0 : UInt8) = List.replicate 4 0 ++ List.replicate 4 0 := rfl
  rw [← toBytes_eq_replicate_iff, ← toBytes_eq_replicate_iff, durations, hsplit]
  constructor
  · intro h
    exact List.append_inj h (by rw [length_toBytes, List.length_replicate])
  · rintro ⟨hcooldown, hcategory⟩
    rw [hcooldown, hcategory]

theorem length_durations (cooldown category : ℕ) : (durations cooldown category).length = 8 := by
  rw [durations, List.length_append, length_toBytes, length_toBytes]

end Durations

/-! ## Records -/

/-- The durations of a cooldown that holds do not both come to 0. A cooldown that ends within a millisecond
comes to 0, and so does one whose category ends within a millisecond, or in a multiple of `2 ^ 32` of them. -/
def OwnerType.Tells : OwnerType → ℕ → CooldownEntry → Prop
  | pet, now, e =>
    now + milliseconds 1 ≤ e.cooldownEnd ∧
      if now + milliseconds 1 ≤ e.categoryEnd then ¬ 2 ^ 32 ∣ (e.categoryEnd - now) / milliseconds 1
      else ¬ 2 ^ 32 ∣ (e.cooldownEnd - now) / milliseconds 1
  | player, now, e =>
    now + infinityCooldownDelayCheck ≤ e.cooldownEnd ∨
      now + milliseconds 1 ≤ e.cooldownEnd ∧
        (e.categoryEnd + milliseconds 1 ≤ now ∨ ¬ 2 ^ 32 ∣ (e.categoryEnd - now) / milliseconds 1)

section Records

variable {now spellId : ℕ} {e : CooldownEntry}

theorem length_writePlayerCooldown : (writePlayerCooldown now spellId e).length = 14 := by
  unfold writePlayerCooldown
  simp only [List.length_append, length_toBytes]
  split
  · rw [length_durations]
  · split
    · rw [length_durations]
    · split <;> rw [length_durations]

/-- A cooldown on hold has no durations in the packet of a pet. -/
theorem length_writePetCooldown :
    (writePetCooldown now spellId e).length = if e.onHold then 4 else 12 := by
  unfold writePetCooldown
  simp only [List.length_append, length_toBytes]
  cases e.onHold with
  | true => rfl
  | false =>
    rw [Bool.not_false, if_pos rfl, if_neg Bool.false_ne_true]
    split
    · rw [length_durations]
    · split <;> rw [length_durations]

theorem player_tells_iff :
    ¬ OwnerType.player.LooksEnded (writePlayerCooldown now spellId e) ↔ OwnerType.player.Tells now e := by
  have hdrop : ∀ d : List UInt8, (toBytes 2 spellId ++ toBytes 2 e.itemId ++ toBytes 2 e.categoryId ++ d).drop
      (OwnerType.player.recordSize - 8) = d := fun d => List.drop_left' (by simp [OwnerType.recordSize])
  unfold OwnerType.LooksEnded writePlayerCooldown OwnerType.Tells
  rw [hdrop]
  dsimp only
  by_cases hinf : now + infinityCooldownDelayCheck ≤ e.cooldownEnd
  · rw [if_pos hinf, durations_eq_replicate_iff]
    exact iff_of_true (by decide) (.inl hinf)
  · rw [if_neg hinf, or_iff_right hinf]
    by_cases hcd : now + milliseconds 1 ≤ e.cooldownEnd
    · rw [if_neg (not_le.mpr (millisecondsFrom_pos_iff.mpr hcd)), and_iff_right hcd]
      by_cases hcat : e.categoryEnd + milliseconds 1 ≤ now
      · -- the duration of the cooldown is below half a month, and so does not wrap
        rw [if_neg fun h => absurd (millisecondsFrom_nonneg_iff.mp h) (not_lt.mpr hcat),
          durations_eq_replicate_iff, millisecondsFrom_of_le (by omega), dvd_toU32_iff]
        refine iff_of_true (fun h => ?_) (.inl hcat)
        have hlt : (e.cooldownEnd - now) / milliseconds 1 < 2 ^ 32 := by
          unfold infinityCooldownDelayCheck seconds milliseconds at *
          omega
        have hpos : 0 < (e.cooldownEnd - now) / milliseconds 1 := by
          unfold milliseconds at *
          omega
        exact absurd (Nat.le_of_dvd hpos h.1) (not_le.mpr hlt)
      · rw [if_pos (millisecondsFrom_nonneg_iff.mpr (not_le.mp hcat)), durations_eq_replicate_iff,
          and_iff_right (dvd_zero _), or_iff_right hcat]
        rcases le_total now e.categoryEnd with h | h
        · rw [millisecondsFrom_of_le h, dvd_toU32_iff]
        · -- less than a millisecond ago
          have hzero : millisecondsFrom now e.categoryEnd = 0 := by
            rw [millisecondsFrom_of_ge h, Nat.div_eq_of_lt (by omega)]
            rfl
          rw [hzero, Nat.sub_eq_zero_of_le h, Nat.zero_div]
          exact iff_of_false (fun hd => hd (dvd_zero _)) fun hd => hd (dvd_zero _)
    · rw [if_pos (not_lt.mp fun h => hcd (millisecondsFrom_pos_iff.mp h)), durations_eq_replicate_iff]
      exact iff_of_false (fun hd => hd ⟨dvd_zero _, dvd_zero _⟩) fun hd => hcd hd.1

theorem pet_tells_iff (hhold : e.onHold = false) :
    ¬ OwnerType.pet.LooksEnded (writePetCooldown now spellId e) ↔ OwnerType.pet.Tells now e := by
  have hdrop : ∀ d : List UInt8, (toBytes 2 spellId ++ toBytes 2 e.categoryId ++ d).drop
      (OwnerType.pet.recordSize - 8) = d := fun d => List.drop_left' (by simp [OwnerType.recordSize])
  unfold OwnerType.LooksEnded writePetCooldown OwnerType.Tells
  rw [hdrop, hhold, Bool.not_false, if_pos rfl]
  dsimp only
  by_cases hcd : now + milliseconds 1 ≤ e.cooldownEnd
  · rw [if_neg (not_le.mpr (millisecondsFrom_pos_iff.mpr hcd)), and_iff_right hcd]
    by_cases hcat : now + milliseconds 1 ≤ e.categoryEnd
    · rw [if_pos (millisecondsFrom_pos_iff.mpr hcat), if_pos hcat, durations_eq_replicate_iff,
        and_iff_right (dvd_zero _), millisecondsFrom_of_le (by omega), dvd_toU32_iff]
    · rw [if_neg fun h => hcat (millisecondsFrom_pos_iff.mp h), if_neg hcat, durations_eq_replicate_iff,
        and_iff_left (dvd_zero _), millisecondsFrom_of_le (by omega), dvd_toU32_iff]
  · rw [if_pos (not_lt.mp fun h => hcd (millisecondsFrom_pos_iff.mp h)), durations_eq_replicate_iff]
    exact iff_of_false (fun hd => hd ⟨dvd_zero _, dvd_zero _⟩) fun hd => hcd hd.1

/-- A record has the size of the records just if it is not that of a pet's cooldown on hold. -/
theorem length_writeCooldown_iff (o : OwnerType) :
    (o.writeCooldown now spellId e).length = o.recordSize ↔ (o = .pet → e.onHold = false) := by
  cases o with
  | player => exact iff_of_true length_writePlayerCooldown fun h => nomatch h
  | pet =>
    show (writePetCooldown now spellId e).length = 12 ↔ _
    rw [length_writePetCooldown]
    cases e.onHold <;> simp

theorem tells_iff (o : OwnerType) (hhold : o = .pet → e.onHold = false) :
    ¬ o.LooksEnded (o.writeCooldown now spellId e) ↔ o.Tells now e := by
  cases o with
  | player => exact player_tells_iff
  | pet => exact pet_tells_iff (hhold rfl)

end Records

/-! ## Packets -/

namespace SpellHistory

/-- The reader gets every record just if the count has room for them, and each has the size of the records. -/
theorem takeFrames_writePacket_iff (o : OwnerType) (h : SpellHistory) (now : ℕ) :
    takeFrames (fun _ => o.recordSize) (ofBytes ((h.writePacket o now).take o.countWidth))
        ((h.writePacket o now).drop o.countWidth) = some (h.records o now, []) ↔
      h.spellCooldowns.entries.length < 256 ^ o.countWidth ∧
        ∀ record ∈ h.records o now, record.length = o.recordSize := by
  have hlength : (h.records o now).length = h.spellCooldowns.entries.length := List.length_map _
  unfold writePacket
  rw [List.take_left' (length_toBytes _ _), List.drop_left' (length_toBytes _ _), ofBytes_toBytes]
  constructor
  · intro htake
    obtain ⟨hcount, -, hrecords⟩ := takeFrames_eq_some htake
    rw [hlength] at hcount
    refine ⟨?_, fun record hrecord => ?_⟩
    · rw [hcount]
      exact Nat.mod_lt _ (Nat.pow_pos (by decide))
    · obtain ⟨-, hsize⟩ := hrecords record hrecord
      exact hsize
  · rintro ⟨hroom, hrecords⟩
    rw [Nat.mod_eq_of_lt hroom, ← hlength, ← List.append_nil (h.records o now).flatten]
    exact takeFrames_flatten [] fun record hrecord _ => (hrecords record hrecord).symm

/-- **A packet is readable just if the count has room for the cooldowns, no cooldown of a pet is on hold, and
no cooldown that still holds comes to 0.** -/
theorem writePacket_readable_iff (o : OwnerType) (h : SpellHistory) (now : ℕ) :
    h.Readable o now (h.writePacket o now) ↔
      h.spellCooldowns.entries.length < 256 ^ o.countWidth ∧
        (∀ itr ∈ h.spellCooldowns.entries, o = .pet → itr.2.entry.onHold = false) ∧
        ∀ itr ∈ h.spellCooldowns.entries, itr.2.entry.Holds now → o.Tells now itr.2.entry := by
  have hsizes : (∀ record ∈ h.records o now, record.length = o.recordSize) ↔
      ∀ itr ∈ h.spellCooldowns.entries, o = .pet → itr.2.entry.onHold = false := by
    unfold records
    rw [List.forall_mem_map]
    exact forall₂_congr fun itr _ => length_writeCooldown_iff o
  constructor
  · rintro ⟨hread, htold⟩
    obtain ⟨hroom, hsize⟩ := (takeFrames_writePacket_iff o h now).mp hread
    have hhold := hsizes.mp hsize
    exact ⟨hroom, hhold, fun itr hitr he => (tells_iff o (hhold itr hitr)).mp (htold itr hitr he)⟩
  · rintro ⟨hroom, hhold, htells⟩
    refine ⟨(takeFrames_writePacket_iff o h now).mpr ⟨hroom, hsizes.mpr hhold⟩, fun itr hitr he => ?_⟩
    exact (tells_iff o (hhold itr hitr)).mpr (htells itr hitr he)

/-- A pet with one spell, which is on hold. -/
def petOnHold : SpellHistory := ({} : SpellHistory).addCooldown 1 0 infinityCooldownDelay 0 0 true

/-- Its record stops after the ids. -/
theorem petOnHold_not_readable : ¬ petOnHold.Readable .pet 0 (petOnHold.writePacket .pet 0) := fun h =>
  absurd h.read (by decide +kernel)

end SpellHistory

end Sunstrider.Spells
