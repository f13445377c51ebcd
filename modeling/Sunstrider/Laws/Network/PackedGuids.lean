import Mathlib.Data.Nat.Bitwise
import Mathlib.Tactic.IntervalCases
import Mathlib.Tactic.Ring
import Sunstrider.Lib.Run
import Sunstrider.Network.ByteBuffer

/-!
# Packed guids round-trip

Writing goes from the lowest byte up and drops the zeros; reading goes the same way and takes a byte for each bit
of the mask. So the bytes that are written from a position on are read from there, whatever lies around them
(`readBytes_packGUID`). Each byte is read behind a check, which throws where the storage ends.
-/

namespace Sunstrider.Network.ByteBuffer

open Lib (Yields)

variable {b : ByteBuffer}

/-! ## Bits and bytes -/

variable {i : ℕ}

theorem toNat_bit (h : i < 8) : ((1 : UInt8) <<< UInt8.ofNat i).toNat = 2 ^ i := by
  interval_cases i <;> rfl

theorem and_bit_ne_zero {mask : UInt8} (h : i < 8) :
    mask &&& ((1 : UInt8) <<< UInt8.ofNat i) ≠ 0 ↔ mask.toNat.testBit i = true := by
  rw [ne_eq, ← UInt8.toNat_inj, UInt8.toNat_and, toNat_bit h, Nat.and_two_pow]
  cases mask.toNat.testBit i <;> simp

theorem testBit_or_bit (mask : UInt8) {j : ℕ} (h : i < 8) :
    (mask ||| ((1 : UInt8) <<< UInt8.ofNat i)).toNat.testBit j = (mask.toNat.testBit j || decide (i = j)) := by
  rw [UInt8.toNat_or, Nat.testBit_or, toNat_bit h, Nat.testBit_two_pow]

variable {guid : UInt64}

theorem toNat_or_byte (bit : UInt8) (h : i < 8) (hlt : guid.toNat < 2 ^ (8 * i)) :
    (guid ||| (bit.toUInt64 <<< UInt64.ofNat (i * 8))).toNat = guid.toNat + bit.toNat * 2 ^ (8 * i) := by
  have hshift : (bit.toUInt64 <<< UInt64.ofNat (i * 8)).toNat = bit.toNat <<< (8 * i) := by
    have hamount : (UInt64.ofNat (i * 8)).toNat % 64 = 8 * i := by
      rw [UInt64.toNat_ofNat']
      omega
    have hfits : bit.toNat <<< (8 * i) < 2 ^ 64 := by
      rw [Nat.shiftLeft_eq]
      calc bit.toNat * 2 ^ (8 * i) < 2 ^ 8 * 2 ^ (8 * i) :=
            Nat.mul_lt_mul_of_pos_right bit.toNat_lt (Nat.two_pow_pos _)
        _ = 2 ^ (8 + 8 * i) := (Nat.pow_add ..).symm
        _ ≤ 2 ^ 64 := Nat.pow_le_pow_right (by decide) (by omega)
    rw [UInt64.toNat_shiftLeft, hamount, UInt8.toNat_toUInt64, Nat.mod_eq_of_lt hfits]
  rw [UInt64.toNat_or, hshift, Nat.or_comm, ← Nat.shiftLeft_add_eq_or_of_lt hlt, Nat.shiftLeft_eq, Nat.add_comm]

/-! ## What is written -/

theorem toNat_shiftRight_byte (guid : UInt64) : (guid >>> 8).toNat = guid.toNat / 256 := by
  show guid.toNat >>> 8 = _
  rw [Nat.shiftRight_eq_div_pow]

theorem shiftRight_byte_lt (h : guid ≠ 0) : (guid >>> 8).toNat < guid.toNat := by
  have hpos : guid.toNat ≠ 0 := fun hzero => h (UInt64.toNat_inj.mp hzero)
  rw [toNat_shiftRight_byte]
  omega

variable {n : ℕ}

theorem shiftRight_byte_lt_pow (h : guid.toNat < 256 ^ (n + 1)) : (guid >>> 8).toNat < 256 ^ n := by
  rw [toNat_shiftRight_byte]
  exact Nat.div_lt_of_lt_mul (by rwa [← Nat.pow_succ'])

theorem toNat_and_byte (guid : UInt64) : (guid &&& 0xFF).toNat = guid.toNat % 256 := by
  exact Nat.and_two_pow_sub_one_eq_mod guid.toNat 8

@[simp] theorem packGUID_zero (i : ℕ) (mask : UInt8) (bytes : List UInt8) :
    packGUID i 0 mask bytes = (mask, bytes) := by
  rw [packGUID, dif_pos rfl]

theorem packGUID_acc (i : ℕ) (guid : UInt64) (mask : UInt8) (bytes : List UInt8) :
    packGUID i guid mask bytes =
      (mask ||| (packGUID i guid 0 []).1, bytes ++ (packGUID i guid 0 []).2) := by
  induction hn : guid.toNat using Nat.strong_induction_on generalizing i guid mask bytes with
  | _ n ih =>
    subst hn
    by_cases h : guid = 0
    · subst h
      simp
    · have hrest := fun mask bytes => ih _ (shiftRight_byte_lt h) (i + 1) (guid >>> 8) mask bytes rfl
      rw [packGUID, dif_neg h, packGUID.eq_def i guid 0 [], dif_neg h]
      by_cases hbyte : guid &&& 0xFF ≠ 0
      · rw [if_pos hbyte, if_pos hbyte, hrest, hrest (0 ||| _) ([] ++ _)]
        simp [UInt8.or_assoc]
      · rw [if_neg hbyte, if_neg hbyte]
        exact hrest mask bytes

/-- The mask and the bytes of a guid are those of its rest, behind its lowest byte where that is not zero. -/
theorem packGUID_eq (i : ℕ) (guid : UInt64) :
    packGUID i guid 0 [] =
      if guid &&& 0xFF ≠ 0 then
        (((1 : UInt8) <<< UInt8.ofNat i) ||| (packGUID (i + 1) (guid >>> 8) 0 []).1,
          (guid &&& 0xFF).toUInt8 :: (packGUID (i + 1) (guid >>> 8) 0 []).2)
      else packGUID (i + 1) (guid >>> 8) 0 [] := by
  by_cases h : guid = 0
  · subst h
    rw [if_neg (by decide), packGUID_zero]
    exact (packGUID_zero (i + 1) 0 []).symm
  · rw [packGUID, dif_neg h]
    split
    · rw [packGUID_acc]
      simp
    · rfl

/-- The mask has no bit below the position from which it is written, and as many bits as there are bytes. -/
theorem packGUID_mask (hn : i + n = 8) (hguid : guid.toNat < 256 ^ n) :
    (∀ j < i, (packGUID i guid 0 []).1.toNat.testBit j = false) ∧ (packGUID i guid 0 []).2.length ≤ n := by
  induction n generalizing i guid with
  | zero =>
    obtain rfl : guid = 0 := UInt64.toNat_inj.mp (Nat.lt_one_iff.mp hguid)
    simp
  | succ n ih =>
    have hrest := shiftRight_byte_lt_pow hguid
    obtain ⟨hlow, hlength⟩ := ih (i := i + 1) (by omega) hrest
    rw [packGUID_eq]
    split
    · refine ⟨fun j hj => ?_, Nat.succ_le_succ hlength⟩
      rw [UInt8.or_comm, testBit_or_bit _ (by omega), hlow j (by omega)]
      simp
      omega
    · exact ⟨fun j hj => hlow j (by omega), by omega⟩

/-! ## What is read -/

variable {rest : List UInt8}

theorem read_eq {value : UInt8} (h : b.storage.drop b.rpos = value :: rest) :
    b.rpos < b.size ∧ b.read = .ok (value, { b with rpos := b.rpos + 1 }) ∧
      b.storage.drop (b.rpos + 1) = rest := by
  have hlt : b.rpos < b.storage.length := by
    by_contra hge
    rw [List.drop_eq_nil_of_le (not_lt.mp hge)] at h
    exact nomatch h
  have hdrop := List.drop_eq_getElem_cons hlt
  rw [h] at hdrop
  obtain ⟨hvalue, hrest⟩ := List.cons.inj hdrop
  refine ⟨hlt, ?_, hrest.symm⟩
  rw [read, readAt, if_neg (show ¬b.size < b.rpos + 1 from not_lt.mpr hlt), List.getElem?_eq_getElem hlt,
    ← hvalue]
  rfl

/-- **The bytes that are written from a position on are read from there**, with any mask that has their bits. -/
theorem readBytes_packGUID (hn : i + n = 8) {acc : UInt64} (hguid : guid.toNat < 256 ^ n)
    (hacc : acc.toNat < 2 ^ (8 * i)) {mask : UInt8} (hmask : ∀ j, i ≤ j → j < 8 →
      mask.toNat.testBit j = (packGUID i guid 0 []).1.toNat.testBit j)
    (hstorage : b.storage.drop b.rpos = (packGUID i guid 0 []).2 ++ rest) :
    Yields (readBytes mask (List.range' i n) acc b) fun r =>
      r.1.toNat = acc.toNat + guid.toNat * 2 ^ (8 * i) ∧
        r.2 = { b with rpos := b.rpos + (packGUID i guid 0 []).2.length } := by
  induction n generalizing i guid acc b with
  | zero =>
    obtain rfl : guid = 0 := UInt64.toNat_inj.mp (Nat.lt_one_iff.mp hguid)
    exact .ok ⟨by simp, by simp⟩
  | succ n ih =>
    have hrest := shiftRight_byte_lt_pow hguid
    have hlow := (packGUID_mask (i := i + 1) (by omega) hrest).1 i (Nat.lt_succ_self i)
    have hsplit : guid.toNat = guid.toNat % 256 + 256 * (guid >>> 8).toNat := by
      rw [toNat_shiftRight_byte]
      omega
    have hpow : 2 ^ (8 * (i + 1)) = 2 ^ (8 * i) * 256 := Nat.pow_add 2 (8 * i) 8
    have hbit : UInt8.toNat (guid &&& 0xFF).toUInt8 = guid.toNat % 256 := by
      rw [UInt64.toNat_toUInt8, toNat_and_byte, Nat.mod_mod]
    rw [packGUID_eq] at hmask hstorage ⊢
    rw [List.range'_succ, readBytes]
    by_cases hbyte : guid &&& 0xFF ≠ 0
    · rw [if_pos hbyte] at hmask hstorage ⊢
      have hset : mask.toNat.testBit i = true := by
        rw [hmask i le_rfl (by omega), UInt8.or_comm, testBit_or_bit _ (by omega)]
        simp
      obtain ⟨hlt, hread, hnext⟩ := read_eq hstorage
      rw [if_pos ((and_bit_ne_zero (by omega)).mpr hset), if_neg (not_lt.mpr hlt), hread]
      have hput := toNat_or_byte (guid &&& 0xFF).toUInt8 (by omega : i < 8) hacc
      rw [hbit] at hput
      have hbound : guid.toNat % 256 * 2 ^ (8 * i) ≤ 255 * 2 ^ (8 * i) := Nat.mul_le_mul_right _ (by omega)
      refine (ih (by omega) hrest (by rw [hput, hpow]; omega) (fun j hj hj' => ?_) hnext).mono fun r hr => ?_
      · rw [hmask j (by omega) hj', UInt8.or_comm, testBit_or_bit _ (by omega)]
        simp
        omega
      · refine ⟨?_, by rw [hr.2]; simp [Nat.add_assoc, Nat.add_comm 1]⟩
        rw [hr.1, hput, hpow]
        conv => rhs; rw [hsplit]
        ring
    · -- A zero byte has no bit, and is skipped.
      rw [if_neg hbyte] at hmask hstorage ⊢
      have hclear : mask.toNat.testBit i = false := by rw [hmask i le_rfl (by omega), hlow]
      have hzero : guid.toNat % 256 = 0 := by
        rw [← toNat_and_byte, not_not.mp hbyte]
        rfl
      rw [if_neg fun hset => by rw [(and_bit_ne_zero (by omega)).mp hset] at hclear; cases hclear]
      refine (ih (by omega) hrest (by rw [hpow]; omega) (fun j hj hj' => hmask j (by omega) hj') hstorage).mono
        fun r hr => ⟨?_, hr.2⟩
      rw [hr.1, hpow]
      conv => rhs; rw [hsplit, hzero]
      ring

/-! ## The round trip -/

theorem append_spec {src : List UInt8} (hsrc : src ≠ []) (hsize : b.size < 10000000) :
    Yields (b.append src) fun b' => b'.wpos = b.wpos + src.length ∧
      (b'.storage.drop b.wpos).take src.length = src := by
  rw [append, if_neg hsrc, if_neg (not_le.mpr hsize)]
  refine .ok ⟨rfl, ?_⟩
  have hroom : b.wpos ≤ (b.storage ++ List.replicate (b.wpos + src.length - b.size) (0 : UInt8)).length := by
    rw [List.length_append, List.length_replicate, size]
    omega
  rw [List.append_assoc, List.drop_left' (by rw [List.length_take]; omega), List.take_left]

/-- What was written for a guid is read as the guid, wherever it stands. -/
theorem readPackGUID_packed
    (h : b.storage.drop b.rpos = (packGUID 0 guid 0 []).1 :: (packGUID 0 guid 0 []).2 ++ rest) :
    b.readPackGUID = .ok (guid, { b with rpos := b.rpos + ((packGUID 0 guid 0 []).2.length + 1) }) := by
  obtain ⟨hlt, hread, hnext⟩ := read_eq h
  have hzero : (0 : UInt64).toNat < 2 ^ (8 * 0) := Nat.zero_lt_one
  have hmask : ∀ j, 0 ≤ j → j < 8 →
      (packGUID 0 guid 0 []).1.toNat.testBit j = (packGUID 0 guid 0 []).1.toNat.testBit j := fun _ _ _ => rfl
  obtain ⟨r, hbytes, hvalue, hend⟩ := readBytes_packGUID (b := { b with rpos := b.rpos + 1 }) (n := 8) rfl
    guid.toNat_lt hzero hmask hnext
  have hguid : r.1 = guid := UInt64.toNat_inj.mp (by rw [hvalue]; simp)
  rw [readPackGUID, if_neg (not_lt.mpr hlt), hread, List.range_eq_range']
  show readBytes _ _ _ _ = _
  rw [hbytes, ← Prod.eta r, hguid, hend]
  simp only [Nat.add_assoc, Nat.add_comm 1]

/-! ## Any bytes -/

/-- The number of bits that are set. -/
def popcount (mask : UInt8) : ℕ := (List.range 8).countP (mask.toNat.testBit ·)

/-- The loop takes a byte for each bit, or throws at the end of the storage. -/
theorem readBytes_spec (mask : UInt8) {is : List ℕ} (his : ∀ i ∈ is, i < 8) (acc : UInt64)
    (hpos : b.rpos ≤ b.size) :
    (∃ guid, readBytes mask is acc b =
        .ok (guid, { b with rpos := b.rpos + is.countP (mask.toNat.testBit ·) }) ∧
      b.rpos + is.countP (mask.toNat.testBit ·) ≤ b.size) ∨
    (readBytes mask is acc b = .error (.position false b.size 1 b.size) ∧
      b.size < b.rpos + is.countP (mask.toNat.testBit ·)) := by
  induction is generalizing b acc with
  | nil => exact .inl ⟨acc, rfl, hpos⟩
  | cons i is ih =>
    have hi := his i (List.mem_cons_self ..)
    have hrest := fun i' hi' => his i' (List.mem_cons_of_mem i hi')
    rw [readBytes]
    by_cases hset : mask.toNat.testBit i = true
    · rw [if_pos ((and_bit_ne_zero hi).mpr hset), List.countP_cons_of_pos hset]
      by_cases hend : b.size < b.rpos + 1
      · rw [if_pos hend, show b.rpos = b.size by omega]
        exact .inr ⟨rfl, by omega⟩
      · obtain ⟨-, hread, -⟩ := read_eq (List.drop_eq_getElem_cons (Nat.lt_of_succ_le (not_lt.mp hend)))
        rw [if_neg hend, hread]
        have hstep := fun acc => ih (b := { b with rpos := b.rpos + 1 }) hrest acc (not_lt.mp hend)
        have hcount : b.rpos + (is.countP (mask.toNat.testBit ·) + 1) =
            b.rpos + 1 + is.countP (mask.toNat.testBit ·) := by omega
        rw [hcount]
        exact hstep _
    · rw [if_neg fun hbit => hset ((and_bit_ne_zero hi).mp hbit), List.countP_cons_of_neg hset]
      exact ih hrest acc hpos

/-- **Reading any bytes** takes the mask and a byte for each of its bits, or throws where the storage ends. -/
theorem readPackGUID_spec (b : ByteBuffer) :
    (∃ guid mask, b.readPackGUID = .ok (guid, { b with rpos := b.rpos + (1 + popcount mask) }) ∧
      b.storage[b.rpos]? = some mask ∧ b.rpos + (1 + popcount mask) ≤ b.size) ∨
    (b.readPackGUID = .error (.position false (max b.rpos b.size) 1 b.size) ∧
      ∀ mask ∈ b.storage[b.rpos]?, b.size < b.rpos + (1 + popcount mask)) := by
  rw [readPackGUID]
  by_cases hend : b.size < b.rpos + 1
  · rw [if_pos hend, Nat.max_eq_left (by omega)]
    exact .inr ⟨rfl, fun mask _ => by omega⟩
  · have hlt : b.rpos < b.storage.length := Nat.lt_of_succ_le (not_lt.mp hend)
    obtain ⟨-, hread, -⟩ := read_eq (List.drop_eq_getElem_cons hlt)
    rw [if_neg hend, hread]
    rcases readBytes_spec (b := { b with rpos := b.rpos + 1 }) b.storage[b.rpos] (fun i hi => List.mem_range.mp hi) 0
      hlt with ⟨guid, hguid, hle⟩ | ⟨hthrows, hshort⟩
    · rw [Nat.add_assoc] at hguid hle
      exact .inl ⟨guid, b.storage[b.rpos], hguid, List.getElem?_eq_getElem hlt, hle⟩
    · rw [Nat.max_eq_right (show b.rpos ≤ b.size from hlt.le)]
      refine .inr ⟨hthrows, fun mask hmask => ?_⟩
      obtain rfl : b.storage[b.rpos] = mask :=
        Option.some.inj ((List.getElem?_eq_getElem hlt).symm.trans (Option.mem_def.mp hmask))
      rw [← Nat.add_assoc]
      exact hshort

/-- **Packed guids round-trip**: what is written for a guid, in 1 to 9 bytes, is read as the guid with any bytes
behind it, which are left; and any bytes are read as a guid by their mask, or throw at their end where they are
fewer. -/
theorem packed_guids_round_trip :
    (∀ (b : ByteBuffer) (guid : UInt64), b.size < 10000000 → Yields (b.appendPackGUID guid) fun b' =>
      ∃ n, 1 ≤ n ∧ n ≤ 9 ∧ b'.wpos = b.wpos + n ∧ ∀ (c : ByteBuffer) (rest : List UInt8),
        c.storage.drop c.rpos = (b'.storage.drop b.wpos).take n ++ rest →
          c.readPackGUID = .ok (guid, { c with rpos := c.rpos + n }) ∧ c.storage.drop (c.rpos + n) = rest) ∧
    ∀ b : ByteBuffer,
      (∃ guid mask, b.readPackGUID = .ok (guid, { b with rpos := b.rpos + (1 + popcount mask) }) ∧
        b.storage[b.rpos]? = some mask ∧ b.rpos + (1 + popcount mask) ≤ b.size) ∨
      (b.readPackGUID = .error (.position false (max b.rpos b.size) 1 b.size) ∧
        ∀ mask ∈ b.storage[b.rpos]?, b.size < b.rpos + (1 + popcount mask)) := by
  refine ⟨fun b guid hsize => ?_, readPackGUID_spec⟩
  have hlength := (packGUID_mask (i := 0) (n := 8) rfl guid.toNat_lt).2
  refine (append_spec (List.cons_ne_nil _ _) hsize).mono fun b' ⟨hwpos, hwritten⟩ => ?_
  refine ⟨((packGUID 0 guid 0 []).1 :: (packGUID 0 guid 0 []).2).length, Nat.succ_le_succ (Nat.zero_le _),
    Nat.succ_le_succ hlength, hwpos, fun c rest hc => ?_⟩
  rw [hwritten] at hc
  refine ⟨readPackGUID_packed hc, ?_⟩
  rw [← List.drop_drop, hc]
  exact List.drop_left

/-- A guid of one byte in a new buffer. -/
theorem packed_guids_round_trip_one :
    Yields ((⟨0, 0, []⟩ : ByteBuffer).appendPackGUID 0x0700) fun b' =>
      ∃ n, 1 ≤ n ∧ n ≤ 9 ∧ b'.wpos = 0 + n ∧ ∀ (c : ByteBuffer) (rest : List UInt8),
        c.storage.drop c.rpos = (b'.storage.drop 0).take n ++ rest →
          c.readPackGUID = .ok (0x0700, { c with rpos := c.rpos + n }) ∧ c.storage.drop (c.rpos + n) = rest :=
  packed_guids_round_trip.1 ⟨0, 0, []⟩ 0x0700 (by decide)

end Sunstrider.Network.ByteBuffer
