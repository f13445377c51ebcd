import Mathlib.Data.List.Basic

/-!
# Packed guids

`ByteBuffer.h`. A guid is packed as a byte that says which of its bytes are not zero, and those bytes.

Reading behind the end of the storage is a fault of its own, besides the exception that the checks throw.
-/

namespace Sunstrider.Network

structure ByteBuffer where
  rpos : ℕ
  wpos : ℕ
  storage : List UInt8
  deriving DecidableEq

namespace ByteBuffer

inductive Error
  /-- `ByteBufferPositionException`. -/
  | position (add : Bool) (pos size valueSize : ℕ)
  /-- `ByteBufferSourceException`. -/
  | source (pos size valueSize : ℕ)
  /-- An `ASSERT` that fails. -/
  | assertion
  /-- A byte is read behind the end of the storage. -/
  | outOfBounds
  deriving DecidableEq

variable (b : ByteBuffer)

def size : ℕ := b.storage.length

def append (src : List UInt8) : Except Error ByteBuffer :=
  if src = [] then .error (.source b.wpos b.size src.length)
  else if 10000000 ≤ b.size then .error .assertion
  else
    let storage := b.storage ++ List.replicate (b.wpos + src.length - b.size) 0
    .ok { b with
      storage := storage.take b.wpos ++ src ++ storage.drop (b.wpos + src.length)
      wpos := b.wpos + src.length }

/-- `read<uint8>`, at a position. -/
def readAt (pos : ℕ) : Except Error UInt8 :=
  if b.size < pos + 1 then .error (.position false pos 1 b.size)
  else
    match b.storage[pos]? with
    | none => .error .outOfBounds
    | some value => .ok value

/-- `read<uint8>`. -/
def read : Except Error (UInt8 × ByteBuffer) := do
  let value ← b.readAt b.rpos
  .ok (value, { b with rpos := b.rpos + 1 })

/-- The loop of `readPackGUID`. -/
def readBytes (guidmark : UInt8) : List ℕ → UInt64 → ByteBuffer → Except Error (UInt64 × ByteBuffer)
  | [], guid, b => .ok (guid, b)
  | i :: is, guid, b =>
    if guidmark &&& ((1 : UInt8) <<< UInt8.ofNat i) ≠ 0 then
      if b.size < b.rpos + 1 then .error (.position false b.rpos 1 b.size)
      else do
        let (bit, b) ← b.read
        readBytes guidmark is (guid ||| (bit.toUInt64 <<< UInt64.ofNat (i * 8))) b
    else readBytes guidmark is guid b

def readPackGUID : Except Error (UInt64 × ByteBuffer) :=
  if b.size < b.rpos + 1 then .error (.position false b.rpos 1 b.size)
  else do
    let (guidmark, b) ← b.read
    readBytes guidmark (List.range 8) 0 b

/-- The loop of `appendPackGUID`: the mask, and the bytes behind it. -/
def packGUID (i : ℕ) (guid : UInt64) (mask : UInt8) (bytes : List UInt8) : UInt8 × List UInt8 :=
  if _ : guid = 0 then (mask, bytes)
  else if guid &&& 0xFF ≠ 0 then
    packGUID (i + 1) (guid >>> 8) (mask ||| ((1 : UInt8) <<< UInt8.ofNat i)) (bytes ++ [(guid &&& 0xFF).toUInt8])
  else packGUID (i + 1) (guid >>> 8) mask bytes
termination_by guid.toNat
decreasing_by
  all_goals
    have hpos : guid.toNat ≠ 0 := fun h => ‹¬ guid = 0› (UInt64.toNat_inj.mp h)
    show guid.toNat >>> 8 < guid.toNat
    rw [Nat.shiftRight_eq_div_pow]
    exact Nat.div_lt_self (Nat.pos_of_ne_zero hpos) (by decide : 1 < 2 ^ 8)

def appendPackGUID (guid : UInt64) : Except Error ByteBuffer :=
  let packed := packGUID 0 guid 0 []
  b.append (packed.1 :: packed.2)

end ByteBuffer

end Sunstrider.Network
