import Mathlib.Order.Lattice
import Sunstrider.Network.WorldSocket

/-!
# Message buffers as windows

Every buffer of a socket is a window: bytes that were read, bytes that wait to be read, and room. The
lemmas say what each operation does to a window, and no other module opens an operation of a buffer.
-/

namespace Sunstrider.Network

namespace MessageBuffer

/-- A buffer that has read `done`, holds `bytes`, and has room over `room`. -/
def window (done bytes room : List UInt8) : MessageBuffer :=
  ⟨done.length + bytes.length, done.length, done ++ bytes ++ room⟩

variable {done bytes room : List UInt8}

theorem ofSize_eq (n : ℕ) : ofSize n = window [] [] (List.replicate n 0) := rfl

theorem moved_eq : moved = window [] [] [] := rfl

@[simp] theorem getActiveSize_window : (window done bytes room).getActiveSize = bytes.length := by
  simp [getActiveSize, window]

@[simp] theorem getRemainingSpace_window :
    (window done bytes room).getRemainingSpace = room.length := by
  simp only [getRemainingSpace, window, List.length_append]
  omega

@[simp] theorem storage_window : (window done bytes room).storage = done ++ bytes ++ room := rfl

theorem readBytes_window {n : ℕ} (h : n ≤ bytes.length) :
    (window done bytes room).readBytes n = bytes.take n := by
  simp [readBytes, window, List.append_assoc, List.take_append_of_le_length h]

@[simp] theorem readBytes_window_all :
    (window done bytes room).readBytes bytes.length = bytes := by
  rw [readBytes_window le_rfl, List.take_length]

/-- What is read moves to the bytes that were read. -/
theorem readCompleted_window {n : ℕ} (h : n ≤ bytes.length) :
    (window done bytes room).readCompleted n =
      window (done ++ bytes.take n) (bytes.drop n) room := by
  have hn : min n bytes.length = n := min_eq_left h
  simp only [readCompleted, window, List.length_append, List.length_take, List.length_drop, hn,
    MessageBuffer.mk.injEq, List.append_assoc, true_and]
  constructor
  · omega
  · rw [← List.append_assoc (bytes.take n), List.take_append_drop]

/-- A write that fits takes its bytes from the room. -/
theorem write_window {data : List UInt8} (h : data.length ≤ room.length) :
    (window done bytes room).write data =
      .ok (window done (bytes ++ data) (room.drop data.length)) := by
  unfold write
  split
  · next hnil => simp [hnil]
  · have hfit : (window done bytes room).wpos + data.length ≤ (window done bytes room).storage.length := by
      simp only [window, List.length_append]
      omega
    have hlen : done.length + bytes.length = (done ++ bytes).length := by simp
    rw [if_pos hfit]
    simp only [writeCompleted, window, List.length_append, Except.ok.injEq, MessageBuffer.mk.injEq,
      true_and]
    constructor
    · omega
    · rw [hlen, List.take_left, List.drop_append, List.append_assoc done]
      simp

theorem write_write_window {α : Type} {first second : List UInt8} {k : MessageBuffer → Except Fault α}
    (h : first.length + second.length ≤ room.length) :
    ((window done bytes room).write first >>= fun b => b.write second >>= k) =
      k (window done (bytes ++ (first ++ second)) (room.drop (first.length + second.length))) := by
  have hsecond : second.length ≤ (room.drop first.length).length := by
    rw [List.length_drop]
    omega
  rw [write_window (by omega)]
  show (window done (bytes ++ first) (room.drop first.length)).write second >>= k = _
  rw [write_window hsecond, List.append_assoc, List.drop_drop]
  rfl

/-- The bytes of a header are converted where they are. -/
theorem overwrite_window {data : List UInt8} (h : data.length = bytes.length) :
    (window done bytes room).overwrite data = window done data room := by
  have hdrop : (done ++ (bytes ++ room)).drop (done.length + data.length) = room := by
    rw [h, ← List.append_assoc, ← List.length_append, List.drop_left]
  simp only [overwrite, window, List.append_assoc, List.take_left, hdrop]
  rw [h]

/-- The bytes that were read become room behind the others. -/
theorem normalize_window :
    (window done bytes room).normalize =
      window [] bytes ((done ++ bytes ++ room).drop bytes.length) := by
  unfold normalize
  split
  · next h =>
    have hnil : done = [] := List.length_eq_zero_iff.mp h
    subst hnil
    simp
  · rw [getActiveSize_window, readBytes_window_all]
    simp [window]

theorem ensureFreeSpace_window (h : room ≠ []) :
    (window done bytes room).ensureFreeSpace = window done bytes room := by
  have hpos : (window done bytes room).getRemainingSpace ≠ 0 := by
    simpa using h
  rw [ensureFreeSpace, if_neg hpos]

theorem reset_window :
    (window done bytes room).reset = window [] [] (done ++ bytes ++ room) := by
  simp [reset, window]

/-- A buffer without bytes is given its new size, all of it room. -/
theorem resize_window (room : List UInt8) (n : ℕ) : ∃ room', room'.length = n ∧
    (window [] [] room).resize n = window [] [] room' := by
  refine ⟨room.take n ++ List.replicate (n - room.length) 0, ?_, ?_⟩
  · simp only [List.length_append, List.length_take, List.length_replicate]
    omega
  · simp [resize, window]

end MessageBuffer

namespace WorldSocket

open MessageBuffer

/-- All that waits fits into the other buffer. -/
theorem transfer_window_all {done bytes room done' bytes' room' : List UInt8}
    (h : bytes.length ≤ room'.length) :
    transfer (window done bytes room) (window done' bytes' room') =
      .ok (window (done ++ bytes) [] room,
        window done' (bytes' ++ bytes) (room'.drop bytes.length)) := by
  simp only [transfer, getActiveSize_window, getRemainingSpace_window, min_eq_left h,
    readBytes_window_all, write_window h, readCompleted_window le_rfl, List.take_length,
    List.drop_length]
  rfl

/-- The other buffer is filled, and the rest waits on. -/
theorem transfer_window_full {done bytes room done' bytes' room' : List UInt8}
    (h : room'.length ≤ bytes.length) :
    transfer (window done bytes room) (window done' bytes' room') =
      .ok (window (done ++ bytes.take room'.length) (bytes.drop room'.length) room,
        window done' (bytes' ++ bytes.take room'.length) []) := by
  have hlen : (bytes.take room'.length).length = room'.length := by
    simp [h]
  simp only [transfer, getActiveSize_window, getRemainingSpace_window, min_eq_right h,
    readBytes_window h, write_window hlen.le, readCompleted_window h, hlen, List.drop_length]
  rfl

end WorldSocket

end Sunstrider.Network
