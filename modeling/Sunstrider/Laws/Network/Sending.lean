import Sunstrider.Laws.Network.Buffers

/-!
# What a socket sends

`packetStream` is the stream that packets are sent as: each one's header, which the cipher encrypts in
the order of the packets, and then its contents. `Streams` says of a socket that the bytes that it has
sent and the bytes that wait in its write queue are that stream, for the packets that it has dequeued.
Every step keeps this (`sendStep_streams`). That a peer ever takes what waits is not part of it.
-/

namespace Sunstrider.Network

open Lib (Yields)
open MessageBuffer

variable {σ : Type} [ARC4 σ]

/-! ## Headers -/

theorem Cipher243.length_encrypt (c : Cipher243) (data : List UInt8) :
    (c.encrypt data).1.length = data.length := by
  induction data generalizing c with
  | nil => rfl
  | cons d data ih => simp [encrypt, ih]

theorem AuthCrypt.length_encryptSend (c : AuthCrypt σ) (data : List UInt8) :
    (c.encryptSend data).1.length = data.length := by
  unfold encryptSend
  split
  · rfl
  · split
    · rfl
    · simp only [List.length_append, Cipher243.length_encrypt, List.length_take, List.length_drop]
      omega
  · exact ARC4.length_updateData _ _

namespace WorldSocket

theorem length_headerOf (c : Option (AuthCrypt σ)) (queued : EncryptablePacket) :
    (headerOf c queued).1.length = getHeaderLength := by
  unfold headerOf
  split
  · rw [AuthCrypt.length_encryptSend]
    rfl
  · rfl

/-! ## The stream -/

/-- The bytes that packets are sent as, and the cipher after them. -/
def packetStream : Option (AuthCrypt σ) → List EncryptablePacket → List UInt8 × Option (AuthCrypt σ)
  | c, [] => ([], c)
  | c, queued :: rest =>
    let header := headerOf c queued
    let next := packetStream header.2 rest
    (header.1 ++ queued.contents ++ next.1, next.2)

theorem packetStream_append (c : Option (AuthCrypt σ)) (ps qs : List EncryptablePacket) :
    packetStream c (ps ++ qs) =
      ((packetStream c ps).1 ++ (packetStream (packetStream c ps).2 qs).1,
        (packetStream (packetStream c ps).2 qs).2) := by
  induction ps generalizing c with
  | nil => simp [packetStream]
  | cons p ps ih => simp [packetStream, ih]

variable {s t : WorldSocket σ}

section

omit [ARC4 σ]

/-- The bytes that wait in the write queue. -/
def pending (s : WorldSocket σ) : List UInt8 :=
  (s.writeQueue.map fun b => b.readBytes b.getActiveSize).flatten

theorem pending_cons {done bytes room : List UInt8} {rest : List MessageBuffer}
    (hq : s.writeQueue = window done bytes room :: rest) :
    s.pending = bytes ++ pending { s with writeQueue := rest } := by
  rw [pending, hq, List.map_cons, getActiveSize_window, readBytes_window_all, List.flatten_cons]
  rfl

/-- The positions of every buffer of the write queue are in order. -/
def WellFormedQueue (s : WorldSocket σ) : Prop :=
  ∀ b ∈ s.writeQueue, b.rpos ≤ b.wpos ∧ b.wpos ≤ b.storage.length

theorem exists_window {b : MessageBuffer} (h : b.rpos ≤ b.wpos ∧ b.wpos ≤ b.storage.length) :
    ∃ done bytes room, b = window done bytes room := by
  obtain ⟨wpos, rpos, storage⟩ := b
  obtain ⟨h1, h2⟩ := h
  simp only at h1 h2
  refine ⟨storage.take rpos, (storage.drop rpos).take (wpos - rpos), storage.drop wpos, ?_⟩
  have hdone : (storage.take rpos).length = rpos := by
    rw [List.length_take]
    omega
  have hbytes : ((storage.drop rpos).take (wpos - rpos)).length = wpos - rpos := by
    rw [List.length_take, List.length_drop]
    omega
  have hrest : storage.drop wpos = (storage.drop rpos).drop (wpos - rpos) := by
    rw [List.drop_drop]
    congr 1
    omega
  rw [window, MessageBuffer.mk.injEq, hdone, hbytes, hrest, List.append_assoc, List.take_append_drop,
    List.take_append_drop]
  exact ⟨by omega, rfl, rfl⟩

theorem window_wellFormed (done bytes room : List UInt8) :
    (window done bytes room).rpos ≤ (window done bytes room).wpos ∧
      (window done bytes room).wpos ≤ (window done bytes room).storage.length := by
  constructor
  · exact Nat.le_add_right _ _
  · rw [storage_window, List.length_append, List.length_append]
    exact Nat.le_add_right _ _

/-! ## The write queue -/

/-- `t` has sent and has to send what `s` has, and has dequeued what `s` has. -/
structure SameStream (s t : WorldSocket σ) : Prop where
  bytes : t.sent ++ t.pending = s.sent ++ s.pending
  cipher : t.authCrypt = s.authCrypt
  dequeued : t.dequeued = s.dequeued
  wellFormed : s.WellFormedQueue → t.WellFormedQueue

theorem SameStream.refl (s : WorldSocket σ) : s.SameStream s := ⟨rfl, rfl, rfl, id⟩

theorem SameStream.trans {u : WorldSocket σ} (h : s.SameStream t) (h' : t.SameStream u) :
    s.SameStream u :=
  ⟨h'.bytes.trans h.bytes, h'.cipher.trans h.cipher, h'.dequeued.trans h.dequeued,
    fun hs => h'.wellFormed (h.wellFormed hs)⟩

theorem SameStream.of_eq (hsent : t.sent = s.sent) (hqueue : t.writeQueue = s.writeQueue)
    (hc : t.authCrypt = s.authCrypt) (hd : t.dequeued = s.dequeued) : s.SameStream t where
  bytes := by rw [hsent, pending, hqueue, pending]
  cipher := hc
  dequeued := hd
  wellFormed := fun h => by
    unfold WellFormedQueue
    rw [hqueue]
    exact h

theorem popQueue_sameStream {b : MessageBuffer} {rest : List MessageBuffer}
    (hq : s.writeQueue = b :: rest) (sent : List UInt8)
    (hsent : sent = s.sent ++ b.readBytes b.getActiveSize) :
    s.SameStream (popQueue { s with sent := sent }) := by
  have hpop : ∀ t : WorldSocket σ, t.sent = sent → t.writeQueue = rest →
      t.authCrypt = s.authCrypt → t.dequeued = s.dequeued → s.SameStream t := by
    intro t h1 h2 h3 h4
    refine { bytes := ?_, cipher := h3, dequeued := h4, wellFormed := ?_ }
    · rw [h1, pending, h2, pending, hq, hsent]
      simp
    · intro hs b' hb'
      rw [h2] at hb'
      exact hs b' (by rw [hq]; exact List.mem_cons_of_mem b hb')
  unfold popQueue
  simp only [hq, List.tail_cons]
  split
  · exact hpop _ rfl rfl rfl rfl
  · exact hpop _ rfl rfl rfl rfl

/-- **`HandleQueue` moves bytes from the front of the queue to the socket**, whatever the socket
answers. -/
theorem handleQueue_sameStream (hs : s.WellFormedQueue) (answer : Answer) :
    s.SameStream (s.handleQueue answer).1 := by
  unfold handleQueue
  split
  · exact .refl s
  · next b rest hq =>
    cases answer with
    | wouldBlock => exact .of_eq rfl rfl rfl rfl
    | takes n =>
      obtain ⟨done, bytes, room, rfl⟩ := exists_window (hs b (by rw [hq]; exact List.mem_cons_self))
      simp only [getActiveSize_window]
      split
      · next hzero =>
        -- only an empty buffer is answered with no byte
        have hnil : bytes = [] := List.length_eq_zero_iff.mp (by omega)
        subst hnil
        exact popQueue_sameStream hq _ (by simp)
      · split
        next hlt =>
          -- part of the buffer was taken
          rw [readBytes_window hlt.le, readCompleted_window hlt.le]
          refine { bytes := ?_, cipher := rfl, dequeued := rfl, wellFormed := ?_ }
          · rw [pending_cons hq, asyncProcessQueue, pending_cons rfl]
            show s.sent ++ _ ++ _ = _
            rw [List.append_assoc, ← List.append_assoc (bytes.take _), List.take_append_drop]
            rfl
          · intro _ b hb
            rcases List.mem_cons.mp hb with rfl | hb
            · exact window_wellFormed _ _ _
            · exact hs b (by rw [hq]; exact List.mem_cons_of_mem _ hb)
        next hle =>
          have hall : min (n + 1) bytes.length = bytes.length := by omega
          exact popQueue_sameStream hq _ (by rw [hall, getActiveSize_window])

theorem handleQueues_sameStream (answers : List Answer) (hs : s.WellFormedQueue) :
    s.SameStream (s.handleQueues answers) := by
  induction answers generalizing s with
  | nil => exact handleQueue_sameStream hs .wouldBlock
  | cons answer answers ih =>
    have hstep := handleQueue_sameStream hs answer
    unfold handleQueues
    simp only
    split
    · exact hstep.trans (ih (hstep.wellFormed hs))
    · exact hstep

/-! ## The packets of an update -/

theorem sendBufferSize_queuePacket (s : WorldSocket σ) (b : MessageBuffer) :
    (s.queuePacket b).sendBufferSize = s.sendBufferSize := rfl

theorem pending_queuePacket (s : WorldSocket σ) (done bytes room : List UInt8) :
    (s.queuePacket (window done bytes room)).pending = s.pending ++ bytes := by
  simp [pending, queuePacket]

theorem wellFormed_queuePacket (hs : s.WellFormedQueue) (done bytes room : List UInt8) :
    (s.queuePacket (window done bytes room)).WellFormedQueue := by
  intro b hb
  rcases List.mem_append.mp hb with hb | hb
  · exact hs b hb
  · rw [List.mem_singleton.mp hb]
    exact window_wellFormed _ _ _

end

/-- What the loop over the packets has done: the bytes in the write queue and in the local buffer
have grown by the stream of the packets. -/
structure Loaded (s : WorldSocket σ) (bytes : List UInt8) (ps : List EncryptablePacket)
    (t : WorldSocket σ) (bytes' : List UInt8) : Prop where
  bytes_eq : t.pending ++ bytes' = s.pending ++ bytes ++ (packetStream s.authCrypt ps).1
  sent : t.sent = s.sent
  cipher : t.authCrypt = (packetStream s.authCrypt ps).2
  dequeued : t.dequeued = s.dequeued ++ ps
  wellFormed : t.WellFormedQueue

theorem Loaded.cons {u : WorldSocket σ} {bytes bytes' bytes'' : List UInt8} {p : EncryptablePacket}
    {ps : List EncryptablePacket} (h : Loaded t bytes' ps u bytes'') (hbytes : t.pending ++ bytes' =
      s.pending ++ bytes ++ ((headerOf s.authCrypt p).1 ++ p.contents)) (hsent : t.sent = s.sent)
    (hc : t.authCrypt = (headerOf s.authCrypt p).2) (hd : t.dequeued = s.dequeued ++ [p]) :
    Loaded s bytes (p :: ps) u bytes'' where
  bytes_eq := by
    rw [h.bytes_eq, hbytes, hc, packetStream]
    simp
  sent := h.sent.trans hsent
  cipher := by
    rw [h.cipher, hc, packetStream]
  dequeued := by
    rw [h.dequeued, hd, List.append_assoc, List.singleton_append]
  wellFormed := h.wellFormed

/-- **The loop of `Update` loads the stream of the packets.** A packet that does not fit sends the local
buffer off before it, so that the order is kept, and one that never fits has a buffer of its own. -/
theorem sendLoop_loaded (ps : List EncryptablePacket) (hs : s.WellFormedQueue)
    (bytes room : List UInt8) :
    Yields (sendLoop ps s (window [] bytes room)) fun p =>
      ∃ bytes' room', p.2 = window [] bytes' room' ∧ Loaded s bytes ps p.1 bytes' := by
  induction ps generalizing s bytes room with
  | nil => exact .ok ⟨bytes, room, rfl, by simp [packetStream], rfl, rfl, by simp, hs⟩
  | cons p ps ih =>
    have hlen := length_headerOf s.authCrypt p
    have hs' : (s.dequeue p ps).WellFormedQueue := hs
    rw [sendLoop]
    by_cases hfull : room.length < p.contents.length + getHeaderLength
    · -- the local buffer is sent off
      have hqueued := wellFormed_queuePacket hs' [] bytes room
      obtain ⟨room', -, hresize⟩ := resize_window [] (s.dequeue p ps).sendBufferSize
      simp only [if_pos hfull, moved_eq, sendBufferSize_queuePacket, hresize, getRemainingSpace_window]
      split
      next hfit =>
        rw [write_write_window (by omega)]
        refine (ih hqueued _ _).mono ?_
        rintro q ⟨bytes', room'', hq, hloaded⟩
        refine ⟨bytes', room'', hq, hloaded.cons ?_ rfl rfl rfl⟩
        rw [pending_queuePacket, List.nil_append]
        rfl
      next hnofit =>
        -- the packet goes into a buffer of its own, behind the local buffer
        rw [ofSize_eq, write_write_window (by rw [List.length_replicate]; omega)]
        refine (ih (wellFormed_queuePacket hqueued [] _ _) _ _).mono ?_
        rintro q ⟨bytes', room'', hq, hloaded⟩
        refine ⟨bytes', room'', hq, hloaded.cons ?_ rfl rfl rfl⟩
        rw [pending_queuePacket, pending_queuePacket, List.nil_append, List.append_nil]
        rfl
    · -- the packet fits into the local buffer
      simp only [if_neg hfull, getRemainingSpace_window]
      rw [if_pos (by omega), write_write_window (by omega)]
      refine (ih hs' _ _).mono ?_
      rintro q ⟨bytes', room', hq, hloaded⟩
      refine ⟨bytes', room', hq, hloaded.cons ?_ rfl rfl rfl⟩
      rw [← List.append_assoc]
      rfl

/-! ## Runs -/

/-- What was sent and what waits is `before` and the stream of the packets that were dequeued, from the
state `c` of the cipher on. -/
structure Streams (before : List UInt8) (c : Option (AuthCrypt σ)) (s : WorldSocket σ) : Prop where
  bytes : s.sent ++ s.pending = before ++ (packetStream c s.dequeued).1
  cipher : s.authCrypt = (packetStream c s.dequeued).2
  wellFormed : s.WellFormedQueue

variable {before : List UInt8} {c : Option (AuthCrypt σ)}

theorem SameStream.streams (h : s.SameStream t) (hs : s.Streams before c) : t.Streams before c where
  bytes := by rw [h.bytes, hs.bytes, h.dequeued]
  cipher := by rw [h.cipher, hs.cipher, h.dequeued]
  wellFormed := h.wellFormed hs.wellFormed

theorem update_streams (hs : s.Streams before c) (answers : List Answer) :
    Yields (s.update answers) fun t => t.Streams before c := by
  unfold update
  refine (sendLoop_loaded s.bufferQueue hs.wellFormed [] _).bind ?_
  rintro ⟨t, buffer⟩ ⟨bytes, room, rfl, hloaded⟩
  -- with the local buffer in the write queue, nothing is left outside of it
  obtain ⟨u, hu, hqueued⟩ : ∃ u : WorldSocket σ,
      (if 0 < (window [] bytes room).getActiveSize then t.queuePacket (window [] bytes room) else t) = u ∧
        u.Streams before c := by
    refine ⟨_, rfl, ?_⟩
    have hstream : s.sent ++ (t.pending ++ bytes) =
        before ++ (packetStream c (s.dequeued ++ s.bufferQueue)).1 := by
      rw [hloaded.bytes_eq, packetStream_append, ← hs.cipher, List.append_nil, ← List.append_assoc,
        hs.bytes, List.append_assoc]
    have hcipher : t.authCrypt = (packetStream c (s.dequeued ++ s.bufferQueue)).2 := by
      rw [hloaded.cipher, packetStream_append, ← hs.cipher]
    rw [getActiveSize_window]
    split
    · refine { bytes := ?_, cipher := ?_, wellFormed := wellFormed_queuePacket hloaded.wellFormed _ _ _ }
      · rw [pending_queuePacket]
        show t.sent ++ _ = before ++ (packetStream c t.dequeued).1
        rw [hloaded.sent, hloaded.dequeued, hstream]
      · show t.authCrypt = (packetStream c t.dequeued).2
        rw [hloaded.dequeued, hcipher]
    · next hzero =>
      have hnil : bytes = [] := List.length_eq_zero_iff.mp (by omega)
      subst hnil
      rw [List.append_nil] at hstream
      exact
        { bytes := by rw [hloaded.sent, hloaded.dequeued, hstream]
          cipher := by rw [hloaded.dequeued, hcipher]
          wellFormed := hloaded.wellFormed }
  simp only [hu]
  split
  · exact .ok hqueued
  · exact .ok ((handleQueues_sameStream answers hqueued.wellFormed).streams hqueued)

/-- **Every step keeps the stream.** -/
theorem sendStep_streams (s : WorldSocket σ) (op : SendOp) (hs : s.Streams before c) :
    Yields (s.sendStep op) fun t => t.Streams before c := by
  cases op with
  | sendPacket packet =>
    have hsame : s.SameStream (s.sendPacket packet) := by
      unfold sendPacket
      split
      · exact .of_eq rfl rfl rfl rfl
      · exact .refl s
    exact .ok (hsame.streams hs)
  | update answers => exact update_streams hs answers
  | writeReady answer =>
    refine .ok ?_
    unfold writeHandlerWrapper
    split
    · have hready : s.SameStream { s with isWritingAsync := false } := .of_eq rfl rfl rfl rfl
      have hstep := handleQueue_sameStream (hready.wellFormed hs.wellFormed) answer
      exact (hready.trans hstep).streams hs
    · exact hs
  | delayedClose =>
    have hsame : s.SameStream s.delayedCloseSocket := .of_eq rfl rfl rfl rfl
    exact .ok (hsame.streams hs)
  | close =>
    have hsame : s.SameStream s.closeSocket := .of_eq rfl rfl rfl rfl
    exact .ok (hsame.streams hs)

/-- **No byte is lost, repeated or out of order.** From a socket with nothing on record, every run
succeeds. The bytes that the socket took are a first part of what waited before the run and the stream
of the packets that were dequeued, the rest of it waits in the write queue, and where that is empty all
of it was sent. -/
theorem sent_isPrefix {s : WorldSocket σ} (hs : s.WellFormedQueue) (hsent : s.sent = [])
    (hdequeued : s.dequeued = []) (ops : List SendOp) :
    ∃ t, Lib.run sendStep s ops = .ok t ∧
      t.sent <+: s.pending ++ (packetStream s.authCrypt t.dequeued).1 ∧
      t.sent ++ t.pending = s.pending ++ (packetStream s.authCrypt t.dequeued).1 ∧
      (t.writeQueue = [] → t.sent = s.pending ++ (packetStream s.authCrypt t.dequeued).1) := by
  have hstart : s.Streams s.pending s.authCrypt :=
    { bytes := by simp [hsent, hdequeued, packetStream]
      cipher := by rw [hdequeued, packetStream]
      wellFormed := hs }
  obtain ⟨t, ht, hstreams⟩ := Lib.run_keeps sendStep_streams ops hstart
  refine ⟨t, ht, ⟨t.pending, hstreams.bytes⟩, hstreams.bytes, ?_⟩
  intro hempty
  have hpending : t.pending = [] := by
    rw [pending, hempty]
    rfl
  rw [← hstreams.bytes, hpending, List.append_nil]

/-- A socket with a send buffer of eight bytes. -/
def narrowSocket : WorldSocket Empty :=
  { start (some (.build243 (.init (Vector.replicate 20 7)))) with sendBufferSize := 8 }

/-- A packet that fills the buffer, one that is too long for it and one with no contents. The socket
first takes two bytes. -/
theorem sent_three_packets :
    ∃ t, Lib.run sendStep narrowSocket
        [.sendPacket ⟨0x1DD, [1, 2, 3, 4]⟩, .sendPacket ⟨0x1EC, [1, 2, 3, 4, 5, 6]⟩,
          .sendPacket ⟨0x4D, []⟩, .update [.takes 1], .writeReady (.takes 9), .update []] = .ok t ∧
      t.sent <+: (packetStream narrowSocket.authCrypt t.dequeued).1 ∧
      t.sent ++ t.pending = (packetStream narrowSocket.authCrypt t.dequeued).1 := by
  have hs : narrowSocket.WellFormedQueue := fun b hb => by cases hb
  obtain ⟨t, ht, hsent, hall, -⟩ := sent_isPrefix hs rfl rfl
    [.sendPacket ⟨0x1DD, [1, 2, 3, 4]⟩, .sendPacket ⟨0x1EC, [1, 2, 3, 4, 5, 6]⟩,
      .sendPacket ⟨0x4D, []⟩, .update [.takes 1], .writeReady (.takes 9), .update []]
  exact ⟨t, ht, hsent, hall⟩

end WorldSocket

end Sunstrider.Network
