import Sunstrider.Laws.Network.Framing
import Sunstrider.Laws.Network.Sending

/-!
# From end to end

A client of build 243 has the `peer` of the session's cipher. What it sends is received as it was sent,
however the bytes come in (`server_receives_sent`). What it reads are the packets that were handed to
`SendPacket`, whatever the socket does to send them (`client_reads_sent`). Neither end reads a packet that
the other has not sent.
-/

namespace Sunstrider.Network

open Lib (Format Framer Answers Yields)

namespace Cipher243

/-- The cipher at the other end of the line. -/
def peer (c : Cipher243) : Cipher243 := ⟨c.key, c.recvI, c.recvJ, c.sendI, c.sendJ⟩

/-- What one end encrypts the other decrypts, and they stay in step. -/
theorem peer_decrypt (c : Cipher243) (data : List UInt8) :
    c.peer.decrypt (c.encrypt data).1 = (data, (c.encrypt data).2.peer) := by
  induction data generalizing c with
  | nil => rfl
  | cons d data ih =>
    let x := (d ^^^ c.key.getD (c.sendI % 20) 0) + c.sendJ
    have hbyte : (x - c.sendJ) ^^^ c.key.getD (c.sendI % 20) 0 = d := by
      rw [UInt8.add_sub_cancel, UInt8.xor_assoc, UInt8.xor_self, UInt8.xor_zero]
    have hrest := ih { c with sendI := c.sendI % 20 + 1, sendJ := x }
    exact congrArg₂ (fun y (r : List UInt8 × Cipher243) => (y :: r.1, r.2)) hbyte hrest

end Cipher243

namespace WorldSocket

variable {σ : Type} [ARC4 σ]

/-! ## From the client -/

variable {ps : List WorldPacket}

section Client

open ClientPktHeader

/-- The header of a packet of the client, with the high byte of the size first. -/
def clientPktHeader (p : WorldPacket) : List UInt8 :=
  let size := p.contents.length + 4
  [.ofNat (size / 2 ^ 8), .ofNat size, .ofNat p.opcode, .ofNat (p.opcode / 2 ^ 8),
    .ofNat (p.opcode / 2 ^ 16), .ofNat (p.opcode / 2 ^ 24)]

/-- What a client with this cipher sends. -/
def clientStream : Cipher243 → List WorldPacket → List UInt8
  | _, [] => []
  | c, p :: ps =>
    let header := c.encrypt (clientPktHeader p)
    header.1 ++ p.contents ++ clientStream header.2 ps

/-- `IsValidSize` and `IsValidOpcode` hold of the header of the packet. -/
def ValidPacket (p : WorldPacket) : Prop := p.contents.length + 4 < 10240 ∧ p.opcode < numOpcodeHandlers

theorem clientStream_encodes (c : Cipher243) (hps : ∀ p ∈ ps, ValidPacket p) :
    ∃ raws frames c', Framer.Encodes (clientFormat σ) (some (.build243 c)) raws frames
      (clientStream c.peer ps) c' ∧ frames.map packetOf = ps := by
  induction ps generalizing c with
  | nil => exact ⟨[], [], _, .nil _, rfl⟩
  | cons p ps ih =>
    obtain ⟨hlength, hopcode⟩ := hps p List.mem_cons_self
    let x := c.peer.encrypt (clientPktHeader p)
    let header := endianConvertReverse (clientPktHeader p)
    have hdecrypt : c.decrypt x.1 = (clientPktHeader p, x.2.peer) := c.peer.peer_decrypt _
    have hlen : x.1.length = byteSize := c.peer.length_encrypt _
    have hunlock : (clientFormat σ).unlock (some (.build243 c)) x.1 =
        (header, some (.build243 x.2.peer)) := by
      have hsix : x.1.length = 6 := hlen
      simp [clientFormat, decryptHeader, AuthCrypt.decryptRecv, hsix, cryptedSendLen, cryptedRecvLen,
        hdecrypt, header, List.take_of_length_le, List.drop_of_length_le]
    have hsize : ClientPktHeader.size header = p.contents.length + 4 := by
      simp only [header, clientPktHeader, endianConvertReverse, ClientPktHeader.size,
        List.getD_cons_zero, List.getD_cons_succ, UInt8.toNat_ofNat']
      omega
    have hcmd : cmd header = p.opcode := by
      unfold numOpcodeHandlers at hopcode
      simp only [header, clientPktHeader, endianConvertReverse, cmd, List.getD_cons_zero,
        List.getD_cons_succ, UInt8.toNat_ofNat']
      omega
    have hvalid : IsValidSize header ∧ IsValidOpcode header := by
      unfold IsValidSize IsValidOpcode
      rw [hsize, hcmd]
      exact ⟨⟨Nat.le_add_left _ _, hlength⟩, hopcode⟩
    obtain ⟨raws, frames, c', henc, hframes⟩ := ih x.2.peer fun q hq => hps q (List.mem_cons_of_mem p hq)
    refine ⟨x.1 :: raws, (header, p.contents) :: frames, c', .cons hlen hunlock ?_ henc, ?_⟩
    · exact (if_pos hvalid).trans (by rw [hsize, Nat.add_sub_cancel])
    · rw [List.map_cons, hframes, packetOf, hcmd]

/-- **What a client sends is received**, where the handlers of its packets answer `Ok`. Whatever has come
in of its stream, in reads of any sizes, the session is open and the packets that it got are the first of
those that were sent. All of them are there when nothing is missing. -/
theorem server_receives_sent (c : Cipher243) {ps : List WorldPacket} (hps : ∀ p ∈ ps, ValidPacket p)
    (chunks : List (List UInt8)) (hchunks : ∀ d ∈ chunks, d.length ≤ readBlockSize) (rest : List UInt8)
    (hcut : chunks.flatten ++ rest = clientStream c.peer ps) :
    ∃ t : WorldSocket σ, Lib.run readHandlerInternal (start (some (.build243 c))) chunks = .ok t ∧
      t.isOpen = true ∧ t.received <+: ps ∧ (rest = [] → t.received = ps) := by
  let c₀ : Option (AuthCrypt σ) := some (.build243 c)
  obtain ⟨t, ht, hread⟩ := receive_between (by decide) (start_atFrame c₀).between chunks hchunks
  obtain ⟨raws, frames, c', henc, rfl⟩ := clientStream_encodes (σ := σ) c hps
  rw [← hcut] at henc
  obtain ⟨hgood, hfirst, hall⟩ := Framer.read_cut henc
  refine ⟨t, ht, ?_, ?_, fun hrest => ?_⟩
  · by_contra hclosed
    obtain ⟨d, hd⟩ := hread.malformed_of_not_isOpen (Bool.eq_false_iff.mpr hclosed)
    exact hgood d hd
  · rw [hread.received]
    exact hfirst.map packetOf
  · rw [hread.received]
    exact congrArg (List.map packetOf) (hall hrest)

/-- Two pings, in three reads. -/
theorem server_receives_pings :
    ∃ t : WorldSocket Empty, Lib.run readHandlerInternal
        (start (some (.build243 (.init (Vector.replicate 20 0)))))
        [[0], [8, 0xE4, 0xE5, 0xE5, 0xE5, 1, 2], [3, 4, 0xE5, 0xED, 0xC9, 0xCA, 0xCA, 0xCA, 5, 6, 7, 8]] =
          .ok t ∧
      t.isOpen = true ∧ t.received = [⟨0x1DC, [1, 2, 3, 4]⟩, ⟨0x1DC, [5, 6, 7, 8]⟩] := by
  have hvalid : ∀ p ∈ ([⟨0x1DC, [1, 2, 3, 4]⟩, ⟨0x1DC, [5, 6, 7, 8]⟩] : List WorldPacket), ValidPacket p := by
    simp [ValidPacket, numOpcodeHandlers]
  obtain ⟨t, ht, hopen, -, hall⟩ := server_receives_sent (σ := Empty) (.init (Vector.replicate 20 0)) hvalid
    [[0], [8, 0xE4, 0xE5, 0xE5, 0xE5, 1, 2], [3, 4, 0xE5, 0xED, 0xC9, 0xCA, 0xCA, 0xCA, 5, 6, 7, 8]]
    (by decide) [] (by decide)
  exact ⟨t, ht, hopen, hall rfl⟩

end Client

/-! ## To the client -/

/-- How a client reads: the size of a packet counts the two bytes of its opcode. -/
def serverFormat : Format Cipher243 (List UInt8) UInt8 where
  headerSize := getHeaderLength
  headerSize_pos := by decide
  unlock := Cipher243.decrypt
  payloadSize d := some (2 ^ 8 * (d.getD 0 0).toNat + (d.getD 1 0).toNat - 2)

/-- The packet that a frame is. -/
def serverPacket (frame : List UInt8 × List UInt8) : WorldPacket :=
  ⟨(frame.1.getD 2 0).toNat + 2 ^ 8 * (frame.1.getD 3 0).toNat, frame.2⟩

/-- `ServerPktHeader` has room for the size and the opcode. -/
def HeaderFits (p : WorldPacket) : Prop := p.contents.length + 2 < 2 ^ 16 ∧ p.opcode < 2 ^ 16

/-- The stream of packets is one that the client can read. -/
theorem packetStream_encodes (c : Cipher243) {ps : List EncryptablePacket}
    (hps : ∀ p ∈ ps, p.encrypt = true ∧ HeaderFits p.toWorldPacket) :
    ∃ raws frames c', Framer.Encodes serverFormat c.peer raws frames
        (packetStream (σ := σ) (some (.build243 c)) ps).1 c'.peer ∧
      frames.map serverPacket = ps.map EncryptablePacket.toWorldPacket ∧
      (packetStream (σ := σ) (some (.build243 c)) ps).2 = some (.build243 c') := by
  induction ps generalizing c with
  | nil => exact ⟨[], [], c, .nil _, rfl, rfl⟩
  | cons p ps ih =>
    obtain ⟨hencrypt, hsize, hopcode⟩ := hps p List.mem_cons_self
    let header := serverPktHeader (p.contents.length + 2) p.opcode
    have hheader : headerOf (σ := σ) (some (.build243 c)) p =
        ((c.encrypt header).1, some (.build243 (c.encrypt header).2)) := by
      unfold headerOf
      rw [hencrypt]
      simp [AuthCrypt.encryptSend, header, serverPktHeader, cryptedSendLen]
    obtain ⟨raws, frames, c', henc, hframes, hcipher⟩ :=
      ih (c.encrypt header).2 fun q hq => hps q (List.mem_cons_of_mem p hq)
    rw [packetStream, hheader]
    refine ⟨_, (header, p.contents) :: frames, c',
      .cons (c.length_encrypt header) (c.peer_decrypt header) ?_ henc, ?_, hcipher⟩
    · simp only [serverFormat, header, serverPktHeader, List.getD_cons_zero, List.getD_cons_succ,
        UInt8.toNat_ofNat']
      congr 1
      omega
    · have hpacket : serverPacket (header, p.contents) = ⟨p.opcode, p.contents⟩ := by
        simp only [serverPacket, header, serverPktHeader, List.getD_cons_zero, List.getD_cons_succ,
          UInt8.toNat_ofNat']
        congr 1
        omega
      rw [List.map_cons, List.map_cons, hframes, hpacket]

variable {s : WorldSocket σ}

section Holds

omit [ARC4 σ]

/-- The packets that the socket has taken on. -/
def accepted (s : WorldSocket σ) : List EncryptablePacket := s.dequeued ++ s.bufferQueue

/-- No packet is taken on or dropped, and a closed socket stays closed. -/
structure Holds (s t : WorldSocket σ) : Prop where
  accepted : t.accepted = s.accepted
  isOpen : t.isOpen = true → s.isOpen = true

theorem Holds.refl (s : WorldSocket σ) : Holds s s := ⟨rfl, id⟩

theorem Holds.trans {t u : WorldSocket σ} (h : Holds s t) (h' : Holds t u) : Holds s u :=
  ⟨h'.accepted.trans h.accepted, fun hu => h.isOpen (h'.isOpen hu)⟩

theorem popQueue_holds (s : WorldSocket σ) (sent : List UInt8) :
    Holds s (popQueue { s with sent := sent }) := by
  unfold popQueue
  dsimp only
  split
  · exact ⟨rfl, nofun⟩
  · exact ⟨rfl, id⟩

theorem handleQueue_holds (s : WorldSocket σ) (answer : Answer) : Holds s (s.handleQueue answer).1 := by
  unfold handleQueue
  split
  · exact .refl s
  · cases answer with
    | wouldBlock => exact ⟨rfl, id⟩
    | takes n =>
      dsimp only
      split_ifs
      · exact popQueue_holds s _
      · exact ⟨rfl, id⟩
      · exact popQueue_holds s _

theorem handleQueues_holds (s : WorldSocket σ) (answers : List Answer) :
    Holds s (s.handleQueues answers) := by
  induction answers generalizing s with
  | nil => exact handleQueue_holds s .wouldBlock
  | cons answer answers ih =>
    unfold handleQueues
    dsimp only
    split
    · exact (handleQueue_holds s answer).trans (ih _)
    · exact handleQueue_holds s answer

end Holds

theorem sendLoop_holds (ps : List EncryptablePacket) (hs : s.bufferQueue = ps)
    (buffer : MessageBuffer) : Answers (sendLoop ps s buffer) fun r => Holds s r.1 := by
  induction ps generalizing s buffer with
  | nil => exact .ok (.refl s)
  | cons p ps ih =>
    have hrest (queue : List MessageBuffer) (b : MessageBuffer) :
        Answers (sendLoop ps { s.dequeue p ps with writeQueue := queue } b) fun r => Holds s r.1 := by
      have hfirst : Holds s { s.dequeue p ps with writeQueue := queue } :=
        ⟨by simp [accepted, dequeue, hs], id⟩
      exact fun r hr => hfirst.trans (ih rfl b r hr)
    unfold sendLoop
    dsimp only
    split_ifs
    all_goals
      exact .bind (P := fun _ => True) (fun _ _ => trivial) fun _ _ =>
        .bind (P := fun _ => True) (fun _ _ => trivial) fun _ _ => hrest _ _

theorem update_holds (s : WorldSocket σ) (answers : List Answer) :
    Answers (s.update answers) fun t => Holds s t := by
  unfold update
  refine .bind (sendLoop_holds s.bufferQueue rfl _) fun r hr => ?_
  obtain ⟨t, buffer⟩ := r
  have hqueue : Holds s (if 0 < buffer.getActiveSize then t.queuePacket buffer else t) := by
    split
    · exact ⟨hr.accepted, hr.isOpen⟩
    · exact hr
  dsimp only
  generalize (if 0 < buffer.getActiveSize then t.queuePacket buffer else t) = u at hqueue
  split
  · exact .ok hqueue
  · exact .ok (hqueue.trans (handleQueues_holds u answers))

/-- The packet that is handed to the socket. -/
def SendOp.handed : SendOp → Option WorldPacket
  | .sendPacket packet => some packet
  | _ => none

/-- The socket has sent the stream of what it dequeued, and has taken on the first of the packets `ps`, and
all of them while it is open. -/
structure Delivers (c : Cipher243) (ps : List WorldPacket) (s : WorldSocket σ) : Prop extends
    Streams [] (some (.build243 c)) s where
  ready : ∀ p ∈ s.accepted, p.encrypt = true ∧ HeaderFits p.toWorldPacket
  isPrefix : s.accepted.map EncryptablePacket.toWorldPacket <+: ps
  all : s.isOpen = true → s.accepted.map EncryptablePacket.toWorldPacket = ps

variable {c : Cipher243}

theorem Delivers.sendPacket {p : WorldPacket} (hs : s.Delivers c ps) (hfits : HeaderFits p)
    (hstreams : (s.sendPacket p).Streams [] (some (.build243 c))) :
    (s.sendPacket p).Delivers c (ps ++ [p]) := by
  by_cases hopen : s.isOpen = true
  · obtain ⟨-, -, c', -, -, hcipher⟩ := packetStream_encodes (σ := σ) c fun q hq =>
      hs.ready q (List.mem_append_left s.bufferQueue hq)
    have hencrypt : s.authCrypt.any AuthCrypt.isInitialized = true := by
      rw [hs.cipher, hcipher]
      rfl
    have haccepted : (s.sendPacket p).accepted = s.accepted ++ [{ p with encrypt := true }] := by
      unfold WorldSocket.sendPacket accepted
      rw [if_pos hopen, hencrypt, List.append_assoc]
    have hall : (s.sendPacket p).accepted.map EncryptablePacket.toWorldPacket = ps ++ [p] := by
      rw [haccepted, List.map_append, hs.all hopen]
      rfl
    refine { toStreams := hstreams, ready := ?_, isPrefix := hall ▸ List.prefix_rfl, all := fun _ => hall }
    rw [haccepted, List.forall_mem_append, List.forall_mem_singleton]
    exact ⟨hs.ready, rfl, hfits⟩
  · unfold WorldSocket.sendPacket at hstreams ⊢
    rw [if_neg hopen] at hstreams ⊢
    exact
      { toStreams := hstreams
        ready := hs.ready
        isPrefix := hs.isPrefix.trans (List.prefix_append ps [p])
        all := fun h => absurd h hopen }

theorem sendStep_delivers {op : SendOp} (hs : s.Delivers c ps)
    (hfits : ∀ p, op.handed = some p → HeaderFits p) :
    Yields (s.sendStep op) (Delivers c (ps ++ op.handed.toList)) := by
  obtain ⟨t, hstep, hstreams⟩ := sendStep_streams s op hs.toStreams
  refine ⟨t, hstep, ?_⟩
  have hother (h : Holds s t) : t.Delivers c (ps ++ []) := by
    rw [List.append_nil]
    exact
      { toStreams := hstreams
        ready := by rw [h.accepted]; exact hs.ready
        isPrefix := by rw [h.accepted]; exact hs.isPrefix
        all := fun hopen => by rw [h.accepted]; exact hs.all (h.isOpen hopen) }
  cases op with
  | sendPacket p =>
    cases hstep
    exact hs.sendPacket (hfits p rfl) hstreams
  | update answers => exact hother (update_holds s answers t hstep)
  | writeReady answer =>
    cases hstep
    refine hother ?_
    unfold writeHandlerWrapper
    split
    · exact ⟨(handleQueue_holds _ _).accepted, (handleQueue_holds _ _).isOpen⟩
    · exact .refl s
  | delayedClose =>
    cases hstep
    exact hother ⟨rfl, fun h => by simp [isOpen, delayedCloseSocket] at h⟩
  | close =>
    cases hstep
    exact hother ⟨rfl, fun h => absurd h Bool.false_ne_true⟩

theorem run_delivers (hs : s.Delivers c ps) {ops : List SendOp}
    (hfits : ∀ p ∈ ops.filterMap SendOp.handed, HeaderFits p) :
    Yields (Lib.run sendStep s ops) (Delivers c (ps ++ ops.filterMap SendOp.handed)) := by
  induction ops generalizing s ps with
  | nil => exact ⟨s, rfl, by rwa [List.filterMap_nil, List.append_nil]⟩
  | cons op ops ih =>
    have hall : (op :: ops).filterMap SendOp.handed = op.handed.toList ++ ops.filterMap SendOp.handed := by
      cases op <;> rfl
    rw [hall] at hfits ⊢
    rw [List.forall_mem_append] at hfits
    rw [← List.append_assoc]
    refine (sendStep_delivers hs fun p hp => hfits.1 p (Option.mem_toList.mpr hp)).bind fun t ht => ?_
    exact ih ht hfits.2

/-- **What is handed to a session is read by its client**, with send buffers of any size. Whatever the
socket answers and whenever it is updated, the client reads the first of the packets that `SendPacket` was
called with. It reads all of them where the session is open and nothing waits. -/
theorem client_reads_sent (c : Cipher243) (size : ℕ) {ops : List SendOp}
    (hfits : ∀ p ∈ ops.filterMap SendOp.handed, HeaderFits p) :
    ∃ t : WorldSocket σ,
      Lib.run sendStep { start (some (.build243 c)) with sendBufferSize := size } ops = .ok t ∧
      let packets := ((Framer.start c.peer).read serverFormat t.sent).frames.map serverPacket
      packets <+: ops.filterMap SendOp.handed ∧
        (t.isOpen = true → t.bufferQueue = [] → t.pending = [] → packets = ops.filterMap SendOp.handed) := by
  have hstart : ({ start (some (.build243 c)) with sendBufferSize := size } : WorldSocket σ).Delivers c [] :=
    { bytes := rfl, cipher := rfl, wellFormed := nofun, ready := nofun, isPrefix := List.prefix_rfl,
      all := fun _ => rfl }
  obtain ⟨t, ht, hdelivers⟩ := run_delivers hstart hfits
  obtain ⟨raws, frames, c', henc, hframes, -⟩ := packetStream_encodes (σ := σ) c fun p hp =>
    hdelivers.ready p (List.mem_append_left t.bufferQueue hp)
  rw [← List.nil_append (packetStream _ _).1, ← hdelivers.bytes] at henc
  obtain ⟨-, hfirst, hall⟩ := Framer.read_cut henc
  refine ⟨t, ht, ?_, fun hopen hqueue hpending => ?_⟩
  · refine (hfirst.map serverPacket).trans (hframes ▸ ?_)
    exact ((List.prefix_append t.dequeued t.bufferQueue).map _).trans hdelivers.isPrefix
  · rw [hall hpending, hframes, ← List.append_nil t.dequeued, ← hqueue]
    exact hdelivers.all hopen

/-- Two packets, of which the socket takes four bytes first, with buffers of eight bytes. -/
theorem client_reads_two :
    ∃ t : WorldSocket Empty, Lib.run sendStep
        { start (some (.build243 (.init (Vector.replicate 20 7)))) with sendBufferSize := 8 }
        [.sendPacket ⟨0x1DD, [1, 2]⟩, .update [.takes 4], .sendPacket ⟨0x4D, []⟩, .writeReady (.takes 9)] = .ok t ∧
      let packets := ((Framer.start (Cipher243.init (Vector.replicate 20 7)).peer).read serverFormat
        t.sent).frames.map serverPacket
      packets <+: [⟨0x1DD, [1, 2]⟩, ⟨0x4D, []⟩] ∧
        (t.isOpen = true → t.bufferQueue = [] → t.pending = [] → packets = [⟨0x1DD, [1, 2]⟩, ⟨0x4D, []⟩]) :=
  client_reads_sent (.init (Vector.replicate 20 7)) 8 (by simp [SendOp.handed, HeaderFits])

end WorldSocket

end Sunstrider.Network
