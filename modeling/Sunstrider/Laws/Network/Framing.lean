import Sunstrider.Lib.Framing
import Sunstrider.Laws.Network.Buffers

/-!
# What a socket receives

`clientFormat` is the format of a client's stream, and a `Framer` of this format reads the stream one
byte at a time. `Reads s r` says that the buffers of the socket `s` hold what the reader `r` has of
the frame that it is in. A round of the loop of `ReadHandler` keeps this (`readRound_reads`), so a
whole call does (`readLoop_reads`), and so do the calls of a run (`receive_between`). A handler
that closes the socket is left out: all of them answer `Ok` here.
-/

namespace Sunstrider.Network

open Lib (Format Phase Framer Yields)
open ClientPktHeader MessageBuffer

variable {σ : Type} [ARC4 σ]

/-! ## The format -/

theorem Cipher243.length_decrypt (c : Cipher243) (data : List UInt8) :
    (c.decrypt data).1.length = data.length := by
  induction data generalizing c with
  | nil => rfl
  | cons d data ih => simp [decrypt, ih]

theorem AuthCrypt.length_decryptRecv (c : AuthCrypt σ) (data : List UInt8) :
    (c.decryptRecv data).1.length = data.length := by
  unfold decryptRecv
  split
  · rfl
  · split
    · rfl
    · simp only [List.length_append, Cipher243.length_decrypt, List.length_take, List.length_drop]
      omega
  · exact ARC4.length_updateData _ _

namespace ClientPktHeader

theorem length_endianConvertReverse (d : List UInt8) : (endianConvertReverse d).length = d.length := by
  unfold endianConvertReverse
  split <;> rfl

variable {d : List UInt8} (n : ℕ)

theorem length_setSize (h : d.length = byteSize) : (setSize d n).length = byteSize := by
  simp only [setSize, List.length_cons, List.length_drop]
  simp only [byteSize] at h ⊢
  omega

/-- The opcode stays where it is when the size is written. -/
theorem cmd_setSize (h : d.length = byteSize) : cmd (setSize d n) = cmd d := by
  match d, h with
  | [_, _, _, _, _, _], _ => rfl

theorem size_setSize (h : n < 2 ^ 16) : size (setSize d n) = n := by
  simp only [size, setSize, List.getD_cons_zero, List.getD_cons_succ, UInt8.toNat_ofNat']
  omega

end ClientPktHeader

namespace WorldSocket

theorem length_decryptHeader (c : Option (AuthCrypt σ)) (raw : List UInt8) :
    (decryptHeader c raw).1.length = raw.length := by
  cases c with
  | none => rfl
  | some c => exact c.length_decryptRecv raw

theorem isSome_decryptHeader (c : Option (AuthCrypt σ)) (raw : List UInt8) :
    (decryptHeader c raw).2.isSome = c.isSome := by
  cases c <;> rfl

variable (σ) in
/-- The stream of a client: headers as they are on the host after decryption, which count the four
bytes of the opcode in their size. -/
def clientFormat : Format (Option (AuthCrypt σ)) (List UInt8) UInt8 where
  headerSize := ClientPktHeader.byteSize
  headerSize_pos := by decide
  unlock c raw := (endianConvertReverse (decryptHeader c raw).1, (decryptHeader c raw).2)
  payloadSize d := if IsValidSize d ∧ IsValidOpcode d then some (ClientPktHeader.size d - 4) else none

/-- A reader of a client's stream. -/
abbrev Reader (σ : Type) := Framer (Option (AuthCrypt σ)) (List UInt8) UInt8

/-- The packet that a frame is. -/
def packetOf (frame : List UInt8 × List UInt8) : WorldPacket := ⟨cmd frame.1, frame.2⟩

/-! ## The buffers of a socket and the state of a reader -/

omit [ARC4 σ] in
/-- What came in and went out agrees with what the reader has read. -/
structure Agrees (s : WorldSocket σ) (r : Reader σ) : Prop where
  cipher : s.authCrypt = r.cipher
  decrypted : s.decrypted = if r.cipher.isSome then r.unlocked else []
  received : s.received = r.frames.map packetOf

/-- The header buffer has a valid header `h`, less the size of its opcode, and the packet buffer has
`bytes` of the payload, and room for the rest of it. -/
structure Collects (s : WorldSocket σ) (h bytes room : List UInt8) : Prop where
  isOpen : s.isOpen = true
  header : s.headerBuffer = window [] (setSize h (ClientPktHeader.size h - 4)) []
  length : h.length = byteSize
  packet : s.packetBuffer = window [] bytes room
  size : (clientFormat σ).payloadSize h = some (bytes.length + room.length)

/-- The buffers hold what a reader has in this phase. -/
def InPhase (s : WorldSocket σ) : Phase (List UInt8) UInt8 → Prop
  | .header bytes =>
    s.isOpen = true ∧
      (∃ room, room ≠ [] ∧ bytes.length + room.length = byteSize ∧
        s.headerBuffer = window [] bytes room) ∧
      ∃ room, s.packetBuffer = window [] [] room
  | .payload h bytes => ∃ room, room ≠ [] ∧ s.Collects h bytes room
  | .malformed h =>
    s.isOpen = false ∧ s.headerBuffer = window [] h [] ∧ ∃ room, s.packetBuffer = window [] [] room

variable {s : WorldSocket σ}

theorem InPhase.frame {t : WorldSocket σ} {p : Phase (List UInt8) UInt8} (h : s.InPhase p)
    (hopen : t.isOpen = s.isOpen) (hh : t.headerBuffer = s.headerBuffer)
    (hp : t.packetBuffer = s.packetBuffer) : t.InPhase p := by
  cases p with
  | header bytes =>
    simp only [InPhase, hopen, hh, hp]
    exact h
  | payload d bytes =>
    obtain ⟨room, hroom, hc⟩ := h
    exact ⟨room, hroom, hopen.trans hc.isOpen, hh.trans hc.header, hc.length, hp.trans hc.packet, hc.size⟩
  | malformed d =>
    simp only [InPhase, hopen, hh, hp]
    exact h

structure Reads (s : WorldSocket σ) (r : Reader σ) : Prop extends Agrees s r where
  phase : s.InPhase r.phase

variable {r : Reader σ}

/-- A socket that is not open any more has read a malformed header. -/
theorem Reads.malformed_of_not_isOpen (h : s.Reads r) (hopen : s.isOpen = false) :
    ∃ d, r.phase = .malformed d := by
  have hphase := h.phase
  cases hp : r.phase with
  | header bytes =>
    rw [hp] at hphase
    exact absurd (hopen.symm.trans hphase.1) (by decide)
  | payload d bytes =>
    rw [hp] at hphase
    obtain ⟨room, -, hc⟩ := hphase
    exact absurd (hopen.symm.trans hc.isOpen) (by decide)
  | malformed d => exact ⟨d, rfl⟩

/-! ## A round of the loop -/

/-- How a round ends that began with `bytes` to read: it has read a piece of them, and goes on only
where that brought it further. -/
structure RoundEnds (s : WorldSocket σ) (r : Reader σ) (done bytes tail : List UInt8)
    (p : WorldSocket σ × Next) (piece rest done' : List UInt8) : Prop where
  cut : bytes = piece ++ rest
  length : done'.length + rest.length = done.length + bytes.length
  readBuffer : p.1.readBuffer = window done' rest tail
  reading : p.1.reading = s.reading
  reads : p.1.Reads (r.read (clientFormat σ) piece)
  isOpen : p.1.isOpen = true ↔ p.2 ≠ .stop
  leave : p.2 = .leave → rest = []

variable {bytes : List UInt8}

theorem readDataHandler_reads {h : List UInt8} (hs : s.Agrees r) (hc : s.Collects h bytes []) :
    s.readDataHandler.Reads (r.settle (clientFormat σ) h bytes) := by
  have hsize : (clientFormat σ).payloadSize h = some bytes.length := hc.size
  have hlen := length_setSize (ClientPktHeader.size h - 4) hc.length
  have hd : s.headerBuffer.readBytes byteSize = setSize h (ClientPktHeader.size h - 4) := by
    rw [hc.header, ← hlen, readBytes_window_all]
  rw [Framer.settle, if_pos hsize]
  refine { cipher := hs.cipher, decrypted := hs.decrypted, received := ?_, phase := ?_ }
  · simp [readDataHandler, hd, cmd_setSize _ hc.length, hc.packet, hs.received, packetOf,
      storage_window]
  · refine ⟨hc.isOpen, ⟨setSize h (ClientPktHeader.size h - 4), ?_, ?_, ?_⟩, [], rfl⟩
    · simp [setSize]
    · simpa using hlen
    · simp [readDataHandler, hc.header, reset_window]

variable {done tail : List UInt8}

/-- The second half of a round, where the header is complete. It makes no progress only if there is
no payload. -/
theorem readPayload_ends {h body room : List UInt8} (hs : s.Agrees r) (hc : s.Collects h body room)
    (hb : s.readBuffer = window done bytes tail) :
    Yields s.readPayload fun p => ∃ piece rest done',
      RoundEnds s (r.settle (clientFormat σ) h body) done bytes tail p piece rest done' ∧
        (p.2 = .again → room ≠ [] → piece.length = room.length) := by
  unfold readPayload
  cases room with
  | nil =>
    rw [hc.packet, getRemainingSpace_window, if_neg (by simp)]
    refine .ok ⟨[], bytes, done, ?_, fun _ hne => absurd rfl hne⟩
    exact
      { cut := rfl
        length := rfl
        readBuffer := hb
        reading := rfl
        reads := readDataHandler_reads hs hc
        isOpen := iff_of_true hc.isOpen (by simp)
        leave := fun hleave => by cases hleave }
  | cons x room =>
    have hmore : (clientFormat σ).payloadSize h ≠ some body.length := by
      rw [hc.size]
      simp
    have hsettle : r.settle (clientFormat σ) h body = { r with phase := .payload h body } := by
      rw [Framer.settle, if_neg hmore]
    rw [hc.packet, getRemainingSpace_window, if_pos (by simp), hb, hsettle]
    by_cases hlt : bytes.length < (x :: room).length
    · -- the payload is still not complete
      rw [transfer_window_all hlt.le]
      have hroom : 0 < ((x :: room).drop bytes.length).length := by
        rw [List.length_drop]
        omega
      show Yields (if _ then incomplete _ else _) _
      simp only [getRemainingSpace_window]
      rw [if_pos hroom, incomplete, if_pos (by simp)]
      refine .ok ⟨bytes, [], done ++ bytes, ?_, fun hagain => by cases hagain⟩
      refine
        { cut := by simp
          length := by simp
          readBuffer := rfl
          reading := rfl
          reads := ?_
          isOpen := iff_of_true hc.isOpen (by simp)
          leave := fun _ => rfl }
      rw [Framer.read_payload rfl hc.size bytes (by omega)]
      refine { cipher := hs.cipher, decrypted := hs.decrypted, received := hs.received, phase := ?_ }
      refine ⟨(x :: room).drop bytes.length, List.ne_nil_of_length_pos hroom, ?_⟩
      refine ⟨hc.isOpen, hc.header, hc.length, rfl, ?_⟩
      rw [hc.size, List.length_append, List.length_drop]
      congr 1
      omega
    · -- the payload is complete
      have hle : (x :: room).length ≤ bytes.length := by omega
      have hlen : (bytes.take (x :: room).length).length = (x :: room).length := by
        rw [List.length_take]
        omega
      rw [transfer_window_full hle]
      show Yields (if _ then incomplete _ else _) _
      rw [if_neg (by simp)]
      refine .ok ⟨bytes.take (x :: room).length, bytes.drop (x :: room).length,
        done ++ bytes.take (x :: room).length, ?_, fun _ _ => hlen⟩
      refine
        { cut := (List.take_append_drop _ _).symm
          length := ?_
          readBuffer := rfl
          reading := rfl
          reads := ?_
          isOpen := iff_of_true hc.isOpen (by simp)
          leave := fun hleave => by cases hleave }
      · simp only [List.length_append, List.length_drop, hlen]
        omega
      · have hne : bytes.take (x :: room).length ≠ [] := by
          intro hnil
          rw [hnil] at hlen
          simp at hlen
        rw [Framer.read_settle rfl hc.size hne (by rw [hlen])]
        refine readDataHandler_reads
          { cipher := hs.cipher, decrypted := hs.decrypted, received := hs.received } ?_
        refine ⟨hc.isOpen, hc.header, hc.length, rfl, ?_⟩
        rw [hc.size, List.length_append, hlen]
        rfl

theorem readHeaderHandler_reads {raw room : List UInt8} (hs : s.Agrees r) (hopen : s.isOpen = true)
    (hlen : raw.length = byteSize) (hh : s.headerBuffer = window [] raw [])
    (hp : s.packetBuffer = window [] [] room) :
    Yields s.readHeaderHandler fun p =>
      p.1.readBuffer = s.readBuffer ∧ p.1.reading = s.reading ∧
        if p.2 = true then
          ∃ h room', p.1.Collects h [] room' ∧
            ∃ r', p.1.Agrees r' ∧ r.openHeader (clientFormat σ) raw = r'.settle (clientFormat σ) h []
        else p.1.closeSocket.Reads (r.openHeader (clientFormat σ) raw) := by
  have hraw : (window [] raw []).readBytes byteSize = raw := by
    rw [← hlen, readBytes_window_all]
  have hactive : ¬ (window [] raw []).getActiveSize ≠ byteSize := by
    simpa using hlen
  have hd : (endianConvertReverse (decryptHeader s.authCrypt raw).1).length = raw.length := by
    rw [length_endianConvertReverse, length_decryptHeader]
  generalize hh' : endianConvertReverse (decryptHeader s.authCrypt raw).1 = h at hd
  have hdlen : h.length = byteSize := hd.trans hlen
  have hunlock : (clientFormat σ).unlock r.cipher raw = (h, (decryptHeader s.authCrypt raw).2) := by
    rw [← hs.cipher, ← hh']
    rfl
  have hdec : (if s.authCrypt.isSome then s.decrypted ++ [raw] else s.decrypted) =
      if (decryptHeader s.authCrypt raw).2.isSome then r.unlocked ++ [raw] else [] := by
    rw [isSome_decryptHeader, hs.decrypted, ← hs.cipher]
    cases s.authCrypt.isSome <;> rfl
  unfold readHeaderHandler
  rw [hh, if_neg hactive]
  simp only [hraw, hh', overwrite_window hd]
  by_cases hvalid : IsValidSize h ∧ IsValidOpcode h
  · have hbad : ¬ (¬ IsValidSize h ∨ ¬ IsValidOpcode h) := by
      rintro (hno | hno)
      · exact hno hvalid.1
      · exact hno hvalid.2
    have hpay : (clientFormat σ).payloadSize h = some (ClientPktHeader.size h - 4) := if_pos hvalid
    have hn : ClientPktHeader.size h - 4 < 2 ^ 16 := by
      have := hvalid.1.2
      omega
    obtain ⟨room', hroom', hresize⟩ := resize_window room (ClientPktHeader.size h - 4)
    rw [if_neg hbad]
    refine .ok ⟨rfl, rfl, ?_⟩
    refine ⟨h, room', ?_, ⟨(decryptHeader s.authCrypt raw).2, r.phase, r.unlocked ++ [raw], r.frames⟩,
      ⟨rfl, hdec, hs.received⟩, ?_⟩
    · refine
        { isOpen := hopen
          header := overwrite_window (by rw [length_setSize _ hdlen, hdlen])
          length := hdlen
          packet := ?_
          size := by simp [hpay, hroom'] }
      rw [hp, size_setSize _ hn, hresize]
    · simp only [Framer.openHeader, hunlock]
      rw [if_neg (by rw [hpay]; simp)]
  · have hbad : ¬ IsValidSize h ∨ ¬ IsValidOpcode h := by
      by_cases h1 : IsValidSize h
      · exact .inr fun h2 => hvalid ⟨h1, h2⟩
      · exact .inl h1
    have hpay : (clientFormat σ).payloadSize h = none := if_neg hvalid
    rw [if_pos hbad]
    refine .ok ⟨rfl, rfl, ?_⟩
    simp only [Framer.openHeader, hunlock, hpay, if_true]
    exact
      { cipher := rfl
        decrypted := hdec
        received := hs.received
        phase := ⟨by simp [closeSocket, isOpen], rfl, room, hp⟩ }

/-- **A round keeps the socket and the reader together.** -/
theorem readRound_ends (hs : s.Reads r) (hopen : s.isOpen = true)
    (hb : s.readBuffer = window done bytes tail) :
    Yields s.readRound fun p => ∃ piece rest done',
      RoundEnds s r done bytes tail p piece rest done' ∧ (p.2 = .again → piece ≠ []) := by
  have hphase := hs.phase
  unfold readRound
  cases hp : r.phase with
  | header bs =>
    rw [hp] at hphase
    obtain ⟨-, ⟨room, hroom, hsize, hh⟩, room', hpacket⟩ := hphase
    have hpos : 0 < room.length := List.length_pos_of_ne_nil hroom
    rw [hh, getRemainingSpace_window, if_pos hpos, hb]
    by_cases hlt : bytes.length < room.length
    · -- the header is still not complete
      have hmore : 0 < (room.drop bytes.length).length := by
        rw [List.length_drop]
        omega
      rw [transfer_window_all hlt.le]
      show Yields (if _ then incomplete _ else _) _
      simp only [getRemainingSpace_window]
      rw [if_pos hmore, incomplete, if_pos (by simp)]
      refine .ok ⟨bytes, [], done ++ bytes, ?_, fun hagain => by cases hagain⟩
      refine
        { cut := by simp
          length := by simp
          readBuffer := rfl
          reading := rfl
          reads := ?_
          isOpen := iff_of_true hopen (by simp)
          leave := fun _ => rfl }
      have hshort : bs.length + bytes.length < (clientFormat σ).headerSize := by
        show _ < byteSize
        omega
      rw [Framer.read_header hp bytes hshort]
      refine { cipher := hs.cipher, decrypted := hs.decrypted, received := hs.received, phase := ?_ }
      refine ⟨hopen, ⟨room.drop bytes.length, List.ne_nil_of_length_pos hmore, ?_, rfl⟩, room', hpacket⟩
      simp only [List.length_append, List.length_drop]
      omega
    · -- the header is complete
      have hle : room.length ≤ bytes.length := by omega
      have hlen : (bytes.take room.length).length = room.length := by
        rw [List.length_take]
        omega
      have hcut : bytes = bytes.take room.length ++ bytes.drop room.length :=
        (List.take_append_drop _ _).symm
      have hpiece : bytes.take room.length ≠ [] := by
        intro hnil
        rw [hnil] at hlen
        exact hpos.ne hlen
      have hread : r.read (clientFormat σ) (bytes.take room.length) =
          r.openHeader (clientFormat σ) (bs ++ bytes.take room.length) :=
        Framer.read_openHeader hp hpiece (by rw [hlen]; exact hsize)
      have hdone : (done ++ bytes.take room.length).length + (bytes.drop room.length).length =
          done.length + bytes.length := by
        simp only [List.length_append, List.length_drop, hlen]
        omega
      rw [transfer_window_full hle]
      show Yields (if _ then incomplete _ else _) _
      rw [if_neg (by simp)]
      refine Yields.bind (readHeaderHandler_reads (s := { s with
          readBuffer := window (done ++ bytes.take room.length) (bytes.drop room.length) tail
          headerBuffer := window [] (bs ++ bytes.take room.length) [] })
        ⟨hs.cipher, hs.decrypted, hs.received⟩ hopen
        (by rw [List.length_append, hlen, hsize]) rfl hpacket) ?_
      rintro ⟨t, valid⟩ ⟨htb, htr, ht⟩
      cases valid with
      | false =>
        rw [if_neg (by simp)] at ht
        rw [if_neg (by simp)]
        refine .ok ⟨bytes.take room.length, bytes.drop room.length, done ++ bytes.take room.length,
          ?_, fun hagain => by cases hagain⟩
        exact
          { cut := hcut
            length := hdone
            readBuffer := htb
            reading := htr
            reads := hread ▸ ht
            isOpen := iff_of_false (by simp [isOpen, closeSocket]) (by simp)
            leave := fun hleave => by cases hleave }
      | true =>
        rw [if_pos rfl] at ht
        rw [if_pos rfl]
        obtain ⟨h, room'', hc, r', hr', hopenHeader⟩ := ht
        refine (readPayload_ends hr' hc htb).mono ?_
        rintro p ⟨piece, rest, done', hends, -⟩
        rw [← hopenHeader, ← hread] at hends
        refine ⟨bytes.take room.length ++ piece, rest, done', ?_, fun _ => by simp [hpiece]⟩
        exact
          { cut := by rw [List.append_assoc, ← hends.cut, ← hcut]
            length := hends.length.trans hdone
            readBuffer := hends.readBuffer
            reading := hends.reading.trans htr
            reads := by rw [Framer.read_append]; exact hends.reads
            isOpen := hends.isOpen
            leave := hends.leave }
  | payload h bs =>
    rw [hp] at hphase
    obtain ⟨room, hroom, hc⟩ := hphase
    have hmore : (clientFormat σ).payloadSize h ≠ some bs.length := by
      have hpos := List.length_pos_of_ne_nil hroom
      rw [hc.size]
      simp only [ne_eq, Option.some.injEq]
      omega
    have hsettle : r.settle (clientFormat σ) h bs = r := by
      rw [Framer.settle, if_neg hmore, ← hp]
    rw [hc.header, getRemainingSpace_window, if_neg (by simp)]
    refine (readPayload_ends hs.toAgrees hc hb).mono ?_
    rintro p ⟨piece, rest, done', hends, hprogress⟩
    rw [hsettle] at hends
    refine ⟨piece, rest, done', hends, ?_⟩
    intro hagain hnil
    have hlen := hprogress hagain hroom
    rw [hnil] at hlen
    exact hroom (List.length_eq_zero_iff.mp hlen.symm)
  | malformed h =>
    rw [hp] at hphase
    exact absurd (hopen.symm.trans hphase.1) (by decide)

/-! ## Calls of `ReadHandler` -/

/-- Between two reads: nothing waits in the read buffer, and the next read was asked for, with room
for `n` bytes, unless the socket is closed. -/
structure Between (n : ℕ) (s : WorldSocket σ) (r : Reader σ) : Prop extends Reads s r where
  idle : s.isOpen = true → s.reading = true ∧
    ∃ room, room.length = n ∧ s.readBuffer = window [] [] room
  ended : s.isOpen = false → s.reading = false

omit [ARC4 σ] in
theorem asyncRead_of_isOpen (h : s.isOpen = true) :
    s.asyncRead = { s with
      readBuffer := s.readBuffer.normalize.ensureFreeSpace
      reading := true } :=
  if_pos h

variable {n : ℕ}

theorem asyncRead_between (hn : 0 < n) (hs : s.Reads r) (hopen : s.isOpen = true)
    (hb : s.readBuffer = window done [] tail) (hlen : done.length + tail.length = n) :
    s.asyncRead.Between n r := by
  have hroom : (done ++ [] ++ tail).drop ([] : List UInt8).length ≠ [] := by
    apply List.ne_nil_of_length_pos
    simpa using by omega
  have hread : s.asyncRead = { s with
      readBuffer := window [] [] (done ++ tail)
      reading := true } := by
    rw [asyncRead_of_isOpen hopen, hb, normalize_window, ensureFreeSpace_window hroom]
    simp
  rw [hread]
  exact
    { cipher := hs.cipher
      decrypted := hs.decrypted
      received := hs.received
      phase := hs.phase.frame rfl rfl rfl
      idle := fun _ => ⟨rfl, done ++ tail, by simp [hlen], rfl⟩
      ended := fun hclosed => absurd (hopen.symm.trans hclosed) (by decide) }

/-- **The loop reads all that has come in**, or up to a malformed header. -/
theorem readLoop_between (hn : 0 < n) (fuel : ℕ) (hs : s.Reads r) (hopen : s.isOpen = true)
    (hreading : s.reading = false) (hb : s.readBuffer = window done bytes tail)
    (hlen : done.length + bytes.length + tail.length = n) (enough : bytes.length ≤ fuel) :
    Yields (s.readLoop fuel) fun t => t.Between n (r.read (clientFormat σ) bytes) := by
  induction fuel generalizing s r done bytes with
  | zero =>
    have hnil : bytes = [] := List.length_eq_zero_iff.mp (by omega)
    subst hnil
    rw [readLoop, hb, if_pos (by simp)]
    exact .ok (asyncRead_between hn hs hopen hb (by simpa using hlen))
  | succ fuel ih =>
    rw [readLoop, hb, getActiveSize_window]
    split
    · next hzero =>
      have hnil : bytes = [] := List.length_eq_zero_iff.mp hzero
      subst hnil
      exact .ok (asyncRead_between hn hs hopen hb (by simpa using hlen))
    · refine (readRound_ends hs hopen hb).bind ?_
      rintro ⟨t, next⟩ ⟨piece, rest, done', hends, hprogress⟩
      have hread : r.read (clientFormat σ) bytes =
          (r.read (clientFormat σ) piece).read (clientFormat σ) rest := by
        rw [hends.cut, Framer.read_append]
      have hlen' : done'.length + rest.length + tail.length = n := by
        rw [hends.length]
        exact hlen
      rw [hread]
      cases next with
      | again =>
        have hshort : rest.length ≤ fuel := by
          have hpiece := List.length_pos_of_ne_nil (hprogress rfl)
          have hcut := congrArg List.length hends.cut
          rw [List.length_append] at hcut
          omega
        exact ih hends.reads (hends.isOpen.mpr (by simp)) (hends.reading.trans hreading)
          hends.readBuffer hlen' hshort
      | leave =>
        have hnil := hends.leave rfl
        subst hnil
        exact .ok (asyncRead_between hn hends.reads (hends.isOpen.mpr (by simp)) hends.readBuffer
          (by simpa using hlen'))
      | stop =>
        have hclosed : t.isOpen = false := by
          cases ht : t.isOpen with
          | false => rfl
          | true => exact absurd rfl (hends.isOpen.mp ht)
        obtain ⟨d, hd⟩ := hends.reads.malformed_of_not_isOpen hclosed
        rw [Framer.read_malformed hd]
        exact .ok
          { toReads := hends.reads
            idle := fun h => absurd (hclosed.symm.trans h) (by decide)
            ended := fun _ => hends.reading.trans hreading }

theorem readHandlerInternal_between (hn : 0 < n) (hs : s.Between n r) {data : List UInt8}
    (hdata : data.length ≤ n) :
    Yields (s.readHandlerInternal data) fun t => t.Between n (r.read (clientFormat σ) data) := by
  unfold readHandlerInternal
  cases hopen : s.isOpen with
  | false =>
    obtain ⟨d, hd⟩ := hs.malformed_of_not_isOpen hopen
    rw [hs.ended hopen, if_neg (by decide), Framer.read_malformed hd]
    exact .ok hs
  | true =>
    obtain ⟨hreading, room, hroom, hb⟩ := hs.idle hopen
    rw [hreading, if_pos rfl, hb, write_window (by omega)]
    show Yields (readHandler _) _
    have hopen' : ({ s with
        readBuffer := window [] ([] ++ data) (room.drop data.length)
        reading := false } : WorldSocket σ).isOpen = true := hopen
    rw [readHandler, if_pos hopen']
    refine readLoop_between hn _ ?_ hopen rfl rfl ?_ ?_
    · exact
        { cipher := hs.cipher
          decrypted := hs.decrypted
          received := hs.received
          phase := hs.phase.frame rfl rfl rfl }
    · simp only [List.length_nil, List.length_drop]
      omega
    · simp

/-! ## Streams -/

/-- What a socket has made of the bytes that it got. -/
structure Outcome (σ : Type) where
  received : List WorldPacket
  header : List UInt8
  payload : List UInt8
  isOpen : Bool
  decrypted : List (List UInt8)
  authCrypt : Option (AuthCrypt σ)

omit [ARC4 σ] in
def outcome (s : WorldSocket σ) : Outcome σ where
  received := s.received
  header := s.headerBuffer.readBytes s.headerBuffer.getActiveSize
  payload := s.packetBuffer.readBytes s.packetBuffer.getActiveSize
  isOpen := s.isOpen
  decrypted := s.decrypted
  authCrypt := s.authCrypt

omit [ARC4 σ] in
/-- The outcome that a reader stands for. A header whose payload is collected is less the size of its
opcode. -/
def outcomeOf (r : Reader σ) : Outcome σ where
  received := r.frames.map packetOf
  header :=
    match r.phase with
    | .header bytes => bytes
    | .payload h _ => setSize h (ClientPktHeader.size h - 4)
    | .malformed h => h
  payload :=
    match r.phase with
    | .payload _ bytes => bytes
    | _ => []
  isOpen :=
    match r.phase with
    | .malformed _ => false
    | _ => true
  decrypted := if r.cipher.isSome then r.unlocked else []
  authCrypt := r.cipher

theorem outcome_eq (hs : s.Reads r) : s.outcome = outcomeOf r := by
  have hphase := hs.phase
  unfold outcome outcomeOf
  rw [hs.received, hs.decrypted, hs.cipher]
  cases hp : r.phase with
  | header bytes =>
    rw [hp] at hphase
    obtain ⟨hopen, ⟨room, -, -, hh⟩, room', hpacket⟩ := hphase
    rw [hopen, hh, hpacket]
    simp only [getActiveSize_window, readBytes_window_all]
  | payload h bytes =>
    rw [hp] at hphase
    obtain ⟨room, -, hc⟩ := hphase
    rw [hc.isOpen, hc.header, hc.packet]
    simp only [getActiveSize_window, readBytes_window_all]
  | malformed h =>
    rw [hp] at hphase
    obtain ⟨hopen, hh, room, hpacket⟩ := hphase
    rw [hopen, hh, hpacket]
    simp only [getActiveSize_window, readBytes_window_all]

omit [ARC4 σ] in
/-- A socket that waits for the first byte of a frame, with nothing on record and room for `n` bytes
in its read buffer. The packet buffer is of any size. -/
structure AtFrame (n : ℕ) (s : WorldSocket σ) : Prop where
  isOpen : s.isOpen = true
  reading : s.reading = true
  read : s.readBuffer.wpos = 0 ∧ s.readBuffer.rpos = 0 ∧ s.readBuffer.storage.length = n
  header : s.headerBuffer.wpos = 0 ∧ s.headerBuffer.rpos = 0 ∧ s.headerBuffer.storage.length = byteSize
  packet : s.packetBuffer.wpos = 0 ∧ s.packetBuffer.rpos = 0
  record : s.decrypted = [] ∧ s.received = []

omit [ARC4 σ] in
theorem window_of_empty {b : MessageBuffer} (hw : b.wpos = 0) (hr : b.rpos = 0) :
    b = window [] [] b.storage := by
  cases b
  cases hw
  cases hr
  rfl

theorem AtFrame.between (hs : s.AtFrame n) : s.Between n (Framer.start s.authCrypt) where
  cipher := rfl
  decrypted := by
    rw [hs.record.1]
    exact (ite_self _).symm
  received := hs.record.2
  phase :=
    ⟨hs.isOpen,
      ⟨s.headerBuffer.storage, List.ne_nil_of_length_pos (by rw [hs.header.2.2]; decide),
        (Nat.zero_add _).trans hs.header.2.2, window_of_empty hs.header.1 hs.header.2.1⟩,
      s.packetBuffer.storage, window_of_empty hs.packet.1 hs.packet.2⟩
  idle := fun _ =>
    ⟨hs.reading, s.readBuffer.storage, hs.read.2.2, window_of_empty hs.read.1 hs.read.2.1⟩
  ended := fun hclosed => absurd (hs.isOpen.symm.trans hclosed) (by decide)

/-- **A run of reads keeps the socket and the reader together.** -/
theorem receive_between (hn : 0 < n) (hs : s.Between n r) (chunks : List (List UInt8))
    (hchunks : ∀ c ∈ chunks, c.length ≤ n) :
    Yields (Lib.run readHandlerInternal s chunks) fun t =>
      t.Between n (r.read (clientFormat σ) chunks.flatten) := by
  induction chunks generalizing s r with
  | nil => exact .ok hs
  | cons c chunks ih =>
    show Yields (s.readHandlerInternal c >>= fun t => Lib.run readHandlerInternal t chunks) _
    refine (readHandlerInternal_between hn hs (hchunks c List.mem_cons_self)).bind fun t ht => ?_
    rw [List.flatten_cons, Framer.read_append]
    exact ih ht fun d hd => hchunks d (List.mem_cons_of_mem c hd)

/-- **The cut of a stream into reads does not matter.** A socket that waits for a frame reads every cut
of a stream into pieces that its read buffer has room for, and trips no assertion. What it makes of
the stream is what the frames of the stream say; every other cut comes to the same; and a stream that
encodes packets is read as these packets. -/
theorem readHandler_independent_of_cut {n : ℕ} (hn : 0 < n) {s : WorldSocket σ} (hs : s.AtFrame n)
    (chunks : List (List UInt8)) (hchunks : ∀ c ∈ chunks, c.length ≤ n) :
    ∃ t, Lib.run readHandlerInternal s chunks = .ok t ∧
      (∃ r, Framer.Splits (clientFormat σ) s.authCrypt chunks.flatten r ∧ t.outcome = outcomeOf r) ∧
      (∀ others : List (List UInt8), (∀ c ∈ others, c.length ≤ n) → others.flatten = chunks.flatten →
        ∃ u, Lib.run readHandlerInternal s others = .ok u ∧ u.outcome = t.outcome) ∧
      ∀ raws frames c,
        Framer.Encodes (clientFormat σ) s.authCrypt raws frames chunks.flatten c →
        t.outcome =
          { received := frames.map packetOf
            header := []
            payload := []
            isOpen := true
            decrypted := if c.isSome then raws else []
            authCrypt := c } := by
  obtain ⟨t, ht, hread⟩ := receive_between hn hs.between chunks hchunks
  have htout := outcome_eq hread.toReads
  refine ⟨t, ht, ⟨_, Framer.read_splits s.authCrypt chunks.flatten, htout⟩, ?_, ?_⟩
  · intro others hothers hsame
    obtain ⟨u, hu, hread'⟩ := receive_between hn hs.between others hothers
    refine ⟨u, hu, ?_⟩
    rw [outcome_eq hread'.toReads, hsame, htout]
  · intro raws frames c henc
    rw [htout, Framer.read_encodes henc rfl rfl]
    rfl

omit [ARC4 σ] in
theorem start_atFrame (c : Option (AuthCrypt σ)) : (start c).AtFrame readBlockSize := by
  obtain ⟨room, hroom, hresize⟩ :=
    resize_window (List.replicate 4096 0) readBlockSize
  obtain ⟨room', hroom', hresize'⟩ :=
    resize_window (List.replicate 4096 0) byteSize
  have hne : room ≠ [] := List.ne_nil_of_length_pos (by rw [hroom]; decide)
  have hread : (start c).readBuffer = window [] [] room := by
    rw [start, asyncRead_of_isOpen rfl]
    simp only [ofSize_eq, hresize, normalize_window]
    exact ensureFreeSpace_window hne
  have hheader : (start c).headerBuffer = window [] [] room' := by
    rw [start, asyncRead_of_isOpen rfl]
    simp only [ofSize_eq, hresize']
  exact
    { isOpen := rfl
      reading := rfl
      read := by rw [hread]; exact ⟨rfl, rfl, hroom⟩
      header := by rw [hheader]; exact ⟨rfl, rfl, hroom'⟩
      packet := ⟨rfl, rfl⟩
      record := ⟨rfl, rfl⟩ }

/-- The cipher of a client of build 243 under a key of zeros. -/
def zeroCipher (recvI : ℕ) (recvJ : UInt8) : Option (AuthCrypt Empty) :=
  some (.build243 ⟨Vector.replicate 20 0, 0, 0, recvI, recvJ⟩)

/-- A ping and a packet with no payload, in pieces. -/
theorem readHandler_two_packets :
    ∃ t : WorldSocket Empty, Lib.run readHandlerInternal (start (some (.build243 (.init (Vector.replicate 20 0)))))
        [[0], [8, 0xE4], [0xE5, 0xE5, 0xE5, 1], [2], [3, 4, 0xE5, 0xE9], [0x34, 0x34, 0x34, 0x34]] =
          .ok t ∧
      t.received = [⟨0x1DC, [1, 2, 3, 4]⟩, ⟨0x4B, []⟩] ∧
      t.decrypted = [[0, 8, 0xE4, 0xE5, 0xE5, 0xE5], [0xE5, 0xE9, 0x34, 0x34, 0x34, 0x34]] := by
  obtain ⟨t, ht, -, -, hpackets⟩ := readHandler_independent_of_cut (by decide)
    (start_atFrame (zeroCipher 0 0))
    [[0], [8, 0xE4], [0xE5, 0xE5, 0xE5, 1], [2], [3, 4, 0xE5, 0xE9], [0x34, 0x34, 0x34, 0x34]]
    (by decide)
  have hping : (clientFormat Empty).unlock (zeroCipher 0 0) [0, 8, 0xE4, 0xE5, 0xE5, 0xE5] =
      ([8, 0, 0xDC, 1, 0, 0], zeroCipher 6 0xE5) := by decide
  have hempty : (clientFormat Empty).unlock (zeroCipher 6 0xE5) [0xE5, 0xE9, 0x34, 0x34, 0x34, 0x34] =
      ([4, 0, 0x4B, 0, 0, 0], zeroCipher 12 0x34) := by decide
  have henc : Framer.Encodes (clientFormat Empty) (zeroCipher 0 0) _
      [([8, 0, 0xDC, 1, 0, 0], [1, 2, 3, 4]), ([4, 0, 0x4B, 0, 0, 0], [])] _ _ :=
    .cons rfl hping (by decide) (.cons rfl hempty (by decide) (.nil _))
  have hout := hpackets _ _ _ henc
  exact ⟨t, ht, congrArg Outcome.received hout, congrArg Outcome.decrypted hout⟩

end WorldSocket

end Sunstrider.Network
