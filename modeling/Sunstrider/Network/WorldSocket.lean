import Mathlib.Algebra.Group.Nat.Defs
import Sunstrider.Lib.Run
import Sunstrider.Network.AuthCrypt

/-!
# The socket of a session and its buffers

`MessageBuffer.h`, and after it `Socket.h` and `WorldSocket.cpp`. A buffer is its storage with a write
and a read position. Copying to bytes outside of the storage is a fault.
-/

namespace Sunstrider.Network

inductive Fault
  /-- An `ASSERT` that fails. -/
  | assertion
  /-- A copy to bytes outside of a storage. -/
  | outOfBounds
  /-- A loop that outlives its bound. -/
  | endless
  deriving DecidableEq

structure MessageBuffer where
  wpos : ℕ
  rpos : ℕ
  storage : List UInt8
  deriving DecidableEq

namespace MessageBuffer

/-- `MessageBuffer(initialSize)`. -/
def ofSize (initialSize : ℕ) : MessageBuffer := ⟨0, 0, List.replicate initialSize 0⟩

/-- What a move leaves behind. -/
def moved : MessageBuffer := ⟨0, 0, []⟩

variable (b : MessageBuffer)

def reset : MessageBuffer := { b with wpos := 0, rpos := 0 }

def resize (bytes : ℕ) : MessageBuffer :=
  { b with storage := b.storage.take bytes ++ List.replicate (bytes - b.storage.length) 0 }

def readCompleted (bytes : ℕ) : MessageBuffer := { b with rpos := b.rpos + bytes }

def writeCompleted (bytes : ℕ) : MessageBuffer := { b with wpos := b.wpos + bytes }

def getActiveSize : ℕ := b.wpos - b.rpos

def getRemainingSpace : ℕ := b.storage.length - b.wpos

/-- The `size` bytes from `GetReadPointer` on. -/
def readBytes (size : ℕ) : List UInt8 := (b.storage.drop b.rpos).take size

/-- The bytes from `GetReadPointer` on are replaced by `data`. -/
def overwrite (data : List UInt8) : MessageBuffer :=
  { b with storage := b.storage.take b.rpos ++ data ++ b.storage.drop (b.rpos + data.length) }

def normalize : MessageBuffer :=
  if b.rpos = 0 then b
  else ⟨b.wpos - b.rpos, 0, b.readBytes b.getActiveSize ++ b.storage.drop b.getActiveSize⟩

def ensureFreeSpace : MessageBuffer :=
  if b.getRemainingSpace = 0 then b.resize (b.storage.length * 3 / 2) else b

def write (data : List UInt8) : Except Fault MessageBuffer :=
  if data = [] then .ok b
  else if b.wpos + data.length ≤ b.storage.length then
    .ok ({ b with
      storage := b.storage.take b.wpos ++ data ++ b.storage.drop (b.wpos + data.length)
      }.writeCompleted data.length)
  else .error .outOfBounds

end MessageBuffer

end Sunstrider.Network

/-!
## The socket of a session

`Socket.h` and `WorldSocket.cpp`, for the build of the server that does not define `LICH_KING`. A read
that was asked for is `reading`; the bytes that come in complete it. The handlers of packets are the
ones that answer `Ok`, and a packet that they get is in `received`. Host words are little-endian.

`decrypted`, `received`, `dequeued` and `sent` are a record of what went in and out. Logs, pings,
queries and the authentication are left out.
-/

namespace Sunstrider.Network

structure WorldPacket where
  opcode : ℕ
  contents : List UInt8
  deriving DecidableEq

structure EncryptablePacket extends WorldPacket where
  encrypt : Bool
  deriving DecidableEq

/-! ## Headers -/

def numOpcodeHandlers : ℕ := 0x424

namespace ClientPktHeader

/-- `sizeof(ClientPktHeader)`. -/
def byteSize : ℕ := 6

-- The fields of the packed bytes `d`, in host order.
variable (d : List UInt8)

def size : ℕ := (d.getD 0 0).toNat + 2 ^ 8 * (d.getD 1 0).toNat

def cmd : ℕ :=
  (d.getD 2 0).toNat + 2 ^ 8 * (d.getD 3 0).toNat + 2 ^ 16 * (d.getD 4 0).toNat +
    2 ^ 24 * (d.getD 5 0).toNat

def setSize (n : ℕ) : List UInt8 := UInt8.ofNat n :: UInt8.ofNat (n / 2 ^ 8) :: d.drop 2

/-- `EndianConvertReverse(size)`, which swaps the bytes of `size`. -/
def endianConvertReverse : List UInt8 → List UInt8
  | a :: b :: rest => b :: a :: rest
  | d => d

def IsValidSize : Prop := 4 ≤ size d ∧ size d < 10240

def IsValidOpcode : Prop := cmd d < numOpcodeHandlers

instance : Decidable (IsValidSize d) := inferInstanceAs (Decidable (_ ∧ _))

instance : Decidable (IsValidOpcode d) := inferInstanceAs (Decidable (_ < _))

end ClientPktHeader

/-- `ServerPktHeader(size, cmd)`, and its `getHeaderLength`. -/
def serverPktHeader (size cmd : ℕ) : List UInt8 :=
  [UInt8.ofNat (size / 2 ^ 8), UInt8.ofNat size, UInt8.ofNat cmd, UInt8.ofNat (cmd / 2 ^ 8)]

def getHeaderLength : ℕ := 4

/-! ## The state -/

structure WorldSocket (σ : Type) where
  readBuffer : MessageBuffer
  reading : Bool
  headerBuffer : MessageBuffer
  packetBuffer : MessageBuffer
  authCrypt : Option (AuthCrypt σ)
  bufferQueue : List EncryptablePacket
  sendBufferSize : ℕ
  writeQueue : List MessageBuffer
  closed : Bool
  closing : Bool
  isWritingAsync : Bool
  /-- What `DecryptRecv` was called on. -/
  decrypted : List (List UInt8)
  received : List WorldPacket
  dequeued : List EncryptablePacket
  /-- The bytes that the socket took. -/
  sent : List UInt8

namespace WorldSocket

variable {σ : Type}

def isOpen (s : WorldSocket σ) : Bool := !s.closed && !s.closing

def closeSocket (s : WorldSocket σ) : WorldSocket σ := { s with closed := true }

def delayedCloseSocket (s : WorldSocket σ) : WorldSocket σ := { s with closing := true }

/-! ## Receiving -/

def asyncRead (s : WorldSocket σ) : WorldSocket σ :=
  if s.isOpen then
    { s with
      readBuffer := s.readBuffer.normalize.ensureFreeSpace
      reading := true }
  else s

def readBlockSize : ℕ := 4096

/-- A socket with this cipher that was started: the constructor, and the first `AsyncRead`. -/
def start (authCrypt : Option (AuthCrypt σ)) : WorldSocket σ :=
  asyncRead
    { readBuffer := (MessageBuffer.ofSize 4096).resize readBlockSize
      reading := false
      headerBuffer := (MessageBuffer.ofSize 4096).resize ClientPktHeader.byteSize
      packetBuffer := .ofSize 4096
      authCrypt := authCrypt
      bufferQueue := []
      sendBufferSize := 4096
      writeQueue := []
      closed := false
      closing := false
      isWritingAsync := false
      decrypted := []
      received := []
      dequeued := []
      sent := [] }

/-- `ReadHandler` moves bytes from one buffer to another: as many as there are, and as there is room
for. -/
def transfer (src dst : MessageBuffer) : Except Fault (MessageBuffer × MessageBuffer) := do
  let size := min src.getActiveSize dst.getRemainingSpace
  let dst ← dst.write (src.readBytes size)
  return (src.readCompleted size, dst)

/-- How a round of the loop of `ReadHandler` ends. -/
inductive Next
  | again
  | leave
  | stop
  deriving DecidableEq

variable [ARC4 σ]

/-- The bytes of a header after `DecryptRecv`, and the cipher after it. -/
def decryptHeader : Option (AuthCrypt σ) → List UInt8 → List UInt8 × Option (AuthCrypt σ)
  | none, raw => (raw, none)
  | some c, raw => ((c.decryptRecv raw).1, some (c.decryptRecv raw).2)

def readHeaderHandler (s : WorldSocket σ) : Except Fault (WorldSocket σ × Bool) :=
  if s.headerBuffer.getActiveSize ≠ ClientPktHeader.byteSize then .error .assertion
  else
    let raw := s.headerBuffer.readBytes ClientPktHeader.byteSize
    let x := decryptHeader s.authCrypt raw
    let d := ClientPktHeader.endianConvertReverse x.1
    let s := { s with
      headerBuffer := s.headerBuffer.overwrite d
      authCrypt := x.2
      decrypted := if s.authCrypt.isSome then s.decrypted ++ [raw] else s.decrypted }
    if ¬ ClientPktHeader.IsValidSize d ∨ ¬ ClientPktHeader.IsValidOpcode d then .ok (s, false)
    else
      let d := ClientPktHeader.setSize d (ClientPktHeader.size d - 4)
      .ok ({ s with
        headerBuffer := s.headerBuffer.overwrite d
        packetBuffer := s.packetBuffer.resize (ClientPktHeader.size d) }, true)

omit [ARC4 σ] in
/-- `ReadDataHandler`, of an opcode whose handler answers `Ok`, and the `Reset` after it. -/
def readDataHandler (s : WorldSocket σ) : WorldSocket σ :=
  let d := s.headerBuffer.readBytes ClientPktHeader.byteSize
  { s with
    packetBuffer := .moved
    received := s.received ++ [⟨ClientPktHeader.cmd d, s.packetBuffer.storage⟩]
    headerBuffer := s.headerBuffer.reset }

omit [ARC4 σ] in
/-- The buffer that is collected has room left when the bytes are over. -/
def incomplete (s : WorldSocket σ) : Except Fault (WorldSocket σ × Next) :=
  if s.readBuffer.getActiveSize = 0 then .ok (s, .leave) else .error .assertion

omit [ARC4 σ] in
/-- The second half of a round, with the header complete. -/
def readPayload (s : WorldSocket σ) : Except Fault (WorldSocket σ × Next) :=
  if 0 < s.packetBuffer.getRemainingSpace then do
    let moved ← transfer s.readBuffer s.packetBuffer
    let s := { s with
      readBuffer := moved.1
      packetBuffer := moved.2 }
    if 0 < s.packetBuffer.getRemainingSpace then s.incomplete
    else return (s.readDataHandler, .again)
  else .ok (s.readDataHandler, .again)

/-- A round of the loop of `ReadHandler`. -/
def readRound (s : WorldSocket σ) : Except Fault (WorldSocket σ × Next) :=
  if 0 < s.headerBuffer.getRemainingSpace then do
    let moved ← transfer s.readBuffer s.headerBuffer
    let s := { s with
      readBuffer := moved.1
      headerBuffer := moved.2 }
    if 0 < s.headerBuffer.getRemainingSpace then s.incomplete
    else
      let header ← s.readHeaderHandler
      if header.2 then header.1.readPayload else return (header.1.closeSocket, .stop)
  else s.readPayload

/-- The loop of `ReadHandler`, and the next read that is asked for after it. -/
def readLoop : ℕ → WorldSocket σ → Except Fault (WorldSocket σ)
  | fuel, s =>
    if s.readBuffer.getActiveSize = 0 then .ok s.asyncRead
    else
      match fuel with
      | 0 => .error .endless
      | fuel + 1 => do
        let round ← s.readRound
        match round.2 with
        | .again => readLoop fuel round.1
        | .leave => return round.1.asyncRead
        | .stop => return round.1

def readHandler (s : WorldSocket σ) : Except Fault (WorldSocket σ) :=
  if s.isOpen then s.readLoop s.readBuffer.getActiveSize else .ok s

/-- `ReadHandlerInternal`, after a read that brought `data`. Bytes that no read asks for stay where
they are. -/
def readHandlerInternal (s : WorldSocket σ) (data : List UInt8) : Except Fault (WorldSocket σ) :=
  if s.reading then do
    let readBuffer ← s.readBuffer.write data
    readHandler { s with
      readBuffer := readBuffer
      reading := false }
  else .ok s

/-! ## Sending -/

omit [ARC4 σ] in
def sendPacket (s : WorldSocket σ) (packet : WorldPacket) : WorldSocket σ :=
  if s.isOpen then
    let encrypt := s.authCrypt.any AuthCrypt.isInitialized
    { s with bufferQueue := s.bufferQueue ++ [{ packet with encrypt := encrypt }] }
  else s

omit [ARC4 σ] in
def queuePacket (s : WorldSocket σ) (buffer : MessageBuffer) : WorldSocket σ :=
  { s with writeQueue := s.writeQueue ++ [buffer] }

/-- The header of a packet, and the cipher after it. -/
def headerOf (authCrypt : Option (AuthCrypt σ)) (queued : EncryptablePacket) :
    List UInt8 × Option (AuthCrypt σ) :=
  let header := serverPktHeader (queued.contents.length + 2) queued.opcode
  match authCrypt, queued.encrypt with
  | some c, true => ((c.encryptSend header).1, some (c.encryptSend header).2)
  | authCrypt, _ => (header, authCrypt)

/-- `Dequeue`, and the cipher as it is after the header of the packet. -/
def dequeue (s : WorldSocket σ) (queued : EncryptablePacket) (rest : List EncryptablePacket) :
    WorldSocket σ :=
  { s with
    bufferQueue := rest
    authCrypt := (headerOf s.authCrypt queued).2
    dequeued := s.dequeued ++ [queued] }

/-- The loop of `WorldSocket::Update` over the packets of the queue, with its local buffer. -/
def sendLoop : List EncryptablePacket → WorldSocket σ → MessageBuffer →
    Except Fault (WorldSocket σ × MessageBuffer)
  | [], s, buffer => .ok (s, buffer)
  | queued :: rest, s, buffer => do
    let header := (headerOf s.authCrypt queued).1
    let s := s.dequeue queued rest
    let size := queued.contents.length + getHeaderLength
    let full := buffer.getRemainingSpace < size
    let s := if full then s.queuePacket buffer else s
    let buffer := if full then MessageBuffer.moved.resize s.sendBufferSize else buffer
    if size ≤ buffer.getRemainingSpace then
      let buffer ← buffer.write header
      let buffer ← buffer.write queued.contents
      sendLoop rest s buffer
    else
      let packetBuffer ← (MessageBuffer.ofSize size).write header
      let packetBuffer ← packetBuffer.write queued.contents
      sendLoop rest (s.queuePacket packetBuffer) buffer

/-- What `write_some` does: it would block, or it takes at most `n + 1` bytes. -/
inductive Answer
  | wouldBlock
  | takes (n : ℕ)
  deriving DecidableEq

omit [ARC4 σ] in
def asyncProcessQueue (s : WorldSocket σ) : WorldSocket σ × Bool :=
  ({ s with isWritingAsync := true }, false)

omit [ARC4 σ] in
/-- `_writeQueue.pop()`, and the socket that waits for it is closed. -/
def popQueue (s : WorldSocket σ) : WorldSocket σ :=
  let s := { s with writeQueue := s.writeQueue.tail }
  if s.closing && s.writeQueue.isEmpty then s.closeSocket else s

omit [ARC4 σ] in
/-- `HandleQueue`, with the answer of the socket. -/
def handleQueue (s : WorldSocket σ) (answer : Answer) : WorldSocket σ × Bool :=
  match s.writeQueue with
  | [] => (s, false)
  | queuedMessage :: rest =>
    let bytesToSend := queuedMessage.getActiveSize
    match answer with
    | .wouldBlock => s.asyncProcessQueue
    | .takes n =>
      let bytesSent := min (n + 1) bytesToSend
      let s := { s with sent := s.sent ++ queuedMessage.readBytes bytesSent }
      if bytesSent = 0 then (s.popQueue, false)
      else if bytesSent < bytesToSend then
        { s with writeQueue := queuedMessage.readCompleted bytesSent :: rest }.asyncProcessQueue
      else (s.popQueue, !s.popQueue.writeQueue.isEmpty)

omit [ARC4 σ] in
/-- `for (; HandleQueue();)`, with the answers of the socket. After the last of them it would block. -/
def handleQueues : List Answer → WorldSocket σ → WorldSocket σ
  | [], s => (s.handleQueue .wouldBlock).1
  | answer :: answers, s =>
    let next := s.handleQueue answer
    if next.2 then handleQueues answers next.1 else next.1

def update (s : WorldSocket σ) (answers : List Answer) : Except Fault (WorldSocket σ) := do
  let (s, buffer) ← sendLoop s.bufferQueue s (MessageBuffer.ofSize s.sendBufferSize)
  let s := if 0 < buffer.getActiveSize then s.queuePacket buffer else s
  if s.closed || s.isWritingAsync || (s.writeQueue.isEmpty && !s.closing) then return s
  else return s.handleQueues answers

omit [ARC4 σ] in
/-- `WriteHandlerWrapper`, which runs when the socket that would block is ready. -/
def writeHandlerWrapper (s : WorldSocket σ) (answer : Answer) : WorldSocket σ :=
  if s.isWritingAsync then ({ s with isWritingAsync := false }.handleQueue answer).1 else s

/-- What is done with a socket to send. -/
inductive SendOp
  | sendPacket (packet : WorldPacket)
  | update (answers : List Answer)
  | writeReady (answer : Answer)
  | delayedClose
  | close
  deriving DecidableEq

def sendStep (s : WorldSocket σ) : SendOp → Except Fault (WorldSocket σ)
  | .sendPacket packet => .ok (s.sendPacket packet)
  | .update answers => s.update answers
  | .writeReady answer => .ok (s.writeHandlerWrapper answer)
  | .delayedClose => .ok s.delayedCloseSocket
  | .close => .ok s.closeSocket

end WorldSocket

end Sunstrider.Network
