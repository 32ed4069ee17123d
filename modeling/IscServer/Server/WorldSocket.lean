import IscServer.Networking.Socket

/-!
# World Sockets

`WorldSocket` (`game/Server/WorldSocket.h`, `WorldSocket.cpp`): the connection of a game client.
`readHandler` cuts the received bytes into packets; `update` merges queued packets into write
buffers and hands them to the base class.

`WorldPacketCrypt` is a parameter: a state `κ` with the two keystreams as functions on it. The
dispatch of a packet in `ReadDataHandler` is a parameter too, a function of the packets received
so far. Next to the fields of the source, `WorldSocket` records what has passed through it: the
client headers and packets received, whether an `ASSERT` has failed, the packets accepted for
sending, and the bytes of those that `Update` has taken from the packet queue.
-/

namespace IscServer

/-- `WorldPacketCrypt`: header encryption with a keystream for each direction, in place. -/
structure PacketCrypt (κ : Type) where
  isInitialized : κ → Bool
  decryptRecv : κ → List UInt8 → List UInt8 × κ
  encryptSend : κ → List UInt8 → List UInt8 × κ
  length_encryptSend : ∀ k bs, (encryptSend k bs).1.length = bs.length

/-- `WorldPacket`: an opcode and the bytes of its `ByteBuffer`. -/
structure WorldPacket where
  opcode : ℕ
  contents : List UInt8
  deriving DecidableEq, Repr

/-- `EncryptablePacket`. -/
structure EncryptablePacket extends WorldPacket where
  encrypt : Bool
  deriving DecidableEq, Repr

/-- `ClientPktHeader`. -/
structure ClientPktHeader where
  size : ℕ
  cmd : ℕ
  deriving DecidableEq, Repr

namespace ClientPktHeader

/-- `sizeof(ClientPktHeader)`. -/
def byteSize : ℕ := 6

/-- `NUM_OPCODE_HANDLERS`. -/
def numOpcodeHandlers : ℕ := 0x51F

/-- `IsValidSize`. -/
def isValidSize (h : ClientPktHeader) : Bool :=
  4 ≤ h.size ∧ h.size < 10240

/-- `IsValidOpcode`. -/
def isValidOpcode (h : ClientPktHeader) : Bool :=
  h.cmd < numOpcodeHandlers

/-- The header as the wire has it: a big-endian size and a little-endian command. -/
def ofWire (bytes : List UInt8) : ClientPktHeader where
  size := (bytes.getD 0 0).toNat * 256 + (bytes.getD 1 0).toNat
  cmd := (bytes.getD 2 0).toNat + (bytes.getD 3 0).toNat * 256 + (bytes.getD 4 0).toNat * 256 ^ 2 +
    (bytes.getD 5 0).toNat * 256 ^ 3

/-- The header as the memory of a little-endian host has it. -/
def toMemory (h : ClientPktHeader) : List UInt8 :=
  [UInt8.ofNat h.size, UInt8.ofNat (h.size / 256), UInt8.ofNat h.cmd, UInt8.ofNat (h.cmd / 256),
    UInt8.ofNat (h.cmd / 256 ^ 2), UInt8.ofNat (h.cmd / 256 ^ 3)]

/-- The command field of a header in memory. -/
def cmdOfMemory (bytes : List UInt8) : ℕ :=
  (bytes.getD 2 0).toNat + (bytes.getD 3 0).toNat * 256 + (bytes.getD 4 0).toNat * 256 ^ 2 +
    (bytes.getD 5 0).toNat * 256 ^ 3

theorem length_toMemory (h : ClientPktHeader) : h.toMemory.length = byteSize := rfl

variable {h : ClientPktHeader}

theorem cmdOfMemory_toMemory (hcmd : h.cmd < 256 ^ 4) : cmdOfMemory h.toMemory = h.cmd := by
  simp only [cmdOfMemory, toMemory, List.getD_cons_succ, List.getD_cons_zero, UInt8.toNat_ofNat']
  omega

theorem isValidOpcode.lt (hv : h.isValidOpcode = true) : h.cmd < 256 ^ 4 := by
  have : h.cmd < numOpcodeHandlers := by simpa [isValidOpcode] using hv
  exact Nat.lt_trans this (by decide)

theorem isValidSize.bounds (hv : h.isValidSize = true) : 4 ≤ h.size ∧ h.size < 10240 := by
  simpa [isValidSize] using hv

end ClientPktHeader

/-- `ServerPktHeader`; the size counts the opcode. -/
structure ServerPktHeader where
  size : ℕ
  cmd : ℕ
  deriving DecidableEq, Repr

namespace ServerPktHeader

/-- `ServerPktHeader(queued->size() + 2, queued->GetOpcode())`: a `uint32` and a `uint16`. -/
def ofPacket (p : WorldPacket) : ServerPktHeader :=
  ⟨(p.contents.length + 2) % 2 ^ 32, p.opcode % 2 ^ 16⟩

/-- `isLargePacket`. -/
def isLargePacket (h : ServerPktHeader) : Bool :=
  h.size > 0x7FFF

/-- `getHeaderLength`. -/
def getHeaderLength (h : ServerPktHeader) : ℕ :=
  2 + if h.isLargePacket then 3 else 2

/-- The bytes of the header. -/
def header (h : ServerPktHeader) : List UInt8 :=
  (if h.isLargePacket then [0x80 ||| UInt8.ofNat (h.size / 2 ^ 16)] else []) ++
    [UInt8.ofNat (h.size / 2 ^ 8), UInt8.ofNat h.size, UInt8.ofNat h.cmd,
      UInt8.ofNat (h.cmd / 2 ^ 8)]

theorem length_header (h : ServerPktHeader) : h.header.length = h.getHeaderLength := by
  rw [header, getHeaderLength]
  split_ifs <;> rfl

end ServerPktHeader

/-- `ReadDataHandlerResult`. -/
inductive ReadDataHandlerResult where
  | ok
  | error
  | waitingForQuery
  deriving DecidableEq, Repr

/-- `WorldSocket`. -/
structure WorldSocket (κ : Type) where
  socket : Socket := {}
  headerBuffer : MessageBuffer := (MessageBuffer.ofSize 4096).resize ClientPktHeader.byteSize
  packetBuffer : MessageBuffer := .ofSize 4096
  authCrypt : κ
  bufferQueue : List EncryptablePacket := []
  sendBufferSize : ℕ := 4096
  headers : List ClientPktHeader := []
  received : List WorldPacket := []
  assertFailed : Bool := false
  accepted : List EncryptablePacket := []
  frames : List (List UInt8) := []

namespace WorldSocket

variable {κ : Type}

/-! ### Receiving -/

/-- `ASSERT`. -/
def assert (ws : WorldSocket κ) (c : Prop) [Decidable c] : WorldSocket κ :=
  { ws with assertFailed := ws.assertFailed || !decide c }

/-- The read buffer of the base class. -/
def readBuffer (ws : WorldSocket κ) : MessageBuffer :=
  ws.socket.readBuffer

/-- `packet.ReadCompleted(bytes)` on the read buffer. -/
def readCompleted (ws : WorldSocket κ) (bytes : ℕ) : WorldSocket κ :=
  { ws with socket := { ws.socket with readBuffer := ws.socket.readBuffer.readCompleted bytes } }

/-- `CloseSocket` of the base class. -/
def closeSocket (ws : WorldSocket κ) : WorldSocket κ :=
  { ws with socket := ws.socket.closeSocket }

/-- `ReadHeaderHandler`. -/
def readHeaderHandler (C : PacketCrypt κ) (ws : WorldSocket κ) : Bool × WorldSocket κ :=
  let ws := ws.assert (ws.headerBuffer.activeSize = ClientPktHeader.byteSize)
  let raw := ws.headerBuffer.fromReadPointer.take ClientPktHeader.byteSize
  let plain := if C.isInitialized ws.authCrypt then C.decryptRecv ws.authCrypt raw else
    (raw, ws.authCrypt)
  let header := ClientPktHeader.ofWire plain.1
  let ws := { ws with authCrypt := plain.2 }
  if !header.isValidSize || !header.isValidOpcode then (false, ws)
  else
    (true, { ws with
      headerBuffer := { ws.headerBuffer with
        storage := ClientPktHeader.toMemory { header with size := header.size - 4 } }
      packetBuffer := ws.packetBuffer.resize (header.size - 4)
      headers := ws.headers ++ [header] })

/-- `ReadDataHandler`: the packet takes the storage of the packet buffer. -/
def readDataHandler (handler : List WorldPacket → ReadDataHandlerResult) (ws : WorldSocket κ) :
    ReadDataHandlerResult × WorldSocket κ :=
  let opcode := ClientPktHeader.cmdOfMemory ws.headerBuffer.fromReadPointer
  let received := ws.received ++ [⟨opcode, ws.packetBuffer.storage⟩]
  (handler received, { ws with packetBuffer := .moved, received })

/-- The first part of the loop body of `ReadHandler`: complete the header. -/
def receiveHeader (C : PacketCrypt κ) (ws : WorldSocket κ) : Flow × WorldSocket κ :=
  if ws.headerBuffer.remainingSpace > 0 then
    let readHeaderSize := min ws.readBuffer.activeSize ws.headerBuffer.remainingSpace
    let ws := { ws with
      headerBuffer := ws.headerBuffer.write (ws.readBuffer.fromReadPointer.take readHeaderSize) }
    let ws := ws.readCompleted readHeaderSize
    if ws.headerBuffer.remainingSpace > 0 then (.wait, ws.assert (ws.readBuffer.activeSize = 0))
    else
      let r := ws.readHeaderHandler C
      if r.1 then (.next, r.2) else (.stop, r.2.closeSocket)
  else (.next, ws)

/-- The second part: complete the payload. -/
def receivePayload (ws : WorldSocket κ) : Flow × WorldSocket κ :=
  if ws.packetBuffer.remainingSpace > 0 then
    let readDataSize := min ws.readBuffer.activeSize ws.packetBuffer.remainingSpace
    let ws := { ws with
      packetBuffer := ws.packetBuffer.write (ws.readBuffer.fromReadPointer.take readDataSize) }
    let ws := ws.readCompleted readDataSize
    if ws.packetBuffer.remainingSpace > 0 then (.wait, ws.assert (ws.readBuffer.activeSize = 0))
    else (.next, ws)
  else (.next, ws)

/-- The third part: handle the packet. -/
def handlePacket (handler : List WorldPacket → ReadDataHandlerResult) (ws : WorldSocket κ) :
    Flow × WorldSocket κ :=
  let r := ws.readDataHandler handler
  let ws := { r.2 with headerBuffer := r.2.headerBuffer.reset }
  match r.1 with
  | .ok => (.next, ws)
  | .waitingForQuery => (.stop, ws)
  | .error => (.stop, ws.closeSocket)

/-- The loop body of `ReadHandler`. -/
def readBody (C : PacketCrypt κ) (handler : List WorldPacket → ReadDataHandlerResult)
    (ws : WorldSocket κ) : Flow × WorldSocket κ :=
  let h := ws.receiveHeader C
  if h.1 = .next then
    let p := h.2.receivePayload
    if p.1 = .next then p.2.handlePacket handler else p
  else h

/-- The loop of `ReadHandler`, for at most `fuel` rounds. Every round takes a byte out of the
read buffer, so a round for each byte is enough (`readLoop_spec`). -/
def readLoop (C : PacketCrypt κ) (handler : List WorldPacket → ReadDataHandlerResult) :
    ℕ → WorldSocket κ → ReadCallbackResult × WorldSocket κ
  | 0, ws => (.keepReading, ws)
  | fuel + 1, ws =>
    if ws.readBuffer.activeSize > 0 then
      let r := ws.readBody C handler
      match r.1 with
      | .next => readLoop C handler fuel r.2
      | .wait => (.keepReading, r.2)
      | .stop => (.stop, r.2)
    else (.keepReading, ws)

/-- `ReadHandler`. -/
def readHandler (C : PacketCrypt κ) (handler : List WorldPacket → ReadDataHandlerResult)
    (ws : WorldSocket κ) : ReadCallbackResult × WorldSocket κ :=
  readLoop C handler ws.readBuffer.activeSize ws

/-- The completion of a read of `chunk`, as long as reads are requested. -/
def onRead (C : PacketCrypt κ) (handler : List WorldPacket → ReadDataHandlerResult)
    (ws : WorldSocket κ) (chunk : List UInt8) : WorldSocket κ :=
  if ws.socket.isOpen then
    let r := ws.socket.readHandlerInternal false chunk
    let ws := { ws with socket := r.2 }
    if r.1 then
      let h := ws.readHandler C handler
      match h.1 with
      | .keepReading => { h.2 with socket := h.2.socket.asyncRead }
      | .stop => h.2
    else ws
  else ws

/-! ### Sending -/

/-- `SendPacket`. -/
def sendPacket (C : PacketCrypt κ) (ws : WorldSocket κ) (packet : WorldPacket) : WorldSocket κ :=
  if ws.socket.isOpen then
    let queued : EncryptablePacket := { packet with encrypt := C.isInitialized ws.authCrypt }
    { ws with bufferQueue := ws.bufferQueue ++ [queued], accepted := ws.accepted ++ [queued] }
  else ws

/-- The header of a queued packet, encrypted if the packet needs it. -/
def packetHeader (C : PacketCrypt κ) (ws : WorldSocket κ) (queued : EncryptablePacket) :
    List UInt8 × κ :=
  let header := (ServerPktHeader.ofPacket queued.toWorldPacket).header
  if queued.encrypt then C.encryptSend ws.authCrypt header else (header, ws.authCrypt)

/-- The loop body of `Update`: put a queued packet into `buffer`, or into a buffer of its own
when it is too large. -/
def mergePacket (C : PacketCrypt κ) (r : WorldSocket κ × MessageBuffer)
    (queued : EncryptablePacket) :
    WorldSocket κ × MessageBuffer :=
  let header := r.1.packetHeader C queued
  let ws := { r.1 with
    authCrypt := header.2
    frames := r.1.frames ++ [header.1 ++ queued.contents] }
  let total := queued.contents.length +
    (ServerPktHeader.ofPacket queued.toWorldPacket).getHeaderLength
  let flushed : WorldSocket κ × MessageBuffer :=
    if r.2.remainingSpace < total then
      ({ ws with socket := ws.socket.queuePacket r.2 },
        MessageBuffer.moved.resize ws.sendBufferSize)
    else (ws, r.2)
  if flushed.2.remainingSpace ≥ total then
    (flushed.1, (flushed.2.write header.1).write queued.contents)
  else
    let packetBuffer := ((MessageBuffer.ofSize total).write header.1).write queued.contents
    ({ flushed.1 with socket := flushed.1.socket.queuePacket packetBuffer }, flushed.2)

/-- The first part of `Update`: move the packet queue to the write queue. -/
def mergeQueue (C : PacketCrypt κ) (ws : WorldSocket κ) : WorldSocket κ :=
  if ws.bufferQueue = [] then ws
  else
    let r := ws.bufferQueue.foldl (mergePacket C)
      ({ ws with bufferQueue := [] }, MessageBuffer.ofSize ws.sendBufferSize)
    if r.2.activeSize > 0 then { r.1 with socket := r.1.socket.queuePacket r.2 } else r.1

/-- `Update`, up to the query callbacks, which are steps of their own. -/
def update (C : PacketCrypt κ) (net : ℕ → WriteResult) (ws : WorldSocket κ) :
    Bool × WorldSocket κ :=
  let ws := ws.mergeQueue C
  let r := ws.socket.update net
  (r.1, { ws with socket := r.2 })

/-- The steps of a world socket that matter for sending. A read that ends in `CloseSocket` is
the step `closeSocket`; `initCrypt` is the initialization of the keystreams after the
authentication of the client. -/
inductive Op (κ : Type) where
  | sendPacket (packet : WorldPacket)
  | initCrypt (authCrypt : κ)
  | closeSocket
  | delayedCloseSocket
  | update
  | writeReady
  | readError

/-- One step. -/
def step (C : PacketCrypt κ) (net : ℕ → WriteResult) (ws : WorldSocket κ) : Op κ → WorldSocket κ
  | .sendPacket packet => ws.sendPacket C packet
  | .initCrypt authCrypt => { ws with authCrypt }
  | .closeSocket => ws.closeSocket
  | .delayedCloseSocket => { ws with socket := ws.socket.delayedCloseSocket }
  | .update => (ws.update C net).2
  | .writeReady => { ws with socket := ws.socket.writeHandlerWrapper net }
  | .readError => { ws with socket := (ws.socket.readHandlerInternal true []).2 }

end WorldSocket

end IscServer
