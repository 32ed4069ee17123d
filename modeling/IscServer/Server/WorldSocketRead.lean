import IscServer.Server.WorldSocket

/-!
# Parsing Does Not Depend on the Chunks

TCP delivers a byte stream in chunks of its own choosing, and `WorldSocket::ReadHandler` keeps
partial headers and payloads in two buffers between them. This module compares it with a
machine that takes one byte at a time and has no buffers at all, `PacketParser`. Each read
completion is, seen through `abs`, the fold of that machine over the bytes of its chunk
(`onRead_refines`), so the cutting of the stream cannot be observed.

## Main results

* `readLoop_spec`: `ReadHandler` consumes the whole read buffer or closes the socket, and its
  `ASSERT`s hold.
* `onRead_refines`: a read completion refines the byte machine.
* `onRead_chunking`: **any two cuttings of a stream deliver the same packets and close the
  socket at the same place**; every payload has the announced size.
-/

namespace IscServer

open List

/-- A parser of client packets that is fed byte by byte: the bytes of an incomplete header, or
the opcode, the size and the bytes so far of an incomplete payload. -/
structure PacketParser (κ : Type) where
  header : List UInt8 := []
  pending : Option (ℕ × ℕ × List UInt8) := none
  authCrypt : κ
  headers : List ClientPktHeader := []
  received : List WorldPacket := []
  closed : Bool := false

namespace PacketParser

variable {κ : Type} (C : PacketCrypt κ) (handler : List WorldPacket → ReadDataHandlerResult)

/-- Hand a packet to the data handler. -/
def deliver (p : PacketParser κ) (opcode : ℕ) (payload : List UInt8) : PacketParser κ :=
  let received := p.received ++ [⟨opcode, payload⟩]
  { p with pending := none, received, closed := handler received ≠ .ok }

/-- Read a complete header. -/
def acceptHeader (p : PacketParser κ) (raw : List UInt8) : PacketParser κ :=
  let plain := if C.isInitialized p.authCrypt then C.decryptRecv p.authCrypt raw else
    (raw, p.authCrypt)
  let header := ClientPktHeader.ofWire plain.1
  let p := { p with header := [], pending := none, authCrypt := plain.2 }
  if !header.isValidSize || !header.isValidOpcode then { p with closed := true }
  else
    let p := { p with headers := p.headers ++ [header] }
    if header.size - 4 = 0 then p.deliver handler header.cmd []
    else { p with pending := some (header.cmd, header.size - 4, []) }

/-- Take one byte. -/
def byte (p : PacketParser κ) (b : UInt8) : PacketParser κ :=
  if p.closed then p
  else
    match p.pending with
    | none =>
      let raw := p.header ++ [b]
      if raw.length < ClientPktHeader.byteSize then { p with header := raw }
      else p.acceptHeader C handler raw
    | some (opcode, need, got) =>
      let got := got ++ [b]
      if got.length < need then { p with pending := some (opcode, need, got) }
      else p.deliver handler opcode got

variable {p : PacketParser κ}

/-- A closed parser ignores its input. -/
theorem foldl_byte_closed (h : p.closed = true) (bs : List UInt8) :
    bs.foldl (byte C handler) p = p := by
  induction bs with
  | nil => rfl
  | cons b bs ih =>
    have hb : byte C handler p b = p := if_pos h
    rw [foldl_cons, hb, ih]

section

variable {σ : Type*} {f : σ → UInt8 → σ} {g complete : List UInt8 → σ} {need : ℕ} {got : List UInt8}
  (hbyte : ∀ got b, f (g got) b = if (got ++ [b]).length < need then g (got ++ [b]) else
    complete (got ++ [b])) (bs : List UInt8)
include hbyte

/-- Bytes are gathered until there are enough. -/
theorem foldl_gather (hlen : got.length + bs.length < need) :
    bs.foldl f (g got) = g (got ++ bs) := by
  induction bs generalizing got with
  | nil => rw [append_nil, foldl_nil]
  | cons b bs ih =>
    rw [length_cons] at hlen
    have hshort : (got ++ [b]).length < need := by
      rw [length_append, length_singleton]
      omega
    rw [foldl_cons, hbyte, if_pos hshort, ih (by rw [length_append, length_singleton]; omega),
      append_assoc, singleton_append]

/-- The last byte completes them. -/
theorem foldl_complete (hne : bs ≠ []) (hlen : got.length + bs.length = need) :
    bs.foldl f (g got) = complete (got ++ bs) := by
  obtain ⟨bs, b, rfl⟩ := eq_nil_or_concat bs |>.resolve_left hne
  rw [concat_eq_append] at hlen ⊢
  rw [length_append, length_singleton] at hlen
  have hfull : ¬ (got ++ bs ++ [b]).length < need := by
    rw [length_append, length_append, length_singleton]
    omega
  rw [foldl_append, foldl_gather hbyte bs (by omega), foldl_cons, foldl_nil, hbyte, if_neg hfull,
    append_assoc]

end

section

variable (hc : p.closed = false)
include hc

section

variable (hp : p.pending = none) (bs : List UInt8)
include hp

theorem byte_header (raw : List UInt8) (b : UInt8) :
    byte C handler { p with header := raw } b =
      if (raw ++ [b]).length < ClientPktHeader.byteSize then { p with header := raw ++ [b] }
      else p.acceptHeader C handler (raw ++ [b]) := by
  simp only [byte, acceptHeader, hc, hp, Bool.false_eq_true, if_false]

/-- Bytes that do not complete the header. -/
theorem foldl_byte_header (hlen : p.header.length + bs.length < ClientPktHeader.byteSize) :
    bs.foldl (byte C handler) p = { p with header := p.header ++ bs } :=
  foldl_gather (g := fun raw => { p with header := raw }) (byte_header C handler hc hp) bs hlen

/-- Bytes that complete the header. -/
theorem foldl_byte_acceptHeader (hne : bs ≠ [])
    (hlen : p.header.length + bs.length = ClientPktHeader.byteSize) :
    bs.foldl (byte C handler) p = p.acceptHeader C handler (p.header ++ bs) :=
  foldl_complete (g := fun raw => { p with header := raw }) (byte_header C handler hc hp) bs hne hlen

end

variable {opcode need : ℕ} {got : List UInt8}

theorem byte_payload (got : List UInt8) (b : UInt8) :
    byte C handler { p with pending := some (opcode, need, got) } b =
      if (got ++ [b]).length < need then { p with pending := some (opcode, need, got ++ [b]) }
      else p.deliver handler opcode (got ++ [b]) := by
  simp only [byte, deliver, hc, Bool.false_eq_true, if_false]

variable (hp : p.pending = some (opcode, need, got)) (bs : List UInt8)
include hp

/-- Bytes that do not complete the payload. -/
theorem foldl_byte_payload (hlen : got.length + bs.length < need) :
    bs.foldl (byte C handler) p = { p with pending := some (opcode, need, got ++ bs) } := by
  rw [← foldl_gather (byte_payload C handler hc) bs hlen, ← hp]

/-- Bytes that complete the payload. -/
theorem foldl_byte_deliver (hne : bs ≠ []) (hlen : got.length + bs.length = need) :
    bs.foldl (byte C handler) p = p.deliver handler opcode (got ++ bs) := by
  rw [← foldl_complete (byte_payload C handler hc) bs hne hlen, ← hp]

end

/-! ### Packets match their headers -/

/-- A packet has the opcode and the size that the header announces. -/
def Announces (h : ClientPktHeader) (p : WorldPacket) : Prop :=
  p.opcode = h.cmd ∧ p.contents.length + 4 = h.size

/-- All packets match the headers in order; a pending one will match the last header. -/
def Sound (p : PacketParser κ) : Prop :=
  match p.pending with
  | none => List.Forall₂ Announces p.headers p.received
  | some (opcode, need, got) => got.length < need ∧ ∃ hs, List.Forall₂ Announces hs p.received ∧
      p.headers = hs ++ [⟨need + 4, opcode⟩]

theorem Sound.forall₂_take (h : p.Sound) :
    List.Forall₂ Announces (p.headers.take p.received.length) p.received := by
  rw [Sound] at h
  split at h
  · rwa [← h.length_eq, take_length]
  · obtain ⟨-, hs, hall, heq⟩ := h
    rwa [heq, ← hall.length_eq, take_left]

/-- Delivering a packet that its header announces. -/
theorem sound_deliver {hs : List ClientPktHeader} {h : ClientPktHeader}
    (hall : List.Forall₂ Announces hs p.received) (heq : p.headers = hs ++ [h])
    {payload : List UInt8} (hlen : payload.length + 4 = h.size) :
    (p.deliver handler h.cmd payload).Sound := by
  have hp : Announces h ⟨h.cmd, payload⟩ := ⟨rfl, hlen⟩
  simp only [deliver, heq]
  exact rel_append hall (List.Forall₂.cons hp List.Forall₂.nil)

/-- A complete header announces the next packet. -/
theorem sound_acceptHeader (hall : List.Forall₂ Announces p.headers p.received) (raw : List UInt8) :
    (p.acceptHeader C handler raw).Sound := by
  simp only [acceptHeader]
  set plain := if C.isInitialized p.authCrypt then C.decryptRecv p.authCrypt raw else
    (raw, p.authCrypt)
  set header := ClientPktHeader.ofWire plain.1
  split_ifs with hvalid hempty
  · exact hall
  · simp only [Bool.or_eq_true, Bool.not_eq_true', not_or, Bool.not_eq_false] at hvalid
    obtain ⟨hmin, -⟩ := ClientPktHeader.isValidSize.bounds hvalid.1
    have hlen : ([] : List UInt8).length + 4 = header.size := by
      simp only [length_nil]
      omega
    exact sound_deliver handler (p := { p with
      header := [], pending := none, authCrypt := plain.2, headers := p.headers ++ [header] })
      (h := header) hall rfl hlen
  · simp only [Bool.or_eq_true, Bool.not_eq_true', not_or, Bool.not_eq_false] at hvalid
    obtain ⟨hmin, -⟩ := ClientPktHeader.isValidSize.bounds hvalid.1
    refine ⟨Nat.pos_of_ne_zero hempty, p.headers, hall, ?_⟩
    have heta : header = ⟨header.size - 4 + 4, header.cmd⟩ := by
      rw [Nat.sub_add_cancel hmin]
    rw [← heta]

/-- **One byte** keeps packets and headers in line. -/
theorem sound_byte (h : p.Sound) (b : UInt8) : (p.byte C handler b).Sound := by
  rw [byte]
  by_cases hclosed : p.closed = true
  · rwa [if_pos hclosed]
  cases hp : p.pending with
  | none =>
    have hall : List.Forall₂ Announces p.headers p.received := by simpa [Sound, hp] using h
    dsimp only
    split_ifs with hlen
    · simpa [Sound] using hall
    · exact sound_acceptHeader C handler hall _
  | some pending =>
    obtain ⟨opcode, need, got⟩ := pending
    obtain ⟨hlt, hs, hall, heq⟩ : got.length < need ∧ ∃ hs, List.Forall₂ Announces hs p.received ∧
        p.headers = hs ++ [⟨need + 4, opcode⟩] := by simpa [Sound, hp] using h
    dsimp only
    split_ifs with hlen
    · exact ⟨hlen, hs, hall, heq⟩
    · refine sound_deliver handler (h := ⟨need + 4, opcode⟩) hall heq ?_
      simp only [length_append, length_cons, length_nil] at hlen ⊢
      omega

/-- A whole stream keeps packets and headers in line. -/
theorem sound_foldl_byte (h : p.Sound) (bs : List UInt8) : (bs.foldl (byte C handler) p).Sound := by
  induction bs generalizing p with
  | nil => exact h
  | cons b bs ih => exact ih (sound_byte C handler h b)

end PacketParser

namespace WorldSocket

variable {κ : Type} {C : PacketCrypt κ} {handler : List WorldPacket → ReadDataHandlerResult}

/-! ### The states of the reader -/

/-- What holds of a socket that is receiving: it is open, its buffers are in order, and no
`ASSERT` has failed. -/
structure Receiving (ws : WorldSocket κ) : Prop where
  isOpen : ws.socket.openState = Socket.openStateOpen
  read : ws.readBuffer.Ordered
  header_rpos : ws.headerBuffer.rpos = 0
  header_length : ws.headerBuffer.storage.length = ClientPktHeader.byteSize
  packet_rpos : ws.packetBuffer.rpos = 0
  no_assert : ws.assertFailed = false

/-- The header is incomplete. -/
structure AtHeader (ws : WorldSocket κ) : Prop extends Receiving ws where
  header_wpos : ws.headerBuffer.wpos < ClientPktHeader.byteSize
  packet_wpos : ws.packetBuffer.wpos = 0

/-- The header is complete. -/
structure AtPayload (ws : WorldSocket κ) : Prop extends Receiving ws where
  header_wpos : ws.headerBuffer.wpos = ClientPktHeader.byteSize
  packet_wpos : ws.packetBuffer.wpos ≤ ws.packetBuffer.storage.length

/-- Between two rounds of the loop, the header or the payload is incomplete. -/
def Reading (ws : WorldSocket κ) : Prop :=
  AtHeader ws ∨ (AtPayload ws ∧ ws.packetBuffer.wpos < ws.packetBuffer.storage.length)

/-- The opcode in the header buffer. -/
def opcode (ws : WorldSocket κ) : ℕ :=
  ClientPktHeader.cmdOfMemory ws.headerBuffer.fromReadPointer

/-- The byte machine between two packets. -/
def core (ws : WorldSocket κ) : PacketParser κ :=
  { authCrypt := ws.authCrypt, headers := ws.headers, received := ws.received }

/-- The byte machine that a world socket stands for. -/
def abs (ws : WorldSocket κ) : PacketParser κ :=
  if ws.socket.hasClosedBit then { ws.core with closed := true }
  else if ws.headerBuffer.wpos < ClientPktHeader.byteSize then
    { ws.core with header := ws.headerBuffer.active }
  else
    { ws.core with
      pending := some (ws.opcode, ws.packetBuffer.storage.length, ws.packetBuffer.active) }

variable {ws : WorldSocket κ}

theorem Receiving.not_hasClosedBit (h : Receiving ws) : ¬ ws.socket.hasClosedBit :=
  Socket.NotClosed.not_hasClosedBit (Or.inl h.isOpen)

theorem AtHeader.abs_eq (h : AtHeader ws) :
    ws.abs = { ws.core with header := ws.headerBuffer.active } := by
  rw [abs, if_neg h.not_hasClosedBit, if_pos h.header_wpos]

theorem AtPayload.abs_eq (h : AtPayload ws) :
    ws.abs = { ws.core with
      pending := some (ws.opcode, ws.packetBuffer.storage.length, ws.packetBuffer.active) } := by
  rw [abs, if_neg h.not_hasClosedBit, if_neg (by rw [h.header_wpos]; exact Nat.lt_irrefl _)]

theorem abs_of_closed (h : ws.socket.hasClosedBit) : ws.abs = { ws.core with closed := true } :=
  if_pos h

theorem hasClosedBit_closeSocket (h : ws.socket.openState = Socket.openStateOpen) :
    ws.closeSocket.socket.hasClosedBit :=
  (Socket.closeSocket_outcome (Or.inl h)).sets trivial

theorem AtHeader.header_ordered (h : AtHeader ws) : ws.headerBuffer.Ordered := by
  have hw := h.header_wpos
  exact ⟨by rw [h.header_rpos]; exact Nat.zero_le _, by rw [h.header_length]; omega⟩

theorem AtPayload.packet_ordered (h : AtPayload ws) : ws.packetBuffer.Ordered :=
  ⟨by rw [h.packet_rpos]; exact Nat.zero_le _, h.packet_wpos⟩

/-! ### The parts of the loop body -/

theorem readBuffer_closeSocket (ws : WorldSocket κ) : ws.closeSocket.readBuffer = ws.readBuffer :=
  Socket.readBuffer_closeSocket ws.socket

/-- **Handling a packet** delivers the payload and makes room for the next header, or closes
the socket. -/
theorem handlePacket_spec (hhandler : ∀ ps, handler ps ≠ .waitingForQuery) (h : AtPayload ws) :
    (ws.handlePacket handler).2.readBuffer = ws.readBuffer ∧
      (ws.handlePacket handler).2.assertFailed = false ∧
      (ws.handlePacket handler).2.abs = ws.core.deliver handler ws.opcode ws.packetBuffer.storage ∧
      ((ws.handlePacket handler).1 = .next ∧ AtHeader (ws.handlePacket handler).2 ∨
        (ws.handlePacket handler).1 = .stop ∧ (ws.handlePacket handler).2.socket.hasClosedBit) := by
  set received := ws.received ++ [⟨ws.opcode, ws.packetBuffer.storage⟩] with hrec
  set ws' : WorldSocket κ :=
    { ws with packetBuffer := .moved, received, headerBuffer := ws.headerBuffer.reset } with hws'
  have hrecv : Receiving ws' := ⟨h.isOpen, h.read, rfl, h.header_length, rfl, h.no_assert⟩
  have hread : ws.readDataHandler handler =
      (handler received, { ws with packetBuffer := .moved, received }) := rfl
  cases hres : handler received with
  | ok =>
    have heq : ws.handlePacket handler = (.next, ws') := by
      simp only [handlePacket, hread, hres, hws']
    have hhead : AtHeader ws' := ⟨hrecv, Nat.zero_lt_succ _, rfl⟩
    have hnil : ws'.headerBuffer.active = [] := by
      rfl
    rw [heq]
    refine ⟨rfl, h.no_assert, ?_, Or.inl ⟨rfl, hhead⟩⟩
    rw [hhead.abs_eq, hnil]
    simp [PacketParser.deliver, core, hws', ← hrec, hres]
  | error =>
    have heq : ws.handlePacket handler = (.stop, ws'.closeSocket) := by
      simp only [handlePacket, hread, hres, hws']
    have hbit := hasClosedBit_closeSocket hrecv.isOpen
    rw [heq]
    refine ⟨readBuffer_closeSocket ws', h.no_assert, ?_, Or.inr ⟨rfl, hbit⟩⟩
    rw [abs_of_closed hbit]
    simp [PacketParser.deliver, core, closeSocket, hws', ← hrec, hres]
  | waitingForQuery => exact absurd hres (hhandler _)

/-- The machine that a socket with a complete header stands for: a payload that is complete too
has been delivered. -/
def settled (handler : List WorldPacket → ReadDataHandlerResult) (ws : WorldSocket κ) :
    PacketParser κ :=
  if ws.packetBuffer.wpos < ws.packetBuffer.storage.length then ws.abs
  else ws.core.deliver handler ws.opcode ws.packetBuffer.storage

theorem settled_of_complete (h : ws.packetBuffer.wpos = ws.packetBuffer.storage.length) :
    ws.settled handler = ws.core.deliver handler ws.opcode ws.packetBuffer.storage :=
  if_neg (by rw [h]; exact Nat.lt_irrefl _)

/-- **Completing the payload**: the bytes taken are fed to the machine; when the payload stays
incomplete, they are all there were. -/
theorem receivePayload_spec (C : PacketCrypt κ) (handler : List WorldPacket → ReadDataHandlerResult)
    (h : AtPayload ws) :
    ∃ n ≤ ws.readBuffer.activeSize,
      (ws.packetBuffer.wpos < ws.packetBuffer.storage.length → 0 < ws.readBuffer.activeSize →
        0 < n) ∧
      ws.receivePayload.2.readBuffer.active = ws.readBuffer.active.drop n ∧
      AtPayload ws.receivePayload.2 ∧
      ws.receivePayload.2.settled handler =
        (ws.readBuffer.active.take n).foldl (PacketParser.byte C handler) (ws.settled handler) ∧
      (ws.receivePayload.1 = .next ∧
          ws.receivePayload.2.packetBuffer.wpos = ws.receivePayload.2.packetBuffer.storage.length ∨
        ws.receivePayload.1 = .wait ∧ ws.receivePayload.2.readBuffer.active = [] ∧
          ws.receivePayload.2.packetBuffer.wpos <
            ws.receivePayload.2.packetBuffer.storage.length) := by
  have hord := h.packet_ordered
  have hle := h.packet_wpos
  have hspace := hord.remainingSpace_eq
  by_cases hlt : ws.packetBuffer.wpos < ws.packetBuffer.storage.length
  · set n := min ws.readBuffer.activeSize ws.packetBuffer.remainingSpace with hn
    have htr : MessageBuffer.Transfer ws.readBuffer ws.packetBuffer n := h.read.transfer hord
    have hna := htr.le_activeSize
    set ws' : WorldSocket κ := { ws with
      packetBuffer := ws.packetBuffer.write (ws.readBuffer.active.take n)
      socket := { ws.socket with readBuffer := ws.readBuffer.readCompleted n } }
    have hat : AtPayload ws' :=
      ⟨⟨h.isOpen, htr.src_ordered, h.header_rpos, h.header_length, htr.dst_rpos.trans h.packet_rpos,
        h.no_assert⟩, h.header_wpos, htr.dst_ordered.write_le⟩
    have heq : ws.receivePayload = if ws'.packetBuffer.remainingSpace > 0 then
        (.wait, ws'.assert (ws'.readBuffer.activeSize = 0)) else (.next, ws') := by
      have hpos : ws.packetBuffer.remainingSpace > 0 := by omega
      simp only [receivePayload, if_pos hpos, ← hn, htr.take_fromReadPointer]
      rfl
    have hspace' : ws'.packetBuffer.remainingSpace =
        ws.packetBuffer.storage.length - (ws.packetBuffer.wpos + n) := by
      rw [htr.dst_ordered.remainingSpace_eq, htr.dst_length, htr.dst_wpos]
    have hgot := htr.length_got hord h.packet_rpos
    have hclosed : ws.abs.closed = false := by rw [h.abs_eq]; rfl
    have hpending : ws.abs.pending =
        some (ws.opcode, ws.packetBuffer.storage.length, ws.packetBuffer.active) := by
      rw [h.abs_eq]
    refine ⟨n, hna, fun _ hpos => by omega, ?_⟩
    rw [heq]
    by_cases hmore : ws'.packetBuffer.remainingSpace > 0
    · have hempty : ws'.readBuffer.activeSize = 0 := htr.src_activeSize.trans (by omega)
      have hassert : ws'.assert (ws'.readBuffer.activeSize = 0) = ws' := by
        simp [assert, hempty]
      have hlt' : ws'.packetBuffer.wpos < ws'.packetBuffer.storage.length := by
        rw [htr.dst_ordered.remainingSpace_eq] at hmore
        exact Nat.lt_of_sub_pos hmore
      rw [if_pos hmore, hassert]
      refine ⟨htr.src_active, hat, ?_, Or.inr ⟨rfl, ?_, hlt'⟩⟩
      · rw [settled, if_pos hlt', settled, if_pos hlt,
          PacketParser.foldl_byte_payload C handler hclosed hpending _ (by omega), hat.abs_eq,
            h.abs_eq,
          ← htr.dst_active, htr.dst_length]
        rfl
      · exact htr.src_active_nil hempty
    · have hfull : ws'.packetBuffer.wpos = ws'.packetBuffer.storage.length := by
        rw [htr.dst_ordered.remainingSpace_eq] at hmore
        exact Nat.le_antisymm htr.dst_ordered.write_le
          (Nat.le_of_sub_eq_zero (Nat.eq_zero_of_not_pos hmore))
      have hne : ws.readBuffer.active.take n ≠ [] := htr.take_ne_nil (by omega)
      have hall : ws'.packetBuffer.storage = ws'.packetBuffer.active := by
        rw [MessageBuffer.active_of_rpos_eq_zero hat.packet_rpos, hfull, take_length]
      rw [if_neg hmore]
      refine ⟨htr.src_active, hat, ?_, Or.inl ⟨rfl, hfull⟩⟩
      rw [settled_of_complete hfull, settled, if_pos hlt,
        PacketParser.foldl_byte_deliver C handler hclosed hpending _ hne (by omega), hall]
      rw [h.abs_eq, ← htr.dst_active]
      rfl
  · have hfull : ws.packetBuffer.wpos = ws.packetBuffer.storage.length := by omega
    have heq : ws.receivePayload = (.next, ws) := if_neg (by omega)
    refine ⟨0, Nat.zero_le _, fun hlt' => absurd hlt' hlt, ?_⟩
    rw [heq]
    exact ⟨rfl, h, rfl, Or.inl ⟨rfl, hfull⟩⟩

/-- A valid header makes room for the payload that it announces. -/
theorem readHeaderHandler_spec (C : PacketCrypt κ)
    (handler : List WorldPacket → ReadDataHandlerResult) (h : Receiving ws)
    (hwpos : ws.headerBuffer.wpos = ClientPktHeader.byteSize) (hpacket : ws.packetBuffer.wpos = 0) :
    (ws.readHeaderHandler C).2.assertFailed = false ∧
      (ws.readHeaderHandler C).2.socket = ws.socket ∧
      ((ws.readHeaderHandler C).1 = false ∧
          { (ws.readHeaderHandler C).2.core with closed := true } =
            ws.core.acceptHeader C handler ws.headerBuffer.active ∨
        (ws.readHeaderHandler C).1 = true ∧ AtPayload (ws.readHeaderHandler C).2 ∧
          (ws.readHeaderHandler C).2.settled handler =
            ws.core.acceptHeader C handler ws.headerBuffer.active) := by
  have hord : ws.headerBuffer.Ordered :=
    ⟨by rw [h.header_rpos]; exact Nat.zero_le _, Nat.le_of_eq (by rw [hwpos, h.header_length])⟩
  have hassert : ws.assert (ws.headerBuffer.activeSize = ClientPktHeader.byteSize) = ws := by
    simp [assert, hord.activeSize_eq, hwpos, h.header_rpos]
  have hraw : ws.headerBuffer.fromReadPointer.take ClientPktHeader.byteSize =
    ws.headerBuffer.active := by
    rw [MessageBuffer.active, hord.activeSize_eq, hwpos, h.header_rpos]
    rfl
  simp only [readHeaderHandler, hassert, hraw, PacketParser.acceptHeader]
  set plain := if C.isInitialized ws.authCrypt then C.decryptRecv ws.authCrypt
    ws.headerBuffer.active
    else (ws.headerBuffer.active, ws.authCrypt)
  have hcore : (if C.isInitialized ws.core.authCrypt then
      C.decryptRecv ws.core.authCrypt ws.headerBuffer.active
    else (ws.headerBuffer.active, ws.core.authCrypt)) = plain := rfl
  rw [hcore]
  set header := ClientPktHeader.ofWire plain.1
  by_cases hvalid : (!header.isValidSize || !header.isValidOpcode) = true
  · simp only [if_pos hvalid]
    exact ⟨h.no_assert, trivial, Or.inl ⟨trivial, rfl⟩⟩
  · simp only [if_neg hvalid]
    simp only [Bool.or_eq_true, Bool.not_eq_true', not_or, Bool.not_eq_false] at hvalid
    obtain ⟨-, hopcode⟩ := hvalid
    set ws' : WorldSocket κ := { ws with
      authCrypt := plain.2
      headerBuffer := { ws.headerBuffer with
        storage := ClientPktHeader.toMemory { header with size := header.size - 4 } }
      packetBuffer := ws.packetBuffer.resize (header.size - 4)
      headers := ws.headers ++ [header] } with hws'
    have hlen : ws'.packetBuffer.storage.length = header.size - 4 :=
      MessageBuffer.length_resizeStorage _ _
    have hop : ws'.opcode = header.cmd := by
      simp only [hws', h.header_rpos]
      exact ClientPktHeader.cmdOfMemory_toMemory (ClientPktHeader.isValidOpcode.lt hopcode)
    have hat : AtPayload ws' :=
      ⟨⟨h.isOpen, h.read, h.header_rpos, ClientPktHeader.length_toMemory _, h.packet_rpos,
        h.no_assert⟩,
        hwpos, by simp only [hws', MessageBuffer.resize, hpacket]; exact Nat.zero_le _⟩
    refine ⟨h.no_assert, trivial, Or.inr ⟨trivial, hat, ?_⟩⟩
    have hzero : ws'.packetBuffer.wpos = 0 := hpacket
    by_cases hempty : header.size - 4 = 0
    · have hnil : ws'.packetBuffer.storage = [] := length_eq_zero_iff.mp (hlen.trans hempty)
      rw [if_pos hempty, settled_of_complete (by rw [hzero, hlen, hempty]), hop, hnil]
      rfl
    · have hactive : ws'.packetBuffer.active = [] := by
        rw [MessageBuffer.active_of_rpos_eq_zero hat.packet_rpos, hzero, take_zero]
      rw [if_neg hempty, settled, if_pos (by omega), hat.abs_eq, hop, hlen, hactive]
      rfl

/-- **Completing the header**: the bytes taken are fed to the machine; when the header stays
incomplete, they are all there were. -/
theorem receiveHeader_spec (C : PacketCrypt κ) (handler : List WorldPacket → ReadDataHandlerResult)
    (h : AtHeader ws) (hpos : 0 < ws.readBuffer.activeSize) :
    ∃ n ≤ ws.readBuffer.activeSize, 0 < n ∧
      (ws.receiveHeader C).2.readBuffer.active = ws.readBuffer.active.drop n ∧
      (ws.receiveHeader C).2.assertFailed = false ∧
      ((ws.receiveHeader C).1 = .next ∧ AtPayload (ws.receiveHeader C).2 ∧
          (ws.receiveHeader C).2.settled handler =
            (ws.readBuffer.active.take n).foldl (PacketParser.byte C handler) ws.abs ∨
        (ws.receiveHeader C).1 ≠ .next ∧
          (ws.receiveHeader C).2.abs =
            (ws.readBuffer.active.take n).foldl (PacketParser.byte C handler) ws.abs ∧
          ((ws.receiveHeader C).1 = .wait ∧ AtHeader (ws.receiveHeader C).2 ∧
              (ws.receiveHeader C).2.readBuffer.active = [] ∨
            (ws.receiveHeader C).1 = .stop ∧ (ws.receiveHeader C).2.socket.hasClosedBit)) := by
  have hord := h.header_ordered
  have hlt := h.header_wpos
  have hspace := hord.remainingSpace_eq
  rw [h.header_length] at hspace
  set n := min ws.readBuffer.activeSize ws.headerBuffer.remainingSpace with hn
  have htr : MessageBuffer.Transfer ws.readBuffer ws.headerBuffer n := h.read.transfer hord
  have hna := htr.le_activeSize
  set ws' : WorldSocket κ := { ws with
    headerBuffer := ws.headerBuffer.write (ws.readBuffer.active.take n)
    socket := { ws.socket with readBuffer := ws.readBuffer.readCompleted n } } with hws'
  have hrecv : Receiving ws' :=
    ⟨h.isOpen, htr.src_ordered, htr.dst_rpos.trans h.header_rpos,
      htr.dst_length.trans h.header_length, h.packet_rpos, h.no_assert⟩
  have heq : ws.receiveHeader C = if ws'.headerBuffer.remainingSpace > 0 then
      (.wait, ws'.assert (ws'.readBuffer.activeSize = 0)) else
        if (ws'.readHeaderHandler C).1 then (.next, (ws'.readHeaderHandler C).2)
        else (.stop, (ws'.readHeaderHandler C).2.closeSocket) := by
    have hmore : ws.headerBuffer.remainingSpace > 0 := by omega
    simp only [receiveHeader, if_pos hmore, ← hn, htr.take_fromReadPointer]
    rfl
  have hwpos : ws'.headerBuffer.wpos = ws.headerBuffer.wpos + n := htr.dst_wpos
  have hspace' : ws'.headerBuffer.remainingSpace =
      ClientPktHeader.byteSize - (ws.headerBuffer.wpos + n) := by
    rw [htr.dst_ordered.remainingSpace_eq, htr.dst_length, htr.dst_wpos, h.header_length]
  have hgot := htr.length_got hord h.header_rpos
  have hclosed : ws.abs.closed = false := by rw [h.abs_eq]; rfl
  have hpending : ws.abs.pending = none := by rw [h.abs_eq]; rfl
  have hheader : ws.abs.header = ws.headerBuffer.active := by rw [h.abs_eq]
  refine ⟨n, hna, by omega, ?_⟩
  rw [heq]
  by_cases hmore : ws'.headerBuffer.remainingSpace > 0
  · have hempty : ws'.readBuffer.activeSize = 0 := htr.src_activeSize.trans (by omega)
    have hassert : ws'.assert (ws'.readBuffer.activeSize = 0) = ws' := by
      simp [assert, hempty]
    have hat : AtHeader ws' := ⟨hrecv, by omega, h.packet_wpos⟩
    rw [if_pos hmore, hassert]
    refine ⟨htr.src_active, h.no_assert, Or.inr ⟨by simp, ?_, Or.inl ⟨rfl, hat, ?_⟩⟩⟩
    · rw [PacketParser.foldl_byte_header C handler hclosed hpending _ (by rw [hheader]; omega),
        hat.abs_eq, hheader, ← htr.dst_active, h.abs_eq]
      rfl
    · exact htr.src_active_nil hempty
  · have hne : ws.readBuffer.active.take n ≠ [] := htr.take_ne_nil (by omega)
    have hfold : (ws.readBuffer.active.take n).foldl (PacketParser.byte C handler) ws.abs =
        ws'.core.acceptHeader C handler ws'.headerBuffer.active := by
      rw [PacketParser.foldl_byte_acceptHeader C handler hclosed hpending _ hne
        (by rw [hheader]; omega), hheader, ← htr.dst_active, h.abs_eq]
      rfl
    rw [if_neg hmore, hfold]
    obtain ⟨hassert, hsocket, ⟨hfail, habs⟩ | ⟨hok, hat, habs⟩⟩ :=
      readHeaderHandler_spec C handler hrecv (by omega) h.packet_wpos
    · have hbit : (ws'.readHeaderHandler C).2.closeSocket.socket.hasClosedBit :=
        hasClosedBit_closeSocket (by rw [hsocket]; exact h.isOpen)
      have hread : (ws'.readHeaderHandler C).2.closeSocket.readBuffer = ws'.readBuffer := by
        rw [readBuffer_closeSocket, readBuffer, hsocket, readBuffer]
      rw [hfail, if_neg Bool.false_ne_true]
      refine ⟨?_, hassert, Or.inr ⟨by simp, ?_, Or.inr ⟨rfl, hbit⟩⟩⟩
      · rw [hread]
        exact htr.src_active
      · rw [abs_of_closed hbit, ← habs]
        rfl
    · rw [hok, if_pos rfl]
      refine ⟨?_, hassert, Or.inl ⟨rfl, hat, habs⟩⟩
      rw [readBuffer, hsocket]
      exact htr.src_active

/-! ### The loop -/

/-- How a round ends: with an incomplete header or payload, or with the socket closed. It waits
only when nothing is left to read. -/
def Ends (r : Flow × WorldSocket κ) : Prop :=
  r.1 = .next ∧ Reading r.2 ∨ r.1 = .wait ∧ Reading r.2 ∧ r.2.readBuffer.active = [] ∨
    r.1 = .stop ∧ r.2.socket.hasClosedBit

/-- The rest of a round, once the header is complete. -/
theorem payloadRound_spec (C : PacketCrypt κ) (hhandler : ∀ ps, handler ps ≠ .waitingForQuery)
    (h : AtPayload ws) {r : Flow × WorldSocket κ}
    (hr : r = if ws.receivePayload.1 = .next then ws.receivePayload.2.handlePacket handler
      else ws.receivePayload) :
    ∃ n ≤ ws.readBuffer.activeSize,
      (ws.packetBuffer.wpos < ws.packetBuffer.storage.length → 0 < ws.readBuffer.activeSize →
        0 < n) ∧
      r.2.readBuffer.active = ws.readBuffer.active.drop n ∧ r.2.assertFailed = false ∧
      r.2.abs = (ws.readBuffer.active.take n).foldl (PacketParser.byte C handler)
        (ws.settled handler) ∧
      Ends r := by
  obtain ⟨n, hn, hpos, hactive, hat, hsettled, hend⟩ := receivePayload_spec C handler h
  refine ⟨n, hn, hpos, ?_⟩
  rw [← hsettled, hr]
  rcases hend with ⟨hnext, hfull⟩ | ⟨hwait, hempty, hlt⟩
  · obtain ⟨hread, hassert, habs, hend⟩ := handlePacket_spec hhandler hat
    rw [if_pos hnext, settled_of_complete hfull, hread]
    refine ⟨hactive, hassert, habs, ?_⟩
    rcases hend with ⟨hgo, hhead⟩ | hstop
    · exact Or.inl ⟨hgo, Or.inl hhead⟩
    · exact Or.inr (Or.inr hstop)
  · rw [if_neg (by rw [hwait]; exact Flow.noConfusion), settled, if_pos hlt]
    exact ⟨hactive, hat.no_assert, rfl, Or.inr (Or.inl ⟨hwait, Or.inr ⟨hat, hlt⟩, hempty⟩)⟩

/-- **One round of the loop** takes some bytes and feeds them to the machine. -/
theorem readBody_spec (C : PacketCrypt κ) (hhandler : ∀ ps, handler ps ≠ .waitingForQuery)
    (h : Reading ws) (hpos : 0 < ws.readBuffer.activeSize) :
    ∃ n ≤ ws.readBuffer.activeSize, 0 < n ∧
      (ws.readBody C handler).2.readBuffer.active = ws.readBuffer.active.drop n ∧
      (ws.readBody C handler).2.assertFailed = false ∧
      (ws.readBody C handler).2.abs =
        (ws.readBuffer.active.take n).foldl (PacketParser.byte C handler) ws.abs ∧
      Ends (ws.readBody C handler) := by
  rcases h with h | ⟨h, hlt⟩
  · obtain ⟨n, hn, hn0, hactive, hassert, hend⟩ := receiveHeader_spec C handler h hpos
    rcases hend with ⟨hnext, hat, hsettled⟩ | ⟨hne, habs, hend⟩
    · have hr : ws.readBody C handler = if (ws.receiveHeader C).2.receivePayload.1 = .next then
          (ws.receiveHeader C).2.receivePayload.2.handlePacket handler
          else (ws.receiveHeader C).2.receivePayload := if_pos hnext
      obtain ⟨m, hm, -, hactive', hassert', habs', hend'⟩ := payloadRound_spec C hhandler hat hr
      rw [← hat.read.length_active, hactive, length_drop, h.read.length_active] at hm
      refine ⟨n + m, by omega, by omega, ?_, hassert', ?_, hend'⟩
      · rw [hactive', hactive, drop_drop]
      · rw [habs', hsettled, hactive, ← foldl_append, ← take_add]
    · have hr : ws.readBody C handler = ws.receiveHeader C := if_neg hne
      rw [hr]
      refine ⟨n, hn, hn0, hactive, hassert, habs, ?_⟩
      rcases hend with ⟨hwait, hat, hempty⟩ | hstop
      · exact Or.inr (Or.inl ⟨hwait, Or.inl hat, hempty⟩)
      · exact Or.inr (Or.inr hstop)
  · have hfull : ¬ ws.headerBuffer.remainingSpace > 0 := by
      rw [MessageBuffer.remainingSpace, h.header_length, h.header_wpos,
        unsignedSub_of_le (Nat.le_refl _)]
      omega
    have hheader : ws.receiveHeader C = (.next, ws) := if_neg hfull
    have hr : ws.readBody C handler = if ws.receivePayload.1 = .next then
        ws.receivePayload.2.handlePacket handler else ws.receivePayload := by
      rw [readBody, hheader]
      rfl
    obtain ⟨n, hn, hn0, hactive, hassert, habs, hend⟩ := payloadRound_spec C hhandler h hr
    refine ⟨n, hn, hn0 hlt hpos, hactive, hassert, ?_, hend⟩
    rw [habs, settled, if_pos hlt]

theorem Reading.receiving (h : Reading ws) : Receiving ws := by
  rcases h with h | ⟨h, -⟩
  · exact h.toReceiving
  · exact h.toReceiving

/-- **The loop** consumes the read buffer or closes the socket, and no `ASSERT` fails. -/
theorem readLoop_spec (C : PacketCrypt κ) (hhandler : ∀ ps, handler ps ≠ .waitingForQuery)
    {fuel : ℕ} (h : Reading ws) (hfuel : ws.readBuffer.activeSize ≤ fuel) :
    (readLoop C handler fuel ws).2.assertFailed = false ∧
      (readLoop C handler fuel ws).2.abs =
        ws.readBuffer.active.foldl (PacketParser.byte C handler) ws.abs ∧
      ((readLoop C handler fuel ws).1 = .keepReading ∧ Reading (readLoop C handler fuel ws).2 ∧
          (readLoop C handler fuel ws).2.readBuffer.active = [] ∨
        (readLoop C handler fuel ws).1 = .stop ∧
          (readLoop C handler fuel ws).2.socket.hasClosedBit) := by
  have hlen : ws.readBuffer.active.length = ws.readBuffer.activeSize :=
    h.receiving.read.length_active
  induction fuel generalizing ws with
  | zero =>
    have hnil : ws.readBuffer.active = [] := length_eq_zero_iff.mp (by omega)
    rw [hnil]
    exact ⟨h.receiving.no_assert, rfl, Or.inl ⟨rfl, h, hnil⟩⟩
  | succ fuel ih =>
    rw [readLoop]
    by_cases hpos : ws.readBuffer.activeSize > 0
    · obtain ⟨n, hn, hn0, hactive, hassert, habs, hend⟩ := readBody_spec C hhandler h hpos
      rw [if_pos hpos]
      rcases hend with ⟨hnext, hread⟩ | ⟨hwait, hread, hempty⟩ | ⟨hstop, hbit⟩
      · have hlen' := hread.receiving.read.length_active
        have hless : (ws.readBody C handler).2.readBuffer.activeSize =
          ws.readBuffer.activeSize - n := by
          rw [← hlen', hactive, length_drop, hlen]
        obtain ⟨hassert', habs', hend'⟩ := ih hread (by omega) hlen'
        simp only [hnext]
        refine ⟨hassert', ?_, hend'⟩
        rw [habs', habs, hactive, ← foldl_append, take_append_drop]
      · have hall : ws.readBuffer.active.take n = ws.readBuffer.active := by
          rw [hactive] at hempty
          exact take_of_length_le (drop_eq_nil_iff.mp hempty)
        rw [hall] at habs
        simp only [hwait]
        exact ⟨hassert, habs, Or.inl ⟨trivial, hread, hempty⟩⟩
      · have hclosed : (ws.readBody C handler).2.abs.closed = true := by
          rw [abs_of_closed hbit]
        simp only [hstop]
        refine ⟨hassert, ?_, Or.inr ⟨trivial, hbit⟩⟩
        rw [← take_append_drop n ws.readBuffer.active, foldl_append, ← habs,
          PacketParser.foldl_byte_closed C handler hclosed]
    · have hnil : ws.readBuffer.active = [] := length_eq_zero_iff.mp (by omega)
      rw [if_neg hpos, hnil]
      exact ⟨h.receiving.no_assert, rfl, Or.inl ⟨rfl, h, rfl⟩⟩

/-! ### Read completions -/

/-- Between two read completions, no `ASSERT` has failed, and the socket is closed or has
consumed all it was given. -/
def Idle (ws : WorldSocket κ) : Prop :=
  ws.assertFailed = false ∧
    (ws.socket.hasClosedBit ∨ Reading ws ∧ ws.readBuffer.active = [])

/-- A change of the read buffer only. -/
theorem Reading.of_readBuffer (h : Reading ws) (socket : Socket)
    (hopen : socket.openState = ws.socket.openState) (hord : socket.readBuffer.Ordered) :
    Reading { ws with socket } ∧ WorldSocket.abs { ws with socket } = ws.abs := by
  have hrecv := h.receiving
  have hrecv' : Receiving { ws with socket } :=
    ⟨hopen.trans hrecv.isOpen, hord, hrecv.header_rpos, hrecv.header_length, hrecv.packet_rpos,
      hrecv.no_assert⟩
  rcases h with h | ⟨h, hlt⟩
  · have h' : AtHeader { ws with socket } := ⟨hrecv', h.header_wpos, h.packet_wpos⟩
    exact ⟨Or.inl h', by rw [h'.abs_eq, h.abs_eq]; rfl⟩
  · have h' : AtPayload { ws with socket } := ⟨hrecv', h.header_wpos, h.packet_wpos⟩
    exact ⟨Or.inr ⟨h', hlt⟩, by rw [h'.abs_eq, h.abs_eq]; rfl⟩

/-- Requesting the next read. -/
theorem Reading.asyncRead (h : Reading ws) :
    Reading { ws with socket := ws.socket.asyncRead } ∧
      WorldSocket.abs { ws with socket := ws.socket.asyncRead } = ws.abs ∧
      ws.socket.asyncRead.readBuffer.active = ws.readBuffer.active := by
  obtain ⟨hord, hactive, -⟩ := h.receiving.read.normalize
  obtain ⟨hord', hactive', -⟩ := hord.ensureFreeSpace
  have hopen : ws.socket.isOpen = true := decide_eq_true h.receiving.isOpen
  have heq : ws.socket.asyncRead =
      { ws.socket with readBuffer := ws.socket.readBuffer.normalize.ensureFreeSpace } :=
        if_pos hopen
  rw [heq]
  obtain ⟨hread, habs⟩ := h.of_readBuffer
    { ws.socket with readBuffer := ws.socket.readBuffer.normalize.ensureFreeSpace } rfl hord'
  exact ⟨hread, habs, hactive'.trans hactive⟩

theorem onRead_eq (C : PacketCrypt κ) (handler : List WorldPacket → ReadDataHandlerResult)
    {chunk : List UInt8} {socket : Socket}
    (hopen : ws.socket.isOpen = true)
    (hinternal : ws.socket.readHandlerInternal false chunk = (true, socket)) :
    ws.onRead C handler chunk = match (readHandler C handler { ws with socket }).1 with
      | .keepReading => { (readHandler C handler { ws with socket }).2 with
          socket := (readHandler C handler { ws with socket }).2.socket.asyncRead }
      | .stop => (readHandler C handler { ws with socket }).2 := by
  simp only [onRead, if_pos hopen, hinternal, if_true] <;> rfl

/-- **A read completion** feeds its chunk to the machine. -/
theorem onRead_spec (C : PacketCrypt κ) (hhandler : ∀ ps, handler ps ≠ .waitingForQuery)
    (h : Idle ws) (chunk : List UInt8) :
    Idle (ws.onRead C handler chunk) ∧
      (ws.onRead C handler chunk).abs = chunk.foldl (PacketParser.byte C handler) ws.abs := by
  obtain ⟨hassert, hbit | ⟨hread, hempty⟩⟩ := h
  · have hopen : ¬ ws.socket.isOpen = true := by
      intro hopen
      have hnot : ws.socket.NotClosed := Or.inl (of_decide_eq_true hopen)
      exact hnot.not_hasClosedBit hbit
    have heq : ws.onRead C handler chunk = ws := if_neg hopen
    have hclosed : ws.abs.closed = true := by rw [abs_of_closed hbit]
    rw [heq, PacketParser.foldl_byte_closed C handler hclosed]
    exact ⟨⟨hassert, Or.inl hbit⟩, rfl⟩
  · have hopen : ws.socket.isOpen = true := decide_eq_true hread.receiving.isOpen
    obtain ⟨hord, hactive, -, -⟩ := hread.receiving.read.write chunk
    rw [hempty, nil_append] at hactive
    have hinternal : ws.socket.readHandlerInternal false chunk =
        (true, { ws.socket with readBuffer := ws.readBuffer.write chunk }) := by
      simp only [Socket.readHandlerInternal, Bool.false_eq_true, if_false,
        MessageBuffer.writeCompleted_copyIn]
      exact Prod.ext hopen rfl
    have heq := onRead_eq C handler hopen hinternal
    set ws₁ : WorldSocket κ :=
      { ws with socket := { ws.socket with readBuffer := ws.readBuffer.write chunk } }
    obtain ⟨hread₁, habs₁⟩ : Reading ws₁ ∧ ws₁.abs = ws.abs := hread.of_readBuffer _ rfl hord
    have hactive₁ : ws₁.readBuffer.active = chunk := hactive
    obtain ⟨hassert₂, habs₂, hend⟩ := readLoop_spec C hhandler hread₁ (Nat.le_refl _)
    rw [habs₁, hactive₁] at habs₂
    rw [heq]
    rcases hend with ⟨hkeep, hread₂, hempty₂⟩ | ⟨hstop, hbit⟩
    · obtain ⟨hread₃, habs₃, hactive₃⟩ := hread₂.asyncRead
      simp only [readHandler, hkeep]
      exact ⟨⟨hassert₂, Or.inr ⟨hread₃, hactive₃.trans hempty₂⟩⟩, habs₃.trans habs₂⟩
    · simp only [readHandler, hstop]
      exact ⟨⟨hassert₂, Or.inl hbit⟩, habs₂⟩

/-- A read completion refines the byte machine: its atoms are the bytes of its chunk. -/
theorem onRead_refines (C : PacketCrypt κ) (hhandler : ∀ ps, handler ps ≠ .waitingForQuery) :
    Run.Refines (onRead C handler) (fun _ _ => True) Idle abs (PacketParser.byte C handler) id where
  keeps _ chunk h _ := (onRead_spec C hhandler h chunk).1
  simulates _ chunk h _ := (onRead_spec C hhandler h chunk).2

/-- A new connection. -/
def accept (authCrypt : κ) : WorldSocket κ :=
  { authCrypt }

variable (authCrypt : κ)

theorem idle_accept : Idle (accept authCrypt) := by
  refine ⟨rfl, Or.inr ⟨Or.inl
    ⟨⟨rfl, MessageBuffer.ordered_ofSize _, rfl, ?_, rfl, rfl⟩, ?_, rfl⟩, ?_⟩⟩
  · exact MessageBuffer.length_resizeStorage _ _
  · exact Nat.zero_lt_succ _
  · exact MessageBuffer.active_ofSize _

theorem abs_accept : (accept authCrypt).abs = { authCrypt } := by
  obtain ⟨-, hbit | ⟨hhead | ⟨hpay, -⟩, -⟩⟩ := idle_accept authCrypt
  · exact absurd hbit (Socket.NotClosed.not_hasClosedBit (Or.inl rfl))
  · rw [hhead.abs_eq, MessageBuffer.active_of_rpos_eq_zero rfl]
    rfl
  · exact absurd hpay.header_wpos (Nat.succ_ne_zero _).symm

/-- What can be seen of a world socket can be seen of its machine. -/
theorem abs_fields (ws : WorldSocket κ) :
    ws.abs.headers = ws.headers ∧ ws.abs.received = ws.received ∧ ws.abs.authCrypt = ws.authCrypt ∧
      (ws.abs.closed = true ↔ ws.socket.hasClosedBit) := by
  rw [abs]
  split_ifs with hbit hwpos <;> simp [core, hbit]

/-- **Parsing does not depend on the chunks.** For a data handler that answers `Ok` or `Error`
as a function of the packets seen so far, any two cuttings of a byte stream into chunks deliver
the same packets, accept the same headers, leave the keystream at the same place and close the
socket or not alike. Every packet has the opcode and the size that its header announces, and no
`ASSERT` fails. -/
theorem onRead_chunking (C : PacketCrypt κ) (hhandler : ∀ ps, handler ps ≠ .waitingForQuery)
    (authCrypt : κ) {cs ds : List (List UInt8)} (hcut : cs.flatten = ds.flatten) :
    let ws := cs.foldl (onRead C handler) (accept authCrypt)
    let ws' := ds.foldl (onRead C handler) (accept authCrypt)
    ws.received = ws'.received ∧ ws.headers = ws'.headers ∧ ws.authCrypt = ws'.authCrypt ∧
      (ws.socket.hasClosedBit ↔ ws'.socket.hasClosedBit) ∧
      List.Forall₂ PacketParser.Announces (ws.headers.take ws.received.length) ws.received ∧
      ws.assertFailed = false := by
  intro ws ws'
  have href := onRead_refines C hhandler
  have hall : ∀ cs : List (List UInt8),
      Run.Along (onRead C handler) (fun _ _ => True) (accept authCrypt) cs :=
    fun cs => Run.along_of_forall (fun _ _ => trivial) _ cs
  have hidle : Idle ws := Run.Along.invariant Idle href.keeps (idle_accept authCrypt) (hall cs)
  have habs : ws.abs = ws'.abs := by
    refine href.run_eq (idle_accept authCrypt) (hall cs) (hall ds) ?_
    simpa [flatMap_id] using hcut
  have hsound : ws.abs.Sound := by
    have hfold := href.run_eq_foldl (idle_accept authCrypt) (hall cs)
    rw [hfold, abs_accept]
    have hnew : PacketParser.Sound { authCrypt } := List.Forall₂.nil
    exact PacketParser.sound_foldl_byte C handler hnew _
  obtain ⟨hheaders, hreceived, hcrypt, hclosed⟩ := ws.abs_fields
  obtain ⟨hheaders', hreceived', hcrypt', hclosed'⟩ := ws'.abs_fields
  have htake := hsound.forall₂_take
  rw [hheaders, hreceived] at htake
  rw [← habs] at hheaders' hreceived' hcrypt' hclosed'
  exact ⟨hreceived.symm.trans hreceived', hheaders.symm.trans hheaders', hcrypt.symm.trans hcrypt',
    hclosed.symm.trans hclosed', htake, hidle.1⟩

/-- Two packets in clear, cut inside of a header and inside of a payload, or not at all. -/
theorem onRead_chunking_two_packets : let C : PacketCrypt Unit :=
      ⟨fun _ => false, fun _ bs => (bs, ()), fun _ bs => (bs, ()), fun _ _ => rfl⟩
    let handler : List WorldPacket → ReadDataHandlerResult := fun ps =>
      if ps.length < 2 then .ok else .error
    let cs : List (List UInt8) := [[0, 6, 1, 0], [0, 0, 7], [8, 0, 4, 2, 0, 0, 0]]
    let ds : List (List UInt8) := [[0, 6, 1, 0, 0, 0, 7, 8, 0, 4, 2, 0, 0, 0]]
    let ws := cs.foldl (onRead C handler) (accept ())
    let ws' := ds.foldl (onRead C handler) (accept ())
    ws.received = ws'.received ∧ ws.headers = ws'.headers ∧ ws.authCrypt = ws'.authCrypt ∧
      (ws.socket.hasClosedBit ↔ ws'.socket.hasClosedBit) ∧
      List.Forall₂ PacketParser.Announces (ws.headers.take ws.received.length) ws.received ∧
      ws.assertFailed = false := by
  intro C handler cs ds
  refine onRead_chunking C (fun ps => ?_) () rfl
  simp only [handler]
  split_ifs <;> exact ReadDataHandlerResult.noConfusion

end WorldSocket

end IscServer
