import IscServer.Server.WorldSocket

/-!
# Accepted Packets and Delayed Closing

A packet accepted by `WorldSocket::SendPacket` waits in two queues: the packet queue of the
world socket, which `WorldSocket::Update` merges into buffers, and the write queue of the base
class, which `Socket::HandleQueue` hands to the stream. `Accounted` is the balance over both:
what is written and what is queued are the frames of the packets taken from the packet queue, in
the order in which they were accepted.

`DelayedCloseSocket` looks at the second queue only, and so does the completion of an
asynchronous write. A packet that is still in the first one is dropped.

## Main results

* `mergeQueue_accounted`: `Update` moves the packet queue to the write queue without loss.
* `step_accounted`: every step of a socket that is not closed keeps the balance.
* `losesNothing_iff`: **on a reliable stream, no accepted packet is lost by the closing of the
  socket exactly in those runs in which the `Closed` bit is never set while the packet queue is
  nonempty**, immediate closes aside, which also drop the write queue.
-/

namespace IscServer

open List

namespace WorldSocket

variable {κ : Type} {C : PacketCrypt κ} {net : ℕ → WriteResult}

/-! ### The balance of the queues -/

/-- The bytes of a packet on the wire: a header and the contents. -/
def IsFrame (p : EncryptablePacket) (frame : List UInt8) : Prop :=
  ∃ header : List UInt8, frame = header ++ p.contents ∧
    header.length = (ServerPktHeader.ofPacket p.toWorldPacket).getHeaderLength

/-- What is written and queued, with `buffer` in the making, are the frames taken from the
packet queue; the other accepted packets are still in it. -/
structure AccountedWith (ws : WorldSocket κ) (buffer : List UInt8)
    (queue : List EncryptablePacket) :
    Prop where
  ordered : ws.socket.QueueOrdered
  bytes : ws.socket.written ++ ws.socket.queuedBytes ++ buffer = ws.frames.flatten
  merged : ∃ ps, ws.accepted = ps ++ queue ∧ List.Forall₂ IsFrame ps ws.frames

/-- The balance between two steps. -/
def Accounted (ws : WorldSocket κ) : Prop :=
  AccountedWith ws [] ws.bufferQueue

variable {ws : WorldSocket κ}

variable {queue : List EncryptablePacket}

theorem AccountedWith.accounted (h : AccountedWith ws [] queue) (hqueue : ws.bufferQueue = queue) : Accounted ws := by
  rwa [Accounted, hqueue]

/-- The `i`-th accepted packet is completely written: the stream has got its frame and those of
all packets before it. -/
def CompletelyWritten (ws : WorldSocket κ) (i : ℕ) : Prop :=
  ∃ p frame, ws.accepted[i]? = some p ∧ ws.frames[i]? = some frame ∧ IsFrame p frame ∧
    (ws.frames.take (i + 1)).flatten <+: ws.socket.written

/-- Everything accepted is written exactly when both queues are drained. -/
theorem Accounted.completelyWritten_iff (h : Accounted ws) :
    (∀ i < ws.accepted.length, CompletelyWritten ws i) ↔
      ws.bufferQueue = [] ∧ ws.socket.queuedBytes = [] := by
  obtain ⟨ps, hacc, hframes⟩ := h.merged
  have hlen : ws.accepted.length = ws.frames.length + ws.bufferQueue.length := by
    rw [hacc, length_append, hframes.length_eq]
  have hbytes := h.bytes
  rw [append_nil] at hbytes
  constructor
  · intro hall
    have hqueue : ws.bufferQueue = [] := by
      by_contra hne
      have hpos := length_pos_iff.mpr hne
      obtain ⟨p, frame, -, hframe, -⟩ := hall ws.frames.length (by omega)
      simp at hframe
    refine ⟨hqueue, ?_⟩
    have hstart : ws.frames.flatten <+: ws.socket.written := by
      cases hf : ws.frames.length with
      | zero => simp [length_eq_zero_iff.mp hf]
      | succ n =>
        obtain ⟨-, -, -, -, -, hstart⟩ := hall n (by omega)
        rwa [← hf, take_length] at hstart
    have hle := hstart.length_le
    rw [← hbytes, length_append] at hle
    exact length_eq_zero_iff.mp (by omega)
  · rintro ⟨hqueue, hqueued⟩ i hi
    rw [hqueue, append_nil] at hacc
    rw [hqueued, append_nil] at hbytes
    rw [hqueue, length_nil, Nat.add_zero] at hlen
    have hi' : i < ws.frames.length := by omega
    refine ⟨ws.accepted[i], ws.frames[i], List.getElem?_eq_getElem hi, List.getElem?_eq_getElem hi',
      ?_, ?_⟩
    · have hget := List.Forall₂.get (hacc ▸ hframes) hi hi'
      exact hget
    · rw [hbytes]
      conv_rhs => rw [← take_append_drop (i + 1) ws.frames, flatten_append]
      exact prefix_append _ _

/-! ### Merging the packet queue -/

variable (s : Socket)

theorem queuedBytes_queuePacket (b : MessageBuffer) :
    (s.queuePacket b).queuedBytes = s.queuedBytes ++ b.active := by
  simp [Socket.queuedBytes, Socket.queuePacket]

theorem queueOrdered_queuePacket {s : Socket} {b : MessageBuffer} (h : s.QueueOrdered)
    (hb : b.Ordered) :
    (s.queuePacket b).QueueOrdered := by
  intro m hm
  rcases mem_append.mp hm with hm | hm
  · exact h m hm
  · rwa [mem_singleton.mp hm]

/-- Queueing the buffer in the making. -/
theorem AccountedWith.queuePacket {ws : WorldSocket κ} {buffer : List UInt8} {b : MessageBuffer}
    (h : AccountedWith ws buffer queue) (hb : b.Ordered) (hactive : b.active = buffer) :
    AccountedWith { ws with socket := ws.socket.queuePacket b } [] queue := by
  refine ⟨queueOrdered_queuePacket h.ordered hb, ?_, h.merged⟩
  rw [append_nil, queuedBytes_queuePacket, ← append_assoc, hactive]
  exact h.bytes

variable {p : EncryptablePacket}

/-- Taking a packet from the packet queue appends its frame. -/
theorem AccountedWith.take {buffer : List UInt8} (h : AccountedWith ws buffer (p :: queue))
    (authCrypt : κ) {frame : List UInt8} (hframe : IsFrame p frame) :
    AccountedWith { ws with authCrypt, frames := ws.frames ++ [frame] }
      (buffer ++ frame) queue := by
  obtain ⟨ps, hacc, hps⟩ := h.merged
  refine ⟨h.ordered, ?_, ps ++ [p], ?_, ?_⟩
  · rw [← append_assoc, h.bytes, flatten_append, flatten_singleton]
  · rw [hacc, append_assoc, singleton_append]
  · exact rel_append hps (List.Forall₂.cons hframe List.Forall₂.nil)

/-- The header and the contents of a packet make its frame. -/
theorem isFrame_packetHeader (C : PacketCrypt κ) (ws : WorldSocket κ) (queued : EncryptablePacket) :
    IsFrame queued ((ws.packetHeader C queued).1 ++ queued.contents) := by
  refine ⟨_, rfl, ?_⟩
  rw [← ServerPktHeader.length_header, packetHeader]
  split_ifs
  · exact C.length_encryptSend _ _
  · rfl

variable {b : MessageBuffer}

/-- An empty buffer takes the frame of a packet. -/
theorem write_write (hb : b.Ordered) (header contents : List UInt8) :
    ((b.write header).write contents).Ordered ∧
      ((b.write header).write contents).active = b.active ++ (header ++ contents) := by
  obtain ⟨hord, hactive, -⟩ := hb.write header
  obtain ⟨hord', hactive', -⟩ := hord.write contents
  refine ⟨hord', ?_⟩
  rw [hactive', hactive, append_assoc]

/-- The buffer that `Update` goes on with after it has queued the last one. -/
theorem resize_moved (n : ℕ) :
    (MessageBuffer.moved.resize n).Ordered ∧ (MessageBuffer.moved.resize n).active = [] := by
  refine ⟨⟨Nat.le_refl _, Nat.zero_le _⟩, ?_⟩
  rfl

section

variable (C : PacketCrypt κ)

/-- **Merging one packet** keeps the balance, whether the packet shares the buffer, opens a new
one or gets one of its own. -/
theorem mergePacket_accounted (h : AccountedWith ws b.active (p :: queue)) (hb : b.Ordered) :
    AccountedWith (mergePacket C (ws, b) p).1 (mergePacket C (ws, b) p).2.active queue ∧
      (mergePacket C (ws, b) p).2.Ordered := by
  have hframe := isFrame_packetHeader C ws p
  simp only [mergePacket]
  set header := ws.packetHeader C p
  set total := p.contents.length + (ServerPktHeader.ofPacket p.toWorldPacket).getHeaderLength
  by_cases hlt : b.remainingSpace < total
  · obtain ⟨hnew, -⟩ := resize_moved ws.sendBufferSize
    have hflushed := (h.queuePacket hb rfl).take header.2 hframe
    split_ifs
    · obtain ⟨hord, hactive⟩ := write_write hnew header.1 p.contents
      rw [hactive]
      exact ⟨hflushed, hord⟩
    · obtain ⟨hord, hactive⟩ := write_write (MessageBuffer.ordered_ofSize total) header.1 p.contents
      exact ⟨hflushed.queuePacket hord hactive, hnew⟩
  · simp only [if_neg hlt, if_pos (Nat.le_of_not_lt hlt)]
    obtain ⟨hord, hactive⟩ := write_write hb header.1 p.contents
    rw [hactive]
    exact ⟨h.take header.2 hframe, hord⟩

/-- Merging a list of packets. -/
theorem foldl_mergePacket_accounted (h : AccountedWith ws b.active queue) (hb : b.Ordered)
    {r : WorldSocket κ × MessageBuffer} (hr : r = queue.foldl (mergePacket C) (ws, b)) :
    AccountedWith r.1 r.2.active [] ∧ r.2.Ordered := by
  induction queue generalizing ws b with
  | nil =>
    rw [hr]
    exact ⟨h, hb⟩
  | cons p queue ih =>
    obtain ⟨hacc, hord⟩ := mergePacket_accounted C h hb
    exact ih hacc hord hr

/-- Merging leaves the rest of the packet queue and the open state alone. -/
theorem mergePacket_frame (r : WorldSocket κ × MessageBuffer) (p : EncryptablePacket) :
    (mergePacket C r p).1.bufferQueue = r.1.bufferQueue ∧
      (mergePacket C r p).1.socket.openState = r.1.socket.openState := by
  simp only [mergePacket]
  split_ifs <;> exact ⟨rfl, rfl⟩

theorem foldl_mergePacket_frame (queue : List EncryptablePacket)
    (r : WorldSocket κ × MessageBuffer) :
    (queue.foldl (mergePacket C) r).1.bufferQueue = r.1.bufferQueue ∧
      (queue.foldl (mergePacket C) r).1.socket.openState = r.1.socket.openState := by
  induction queue generalizing r with
  | nil => exact ⟨rfl, rfl⟩
  | cons p queue ih =>
    obtain ⟨hqueue, hstate⟩ := mergePacket_frame C r p
    obtain ⟨hqueue', hstate'⟩ := ih (mergePacket C r p)
    exact ⟨hqueue'.trans hqueue, hstate'.trans hstate⟩

theorem mergeQueue_frame (ws : WorldSocket κ) :
    (ws.mergeQueue C).bufferQueue = [] ∧
      (ws.mergeQueue C).socket.openState = ws.socket.openState := by
  rw [mergeQueue]
  by_cases hempty : ws.bufferQueue = []
  · rw [if_pos hempty]
    exact ⟨hempty, rfl⟩
  · obtain ⟨hqueue, hstate⟩ := foldl_mergePacket_frame C ws.bufferQueue
      ({ ws with bufferQueue := [] }, MessageBuffer.ofSize ws.sendBufferSize)
    dsimp only
    split_ifs
    · exact ⟨hqueue, hstate⟩
    · exact ⟨hqueue, hstate⟩

/-- **`Update` moves the packet queue to the write queue** without loss. -/
theorem mergeQueue_accounted {ws : WorldSocket κ} (h : Accounted ws) :
    Accounted (ws.mergeQueue C) := by
  obtain ⟨hqueue, -⟩ := mergeQueue_frame C ws
  refine AccountedWith.accounted ?_ hqueue
  rw [mergeQueue]
  by_cases hempty : ws.bufferQueue = []
  · rw [if_pos hempty, ← hempty]
    exact h
  have hstart : AccountedWith { ws with bufferQueue := [] }
      (MessageBuffer.ofSize ws.sendBufferSize).active ws.bufferQueue := by
    exact ⟨h.ordered, h.bytes, h.merged⟩
  obtain ⟨hacc, hord⟩ := foldl_mergePacket_accounted C hstart (MessageBuffer.ordered_ofSize _) rfl
  dsimp only
  split_ifs with hactive
  · exact hacc.queuePacket hord rfl
  · have hnil := length_eq_zero_iff.mp
      (hord.length_active.trans (Nat.eq_zero_of_not_pos hactive))
    rwa [hnil] at hacc

end

/-! ### Steps -/

variable {socket : Socket}

/-- A change of the socket that only moves bytes from the write queue to the stream. -/
theorem Accounted.of_socket {ws : WorldSocket κ} (h : Accounted ws) (hord : socket.QueueOrdered)
    (hbytes : socket.written ++ socket.queuedBytes = ws.socket.written ++ ws.socket.queuedBytes) :
    Accounted { ws with socket } :=
  ⟨hord, by rw [hbytes]; exact h.bytes, h.merged⟩

theorem Accounted.of_transmits {ws : WorldSocket κ} (h : Accounted ws)
    (htrans : Socket.Transmits ws.socket socket) : Accounted { ws with socket } :=
  h.of_socket htrans.ordered htrans.bytes

/-- `CloseSocket` and `DelayedCloseSocket` touch neither the queue nor what is written. -/
theorem bytes_closeSocket :
    s.closeSocket.written = s.written ∧ s.closeSocket.writeQueue = s.writeQueue := by
  rw [Socket.closeSocket]
  split_ifs <;> exact ⟨rfl, rfl⟩

theorem bytes_delayedCloseSocket :
    s.delayedCloseSocket.written = s.written ∧ s.delayedCloseSocket.writeQueue = s.writeQueue := by
  rcases Socket.delayedCloseSocket_cases s with ⟨-, -, heq⟩ | ⟨-, heq⟩
  · rw [heq]
    exact bytes_closeSocket _
  · rw [heq]
    exact ⟨rfl, rfl⟩

theorem Accounted.of_bytes {ws : WorldSocket κ} (h : Accounted ws)
    (hbytes : socket.written = ws.socket.written ∧ socket.writeQueue = ws.socket.writeQueue) :
    Accounted { ws with socket } := by
  refine h.of_socket ?_ ?_
  · rw [Socket.QueueOrdered, hbytes.2]
    exact h.ordered
  · rw [Socket.queuedBytes, hbytes.1, hbytes.2, Socket.queuedBytes]

theorem sendPacket_accounted (C : PacketCrypt κ) (h : Accounted ws) (packet : WorldPacket) :
    Accounted (ws.sendPacket C packet) := by
  rw [sendPacket]
  split_ifs
  · obtain ⟨ps, hacc, hps⟩ := h.merged
    refine ⟨h.ordered, h.bytes, ps, ?_, hps⟩
    dsimp only
    rw [hacc, append_assoc]
  · exact h

/-- **Every step of a socket that is not closed keeps the balance**, on a reliable stream. -/
theorem step_accounted (C : PacketCrypt κ) (hnet : Socket.Reliable net) (h : Accounted ws)
    (hopen : ws.socket.NotClosed) (op : Op κ) : Accounted (ws.step C net op) := by
  cases op with
  | sendPacket packet => exact sendPacket_accounted C h packet
  | initCrypt authCrypt => exact ⟨h.ordered, h.bytes, h.merged⟩
  | closeSocket => exact h.of_bytes (bytes_closeSocket _)
  | delayedCloseSocket => exact h.of_bytes (bytes_delayedCloseSocket _)
  | update =>
    have hacc := mergeQueue_accounted C h
    obtain ⟨-, hstate⟩ := mergeQueue_frame C ws
    have hopen' : (ws.mergeQueue C).socket.NotClosed := by
      rw [Socket.NotClosed, hstate]
      exact hopen
    exact hacc.of_transmits (Socket.update_transmits hnet hopen' hacc.ordered)
  | writeReady => exact h.of_transmits (Socket.writeHandlerWrapper_transmits hnet hopen h.ordered)
  | readError => exact h.of_bytes (bytes_closeSocket _)

/-! ### Closing -/

/-- The operation of the base class that a step comes down to, and the state it starts from. -/
def baseStep (C : PacketCrypt κ) (ws : WorldSocket κ) : Op κ → Option (Socket × Socket.Op)
  | .sendPacket _ => none
  | .initCrypt _ => none
  | .closeSocket => some (ws.socket, .closeSocket)
  | .delayedCloseSocket => some (ws.socket, .delayedCloseSocket)
  | .update => some ((ws.mergeQueue C).socket, .update)
  | .writeReady => some (ws.socket, .writeReady)
  | .readError => some (ws.socket, .readCompletion true [])

theorem socket_step (C : PacketCrypt κ) (net : ℕ → WriteResult) (ws : WorldSocket κ) (op : Op κ) :
    (ws.step C net op).socket =
      match ws.baseStep C op with
      | none => ws.socket
      | some (s, sop) => Socket.step net s sop := by
  cases op with
  | sendPacket packet =>
    simp only [step, sendPacket]
    split_ifs <;> rfl
  | _ => rfl

/-- No step changes the open state before the base class does. -/
theorem openState_baseStep (C : PacketCrypt κ) (ws : WorldSocket κ) (op : Op κ) {s : Socket}
    {sop : Socket.Op} (h : ws.baseStep C op = some (s, sop)) :
      s.openState = ws.socket.openState := by
  cases op with
  | sendPacket packet => exact absurd h (by simp [baseStep])
  | initCrypt authCrypt => exact absurd h (by simp [baseStep])
  | update =>
    obtain ⟨rfl, -⟩ := Prod.mk.inj (Option.some.inj h)
    exact (mergeQueue_frame C ws).2
  | _ =>
    obtain ⟨rfl, -⟩ := Prod.mk.inj (Option.some.inj h)
    rfl

/-- The base class calls `CloseSocket` in a step. -/
def CallsClose (C : PacketCrypt κ) (net : ℕ → WriteResult) (ws : WorldSocket κ) (op : Op κ) :
    Prop :=
  ∃ s sop, ws.baseStep C op = some (s, sop) ∧ Socket.CallsClose net s sop

/-- A step closes a socket that is not closed exactly when it calls `CloseSocket`. -/
theorem step_closed (C : PacketCrypt κ) (net : ℕ → WriteResult) (h : ws.socket.NotClosed)
    (op : Op κ) :
    (CallsClose C net ws op → (ws.step C net op).socket.hasClosedBit) ∧
      (¬ CallsClose C net ws op → (ws.step C net op).socket.NotClosed) := by
  rw [socket_step]
  cases hbase : ws.baseStep C op with
  | none =>
    refine ⟨?_, fun _ => h⟩
    rintro ⟨s, sop, hsome, -⟩
    rw [hbase] at hsome
    exact absurd hsome (Option.some_ne_none _).symm
  | some base =>
    obtain ⟨s, sop⟩ := base
    have hs : s.NotClosed := by
      rw [Socket.NotClosed, openState_baseStep C ws op hbase]
      exact h
    obtain ⟨-, hsets, hkeeps⟩ := Socket.step_of_notClosed net hs sop
    constructor
    · rintro ⟨s', sop', hsome, hcalls⟩
      obtain ⟨rfl, rfl⟩ := Prod.mk.inj (Option.some.inj (hbase.symm.trans hsome))
      exact hsets hcalls
    · intro hnot
      exact hkeeps fun hcalls => hnot ⟨s, sop, hbase, hcalls⟩

/-- A closed socket stays closed. -/
theorem step_of_closed (C : PacketCrypt κ) (net : ℕ → WriteResult) (h : ws.socket.hasClosedBit)
    (op : Op κ) : (ws.step C net op).socket.hasClosedBit := by
  rw [socket_step]
  cases hbase : ws.baseStep C op with
  | none => exact h
  | some base =>
    obtain ⟨s, sop⟩ := base
    have hs : s.hasClosedBit := by
      rw [Socket.hasClosedBit, openState_baseStep C ws op hbase]
      exact h
    exact hs.step net sop

/-- What closing should do in one step: when it sets the `Closed` bit, every packet accepted so
far is completely written. -/
def LosesNothing (C : PacketCrypt κ) (net : ℕ → WriteResult) (ws : WorldSocket κ) (op : Op κ) :
    Prop :=
  ¬ ws.socket.hasClosedBit → (ws.step C net op).socket.hasClosedBit →
    ∀ i < (ws.step C net op).accepted.length, CompletelyWritten (ws.step C net op) i

/-- The condition on the state before a step: a socket is closed at once only with nothing
unsent; `DelayedCloseSocket` on an open socket with an empty write queue, and a write from the
completion of an asynchronous wait that empties the write queue of a closing socket, come only
when the packet queue is empty too. -/
def ClosesDrained (net : ℕ → WriteResult) (ws : WorldSocket κ) : Op κ → Prop
  | .sendPacket _ => True
  | .initCrypt _ => True
  | .closeSocket => ws.bufferQueue = [] ∧ ws.socket.queuedBytes = []
  | .delayedCloseSocket => ws.socket.isOpen → ws.socket.writeQueue = [] → ws.bufferQueue = []
  | .update => True
  | .writeReady => ws.socket.openState = Socket.openStateClosing →
      ∀ m, ws.socket.writeQueue = [m] → Socket.removes (net ws.socket.writeCalls) m →
        ws.bufferQueue = []
  | .readError => ws.bufferQueue = [] ∧ ws.socket.queuedBytes = []

theorem queuedBytes_of_nil {s : Socket} (h : s.writeQueue = []) : s.queuedBytes = [] := by
  rw [Socket.queuedBytes, h, flatMap_nil]

theorem queuedBytes_congr {s s' : Socket} (h : s'.writeQueue = s.writeQueue) :
    s'.queuedBytes = s.queuedBytes := by
  rw [Socket.queuedBytes, h, Socket.queuedBytes]

/-- The queues after a step that closes the socket. -/
theorem queues_of_callsClose (C : PacketCrypt κ) (hnet : Socket.Reliable net) (h : Accounted ws)
    (hopen : ws.socket.NotClosed) {op : Op κ} (hcalls : CallsClose C net ws op) :
    (ws.step C net op).bufferQueue = [] ∧ (ws.step C net op).socket.queuedBytes = [] ↔
      ClosesDrained net ws op := by
  have hclosed := (step_closed C net hopen op).1 hcalls
  obtain ⟨s, sop, hbase, hcalls⟩ := hcalls
  cases op with
  | sendPacket packet => exact absurd hbase (Option.some_ne_none _).symm
  | initCrypt authCrypt => exact absurd hbase (Option.some_ne_none _).symm
  | closeSocket =>
    have hbytes : (ws.step C net .closeSocket).socket.queuedBytes = ws.socket.queuedBytes :=
      queuedBytes_congr (bytes_closeSocket _).2
    exact and_congr_right fun _ => by rw [hbytes]
  | delayedCloseSocket =>
    obtain ⟨rfl, rfl⟩ := Prod.mk.inj (Option.some.inj hbase)
    obtain ⟨hstate, hqueue⟩ := hcalls
    have hnil := queuedBytes_of_nil ((bytes_delayedCloseSocket ws.socket).2.trans hqueue)
    constructor
    · rintro ⟨hbuffer, -⟩ - -
      exact hbuffer
    · intro hdrained
      exact ⟨hdrained (decide_eq_true hstate) hqueue, hnil⟩
  | update =>
    obtain ⟨hbuffer, hstate⟩ := mergeQueue_frame C ws
    have hopen' : (ws.mergeQueue C).socket.NotClosed := by
      rw [Socket.NotClosed, hstate]
      exact hopen
    have htrans := Socket.update_transmits hnet hopen' (mergeQueue_accounted C h).ordered
    exact iff_of_true ⟨hbuffer, queuedBytes_of_nil (htrans.closed hclosed)⟩ trivial
  | writeReady =>
    obtain ⟨rfl, rfl⟩ := Prod.mk.inj (Option.some.inj hbase)
    obtain ⟨hstate, m, hqueue, hremoves⟩ := hcalls
    have htrans := Socket.writeHandlerWrapper_transmits hnet hopen h.ordered
    constructor
    · rintro ⟨hbuffer, -⟩ - - - -
      exact hbuffer
    · intro hdrained
      exact ⟨hdrained hstate m hqueue hremoves, queuedBytes_of_nil (htrans.closed hclosed)⟩
  | readError =>
    have hbytes : (ws.step C net .readError).socket.queuedBytes = ws.socket.queuedBytes :=
      queuedBytes_congr (bytes_closeSocket _).2
    exact and_congr_right fun _ => by rw [hbytes]

/-- A step that does not close the socket meets the condition. -/
theorem closesDrained_of_not_callsClose {op : Op κ} (hcalls : ¬ CallsClose C net ws op) :
    ClosesDrained net ws op := by
  cases op with
  | sendPacket packet => trivial
  | initCrypt authCrypt => trivial
  | closeSocket => exact absurd ⟨_, _, rfl, trivial⟩ hcalls
  | delayedCloseSocket =>
    intro hopen hqueue
    exact absurd ⟨_, _, rfl, of_decide_eq_true hopen, hqueue⟩ hcalls
  | update => trivial
  | writeReady =>
    intro hstate m hqueue hremoves
    exact absurd ⟨_, _, rfl, hstate, m, hqueue, hremoves⟩ hcalls
  | readError => exact absurd ⟨_, _, rfl, rfl⟩ hcalls

/-- **One step** of a socket that is not closed loses nothing exactly when it meets the
condition. -/
theorem losesNothing_step_iff (C : PacketCrypt κ) (hnet : Socket.Reliable net) (h : Accounted ws)
    (hopen : ws.socket.NotClosed) (op : Op κ) :
    LosesNothing C net ws op ↔ ClosesDrained net ws op := by
  obtain ⟨hsets, hkeeps⟩ := step_closed C net hopen op
  have hbit := hopen.not_hasClosedBit
  by_cases hcalls : CallsClose C net ws op
  · have hacc := step_accounted C hnet h hopen op
    rw [← queues_of_callsClose C hnet h hopen hcalls, ← hacc.completelyWritten_iff]
    constructor
    · intro hloses
      exact hloses hbit (hsets hcalls)
    · intro hwritten _ _
      exact hwritten
  · refine iff_of_true ?_ (closesDrained_of_not_callsClose hcalls)
    intro _ hclosed
    exact absurd hclosed (hkeeps hcalls).not_hasClosedBit

/-- A new connection with a send buffer of the given size. -/
def acceptWith (authCrypt : κ) (sendBufferSize : ℕ) : WorldSocket κ :=
  { authCrypt, sendBufferSize }

/-- **Accepted packets and closing.** On a stream that reports no error and takes a part of every
nonempty message, in a run of a new connection: every packet accepted by `SendPacket` is
completely written before the `Closed` bit is set, if and only if every step of the run up to
then meets `ClosesDrained`. -/
theorem losesNothing_iff (C : PacketCrypt κ) (hnet : Socket.Reliable net) (authCrypt : κ)
    (sendBufferSize : ℕ) (ops : List (Op κ)) :
    Run.Along (step C net) (LosesNothing C net) (acceptWith authCrypt sendBufferSize) ops ↔
      Run.Along (step C net) (fun ws op => ws.socket.hasClosedBit ∨ ClosesDrained net ws op)
        (acceptWith authCrypt sendBufferSize) ops := by
  refine Run.along_congr (fun ws => ws.socket.hasClosedBit ∨ Accounted ws ∧ ws.socket.NotClosed)
    ?_ ?_ ops ?_
  · rintro ws op (hbit | ⟨hacc, hopen⟩)
    · exact iff_of_true (fun hnot => absurd hbit hnot) (Or.inl hbit)
    · rw [losesNothing_step_iff C hnet hacc hopen, or_iff_right hopen.not_hasClosedBit]
  · rintro ws op (hbit | ⟨hacc, hopen⟩) -
    · exact Or.inl (step_of_closed C net hbit op)
    · obtain ⟨hsets, hkeeps⟩ := step_closed C net hopen op
      by_cases hcalls : CallsClose C net ws op
      · exact Or.inl (hsets hcalls)
      · exact Or.inr ⟨step_accounted C hnet hacc hopen op, hkeeps hcalls⟩
  · refine Or.inr ⟨⟨?_, rfl, [], rfl, List.Forall₂.nil⟩, Or.inl rfl⟩
    intro m hm
    exact absurd hm not_mem_nil

/-- Header encryption that does nothing. -/
def plainCrypt : PacketCrypt Unit where
  isInitialized _ := false
  decryptRecv _ bytes := (bytes, ())
  encryptSend _ bytes := (bytes, ())
  length_encryptSend _ _ := rfl

/-- A packet, an update that sends it, and a delayed close. -/
theorem losesNothing_iff_update :
    Run.Along (step plainCrypt fun _ => .sent 4096) (LosesNothing plainCrypt fun _ => .sent 4096)
        (acceptWith () 4096) [.sendPacket ⟨0x1EE, [21]⟩, .update, .delayedCloseSocket] ↔
      Run.Along (step plainCrypt fun _ => .sent 4096)
        (fun ws op => ws.socket.hasClosedBit ∨ ClosesDrained (fun _ => .sent 4096) ws op)
        (acceptWith () 4096) [.sendPacket ⟨0x1EE, [21]⟩, .update, .delayedCloseSocket] :=
  losesNothing_iff plainCrypt (fun _ => ⟨WriteResult.noConfusion, by simp⟩) () 4096 _

/-- The authentication error of `HandleAuthSessionCallback`: a packet and a delayed close right
after it. The `Closed` bit is set while the packet waits in the packet queue. -/
theorem not_losesNothing_delayedCloseSocket :
    Socket.Reliable (fun _ => .sent 4096) ∧
      ¬ Run.Along (step plainCrypt fun _ => .sent 4096)
        (LosesNothing plainCrypt fun _ => .sent 4096)
        (acceptWith () 4096) [.sendPacket ⟨0x1EE, [21]⟩, .delayedCloseSocket] := by
  refine ⟨fun _ => ⟨WriteResult.noConfusion, by simp⟩, ?_⟩
  rintro ⟨-, hloses, -⟩
  obtain ⟨p, frame, -, hframe, -⟩ := hloses (by decide) (by decide) 0 (by decide)
  exact absurd hframe (Option.some_ne_none _).symm

end WorldSocket

end IscServer
