import IscServer.Library.Run
import Mathlib.Data.List.Nodup
import Mathlib.Data.List.Perm.Basic

/-!
# The Packet Queue of a Session

The packets of a client from `WorldSession::QueuePacket` to their handlers: the queue
(`common/Threading/LockedQueue.h`), the filters of the two updaters and the loop of `WorldSession::Update`
(`game/Server/WorldSession.cpp`).

* The steps are those between which other threads can append: taking a packet from the queue, handling it,
  and putting back what came too early. An event that does not fit the state changes nothing.
* The player, the flags and the socket of the session change at any time, also in handlers.
* What the handlers do is left out. A handler that throws one of the exceptions that are caught has handled
  its packet; the packet is deleted all the same.
-/

namespace IscServer.WorldSession

/-! ### `LockedQueue` -/

section LockedQueue

variable {α : Type} (queue : List α)

/-- `LockedQueue::add`. -/
def add (item : α) : List α := queue ++ [item]

/-- `LockedQueue::readd`. -/
def readd (items : List α) : List α := items ++ queue

/-- `LockedQueue::next` with a checker. -/
def next (check : α → Bool) : Option (α × List α) :=
  match queue with
  | [] => none
  | result :: rest => if check result then some (result, rest) else none

end LockedQueue

/-! ### Opcodes and filters -/

/-- `SessionStatus`. -/
inductive SessionStatus
  | authed
  | loggedin
  | transfer
  | loggedinOrRecentlyLoggout
  | never
  | unhandled
  deriving DecidableEq, Repr

/-- `PacketProcessing`. -/
inductive PacketProcessing
  | inplace
  | threadUnsafe
  | threadSafe
  deriving DecidableEq, Repr

/-- What is read of a `ClientOpcodeHandler`. -/
structure ClientOpcodeHandler where
  status : SessionStatus
  processingPlace : PacketProcessing
  deriving DecidableEq, Repr

/-- `CMSG_CHAR_ENUM`. -/
def cmsgCharEnum : ℕ := 0x037

/-- A `WorldPacket` on the heap: which one it is, and its opcode. -/
structure Packet where
  id : ℕ
  opcode : ℕ
  deriving DecidableEq, Repr

/-- What the queue handling reads of a session: `_player`, with `IsInWorld`, the flags of the login state
and whether there is a socket. -/
structure Flags where
  player : Option Bool
  playerRecentlyLogout : Bool
  playerLogout : Bool
  inQueue : Bool
  socket : Bool
  deriving DecidableEq, Repr

/-- The updaters. -/
inductive PacketFilter
  | mapSessionFilter
  | worldSessionFilter
  deriving DecidableEq, Repr

variable (opcodeTable : ℕ → ClientOpcodeHandler)

/-- `MapSessionFilter::Process` and `WorldSessionFilter::Process`. -/
def PacketFilter.process (flags : Flags) (packet : Packet) : PacketFilter → Bool
  | mapSessionFilter => match (opcodeTable packet.opcode).processingPlace with
      | .inplace => true
      | .threadUnsafe => false
      | .threadSafe => match flags.player with
          | none => false
          | some isInWorld => isInWorld
  | worldSessionFilter => match (opcodeTable packet.opcode).processingPlace with
      | .inplace => true
      | .threadUnsafe => true
      | .threadSafe => match flags.player with
          | none => true
          | some isInWorld => !isInWorld

/-! ### The switch -/

/-- What becomes of a packet: its handler is called, it is a flood that ends the loop, it is put back, or
it is not handled. -/
inductive Dispatch
  | call
  | flood
  | requeue
  | drop
  deriving DecidableEq, Repr

/-- A call, if `AntiDOS.EvaluateOpcode` lets it pass. -/
def Dispatch.evaluated (evaluateOpcode : Bool) : Dispatch := if evaluateOpcode then call else flood

/-- The `switch` in the loop of `WorldSession::Update`. -/
def dispatch (flags : Flags) (evaluateOpcode : Bool) (status : SessionStatus) : Dispatch :=
  match status with
  | .loggedin => match flags.player with
      | none => if flags.playerRecentlyLogout then .drop else .requeue
      | some isInWorld => if isInWorld then .evaluated evaluateOpcode else .drop
  | .loggedinOrRecentlyLoggout =>
    if flags.player.isNone && !flags.playerRecentlyLogout && !flags.playerLogout then .drop
    else .evaluated evaluateOpcode
  | .transfer => match flags.player with
      | none => .drop
      | some isInWorld => if isInWorld then .drop else .evaluated evaluateOpcode
  | .authed => if flags.inQueue then .drop else .evaluated evaluateOpcode
  | .never | .unhandled => .drop

/-- `m_playerRecentlyLogout` after the `switch`. -/
def recentlyLogoutAfter (flags : Flags) (packet : Packet) : Bool :=
  if (opcodeTable packet.opcode).status = .authed && !flags.inQueue && packet.opcode = cmsgCharEnum then false
  else flags.playerRecentlyLogout

/-! ### Updates -/

/-- The local variables of `WorldSession::Update`. -/
structure Frame where
  updater : PacketFilter
  requeuePackets : List Packet
  processedPackets : ℕ
  deriving DecidableEq, Repr

/-- `MAX_PROCESSED_PACKETS_IN_SAME_WORLDSESSION_UPDATE`. -/
def maxProcessedPackets : ℕ := 100

/-- What an `Update` has seen: the queue at its start with what was appended since, the packets it took,
and the one that the filter refused. -/
structure UpdateLog where
  queued : List Packet
  taken : List Packet
  refused : Option Packet
  deriving DecidableEq, Repr

/-- Where the `Update` of the session is: not running, at the condition of the loop, with a packet in hand,
or behind the loop. -/
inductive Phase
  | idle
  | loop (frame : Frame) (log : UpdateLog)
  | holding (frame : Frame) (packet : Packet) (log : UpdateLog)
  | left (frame : Frame) (log : UpdateLog)
  deriving DecidableEq, Repr

/-- A session, with the packets that have arrived, in this order, those whose handler was called and those
that were deleted, and with the finished updates. -/
structure Session where
  recvQueue : List Packet
  flags : Flags
  phase : Phase
  arrived : List Packet
  handled : List Packet
  deleted : List Packet
  updates : List UpdateLog
  deriving DecidableEq, Repr

/-- A new session. -/
def Session.new (flags : Flags) : Session := ⟨[], flags, .idle, [], [], [], []⟩

/-- What happens to a session. -/
inductive Event
  | queuePacket (opcode : ℕ)
  | evolve (flags : Flags)
  | startUpdate (updater : PacketFilter)
  | next
  | process (evaluateOpcode : Bool)
  | readd
  deriving DecidableEq, Repr

/-- The log of a running update with a packet that has arrived. -/
def UpdateLog.arrive (log : UpdateLog) (packet : Packet) : UpdateLog :=
  { log with queued := log.queued ++ [packet] }

/-- The phase with a packet that has arrived. -/
def Phase.arrive (packet : Packet) : Phase → Phase
  | idle => idle
  | loop frame log => loop frame (log.arrive packet)
  | holding frame inHand log => holding frame inHand (log.arrive packet)
  | left frame log => left frame (log.arrive packet)

/-- `WorldSession::QueuePacket`. -/
def Session.queuePacket (session : Session) (packet : Packet) : Session :=
  { session with
    recvQueue := add session.recvQueue packet
    phase := session.phase.arrive packet
    arrived := session.arrived ++ [packet] }

/-- The condition of the loop. -/
def Session.next (session : Session) (frame : Frame) (log : UpdateLog) : Session :=
  let process := fun packet => frame.updater.process opcodeTable session.flags packet
  match if session.flags.socket then WorldSession.next session.recvQueue process else none with
  | some (packet, rest) => { session with
      recvQueue := rest
      phase := .holding frame packet { log with taken := log.taken ++ [packet] } }
  | none => { session with
      phase := .left frame { log with
        refused := if session.flags.socket then session.recvQueue.head? else none } }

/-- The body of the loop. -/
def Session.process (session : Session) (evaluateOpcode : Bool) (frame : Frame) (packet : Packet)
    (log : UpdateLog) : Session :=
  let result := dispatch session.flags evaluateOpcode (opcodeTable packet.opcode).status
  let processedPackets := (if result = .flood then maxProcessedPackets else frame.processedPackets) + 1
  let frame := { frame with
    requeuePackets := if result = .requeue then frame.requeuePackets ++ [packet] else frame.requeuePackets
    processedPackets := processedPackets }
  { session with
    flags := { session.flags with playerRecentlyLogout := recentlyLogoutAfter opcodeTable session.flags packet }
    phase := if maxProcessedPackets < processedPackets then .left frame log else .loop frame log
    handled := if result = .call then session.handled ++ [packet] else session.handled
    deleted := if result = .requeue then session.deleted else session.deleted ++ [packet] }

/-- Behind the loop. -/
def Session.readd (session : Session) (frame : Frame) (log : UpdateLog) : Session :=
  { session with
    recvQueue := WorldSession.readd session.recvQueue frame.requeuePackets
    phase := .idle
    updates := session.updates ++ [log] }

/-- One step. -/
def Session.step (session : Session) : Event → Session
  | .queuePacket opcode => session.queuePacket ⟨session.arrived.length, opcode⟩
  | .evolve flags => { session with flags := flags }
  | .startUpdate updater => match session.phase with
      | .idle => { session with phase := .loop ⟨updater, [], 0⟩ ⟨session.recvQueue, [], none⟩ }
      | _ => session
  | .next => match session.phase with
      | .loop frame log => session.next opcodeTable frame log
      | _ => session
  | .process evaluateOpcode => match session.phase with
      | .holding frame packet log => session.process opcodeTable evaluateOpcode frame packet log
      | _ => session
  | .readd => match session.phase with
      | .left frame log => session.readd frame log
      | _ => session

end IscServer.WorldSession
