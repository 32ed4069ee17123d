import IscServer.Library.Run
import IscServer.Networking.MessageBuffer

/-!
# Sockets

`Trinity::Net::Socket` (`shared/Networking/Socket.h`), as built without I/O completion ports:
writes happen in `HandleQueue`, called from `Update` and from the completion of an asynchronous
wait. Every public operation and every completion runs on the socket's network thread and is one
step; the answer of the `k`-th `write_some` is `net k`, for an arbitrary `net`.

The last four fields of `Socket` record what the world outside of it has seen: the bytes that
the stream accepted, the number of `write_some` calls, and how often `shutdown` and `OnClose`
have run.

## Main results

* `drain_outcome`: when the write loop of `Update` sets the `Closed` bit.
* `drain_transmits`: the write loop only moves bytes from the queue to the stream.
* `step_of_notClosed`: what a step from a socket that is not closed does to the open state, and
  that it never runs the shutdown.
* `closesOnce_iff`: **the shutdown runs once, by the call that sets the `Closed` bit, exactly in
  those runs in which that bit is never set** — `CloseSocket` tests the wrong way round.
-/

namespace IscServer

open List

/-- The outcome of one `write_some`: the stream is full (`would_block` or `try_again`), another
error, or a number of bytes sent. -/
inductive WriteResult where
  | wouldBlock
  | error
  | sent (bytes : ℕ)
  deriving DecidableEq, Repr

/-- `SocketReadCallbackResult`. -/
inductive ReadCallbackResult where
  | keepReading
  | stop
  deriving DecidableEq, Repr

/-- How a part of the loop body of a `ReadHandler` ends: go on, leave the loop, or return
`Stop`. -/
inductive Flow where
  | next
  | wait
  | stop
  deriving DecidableEq, Repr

/-- `READ_BLOCK_SIZE`. -/
def readBlockSize : ℕ := 4096

/-- `Socket`. -/
structure Socket where
  openState : UInt8 := 0
  readBuffer : MessageBuffer := .ofSize readBlockSize
  writeQueue : List MessageBuffer := []
  isWritingAsync : Bool := false
  written : List UInt8 := []
  writeCalls : ℕ := 0
  shutdowns : ℕ := 0
  onCloses : ℕ := 0
  deriving DecidableEq, Repr

namespace Socket

/-- `OpenState_Open`. -/
def openStateOpen : UInt8 := 0x0

/-- `OpenState_Closing`. -/
def openStateClosing : UInt8 := 0x1

/-- `OpenState_Closed`. -/
def openStateClosed : UInt8 := 0x2

/-- `IsOpen`. -/
def isOpen (s : Socket) : Bool :=
  s.openState = openStateOpen

/-- The `Closed` bit of the open state. -/
def hasClosedBit (s : Socket) : Prop :=
  s.openState &&& openStateClosed ≠ 0

instance (s : Socket) : Decidable s.hasClosedBit :=
  inferInstanceAs (Decidable (_ ≠ _))

/-- `CloseSocket`. -/
def closeSocket (s : Socket) : Socket :=
  let s' := { s with openState := s.openState ||| openStateClosed }
  if s.openState &&& openStateClosed = 0 then s'
  else { s' with shutdowns := s.shutdowns + 1, onCloses := s.onCloses + 1 }

/-- `DelayedCloseSocket`. -/
def delayedCloseSocket (s : Socket) : Socket :=
  let s' := { s with openState := s.openState ||| openStateClosing }
  if s.openState ≠ 0 then s'
  else if s'.writeQueue = [] then s'.closeSocket else s'

/-- `QueuePacket`. -/
def queuePacket (s : Socket) (buffer : MessageBuffer) : Socket :=
  { s with writeQueue := s.writeQueue ++ [buffer] }

/-- `AsyncProcessQueue`: starts an asynchronous wait unless one is pending; never asks for
another round. -/
def asyncProcessQueue (s : Socket) : Bool × Socket :=
  (false, { s with isWritingAsync := true })

/-- The end of a message in `HandleQueue`: remove it, and close a closing socket whose queue is
empty. -/
def popMessage (s : Socket) : Socket :=
  let s' := { s with writeQueue := s.writeQueue.tail }
  if s'.openState = openStateClosing ∧ s'.writeQueue = [] then s'.closeSocket else s'

/-- `HandleQueue`. -/
def handleQueue (net : ℕ → WriteResult) (s : Socket) : Bool × Socket :=
  match s.writeQueue with
  | [] => (false, s)
  | queuedMessage :: rest =>
    let bytesToSend := queuedMessage.activeSize
    let s' := { s with writeCalls := s.writeCalls + 1 }
    match net s.writeCalls with
    | .wouldBlock => s'.asyncProcessQueue
    | .error => (false, s'.popMessage)
    | .sent bytes =>
      let bytesSent := min bytes bytesToSend
      let s' := { s' with written := s'.written ++ queuedMessage.active.take bytesSent }
      if bytesSent = 0 then (false, s'.popMessage)
      else if bytesSent < bytesToSend then
        asyncProcessQueue { s'
          with writeQueue := queuedMessage.readCompleted bytesSent :: rest }
      else (!s'.popMessage.writeQueue.isEmpty, s'.popMessage)

/-- `for (; HandleQueue();)`, for at most `fuel` rounds. A round that asks for another one has
removed a message, so a round for each message is enough (`drain_outcome`). -/
def drain (net : ℕ → WriteResult) : ℕ → Socket → Socket
  | 0, s => s
  | fuel + 1, s =>
    let r := handleQueue net s
    if r.1 then drain net fuel r.2 else r.2

/-- `Update`; `false` asks the network thread to drop the socket. -/
def update (net : ℕ → WriteResult) (s : Socket) : Bool × Socket :=
  if s.openState = openStateClosed then (false, s)
  else if s.isWritingAsync ∨ (s.writeQueue = [] ∧ s.openState = openStateOpen) then (true, s)
  else (true, drain net s.writeQueue.length s)

/-- `WriteHandlerWrapper`: the completion of an asynchronous wait. -/
def writeHandlerWrapper (net : ℕ → WriteResult) (s : Socket) : Socket :=
  (handleQueue net { s with isWritingAsync := false }).2

/-- `AsyncRead`, up to the request to the stream. -/
def asyncRead (s : Socket) : Socket :=
  if s.isOpen then { s with readBuffer := s.readBuffer.normalize.ensureFreeSpace } else s

/-- `ReadHandlerInternal`, on the bytes that the stream has put behind the write pointer. -/
def readHandlerInternal (s : Socket) (error : Bool) (data : List UInt8) : Bool × Socket :=
  let s' := { s with readBuffer := s.readBuffer.copyIn data }
  if error then (false, s'.closeSocket)
  else (s'.isOpen, { s' with readBuffer := s'.readBuffer.writeCompleted data.length })

/-- The completion of a read with the read handler of the base class, which keeps reading. -/
def readCompletion (s : Socket) (error : Bool) (data : List UInt8) : Socket :=
  let r := s.readHandlerInternal error data
  if r.1 then r.2.asyncRead else r.2

/-- The steps of a socket. -/
inductive Op where
  | closeSocket
  | delayedCloseSocket
  | queuePacket (buffer : MessageBuffer)
  | update
  | writeReady
  | readCompletion (error : Bool) (data : List UInt8)

/-- One step. -/
def step (net : ℕ → WriteResult) (s : Socket) : Op → Socket
  | .closeSocket => s.closeSocket
  | .delayedCloseSocket => s.delayedCloseSocket
  | .queuePacket buffer => s.queuePacket buffer
  | .update => (s.update net).2
  | .writeReady => s.writeHandlerWrapper net
  | .readCompletion error data => s.readCompletion error data

/-! ### The write loop -/

/-- A write that sends all of a nonempty message. -/
def sendsAll (res : WriteResult) (m : MessageBuffer) : Prop :=
  ∃ bytes, res = .sent bytes ∧ 0 < m.activeSize ∧ m.activeSize ≤ bytes

/-- A write after which the message leaves the queue: all of it is sent, or the write fails or
sends nothing. -/
def removes (res : WriteResult) (m : MessageBuffer) : Prop :=
  res = .error ∨ ∃ bytes, res = .sent bytes ∧ (m.activeSize ≤ bytes ∨ bytes = 0)

/-- The writes from call `k` on empty the queue: all messages but the last are sent completely,
and the last is removed. -/
def Empties (net : ℕ → WriteResult) : ℕ → List MessageBuffer → Prop
  | _, [] => False
  | k, [m] => removes (net k) m
  | k, m :: m' :: rest => sendsAll (net k) m ∧ Empties net (k + 1) (m' :: rest)

theorem handleQueue_nil (net : ℕ → WriteResult) {s : Socket} (hq : s.writeQueue = []) :
    handleQueue net s = (false, s) := by
  rw [handleQueue, hq]

variable {net : ℕ → WriteResult} {s : Socket} {m : MessageBuffer} {rest : List MessageBuffer}

/-- The message at the front is sent completely. -/
theorem handleQueue_of_sendsAll (hq : s.writeQueue = m :: rest)
    (h : sendsAll (net s.writeCalls) m) :
    handleQueue net s = (!rest.isEmpty,
      popMessage { s with writeCalls := s.writeCalls + 1, written := s.written ++ m.active }) := by
  obtain ⟨bytes, hres, hpos, hle⟩ := h
  have hmin : min bytes m.activeSize = m.activeSize := Nat.min_eq_right hle
  have hactive : m.active.take m.activeSize = m.active := by
    rw [MessageBuffer.active, take_take, Nat.min_self]
  have hrest : (popMessage
    { s with writeCalls := s.writeCalls + 1, written := s.written ++ m.active }).writeQueue =
      rest := by
    simp only [popMessage, closeSocket, hq]
    split_ifs <;> rfl
  rw [handleQueue, hq]
  simp only [hres, hmin, hactive, Nat.lt_irrefl, if_false, if_neg (Nat.pos_iff_ne_zero.mp hpos)]
  rw [← hq, hrest]

/-- The message at the front is dropped without being sent. -/
theorem handleQueue_of_removes (hq : s.writeQueue = m :: rest) (h : removes (net s.writeCalls) m)
    (hnot : ¬ sendsAll (net s.writeCalls) m) :
    handleQueue net s = (false, popMessage { s with writeCalls := s.writeCalls + 1 }) := by
  rw [handleQueue, hq]
  rcases h with herr | ⟨bytes, hres, hsize⟩
  · simp only [herr]
  · have hmin : min bytes m.activeSize = 0 := by
      rcases hsize with hle | hzero
      · by_contra hne
        exact hnot ⟨bytes, hres, by omega, hle⟩
      · omega
    simp only [hres, hmin, if_true, take_zero, append_nil]

/-- The number of bytes that a write takes from a message which stays in the queue. -/
def partialBytes : WriteResult → ℕ
  | .sent bytes => bytes
  | _ => 0

/-- The message at the front stays: the stream is full or takes only a part of it, and an
asynchronous wait is pending. -/
theorem handleQueue_of_not_removes (hq : s.writeQueue = m :: rest)
    (h : ¬ removes (net s.writeCalls) m) :
    handleQueue net s = (false, { s with
      writeCalls := s.writeCalls + 1
      written := s.written ++ m.active.take (partialBytes (net s.writeCalls))
      writeQueue := m.readCompleted (partialBytes (net s.writeCalls)) :: rest
      isWritingAsync := true }) := by
  rw [handleQueue, hq]
  cases hres : net s.writeCalls with
  | wouldBlock =>
    simp only [asyncProcessQueue, partialBytes, take_zero, append_nil, MessageBuffer.readCompleted, Nat.add_zero]
  | error => exact absurd (Or.inl hres) h
  | sent bytes =>
    have hlt : bytes < m.activeSize := by
      by_contra hge
      exact h (Or.inr ⟨bytes, hres, Or.inl (by omega)⟩)
    have hpos : bytes ≠ 0 := fun hzero => h (Or.inr ⟨bytes, hres, Or.inr hzero⟩)
    have hmin : min bytes m.activeSize = bytes := by omega
    simp only [hmin, if_neg hpos, if_pos hlt, asyncProcessQueue, partialBytes]

/-! ### When the `Closed` bit is set -/

/-- Neither the shutdown nor `OnClose` has run between two states. -/
structure Quiet (s s' : Socket) : Prop where
  shutdowns_eq : s'.shutdowns = s.shutdowns
  onCloses_eq : s'.onCloses = s.onCloses

/-- The effect of an operation on the open state of a socket that is not closed: it sets the
`Closed` bit if `c` holds and changes nothing otherwise, and the shutdown does not run. -/
structure Outcome (s s' : Socket) (c : Prop) : Prop extends Quiet s s' where
  sets : c → s'.hasClosedBit
  keeps : ¬ c → s'.openState = s.openState

variable {s' : Socket} {c : Prop}

theorem Outcome.of_not (hc : ¬ c) (hq : Quiet s s') (h : s'.openState = s.openState) :
    Outcome s s' c :=
  ⟨hq, fun hc' => absurd hc' hc, fun _ => h⟩

theorem Outcome.congr {d : Prop} (h : Outcome s s' c) (hcd : c ↔ d) : Outcome s s' d := by
  rwa [← propext hcd]

/-- An operation that leaves the open state alone, followed by another one. -/
theorem Outcome.after {s'' : Socket} (h : Outcome s' s'' c) (s : Socket) (hq : Quiet s s')
    (hstate : s'.openState = s.openState) : Outcome s s'' c :=
  ⟨⟨h.shutdowns_eq.trans hq.1, h.onCloses_eq.trans hq.2⟩, h.sets, fun hc =>
    (h.keeps hc).trans hstate⟩

/-- The socket is open or waits for its queue to empty. -/
def NotClosed (s : Socket) : Prop :=
  s.openState = openStateOpen ∨ s.openState = openStateClosing

theorem NotClosed.not_hasClosedBit (h : s.NotClosed) : ¬ s.hasClosedBit := by
  rw [hasClosedBit]
  rcases h with h | h <;> rw [h] <;> decide

/-- `CloseSocket` on a socket that is not closed sets the bit and returns at once. -/
theorem closeSocket_outcome (h : s.NotClosed) : Outcome s s.closeSocket True := by
  have heq : s.closeSocket = { s with openState := s.openState ||| openStateClosed } :=
    if_pos (not_not.mp h.not_hasClosedBit)
  rw [heq]
  refine ⟨⟨rfl, rfl⟩, fun _ => ?_, fun hc => absurd trivial hc⟩
  rw [hasClosedBit]
  rcases h with h | h <;> simp only [h] <;> decide

theorem writeQueue_closeSocket (s : Socket) : s.closeSocket.writeQueue = s.writeQueue := by
  rw [closeSocket]
  split_ifs <;> rfl

theorem readBuffer_closeSocket (s : Socket) : s.closeSocket.readBuffer = s.readBuffer := by
  rw [closeSocket]
  split_ifs <;> rfl

theorem popMessage_outcome (h : s.NotClosed) :
    Outcome s s.popMessage (s.openState = openStateClosing ∧ s.writeQueue.tail = []) := by
  rw [popMessage]
  split_ifs with hc
  · obtain ⟨hquiet, hsets, -⟩ :=
      closeSocket_outcome (s := { s with writeQueue := s.writeQueue.tail }) h
    exact ⟨⟨hquiet.1, hquiet.2⟩, fun _ => hsets trivial, fun hn => absurd hc hn⟩
  · exact Outcome.of_not hc ⟨rfl, rfl⟩ rfl

theorem writeQueue_popMessage (s : Socket) : s.popMessage.writeQueue = s.writeQueue.tail := by
  rw [popMessage]
  split_ifs
  · rw [writeQueue_closeSocket]
  · rfl

theorem writeCalls_popMessage (s : Socket) : s.popMessage.writeCalls = s.writeCalls := by
  simp only [popMessage, closeSocket]
  split_ifs <;> rfl

/-- `HandleQueue` closes a closing socket with its last message. -/
theorem handleQueue_outcome (net : ℕ → WriteResult) (h : s.NotClosed) :
    Outcome s (handleQueue net s).2
      (s.openState = openStateClosing ∧ ∃ m, s.writeQueue = [m] ∧
        removes (net s.writeCalls) m) := by
  cases hq : s.writeQueue with
  | nil =>
    rw [handleQueue_nil net hq]
    exact Outcome.of_not (by simp) ⟨rfl, rfl⟩ rfl
  | cons m rest =>
    by_cases hrem : removes (net s.writeCalls) m
    · have hiff : (s.openState = openStateClosing ∧ s.writeQueue.tail = []) ↔
          (s.openState = openStateClosing ∧ ∃ m', m :: rest = [m'] ∧
            removes (net s.writeCalls) m') := by
        rw [hq, tail_cons]
        refine and_congr_right fun _ => ⟨?_, ?_⟩
        · rintro rfl
          exact ⟨m, rfl, hrem⟩
        · rintro ⟨m', hm, -⟩
          exact (List.cons.inj hm).2
      by_cases hall : sendsAll (net s.writeCalls) m
      · rw [handleQueue_of_sendsAll hq hall]
        have hpop := popMessage_outcome (s := { s with
          writeCalls := s.writeCalls + 1, written := s.written ++ m.active }) h
        exact (hpop.after s ⟨rfl, rfl⟩ rfl).congr hiff
      · rw [handleQueue_of_removes hq hrem hall]
        have hpop := popMessage_outcome (s := { s with writeCalls := s.writeCalls + 1 }) h
        exact (hpop.after s ⟨rfl, rfl⟩ rfl).congr hiff
    · rw [handleQueue_of_not_removes hq hrem]
      refine Outcome.of_not ?_ ⟨rfl, rfl⟩ rfl
      rintro ⟨-, m', hm, hrem'⟩
      obtain ⟨rfl, -⟩ := List.cons.inj hm
      exact hrem hrem'

/-- `HandleQueue` asks for another round exactly when it has sent a message and there is
another one. -/
theorem handleQueue_again (net : ℕ → WriteResult) (s : Socket) :
    (handleQueue net s).1 = true ↔
      ∃ m m' rest, s.writeQueue = m :: m' :: rest ∧ sendsAll (net s.writeCalls) m := by
  cases hq : s.writeQueue with
  | nil => simp [handleQueue_nil net hq]
  | cons m rest =>
    by_cases hall : sendsAll (net s.writeCalls) m
    · rw [handleQueue_of_sendsAll hq hall]
      cases rest with
      | nil => simp
      | cons m' rest =>
        simp only [isEmpty_cons, Bool.not_false, true_iff]
        exact ⟨m, m', rest, rfl, hall⟩
    · have hfst : (handleQueue net s).1 = false := by
        by_cases hrem : removes (net s.writeCalls) m
        · rw [handleQueue_of_removes hq hrem hall]
        · rw [handleQueue_of_not_removes hq hrem]
      rw [hfst]
      constructor
      · intro h
        exact absurd h Bool.false_ne_true
      · rintro ⟨m₁, m', rest', hcons, h⟩
        obtain ⟨rfl, -⟩ := List.cons.inj hcons
        exact absurd h hall

variable {fuel : ℕ}

/-- The write loop of `Update` closes a closing socket exactly when it empties the queue. -/
theorem drain_outcome (net : ℕ → WriteResult) (h : s.NotClosed)
    (hfuel : s.writeQueue.length ≤ fuel) :
    Outcome s (drain net fuel s)
      (s.openState = openStateClosing ∧ Empties net s.writeCalls s.writeQueue) := by
  induction fuel generalizing s with
  | zero =>
    have hq : s.writeQueue = [] := length_eq_zero_iff.mp (Nat.le_zero.mp hfuel)
    exact Outcome.of_not (by simp [hq, Empties]) ⟨rfl, rfl⟩ rfl
  | succ fuel ih =>
    rw [drain]
    have hout := handleQueue_outcome net h
    by_cases hagain : (handleQueue net s).1 = true
    · rw [if_pos hagain]
      obtain ⟨m, m', rest, hq, hall⟩ := (handleQueue_again net s).mp hagain
      have hmore : ¬ (s.openState = openStateClosing ∧
          ∃ m, s.writeQueue = [m] ∧ removes (net s.writeCalls) m) := by
        simp [hq]
      have hstate := hout.keeps hmore
      have hqueue : (handleQueue net s).2.writeQueue = m' :: rest := by
        rw [handleQueue_of_sendsAll hq hall, writeQueue_popMessage]
        simp [hq]
      have hcalls : (handleQueue net s).2.writeCalls = s.writeCalls + 1 := by
        rw [handleQueue_of_sendsAll hq hall, writeCalls_popMessage]
      have hnot : (handleQueue net s).2.NotClosed := by
        rw [NotClosed, hstate]
        exact h
      have hnext := ih hnot (by rw [hqueue]; rw [hq] at hfuel; simpa using hfuel)
      rw [hstate, hqueue, hcalls] at hnext
      refine (hnext.after s hout.toQuiet hstate).congr ?_
      rw [hq]
      exact and_congr_right fun _ => (and_iff_right hall).symm
    · rw [if_neg hagain]
      refine hout.congr (and_congr_right fun _ => ?_)
      -- without another round only the last message can have been removed
      cases hq : s.writeQueue with
      | nil => simp [Empties]
      | cons m rest =>
        cases rest with
        | nil => simp [Empties]
        | cons m' rest =>
          have hall : ¬ sendsAll (net s.writeCalls) m := fun hall =>
            hagain ((handleQueue_again net s).mpr ⟨m, m', rest, hq, hall⟩)
          simp [Empties, hall]

/-! ### No bytes are lost -/

/-- The unsent bytes of the write queue. -/
def queuedBytes (s : Socket) : List UInt8 :=
  s.writeQueue.flatMap MessageBuffer.active

/-- The stream reports no error other than being full, and takes at least a byte of every
nonempty message. -/
def Reliable (net : ℕ → WriteResult) : Prop :=
  ∀ k, net k ≠ .error ∧ net k ≠ .sent 0

/-- Every queued message has its cursors in order. -/
def QueueOrdered (s : Socket) : Prop :=
  ∀ m ∈ s.writeQueue, m.Ordered

/-- Between two states, bytes have only moved from the queue to the stream, and the socket is
not closed before the queue is empty. -/
structure Transmits (s s' : Socket) : Prop where
  ordered : s'.QueueOrdered
  bytes : s'.written ++ s'.queuedBytes = s.written ++ s.queuedBytes
  closed : s'.hasClosedBit → s'.writeQueue = []

theorem written_popMessage (s : Socket) : s.popMessage.written = s.written := by
  simp only [popMessage, closeSocket]
  split_ifs <;> rfl

/-- A socket that `HandleQueue` closes has an empty queue. -/
theorem writeQueue_of_handleQueue_closed (net : ℕ → WriteResult) (h : s.NotClosed)
    (hbit : (handleQueue net s).2.hasClosedBit) : (handleQueue net s).2.writeQueue = [] := by
  have hout := handleQueue_outcome net h
  by_cases hc : s.openState = openStateClosing ∧ ∃ m, s.writeQueue = [m] ∧
    removes (net s.writeCalls) m
  · obtain ⟨-, m, hq, hrem⟩ := hc
    by_cases hall : sendsAll (net s.writeCalls) m
    · rw [handleQueue_of_sendsAll hq hall, writeQueue_popMessage]
      simp [hq]
    · rw [handleQueue_of_removes hq hrem hall, writeQueue_popMessage]
      simp [hq]
  · have hnot : (handleQueue net s).2.NotClosed := by
      rw [NotClosed, hout.keeps hc]
      exact h
    exact absurd hbit hnot.not_hasClosedBit

section

variable (hnet : Reliable net)
include hnet

/-- On a reliable stream, a message is removed only when all of it is sent. -/
theorem active_of_removes {k : ℕ} (hm : m.Ordered) (hrem : removes (net k) m)
    (hnot : ¬ sendsAll (net k) m) : m.active = [] := by
  obtain ⟨hne, hne0⟩ := hnet k
  rcases hrem with herr | ⟨bytes, hres, hle | hzero⟩
  · exact absurd herr hne
  · refine length_eq_zero_iff.mp (hm.length_active.trans ?_)
    by_contra hpos
    exact hnot ⟨bytes, hres, Nat.pos_of_ne_zero hpos, hle⟩
  · rw [hzero] at hres
    exact absurd hres hne0

section

variable (h : s.NotClosed) (hord : s.QueueOrdered)
include h hord

/-- **`HandleQueue` loses nothing** on a reliable stream. -/
theorem handleQueue_transmits : Transmits s (handleQueue net s).2 := by
  suffices hmoved : (handleQueue net s).2.QueueOrdered ∧
      (handleQueue net s).2.written ++ (handleQueue net s).2.queuedBytes = s.written ++
        s.queuedBytes from
    ⟨hmoved.1, hmoved.2, writeQueue_of_handleQueue_closed net h⟩
  cases hq : s.writeQueue with
  | nil =>
    rw [handleQueue_nil net hq]
    exact ⟨hord, rfl⟩
  | cons m rest =>
    have hm : m.Ordered := hord m (by rw [hq]; exact mem_cons_self)
    have hrest : ∀ m' ∈ rest, m'.Ordered :=
      fun m' hm' => hord m' (by rw [hq]; exact mem_cons_of_mem _ hm')
    have hbytes : s.queuedBytes = m.active ++ rest.flatMap MessageBuffer.active := by
      rw [queuedBytes, hq, flatMap_cons]
    by_cases hrem : removes (net s.writeCalls) m
    · by_cases hall : sendsAll (net s.writeCalls) m
      · rw [handleQueue_of_sendsAll hq hall]
        simp only [QueueOrdered, queuedBytes, writeQueue_popMessage, written_popMessage, hq,
          tail_cons]
        refine ⟨hrest, ?_⟩
        rw [flatMap_cons, append_assoc]
      · rw [handleQueue_of_removes hq hrem hall, hbytes, active_of_removes hnet hm hrem hall]
        simp only [QueueOrdered, queuedBytes, writeQueue_popMessage, written_popMessage, hq]
        exact ⟨hrest, rfl⟩
    · have hpart : partialBytes (net s.writeCalls) ≤ m.activeSize := by
        cases hres : net s.writeCalls with
        | wouldBlock => exact Nat.zero_le _
        | error => exact absurd (Or.inl hres) hrem
        | sent bytes =>
          by_contra hgt
          exact hrem (Or.inr ⟨bytes, hres, Or.inl (Nat.le_of_lt (Nat.lt_of_not_le hgt))⟩)
      obtain ⟨hm', hactive, -⟩ := hm.readCompleted hpart
      rw [handleQueue_of_not_removes hq hrem, hbytes]
      refine ⟨forall_mem_cons.mpr ⟨hm', hrest⟩, ?_⟩
      simp only [queuedBytes, flatMap_cons, hactive]
      rw [append_assoc, ← append_assoc (List.take _ _), take_append_drop]

/-- **The write loop of `Update` loses nothing** on a reliable stream. -/
theorem drain_transmits : Transmits s (drain net fuel s) := by
  induction fuel generalizing s with
  | zero => exact ⟨hord, rfl, fun hbit => absurd hbit h.not_hasClosedBit⟩
  | succ fuel ih =>
    have htrans := handleQueue_transmits hnet h hord
    rw [drain]
    split_ifs with hagain
    · obtain ⟨m, m', rest, hq, -⟩ := (handleQueue_again net s).mp hagain
      have hstate := (handleQueue_outcome net h).keeps (by simp [hq])
      have hnot : (handleQueue net s).2.NotClosed := by
        rw [NotClosed, hstate]
        exact h
      have hnext := ih hnot htrans.ordered
      exact ⟨hnext.ordered, hnext.bytes.trans htrans.bytes, hnext.closed⟩
    · exact htrans

/-- `Update` loses nothing on a reliable stream. -/
theorem update_transmits : Transmits s (s.update net).2 := by
  have hsame : Transmits s s := ⟨hord, rfl, fun hbit => absurd hbit h.not_hasClosedBit⟩
  rw [update]
  split_ifs
  · exact hsame
  · exact hsame
  · exact drain_transmits hnet h hord

/-- The completion of an asynchronous wait loses nothing on a reliable stream. -/
theorem writeHandlerWrapper_transmits : Transmits s (s.writeHandlerWrapper net) := by
  have htrans := handleQueue_transmits hnet (s := { s with isWritingAsync := false }) h hord
  exact ⟨htrans.ordered, htrans.bytes, htrans.closed⟩

end

end

/-! ### The `Closed` bit stays set -/

/-- The `Closed` bit survives the setting of further bits. -/
theorem closedBit_or {x : UInt8} (h : x &&& openStateClosed ≠ 0) (y : UInt8) :
    (x ||| y) &&& openStateClosed ≠ 0 := by
  rw [ne_eq, ← UInt8.toNat_inj, UInt8.toNat_and] at h ⊢
  rw [UInt8.toNat_or, Nat.and_or_distrib_right]
  intro hor
  exact h (Nat.or_eq_zero_iff.mp hor).1

theorem hasClosedBit.closeSocket (h : s.hasClosedBit) : s.closeSocket.hasClosedBit := by
  rw [Socket.closeSocket]
  split_ifs <;> exact closedBit_or h _

theorem hasClosedBit.popMessage (h : s.hasClosedBit) : s.popMessage.hasClosedBit := by
  rw [Socket.popMessage]
  split_ifs
  · exact hasClosedBit.closeSocket (s := { s with writeQueue := s.writeQueue.tail }) h
  · exact h

theorem hasClosedBit.handleQueue (net : ℕ → WriteResult) (h : s.hasClosedBit) :
    (handleQueue net s).2.hasClosedBit := by
  cases hq : s.writeQueue with
  | nil => rwa [handleQueue_nil net hq]
  | cons m rest =>
    by_cases hrem : removes (net s.writeCalls) m
    · by_cases hall : sendsAll (net s.writeCalls) m
      · rw [handleQueue_of_sendsAll hq hall]
        exact hasClosedBit.popMessage h
      · rw [handleQueue_of_removes hq hrem hall]
        exact hasClosedBit.popMessage h
    · rw [handleQueue_of_not_removes hq hrem]
      exact h

theorem hasClosedBit.drain (net : ℕ → WriteResult) (h : s.hasClosedBit) :
    (drain net fuel s).hasClosedBit := by
  induction fuel generalizing s with
  | zero => exact h
  | succ fuel ih =>
    rw [Socket.drain]
    split_ifs
    · exact ih (h.handleQueue net)
    · exact h.handleQueue net

/-! ### The steps that close -/

/-- `CloseSocket` is called in a step, judged from the state before it and the answers of the
stream. -/
def CallsClose (net : ℕ → WriteResult) (s : Socket) : Op → Prop
  | .closeSocket => True
  | .delayedCloseSocket => s.openState = openStateOpen ∧ s.writeQueue = []
  | .queuePacket _ => False
  | .update => s.isWritingAsync = false ∧ s.openState = openStateClosing ∧
      Empties net s.writeCalls s.writeQueue
  | .writeReady => s.openState = openStateClosing ∧
      ∃ m, s.writeQueue = [m] ∧ removes (net s.writeCalls) m
  | .readCompletion error _ => error = true

theorem delayedCloseSocket_cases (s : Socket) :
    (s.openState = openStateOpen ∧ s.writeQueue = [] ∧
      s.delayedCloseSocket = closeSocket { s with openState := openStateClosing }) ∨
    (¬ (s.openState = openStateOpen ∧ s.writeQueue = []) ∧
      s.delayedCloseSocket = { s with openState := s.openState ||| openStateClosing }) := by
  rw [delayedCloseSocket]
  by_cases hopen : s.openState = openStateOpen
  · by_cases hq : s.writeQueue = []
    · simp only [hopen, hq]
      simp [openStateOpen]
    · simp only [hq]
      simp [openStateOpen]
  · exact Or.inr ⟨fun h => hopen h.1, if_pos hopen⟩

/-- **One step of a socket that is not closed**: the shutdown does not run, whether or not the
step calls `CloseSocket`; the `Closed` bit is set exactly when it does. -/
theorem step_of_notClosed (net : ℕ → WriteResult) (h : s.NotClosed) (op : Op) :
    Quiet s (step net s op) ∧ (CallsClose net s op → (step net s op).hasClosedBit) ∧
      (¬ CallsClose net s op → (step net s op).NotClosed) := by
  have of_outcome : ∀ {s' : Socket} {c : Prop}, Outcome s s' c →
      Quiet s s' ∧ (c → s'.hasClosedBit) ∧ (¬ c → s'.NotClosed) := by
    intro s' c hout
    refine ⟨hout.toQuiet, hout.sets, fun hc => ?_⟩
    rw [NotClosed, hout.keeps hc]
    exact h
  cases op with
  | closeSocket => exact of_outcome (closeSocket_outcome h)
  | delayedCloseSocket =>
    rcases delayedCloseSocket_cases s with ⟨hopen, hq, heq⟩ | ⟨hnot, heq⟩
    · obtain ⟨hquiet, hsets, -⟩ :=
        closeSocket_outcome (s := { s with openState := openStateClosing }) (Or.inr rfl)
      rw [step, heq]
      exact ⟨⟨hquiet.1, hquiet.2⟩, fun _ => hsets trivial, fun hc => absurd ⟨hopen, hq⟩ hc⟩
    · rw [step, heq]
      refine ⟨⟨rfl, rfl⟩, fun hc => absurd hc hnot, fun _ => Or.inr ?_⟩
      rcases h with h | h <;> simp only [h] <;> decide
  | queuePacket buffer => exact of_outcome (Outcome.of_not not_false ⟨rfl, rfl⟩ rfl)
  | update =>
    have hne : s.openState ≠ openStateClosed := by
      rcases h with h | h <;> rw [h] <;> decide
    rw [step, update, if_neg hne]
    split_ifs with hskip
    · refine of_outcome (Outcome.of_not ?_ ⟨rfl, rfl⟩ rfl)
      rintro ⟨hasync, -, hempties⟩
      rcases hskip with hasync' | ⟨hq, -⟩
      · rw [hasync] at hasync'
        exact absurd hasync' Bool.false_ne_true
      · rw [hq] at hempties
        exact hempties
    · have hasync : s.isWritingAsync = false := by
        simpa using fun hasync => hskip (Or.inl hasync)
      exact of_outcome ((drain_outcome net h (Nat.le_refl _)).congr (and_iff_right hasync).symm)
  | writeReady =>
    have hout := handleQueue_outcome net (s := { s with isWritingAsync := false }) h
    exact of_outcome (hout.after s ⟨rfl, rfl⟩ rfl)
  | readCompletion error data =>
    cases error with
    | true =>
      have hout := closeSocket_outcome (s := { s with readBuffer := s.readBuffer.copyIn data }) h
      exact of_outcome ((hout.after s ⟨rfl, rfl⟩ rfl).congr (iff_of_true trivial rfl))
    | false =>
      have hkeep : Quiet s (s.readCompletion false data) ∧
          (s.readCompletion false data).openState = s.openState := by
        simp only [readCompletion, asyncRead, Bool.false_eq_true, if_false]
        split_ifs <;> exact ⟨⟨rfl, rfl⟩, rfl⟩
      exact of_outcome (Outcome.of_not Bool.false_ne_true hkeep.1 hkeep.2)

/-- Every step of a closed socket leaves it closed. -/
theorem hasClosedBit.step (net : ℕ → WriteResult) (h : s.hasClosedBit) (op : Op) :
    (step net s op).hasClosedBit := by
  cases op with
  | closeSocket => exact h.closeSocket
  | delayedCloseSocket =>
    rcases delayedCloseSocket_cases s with ⟨hopen, -, -⟩ | ⟨-, heq⟩
    · exact absurd h (NotClosed.not_hasClosedBit (Or.inl hopen))
    · rw [Socket.step, heq]
      exact closedBit_or h _
  | queuePacket buffer => exact h
  | update =>
    rw [Socket.step, update]
    split_ifs
    · exact h
    · exact h
    · exact h.drain net
  | writeReady => exact hasClosedBit.handleQueue net (s := { s with isWritingAsync := false }) h
  | readCompletion error data =>
    cases error with
    | true =>
      exact hasClosedBit.closeSocket (s := { s with readBuffer := s.readBuffer.copyIn data }) h
    | false =>
      simp only [Socket.step, readCompletion, asyncRead, Bool.false_eq_true, if_false]
      split_ifs <;> exact h

/-! ### Closing once -/

/-- What closing a socket should do in one step: the shutdown and `OnClose` run once in the step
that sets the `Closed` bit and not at all in any other step, and `Update` writes nothing once
the bit is set. -/
def ClosesProperly (net : ℕ → WriteResult) (s : Socket) (op : Op) : Prop :=
  let runs := if ¬ s.hasClosedBit ∧ (step net s op).hasClosedBit then 1 else 0
  (step net s op).shutdowns = s.shutdowns + runs ∧ (step net s op).onCloses = s.onCloses + runs ∧
    (s.hasClosedBit → op = .update → (step net s op).writeCalls = s.writeCalls)

theorem closesProperly_iff (net : ℕ → WriteResult) (h : s.NotClosed) (op : Op) :
    ClosesProperly net s op ↔ ¬ CallsClose net s op := by
  obtain ⟨hquiet, hsets, hkeeps⟩ := step_of_notClosed net h op
  have hs := h.not_hasClosedBit
  rw [ClosesProperly, hquiet.1, hquiet.2]
  constructor
  · rintro ⟨hruns, -, -⟩ hcalls
    rw [if_pos ⟨hs, hsets hcalls⟩] at hruns
    omega
  · intro hcalls
    rw [if_neg fun hbit => (hkeeps hcalls).not_hasClosedBit hbit.2]
    exact ⟨rfl, rfl, fun hbit => absurd hbit hs⟩

/-- **Closing once.** In a run from an open socket, the shutdown and `OnClose` run exactly once,
by the call that sets the `Closed` bit, if and only if no step of the run calls `CloseSocket`:
the first call returns before the shutdown, because it tests the previous value of the bit the
wrong way round. -/
theorem closesOnce_iff (net : ℕ → WriteResult) (s : Socket) (hs : s.openState = openStateOpen)
    (ops : List Op) :
    Run.Along (step net) (ClosesProperly net) s ops ↔
      Run.Along (step net) (fun s op => ¬ CallsClose net s op) s ops :=
  Run.along_congr NotClosed (fun _ op h => closesProperly_iff net h op)
    (fun _ op h hcalls => (step_of_notClosed net h op).2.2 hcalls) ops (Or.inl hs)

/-- A run that queues a message and sends it. -/
theorem closesOnce_iff_update :
    Run.Along (step fun _ => .sent 4) (ClosesProperly fun _ => .sent 4) {}
        [.queuePacket ⟨4, 0, [1, 2, 3, 4]⟩, .update] ↔
      Run.Along (step fun _ => .sent 4) (fun s op => ¬ CallsClose (fun _ => .sent 4) s op) {}
        [.queuePacket ⟨4, 0, [1, 2, 3, 4]⟩, .update] :=
  closesOnce_iff (fun _ => .sent 4) {} rfl _

/-- A single `CloseSocket` on an open socket sets the `Closed` bit without running the
shutdown. -/
theorem not_closesProperly_closeSocket :
    ¬ Run.Along (step fun _ => .sent 0) (ClosesProperly fun _ => .sent 0) {} [.closeSocket] := by
  rintro ⟨⟨hruns, -⟩, -⟩
  exact absurd hruns (by decide)

end Socket

end IscServer
