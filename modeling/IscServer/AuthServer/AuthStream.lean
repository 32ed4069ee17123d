import IscServer.AuthServer.AuthCommand

/-!
# Auth Commands and the Chunks of the Stream

In a run of covered rounds the cutting of the stream cannot be observed: the session refines a
machine that is fed byte by byte (`step_refines`). A run has covered rounds exactly when its
handlers stay within the received data.

## Main results

* `chunking`: any two cuttings of a stream whose rounds are covered run the same handlers on the
  same bytes and close the connection at the same place.
* `not_chunking_token`: a token that is cut off is read before it has arrived.
-/

namespace IscServer

open List

open Incremental

namespace AuthSession

variable {σ : Type} (E : AuthEnv σ)

/-! ### The byte machine -/

/-- What a session is apart from its socket, and whether it is closed. -/
structure Core (σ : Type) where
  state : AuthState σ
  handled : List (HandledCmd σ)
  logonRow : Option LogonChallengeRow
  reconnectRow : Option ReconnectChallengeRow
  closed : Bool

/-- The machine that is fed byte by byte. -/
def machine : Machine (Core σ) UInt8 where
  closed c := c.closed
  parse c := parse E c.state
  accept c bytes :=
    match findCommand c.state bytes with
    | none => c
    | some hd =>
      let r := c.state.runHandler E hd.cmd bytes
      { c with
        state := r.state
        handled := c.handled ++ [⟨hd.cmd, c.state, bytes⟩]
        closed := !r.ok }
  refuse c := { c with closed := true }
  incremental c := parse_incremental E c.state
  closed_refuse _ := rfl

/-- The core of a session that is not closed. -/
def core (a : AuthSession σ) : Core σ :=
  ⟨a.state, a.handled, a.logonRow, a.reconnectRow, false⟩

/-- The state of the machine that a session stands for. -/
def abs (a : AuthSession σ) : Core σ × List UInt8 :=
  if a.socket.hasClosedBit then ({ a.core with closed := true }, []) else
    (a.core, a.readBuffer.active)

/-- The socket is open, and its read buffer is in order. -/
structure Open (a : AuthSession σ) : Prop where
  isOpen : a.socket.openState = Socket.openStateOpen
  ordered : a.readBuffer.Ordered

/-- The bytes received so far do not complete a command. -/
structure Waiting (a : AuthSession σ) : Prop extends Open a where
  more : parse E a.state a.readBuffer.active = .more

variable {a : AuthSession σ}

theorem Open.abs_eq (h : Open a) : a.abs = (a.core, a.readBuffer.active) :=
  if_neg (Socket.NotClosed.not_hasClosedBit (Or.inl h.isOpen))

theorem abs_of_closed (h : a.socket.hasClosedBit) : a.abs = ({ a.core with closed := true }, []) :=
  if_pos h

theorem hasClosedBit_closeSocket (h : a.socket.openState = Socket.openStateOpen) :
    a.closeSocket.socket.hasClosedBit :=
  (Socket.closeSocket_outcome (Or.inl h)).sets trivial

/-- What can be seen of a session can be seen of its machine. -/
theorem abs_fields (a : AuthSession σ) :
    a.abs.1.state = a.state ∧ a.abs.1.handled = a.handled ∧
      (a.abs.1.closed = true ↔ a.socket.hasClosedBit) := by
  rw [abs]
  split_ifs with hbit <;> simp [core, hbit]

/-- The verdict of `ReadHandler` on the memory at the read pointer is that of the parser on the
bytes received, in a round that is covered. -/
theorem readBody_parse (hord : a.readBuffer.Ordered)
    (hpos : 0 < a.readBuffer.activeSize) (hcovered : Covered E a) :
    parse E a.state a.readBuffer.active = .reject ∧ a.readBody E = (.stop, a.closeSocket) ∨
      parse E a.state a.readBuffer.active = .more ∧ a.readBody E = (.wait, a) ∨
      ∃ hd, Runs a hd ∧ findCommand a.state a.readBuffer.active = some hd ∧
        parse E a.state a.readBuffer.active =
          .accept (commandLength E a.state hd a.readBuffer.fromReadPointer) := by
  set memory := a.readBuffer.fromReadPointer with hmemory
  have hlen := hord.length_active
  have hne : a.readBuffer.active ≠ [] := by
    intro hnil
    rw [hnil, length_nil] at hlen
    omega
  have hhead : byteAt a.readBuffer.active 0 = byteAt memory 0 := byteAt_take hpos
  rw [parse, if_neg hne, findCommand, hhead]
  cases hfind : findHandler (byteAt memory 0) with
  | none =>
    refine Or.inl ⟨rfl, ?_⟩
    simp only [readBody, ← hmemory, hfind]
  | some hd =>
    have hmem := mem_of_findHandler hfind
    by_cases hstatus : a.state.status = hd.status
    · have hcommand : Option.filter (fun hd => decide (a.state.status = hd.status)) (some hd) =
        some hd := by
        simp [hstatus]
      rw [hcommand]
      dsimp only
      rw [parseCommand, hlen]
      simp only [readBody, ← hmemory, hfind, ne_eq, hstatus]
      by_cases hfixed : a.readBuffer.activeSize < hd.packetSize
      · rw [if_pos hfixed, if_pos hfixed]
        exact Or.inr (Or.inl ⟨rfl, rfl⟩)
      have hsame : commandSize hd a.readBuffer.active = commandSize hd memory :=
        commandSize_take hmem memory (Nat.le_of_not_lt hfixed)
      rw [if_neg hfixed, if_neg hfixed, hsame]
      by_cases hlarge : hd.cmd.isChallenge ∧ commandSize hd memory > maxAcceptedChallengeSize
      · rw [if_pos hlarge, if_pos hlarge]
        exact Or.inl ⟨rfl, rfl⟩
      rw [if_neg hlarge, if_neg hlarge]
      by_cases hsize : a.readBuffer.activeSize < commandSize hd memory
      · rw [if_pos hsize, if_pos hsize]
        exact Or.inr (Or.inl ⟨rfl, rfl⟩)
      have hruns : Runs a hd := ⟨hfind, hstatus, hlarge, Nat.le_of_not_lt hsize⟩
      have hle := hcovered.commandLength_le E hruns
      have hsame' : commandLength E a.state hd a.readBuffer.active =
        commandLength E a.state hd memory :=
        commandLength_take E hmem memory (Nat.le_of_not_lt hfixed) (Or.inl hle)
      rw [if_neg hsize, hsame', if_neg (Nat.not_lt.mpr hle)]
      exact Or.inr (Or.inr ⟨hd, hruns, rfl, rfl⟩)
    · refine Or.inl ⟨?_, ?_⟩
      · simp [Option.filter, hstatus]
      · simp only [readBody, ← hmemory, hfind, ne_eq, hstatus, not_false_eq_true, if_true]

variable {hd : AuthHandler}

/-- The machine handles a command as the session does. -/
theorem machine_accept (hruns : Runs a hd)
    (hfind : findCommand a.state a.readBuffer.active = some hd)
    (hle : commandLength E a.state hd a.readBuffer.fromReadPointer ≤ a.readBuffer.activeSize) :
    (machine E).accept a.core (a.readBuffer.active.take
        (commandLength E a.state hd a.readBuffer.fromReadPointer)) =
      { (a.readBody E).2.core with
        closed := !(a.state.runHandler E hd.cmd a.readBuffer.fromReadPointer).ok } := by
  have hmem := hruns.mem
  obtain ⟨hstate, hhandled, hlogon, hreconnect⟩ :=
    handle_frame E hd.cmd (commandSize hd a.readBuffer.fromReadPointer) a
  have hbody := hruns.readBody_eq E
  have hrun := runHandler_take E hmem a.state a.readBuffer.fromReadPointer
  have hsum := commandSize_add_consumed E hmem a.state a.readBuffer.fromReadPointer
  rw [hsum] at hhandled
  set n := commandLength E a.state hd a.readBuffer.fromReadPointer
  have htake : a.readBuffer.active.take n = a.readBuffer.fromReadPointer.take n := by
    rw [MessageBuffer.active, take_take, Nat.min_eq_left hle]
  have hpos : 0 < n := by
    have hfixed := (packetSize_of_mem hd hmem).1
    have : hd.packetSize ≤ commandSize hd a.readBuffer.fromReadPointer := Nat.le_add_right _ _
    omega
  have hfind' : findCommand a.state (a.readBuffer.fromReadPointer.take n) = some hd := by
    rw [← hfind, findCommand, findCommand, byteAt_take hpos, MessageBuffer.active,
      byteAt_take (Nat.lt_of_lt_of_le hpos hle)]
  rw [htake, hbody]
  simp only [machine, core, hfind', hstate, hhandled, hlogon, hreconnect, hrun]

/-! ### The loop -/

/-- The socket after a handled command: it stays open when the handler says so. -/
theorem handle_socket (h : Open a) (cmd : AuthCmd) (size : ℕ) :
    let r := a.state.runHandler E cmd a.readBuffer.fromReadPointer
    (r.ok = true → (a.handle E cmd size).1 = .next ∧
        (a.handle E cmd size).2.socket.openState = Socket.openStateOpen) ∧
      (r.ok = false → (a.handle E cmd size).1 = .stop ∧
        (a.handle E cmd size).2.socket.hasClosedBit) := by
  intro r
  simp only [handle]
  obtain ⟨socket, heq, -, hstate⟩ := foldl_sendPacket_frame (σ := σ) { a with
    state := r.state
    handled := a.handled ++
      [⟨cmd, a.state, a.readBuffer.fromReadPointer.take (size + r.consumed)⟩] }
    r.reply
  rw [heq]
  constructor
  · intro hok
    rw [if_pos hok]
    exact ⟨rfl, hstate.trans h.isOpen⟩
  · intro hok
    rw [if_neg (by rw [hok]; exact Bool.false_ne_true)]
    exact ⟨rfl, hasClosedBit_closeSocket (hstate.trans h.isOpen)⟩

/-- A round that runs a handler and is covered: the command is dropped from the read buffer, or
the socket is closed. -/
theorem readBody_of_runs (h : Open a) (hruns : Runs a hd)
    (hle : commandLength E a.state hd a.readBuffer.fromReadPointer ≤ a.readBuffer.activeSize) :
    let r := a.state.runHandler E hd.cmd a.readBuffer.fromReadPointer
    (r.ok = true → (a.readBody E).1 = .next ∧ Open (a.readBody E).2 ∧
        (a.readBody E).2.readBuffer.active =
          a.readBuffer.active.drop (commandLength E a.state hd a.readBuffer.fromReadPointer)) ∧
      (r.ok = false → (a.readBody E).1 = .stop ∧ (a.readBody E).2.readBuffer.Ordered ∧
        (a.readBody E).2.socket.hasClosedBit) := by
  intro r
  obtain ⟨hgo, hstop⟩ := handle_socket E h hd.cmd (commandSize hd a.readBuffer.fromReadPointer)
  have hbuffer := a.handle_readBuffer E hd.cmd (commandSize hd a.readBuffer.fromReadPointer)
  have hsum := commandSize_add_consumed E hruns.mem a.state a.readBuffer.fromReadPointer
  rw [hruns.readBody_eq E]
  constructor
  · intro hok
    obtain ⟨hnext, hopen⟩ := hgo hok
    rw [if_pos hok, Nat.add_comm, hsum] at hbuffer
    obtain ⟨hord, hactive, -⟩ := h.ordered.readCompleted hle
    exact ⟨hnext, ⟨hopen, hbuffer ▸ hord⟩, hbuffer ▸ hactive⟩
  · intro hok
    obtain ⟨hflow, hbit⟩ := hstop hok
    rw [if_neg (by rw [hok]; exact Bool.false_ne_true), Nat.add_zero] at hbuffer
    have hconsumed : r.consumed ≤ a.readBuffer.activeSize :=
      Nat.le_trans (Nat.le_add_left _ _) (hsum ▸ hle)
    obtain ⟨hord, -, -⟩ := h.ordered.readCompleted hconsumed
    exact ⟨hflow, hbuffer ▸ hord, hbit⟩

/-- Every round of the loop meets `P` in the session before it. -/
def EachRound (P : AuthSession σ → Prop) : ℕ → AuthSession σ → Prop
  | 0, _ => True
  | fuel + 1, a => a.readBuffer.activeSize > 0 →
      P a ∧ ((a.readBody E).1 = .next → EachRound P fuel (a.readBody E).2)

instance decidableEachRound (P : AuthSession σ → Prop) [DecidablePred P] :
    (fuel : ℕ) → (a : AuthSession σ) → Decidable (EachRound E P fuel a)
  | 0, _ => isTrue trivial
  | fuel + 1, a =>
    have := decidableEachRound P fuel (a.readBody E).2
    inferInstanceAs (Decidable (_ → _ ∧ (_ → _)))

variable {fuel : ℕ}

/-- **The loop feeds the received bytes to the machine**, and it ends with an incomplete command
or with the socket closed. -/
theorem readLoop_spec (h : Open a) {p bs : List UInt8}
    (hactive : a.readBuffer.active = p ++ bs) (hp : parse E a.state p = .more)
    (hfuel : rank a.state.status < fuel) (hcovered : EachRound E (Covered E) fuel a) :
    (a.readLoop E fuel).2.abs = bs.foldl (machine E).feed (a.core, p) ∧
      (a.readLoop E fuel).2.readBuffer.Ordered ∧
      ((a.readLoop E fuel).1 = .keepReading ∧ Waiting E (a.readLoop E fuel).2 ∨
        (a.readLoop E fuel).1 = .stop ∧ (a.readLoop E fuel).2.socket.hasClosedBit) := by
  induction fuel generalizing a p bs with
  | zero => exact absurd hfuel (Nat.not_lt_zero _)
  | succ fuel ih =>
    rw [readLoop]
    by_cases hpos : a.readBuffer.activeSize > 0
    · rw [if_pos hpos]
      obtain ⟨hround, hrest⟩ := hcovered hpos
      rcases readBody_parse E h.ordered hpos hround
        with ⟨hv, heq⟩ | ⟨hv, heq⟩ | ⟨hd, hruns, hfind, hv⟩
      · have hbit := hasClosedBit_closeSocket h.isOpen
        rw [hactive] at hv
        simp only [heq]
        rw [(machine E).foldl_feed_reject (s := a.core) rfl p bs hp hv, abs_of_closed hbit]
        refine ⟨rfl, ?_, Or.inr ⟨trivial, hbit⟩⟩
        rw [readBuffer, closeSocket, Socket.readBuffer_closeSocket]
        exact h.ordered
      · have hwait : Waiting E a := ⟨h, hv⟩
        rw [hactive] at hv
        simp only [heq]
        rw [(machine E).foldl_feed_more (s := a.core) rfl p bs hv, h.abs_eq, hactive]
        exact ⟨rfl, h.ordered, Or.inl ⟨trivial, hwait⟩⟩
      · have hle := hround.commandLength_le E hruns
        have haccept := machine_accept E hruns hfind hle
        obtain ⟨hgo, hstop⟩ := readBody_of_runs E h hruns hle
        rw [hactive] at hv haccept
        rw [(machine E).foldl_feed_accept (s := a.core) rfl p bs hp hv, haccept]
        cases hok : (a.state.runHandler E hd.cmd a.readBuffer.fromReadPointer).ok with
        | true =>
          obtain ⟨hnext, hopen, hactive'⟩ := hgo hok
          have hrank := rank_readBody E hnext
          rw [hactive] at hactive'
          simp only [hnext]
          exact ih hopen (p := []) hactive' (if_pos rfl) (by omega) (hrest hnext)
        | false =>
          obtain ⟨hflow, hord, hbit⟩ := hstop hok
          simp only [hflow]
          rw [(machine E).foldl_feed_closed rfl, abs_of_closed hbit]
          exact ⟨rfl, hord, Or.inr ⟨trivial, hbit⟩⟩
    · have hnil : a.readBuffer.active = [] := by
        rw [← length_eq_zero_iff, h.ordered.length_active]
        omega
      obtain ⟨rfl, rfl⟩ := append_eq_nil_iff.mp (hactive ▸ hnil)
      rw [if_neg hpos]
      refine ⟨?_, h.ordered, Or.inl ⟨rfl, h, by rw [hnil]; exact if_pos rfl⟩⟩
      rw [h.abs_eq, hnil, foldl_nil]

/-! ### Read completions -/

/-- The session when a chunk has arrived. -/
def received (a : AuthSession σ) (chunk : List UInt8) : AuthSession σ :=
  { a with socket := (a.socket.readHandlerInternal false chunk).2 }

/-- A change of the read buffer that keeps its unread bytes. -/
theorem Waiting.of_readBuffer (h : Waiting E a) {socket : Socket}
    (hopen : socket.openState = a.socket.openState) (hord : socket.readBuffer.Ordered)
    (hactive : socket.readBuffer.active = a.readBuffer.active) :
    Waiting E { a with socket } ∧ AuthSession.abs { a with socket } = a.abs := by
  have hopen' : Open { a with socket } := ⟨hopen.trans h.isOpen, hord⟩
  refine ⟨⟨hopen', ?_⟩, ?_⟩
  · rw [readBuffer, hactive]
    exact h.more
  · rw [hopen'.abs_eq, h.toOpen.abs_eq, readBuffer, hactive]
    rfl

/-- Requesting the next read. -/
theorem Waiting.asyncRead (h : Waiting E a) :
    Waiting E { a with socket := a.socket.asyncRead } ∧
      AuthSession.abs { a with socket := a.socket.asyncRead } = a.abs := by
  obtain ⟨hord, hactive, -⟩ := h.ordered.normalize
  obtain ⟨hord', hactive', -⟩ := hord.ensureFreeSpace
  have heq : a.socket.asyncRead =
      { a.socket with readBuffer := a.socket.readBuffer.normalize.ensureFreeSpace } :=
    if_pos (decide_eq_true h.isOpen)
  rw [heq]
  exact h.of_readBuffer E rfl hord' (hactive'.trans hactive)

/-- A chunk that arrives goes behind the unread bytes. -/
theorem Open.received (h : Open a) (chunk : List UInt8) :
    Open (a.received chunk) ∧ (a.received chunk).readBuffer.active = a.readBuffer.active ++ chunk ∧
      (a.socket.readHandlerInternal false chunk).1 = true := by
  obtain ⟨hord, hactive, -, -⟩ := h.ordered.write chunk
  have hbuffer : (a.received chunk).readBuffer = a.readBuffer.write chunk :=
    MessageBuffer.writeCompleted_copyIn _ _
  refine ⟨⟨h.isOpen, hbuffer ▸ hord⟩, hbuffer ▸ hactive, ?_⟩
  exact decide_eq_true h.isOpen

theorem onRead_eq {chunk : List UInt8} (hopen : a.socket.isOpen = true)
    (hread : (a.socket.readHandlerInternal false chunk).1 = true) :
    a.onRead E chunk = match ((a.received chunk).readLoop E 3).1 with
      | .keepReading => { ((a.received chunk).readLoop E 3).2 with
          socket := ((a.received chunk).readLoop E 3).2.socket.asyncRead }
      | .stop => ((a.received chunk).readLoop E 3).2 := by
  simp only [onRead, if_pos hopen, if_pos hread]
  rfl

/-- **A read completion** feeds its chunk to the machine. -/
theorem onRead_spec (h : Waiting E a) {chunk : List UInt8}
    (hcovered : EachRound E (Covered E) 3 (a.received chunk)) :
    (a.onRead E chunk).abs = chunk.foldl (machine E).feed a.abs ∧
      (a.onRead E chunk).readBuffer.Ordered ∧
      ((a.onRead E chunk).socket.hasClosedBit ∨ Waiting E (a.onRead E chunk)) := by
  obtain ⟨hopen, hactive, hread⟩ := h.toOpen.received chunk
  have hrank : rank (a.received chunk).state.status < 3 := by
    cases (a.received chunk).state.status <;> decide
  obtain ⟨habs, hord, hend⟩ := readLoop_spec E hopen hactive h.more hrank hcovered
  have hisOpen : a.socket.isOpen = true := decide_eq_true h.isOpen
  rw [h.toOpen.abs_eq, onRead_eq E hisOpen hread]
  rcases hend with ⟨hkeep, hwait⟩ | ⟨hstop, hbit⟩
  · obtain ⟨hwait', habs'⟩ := hwait.asyncRead
    simp only [hkeep]
    exact ⟨habs'.trans habs, hwait'.ordered, Or.inr hwait'⟩
  · simp only [hstop]
    exact ⟨habs, hord, Or.inl hbit⟩

/-! ### Answers of the database -/

/-- The callback of the `i`-th pending query. -/
def Core.answer (c : Core σ) (i : ℕ) (answer : (q : Query) → q.Answer) : Core σ :=
  match c.state.queries[i]? with
  | none => c
  | some q =>
    let r := AuthState.callback E { c.state with queries := c.state.queries.eraseIdx i } q
      (answer q)
    let logonRow := match q, answer q with
      | .logonChallenge _, row => row
      | _, _ => c.logonRow
    let reconnectRow := match q, answer q with
      | .reconnectChallenge _, row => row
      | _, _ => c.reconnectRow
    { c with state := r.1, logonRow, reconnectRow }

theorem core_sendPacket (a : AuthSession σ) (packet : List UInt8) :
    (a.sendPacket packet).core = a.core ∧ (a.sendPacket packet).readBuffer = a.readBuffer ∧
      (a.sendPacket packet).socket.openState = a.socket.openState := by
  obtain ⟨socket, heq, hread, hstate⟩ := a.sendPacket_frame packet
  rw [heq]
  exact ⟨rfl, hread, hstate⟩

/-- An answer changes the core as its callback does, and leaves the bytes alone. -/
theorem onAnswer_frame (a : AuthSession σ) (i : ℕ) (answer : (q : Query) → q.Answer)
    (closed : Bool) :
    { (a.onAnswer E i answer).core with closed } = Core.answer E { a.core with closed } i answer ∧
      (a.onAnswer E i answer).readBuffer = a.readBuffer ∧
      (a.onAnswer E i answer).socket.openState = a.socket.openState := by
  have hstate : a.core.state = a.state := rfl
  rw [onAnswer, Core.answer, hstate]
  cases hq : a.state.queries[i]? with
  | none => exact ⟨rfl, rfl, rfl⟩
  | some q =>
    obtain ⟨hcore, hread, hopen⟩ := core_sendPacket (σ := σ) _ _
    refine ⟨?_, hread, hopen⟩
    rw [hcore]
    rfl

/-- While a query is in flight, no command is accepted: nothing is left unread. -/
theorem Waiting.active_of_query (h : Waiting E a) (hphase : InPhase E a)
    (hq : a.state.queries ≠ []) : a.readBuffer.active = [] := by
  by_contra hne
  have hmore := h.more
  rw [parse, if_neg hne] at hmore
  cases hfind : findCommand a.state a.readBuffer.active with
  | none =>
    rw [hfind] at hmore
    exact absurd hmore Verdict.noConfusion
  | some hd =>
    obtain ⟨hmem, hstatus⟩ := mem_of_findCommand hfind
    exact hphase.not_handled hq hd hmem hstatus

/-! ### Refinement -/

/-- What happens to a session byte by byte. -/
inductive Atom where
  | byte (b : UInt8)
  | close
  | answer (i : ℕ) (answer : (q : Query) → q.Answer)

/-- The atoms of an event. -/
def atoms : Event → List Atom
  | .read chunk => chunk.map .byte
  | .readError => [.close]
  | .timeout => [.close]
  | .answer i answer => [.answer i answer]

/-- The byte machine with answers and closings. -/
def atomStep (st : Core σ × List UInt8) : Atom → Core σ × List UInt8
  | .byte b => (machine E).feed st b
  | .close => ({ st.1 with closed := true }, [])
  | .answer i answer => (st.1.answer E i answer, st.2)

/-- Between two events the cursors are in order, and a session is closed or waits for the rest of
a command. -/
structure Idle (a : AuthSession σ) : Prop extends Safe E a where
  ordered : a.readBuffer.Ordered
  closed_or : a.socket.hasClosedBit ∨ Waiting E a

/-- Every round of a read completion meets `P` in the session before it. -/
def RoundsOf (P : AuthSession σ → Prop) (a : AuthSession σ) : Event → Prop
  | .read chunk => a.socket.isOpen = true → EachRound E P 3 (a.received chunk)
  | _ => True

instance (P : AuthSession σ → Prop) [DecidablePred P] (a : AuthSession σ) :
    (e : Event) → Decidable (RoundsOf E P a e)
  | .read _ => inferInstanceAs (Decidable (_ → _))
  | .readError => isTrue trivial
  | .timeout => isTrue trivial
  | .answer _ _ => isTrue trivial

theorem foldl_atomStep_bytes (st : Core σ × List UInt8) (chunk : List UInt8) :
    (chunk.map .byte).foldl (atomStep E) st = chunk.foldl (machine E).feed st := by
  rw [foldl_map]
  rfl

/-- Closing a session that is idle. -/
theorem closeSocket_idle (h : Idle E a) :
    Idle E a.closeSocket ∧ a.closeSocket.abs = atomStep E a.abs .close := by
  have hbit : a.closeSocket.socket.hasClosedBit := by
    rcases h.closed_or with hbit | hwait
    · exact hbit.closeSocket
    · exact hasClosedBit_closeSocket hwait.isOpen
  refine ⟨⟨h.toSafe.of_socket E _, ?_, Or.inl hbit⟩, ?_⟩
  · rw [readBuffer, closeSocket, Socket.readBuffer_closeSocket]
    exact h.ordered
  · rw [abs_of_closed hbit, abs]
    split_ifs <;> rfl

/-- An answer to a session that is idle. -/
theorem onAnswer_idle (h : Idle E a) (i : ℕ) (answer : (q : Query) → q.Answer) :
    Idle E (a.onAnswer E i answer) ∧
      (a.onAnswer E i answer).abs = atomStep E a.abs (.answer i answer) := by
  have hsafe := onAnswer_safe E h.toSafe i answer
  have hframe := onAnswer_frame E a i answer
  obtain ⟨-, hbuffer, hopen⟩ := hframe false
  have hord : (a.onAnswer E i answer).readBuffer.Ordered := hbuffer ▸ h.ordered
  rcases h.closed_or with hbit | hwait
  · have hbit' : (a.onAnswer E i answer).socket.hasClosedBit := by
      rw [Socket.hasClosedBit, hopen]
      exact hbit
    refine ⟨⟨hsafe, hord, Or.inl hbit'⟩, ?_⟩
    rw [abs_of_closed hbit', abs_of_closed hbit, (hframe true).1]
    rfl
  · have hopen' : Open (a.onAnswer E i answer) := ⟨hopen.trans hwait.isOpen, hord⟩
    have habs : (a.onAnswer E i answer).abs = atomStep E a.abs (.answer i answer) := by
      rw [hopen'.abs_eq, hwait.toOpen.abs_eq, hbuffer]
      exact Prod.ext (hframe false).1 rfl
    refine ⟨⟨hsafe, hord, Or.inr ⟨hopen', ?_⟩⟩, habs⟩
    by_cases hq : a.state.queries = []
    · have hsame : a.onAnswer E i answer = a := by
        rw [onAnswer, hq]
        rfl
      rw [hsame]
      exact hwait.more
    · rw [hbuffer, hwait.active_of_query E h.phase hq]
      exact if_pos rfl

/-- **One step**, if its rounds are covered, is the fold of its atoms. -/
theorem step_idle (h : Idle E a) (e : Event) (hcovered : RoundsOf E (Covered E) a e) :
    Idle E (a.step E e) ∧ (a.step E e).abs = (atoms e).foldl (atomStep E) a.abs := by
  cases e with
  | read chunk =>
    rw [step, atoms, foldl_atomStep_bytes]
    have hsafe := onRead_safe E h.toSafe chunk
    rcases h.closed_or with hbit | hwait
    · have hopen : ¬ a.socket.isOpen = true := by
        intro hopen
        have hnot : a.socket.NotClosed := Or.inl (of_decide_eq_true hopen)
        exact hnot.not_hasClosedBit hbit
      have heq : a.onRead E chunk = a := if_neg hopen
      rw [heq, abs_of_closed hbit, (machine E).foldl_feed_closed rfl]
      exact ⟨h, rfl⟩
    · obtain ⟨habs, hord, hend⟩ := onRead_spec E hwait (hcovered (decide_eq_true hwait.isOpen))
      exact ⟨⟨hsafe, hord, hend⟩, habs⟩
  | readError => exact closeSocket_idle E h
  | timeout => exact closeSocket_idle E h
  | answer i answer => exact onAnswer_idle E h i answer

/-- A session refines the byte machine on the steps whose rounds are covered. -/
theorem step_refines :
    Run.Refines (step E) (RoundsOf E (Covered E)) (Idle E) abs (atomStep E) atoms where
  keeps _ e h hcovered := (step_idle E h e hcovered).1
  simulates _ e h hcovered := (step_idle E h e hcovered).2

/-- A new connection. -/
theorem idle_new : Idle E ({} : AuthSession σ) := by
  have hord := MessageBuffer.ordered_ofSize readBlockSize
  refine ⟨safe_new E, hord, Or.inr ⟨⟨rfl, hord⟩, ?_⟩⟩
  exact if_pos rfl

/-- A session that still reads is open. -/
theorem Idle.open_of_isOpen (h : Idle E a) (hopen : a.socket.isOpen = true) : Open a := by
  rcases h.closed_or with hbit | hwait
  · have hnot : a.socket.NotClosed := Or.inl (of_decide_eq_true hopen)
    exact absurd hbit hnot.not_hasClosedBit
  · exact hwait.toOpen

/-- The rounds of a read stay within the received data exactly when they are covered. -/
theorem eachRound_iff (h : Open a) :
    EachRound E (ReadsReceived E) fuel a ↔ EachRound E (Covered E) fuel a := by
  induction fuel generalizing a with
  | zero => exact Iff.rfl
  | succ fuel ih =>
    refine imp_congr_right fun hpos => ?_
    rw [readsReceived_iff E h.ordered]
    refine and_congr_right fun hcovered => imp_congr_right fun hnext => ?_
    refine ih ?_
    rcases readBody_parse E h.ordered hpos hcovered with ⟨-, heq⟩ | ⟨-, heq⟩ | ⟨hd, hruns, -, -⟩
    · rw [heq] at hnext
      exact absurd hnext Flow.noConfusion
    · rw [heq] at hnext
      exact absurd hnext Flow.noConfusion
    · obtain ⟨hgo, hstop⟩ := readBody_of_runs E h hruns (hcovered.commandLength_le E hruns)
      cases hok : (a.state.runHandler E hd.cmd a.readBuffer.fromReadPointer).ok with
      | true => exact (hgo hok).2.1
      | false =>
        rw [(hstop hok).1] at hnext
        exact absurd hnext Flow.noConfusion

theorem roundsOf_iff (h : Idle E a) (e : Event) :
    RoundsOf E (ReadsReceived E) a e ↔ RoundsOf E (Covered E) a e := by
  cases e with
  | read chunk =>
    exact imp_congr_right fun hopen =>
      eachRound_iff E ((h.open_of_isOpen E hopen).received chunk).1
  | readError => exact Iff.rfl
  | timeout => exact Iff.rfl
  | answer i answer => exact Iff.rfl

/-- The rounds of a run stay within the received data exactly when they are covered. -/
theorem along_readsReceived_iff (es : List Event) :
    Run.Along (step E) (RoundsOf E (ReadsReceived E)) {} es ↔
      Run.Along (step E) (RoundsOf E (Covered E)) {} es :=
  Run.along_congr (Idle E) (fun _ e h => roundsOf_iff E h e) (step_refines E).keeps es (idle_new E)

/-! ### A logon with a security token -/

/-- A server that accepts the password of the client, and seven as its token. -/
def tokenEnv : AuthEnv Unit where
  ipAddress := "127.0.0.1"
  ipCountry := none
  strictVersionCheck := false
  executableHashes build := if build = 12340 then some [] else none
  maxWrongPassCount := 0
  toUpperOnlyLatin := id
  newSrp6 _ _ _ := ()
  srp6Greeting _ := []
  verifyChallengeResponse _ _ _ := some (List.replicate 40 0)
  getSessionVerifier _ _ _ := List.replicate 20 0
  sha1 _ := List.replicate 20 0
  validateToken _ token := token = 7
  decryptTotpSecret := some
  randomBytes := List.replicate 16 0
  realmListPacket _ := []

/-- The answers of the database for an account with a secret. -/
def tokenAnswer : (q : Query) → q.Answer
  | .logonChallenge login => some ⟨{ login }, some [1, 2, 3, 4], [], []⟩
  | .reconnectChallenge _ => none
  | .logonProof _ => ()
  | .realmList => []

/-- A logon challenge for the login name `A`. -/
def tokenChallenge : List UInt8 :=
  [0, 8, 31, 0, 0x57, 0x6F, 0x57, 0, 3, 3, 5, 0x34, 0x30] ++ List.replicate 20 0 ++ [1, 0x41]

/-- The fixed part of a logon proof with the token flag. -/
def tokenProof : List UInt8 :=
  1 :: List.replicate 73 0 ++ [4]

/-- A token of one byte, the digit seven, with its length. -/
def tokenBytes : List UInt8 :=
  [1, 0x37]

/-- **Auth commands and the chunks of the stream.** In every run of a new connection, the rounds
stay within the received data if and only if they are covered. Two runs over the same bytes, cut
in any two ways, with the same closings and the same answers of the database at the same places,
whose rounds are all covered: they run the same handlers on the same bytes, in the same states,
close the connection alike, and never move the read cursor beyond the write cursor. -/
theorem chunking {es fs : List Event} (hcut : es.flatMap atoms = fs.flatMap atoms) :
    let a := es.foldl (step E) {}
    let b := fs.foldl (step E) {}
    (Run.Along (step E) (RoundsOf E (ReadsReceived E)) {} es ↔
        Run.Along (step E) (RoundsOf E (Covered E)) {} es) ∧
      (Run.Along (step E) (RoundsOf E (Covered E)) {} es →
        Run.Along (step E) (RoundsOf E (Covered E)) {} fs →
        a.handled = b.handled ∧ a.state = b.state ∧
          (a.socket.hasClosedBit ↔ b.socket.hasClosedBit) ∧
          a.readBuffer.rpos ≤ a.readBuffer.wpos ∧ b.readBuffer.rpos ≤ b.readBuffer.wpos) := by
  intro a b
  have href := step_refines E
  have hnew := idle_new E
  refine ⟨along_readsReceived_iff E es, ?_⟩
  intro hes hfs
  have ha : Idle E a := Run.Along.invariant (Idle E) href.keeps hnew hes
  have hb : Idle E b := Run.Along.invariant (Idle E) href.keeps hnew hfs
  have habs : a.abs = b.abs := href.run_eq hnew hes hfs hcut
  obtain ⟨hstate, hhandled, hclosed⟩ := a.abs_fields
  obtain ⟨hstate', hhandled', hclosed'⟩ := b.abs_fields
  rw [← habs] at hstate' hhandled' hclosed'
  exact ⟨hhandled.symm.trans hhandled', hstate.symm.trans hstate', hclosed.symm.trans hclosed',
    ha.ordered.read_le, hb.ordered.read_le⟩

/-- A logon with a token, cut inside of the challenge or not. -/
theorem chunking_token : let es : List Event :=
      [.read tokenChallenge, .answer 0 tokenAnswer, .read (tokenProof ++ tokenBytes)]
    let fs : List Event := [.read (tokenChallenge.take 10), .read (tokenChallenge.drop 10),
      .answer 0 tokenAnswer, .read (tokenProof ++ tokenBytes)]
    let a := es.foldl (step tokenEnv) {}
    let b := fs.foldl (step tokenEnv) {}
    Run.Along (step tokenEnv) (RoundsOf tokenEnv (ReadsReceived tokenEnv)) {} es ∧
      a.handled = b.handled ∧ a.state = b.state ∧
      (a.socket.hasClosedBit ↔ b.socket.hasClosedBit) ∧
      a.readBuffer.rpos ≤ a.readBuffer.wpos ∧ b.readBuffer.rpos ≤ b.readBuffer.wpos := by
  intro es fs a b
  have hes : Run.Along (step tokenEnv) (RoundsOf tokenEnv (Covered tokenEnv)) {} es := by
    decide +kernel
  have hfs : Run.Along (step tokenEnv) (RoundsOf tokenEnv (Covered tokenEnv)) {} fs := by
    decide +kernel
  have hcut : es.flatMap atoms = fs.flatMap atoms := by
    simp only [es, fs, atoms, flatMap_cons]
    rw [map_take, map_drop, ← append_assoc (List.take _ _), take_append_drop]
  obtain ⟨hiff, hsame⟩ := chunking tokenEnv hcut
  exact ⟨hiff.mpr hes, hsame hes hfs⟩

/-- **A token that is cut off.** When the fixed part of the proof comes in a chunk of its own, its
handler takes a length and a token from memory that has not been received, and leaves the read
cursor beyond the write cursor. The same bytes in one chunk log the client in. -/
theorem not_chunking_token : let es : List Event :=
      [.read tokenChallenge, .answer 0 tokenAnswer, .read (tokenProof ++ tokenBytes)]
    let fs : List Event :=
      [.read tokenChallenge, .answer 0 tokenAnswer, .read tokenProof, .read tokenBytes]
    let a := es.foldl (step tokenEnv) {}
    let b := fs.foldl (step tokenEnv) {}
    es.flatMap atoms = fs.flatMap atoms ∧
      a.handled.map (fun c => c.bytes) ≠ b.handled.map (fun c => c.bytes) ∧
      (¬ a.socket.hasClosedBit ∧ b.socket.hasClosedBit) ∧
      ¬ Run.Along (step tokenEnv) (RoundsOf tokenEnv (ReadsReceived tokenEnv)) {} fs ∧
      ¬ b.readBuffer.rpos ≤ b.readBuffer.wpos := by
  intro es fs a b
  refine ⟨?_, by decide +kernel, by decide +kernel, ?_, by decide +kernel⟩
  · simp only [es, fs, atoms, flatMap_cons, map_append, append_assoc]
  · rw [along_readsReceived_iff]
    decide +kernel

end AuthSession

end IscServer
