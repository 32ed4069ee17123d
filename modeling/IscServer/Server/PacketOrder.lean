import IscServer.Server.WorldSession

/-!
# Packets are Handled Once and in Order

What holds of the packets of a session, whoever updates it and whatever arrives meanwhile. The packets that
are queued are those that were put aside in the running update, the one in hand and those in the queue, in
this order: putting back restores it.

## Main results

* `packets_handled_once_in_order` — in every run in which the player does not become attached in the middle
  of an update, every packet is queued, handled once or dropped; packets for players in the world are handled
  in the order of their arrival; and an update takes a prefix of what it finds, up to the packet that its
  filter refuses.
-/

namespace IscServer.WorldSession

open List

variable {opcodeTable : ℕ → ClientOpcodeHandler} {session : Session}

/-! ### Where packets are -/

/-- The packets that an update has taken and neither handled nor dropped. -/
def Phase.taken : Phase → List Packet
  | idle => []
  | loop frame _ => frame.requeuePackets
  | holding frame packet _ => frame.requeuePackets ++ [packet]
  | left frame _ => frame.requeuePackets

/-- The packets that are still queued, in the order in which they will be. -/
def Session.pending (session : Session) : List Packet := session.phase.taken ++ session.recvQueue

/-- A packet for a player in the world. -/
def loggedIn (opcodeTable : ℕ → ClientOpcodeHandler) (packet : Packet) : Bool :=
  (opcodeTable packet.opcode).status = .loggedin

/-- A packet is **still queued**. -/
def Session.Queued (session : Session) (packet : Packet) : Prop :=
  session.pending.count packet = 1 ∧ session.handled.count packet = 0 ∧ session.deleted.count packet = 0

/-- A packet was **handled once**, and deleted once. -/
def Session.HandledOnce (session : Session) (packet : Packet) : Prop :=
  session.pending.count packet = 0 ∧ session.handled.count packet = 1 ∧ session.deleted.count packet = 1

/-- A packet was **dropped**, and deleted once. -/
def Session.Dropped (session : Session) (packet : Packet) : Prop :=
  session.pending.count packet = 0 ∧ session.handled.count packet = 0 ∧ session.deleted.count packet = 1

/-- An update has taken the first packets of those that were queued, and none behind one that was refused. -/
def UpdateLog.InOrder (log : UpdateLog) : Prop :=
  ∃ rest, log.queued = log.taken ++ rest ∧ ∀ packet ∈ log.refused, rest.head? = some packet

/-- The running update. -/
def Phase.log : Phase → Option UpdateLog
  | idle => none
  | loop _ log => some log
  | holding _ _ log => some log
  | left _ log => some log

/-- **The player does not become attached** in the middle of an update. -/
def Session.Detached (session : Session) : Event → Prop
  | .evolve flags => session.phase ≠ .idle → session.flags.player = none → flags.player = none
  | _ => True

instance (session : Session) (event : Event) : Decidable (session.Detached event) :=
  match event with
  | .evolve _ => inferInstanceAs (Decidable (_ → _ → _))
  | .queuePacket _ | .startUpdate _ | .next | .process _ | .readd => inferInstanceAs (Decidable True)

/-! ### The invariant -/

/-- A phase fits the queue and the player: what was taken and what is queued is what the update has seen,
only a packet that is first in the queue was refused, and packets are put aside for a missing player. -/
def Phase.Fits (recvQueue : List Packet) (player : Option Bool) : Phase → Prop
  | idle => True
  | loop frame log => log.queued = log.taken ++ recvQueue ∧ log.refused = none ∧
      (frame.requeuePackets ≠ [] → player = none)
  | holding frame _ log => log.queued = log.taken ++ recvQueue ∧ log.refused = none ∧
      (frame.requeuePackets ≠ [] → player = none)
  | left _ log => log.queued = log.taken ++ recvQueue ∧
      ∀ packet ∈ log.refused, recvQueue.head? = some packet

/-- **The invariant** of a session. -/
structure Sound (opcodeTable : ℕ → ClientOpcodeHandler) (session : Session) : Prop where
  ids : session.arrived.map Packet.id = List.range session.arrived.length
  parts : session.arrived.Perm (session.pending ++ session.deleted)
  handled : session.handled.Sublist session.deleted
  order : ((session.handled ++ session.pending).filter (loggedIn opcodeTable)).Sublist session.arrived
  fits : session.phase.Fits session.recvQueue session.flags.player
  updates : ∀ log ∈ session.updates, log.InOrder

theorem sound_new (flags : Flags) : Sound opcodeTable (Session.new flags) :=
  ⟨rfl, List.Perm.nil, List.Sublist.slnil, List.Sublist.slnil, trivial, fun _ hlog => (by cases hlog)⟩

theorem Phase.taken_arrive (packet : Packet) (phase : Phase) :
    (phase.arrive packet).taken = phase.taken := by
  cases phase <;> rfl

variable {recvQueue : List Packet}

theorem UpdateLog.arrive_queued {log : UpdateLog}
    (hqueued : log.queued = log.taken ++ recvQueue) (packet : Packet) :
    (log.arrive packet).queued = (log.arrive packet).taken ++ (recvQueue ++ [packet]) := by
  rw [UpdateLog.arrive, hqueued, append_assoc]

/-- A packet that arrives is the last one everywhere. -/
theorem Phase.Fits.arrive {player : Option Bool} {phase : Phase}
    (h : phase.Fits recvQueue player) (packet : Packet) :
    (phase.arrive packet).Fits (recvQueue ++ [packet]) player := by
  cases phase with
  | idle => trivial
  | loop frame log =>
    obtain ⟨hqueued, hrest⟩ := h
    exact ⟨UpdateLog.arrive_queued hqueued packet, hrest⟩
  | holding frame inHand log =>
    obtain ⟨hqueued, hrest⟩ := h
    exact ⟨UpdateLog.arrive_queued hqueued packet, hrest⟩
  | left frame log =>
    obtain ⟨hqueued, hrefused⟩ := h
    refine ⟨UpdateLog.arrive_queued hqueued packet, fun other hother => ?_⟩
    rw [List.head?_append, hrefused other hother]
    rfl

/-! ### Steps -/

theorem Sound.queuePacket (h : Sound opcodeTable session) (opcode : ℕ) :
    Sound opcodeTable (session.queuePacket ⟨session.arrived.length, opcode⟩) := by
  have hpending : (session.queuePacket ⟨session.arrived.length, opcode⟩).pending =
      session.pending ++ [⟨session.arrived.length, opcode⟩] := by
    rw [Session.pending, Session.queuePacket, Phase.taken_arrive, Session.pending, append_assoc]
    rfl
  refine ⟨?_, ?_, h.handled, ?_, h.fits.arrive _, h.updates⟩
  · rw [Session.queuePacket, map_append, h.ids, length_append, length_singleton,
      range_succ]
    rfl
  · rw [hpending]
    refine (h.parts.append_right [⟨session.arrived.length, opcode⟩]).trans ?_
    rw [append_assoc, append_assoc]
    exact perm_append_comm.append_left session.pending
  · rw [hpending, ← append_assoc, filter_append]
    exact h.order.append filter_sublist

variable {flags : Flags}

section

variable (h : Sound opcodeTable session)
include h

/-- Other flags, as long as no player appears in an update. -/
theorem Sound.evolve
    (hdetached : session.phase ≠ .idle → session.flags.player = none → flags.player = none) :
    Sound opcodeTable { session with flags := flags } := by
  refine ⟨h.ids, h.parts, h.handled, h.order, ?_, h.updates⟩
  have hfits := h.fits
  cases hphase : session.phase with
  | idle => trivial
  | loop frame log =>
    rw [hphase] at hfits hdetached
    obtain ⟨hqueued, hrefused, hplayer⟩ := hfits
    exact ⟨hqueued, hrefused, fun hrequeue => hdetached Phase.noConfusion (hplayer hrequeue)⟩
  | holding frame packet log =>
    rw [hphase] at hfits hdetached
    obtain ⟨hqueued, hrefused, hplayer⟩ := hfits
    exact ⟨hqueued, hrefused, fun hrequeue => hdetached Phase.noConfusion (hplayer hrequeue)⟩
  | left frame log =>
    rw [hphase] at hfits
    exact hfits

/-- An update begins with the whole queue before it. -/
theorem Sound.startUpdate (updater : PacketFilter) (hphase : session.phase = .idle) :
    Sound opcodeTable
      { session with phase := .loop ⟨updater, [], 0⟩ ⟨session.recvQueue, [], none⟩ } := by
  have hpending : session.pending = session.recvQueue := by rw [Session.pending, hphase]; rfl
  refine ⟨h.ids, ?_, h.handled, ?_, ⟨rfl, rfl, fun hne => absurd rfl hne⟩, h.updates⟩
  · have hparts := h.parts
    rw [hpending] at hparts
    exact hparts
  · have horder := h.order
    rw [hpending] at horder
    exact horder

/-- A packet that `next` takes stays where it is among those that are pending. -/
theorem Sound.next {frame : Frame} {log : UpdateLog} (hphase : session.phase = .loop frame log) : Sound opcodeTable (session.next opcodeTable frame log) := by
  obtain ⟨hqueued, hrefused, hplayer⟩ := (hphase ▸ h.fits : (Phase.loop frame log).Fits _ _)
  have hpending : session.pending = frame.requeuePackets ++ session.recvQueue := by
    rw [Session.pending, hphase]
    rfl
  have hparts := h.parts
  have horder := h.order
  rw [hpending] at hparts horder
  rw [Session.next]
  cases htaken : (if session.flags.socket then WorldSession.next session.recvQueue fun packet =>
      frame.updater.process opcodeTable session.flags packet else none) with
  | none =>
    refine ⟨h.ids, hparts, h.handled, horder, ⟨hqueued, fun packet hpacket => ?_⟩, h.updates⟩
    split_ifs at hpacket
    · exact hpacket
    · cases hpacket
  | some result =>
    obtain ⟨packet, rest⟩ := result
    have hqueue : session.recvQueue = packet :: rest := by
      split_ifs at htaken
      cases hlist : session.recvQueue with
      | nil =>
        rw [hlist] at htaken
        cases htaken
      | cons first others =>
        rw [hlist, WorldSession.next] at htaken
        split_ifs at htaken
        cases htaken
        rfl
    have hmove : (frame.requeuePackets ++ [packet]) ++ rest = frame.requeuePackets ++ session.recvQueue := by
      rw [hqueue, append_assoc]
      rfl
    rw [← hmove] at hparts horder
    refine ⟨h.ids, hparts, h.handled, horder, ⟨?_, hrefused, hplayer⟩, h.updates⟩
    rw [hqueued, hqueue, append_assoc]
    rfl

end

variable {evaluateOpcode : Bool}

/-- Only a packet for a player in the world is put back, and only without a player. -/
theorem dispatch_eq_requeue {status : SessionStatus}
    (h : dispatch flags evaluateOpcode status = .requeue) :
    status = .loggedin ∧ flags.player = none := by
  cases status with
  | loggedin =>
    refine ⟨rfl, ?_⟩
    cases hplayer : flags.player with
    | none => rfl
    | some isInWorld => grind [dispatch, Dispatch.evaluated]
  | authed | transfer | loggedinOrRecentlyLoggout | never | unhandled =>
    grind [dispatch, Dispatch.evaluated]

/-- The handler of a packet for a player in the world is called only with one. -/
theorem player_of_dispatch_eq_call {flags : Flags} {evaluateOpcode : Bool}
    (h : dispatch flags evaluateOpcode .loggedin = .call) : flags.player ≠ none := by
  intro hplayer
  rw [dispatch, hplayer] at h
  split_ifs at h

variable {frame : Frame} {log : UpdateLog}

variable {packet : Packet}

/-- What the body of the loop leaves pending: without the packet in hand, unless it is put back. -/
theorem pending_process :
    (session.process opcodeTable evaluateOpcode frame packet log).pending =
      (if dispatch session.flags evaluateOpcode (opcodeTable packet.opcode).status = .requeue then
        frame.requeuePackets ++ [packet] else frame.requeuePackets) ++ session.recvQueue := by
  rw [Session.pending, Session.process]
  split_ifs <;> rfl

theorem handled_process :
    (session.process opcodeTable evaluateOpcode frame packet log).handled =
      if dispatch session.flags evaluateOpcode (opcodeTable packet.opcode).status = .call then
        session.handled ++ [packet] else session.handled := rfl

theorem deleted_process :
    (session.process opcodeTable evaluateOpcode frame packet log).deleted =
      if dispatch session.flags evaluateOpcode (opcodeTable packet.opcode).status = .requeue then
        session.deleted else session.deleted ++ [packet] := rfl

/-- The phase behind the body of the loop: packets were put aside for a missing player. -/
theorem fits_process
    (hfits : (Phase.holding frame packet log).Fits session.recvQueue session.flags.player) :
    (session.process opcodeTable evaluateOpcode frame packet log).phase.Fits session.recvQueue
      session.flags.player := by
  obtain ⟨hqueued, hrefused, hplayer⟩ := hfits
  rw [Session.process]
  generalize (if dispatch session.flags evaluateOpcode (opcodeTable packet.opcode).status = .flood then
    maxProcessedPackets else frame.processedPackets) + 1 = processedPackets
  by_cases hbreak : maxProcessedPackets < processedPackets
  · rw [if_pos hbreak]
    refine ⟨hqueued, fun other hother => ?_⟩
    rw [hrefused] at hother
    cases hother
  · rw [if_neg hbreak]
    refine ⟨hqueued, hrefused, fun hne => ?_⟩
    by_cases hrequeue : dispatch session.flags evaluateOpcode (opcodeTable packet.opcode).status = .requeue
    · exact (dispatch_eq_requeue hrequeue).2
    · rw [if_neg hrequeue] at hne
      exact hplayer hne

section

variable (h : Sound opcodeTable session)
include h

/-- **The body of the loop**: the packet in hand is handled, dropped or put aside, behind the others. -/
theorem Sound.process (evaluateOpcode : Bool) (hphase : session.phase = .holding frame packet log) :
    Sound opcodeTable (session.process opcodeTable evaluateOpcode frame packet log) := by
  have hfits := h.fits
  have hpending : session.pending = frame.requeuePackets ++ packet :: session.recvQueue := by
    rw [Session.pending, hphase, Phase.taken, append_assoc]
    rfl
  have hparts := h.parts
  have horder := h.order
  rw [hpending] at hparts horder
  rw [hphase] at hfits
  have hkept : (session.handled ++ (frame.requeuePackets ++ session.recvQueue)).Sublist
      (session.handled ++ (frame.requeuePackets ++ packet :: session.recvQueue)) :=
    ((sublist_cons_self packet session.recvQueue).append_left frame.requeuePackets).append_left
      session.handled
  have hdeleted : session.arrived.Perm
      ((frame.requeuePackets ++ session.recvQueue) ++ (session.deleted ++ [packet])) := by
    refine hparts.trans ((perm_middle.append_right session.deleted).trans ?_)
    rw [← append_assoc]
    exact perm_append_singleton packet _ |>.symm
  refine ⟨h.ids, ?_, ?_, ?_, fits_process hfits, h.updates⟩
  · rw [pending_process, deleted_process]
    by_cases hrequeue : dispatch session.flags evaluateOpcode (opcodeTable packet.opcode).status = .requeue
    · rw [if_pos hrequeue, if_pos hrequeue, append_assoc frame.requeuePackets]
      exact hparts
    · rw [if_neg hrequeue, if_neg hrequeue]
      exact hdeleted
  · rw [handled_process, deleted_process]
    cases hresult : dispatch session.flags evaluateOpcode (opcodeTable packet.opcode).status with
    | call => exact h.handled.append_right [packet]
    | flood | drop => exact h.handled.trans (sublist_append_left _ _)
    | requeue => exact h.handled
  · rw [pending_process, handled_process]
    cases hresult : dispatch session.flags evaluateOpcode (opcodeTable packet.opcode).status with
    | call =>
      by_cases hlogged : loggedIn opcodeTable packet = true
      · -- nothing was put aside while there was a player
        have hstatus : (opcodeTable packet.opcode).status = .loggedin := of_decide_eq_true hlogged
        have hempty : frame.requeuePackets = [] := by
          by_contra hne
          rw [hstatus] at hresult
          exact player_of_dispatch_eq_call hresult (hfits.2.2 hne)
        rw [hempty] at horder
        rw [if_pos rfl, if_neg (by decide), hempty, append_assoc]
        exact horder
      · rw [if_pos rfl, if_neg (by decide), append_assoc, filter_append,
          filter_append, filter_singleton, Bool.eq_false_iff.mpr hlogged, cond_false, nil_append,
          ← filter_append]
        exact (hkept.filter _).trans horder
    | flood | drop => exact (hkept.filter _).trans horder
    | requeue =>
      rw [if_neg (by decide), if_pos rfl, append_assoc frame.requeuePackets]
      exact horder

theorem Sound.readd (hphase : session.phase = .left frame log) :
    Sound opcodeTable (session.readd frame log) := by
  have hpending : session.pending = frame.requeuePackets ++ session.recvQueue := by
    rw [Session.pending, hphase]
    rfl
  have hparts := h.parts
  have horder := h.order
  have hfits := h.fits
  rw [hpending] at hparts horder
  rw [hphase] at hfits
  refine ⟨h.ids, hparts, h.handled, horder, trivial, fun other hother => ?_⟩
  rcases mem_append.mp hother with hother | hother
  · exact h.updates other hother
  · rw [mem_singleton.mp hother]
    exact ⟨session.recvQueue, hfits⟩

/-- **One step** keeps the invariant. -/
theorem Sound.step (event : Event) (hdetached : session.Detached event) :
    Sound opcodeTable (session.step opcodeTable event) := by
  cases event with
  | queuePacket opcode => exact h.queuePacket opcode
  | evolve flags => exact h.evolve hdetached
  | startUpdate updater =>
    rw [Session.step]
    split
    · exact h.startUpdate updater ‹_›
    · exact h
  | next =>
    rw [Session.step]
    split
    · exact h.next ‹_›
    · exact h
  | process evaluateOpcode =>
    rw [Session.step]
    split
    · exact h.process evaluateOpcode ‹_›
    · exact h
  | readd =>
    rw [Session.step]
    split
    · exact h.readd ‹_›
    · exact h

end

/-! ### Runs -/

/-- Packets differ in when they have arrived. -/
theorem Sound.nodup (h : Sound opcodeTable session) : session.arrived.Nodup :=
  List.Nodup.of_map Packet.id (by rw [h.ids]; exact nodup_range)

/-- A packet that has arrived is in exactly one of the three states. -/
theorem Sound.exactlyOne (h : Sound opcodeTable session) (hin : packet ∈ session.arrived) :
    session.Queued packet ∨ session.HandledOnce packet ∨ session.Dropped packet := by
  have hone := count_eq_one_of_mem h.nodup hin
  rw [h.parts.count_eq, count_append] at hone
  have hhandled := h.handled.count_le packet
  by_cases hpending : session.pending.count packet = 1
  · exact Or.inl ⟨hpending, by omega, by omega⟩
  · by_cases hcall : session.handled.count packet = 1
    · exact Or.inr (Or.inl ⟨by omega, hcall, by omega⟩)
    · exact Or.inr (Or.inr ⟨by omega, by omega, by omega⟩)

/-- The packets taken by the running update are the first of those it has seen. -/
theorem Phase.Fits.inOrder {player : Option Bool} {phase : Phase}
    (h : phase.Fits recvQueue player) {log : UpdateLog} (hlog : phase.log = some log) : log.InOrder := by
  cases phase with
  | idle => cases hlog
  | loop frame running | holding frame packet running =>
    cases hlog
    obtain ⟨hqueued, hrefused, -⟩ := h
    refine ⟨recvQueue, hqueued, fun packet hpacket => ?_⟩
    rw [hrefused] at hpacket
    cases hpacket
  | left frame running =>
    cases hlog
    exact ⟨recvQueue, h⟩

/-- **Packets are handled once and in order**: in every run in which the player does not become attached in
the middle of an update, every packet is in exactly one of the three states, packets for players in the world
are handled in the order of their arrival, and every update takes packets in the order of the queue, none of
them behind one that its filter refuses. -/
theorem packets_handled_once_in_order (opcodeTable : ℕ → ClientOpcodeHandler) (flags : Flags)
    (events : List Event)
    (hevents : Run.Along (Session.step opcodeTable) Session.Detached (Session.new flags) events) :
    let session := events.foldl (Session.step opcodeTable) (Session.new flags)
    (∀ packet ∈ session.arrived,
      session.Queued packet ∨ session.HandledOnce packet ∨ session.Dropped packet) ∧
    session.arrived.Pairwise (fun earlier later => earlier.id < later.id) ∧
    (session.handled.filter (loggedIn opcodeTable)).Sublist session.arrived ∧
    (∀ log ∈ session.updates, log.InOrder) ∧ ∀ log ∈ session.phase.log, log.InOrder := by
  intro session
  have h : Sound opcodeTable session :=
    hevents.invariant (Sound opcodeTable) (fun s e hs he => hs.step e he) (sound_new flags)
  refine ⟨fun packet hin => h.exactlyOne hin, ?_, ?_, h.updates, fun log hlog => h.fits.inOrder hlog⟩
  · have hsorted := @pairwise_lt_range session.arrived.length
    rw [← h.ids, pairwise_map] at hsorted
    exact hsorted
  · have hsub := h.order
    rw [filter_append] at hsub
    exact (sublist_append_left _ _).trans hsub

section Example

/-- Opcode 1 is for players in the world, 2 is for the login screen and not safe for threads. -/
def exampleTable (opcode : ℕ) : ClientOpcodeHandler :=
  if opcode = 1 then ⟨.loggedin, .threadSafe⟩ else ⟨.authed, .threadUnsafe⟩

/-- Two packets that come too early, around one that is handled, and an update of the map later. -/
theorem packets_handled_once_in_order_early :
    let session := [Event.queuePacket 1, .queuePacket 2, .startUpdate .worldSessionFilter, .next, .process true,
      .queuePacket 1, .next, .process true, .next, .process true, .next, .readd,
      .evolve ⟨some true, false, false, false, true⟩, .startUpdate .mapSessionFilter, .next,
      .process true].foldl (Session.step exampleTable) (Session.new ⟨none, false, false, false, true⟩)
    (∀ packet ∈ session.arrived,
      session.Queued packet ∨ session.HandledOnce packet ∨ session.Dropped packet) ∧
    session.arrived.Pairwise (fun earlier later => earlier.id < later.id) ∧
    (session.handled.filter (loggedIn exampleTable)).Sublist session.arrived ∧
    (∀ log ∈ session.updates, log.InOrder) ∧ ∀ log ∈ session.phase.log, log.InOrder :=
  packets_handled_once_in_order exampleTable _ _ (by decide)

end Example

end IscServer.WorldSession
