import IscServer.Server.WorldSocketSend

/-!
# The Stream from the Server to the Client

`WorldSocket::Update` cuts the queued packets into buffers: small packets share one, a packet
that does not fit opens a new one, and a packet larger than a buffer gets one of its own. The
client sees none of this. It reads one stream of bytes and cuts it into packets again by the
size field of the headers, which takes two bytes or three.

`encodeAll` is the stream as the client should see it: the header and the contents of every
packet, in the order of the packet queue, with one keystream for all encrypted headers. The
client is given by the cipher that undoes `EncryptSend` (`ClientCrypt`) and the rule by which it
finds the length of a header in its first byte (`parsePacket`).

## Main results

* `mergeQueue_emits`: `Update` pushes exactly the encoding of the packet queue.
* `parseStream_encodeAll`: the client reads the packets back from their encoding.
* `pushedAlong_lossless`: **for every grouping of the packets into updates and every size of the
  send buffer, the buffers pushed to the write queue are the encoding of all packets in order,
  and the client reads exactly these packets from it**.
-/

namespace IscServer

open List

/-- Decrypt a list of bytes with a stream cipher, one byte at a time. -/
def decryptAll {σ : Type} (decrypt : σ → UInt8 → UInt8 × σ) : σ → List UInt8 → List UInt8 × σ
  | s, [] => ([], s)
  | s, b :: bytes =>
    let plain := decrypt s b
    let rest := decryptAll decrypt plain.2 bytes
    (plain.1 :: rest.1, rest.2)

/-- What is decrypted first does not depend on what follows. -/
theorem decryptAll_take {σ : Type} (decrypt : σ → UInt8 → UInt8 × σ) (s : σ)
    (bytes : List UInt8) (n : ℕ) :
    (decryptAll decrypt s (bytes.take n)).1 = (decryptAll decrypt s bytes).1.take n := by
  induction bytes generalizing s n with
  | nil => simp [decryptAll]
  | cons b bytes ih =>
    cases n with
    | zero => rfl
    | succ n => simp only [take_succ_cons, decryptAll, ih]

/-- The stream cipher of a client, which works byte by byte, since the length of a header is
known only after its first byte. In `synced` states it undoes `EncryptSend`. -/
structure ClientCrypt {κ : Type} (C : PacketCrypt κ) where
  State : Type
  decrypt : State → UInt8 → UInt8 × State
  synced : κ → State → Prop
  decrypts : ∀ k s bytes, synced k s →
    (decryptAll decrypt s (C.encryptSend k bytes).1).1 = bytes ∧
      synced (C.encryptSend k bytes).2 (decryptAll decrypt s (C.encryptSend k bytes).1).2

namespace ServerPktHeader

/-- The header in four or five decrypted bytes: a big-endian size, of which the first bit of
three bytes is a mark, and a little-endian opcode. -/
def ofBytes : List UInt8 → Option ServerPktHeader
  | [s₁, s₀, c₀, c₁] => some ⟨s₁.toNat * 2 ^ 8 + s₀.toNat, c₀.toNat + c₁.toNat * 2 ^ 8⟩
  | [s₂, s₁, s₀, c₀, c₁] =>
    some ⟨s₂.toNat % 2 ^ 7 * 2 ^ 16 + s₁.toNat * 2 ^ 8 + s₀.toNat,
      c₀.toNat + c₁.toNat * 2 ^ 8⟩
  | _ => none

/-- The length of a header with the given first byte. -/
def lengthOfFirst (first : UInt8) : ℕ :=
  2 + if first &&& 0x80 ≠ 0 then 3 else 2

/-- The mark of a large header is the highest bit of a byte. -/
theorem mark_iff {n : ℕ} (hn : n < 2 ^ 8) : UInt8.ofNat n &&& 0x80 ≠ 0 ↔ 2 ^ 7 ≤ n := by
  have hall : ∀ n : Fin (2 ^ 8), UInt8.ofNat n &&& 0x80 ≠ 0 ↔ 2 ^ 7 ≤ n.val := by decide +kernel
  exact hall ⟨n, hn⟩

/-- Setting the mark. -/
theorem mark_or {n : ℕ} (hn : n < 2 ^ 7) : 0x80 ||| UInt8.ofNat n = UInt8.ofNat (2 ^ 7 + n) := by
  have hall : ∀ n : Fin (2 ^ 7), 0x80 ||| UInt8.ofNat n = UInt8.ofNat (2 ^ 7 + n.val) := by
    decide +kernel
  exact hall ⟨n, hn⟩

variable {h : ServerPktHeader}

/-- The two layouts of a header with a size below `2 ^ 23`. -/
theorem header_cases (hsize : h.size < 2 ^ 23) :
    h.header = [UInt8.ofNat (2 ^ 7 + h.size / 2 ^ 16), UInt8.ofNat (h.size / 2 ^ 8),
        UInt8.ofNat h.size, UInt8.ofNat h.cmd, UInt8.ofNat (h.cmd / 2 ^ 8)] ∨
      h.size ≤ 0x7FFF ∧
        h.header = [UInt8.ofNat (h.size / 2 ^ 8), UInt8.ofNat h.size, UInt8.ofNat h.cmd,
          UInt8.ofNat (h.cmd / 2 ^ 8)] := by
  by_cases hlarge : h.isLargePacket = true
  · have hhigh : h.size / 2 ^ 16 < 2 ^ 7 := by omega
    refine Or.inl ?_
    rw [header, if_pos hlarge, mark_or hhigh, singleton_append]
  · refine Or.inr ⟨by simpa [isLargePacket] using hlarge, ?_⟩
    rw [header, if_neg hlarge, nil_append]

/-- **The first byte of a header tells its length**, for sizes below `2 ^ 23`. -/
theorem lengthOfFirst_header (hsize : h.size < 2 ^ 23) :
    ∃ first tail, h.header = first :: tail ∧ lengthOfFirst first = h.header.length := by
  rcases header_cases hsize with heq | ⟨hle, heq⟩
  · have hmark := (mark_iff (n := 2 ^ 7 + h.size / 2 ^ 16) (by omega)).mpr (by omega)
    rw [heq]
    exact ⟨_, _, rfl, by rw [lengthOfFirst, if_pos hmark]; rfl⟩
  · have hmark := (mark_iff (n := h.size / 2 ^ 8) (by omega)).not.mpr (by omega)
    rw [heq]
    exact ⟨_, _, rfl, by rw [lengthOfFirst, if_neg hmark]; rfl⟩

/-- **A header is read back from its bytes**, in either layout. -/
theorem ofBytes_header (hsize : h.size < 2 ^ 23) (hcmd : h.cmd < 2 ^ 16) :
    ofBytes h.header = some h := by
  obtain ⟨size, cmd⟩ := h
  rcases header_cases hsize with heq | ⟨hle, heq⟩
  · rw [heq]
    simp only [ofBytes, UInt8.toNat_ofNat', Option.some.injEq, mk.injEq]
    dsimp only at hsize hcmd
    constructor <;> omega
  · rw [heq]
    simp only [ofBytes, UInt8.toNat_ofNat', Option.some.injEq, mk.injEq]
    dsimp only at hle hcmd
    constructor <;> omega

end ServerPktHeader

namespace ClientCrypt

variable {κ : Type} {C : PacketCrypt κ} (D : ClientCrypt C)

/-- Decrypt the bytes of a header, if it is encrypted. -/
def plain (encrypted : Bool) (s : D.State) (bytes : List UInt8) : List UInt8 × D.State :=
  if encrypted then decryptAll D.decrypt s bytes else (bytes, s)

/-- Read one packet from the stream: the first byte gives the length of the header, the header
gives the length of the contents. -/
def parsePacket (encrypted : Bool) (s : D.State) (bytes : List UInt8) :
    Option (WorldPacket × D.State × List UInt8) :=
  match (D.plain encrypted s (bytes.take 1)).1 with
  | [] => none
  | first :: _ =>
    let length := ServerPktHeader.lengthOfFirst first
    let header := D.plain encrypted s (bytes.take length)
    match ServerPktHeader.ofBytes header.1 with
    | none => none
    | some h =>
      let rest := bytes.drop length
      if h.size < 2 ∨ rest.length < h.size - 2 then none
      else some (⟨h.cmd, rest.take (h.size - 2)⟩, header.2, rest.drop (h.size - 2))

/-- Read packets until the stream ends, with fuel. The client knows which of the first headers
come in plain; after those, all are encrypted. -/
def parse : ℕ → List Bool → D.State → List UInt8 → Option (List WorldPacket)
  | _, _, _, [] => some []
  | 0, _, _, _ :: _ => none
  | fuel + 1, encrypted, s, b :: bytes =>
    match D.parsePacket (encrypted.headD true) s (b :: bytes) with
    | none => none
    | some (packet, s', rest) => (parse fuel encrypted.tail s' rest).map (packet :: ·)

/-- Read all packets of a stream. Every packet takes at least one byte. -/
def parseStream (encrypted : List Bool) (s : D.State) (bytes : List UInt8) :
    Option (List WorldPacket) :=
  D.parse bytes.length encrypted s bytes

theorem plain_take (encrypted : Bool) (s : D.State) (bytes : List UInt8) (n : ℕ) :
    (D.plain encrypted s (bytes.take n)).1 = (D.plain encrypted s bytes).1.take n := by
  rw [plain, plain]
  split_ifs
  · exact decryptAll_take D.decrypt s bytes n
  · rfl

end ClientCrypt

namespace WorldSocket

variable {κ : Type} {C : PacketCrypt κ} {net : ℕ → WriteResult}

/-! ### The encoding of a packet queue -/

/-- The header of a packet as it is sent, and the keystream after it. -/
def sentHeader (C : PacketCrypt κ) (k : κ) (p : EncryptablePacket) : List UInt8 × κ :=
  let header := (ServerPktHeader.ofPacket p.toWorldPacket).header
  if p.encrypt then C.encryptSend k header else (header, k)

/-- The header and the contents of a packet, and the keystream after it. -/
def encodePacket (C : PacketCrypt κ) (k : κ) (p : EncryptablePacket) : List UInt8 × κ :=
  ((sentHeader C k p).1 ++ p.contents, (sentHeader C k p).2)

/-- The stream of a list of packets. -/
def encodeAll (C : PacketCrypt κ) : κ → List EncryptablePacket → List UInt8
  | _, [] => []
  | k, p :: ps => (encodePacket C k p).1 ++ encodeAll C (encodePacket C k p).2 ps

/-- The keystream after a list of packets. -/
def keyAfter (C : PacketCrypt κ) (k : κ) (ps : List EncryptablePacket) : κ :=
  ps.foldl (fun k p => (encodePacket C k p).2) k

theorem encodeAll_append (C : PacketCrypt κ) (k : κ) (ps qs : List EncryptablePacket) :
    encodeAll C k (ps ++ qs) = encodeAll C k ps ++ encodeAll C (keyAfter C k ps) qs := by
  induction ps generalizing k with
  | nil => rfl
  | cons p ps ih =>
    rw [cons_append, encodeAll, encodeAll, ih, append_assoc]
    rfl

/-! ### Reading the packets back -/

/-- A packet as the game makes them: the opcode is a `uint16`, and the contents with the opcode
fit into the 23 bits that a large header has for its size. -/
def Sendable (p : EncryptablePacket) : Prop :=
  p.opcode < 2 ^ 16 ∧ p.contents.length + 2 < 2 ^ 23

theorem Sendable.ofPacket {p : EncryptablePacket} (h : Sendable p) :
    ServerPktHeader.ofPacket p.toWorldPacket = ⟨p.contents.length + 2, p.opcode⟩ := by
  obtain ⟨hop, hlen⟩ := h
  rw [ServerPktHeader.ofPacket, Nat.mod_eq_of_lt (by omega), Nat.mod_eq_of_lt hop]

section

variable (D : ClientCrypt C) {k : κ} {s : D.State} (hsync : D.synced k s)
include hsync

/-- Decrypting the header of a packet. -/
theorem plain_header (p : EncryptablePacket) :
    (D.plain p.encrypt s (sentHeader C k p).1).1 =
        (ServerPktHeader.ofPacket p.toWorldPacket).header ∧
      D.synced (sentHeader C k p).2 (D.plain p.encrypt s (sentHeader C k p).1).2 ∧
      (sentHeader C k p).1.length = (ServerPktHeader.ofPacket p.toWorldPacket).header.length := by
  rw [ClientCrypt.plain, sentHeader]
  split_ifs
  · obtain ⟨hbytes, hsynced⟩ := D.decrypts k s _ hsync
    exact ⟨hbytes, hsynced, C.length_encryptSend _ _⟩
  · exact ⟨rfl, hsync, rfl⟩

/-- **One packet is read back** from the front of the stream. -/
theorem parsePacket_encodePacket {p : EncryptablePacket} (hp : Sendable p) (rest : List UInt8) :
    ∃ s', D.parsePacket p.encrypt s ((encodePacket C k p).1 ++ rest) =
        some (p.toWorldPacket, s', rest) ∧
      D.synced (encodePacket C k p).2 s' := by
  obtain ⟨hplain, hsynced, hlength⟩ := plain_header D hsync p
  rw [encodePacket]
  set sent := sentHeader C k p
  have hsize : (ServerPktHeader.ofPacket p.toWorldPacket).size < 2 ^ 23 := by
    rw [hp.ofPacket]
    exact hp.2
  have hcmd : (ServerPktHeader.ofPacket p.toWorldPacket).cmd < 2 ^ 16 := by
    rw [hp.ofPacket]
    exact hp.1
  obtain ⟨first, tail, hfirst, hfirstLength⟩ := ServerPktHeader.lengthOfFirst_header hsize
  rw [← hlength] at hfirstLength
  have hpos : 1 ≤ sent.1.length := by
    rw [hlength, hfirst, length_cons]
    exact Nat.le_add_left _ _
  refine ⟨(D.plain p.encrypt s sent.1).2, ?_, hsynced⟩
  have hpeek : (D.plain p.encrypt s ((sent.1 ++ p.contents ++ rest).take 1)).1 = [first] := by
    rw [append_assoc, take_append_of_le_length hpos, D.plain_take, hplain, hfirst]
    rfl
  have htake : (sent.1 ++ p.contents ++ rest).take (ServerPktHeader.lengthOfFirst first) =
      sent.1 := by
    rw [append_assoc, hfirstLength, take_left]
  have hdrop : (sent.1 ++ p.contents ++ rest).drop (ServerPktHeader.lengthOfFirst first) =
      p.contents ++ rest := by
    rw [append_assoc, hfirstLength, drop_left]
  have hnot : ¬ (p.contents.length + 2 < 2 ∨
      (p.contents ++ rest).length < p.contents.length + 2 - 2) := by
    rw [length_append]
    omega
  simp only [ClientCrypt.parsePacket, hpeek, htake, hdrop, hplain,
    ServerPktHeader.ofBytes_header hsize hcmd]
  rw [hp.ofPacket, if_neg hnot]
  simp only [Nat.add_sub_cancel, take_left, drop_left]

variable {ps : List EncryptablePacket}

/-- Reading packets with enough fuel. -/
theorem parse_encodeAll (hps : ∀ p ∈ ps, Sendable p) (fuel : ℕ)
    (hfuel : (encodeAll C k ps).length ≤ fuel) :
    D.parse fuel (ps.map (·.encrypt)) s (encodeAll C k ps) = some (ps.map (·.toWorldPacket)) := by
  induction ps generalizing k s fuel with
  | nil =>
    cases fuel <;> rfl
  | cons p ps ih =>
    obtain ⟨s', hparse, hsync'⟩ := parsePacket_encodePacket D hsync (hps p mem_cons_self)
      (encodeAll C (encodePacket C k p).2 ps)
    rw [encodeAll, length_append] at hfuel
    have hheader : 0 < (encodePacket C k p).1.length := by
      rw [encodePacket, length_append, (plain_header D hsync p).2.2,
        ServerPktHeader.length_header, ServerPktHeader.getHeaderLength]
      omega
    obtain ⟨b, bytes, hcons⟩ := exists_cons_of_length_pos
      (l := (encodePacket C k p).1 ++ encodeAll C (encodePacket C k p).2 ps)
      (by rw [length_append]; omega)
    obtain ⟨fuel, rfl⟩ : ∃ n, fuel = n + 1 := ⟨fuel - 1, by omega⟩
    have hrest := ih hsync' (fun q hq => hps q (mem_cons_of_mem _ hq)) fuel (by omega)
    rw [hcons] at hparse
    rw [encodeAll, hcons]
    simp only [ClientCrypt.parse, map_cons, headD_cons, tail_cons, hparse, hrest, Option.map_some]

/-- **The client reads the packets back** from their encoding. -/
theorem parseStream_encodeAll (hps : ∀ p ∈ ps, Sendable p) :
    D.parseStream (ps.map (·.encrypt)) s (encodeAll C k ps) = some (ps.map (·.toWorldPacket)) :=
  parse_encodeAll D hsync hps _ (Nat.le_refl _)

end

/-! ### What `Update` pushes -/

/-- The bytes in the write queue and in the buffer in the making. -/
def emitted (r : WorldSocket κ × MessageBuffer) : List UInt8 :=
  r.1.socket.queuedBytes ++ r.2.active

/-- From one state of the loop of `Update` to a later one, after `ps` has been merged: the bytes
of `ps` are emitted, and buffers are only added to the write queue. -/
structure Emits (C : PacketCrypt κ) (ps : List EncryptablePacket)
    (r r' : WorldSocket κ × MessageBuffer) : Prop where
  bytes : emitted r' = emitted r ++ encodeAll C r.1.authCrypt ps
  key : r'.1.authCrypt = keyAfter C r.1.authCrypt ps
  ordered : r'.2.Ordered
  pushes : r.1.socket.writeQueue <+: r'.1.socket.writeQueue

theorem Emits.trans {ps qs : List EncryptablePacket} {r r' r'' : WorldSocket κ × MessageBuffer}
    (h : Emits C ps r r') (h' : Emits C qs r' r'') : Emits C (ps ++ qs) r r'' := by
  refine ⟨?_, ?_, h'.ordered, h.pushes.trans h'.pushes⟩
  · rw [h'.bytes, h.bytes, h.key, encodeAll_append, append_assoc]
  · rw [h'.key, h.key, keyAfter, keyAfter, keyAfter, foldl_append]

/-- **Merging one packet** emits its encoding, whether the packet shares the buffer, opens a new
one or gets one of its own. -/
theorem mergePacket_emits (C : PacketCrypt κ) (ws : WorldSocket κ) {b : MessageBuffer}
    (hb : b.Ordered) (p : EncryptablePacket) :
    Emits C [p] (ws, b) (mergePacket C (ws, b) p) := by
  have hencode : encodeAll C ws.authCrypt [p] =
      (ws.packetHeader C p).1 ++ p.contents := append_nil _
  simp only [mergePacket]
  set header := ws.packetHeader C p
  set total := p.contents.length + (ServerPktHeader.ofPacket p.toWorldPacket).getHeaderLength
  by_cases hlt : b.remainingSpace < total
  · obtain ⟨hnew, hempty⟩ := resize_moved ws.sendBufferSize
    split_ifs
    · obtain ⟨hord, hactive⟩ := write_write hnew header.1 p.contents
      refine ⟨?_, rfl, hord, prefix_append _ _⟩
      simp only [emitted, hencode, hactive, hempty, queuedBytes_queuePacket, nil_append]
    · obtain ⟨-, hactive⟩ := write_write (MessageBuffer.ordered_ofSize total) header.1 p.contents
      refine ⟨?_, rfl, hnew, ?_⟩
      · simp only [emitted, hencode, hactive, hempty, queuedBytes_queuePacket,
          MessageBuffer.active_ofSize, nil_append, append_nil]
      · exact (prefix_append _ _).trans (prefix_append _ _)
  · simp only [if_neg hlt, if_pos (Nat.le_of_not_lt hlt)]
    obtain ⟨hord, hactive⟩ := write_write hb header.1 p.contents
    refine ⟨?_, rfl, hord, prefix_rfl⟩
    simp only [emitted, hencode, hactive, append_assoc]

/-- Merging a list of packets. -/
theorem foldl_mergePacket_emits (C : PacketCrypt κ) {r : WorldSocket κ × MessageBuffer}
    (hr : r.2.Ordered) (ps : List EncryptablePacket) :
    Emits C ps r (ps.foldl (mergePacket C) r) := by
  induction ps generalizing r with
  | nil => exact ⟨(append_nil _).symm, rfl, hr, prefix_rfl⟩
  | cons p ps ih =>
    have hp := mergePacket_emits C r.1 hr p
    exact hp.trans (ih hp.ordered)

/-- The buffers that `Update` pushes to the write queue. -/
def pushed (C : PacketCrypt κ) (ws : WorldSocket κ) : List MessageBuffer :=
  (ws.mergeQueue C).socket.writeQueue.drop ws.socket.writeQueue.length

/-- **`Update` pushes the encoding of the packet queue** behind what is in the write queue. -/
theorem mergeQueue_emits (C : PacketCrypt κ) (ws : WorldSocket κ) :
    (ws.mergeQueue C).socket.writeQueue = ws.socket.writeQueue ++ ws.pushed C ∧
      (ws.pushed C).flatMap MessageBuffer.active = encodeAll C ws.authCrypt ws.bufferQueue ∧
      (ws.mergeQueue C).authCrypt = keyAfter C ws.authCrypt ws.bufferQueue := by
  suffices h : ws.socket.writeQueue <+: (ws.mergeQueue C).socket.writeQueue ∧
      (ws.mergeQueue C).socket.queuedBytes =
        ws.socket.queuedBytes ++ encodeAll C ws.authCrypt ws.bufferQueue ∧
      (ws.mergeQueue C).authCrypt = keyAfter C ws.authCrypt ws.bufferQueue by
    obtain ⟨⟨tail, htail⟩, hbytes, hkey⟩ := h
    have hpushed : ws.pushed C = tail := by rw [pushed, ← htail, drop_left]
    rw [Socket.queuedBytes, ← htail, flatMap_append] at hbytes
    rw [hpushed]
    exact ⟨htail.symm, append_cancel_left hbytes, hkey⟩
  rw [mergeQueue]
  by_cases hempty : ws.bufferQueue = []
  · rw [if_pos hempty, hempty]
    exact ⟨prefix_rfl, (append_nil _).symm, rfl⟩
  have h := foldl_mergePacket_emits C (r := ({ ws with bufferQueue := [] },
    MessageBuffer.ofSize ws.sendBufferSize)) (MessageBuffer.ordered_ofSize _) ws.bufferQueue
  have hbytes := h.bytes
  rw [emitted, emitted, MessageBuffer.active_ofSize, append_nil] at hbytes
  dsimp only
  split_ifs with hactive
  · refine ⟨h.pushes.trans (prefix_append _ _), ?_, h.key⟩
    rw [queuedBytes_queuePacket, hbytes]
  · have hnil := length_eq_zero_iff.mp
      (h.ordered.length_active.trans (Nat.eq_zero_of_not_pos hactive))
    rw [hnil, append_nil] at hbytes
    exact ⟨h.pushes, hbytes, h.key⟩

/-! ### Groups of packets -/

/-- Packets arrive in the packet queue. -/
def enqueue (ws : WorldSocket κ) (group : List EncryptablePacket) : WorldSocket κ :=
  { ws with bufferQueue := ws.bufferQueue ++ group, accepted := ws.accepted ++ group }

/-- The buffers pushed in a sequence of calls of `Update`, each after a group of packets has
arrived. -/
def pushedAlong (C : PacketCrypt κ) (net : ℕ → WriteResult) :
    WorldSocket κ → List (List EncryptablePacket) → List MessageBuffer
  | _, [] => []
  | ws, group :: groups =>
    (ws.enqueue group).pushed C ++ pushedAlong C net ((ws.enqueue group).update C net).2 groups

/-- The buffers pushed along a sequence of updates encode the packets of all groups. -/
theorem pushedAlong_encodeAll (C : PacketCrypt κ) (net : ℕ → WriteResult) {ws : WorldSocket κ}
    (hqueue : ws.bufferQueue = []) (groups : List (List EncryptablePacket)) :
    (pushedAlong C net ws groups).flatMap MessageBuffer.active =
      encodeAll C ws.authCrypt groups.flatten := by
  induction groups generalizing ws with
  | nil => rfl
  | cons group groups ih =>
    obtain ⟨-, hpushed, hkey⟩ := mergeQueue_emits C (ws.enqueue group)
    have hgroup : (ws.enqueue group).bufferQueue = group := by
      rw [enqueue, hqueue, nil_append]
    rw [hgroup] at hpushed hkey
    have hdrained : ((ws.enqueue group).update C net).2.bufferQueue = [] :=
      (mergeQueue_frame C (ws.enqueue group)).1
    have hnext : ((ws.enqueue group).update C net).2.authCrypt =
        keyAfter C ws.authCrypt group := hkey
    rw [pushedAlong, flatMap_append, hpushed, ih hdrained, hnext, flatten_cons, encodeAll_append]
    rfl

/-- **The stream to the client is lossless and decodable.** For every state of a world socket
with an empty packet queue, every size of its send buffer and every grouping of packets into
calls of `Update`: the buffers pushed to the write queue are, taken together, the headers and
contents of the packets in their order, the encrypted headers taken from one keystream; and a
client in step with that keystream reads exactly these packets from them. -/
theorem pushedAlong_lossless (D : ClientCrypt C) (net : ℕ → WriteResult) {ws : WorldSocket κ}
    (hqueue : ws.bufferQueue = []) {s : D.State} (hsync : D.synced ws.authCrypt s)
    (groups : List (List EncryptablePacket)) (hsend : ∀ p ∈ groups.flatten, Sendable p) :
    (pushedAlong C net ws groups).flatMap MessageBuffer.active =
        encodeAll C ws.authCrypt groups.flatten ∧
      D.parseStream (groups.flatten.map (·.encrypt)) s
          ((pushedAlong C net ws groups).flatMap MessageBuffer.active) =
        some (groups.flatten.map (·.toWorldPacket)) := by
  have hbytes := pushedAlong_encodeAll C net hqueue groups
  refine ⟨hbytes, ?_⟩
  rw [hbytes]
  exact parseStream_encodeAll D hsync hsend

/-- Encryption with a keystream, as ARC4 does it: a byte is combined with the byte of the
stream at its position. -/
def xorStream (keystream : ℕ → UInt8) (n : ℕ) (b : UInt8) : UInt8 × ℕ :=
  (b ^^^ keystream n, n + 1)

/-- Decryption with the same keystream from the same position. -/
theorem decryptAll_xorStream (keystream : ℕ → UInt8) (n : ℕ) (bytes : List UInt8) :
    (decryptAll (xorStream keystream) n bytes).1.length = bytes.length ∧
      (decryptAll (xorStream keystream) n (decryptAll (xorStream keystream) n bytes).1).1 = bytes ∧
      (decryptAll (xorStream keystream) n
        (decryptAll (xorStream keystream) n bytes).1).2 =
        (decryptAll (xorStream keystream) n bytes).2 := by
  induction bytes generalizing n with
  | nil => exact ⟨rfl, rfl, rfl⟩
  | cons b bytes ih =>
    obtain ⟨hlength, hbytes, hstate⟩ := ih (n + 1)
    have hb : b ^^^ keystream n ^^^ keystream n = b := by
      rw [UInt8.xor_assoc, UInt8.xor_self, UInt8.xor_zero]
    simp only [decryptAll, xorStream]
    exact ⟨congrArg (· + 1) hlength, by rw [hb]; exact congrArg _ hbytes, hstate⟩

/-- Header encryption with one keystream; the state is the position in it. -/
def streamCrypt (keystream : ℕ → UInt8) : PacketCrypt ℕ where
  isInitialized _ := true
  decryptRecv n bytes := (bytes, n)
  encryptSend n bytes := decryptAll (xorStream keystream) n bytes
  length_encryptSend n bytes := (decryptAll_xorStream keystream n bytes).1

/-- The client with the same keystream. -/
def streamClient (keystream : ℕ → UInt8) : ClientCrypt (streamCrypt keystream) where
  State := ℕ
  decrypt := xorStream keystream
  synced := Eq
  decrypts := by
    rintro k s bytes rfl
    obtain ⟨-, hbytes, hstate⟩ := decryptAll_xorStream keystream k bytes
    exact ⟨hbytes, hstate.symm⟩

/-- A send buffer of eight bytes: a plain packet, an encrypted one that does not fit behind it,
one larger than the buffer, and one that arrives later. -/
theorem pushedAlong_lossless_streamClient :
    let ws : WorldSocket ℕ := { authCrypt := 0, sendBufferSize := 8 }
    let groups : List (List EncryptablePacket) :=
      [[⟨⟨0x1EC, [1]⟩, false⟩, ⟨⟨0x1EE, [2, 3]⟩, true⟩, ⟨⟨0x0DD, List.replicate 9 4⟩, true⟩], [],
        [⟨⟨0x1DD, []⟩, true⟩]]
    let stream := (pushedAlong (streamCrypt fun n => UInt8.ofNat (7 * n + 3))
      (fun _ => .wouldBlock) ws groups).flatMap MessageBuffer.active
    stream = encodeAll (streamCrypt fun n => UInt8.ofNat (7 * n + 3)) 0 groups.flatten ∧
      (streamClient fun n => UInt8.ofNat (7 * n + 3)).parseStream
          (groups.flatten.map (·.encrypt)) (0 : ℕ) stream =
        some (groups.flatten.map (·.toWorldPacket)) :=
  pushedAlong_lossless (streamClient _) _ rfl rfl _ (by unfold Sendable; decide)

end WorldSocket

end IscServer
