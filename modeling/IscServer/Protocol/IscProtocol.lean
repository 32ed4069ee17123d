import IscServer.Encoding.BaseEncoding

/-!
# The ISC Protocol

The transport of custom opcodes over addon messages (`game/Server/Protocol/IscProtocol.h`,
`IscProtocol.cpp`): `encodeFrames` splits a packet into Base64 frames, `Reassembler` rebuilds
packets from frames received in order. Strings and vectors are byte lists; sizes are natural
numbers, the header fields are 16-bit words.

`Reassembler.feed` reads a frame string only through `parseFrame`, its header and data
(`feed_eq`). All results about the reassembler are stated over `InOrder`: a list of strings
that are the frames `0, 1, 2, …` of one message.

## Main results

* `feedAll_inOrder`: from any state, feeding a proper prefix of a message leaves exactly that
  prefix in the reassembler.
* `feed_last`: feeding the last frame returns the packet.
* `encodeFrames_inOrder`: the frames of a packet are in order and hold its message.
* `feedAll_encodeFrames`: **the frames of a packet round-trip**.
-/

namespace IscServer

open List

namespace Isc

open BaseEncoding

/-! ### Constants -/

/-- `CLIENT_PREFIX`: `"CISC"`. -/
def clientPrefix : List UInt8 := [67, 73, 83, 67]

/-- `MAX_ADDON_MESSAGE_LENGTH`. -/
def maxAddonMessageLength : ℕ := 255

/-- `MAX_FRAME_LENGTH`: prefix, tab separator and frame fit in an addon message. -/
def maxFrameLength : ℕ := (maxAddonMessageLength - clientPrefix.length - 1) / 4 * 4

/-- `FRAME_HEADER_SIZE`. -/
def frameHeaderSize : ℕ := 6

/-- `MAX_FRAME_DATA`. -/
def maxFrameData : ℕ := maxFrameLength / 4 * 3 - frameHeaderSize

/-- `MESSAGE_HEADER_SIZE`. -/
def messageHeaderSize : ℕ := 2

/-- `MAX_CLIENT_MESSAGE_SIZE`. -/
def maxClientMessageSize : ℕ := 16 * 1024

/-! ### Little-endian words -/

/-- `WriteUInt16`. -/
def writeUInt16 (buffer : List UInt8) (value : UInt16) : List UInt8 :=
  buffer ++ [(value &&& 0xFF).toUInt8, (value >>> 8).toUInt8]

/-- `ReadUInt16`; every call of the source is in bounds. -/
def readUInt16 (buffer : List UInt8) (offset : ℕ) : UInt16 :=
  UInt16.ofNat ((buffer.getD offset 0).toNat ||| ((buffer.getD (offset + 1) 0).toNat <<< 8))

/-! ### Packets and frames -/

/-- `IscPacket`: an opcode and the bytes of its `ByteBuffer`. -/
structure IscPacket where
  opcode : UInt16
  contents : List UInt8
  deriving DecidableEq, Repr

/-- The message of a packet: its opcode, then its payload. -/
def message (packet : IscPacket) : List UInt8 :=
  writeUInt16 [] packet.opcode ++ packet.contents

/-- The number of frames of a message. -/
def frameCount (packet : IscPacket) : ℕ :=
  ((message packet).length + maxFrameData - 1) / maxFrameData

/-- The bytes of the frame number `index`, before Base64. -/
def frameBytes (messageId : UInt16) (packet : IscPacket) (index : ℕ) : List UInt8 :=
  let msg := message packet
  let offset := index * maxFrameData
  let length := min maxFrameData (msg.length - offset)
  let header := writeUInt16 (writeUInt16 (writeUInt16 [] messageId) (UInt16.ofNat index))
    (UInt16.ofNat (frameCount packet))
  header ++ (msg.drop offset).take length

/-- `Isc::EncodeFrames`; `none` is the failed `ASSERT` on the frame count. -/
def encodeFrames (messageId : UInt16) (packet : IscPacket) : Option (List (List UInt8)) :=
  if frameCount packet ≤ 65535 then
    some ((List.range (frameCount packet)).map fun index =>
      base64.encode (frameBytes messageId packet index))
  else none

/-- `Isc::Reassembler`; `count` is 0 when no message is in progress. -/
structure Reassembler where
  maxMessageSize : ℕ := maxClientMessageSize
  data : List UInt8 := []
  messageId : UInt16 := 0
  nextIndex : UInt16 := 0
  count : UInt16 := 0
  deriving DecidableEq, Repr

namespace Reassembler

/-- `Reassembler::Reset`. -/
def reset (r : Reassembler) : Reassembler :=
  { r with data := [], messageId := 0, nextIndex := 0, count := 0 }

/-- The part of `Reassembler::Feed` behind the header checks: append the data of the frame and
finish the message with its last frame. -/
def store (r : Reassembler) (decoded : List UInt8) (index : UInt16) :
    Option IscPacket × Reassembler :=
  if r.data.length + decoded.length - frameHeaderSize > r.maxMessageSize then (none, r.reset)
  else
    let r' := { r with data := r.data ++ decoded.drop frameHeaderSize, nextIndex := index + 1 }
    if r'.nextIndex < r'.count then (none, r')
    else if r'.data.length < messageHeaderSize then (none, r'.reset)
    else (some ⟨readUInt16 r'.data 0, r'.data.drop messageHeaderSize⟩, r'.reset)

/-- `Reassembler::Feed`. -/
def feed (r : Reassembler) (frame : List UInt8) : Option IscPacket × Reassembler :=
  if frame.length > maxFrameLength then (none, r.reset)
  else
    match base64.decode frame with
    | none => (none, r.reset)
    | some decoded =>
      if decoded.length < frameHeaderSize then (none, r.reset)
      else
        let messageId := readUInt16 decoded 0
        let index := readUInt16 decoded 2
        let count := readUInt16 decoded 4
        if index = 0 then
          -- a new message replaces any unfinished one
          if count = 0 then (none, r.reset)
          else store { r.reset with messageId := messageId, count := count } decoded index
        else if r.count = 0 ∨ messageId ≠ r.messageId ∨ index ≠ r.nextIndex ∨ count ≠ r.count then
          (none, r.reset)
        else store r decoded index

/-- A run of `Feed` over a list of strings: what each call returns, and the final state. -/
def feedAll : Reassembler → List (List UInt8) → List (Option IscPacket) × Reassembler
  | r, [] => ([], r)
  | r, f :: fs =>
    let here := r.feed f
    let rest := here.2.feedAll fs
    (here.1 :: rest.1, rest.2)

variable (r : Reassembler)

theorem feedAll_append (fs gs : List (List UInt8)) :
    r.feedAll (fs ++ gs) =
      ((r.feedAll fs).1 ++ ((r.feedAll fs).2.feedAll gs).1, ((r.feedAll fs).2.feedAll gs).2) := by
  induction fs generalizing r with
  | nil => simp [feedAll]
  | cons f fs ih => simp [feedAll, ih]

theorem feedAll_snoc (fs : List (List UInt8)) (f : List UInt8) :
    r.feedAll (fs ++ [f]) =
      ((r.feedAll fs).1 ++ [((r.feedAll fs).2.feed f).1], ((r.feedAll fs).2.feed f).2) := by
  rw [feedAll_append]
  simp [feedAll]

end Reassembler

/-! ### Frames as the reassembler sees them -/

/-- The content of a frame string. -/
structure Frame where
  messageId : UInt16
  index : UInt16
  count : UInt16
  data : List UInt8
  deriving DecidableEq, Repr

/-- Reads a frame string: it has at most `MAX_FRAME_LENGTH` characters and decodes to at least
`FRAME_HEADER_SIZE` bytes. -/
def parseFrame (frame : List UInt8) : Option Frame :=
  if frame.length > maxFrameLength then none
  else
    (base64.decode frame).bind fun decoded =>
      if decoded.length < frameHeaderSize then none
      else some ⟨readUInt16 decoded 0, readUInt16 decoded 2, readUInt16 decoded 4,
        decoded.drop frameHeaderSize⟩

/-- The strings are the frames `0, 1, 2, …` of one message of `count` frames, with the given
data in each. -/
def InOrder (messageId count : UInt16) (strings : List (List UInt8)) (datas : List (List UInt8)) :
    Prop :=
  strings.map parseFrame = datas.mapIdx fun i d => some ⟨messageId, UInt16.ofNat i, count, d⟩

theorem InOrder.length_eq {messageId count : UInt16} {strings datas : List (List UInt8)}
    (h : InOrder messageId count strings datas) : strings.length = datas.length := by
  simpa using congrArg List.length h

variable {count : UInt16} {strings datas : List (List UInt8)} {f : List UInt8}

/-- The last of several frames in order. -/
theorem inOrder_snoc {messageId : UInt16} {d : List UInt8} :
    InOrder messageId count (strings ++ [f]) (datas ++ [d]) ↔
      InOrder messageId count strings datas ∧
        parseFrame f = some ⟨messageId, UInt16.ofNat datas.length, count, d⟩ := by
  unfold InOrder
  rw [map_append, mapIdx_append]
  constructor
  · intro h
    obtain ⟨hinit, hlast⟩ := append_inj' h (by simp)
    exact ⟨hinit, by simpa using hlast⟩
  · rintro ⟨hinit, hlast⟩
    rw [hinit]
    simp [hlast]

theorem InOrder.exists_snoc {messageId : UInt16}
    (h : InOrder messageId count (strings ++ [f]) datas) : ∃ datas' d, datas = datas' ++ [d] := by
  rcases eq_nil_or_concat datas with rfl | ⟨datas', d, rfl⟩
  · simpa using h.length_eq
  · exact ⟨datas', d, by simp⟩

namespace Reassembler

/-- The state of a reassembler that has stored the first frames of a message. -/
def holding (maxMessageSize : ℕ) (messageId count : UInt16) (datas : List (List UInt8)) :
    Reassembler :=
  { maxMessageSize, data := datas.flatten, messageId, nextIndex := UInt16.ofNat datas.length,
    count }

variable (r : Reassembler)

/-- A string that is not a frame empties the reassembler. -/
theorem feed_of_parseFrame_none {f : List UInt8} (h : parseFrame f = none) :
    r.feed f = (none, r.reset) := by
  unfold parseFrame at h
  unfold feed
  split_ifs at h with hlen
  · rw [if_pos hlen]
  · rw [if_neg hlen]
    cases hdec : base64.decode f with
    | none => rfl
    | some decoded =>
      simp only [hdec, Option.bind_some, ite_eq_left_iff, reduceCtorEq, imp_false, not_not] at h
      simp only [if_pos h]

/-- What `Feed` does with a frame, by its index and the state of the reassembler. -/
theorem feed_of_parseFrame (r : Reassembler) {f : List UInt8} {fr : Frame}
    (h : parseFrame f = some fr) :
    ∃ decoded : List UInt8, decoded.length = frameHeaderSize + fr.data.length ∧
      decoded.drop frameHeaderSize = fr.data ∧
      r.feed f =
        if fr.index = 0 then
          if fr.count = 0 then (none, r.reset)
          else store { r.reset with messageId := fr.messageId, count := fr.count } decoded fr.index
        else if r.count = 0 ∨ fr.messageId ≠ r.messageId ∨ fr.index ≠ r.nextIndex ∨
            fr.count ≠ r.count then (none, r.reset)
        else store r decoded fr.index := by
  unfold parseFrame at h
  split_ifs at h with hlen
  obtain ⟨decoded, hdec, h⟩ := Option.bind_eq_some_iff.mp h
  split_ifs at h with hsize
  obtain rfl := Option.some.inj h
  refine ⟨decoded, by simp only [length_drop]; omega, rfl, ?_⟩
  unfold feed
  simp only [if_neg hlen, hdec, if_neg hsize]

variable {m c : UInt16} {datas : List (List UInt8)}

/-- Storing the next frame of a message: the data is kept while frames are missing, and the
last frame delivers the packet. -/
theorem store_next {M : ℕ} {decoded d : List UInt8}
    (hlen : decoded.length = frameHeaderSize + d.length) (hdrop : decoded.drop frameHeaderSize = d)
    (hnext : datas.length < c.toNat) (hsize : (datas ++ [d]).flatten.length ≤ M) :
    (holding M m c datas).store decoded (UInt16.ofNat datas.length) =
      if datas.length + 1 < c.toNat then (none, holding M m c (datas ++ [d]))
      else if (datas ++ [d]).flatten.length < messageHeaderSize then (none, { maxMessageSize := M })
      else (some ⟨readUInt16 (datas ++ [d]).flatten 0,
        (datas ++ [d]).flatten.drop messageHeaderSize⟩, { maxMessageSize := M }) := by
  have hc := c.toNat_lt
  have hflat : datas.flatten ++ d = (datas ++ [d]).flatten := by simp
  have hindex : UInt16.ofNat datas.length + 1 = UInt16.ofNat (datas ++ [d]).length := by
    simp [UInt16.toNat_add]
  have hlt : UInt16.ofNat (datas ++ [d]).length < c ↔ datas.length + 1 < c.toNat := by
    rw [UInt16.lt_iff_toNat_lt]
    simp only [length_append, length_cons, length_nil, UInt16.toNat_ofNat']
    omega
  have hfit : ¬ datas.flatten.length + decoded.length - frameHeaderSize > M := by
    rw [← hflat, length_append] at hsize
    omega
  simp only [store, holding, if_neg hfit, hdrop, hflat, hindex, hlt, reset]

/-- **The next frame.** From the state that holds the frames before it — any state for the
first frame — `Feed` stores the next frame of a message. -/
theorem feed_next {M : ℕ} {m c : UInt16} {datas : List (List UInt8)} {f d : List UInt8}
    {r : Reassembler} (hr : r.maxMessageSize = M ∧ (datas = [] ∨ r = holding M m c datas))
    (hf : parseFrame f = some ⟨m, UInt16.ofNat datas.length, c, d⟩)
    (hnext : datas.length < c.toNat) (hsize : (datas ++ [d]).flatten.length ≤ M) :
    r.feed f =
      if datas.length + 1 < c.toNat then (none, holding M m c (datas ++ [d]))
      else if (datas ++ [d]).flatten.length < messageHeaderSize then (none, { maxMessageSize := M })
      else (some ⟨readUInt16 (datas ++ [d]).flatten 0,
        (datas ++ [d]).flatten.drop messageHeaderSize⟩, { maxMessageSize := M }) := by
  have hc := c.toNat_lt
  have hc0 : c ≠ 0 := by
    rintro rfl
    simp at hnext
  obtain ⟨decoded, hlen, hdrop, hfeed⟩ := r.feed_of_parseFrame hf
  rw [hfeed, ← store_next hlen hdrop hnext hsize]
  rcases hr with ⟨hM, rfl | hr⟩
  · -- the first frame resets whatever was there
    simp only [if_neg hc0]
    simp [reset, holding, hM]
  · by_cases hnil : datas = []
    · subst hnil
      simp only [if_neg hc0]
      simp [reset, holding, hM]
    · have hpos := length_pos_iff.mpr hnil
      have hindex : UInt16.ofNat datas.length ≠ 0 := by
        rw [ne_eq, ← UInt16.toNat_inj]
        simp only [UInt16.toNat_ofNat', UInt16.toNat_zero]
        omega
      rw [if_neg hindex, if_neg, hr]
      simp [hr, holding, hc0]

variable {strings : List (List UInt8)}

/-- **A message in progress.** From any state, feeding the first frames of a message, but not
all of them, returns nothing and leaves exactly these frames in the reassembler. -/
theorem feedAll_inOrder (h : InOrder m c strings datas) (hlt : datas.length < c.toNat)
    (hsize : datas.flatten.length ≤ r.maxMessageSize) :
    (r.feedAll strings).1 = List.replicate strings.length none ∧
      (r.feedAll strings).2.maxMessageSize = r.maxMessageSize ∧
      (datas = [] ∨ (r.feedAll strings).2 = holding r.maxMessageSize m c datas) := by
  induction strings using List.reverseRecOn generalizing datas with
  | nil => exact ⟨rfl, rfl, Or.inl (length_eq_zero_iff.mp h.length_eq.symm)⟩
  | append_singleton strings f ih =>
    obtain ⟨datas, d, rfl⟩ := h.exists_snoc
    obtain ⟨hinit, hf⟩ := inOrder_snoc.mp h
    simp only [length_append, length_singleton] at hlt
    have hsize' : datas.flatten.length ≤ r.maxMessageSize := by
      simp only [flatten_append, length_append] at hsize
      omega
    obtain ⟨hout, hstate⟩ := ih hinit (by omega) hsize'
    rw [feedAll_snoc, feed_next hstate hf (by omega) hsize, if_pos hlt, hout]
    exact ⟨by simp [replicate_succ'], rfl, Or.inr rfl⟩

/-- **A complete message.** From any state, feeding all frames of a message that fits returns
nothing before the last frame and the packet with it, and empties the reassembler. -/
theorem feedAll_message (h : InOrder m c strings datas) (hlen : datas.length = c.toNat)
    (hpos : 0 < c.toNat) (hmin : messageHeaderSize ≤ datas.flatten.length)
    (hsize : datas.flatten.length ≤ r.maxMessageSize) :
    r.feedAll strings =
      (List.replicate (strings.length - 1) none ++
        [some ⟨readUInt16 datas.flatten 0, datas.flatten.drop messageHeaderSize⟩],
        { maxMessageSize := r.maxMessageSize }) := by
  rcases eq_nil_or_concat strings with rfl | ⟨strings, f, rfl⟩
  · have := h.length_eq
    simp only [length_nil] at this
    omega
  rw [concat_eq_append] at h ⊢
  obtain ⟨datas, d, rfl⟩ := h.exists_snoc
  obtain ⟨hinit, hf⟩ := inOrder_snoc.mp h
  simp only [length_append, length_singleton] at hlen
  have hsize' : datas.flatten.length ≤ r.maxMessageSize := by
    simp only [flatten_append, length_append] at hsize
    omega
  obtain ⟨hout, hstate⟩ := feedAll_inOrder r hinit (by omega) hsize'
  rw [feedAll_snoc, feed_next hstate hf (by omega) hsize, if_neg (by omega),
    if_neg (by omega), hout]
  simp

end Reassembler

/-! ### The frames of a packet -/

theorem writeUInt16_nil (v : UInt16) :
    writeUInt16 [] v = [UInt8.ofNat (v.toNat % 256), UInt8.ofNat (v.toNat / 256)] := by
  have hlo : (v &&& 0xFF).toUInt8 = UInt8.ofNat (v.toNat % 256) := by
    rw [← UInt8.toNat_inj]
    simpa using Nat.and_two_pow_sub_one_eq_mod (v.toNat % 256) 8
  have hhi : (v >>> 8).toUInt8 = UInt8.ofNat (v.toNat / 256) := by
    rw [← UInt8.toNat_inj]
    simp [Nat.shiftRight_eq_div_pow]
  simp [writeUInt16, hlo, hhi]

/-- A word is read back where it was written. -/
theorem readUInt16_writeUInt16 (a b : List UInt8) (v : UInt16) :
    readUInt16 (a ++ (writeUInt16 [] v ++ b)) a.length = v := by
  have hv := v.toNat_lt
  have hlo : v.toNat % 256 < 2 ^ 8 := Nat.mod_lt _ (by decide)
  have hword : v.toNat % 256 ||| (v.toNat / 256) <<< 8 = v.toNat := by
    rw [Nat.or_comm, ← Nat.shiftLeft_add_eq_or_of_lt hlo, Nat.shiftLeft_eq]
    omega
  rw [writeUInt16_nil, readUInt16]
  simp only [getD_eq_getElem?_getD, cons_append]
  rw [List.getElem?_append_right (le_refl _), List.getElem?_append_right (by omega)]
  simp only [Nat.sub_self, List.getElem?_cons_zero, Option.getD_some, UInt8.toNat_ofNat',
    Nat.add_sub_cancel_left,
    List.getElem?_cons_succ, Nat.mod_mod, Nat.mod_eq_of_lt (show v.toNat / 256 < 2 ^ 8 by omega)]
  rw [hword, UInt16.ofNat_toNat]

/-- The data of the frame number `index`. -/
def chunk (packet : IscPacket) (index : ℕ) : List UInt8 :=
  ((message packet).drop (index * maxFrameData)).take maxFrameData

variable (messageId : UInt16)

section

variable (packet : IscPacket) (index : ℕ)

theorem frameBytes_eq :
    frameBytes messageId packet index =
      writeUInt16 [] messageId ++ (writeUInt16 [] (UInt16.ofNat index) ++
        (writeUInt16 [] (UInt16.ofNat (frameCount packet)) ++ chunk packet index)) := by
  simp only [frameBytes, writeUInt16, chunk, nil_append, append_assoc]
  rw [← length_drop, ← take_take, take_length]

/-- A frame fits in an addon message, in whole groups of four characters. -/
theorem length_encode_frameBytes :
    (base64.encode (frameBytes messageId packet index)).length ≤ maxFrameLength ∧
      (base64.encode (frameBytes messageId packet index)).length % 4 = 0 := by
  have hdata : (frameBytes messageId packet index).length ≤ 186 := by
    have : (chunk packet index).length ≤ 180 := length_take_le _ _
    rw [frameBytes_eq]
    simp only [length_append, writeUInt16_nil, length_cons, length_nil]
    omega
  have hmax : maxFrameLength = 248 := by decide
  rw [length_encode_base64, hmax]
  simp only [encodedSize, padTo, show base64.bitsPerChar = 6 from rfl,
    show Nat.lcm 8 6 = 24 by decide]
  split_ifs <;> omega

theorem parseFrame_encode_frameBytes :
    parseFrame (base64.encode (frameBytes messageId packet index)) =
      some ⟨messageId, UInt16.ofNat index, UInt16.ofNat (frameCount packet),
        chunk packet index⟩ := by
  obtain ⟨hlen, -⟩ := length_encode_frameBytes messageId packet index
  have hbytes := frameBytes_eq messageId packet index
  set bytes := frameBytes messageId packet index
  have hid : readUInt16 bytes 0 = messageId := by
    exact readUInt16_writeUInt16 [] _ messageId
  have hindex : readUInt16 bytes 2 = UInt16.ofNat index := by
    exact readUInt16_writeUInt16 (writeUInt16 [] messageId) _ _
  have hcount : readUInt16 bytes 4 = UInt16.ofNat (frameCount packet) := by
    exact readUInt16_writeUInt16
      (writeUInt16 [] messageId ++ writeUInt16 [] (UInt16.ofNat index)) _ _
  have hdrop : bytes.drop frameHeaderSize = chunk packet index := by
    rw [hbytes]
    simp [writeUInt16_nil, frameHeaderSize]
  have hsize : ¬ bytes.length < frameHeaderSize := by
    rw [hbytes]
    simp [writeUInt16_nil, frameHeaderSize]
  rw [parseFrame, if_neg (Nat.not_lt.mpr hlen), decode_encode]
  simp only [Option.bind_some, if_neg hsize, hid, hindex, hcount, hdrop]

end

/-- Cutting a list into pieces of `k` elements keeps its elements. -/
theorem flatten_pieces {α : Type} (l : List α) (k n : ℕ) :
    ((List.range n).map fun i => (l.drop (i * k)).take k).flatten = l.take (n * k) := by
  induction n with
  | zero => simp
  | succ n ih =>
    rw [range_succ, map_append, flatten_append, ih, Nat.succ_mul, take_add]
    simp

theorem flatten_chunks (packet : IscPacket) :
    ((List.range (frameCount packet)).map (chunk packet)).flatten = message packet := by
  have hcut := flatten_pieces (message packet) maxFrameData (frameCount packet)
  refine hcut.trans (take_of_length_le ?_)
  have hdata : maxFrameData = 180 := by decide
  rw [frameCount, hdata]
  omega

theorem encodeFrames_inOrder (packet : IscPacket) :
    InOrder messageId (UInt16.ofNat (frameCount packet))
      ((List.range (frameCount packet)).map fun index =>
        base64.encode (frameBytes messageId packet index))
      ((List.range (frameCount packet)).map (chunk packet)) := by
  refine ext_getElem (by simp) fun i hi _ => ?_
  simp [parseFrame_encode_frameBytes]

/-- **The frames of a packet round-trip.** From any state of a reassembler that admits the
message, feeding the frames of a packet in order returns nothing before the last frame and the
packet with it, and leaves the reassembler empty; every frame fits in an addon message and
consists of whole groups of four characters. -/
theorem feedAll_encodeFrames (messageId : UInt16) (packet : IscPacket) (r : Reassembler)
    (hcount : frameCount packet ≤ 65535) (hmax : (message packet).length ≤ r.maxMessageSize) :
    ∃ frames, encodeFrames messageId packet = some frames ∧
      r.feedAll frames =
        (List.replicate (frames.length - 1) none ++ [some packet],
          { maxMessageSize := r.maxMessageSize }) ∧
      ∀ f ∈ frames, f.length ≤ maxFrameLength ∧ f.length % 4 = 0 := by
  refine ⟨_, if_pos hcount, ?_, ?_⟩
  · have hlen : (message packet).length = 2 + packet.contents.length := by
      simp only [message, writeUInt16_nil, length_append, length_cons, length_nil]
    have hdata : maxFrameData = 180 := by decide
    have hpos : 0 < frameCount packet := by
      rw [frameCount, hdata]
      omega
    have htoNat : (UInt16.ofNat (frameCount packet)).toNat = frameCount packet := by
      rw [UInt16.toNat_ofNat']
      omega
    have hflat := flatten_chunks packet
    have hpacket : (⟨readUInt16 (message packet) 0,
      (message packet).drop messageHeaderSize⟩ : IscPacket) =
        packet := by
      have hop : readUInt16 (message packet) 0 = packet.opcode :=
        readUInt16_writeUInt16 [] packet.contents packet.opcode
      have hdrop : (message packet).drop messageHeaderSize = packet.contents := by
        simp [message, writeUInt16_nil, messageHeaderSize]
      rw [hop, hdrop]
    have key := Reassembler.feedAll_message r (encodeFrames_inOrder messageId packet)
      (by simp [htoNat])
      (by omega) (by rw [hflat, hlen, messageHeaderSize]; omega) (by rw [hflat]; exact hmax)
    rwa [hflat, hpacket] at key
  · intro f hf
    obtain ⟨index, -, rfl⟩ := mem_map.mp hf
    exact length_encode_frameBytes messageId packet index

/-- A packet without payload, fed to a reassembler with an unfinished message. -/
theorem feedAll_encodeFrames_unfinished :
    frameCount ⟨5, []⟩ ≤ 65535 ∧
      ∃ frames, encodeFrames 42 ⟨5, []⟩ = some frames ∧
        (⟨200, [1, 2, 3], 7, 1, 3⟩ : Reassembler).feedAll frames =
          (List.replicate (frames.length - 1) none ++ [some ⟨5, []⟩], { maxMessageSize := 200 }) ∧
        ∀ f ∈ frames, f.length ≤ maxFrameLength ∧ f.length % 4 = 0 :=
  ⟨by decide, feedAll_encodeFrames 42 ⟨5, []⟩ ⟨200, [1, 2, 3], 7, 1, 3⟩ (by decide) (by decide)⟩

end Isc

end IscServer
