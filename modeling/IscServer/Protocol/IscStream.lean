import IscServer.Protocol.IscProtocol

/-!
# ISC Reassembly on Arbitrary Streams

A client can send any strings in any order. This module characterises what `Reassembler.feed`
returns over every finite stream: a packet exactly when the last strings of the stream are the
frames of a complete message that fits.

The direction from the stream to the packet is `feedAll_message`, which starts from any state.
The other direction rests on a run invariant, `Tracks`: the reassembler is empty, or it holds a
proper prefix of a message whose frames are the last strings fed.

## Main results

* `feed_tracks`: one call of `Feed` keeps the invariant, and a packet it returns is carried by
  the last strings.
* `tracks_feedAll`: the invariant holds over every stream.
* `feed_eq_some_iff_isMessage`: **soundness and completeness** of reassembly.
-/

namespace IscServer

open List

namespace Isc

open Reassembler

/-- The strings are the frames, in order, of one complete message that carries the packet and
has between `MESSAGE_HEADER_SIZE` and `maxMessageSize` bytes. -/
def IsMessage (maxMessageSize : ℕ) (strings : List (List UInt8)) (packet : IscPacket) : Prop :=
  ∃ (messageId count : UInt16) (datas : List (List UInt8)),
    InOrder messageId count strings datas ∧ strings.length = count.toNat ∧
    messageHeaderSize ≤ datas.flatten.length ∧ datas.flatten.length ≤ maxMessageSize ∧
    packet = ⟨readUInt16 datas.flatten 0, datas.flatten.drop messageHeaderSize⟩

/-- The last `k` strings of a stream carry the packet. -/
def EndsWithMessage (maxMessageSize : ℕ) (strings : List (List UInt8)) (packet : IscPacket) :
    Prop :=
  ∃ k, 1 ≤ k ∧ k ≤ strings.length ∧
    IsMessage maxMessageSize (strings.drop (strings.length - k)) packet

/-- The stored state is in bounds: the data fits, either no message is in progress or some but
not all of its frames have arrived, and the index of the next frame has a successor. -/
structure StoredInBounds (maxMessageSize : ℕ) (r : Reassembler) : Prop where
  size_le : r.data.length ≤ maxMessageSize
  progress : (r.count = 0 ∧ r.data = []) ∨ (1 ≤ r.nextIndex.toNat ∧ r.nextIndex < r.count)
  no_wrap : (r.nextIndex + 1).toNat = r.nextIndex.toNat + 1

/-- The **run invariant**: the reassembler is empty, or it holds a proper prefix of a message
whose frames are the last strings of the stream. -/
def Tracks (M : ℕ) (strings : List (List UInt8)) (r : Reassembler) : Prop :=
  r = { maxMessageSize := M } ∨
    ∃ (m c : UInt16) (datas earlier tail : List (List UInt8)),
      strings = earlier ++ tail ∧ InOrder m c tail datas ∧ 0 < datas.length ∧
      datas.length < c.toNat ∧ datas.flatten.length ≤ M ∧ r = holding M m c datas

variable {M : ℕ} {r : Reassembler}

section

variable {strings : List (List UInt8)} (h : Tracks M strings r)
include h

theorem Tracks.maxMessageSize_eq : r.maxMessageSize = M := by
  rcases h with rfl | ⟨m, c, datas, -, -, -, -, -, -, -, rfl⟩ <;> rfl

theorem Tracks.reset_eq : r.reset = { maxMessageSize := M } := by
  rw [reset, h.maxMessageSize_eq]

theorem Tracks.storedInBounds : StoredInBounds M r := by
  rcases h with rfl | ⟨m, c, datas, -, -, -, -, hpos, hlt, hsize, rfl⟩
  · exact ⟨Nat.zero_le _, Or.inl ⟨rfl, rfl⟩, rfl⟩
  · have hc := c.toNat_lt
    have hindex : (UInt16.ofNat datas.length).toNat = datas.length := by
      rw [UInt16.toNat_ofNat']
      omega
    refine ⟨hsize, Or.inr ⟨?_, ?_⟩, ?_⟩
    · rw [holding, hindex]
      omega
    · rw [UInt16.lt_iff_toNat_lt, holding, hindex]
      exact hlt
    · rw [holding, UInt16.toNat_add, hindex, UInt16.toNat_one]
      omega

end

/-- A frame whose data does not fit empties the reassembler. -/
theorem store_too_large {r : Reassembler} {decoded : List UInt8} {index : UInt16}
    (h : r.data.length + decoded.length - frameHeaderSize > r.maxMessageSize) :
    r.store decoded index = (none, r.reset) :=
  if_pos h

variable {f : List UInt8}

/-- **The next frame of a message in progress**: it is stored, or it completes a message that
the last strings carry, or it empties the reassembler. -/
theorem feed_next_tracks {earlier tail datas : List (List UInt8)} {m c : UInt16} {d : List UInt8}
    (hM : r.maxMessageSize = M) (hr : datas = [] ∨ r = holding M m c datas)
    (htail : InOrder m c tail datas) (hf : parseFrame f = some ⟨m, UInt16.ofNat datas.length, c, d⟩)
    (hnext : datas.length < c.toNat) (hsize : (datas ++ [d]).flatten.length ≤ M) :
    Tracks M (earlier ++ tail ++ [f]) (r.feed f).2 ∧
      ∀ p, (r.feed f).1 = some p → EndsWithMessage M (earlier ++ tail ++ [f]) p := by
  have horder := inOrder_snoc.mpr ⟨htail, hf⟩
  rw [feed_next ⟨hM, hr⟩ hf hnext hsize]
  split_ifs with hmore hshort
  · refine ⟨Or.inr ⟨m, c, datas ++ [d], earlier, tail ++ [f], by simp, horder, by simp, ?_,
      hsize, rfl⟩, by simp⟩
    simpa using hmore
  · exact ⟨Or.inl rfl, by simp⟩
  · refine ⟨Or.inl rfl, ?_⟩
    rintro p hp
    obtain rfl := Option.some.inj hp
    have hlen := htail.length_eq
    refine ⟨(tail ++ [f]).length, by simp, by simp, m, c, datas ++ [d], ?_, ?_, by omega,
      hsize, rfl⟩
    · rw [show (earlier ++ tail ++ [f]).length - (tail ++ [f]).length = earlier.length by
        simp only [length_append]; omega, append_assoc, drop_left]
      exact horder
    · simp only [length_append, length_drop, length_singleton]
      omega

/-- **One call of `Feed`** keeps the invariant, and a packet it returns is carried by the last
strings of the stream. -/
theorem feed_tracks {strings : List (List UInt8)} (h : Tracks M strings r) (f : List UInt8) :
    Tracks M (strings ++ [f]) (r.feed f).2 ∧
      ∀ p, (r.feed f).1 = some p → EndsWithMessage M (strings ++ [f]) p := by
  have hM := h.maxMessageSize_eq
  have hreset := h.reset_eq
  have hdrop : ∀ {o : Option IscPacket × Reassembler}, o = (none, r.reset) →
      Tracks M (strings ++ [f]) o.2 ∧ ∀ p, o.1 = some p → EndsWithMessage M (strings ++ [f]) p := by
    rintro o rfl
    exact ⟨Or.inl hreset, by simp⟩
  cases hf : parseFrame f with
  | none => exact hdrop (r.feed_of_parseFrame_none hf)
  | some fr =>
    obtain ⟨m, index, c, d⟩ := fr
    obtain ⟨decoded, hlen, -, hfeed⟩ := r.feed_of_parseFrame hf
    simp only at hlen hfeed
    by_cases hindex : index = 0
    · subst hindex
      by_cases hc : c = 0
      · exact hdrop (hfeed.trans (if_pos hc))
      · rw [if_neg hc] at hfeed
        by_cases hfit : d.length ≤ M
        · have hc' : 0 < c.toNat := by
            rw [Nat.pos_iff_ne_zero, ne_eq, ← UInt16.toNat_zero, UInt16.toNat_inj]
            exact hc
          have key : Tracks M (strings ++ [] ++ [f]) (r.feed f).2 ∧
              ∀ p, (r.feed f).1 = some p → EndsWithMessage M (strings ++ [] ++ [f]) p :=
            feed_next_tracks hM (Or.inl rfl) rfl hf hc' (by simpa using hfit)
          rwa [append_nil] at key
        · refine hdrop (hfeed.trans ?_)
          rw [store_too_large]
          · rfl
          · simp only [reset]
            omega
    · split_ifs at hfeed with hbad
      · exact hdrop hfeed
      · simp only [not_or, not_not] at hbad
        obtain ⟨hc, rfl, rfl, rfl⟩ := hbad
        rcases h with rfl | ⟨m, c, datas, earlier, tail, rfl, htail, hpos, hlt, hsize, rfl⟩
        · exact absurd rfl hc
        · by_cases hfit : (datas ++ [d]).flatten.length ≤ M
          · exact feed_next_tracks rfl (Or.inr rfl) htail hf hlt hfit
          · refine hdrop (hfeed.trans (store_too_large ?_))
            simp only [flatten_append, length_append, flatten_cons, flatten_nil, append_nil] at hfit
            simp only [holding]
            omega

/-- The invariant holds over every stream. -/
theorem tracks_feedAll (M : ℕ) (strings : List (List UInt8)) :
    Tracks M strings (feedAll { maxMessageSize := M } strings).2 := by
  induction strings using List.reverseRecOn with
  | nil => exact Or.inl rfl
  | append_singleton strings f ih =>
    rw [feedAll_snoc]
    exact (feed_tracks ih f).1

/-- A stream that ends with a message returns the packet at its last string. -/
theorem feed_of_endsWithMessage {strings : List (List UInt8)} {p : IscPacket}
    (h : EndsWithMessage M (strings ++ [f]) p) :
    ((feedAll { maxMessageSize := M } strings).2.feed f).1 = some p := by
  obtain ⟨k, hk, -, m, c, datas, horder, hcount, hmin, hmax, rfl⟩ := h
  -- the message is a suffix of the earlier strings, followed by `f`
  set n := (strings ++ [f]).length - k with hn
  have hn' : n ≤ strings.length := by
    simp only [hn, length_append, length_singleton]
    omega
  have hdrop : (strings ++ [f]).drop n = strings.drop n ++ [f] := drop_append_of_le_length hn'
  rw [hdrop] at horder hcount
  have hM := (tracks_feedAll M (strings.take n)).maxMessageSize_eq
  have key := Reassembler.feedAll_message
    (feedAll { maxMessageSize := M } (strings.take n)).2 horder
    (horder.length_eq ▸ hcount) (by rw [← hcount]; simp) hmin (by rw [hM]; exact hmax)
  rw [feedAll_snoc] at key
  have hlast := (append_inj' (congrArg Prod.fst key) (by simp)).2
  have hsplit := feedAll_append { maxMessageSize := M } (strings.take n) (strings.drop n)
  rw [take_append_drop] at hsplit
  rw [hsplit]
  simpa using hlast

/-- **Soundness and completeness of reassembly.** Over every finite stream of strings fed to a
fresh reassembler, `Feed` returns a packet at a string exactly when, for some `k ≥ 1`, the last
`k` strings are the frames of a message of `k` frames that carries this packet; and in every
state of the run the stored message is in bounds. -/
theorem feed_eq_some_iff_isMessage (maxMessageSize : ℕ) :
    (∀ (strings : List (List UInt8)) (f : List UInt8) (p : IscPacket),
      ((feedAll { maxMessageSize } strings).2.feed f).1 = some p ↔
        EndsWithMessage maxMessageSize (strings ++ [f]) p) ∧
    ∀ strings : List (List UInt8),
      StoredInBounds maxMessageSize (feedAll { maxMessageSize } strings).2 := by
  refine ⟨fun strings f p => ⟨fun h => ?_, feed_of_endsWithMessage⟩, fun strings => ?_⟩
  · exact (feed_tracks (tracks_feedAll maxMessageSize strings) f).2 p h
  · exact (tracks_feedAll maxMessageSize strings).storedInBounds

end Isc

end IscServer
