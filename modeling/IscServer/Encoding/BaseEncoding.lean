import IscServer.Library.MsbBits
import Mathlib.Data.List.DropRight
import Mathlib.Tactic.Positivity

/-!
# Base Encodings

The template `GenericBaseEncoding` and its two instances `B64Impl` and `B32Impl`
(`common/Encoding/BaseEncoding.h`, `Base64.cpp`, `Base32.cpp`). Strings are C++ strings, so a
character is a byte. The counter `bitsLeft` and the partially filled `currentByte` are natural
numbers: both stay in their 8-bit range (`encodeLoop_spec`, `DecodeInv`), so nothing wraps.

Encoder and decoder walk the same bit stream with different word widths. Both loops are
specified against that stream (`MsbBits.words`), and every property of a pair of them follows
from the unique decomposition of a bit stream into words.

## Main results

* `encodeLoop_spec`: the characters written by `Encode` carry the bits of the input followed by
  fewer than `BITS_PER_CHAR` zeros, and `bitsLeft` counts those zeros.
* `decodeLoop_spec`: the bytes collected by `Decode` carry the bits of the characters read.
* `decode_encode`: decoding undoes encoding.
* `length_encode_base64`: a Base64 string has exactly `EncodedSize` characters.
* `encoded_base64_base32`: the round trip with the form of the string and the assertions.
* `decode_encoding_iff`: when an accepted string is an encoding, up to its padding.
-/

open MsbBits

namespace IscServer

open List

/-- The `Encoding` parameter of `GenericBaseEncoding`: an alphabet of `2 ^ BITS_PER_CHAR`
characters together with a padding character outside of it. -/
structure BaseEncoding where
  bitsPerChar : ℕ
  padding : UInt8
  encodeChar : ℕ → UInt8
  decodeError : ℕ
  decodeChar : UInt8 → ℕ
  bits_pos : 0 < bitsPerChar
  bits_lt : bitsPerChar < 8
  decodeChar_encodeChar : ∀ v < 2 ^ bitsPerChar, decodeChar (encodeChar v) = v
  encodeChar_ne_padding : ∀ v < 2 ^ bitsPerChar, encodeChar v ≠ padding
  decodeChar_lt : ∀ c, decodeChar c ≠ decodeError → decodeChar c < 2 ^ bitsPerChar
  decodeError_ge : 2 ^ bitsPerChar ≤ decodeError

namespace BaseEncoding

/-! ### The two alphabets -/

/-- `B64Impl::Encode`. -/
def b64Encode (v : ℕ) : UInt8 :=
  if v < 26 then UInt8.ofNat (65 + v)
  else if v < 52 then UInt8.ofNat (97 + (v - 26))
  else if v < 62 then UInt8.ofNat (48 + (v - 52))
  else if v = 62 then 43
  else 47

/-- `B64Impl::Decode`. -/
def b64Decode (c : UInt8) : ℕ :=
  if 65 ≤ c ∧ c ≤ 90 then c.toNat - 65
  else if 97 ≤ c ∧ c ≤ 122 then c.toNat - 97 + 26
  else if 48 ≤ c ∧ c ≤ 57 then c.toNat - 48 + 52
  else if c = 43 then 62
  else if c = 47 then 63
  else 0xff

theorem b64Decode_lt (c : UInt8) (hc : b64Decode c ≠ 0xff) : b64Decode c < 2 ^ 6 := by
  revert hc
  simp only [b64Decode, UInt8.le_iff_toNat_le, UInt8.reduceToNat]
  split_ifs <;> omega

/-- `B64Impl`: six bits a character, padded with `=`. -/
def base64 : BaseEncoding where
  bitsPerChar := 6
  padding := 61
  encodeChar := b64Encode
  decodeError := 0xff
  decodeChar := b64Decode
  bits_pos := by decide
  bits_lt := by decide
  decodeChar_encodeChar := by decide
  encodeChar_ne_padding := by decide
  decodeChar_lt := fun c => b64Decode_lt c
  decodeError_ge := by decide

/-- `B32Impl::Encode`. -/
def b32Encode (v : ℕ) : UInt8 :=
  if v < 26 then UInt8.ofNat (65 + v)
  else UInt8.ofNat (50 + (v - 26))

/-- `B32Impl::Decode`: letters in either case, and the look-alikes `0`, `1` and `8` read as
`O`, `l` and `B`. -/
def b32Decode (c : UInt8) : ℕ :=
  let c := if c = 48 then 79 else if c = 49 then 108 else if c = 56 then 66 else c
  if 65 ≤ c ∧ c ≤ 90 then c.toNat - 65
  else if 97 ≤ c ∧ c ≤ 122 then c.toNat - 97
  else if 50 ≤ c ∧ c ≤ 55 then c.toNat - 50 + 26
  else 0xff

theorem b32Decode_lt (c : UInt8) (hc : b32Decode c ≠ 0xff) : b32Decode c < 2 ^ 5 := by
  revert hc
  simp only [b32Decode]
  simp only [UInt8.le_iff_toNat_le, UInt8.reduceToNat]
  split_ifs <;> omega

/-- `B32Impl`: five bits a character, padded with `=`. -/
def base32 : BaseEncoding where
  bitsPerChar := 5
  padding := 61
  encodeChar := b32Encode
  decodeError := 0xff
  decodeChar := b32Decode
  bits_pos := by decide
  bits_lt := by decide
  decodeChar_encodeChar := by decide
  encodeChar_ne_padding := by decide
  decodeChar_lt := fun c => b32Decode_lt c
  decodeError_ge := by decide

variable (E : BaseEncoding)

/-! ### Encoding -/

/-- `PAD_TO`. -/
def padTo : ℕ := Nat.lcm 8 E.bitsPerChar

/-- `EncodedSize`. -/
def encodedSize (size : ℕ) : ℕ :=
  let bits := size * 8
  (if bits % E.padTo ≠ 0 then bits + (E.padTo - bits % E.padTo) else bits) / E.bitsPerChar

/-- The `do` loop of `Encode`: the bytes from the iterator on, the first of them with
`bitsLeft` bits still to be written. Returns the characters appended and the final
`bitsLeft`. -/
def encodeLoop : List UInt8 → ℕ → List UInt8 × ℕ
  | [], bitsLeft => ([], bitsLeft)
  | b :: rest, bitsLeft =>
    if E.bitsPerChar ≤ bitsLeft then
      let left := bitsLeft - E.bitsPerChar
      let thisC := (b.toNat >>> left) &&& (1 <<< E.bitsPerChar - 1)
      let tail := if left = 0 then encodeLoop rest 8 else encodeLoop (b :: rest) left
      (E.encodeChar thisC :: tail.1, tail.2)
    else
      let thisC := (b.toNat &&& (1 <<< bitsLeft - 1)) <<< (E.bitsPerChar - bitsLeft)
      let left := bitsLeft + (8 - E.bitsPerChar)
      match rest with
      | [] => ([E.encodeChar thisC], left)
      | b' :: rest' =>
        let tail := encodeLoop (b' :: rest') left
        (E.encodeChar (thisC ||| (b'.toNat >>> left)) :: tail.1, tail.2)
termination_by bytes bitsLeft => (bytes.length, bitsLeft)
decreasing_by
  · exact Prod.Lex.left _ _ (by simp)
  · exact Prod.Lex.right _ (by have := E.bits_pos; omega)
  · exact Prod.Lex.left _ _ (by simp)

/-- One round of the padding loops of `Encode` and `Decode`. -/
def padStep (bitsLeft : ℕ) : ℕ :=
  if bitsLeft > E.bitsPerChar then bitsLeft - E.bitsPerChar
  else bitsLeft + (8 - E.bitsPerChar)

/-- The padding loop of `Encode`, for at most `fuel` rounds; `bitsLeft` has eight values, so
eight rounds are enough (`length_padLoop_base64`). -/
def padLoop : ℕ → ℕ → List UInt8
  | 0, _ => []
  | fuel + 1, bitsLeft =>
    if bitsLeft ≠ 8 then E.padding :: padLoop fuel (E.padStep bitsLeft) else []

/-- `GenericBaseEncoding::Encode`. -/
def encode (data : List UInt8) : List UInt8 :=
  if data = [] then []
  else
    let r := E.encodeLoop data 8
    r.1 ++ E.padLoop 8 r.2

/-- `Encoding::Encode` with its `ASSERT`. -/
def encodeCharAsserted (v : ℕ) : Option UInt8 :=
  if v < 2 ^ E.bitsPerChar then some (E.encodeChar v) else none

/-- The `do` loop of `Encode`, with the `ASSERT` on each character. -/
def encodeLoopAsserted : List UInt8 → ℕ → Option (List UInt8 × ℕ)
  | [], bitsLeft => some ([], bitsLeft)
  | b :: rest, bitsLeft =>
    if E.bitsPerChar ≤ bitsLeft then do
      let left := bitsLeft - E.bitsPerChar
      let c ← E.encodeCharAsserted ((b.toNat >>> left) &&& (1 <<< E.bitsPerChar - 1))
      let tail ←
        (if left = 0 then encodeLoopAsserted rest 8 else encodeLoopAsserted (b :: rest) left)
      return (c :: tail.1, tail.2)
    else do
      let thisC := (b.toNat &&& (1 <<< bitsLeft - 1)) <<< (E.bitsPerChar - bitsLeft)
      let left := bitsLeft + (8 - E.bitsPerChar)
      match rest with
      | [] => return ([← E.encodeCharAsserted thisC], left)
      | b' :: rest' =>
        let c ← E.encodeCharAsserted (thisC ||| (b'.toNat >>> left))
        let tail ← encodeLoopAsserted (b' :: rest') left
        return (c :: tail.1, tail.2)
termination_by bytes bitsLeft => (bytes.length, bitsLeft)
decreasing_by
  · exact Prod.Lex.left _ _ (by simp)
  · exact Prod.Lex.right _ (by have := E.bits_pos; omega)
  · exact Prod.Lex.left _ _ (by simp)

/-- `GenericBaseEncoding::Encode`, with the `ASSERT` on each character. -/
def encodeAsserted (data : List UInt8) : Option (List UInt8) :=
  if data = [] then some []
  else do
    let r ← E.encodeLoopAsserted data 8
    return r.1 ++ E.padLoop 8 r.2

/-! ### Decoding -/

/-- The state of the main loop of `Decode`. -/
structure DecodeState where
  v : List UInt8
  currentByte : ℕ
  bitsLeft : ℕ

/-- The body of the main loop of `Decode`, on the value of a character. -/
def decodeStep (st : DecodeState) (cur : ℕ) : DecodeState :=
  if st.bitsLeft > E.bitsPerChar then
    let left := st.bitsLeft - E.bitsPerChar
    { st with currentByte := st.currentByte ||| (cur <<< left), bitsLeft := left }
  else
    let excess := E.bitsPerChar - st.bitsLeft
    { v := st.v ++ [UInt8.ofNat (st.currentByte ||| (cur >>> excess))]
      currentByte := (cur &&& (1 <<< excess - 1)) <<< (8 - excess)
      bitsLeft := 8 - excess }

/-- The main loop of `Decode`: stops at the end or at the first padding character and returns
what is left of the string, or `none` on a character outside of the alphabet. -/
def decodeLoop : List UInt8 → DecodeState → Option (List UInt8 × DecodeState)
  | [], st => some ([], st)
  | c :: s, st =>
    if c = E.padding then some (c :: s, st)
    else if E.decodeChar c = E.decodeError then none
    else decodeLoop s (E.decodeStep st (E.decodeChar c))

/-- The padding loop of `Decode`: what is left of the string behind the padding. -/
def skipPadding : List UInt8 → ℕ → List UInt8
  | [], _ => []
  | c :: s, bitsLeft =>
    if c = E.padding ∧ bitsLeft ≠ 8 then skipPadding s (E.padStep bitsLeft) else c :: s

/-- `GenericBaseEncoding::Decode`. -/
def decode (data : List UInt8) : Option (List UInt8) :=
  if data = [] then some []
  else
    match E.decodeLoop data ⟨[], 0, 8⟩ with
    | none => none
    | some (rest, st) =>
      if st.currentByte ≠ 0 then none
      else if E.skipPadding rest st.bitsLeft = [] then some st.v else none

/-! ### The encoder against the bit stream -/

/-- The bytes of a buffer as numbers. -/
def values (bytes : List UInt8) : List ℕ :=
  bytes.map UInt8.toNat

variable (bytes : List UInt8)

theorem values_lt : ∀ n ∈ values bytes, n < 2 ^ 8 := by
  intro n hn
  obtain ⟨b, -, rfl⟩ := mem_map.mp hn
  exact b.toNat_lt

theorem values_injective : Function.Injective values :=
  map_injective_iff.mpr fun _ _ h => UInt8.toNat_inj.mp h

/-- The bits that the encoder still has to write. -/
def remaining : List UInt8 → ℕ → List Bool
  | [], _ => []
  | b :: rest, bitsLeft => msb bitsLeft b.toNat ++ words 8 (values rest)

variable {w : ℕ} (n : ℕ)

/-- A character taken from inside one byte is the next `BITS_PER_CHAR` bits. -/
theorem msb_inner {bitsLeft : ℕ} (hw : w ≤ bitsLeft) :
    msb w ((n >>> (bitsLeft - w)) &&& (1 <<< w - 1)) ++ msb (bitsLeft - w) n = msb bitsLeft n := by
  have hsplit := msb_add w (bitsLeft - w) n
  rw [show w + (bitsLeft - w) = bitsLeft by omega] at hsplit
  rw [hsplit, append_left_inj, msb_eq_msb_iff, Nat.one_shiftLeft,
    Nat.and_two_pow_sub_one_eq_mod, Nat.shiftRight_eq_div_pow, Nat.mod_mod]

/-- A character whose upper bits are the rest of one byte and whose lower bits are the first
bits `m` of the next. -/
theorem msb_straddle {k : ℕ} (m : ℕ) (hk : k ≤ w) (hm : m < 2 ^ (w - k)) :
    msb w (((n &&& (1 <<< k - 1)) <<< (w - k)) ||| m) = msb k n ++ msb (w - k) m := by
  have hsplit := msb_add k (w - k) (((n &&& (1 <<< k - 1)) <<< (w - k)) ||| m)
  rw [show k + (w - k) = w by omega] at hsplit
  rw [hsplit, ← Nat.shiftLeft_add_eq_or_of_lt hm, Nat.shiftLeft_eq, Nat.one_shiftLeft,
    Nat.and_two_pow_sub_one_eq_mod]
  have hpos : 0 < 2 ^ (w - k) := Nat.two_pow_pos _
  congr 1
  · rw [msb_eq_msb_iff, Nat.add_comm, Nat.add_mul_div_right _ _ hpos, Nat.div_eq_of_lt hm,
      Nat.zero_add, Nat.mod_mod]
  · rw [msb_eq_msb_iff, Nat.add_comm, Nat.add_mul_mod_self_right]

theorem and_mask_lt (w : ℕ) : n &&& (1 <<< w - 1) < 2 ^ w := by
  rw [Nat.one_shiftLeft, Nat.and_two_pow_sub_one_eq_mod]
  exact Nat.mod_lt _ (Nat.two_pow_pos w)

theorem shiftRight_lt (b : UInt8) {k left : ℕ} (h : k + left = 8) : b.toNat >>> left < 2 ^ k := by
  rw [Nat.shiftRight_eq_div_pow, Nat.div_lt_iff_lt_mul (by positivity), ← pow_add, h]
  exact b.toNat_lt

theorem straddle_lt {k : ℕ} (m : ℕ) (hk : k ≤ w) (hm : m < 2 ^ (w - k)) :
    ((n &&& (1 <<< k - 1)) <<< (w - k)) ||| m < 2 ^ w := by
  refine Nat.or_lt_two_pow ?_ (lt_of_lt_of_le hm (Nat.pow_le_pow_right (by decide) (by omega)))
  rw [Nat.shiftLeft_eq, show w = k + (w - k) by omega, pow_add,
    show k + (w - k) - k = w - k by omega]
  exact Nat.mul_lt_mul_of_pos_right (and_mask_lt n k) (Nat.two_pow_pos _)

theorem remaining_eight : remaining bytes 8 = words 8 (values bytes) := by
  cases bytes <;> rfl

/-- **The encoder loop.** The characters written carry the remaining bits followed by `z`
zeros, fewer than one character holds, and the final `bitsLeft` is `8 - z`. -/
theorem encodeLoop_spec (bitsLeft : ℕ) (hpos : 0 < bitsLeft) (hle : bitsLeft ≤ 8)
    (hnil : bytes = [] → bitsLeft = 8) :
    ∃ (cs : List ℕ) (z : ℕ), (∀ c ∈ cs, c < 2 ^ E.bitsPerChar) ∧ z < E.bitsPerChar ∧
      E.encodeLoop bytes bitsLeft = (cs.map E.encodeChar, 8 - z) ∧
      words E.bitsPerChar cs = remaining bytes bitsLeft ++ List.replicate z false := by
  have hB := E.bits_lt
  have hB' := E.bits_pos
  induction bytes, bitsLeft using encodeLoop.induct E with
  | case1 bitsLeft =>
    exact ⟨[], 0, by simp, hB', by simp [encodeLoop, hnil rfl], by simp [remaining]⟩
  | case2 b rest bitsLeft h left ihNext ihSame =>
    have hchar := and_mask_lt (b.toNat >>> left) E.bitsPerChar
    have hbits := msb_inner b.toNat h
    rw [encodeLoop, if_pos h]
    -- the byte is finished exactly when the character ends with it
    by_cases hleft : left = 0
    · obtain ⟨cs, z, hcs, hz, heq, hw⟩ := ihNext (by omega) (by omega) (fun _ => rfl)
      refine ⟨_ :: cs, z, forall_mem_cons.mpr ⟨hchar, hcs⟩, hz, ?_, ?_⟩
      · simp only [show bitsLeft - E.bitsPerChar = left from rfl, if_pos hleft, heq, map_cons]
      · rw [words_cons, hw, remaining_eight, ← append_assoc]
        simp only [remaining, ← hbits, show bitsLeft - E.bitsPerChar = left from rfl, hleft,
          msb_zero, append_nil]
    · obtain ⟨cs, z, hcs, hz, heq, hw⟩ := ihSame (by omega) (by omega) (by simp)
      refine ⟨_ :: cs, z, forall_mem_cons.mpr ⟨hchar, hcs⟩, hz, ?_, ?_⟩
      · simp only [show bitsLeft - E.bitsPerChar = left from rfl, if_neg hleft, heq, map_cons]
      · rw [words_cons, hw]
        simp only [remaining, ← hbits, show bitsLeft - E.bitsPerChar = left from rfl, append_assoc]
  | case3 b bitsLeft h =>
    have hchar := straddle_lt b.toNat 0 (show bitsLeft ≤ E.bitsPerChar by omega) (by positivity)
    have hbits := msb_straddle b.toNat 0 (show bitsLeft ≤ E.bitsPerChar by omega) (by positivity)
    rw [Nat.or_zero] at hchar hbits
    refine ⟨[_], E.bitsPerChar - bitsLeft, by simpa using hchar, by omega, ?_, ?_⟩
    · rw [encodeLoop, if_neg h]
      simp only [map_cons, map_nil, Prod.mk.injEq, true_and]
      omega
    · rw [words_cons, hbits, (msb_eq_replicate_iff _ 0).mpr (Nat.zero_mod _)]
      simp [remaining, values]
  | case4 b bitsLeft h left b' rest' ih =>
    have hnext : b'.toNat >>> left < 2 ^ (E.bitsPerChar - bitsLeft) := shiftRight_lt b' (by omega)
    have hchar := straddle_lt b.toNat _ (show bitsLeft ≤ E.bitsPerChar by omega) hnext
    have hbits := msb_straddle b.toNat _ (show bitsLeft ≤ E.bitsPerChar by omega) hnext
    obtain ⟨cs, z, hcs, hz, heq, hw⟩ := ih (by omega) (by omega) (by simp)
    refine ⟨_ :: cs, z, forall_mem_cons.mpr ⟨hchar, hcs⟩, hz, ?_, ?_⟩
    · rw [encodeLoop, if_neg h]
      simp only [show bitsLeft + (8 - E.bitsPerChar) = left from rfl, heq, map_cons]
    · have hsplit := msb_add (E.bitsPerChar - bitsLeft) left b'.toNat
      rw [show E.bitsPerChar - bitsLeft + left = 8 by omega, ← Nat.shiftRight_eq_div_pow]
        at hsplit
      rw [words_cons, hw, hbits]
      simp only [remaining, values, map_cons, words_cons, hsplit, append_assoc]

/-- **The assertions hold**: the loop with them does what the loop without them does. -/
theorem encodeLoopAsserted_eq (bytes : List UInt8) (bitsLeft : ℕ) (hpos : 0 < bitsLeft)
    (hle : bitsLeft ≤ 8) : E.encodeLoopAsserted bytes bitsLeft = some (E.encodeLoop bytes bitsLeft) := by
  have hB := E.bits_lt
  induction bytes, bitsLeft using encodeLoop.induct E with
  | case1 bitsLeft => rw [encodeLoopAsserted, encodeLoop]
  | case2 b rest bitsLeft h left ihNext ihSame =>
    have hchar := and_mask_lt (b.toNat >>> left) E.bitsPerChar
    have htail : (if left = 0 then E.encodeLoopAsserted rest 8
        else E.encodeLoopAsserted (b :: rest) left) =
        some (if left = 0 then E.encodeLoop rest 8 else E.encodeLoop (b :: rest) left) := by
      split_ifs
      · exact ihNext (by decide) (by decide)
      · exact ihSame (by omega) (by omega)
    rw [encodeLoopAsserted, encodeLoop, if_pos h, if_pos h]
    dsimp only
    rw [htail, encodeCharAsserted, if_pos hchar]
    rfl
  | case3 b bitsLeft h =>
    have hchar := straddle_lt b.toNat 0 (show bitsLeft ≤ E.bitsPerChar by omega) (by positivity)
    rw [Nat.or_zero] at hchar
    rw [encodeLoopAsserted, encodeLoop, if_neg h, if_neg h]
    dsimp only
    rw [encodeCharAsserted, if_pos hchar]
    rfl
  | case4 b bitsLeft h left b' rest' ih =>
    have hnext : b'.toNat >>> left < 2 ^ (E.bitsPerChar - bitsLeft) := shiftRight_lt b' (by omega)
    have hchar := straddle_lt b.toNat _ (show bitsLeft ≤ E.bitsPerChar by omega) hnext
    rw [encodeLoopAsserted, encodeLoop, if_neg h, if_neg h]
    dsimp only
    rw [encodeCharAsserted, if_pos hchar, ih (by omega) (by omega)]
    rfl

/-! ### The decoder against the bit stream -/

/-- The invariant of the decoder loop: `bitsLeft` is between 1 and 8, and the lowest
`bitsLeft` bits of `currentByte` are not set yet. -/
structure DecodeInv (st : DecodeState) : Prop where
  pos : 0 < st.bitsLeft
  le : st.bitsLeft ≤ 8
  aligned : ∃ q < 2 ^ (8 - st.bitsLeft), st.currentByte = q <<< st.bitsLeft

/-- The bits that the decoder has collected. -/
def collected (st : DecodeState) : List Bool :=
  words 8 (values st.v) ++ msb (8 - st.bitsLeft) (st.currentByte >>> st.bitsLeft)

theorem decodeInv_init : DecodeInv ⟨[], 0, 8⟩ :=
  ⟨by simp, le_refl 8, 0, by simp, by simp⟩

/-- Two adjacent bit fields, glued together. -/
theorem msb_glue (a b q c : ℕ) (hc : c < 2 ^ b) :
    msb (a + b) (q <<< b ||| c) = msb a q ++ msb b c := by
  rw [msb_add, ← Nat.shiftLeft_add_eq_or_of_lt hc, Nat.shiftLeft_eq]
  have hpos : 0 < 2 ^ b := Nat.two_pow_pos b
  congr 1
  · rw [Nat.add_comm, Nat.add_mul_div_right _ _ hpos, Nat.div_eq_of_lt hc, Nat.zero_add]
  · rw [msb_eq_msb_iff, Nat.add_comm, Nat.add_mul_mod_self_right]

theorem glue_lt {a b q c : ℕ} (hq : q < 2 ^ a) (hc : c < 2 ^ b) : q <<< b ||| c < 2 ^ (a + b) := by
  refine Nat.or_lt_two_pow ?_ (lt_of_lt_of_le hc (Nat.pow_le_pow_right (by decide) (by omega)))
  rw [Nat.shiftLeft_eq, pow_add]
  exact Nat.mul_lt_mul_of_pos_right hq (Nat.two_pow_pos b)

variable {st : DecodeState}

/-- **One character.** A step of the decoder keeps its invariant and collects exactly the bits
of the character. -/
theorem decodeStep_spec (hst : DecodeInv st) {c : ℕ} (hc : c < 2 ^ E.bitsPerChar) :
    DecodeInv (E.decodeStep st c) ∧
      collected (E.decodeStep st c) = collected st ++ msb E.bitsPerChar c := by
  obtain ⟨hpos, hle, q, hq, hcur⟩ := hst
  have hB := E.bits_lt
  unfold decodeStep collected
  split
  · next h =>
      set left := st.bitsLeft - E.bitsPerChar
      have hcur' : st.currentByte ||| c <<< left = (q <<< E.bitsPerChar ||| c) <<< left := by
        rw [hcur, Nat.shiftLeft_or_distrib, ← Nat.shiftLeft_add,
          show E.bitsPerChar + left = st.bitsLeft by omega]
      have hw : 8 - left = 8 - st.bitsLeft + E.bitsPerChar := by omega
      refine ⟨⟨by simp only []; omega, by simp only []; omega, q <<< E.bitsPerChar ||| c, ?_,
        hcur'⟩, ?_⟩
      · simp only [hw]
        exact glue_lt hq hc
      · simp only [hcur']
        simp only [hcur, Nat.shiftLeft_shiftRight, hw, msb_glue _ _ q c hc, append_assoc]
  · next h =>
      set excess := E.bitsPerChar - st.bitsLeft with hexcess
      have hhi : c >>> excess < 2 ^ st.bitsLeft := by
        rw [Nat.shiftRight_eq_div_pow, Nat.div_lt_iff_lt_mul (by positivity), ← pow_add,
          show st.bitsLeft + excess = E.bitsPerChar by omega]
        exact hc
      have hlo := and_mask_lt c excess
      have hbyte := glue_lt hq hhi
      rw [show 8 - st.bitsLeft + st.bitsLeft = 8 by omega] at hbyte
      refine ⟨⟨by simp only []; omega, by simp only []; omega, c &&& (1 <<< excess - 1), ?_,
        rfl⟩, ?_⟩
      · simpa only [show 8 - (8 - excess) = excess by omega] using hlo
      · have hglue := msb_glue (8 - st.bitsLeft) st.bitsLeft q (c >>> excess) hhi
        rw [show 8 - st.bitsLeft + st.bitsLeft = 8 by omega] at hglue
        have hsplit := msb_inner c (Nat.le_of_not_gt h)
        rw [← hexcess] at hsplit
        have hmask : msb st.bitsLeft (c >>> excess &&& (1 <<< st.bitsLeft - 1)) =
            msb st.bitsLeft (c >>> excess) := by
          rw [msb_eq_msb_iff, Nat.one_shiftLeft, Nat.and_two_pow_sub_one_eq_mod, Nat.mod_mod]
        have hlow : msb excess (c &&& (1 <<< excess - 1)) = msb excess c := by
          rw [msb_eq_msb_iff, Nat.one_shiftLeft, Nat.and_two_pow_sub_one_eq_mod, Nat.mod_mod]
        simp only [values, map_append, map_cons, map_nil, words_append, words_cons,
          words_nil, append_nil, hcur, Nat.shiftLeft_shiftRight, UInt8.toNat_ofNat',
          Nat.mod_eq_of_lt hbyte, hglue, show 8 - (8 - excess) = excess by omega, hlow,
            ← hsplit, hmask,
          append_assoc]

/-- **The decoder loop.** On success the string is a list of alphabet characters followed by
the unread rest, which is empty or starts with padding; the bits collected are those of the
characters. -/
theorem decodeLoop_spec {s : List UInt8} (hst : DecodeInv st) {rest : List UInt8}
    {st' : DecodeState} (h : E.decodeLoop s st = some (rest, st')) :
    ∃ chars : List UInt8, s = chars ++ rest ∧
      (∀ c ∈ chars, c ≠ E.padding ∧ E.decodeChar c ≠ E.decodeError) ∧
      (rest = [] ∨ ∃ t, rest = E.padding :: t) ∧ DecodeInv st' ∧
      collected st' = collected st ++ words E.bitsPerChar (chars.map E.decodeChar) := by
  induction s generalizing st with
  | nil =>
    obtain ⟨rfl, rfl⟩ := h
    exact ⟨[], rfl, by simp, Or.inl rfl, hst, by simp⟩
  | cons c s ih =>
    rw [decodeLoop] at h
    split_ifs at h with hpad herr
    · obtain ⟨rfl, rfl⟩ := h
      exact ⟨[], rfl, by simp, Or.inr ⟨s, by rw [hpad]⟩, hst, by simp⟩
    · obtain ⟨hinv, hbits⟩ := E.decodeStep_spec hst (E.decodeChar_lt c herr)
      obtain ⟨chars, rfl, hchars, hrest, hst', hcol⟩ := ih hinv h
      refine ⟨c :: chars, rfl, ?_, hrest, hst', ?_⟩
      · exact forall_mem_cons.mpr ⟨⟨hpad, herr⟩, hchars⟩
      · rw [hcol, hbits, map_cons, words_cons, append_assoc]

/-- The decoder loop reads every list of alphabet characters. -/
theorem decodeLoop_isSome (cs : List ℕ) (hcs : ∀ c ∈ cs, c < 2 ^ E.bitsPerChar) (rest : List UInt8)
    (hrest : rest = [] ∨ ∃ t, rest = E.padding :: t) (st : DecodeState) :
    ∃ st', E.decodeLoop (cs.map E.encodeChar ++ rest) st = some (rest, st') := by
  induction cs generalizing st with
  | nil =>
    rcases hrest with rfl | ⟨t, rfl⟩
    · exact ⟨st, rfl⟩
    · exact ⟨st, by simp [decodeLoop]⟩
  | cons c cs ih =>
    obtain ⟨hc, hcs⟩ := forall_mem_cons.mp hcs
    have herr : E.decodeChar (E.encodeChar c) ≠ E.decodeError := by
      rw [E.decodeChar_encodeChar c hc]
      have := E.decodeError_ge
      omega
    obtain ⟨st', h⟩ := ih hcs (E.decodeStep st (E.decodeChar (E.encodeChar c)))
    refine ⟨st', ?_⟩
    rw [map_cons, cons_append, decodeLoop, if_neg (E.encodeChar_ne_padding c hc), if_neg herr]
    exact h

/-! ### Round trip -/

variable (fuel bitsLeft : ℕ)

/-- The padding written from some `bitsLeft` is skipped from the same `bitsLeft`. -/
theorem skipPadding_padLoop : E.skipPadding (E.padLoop fuel bitsLeft) bitsLeft = [] := by
  induction fuel generalizing bitsLeft with
  | zero => rfl
  | succ fuel ih =>
    rw [padLoop]
    split_ifs with h
    · rw [skipPadding, if_pos ⟨rfl, h⟩]
      exact ih _
    · rfl

theorem padLoop_eq_replicate : ∃ n, E.padLoop fuel bitsLeft = List.replicate n E.padding := by
  induction fuel generalizing bitsLeft with
  | zero => exact ⟨0, rfl⟩
  | succ fuel ih =>
    rw [padLoop]
    split_ifs
    · obtain ⟨n, hn⟩ := ih (E.padStep bitsLeft)
      exact ⟨n + 1, by rw [hn, replicate_succ]⟩
    · exact ⟨0, rfl⟩

theorem padLoop_eq_nil_or :
    E.padLoop fuel bitsLeft = [] ∨ ∃ t, E.padLoop fuel bitsLeft = E.padding :: t := by
  cases fuel with
  | zero => exact Or.inl rfl
  | succ fuel =>
    rw [padLoop]
    split_ifs
    · exact Or.inr ⟨_, rfl⟩
    · exact Or.inl rfl

theorem map_decodeChar_encodeChar {cs : List ℕ} (hcs : ∀ c ∈ cs, c < 2 ^ E.bitsPerChar) :
    (cs.map E.encodeChar).map E.decodeChar = cs := by
  rw [map_map]
  exact (map_congr_left fun c hc => E.decodeChar_encodeChar c (hcs c hc)).trans (map_id cs)

/-- A decoder state that has collected whole bytes and `z` zeros has exactly these bytes, an
empty `currentByte`, and `8 - z` bits left. -/
theorem eq_of_collected {st : DecodeState} (hst : DecodeInv st) {bytes : List UInt8} {z : ℕ}
    (hz : z < 8) (h : collected st = words 8 (values bytes) ++ List.replicate z false) :
    st.v = bytes ∧ st.currentByte = 0 ∧ st.bitsLeft = 8 - z := by
  obtain ⟨hpos, hle, q, hq, hcur⟩ := hst
  rw [collected, hcur, Nat.shiftLeft_shiftRight] at h
  obtain ⟨hv, hzero⟩ := words_append_inj (values_lt _) (values_lt _) (by rw [length_msb]; omega)
    (by rw [length_replicate]; omega) h
  have hlen : 8 - st.bitsLeft = z := by simpa using congrArg List.length hzero
  rw [← hlen, msb_eq_replicate_iff, Nat.mod_eq_of_lt hq] at hzero
  exact ⟨values_injective hv, by simp [hcur, hzero], by omega⟩

variable (data : List UInt8)

/-- **Round trip.** Decoding undoes encoding. -/
theorem decode_encode : E.decode (E.encode data) = some data := by
  by_cases hdata : data = []
  · simp [encode, decode, hdata]
  obtain ⟨cs, z, hcs, hz, heq, hw⟩ :=
    E.encodeLoop_spec data 8 (by decide) (le_refl 8) (fun h => absurd h hdata)
  rw [remaining_eight] at hw
  have hB := E.bits_lt
  have hne : cs.map E.encodeChar ++ E.padLoop 8 (8 - z) ≠ [] := by
    obtain ⟨b, rest, rfl⟩ := exists_cons_of_ne_nil hdata
    rintro hnil
    have hnil' : cs = [] := by simpa using (append_eq_nil_iff.mp hnil).1
    have := congrArg List.length hw
    simp [hnil', values] at this
    omega
  obtain ⟨st, hloop⟩ := E.decodeLoop_isSome cs hcs _ (E.padLoop_eq_nil_or 8 (8 - z)) ⟨[], 0, 8⟩
  obtain ⟨chars, happ, -, -, hinv, hcol⟩ := E.decodeLoop_spec decodeInv_init hloop
  obtain rfl := append_cancel_right happ
  have hinit : collected ⟨[], 0, 8⟩ = [] := rfl
  rw [E.map_decodeChar_encodeChar hcs, hw, hinit, nil_append] at hcol
  obtain ⟨hv, hcur, hleft⟩ := eq_of_collected hinv (by omega) hcol
  simp only [encode, if_neg hdata, heq, decode, if_neg hne, hloop, hcur, hleft, hv,
    skipPadding_padLoop, ne_eq, not_true_eq_false, if_false, if_true]

/-! ### Length -/

/-- The number of characters that the encoder loop writes: `k` characters of `BITS_PER_CHAR`
bits hold the `8 * size` bits of the input and the `z` zeros behind it. -/
theorem length_encodeLoop (hdata : data ≠ []) :
    ∃ z < E.bitsPerChar, (E.encodeLoop data 8).2 = 8 - z ∧
      E.bitsPerChar * (E.encodeLoop data 8).1.length = 8 * data.length + z := by
  obtain ⟨cs, z, -, hz, heq, hw⟩ :=
    E.encodeLoop_spec data 8 (by decide) (le_refl 8) (fun h => absurd h hdata)
  refine ⟨z, hz, by rw [heq], ?_⟩
  have := congrArg List.length hw
  simpa [remaining_eight, values, heq] using this

/-- Base64 pads with one character for each two zeros. -/
theorem length_padLoop_base64 : ∀ z < 6, z % 2 = 0 → (base64.padLoop 8 (8 - z)).length = z / 2 := by
  decide

/-- A Base64 string has exactly `EncodedSize` characters. -/
theorem length_encode_base64 (data : List UInt8) :
    (base64.encode data).length = base64.encodedSize data.length := by
  by_cases hdata : data = []
  · simp [hdata, encode, encodedSize]
  obtain ⟨z, hz, hleft, hlen⟩ := base64.length_encodeLoop data hdata
  simp only [encode, if_neg hdata, length_append, hleft]
  simp only [encodedSize, padTo, show base64.bitsPerChar = 6 from rfl] at hz hlen ⊢
  rw [length_padLoop_base64 z hz (by omega), show Nat.lcm 8 6 = 24 by decide]
  split_ifs <;> omega

/-- Base32 pads for the zeros up to forty bits. -/
theorem length_padLoop_base32 : ∀ z < 5, (base32.padLoop 8 (8 - z)).length = 3 * z % 8 := by
  decide

/-- A Base32 string has exactly `EncodedSize` characters. -/
theorem length_encode_base32 (data : List UInt8) :
    (base32.encode data).length = base32.encodedSize data.length := by
  by_cases hdata : data = []
  · simp [hdata, encode, encodedSize]
  obtain ⟨z, hz, hleft, hlen⟩ := base32.length_encodeLoop data hdata
  simp only [encode, if_neg hdata, length_append, hleft]
  simp only [encodedSize, padTo, show base32.bitsPerChar = 5 from rfl] at hz hlen ⊢
  rw [length_padLoop_base32 z hz, show Nat.lcm 8 5 = 40 by decide]
  split_ifs <;> omega

/-- What is said of the encoding of some bytes, in groups of `group` characters. -/
structure Encoded (group : ℕ) (data : List UInt8) : Prop where
  asserts : E.encodeAsserted data = some (E.encode data)
  decode : E.decode (E.encode data) = some data
  length : (E.encode data).length = E.encodedSize data.length
  dvd : group ∣ (E.encode data).length
  padding : ∃ chars n, E.encode data = chars ++ List.replicate n E.padding ∧ E.padding ∉ chars

/-- The characters of the encoder and the zeros in the last of them, with the padding behind. -/
theorem encode_eq (data : List UInt8) :
    ∃ cs z n, (∀ c ∈ cs, c < 2 ^ E.bitsPerChar) ∧ z < E.bitsPerChar ∧
      E.encode data = cs.map E.encodeChar ++ List.replicate n E.padding ∧
      words E.bitsPerChar cs = words 8 (values data) ++ List.replicate z false := by
  by_cases hdata : data = []
  · exact ⟨[], 0, 0, by simp, E.bits_pos, by simp [encode, hdata], by simp [hdata, values]⟩
  · obtain ⟨cs, z, hcs, hz, heq, hw⟩ :=
      E.encodeLoop_spec data 8 (by decide) (le_refl 8) (fun h => absurd h hdata)
    obtain ⟨n, hn⟩ := E.padLoop_eq_replicate 8 (8 - z)
    rw [remaining_eight] at hw
    exact ⟨cs, z, n, hcs, hz, by simp only [encode, if_neg hdata, heq, hn], hw⟩

/-- No character of the alphabet is padding. -/
theorem padding_notMem {cs : List ℕ} (hcs : ∀ c ∈ cs, c < 2 ^ E.bitsPerChar) :
    E.padding ∉ cs.map E.encodeChar := by
  intro hmem
  obtain ⟨c, hc, heq⟩ := mem_map.mp hmem
  exact E.encodeChar_ne_padding c (hcs c hc) heq

theorem encoded_of_length {group : ℕ} {data : List UInt8}
    (hlen : (E.encode data).length = E.encodedSize data.length)
    (hdvd : group ∣ E.encodedSize data.length) : Encoded E group data := by
  refine ⟨?_, E.decode_encode data, hlen, hlen ▸ hdvd, ?_⟩
  · rw [encodeAsserted, encode]
    split_ifs
    · rfl
    · rw [E.encodeLoopAsserted_eq data 8 (by decide) le_rfl]
      rfl
  · obtain ⟨cs, _, n, hcs, _, heq, _⟩ := E.encode_eq data
    exact ⟨_, n, heq, E.padding_notMem hcs⟩

/-- **Base64 and Base32 undo their encodings**, which fill their groups, have padding at the end only,
and keep the assertions. -/
theorem encoded_base64_base32 (data : List UInt8) :
    Encoded base64 4 data ∧ Encoded base32 8 data := by
  refine ⟨encoded_of_length _ (length_encode_base64 data) ?_,
    encoded_of_length _ (length_encode_base32 data) ?_⟩
  · rw [encodedSize, padTo, show base64.bitsPerChar = 6 from rfl, show Nat.lcm 8 6 = 24 by decide]
    split_ifs <;> omega
  · rw [encodedSize, padTo, show base32.bitsPerChar = 5 from rfl, show Nat.lcm 8 5 = 40 by decide]
    split_ifs <;> omega

/-! ### Strings that are accepted -/

/-- The string without its trailing padding. -/
def trimPadding (s : List UInt8) : List UInt8 := s.rdropWhile (· == E.padding)

theorem trimPadding_append {chars : List UInt8} (h : E.padding ∉ chars) (n : ℕ) :
    E.trimPadding (chars ++ List.replicate n E.padding) = chars := by
  induction n with
  | zero =>
    rw [replicate_zero, append_nil, trimPadding, rdropWhile_eq_self_iff]
    intro hne hlast
    exact h (eq_of_beq hlast ▸ getLast_mem hne)
  | succ n ih =>
    rw [replicate_succ', ← append_assoc, trimPadding, rdropWhile_concat_pos]
    · exact ih
    · exact beq_self_eq_true _

/-- Only padding is skipped. -/
theorem eq_replicate_of_skipPadding {s : List UInt8} {bitsLeft : ℕ}
    (h : E.skipPadding s bitsLeft = []) : ∃ n, s = List.replicate n E.padding := by
  induction s generalizing bitsLeft with
  | nil => exact ⟨0, rfl⟩
  | cons c s ih =>
    rw [skipPadding] at h
    split_ifs at h with hc
    obtain ⟨n, hn⟩ := ih h
    exact ⟨n + 1, by rw [replicate_succ, ← hn, hc.1]⟩

/-- **An accepted string** without its padding has characters of the alphabet, which carry the bits of
the result and up to seven zeros. -/
theorem decode_eq_some {s v : List UInt8} (h : E.decode s = some v) :
    (∀ c ∈ E.trimPadding s, E.decodeChar c ≠ E.decodeError) ∧ ∃ z < 8,
      words E.bitsPerChar ((E.trimPadding s).map E.decodeChar) =
        words 8 (values v) ++ List.replicate z false := by
  rw [decode] at h
  split_ifs at h with hnil
  · obtain rfl := Option.some.inj h
    subst hnil
    exact ⟨by simp [trimPadding], 0, by decide, by simp [trimPadding, values]⟩
  · split at h
    · exact nomatch h
    · next rest st hloop =>
      split_ifs at h with hcur hskip
      obtain rfl := Option.some.inj h
      obtain ⟨chars, rfl, hchars, -, hinv, hcol⟩ := E.decodeLoop_spec decodeInv_init hloop
      obtain ⟨n, rfl⟩ := E.eq_replicate_of_skipPadding hskip
      rw [E.trimPadding_append fun hmem => (hchars _ hmem).1 rfl]
      refine ⟨fun c hc => (hchars c hc).2, 8 - st.bitsLeft, by have := hinv.pos; omega, ?_⟩
      have hinit : collected ⟨[], 0, 8⟩ = [] := rfl
      rw [← nil_append (words _ _), ← hinit, ← hcol, collected, not_not.mp hcur,
        Nat.zero_shiftRight, (msb_eq_replicate_iff _ 0).mpr (Nat.zero_mod _)]

/-- Each character of the Base64 alphabet has one spelling. -/
theorem b64Encode_b64Decode (c : UInt8) (hc : b64Decode c ≠ 0xff) : b64Encode (b64Decode c) = c := by
  have hall : ∀ n < 256, b64Decode (UInt8.ofNat n) ≠ 0xff →
      b64Encode (b64Decode (UInt8.ofNat n)) = UInt8.ofNat n := by decide +kernel
  simpa using hall c.toNat c.toNat_lt (by simpa using hc)

/-- Two accepted strings with one result have the same characters, if neither or both end with a
character of their own for the zeros. -/
theorem trimPadding_eq_iff {s t v : List UInt8} (hs : base64.decode s = some v)
    (ht : base64.decode t = some v) :
    base64.trimPadding s = base64.trimPadding t ↔
      ((base64.trimPadding s).length % 4 = 1 ↔ (base64.trimPadding t).length % 4 = 1) := by
  obtain ⟨hsc, z, hz, hsw⟩ := base64.decode_eq_some hs
  obtain ⟨htc, y, hy, htw⟩ := base64.decode_eq_some ht
  have hslen := congrArg List.length hsw
  have htlen := congrArg List.length htw
  simp only [length_words, length_map, length_append, length_replicate,
    show base64.bitsPerChar = 6 from rfl] at hslen htlen
  refine ⟨fun heq => by rw [heq], fun hiff => ?_⟩
  -- the zeros are those of the last group
  have hzy : z = y := by
    have hz' : z = 2 * (3 * ((base64.trimPadding s).length % 4) % 4) := by omega
    omega
  have hback : ∀ {cs : List UInt8}, (∀ c ∈ cs, base64.decodeChar c ≠ base64.decodeError) →
      (cs.map base64.decodeChar).map base64.encodeChar = cs := by
    intro cs hcs
    rw [map_map]
    exact (map_congr_left fun c hc => b64Encode_b64Decode c (hcs c hc)).trans (map_id cs)
  have hlt : ∀ {cs : List UInt8}, (∀ c ∈ cs, base64.decodeChar c ≠ base64.decodeError) →
      ∀ n ∈ cs.map base64.decodeChar, n < 2 ^ base64.bitsPerChar := by
    intro cs hcs n hn
    obtain ⟨c, hc, rfl⟩ := mem_map.mp hn
    exact base64.decodeChar_lt c (hcs c hc)
  have hwords := hsw.trans (hzy ▸ htw.symm)
  rw [← append_nil (words _ _), ← append_nil (words _ (List.map _ (base64.trimPadding t)))]
    at hwords
  have hvalues := (words_append_inj (hlt hsc) (hlt htc) (by decide) (by decide) hwords).1
  rw [← hback hsc, hvalues, hback htc]

/-- No encoding ends with a character of its own for the zeros. -/
theorem length_trimPadding_encode (v : List UInt8) :
    (base64.trimPadding (base64.encode v)).length % 4 ≠ 1 := by
  obtain ⟨cs, z, n, hcs, hz, heq, hw⟩ := base64.encode_eq v
  have hlen := congrArg List.length hw
  simp only [length_words, length_append, length_replicate,
    show base64.bitsPerChar = 6 from rfl] at hlen hz
  rw [heq, base64.trimPadding_append (base64.padding_notMem hcs), length_map]
  omega

/-- **When an accepted string is an encoding**, up to its padding: exactly when it does not end with a
single character of a new group. Two accepted strings with the same result differ in their padding
only, exactly when both or neither of them end so. -/
theorem decode_encoding_iff {s v : List UInt8} (hs : base64.decode s = some v) :
    (base64.trimPadding s = base64.trimPadding (base64.encode v) ↔
      (base64.trimPadding s).length % 4 ≠ 1) ∧
    ∀ t, base64.decode t = some v → (base64.trimPadding s = base64.trimPadding t ↔
      ((base64.trimPadding s).length % 4 = 1 ↔ (base64.trimPadding t).length % 4 = 1)) := by
  refine ⟨?_, fun t ht => trimPadding_eq_iff hs ht⟩
  rw [trimPadding_eq_iff hs (base64.decode_encode v)]
  simp [length_trimPadding_encode v]

/-- The theorem at `QQ==` and `QQ`, which decode to one `A`. -/
theorem decode_encoding_iff_letter :
    base64.trimPadding [81, 81, 61, 61] = base64.trimPadding (base64.encode [65]) ∧
      base64.trimPadding [81, 81, 61, 61] = base64.trimPadding [81, 81] :=
  have hs : base64.decode [81, 81, 61, 61] = some [65] := by decide
  ⟨(decode_encoding_iff hs).1.mpr (by decide),
    ((decode_encoding_iff hs).2 [81, 81] (by decide)).mpr (by decide)⟩

/-- **A dangling character**: `A` decodes to nothing, which is encoded by the empty string. -/
theorem decode_dangling : base64.decode [65] = some [] ∧ base64.decode [] = some [] ∧
    base64.trimPadding [65] ≠ base64.trimPadding (base64.encode []) := by
  decide

end BaseEncoding

end IscServer
