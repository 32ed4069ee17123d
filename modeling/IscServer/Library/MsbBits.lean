import Mathlib.Data.Nat.Bitwise
import Mathlib.Data.List.Basic
import Mathlib.Tactic.Ring

/-!
# Most-Significant-First Bit Strings

`msb w n` is the list of the lowest `w` bits of `n`, most significant bit first. It is the
common ground on which two packings of one bit stream can be compared: a list of words of
width `a` and a list of words of width `b` carry the same data when their flattened bit
strings agree up to a tail of zeros.

## Main results

* `msb_add`: a word of width `a + b` is its upper `a` bits followed by its lower `b` bits.
* `msb_eq_msb_iff`: two words have the same bits exactly when they agree modulo `2 ^ w`.
* `words_append_inj`: a list of words followed by an incomplete word, read as one bit stream,
  has a unique decomposition.
-/

namespace MsbBits

open List

/-- The lowest `w` bits of `n`, most significant bit first. -/
def msb : ℕ → ℕ → List Bool
  | 0, _ => []
  | w + 1, n => n.testBit w :: msb w n

@[simp] theorem msb_zero (n : ℕ) : msb 0 n = [] := rfl

variable (w : ℕ)

@[simp] theorem length_msb (n : ℕ) : (msb w n).length = w := by
  induction w with
  | zero => rfl
  | succ w ih => simp [msb, ih]

/-- **Splitting a word**: the upper part of a word is its quotient, the lower part the word
itself read at the smaller width. -/
theorem msb_add (a b n : ℕ) : msb (a + b) n = msb a (n / 2 ^ b) ++ msb b n := by
  induction a with
  | zero => simp
  | succ a ih =>
    rw [Nat.succ_add]
    simp only [msb, cons_append, ih, Nat.testBit_div_two_pow]

/-- Two words have the same bits exactly when they agree modulo `2 ^ w`. -/
theorem msb_eq_msb_iff (m n : ℕ) : msb w m = msb w n ↔ m % 2 ^ w = n % 2 ^ w := by
  induction w with
  | zero => simp [Nat.mod_one]
  | succ w ih =>
    simp only [msb, List.cons.injEq, ih]
    constructor
    · rintro ⟨hb, hm⟩
      rw [Nat.mod_pow_succ, Nat.mod_pow_succ, hm]
      have hb' : m / 2 ^ w % 2 = n / 2 ^ w % 2 := by
        rw [Nat.testBit_eq_decide_div_mod_eq, Nat.testBit_eq_decide_div_mod_eq] at hb
        have h1 := Nat.mod_two_eq_zero_or_one (m / 2 ^ w)
        have h2 := Nat.mod_two_eq_zero_or_one (n / 2 ^ w)
        rcases h1 with h1 | h1 <;> rcases h2 with h2 | h2 <;> simp_all
      rw [hb']
    · intro h
      have hlow : m % 2 ^ w = n % 2 ^ w := by
        have := congrArg (· % 2 ^ w) h
        simpa [pow_succ] using this
      refine ⟨?_, hlow⟩
      have hm := Nat.testBit_mod_two_pow m (w + 1) w
      have hn := Nat.testBit_mod_two_pow n (w + 1) w
      simp only [Nat.lt_succ_self, decide_true, Bool.true_and] at hm hn
      rw [← hm, ← hn, h]

/-- A word whose bits are all clear is zero modulo `2 ^ w`. -/
theorem msb_eq_replicate_iff (n : ℕ) : msb w n = List.replicate w false ↔ n % 2 ^ w = 0 := by
  have hz : msb w 0 = List.replicate w false := by
    induction w with
    | zero => rfl
    | succ w ih => simp [msb, ih, replicate_succ]
  rw [← hz, msb_eq_msb_iff, Nat.zero_mod]

/-- The bits of a list of words of width `w`, in order. -/
def words (w : ℕ) (ns : List ℕ) : List Bool :=
  ns.flatMap (msb w)

@[simp] theorem words_nil : words w [] = [] := rfl

@[simp] theorem words_cons (n : ℕ) (ns : List ℕ) : words w (n :: ns) = msb w n ++ words w ns :=
  rfl

@[simp] theorem words_append (ms ns : List ℕ) : words w (ms ++ ns) = words w ms ++ words w ns := by
  simp [words]

@[simp] theorem length_words (ns : List ℕ) : (words w ns).length = w * ns.length := by
  induction ns with
  | nil => simp
  | cons n ns ih => simp [ih, Nat.mul_succ, Nat.add_comm]

/-- **Unique decomposition.** A bit stream that is a list of complete words followed by fewer
than `w` further bits determines both the words and the remainder. -/
theorem words_append_inj {w : ℕ} {ms ns : List ℕ} {s t : List Bool}
    (hm : ∀ m ∈ ms, m < 2 ^ w) (hn : ∀ n ∈ ns, n < 2 ^ w) (hs : s.length < w) (ht : t.length < w)
    (h : words w ms ++ s = words w ns ++ t) : ms = ns ∧ s = t := by
  induction ms generalizing ns with
  | nil =>
    cases ns with
    | nil => exact ⟨rfl, by simpa using h⟩
    | cons n ns =>
      have := congrArg List.length h
      simp only [words_nil, nil_append, words_cons, length_append, length_msb] at this
      omega
  | cons m ms ih =>
    cases ns with
    | nil =>
      have := congrArg List.length h
      simp only [words_nil, nil_append, words_cons, length_append, length_msb] at this
      omega
    | cons n ns =>
      simp only [words_cons, append_assoc] at h
      obtain ⟨hhead, htail⟩ := append_inj h (by simp)
      have hmn : m = n := by
        have := (msb_eq_msb_iff w m n).mp hhead
        rwa [Nat.mod_eq_of_lt (hm m (by simp)), Nat.mod_eq_of_lt (hn n (by simp))] at this
      obtain ⟨hms, hst⟩ :=
        ih (fun k hk => hm k (by simp [hk])) (fun k hk => hn k (by simp [hk]))
        htail
      exact ⟨by rw [hmn, hms], hst⟩

end MsbBits
