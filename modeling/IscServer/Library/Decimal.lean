import Mathlib

/-!
# Decimal Words and Their Order

A number is printed as a word of decimal digits, possibly filled up with zeros to a minimal width
(`padded`), and read back by `Nat.ofDigitChars 10`. Words of the same length are ordered as the
numbers they denote. When words of different lengths are followed by a separator that is greater
than every digit, the shorter word is compared with the leading digits of the longer one: this is
how the order of file names with a number inside relates to the order of the numbers
(`append_lt_append_iff`).

## Main results

* `value_padded`, `length_padded`, `padded_isWord` — printing with a minimal width.
* `lt_iff_value_lt` — words of the same length are ordered by value.
* `value_take` — the leading digits of a word.
* `append_lt_append_iff` — the order of words followed by a separator.
-/

namespace Decimal

open List

/-- Every character is a decimal digit. -/
def IsWord (word : List Char) : Prop := ∀ c ∈ word, c.isDigit = true

/-- Words can be told from other texts. -/
instance (word : List Char) : Decidable (IsWord word) :=
  decidable_of_iff (word.all Char.isDigit = true) all_eq_true

/-- The number a word denotes. -/
def value (word : List Char) : ℕ := Nat.ofDigitChars 10 word 0

/-- The number, printed with at least `width` digits. -/
def padded (width n : ℕ) : List Char :=
  List.replicate (width - (Nat.toDigits 10 n).length) '0' ++ Nat.toDigits 10 n

variable {word left right : List Char} {c sep : Char} {n : ℕ}

/-! ### Words and values -/

theorem isWord_cons : IsWord (c :: word) ↔ c.isDigit = true ∧ IsWord word := forall_mem_cons

theorem isWord_append : IsWord (left ++ right) ↔ IsWord left ∧ IsWord right :=
  forall_mem_append

/-- A digit is one of ten. -/
theorem toNat_of_isDigit (h : c.isDigit = true) : 48 ≤ c.toNat ∧ c.toNat ≤ 57 := by
  simp only [Char.isDigit, Bool.and_eq_true, decide_eq_true_eq] at h
  exact ⟨h.1, h.2⟩

@[simp] theorem value_nil : value [] = 0 := rfl

/-- The first digit counts for the power of its place. -/
theorem value_cons : value (c :: word) = 10 ^ word.length * (c.toNat - 48) + value word := by
  rw [value, Nat.ofDigitChars_cons, Nat.ofDigitChars_eq_ofDigitChars_zero]
  simp [value]

/-- The left part counts for the power of the places of the right part. -/
theorem value_append : value (left ++ right) = 10 ^ right.length * value left + value right := by
  rw [value, Nat.ofDigitChars_append, Nat.ofDigitChars_eq_ofDigitChars_zero]
  rfl

/-- A word denotes a number below the power of its length. -/
theorem value_lt (h : IsWord word) : value word < 10 ^ word.length := by
  induction word with
  | nil => simp
  | cons c word ih =>
    obtain ⟨hc, hword⟩ := isWord_cons.mp h
    have hdigit := toNat_of_isDigit hc
    have htail := ih hword
    have hfirst : 10 ^ word.length * (c.toNat - 48) ≤ 10 ^ word.length * 9 :=
      Nat.mul_le_mul_left _ (by omega)
    rw [value_cons, length_cons, Nat.pow_succ]
    omega

/-- The leading digits of a word denote the quotient by the power of the places dropped. -/
theorem value_take (h : IsWord word) {k : ℕ} (hk : k ≤ word.length) :
    value (word.take k) = value word / 10 ^ (word.length - k) := by
  have hsplit : value word =
      10 ^ (word.length - k) * value (word.take k) + value (word.drop k) := by
    have happend := @value_append (word.take k) (word.drop k)
    rwa [take_append_drop, length_drop] at happend
  have hrest : value (word.drop k) < 10 ^ (word.length - k) := by
    have hlt := value_lt (fun c hc => h c (mem_of_mem_drop hc) : IsWord (word.drop k))
    rwa [length_drop] at hlt
  rw [hsplit, Nat.mul_add_div (Nat.pow_pos (by decide)), Nat.div_eq_of_lt hrest, Nat.add_zero]

/-! ### Printing -/

/-- What is printed is a word. -/
theorem padded_isWord (width n : ℕ) : IsWord (padded width n) := by
  refine isWord_append.mpr ⟨fun c hc => ?_, fun c hc => ?_⟩
  · rw [eq_of_mem_replicate hc]
    decide
  · exact Nat.isDigit_of_mem_toDigits (by decide) (by decide) hc

/-- What is printed denotes the number. -/
@[simp] theorem value_padded (width n : ℕ) : value (padded width n) = n := by
  rw [value, padded, Nat.ofDigitChars_append, Nat.ofDigitChars_replicate_zero, Nat.mul_zero,
    Nat.ofDigitChars_ten_toDigits]

/-- The width of what is printed. -/
theorem length_padded (width n : ℕ) :
    (padded width n).length = max width (Nat.toDigits 10 n).length := by
  rw [padded, length_append, length_replicate]
  omega

/-! ### The order of words -/

/-- Equally long prefixes decide the order of two lists, unless they are equal. -/
theorem append_lt_iff_of_length_eq {restLeft restRight : List Char}
    (hlength : left.length = right.length) :
    left ++ restLeft < right ++ restRight ↔
      left < right ∨ left = right ∧ restLeft < restRight := by
  induction left generalizing right with
  | nil =>
    obtain rfl : right = [] := eq_nil_of_length_eq_zero hlength.symm
    simp
  | cons c left ih =>
    cases right with
    | nil => exact absurd hlength (Nat.succ_ne_zero _)
    | cons d right =>
      rw [cons_append, cons_append, cons_lt_cons_iff, cons_lt_cons_iff,
        ih (Nat.succ.inj hlength), List.cons.injEq]
      tauto

section

variable (hleft : IsWord left) (hright : IsWord right)
include hleft hright

/-- **Words of the same length are ordered by value.** -/
theorem lt_iff_value_lt (hlength : left.length = right.length) : left < right ↔ value left < value right := by
  induction left generalizing right with
  | nil =>
    obtain rfl : right = [] := eq_nil_of_length_eq_zero hlength.symm
    simp
  | cons c left ih =>
    cases right with
    | nil => exact absurd hlength (Nat.succ_ne_zero _)
    | cons d right =>
      obtain ⟨hc, hleft⟩ := isWord_cons.mp hleft
      obtain ⟨hd, hright⟩ := isWord_cons.mp hright
      have hlength : left.length = right.length := Nat.succ.inj hlength
      have hlt := value_lt hleft
      have hrt := value_lt hright
      rw [hlength] at hlt
      have hplaces : ∀ {x y : Char}, x.isDigit = true → y.isDigit = true → x < y →
          10 ^ right.length * (x.toNat - 48) + 10 ^ right.length ≤
            10 ^ right.length * (y.toNat - 48) := by
        intro x y hx hy hxy
        have hlt : x.toNat < y.toNat := hxy
        have hx := toNat_of_isDigit hx
        rw [← Nat.mul_succ]
        exact Nat.mul_le_mul_left _ (by omega)
      rw [cons_lt_cons_iff, ih hleft hright hlength, value_cons, value_cons, hlength]
      rcases lt_trichotomy c d with hcd | rfl | hcd
      · have hfirst := hplaces hc hd hcd
        exact iff_of_true (Or.inl hcd) (by omega)
      · simp
      · have hfirst := hplaces hd hc hcd
        refine iff_of_false ?_ (by omega)
        rintro (h | ⟨rfl, -⟩)
        · exact lt_asymm h hcd
        · exact lt_irrefl _ hcd

/-- Words of the same length with the same value are equal. -/
theorem eq_iff_value_eq (hlength : left.length = right.length) : left = right ↔ value left = value right := by
  refine ⟨fun h => h ▸ rfl, fun h => ?_⟩
  refine List.le_antisymm ?_ ?_
  · exact fun hlt => h.not_gt ((lt_iff_value_lt hright hleft hlength.symm).mp hlt)
  · exact fun hlt => h.not_lt ((lt_iff_value_lt hleft hright hlength).mp hlt)

/-- **The order of words followed by a separator** that is greater than every digit: the shorter
word is compared with the leading digits of the longer one, and on a tie the longer word is first. -/
theorem append_lt_append_iff (hsep : ∀ c : Char, c.isDigit = true → c < sep) (rest : List Char) :
    left ++ sep :: rest < right ++ sep :: rest ↔
      if left.length ≤ right.length then
        value left < value right / 10 ^ (right.length - left.length)
      else value left / 10 ^ (left.length - right.length) ≤ value right := by
  have hirrefl : ¬ sep :: rest < sep :: rest := List.lt_irrefl _
  split_ifs with hle
  · have hlength : left.length = (right.take left.length).length := by
      rw [List.length_take]
      omega
    have htake : IsWord (right.take left.length) := fun c hc =>
      hright c (List.mem_of_mem_take hc)
    have hdrop : ¬ sep :: rest < right.drop left.length ++ sep :: rest := by
      cases hcase : right.drop left.length with
      | nil => exact hirrefl
      | cons d digits =>
        have hd := hsep d (hright d (List.mem_of_mem_drop (hcase ▸ List.mem_cons_self)))
        rw [List.cons_append, List.cons_lt_cons_iff]
        rintro (hlt | ⟨rfl, -⟩)
        · exact lt_asymm hlt hd
        · exact lt_irrefl _ hd
    rw [← value_take hright hle, ← lt_iff_value_lt hleft htake hlength]
    conv_lhs => rw [← List.take_append_drop left.length right, List.append_assoc]
    rw [append_lt_iff_of_length_eq hlength]
    simp [hdrop]
  · have hlength : (left.take right.length).length = right.length := by
      rw [List.length_take]
      omega
    have htake : IsWord (left.take right.length) := fun c hc =>
      hleft c (List.mem_of_mem_take hc)
    have hdrop : left.drop right.length ++ sep :: rest < sep :: rest := by
      cases hcase : left.drop right.length with
      | nil =>
        have := congrArg List.length hcase
        rw [List.length_drop, List.length_nil] at this
        omega
      | cons d digits =>
        have hd := hsep d (hleft d (List.mem_of_mem_drop (hcase ▸ List.mem_cons_self)))
        rw [List.cons_append, List.cons_lt_cons_iff]
        exact Or.inl hd
    rw [← value_take hleft (by omega), le_iff_lt_or_eq, ← lt_iff_value_lt htake hright hlength,
      ← eq_iff_value_eq htake hright hlength]
    conv_lhs => rw [← List.take_append_drop right.length left, List.append_assoc]
    rw [append_lt_iff_of_length_eq hlength]
    simp [hdrop]

end

end Decimal
