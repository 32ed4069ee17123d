import Mathlib

/-!
# Views of a String

A view is the list of characters that it shows, over any alphabet. Reading a character, cutting a
view and dropping its first characters are **checked**: where a program would read outside the
view, or cut it beyond its end, the result is a `Fault` and not a default. A loop that runs out of
rounds is a fault of its own. A program written over these operations in the monad
`Except Fault` never leaves its view exactly when its result is `ok`.

## Main results

* `find_cases` — a search either misses, or cuts the view at the first occurrence.
* `at_append`, `substr_append`, `removePrefix_append` — the operations on a view given in pieces.
-/

namespace StringView

open List

/-- What can go wrong: an access outside of the view, or a loop without an end in the rounds that
it was given. -/
inductive Fault
  | outside
  | unfinished
  deriving DecidableEq, Repr

/-- The result of a program that accesses views. -/
abbrev Checked (β : Type) := Except Fault β

variable {α : Type} {str a b : List α} {c : α} {i n : ℕ}

/-- The character at a position. -/
def at? (str : List α) (i : ℕ) : Checked α :=
  match str[i]? with
  | none => .error .outside
  | some c => .ok c

/-- At most `n` characters from a position on, which may be the end. -/
def substr (str : List α) (pos n : ℕ) : Checked (List α) :=
  if pos ≤ str.length then .ok ((str.drop pos).take n) else .error .outside

/-- All characters from a position on. -/
def substrFrom (str : List α) (pos : ℕ) : Checked (List α) :=
  if pos ≤ str.length then .ok (str.drop pos) else .error .outside

/-- The view without its first `n` characters. -/
def removePrefix (str : List α) (n : ℕ) : Checked (List α) := substrFrom str n

/-- The difference of two sizes, which are 64-bit words. -/
def sizeSub (a b : ℕ) : ℕ := if b ≤ a then a - b else a + 2 ^ 64 - b

/-- The position of the first `c` from `pos` on. -/
def find [DecidableEq α] (str : List α) (c : α) (pos : ℕ) : Option ℕ :=
  ((str.drop pos).idxOf? c).map (pos + ·)

/-- The position of the first character other than `c` from `pos` on. -/
def findFirstNotOf [DecidableEq α] (str : List α) (c : α) (pos : ℕ) : Option ℕ :=
  ((str.drop pos).findIdx? (· ≠ c)).map (pos + ·)

theorem sizeSub_of_le {m : ℕ} (h : n ≤ m) : sizeSub m n = m - n := if_pos h

/-- A checked step that succeeds. -/
theorem ok_bind {β γ : Type} (x : β) (f : β → Checked γ) : (Except.ok x >>= f) = f x := rfl

/-! ### Views in pieces -/

theorem at_append : at? (a ++ c :: b) a.length = .ok c := by
  rw [at?, List.getElem?_append_right (Nat.le_refl _), Nat.sub_self]
  rfl

theorem at_append_of_eq (hi : i = a.length) : at? (a ++ c :: b) i = .ok c := by
  rw [hi, at_append]

theorem substrFrom_append : substrFrom (a ++ b) a.length = .ok b := by
  rw [substrFrom, if_pos (length_append ▸ Nat.le_add_right _ _), drop_left]

theorem substrFrom_append_of_eq (hi : i = a.length) : substrFrom (a ++ b) i = .ok b := by
  rw [hi, substrFrom_append]

theorem removePrefix_append (hn : n = a.length) : removePrefix (a ++ b) n = .ok b :=
  substrFrom_append_of_eq hn

/-- The beginning of a view can always be cut. -/
theorem substr_zero (str : List α) (n : ℕ) : substr str 0 n = .ok (str.take n) := by
  rw [substr, if_pos (Nat.zero_le _), drop_zero]

/-! ### Searching -/

variable [DecidableEq α]

theorem find_of_not_mem (h : c ∉ str) (pos : ℕ) : find str c pos = none := by
  rw [find, List.idxOf?_eq_none_iff.mpr fun hmem => h (mem_of_mem_drop hmem), Option.map_none]

theorem idxOf?_append_cons (h : c ∉ a) : (a ++ c :: b).idxOf? c = some a.length := by
  induction a with
  | nil => rw [nil_append, List.idxOf?_cons, if_pos (beq_self_eq_true c), length_nil]
  | cons d a ih =>
    have hd : c ≠ d := ne_of_not_mem_cons h
    have ha : c ∉ a := not_mem_of_not_mem_cons h
    rw [cons_append, List.idxOf?_cons, if_neg (by simpa using fun hdc => hd hdc.symm), ih ha,
      Option.map_some, length_cons]

theorem find_append (h : c ∉ a) : find (a ++ c :: b) c 0 = some a.length := by
  rw [find, drop_zero, idxOf?_append_cons h, Option.map_some, Nat.zero_add]

/-- **A search** either misses, or cuts the view at the first occurrence. -/
theorem find_cases (str : List α) (c : α) :
    (c ∉ str ∧ find str c 0 = none) ∨
      ∃ a b, str = a ++ c :: b ∧ c ∉ a ∧ find str c 0 = some a.length := by
  by_cases hmem : c ∈ str
  · obtain ⟨a, b, rfl, hnot⟩ := eq_append_cons_of_mem hmem
    exact Or.inr ⟨a, b, rfl, hnot, find_append hnot⟩
  · exact Or.inl ⟨hmem, find_of_not_mem hmem 0⟩

/-- What is found is in the view. -/
theorem find_lt (h : find str c 0 = some n) : n < str.length := by
  rcases find_cases str c with ⟨-, hnone⟩ | ⟨a, b, rfl, -, hsome⟩
  · rw [hnone] at h
    cases h
  · rw [hsome] at h
    obtain rfl := Option.some.inj h
    simp

/-- A search from a position on is a search in the rest. -/
theorem find_from (str : List α) (c : α) (pos : ℕ) :
    find str c pos = (find (str.drop pos) c 0).map (pos + ·) := by
  rw [find, find, drop_zero, Option.map_map]
  congr 1
  funext i
  exact (congrArg (pos + ·) (Nat.zero_add i)).symm

/-- A search for another character cuts off the leading `c`s. -/
theorem findFirstNotOf_cases (a b : List α) (c : α) :
    (findFirstNotOf (a ++ b) c a.length = none ∧ b.dropWhile (· = c) = []) ∨
      ∃ i, findFirstNotOf (a ++ b) c a.length = some i ∧ (a ++ b).drop i = b.dropWhile (· = c) := by
  have hdrop : b.dropWhile (· = c) = b.drop (b.findIdx (· ≠ c)) := by
    rw [dropWhile_eq_drop_findIdx_not]
    congr 2
    funext d
    exact (decide_not).symm
  rw [findFirstNotOf, drop_left, hdrop]
  cases hfind : b.findIdx? (· ≠ c) with
  | none =>
    rw [List.findIdx?_eq_none_iff_findIdx_eq.mp hfind, drop_length]
    exact Or.inl ⟨rfl, rfl⟩
  | some n =>
    rw [(List.findIdx?_eq_some_iff_findIdx_eq.mp hfind).2]
    refine Or.inr ⟨a.length + n, rfl, ?_⟩
    rw [← drop_drop, drop_left]

end StringView
