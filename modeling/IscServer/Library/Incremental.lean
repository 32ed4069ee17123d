import Mathlib.Data.List.Basic

/-!
# Incremental Parsers

A parser of a stream looks at the input that has arrived and says that it needs more, that it
rejects the stream, or that a first unit of some length is complete. It is **incremental** when
further input cannot change a verdict that has been reached, and a unit is recognized as soon as
it has arrived.

A machine runs such a parser: it keeps the incomplete input, hands every complete unit to a
handler and goes on. Feeding it item by item (`feed`) is the reference; the three
`foldl_feed` lemmas say what a whole block of input does, whichever way the verdict on it goes.
-/

namespace Incremental

open List

variable {σ α : Type}

/-- The verdict of a parser on the input so far. -/
inductive Verdict where
  | more
  | reject
  | accept (n : ℕ)
  deriving DecidableEq, Repr

/-- Verdicts are final, and a unit is accepted as soon as it is complete. -/
structure IsIncremental (parse : List α → Verdict) : Prop where
  nil : parse [] = .more
  stable : ∀ bs cs, parse bs ≠ .more → parse (bs ++ cs) = parse bs
  bounds : ∀ bs n, parse bs = .accept n → 0 < n ∧ n ≤ bs.length
  early : ∀ bs cs n, parse (bs ++ cs) = .accept n → n ≤ bs.length → parse bs ≠ .more

/-- A machine around a parser that may depend on its state. -/
structure Machine (σ α : Type) where
  closed : σ → Bool
  parse : σ → List α → Verdict
  accept : σ → List α → σ
  refuse : σ → σ
  incremental : ∀ s, IsIncremental (parse s)
  closed_refuse : ∀ s, closed (refuse s) = true

namespace Machine

variable (m : Machine σ α)

/-- Take one item; the second component is the incomplete input. A closed machine ignores it. -/
def feed (st : σ × List α) (a : α) : σ × List α :=
  if m.closed st.1 then (st.1, [])
  else
    match m.parse st.1 (st.2 ++ [a]) with
    | .more => (st.1, st.2 ++ [a])
    | .reject => (m.refuse st.1, [])
    | .accept _ => (m.accept st.1 (st.2 ++ [a]), [])

variable {s : σ}

/-- A closed machine ignores its input. -/
theorem foldl_feed_closed (h : m.closed s = true) (bs : List α) :
    bs.foldl m.feed (s, []) = (s, []) := by
  induction bs with
  | nil => rfl
  | cons b bs ih =>
    have hb : m.feed (s, []) b = (s, []) := if_pos h
    rw [foldl_cons, hb, ih]

/-- Before a verdict there was none. -/
theorem parse_prefix_more {p bs : List α} (h : m.parse s (p ++ bs) = .more) :
    m.parse s p = .more := by
  by_contra hne
  exact hne ((m.incremental s).stable p bs hne ▸ h)

section

variable (hopen : m.closed s = false)
include hopen

/-- Input that leaves the unit incomplete. -/
theorem foldl_feed_more (p bs : List α) (h : m.parse s (p ++ bs) = .more) : bs.foldl m.feed (s, p) = (s, p ++ bs) := by
  induction bs generalizing p with
  | nil => rw [append_nil, foldl_nil]
  | cons b bs ih =>
    have happ : p ++ b :: bs = (p ++ [b]) ++ bs := by simp
    rw [happ] at h ⊢
    have hb : m.feed (s, p) b = (s, p ++ [b]) := by
      simp only [feed, hopen, Bool.false_eq_true, if_false, m.parse_prefix_more h]
    rw [foldl_cons, hb, ih (p ++ [b]) h]

/-- Input with a verdict: the items before the one that brings it are collected. -/
theorem foldl_feed_verdict (p bs : List α) (hp : m.parse s p = .more)
    (h : m.parse s (p ++ bs) ≠ .more) :
    ∃ q b rest, p ++ bs = q ++ [b] ++ rest ∧ m.parse s q = .more ∧
      m.parse s (q ++ [b]) = m.parse s (p ++ bs) ∧
      bs.foldl m.feed (s, p) = rest.foldl m.feed (m.feed (s, q) b) := by
  induction bs generalizing p with
  | nil => exact absurd ((append_nil p).symm ▸ hp) h
  | cons b bs ih =>
    have happ : p ++ b :: bs = (p ++ [b]) ++ bs := by simp
    rw [happ] at h ⊢
    by_cases hv : m.parse s (p ++ [b]) = .more
    · have hb : m.feed (s, p) b = (s, p ++ [b]) := by
        simp only [feed, hopen, Bool.false_eq_true, if_false, hv]
      rw [foldl_cons, hb]
      exact ih (p ++ [b]) hv h
    · exact ⟨p, b, bs, rfl, hp, ((m.incremental s).stable _ bs hv).symm, rfl⟩

/-- Input on which the parser gives up. -/
theorem foldl_feed_reject (p bs : List α) (hp : m.parse s p = .more)
    (h : m.parse s (p ++ bs) = .reject) : bs.foldl m.feed (s, p) = (m.refuse s, []) := by
  obtain ⟨q, b, rest, -, -, hv, hfold⟩ :=
    m.foldl_feed_verdict hopen p bs hp (by rw [h]; exact Verdict.noConfusion)
  have hb : m.feed (s, q) b = (m.refuse s, []) := by
    simp only [feed, hopen, Bool.false_eq_true, if_false, hv, h]
  rw [hfold, hb, m.foldl_feed_closed (m.closed_refuse s)]

/-- Input that completes a unit: it is handled, and the rest goes to the machine after it. -/
theorem foldl_feed_accept (p bs : List α) {n : ℕ}
    (hp : m.parse s p = .more) (h : m.parse s (p ++ bs) = .accept n) :
    bs.foldl m.feed (s, p) =
      ((p ++ bs).drop n).foldl m.feed (m.accept s ((p ++ bs).take n), []) := by
  obtain ⟨q, b, rest, happ, hq, hv, hfold⟩ :=
    m.foldl_feed_verdict hopen p bs hp (by rw [h]; exact Verdict.noConfusion)
  rw [h] at hv
  -- the unit ends with this item: without it, the verdict would have come earlier
  have hn : n = (q ++ [b]).length := by
    obtain ⟨-, hle⟩ := (m.incremental s).bounds _ _ hv
    have hnot : ¬ n ≤ q.length := fun hn => (m.incremental s).early q [b] n hv hn hq
    rw [length_append, length_cons, length_nil] at hle ⊢
    omega
  have hb : m.feed (s, q) b = (m.accept s (q ++ [b]), []) := by
    simp only [feed, hopen, Bool.false_eq_true, if_false, hv]
  rw [hfold, hb, happ, hn, drop_left, take_left]

end

end Machine

end Incremental
