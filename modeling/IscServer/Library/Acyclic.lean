import Mathlib.Data.Set.Basic

/-!
# Values That Refer to Each Other Without Cycles

A store keeps values under numbers, and a value may name others by their numbers. As long as the
references have no cycle, a function that works on a value and on its own results for the values
named there is well defined. The rank of a number bounds how deep the references below it go; it is
what the evaluation counts down.

## Main results

* `Acyclic.lookup_eq` — the evaluation meets the recursive equation it is meant to solve.
* `Acyclic.induction` — what holds of a value when it holds of all it names, holds of every value.
-/

/-- A store of values, the numbers a value refers to, and a rank that falls along the references. -/
structure Acyclic (β : Type) (refs : β → Set ℕ) where
  /-- The value kept under a number. -/
  find : ℕ → Option β
  /-- How deep the references below a number may go. -/
  rank : ℕ → ℕ
  descends : ∀ {k b}, find k = some b → ∀ j ∈ refs b, rank j < rank k

namespace Acyclic

variable {β γ : Type} {refs : β → Set ℕ} (s : Acyclic β refs) (step : (ℕ → Option γ) → β → γ)

/-- The result for the value under a number, to a given depth. -/
def unfold : ℕ → ℕ → Option γ
  | 0, _ => none
  | n + 1, k => (s.find k).map (step (unfold n))

/-- The result for the value under a number. -/
def lookup (k : ℕ) : Option γ := s.unfold step (s.rank k + 1) k

/-- The function looks at the results for the numbers its value refers to, and at no others. -/
def Local (refs : β → Set ℕ) (step : (ℕ → Option γ) → β → γ) : Prop :=
  ∀ f g b, (∀ j ∈ refs b, f j = g j) → step f b = step g b

variable {step} (hlocal : Local refs step)

include hlocal

/-- Any depth above the rank gives the same result. -/
theorem unfold_eq_lookup {n k : ℕ} (h : s.rank k < n) : s.unfold step n k = s.lookup step k := by
  induction n using Nat.strong_induction_on generalizing k with
  | _ n ih =>
    obtain ⟨m, rfl⟩ : ∃ m, n = m + 1 := ⟨n - 1, by omega⟩
    rw [lookup, unfold, unfold]
    cases hfind : s.find k with
    | none => rfl
    | some b =>
      refine congrArg some (hlocal _ _ b fun j hj => ?_)
      have hlt := s.descends hfind j hj
      rw [ih m (by omega) (by omega), ih (s.rank k) h hlt]

/-- **The evaluation meets its equation**: the result for a number is the function at the value there,
with the results for the numbers that value refers to. -/
theorem lookup_eq (k : ℕ) : s.lookup step k = (s.find k).map (step (s.lookup step)) := by
  rw [lookup, unfold]
  cases hfind : s.find k with
  | none => rfl
  | some b =>
    exact congrArg some (hlocal _ _ b fun j hj =>
      s.unfold_eq_lookup hlocal (s.descends hfind j hj))

omit hlocal

/-- Induction along the references. -/
theorem induction {P : β → Prop} (h : ∀ b, (∀ j ∈ refs b, ∀ b', s.find j = some b' → P b') → P b)
    (b : β) : P b := by
  have hstored : ∀ n k b', s.rank k < n → s.find k = some b' → P b' := by
    intro n
    induction n with
    | zero => exact fun k b' hlt => absurd hlt (Nat.not_lt_zero _)
    | succ n ih =>
      intro k b' hlt hfind
      refine h b' fun j hj b'' hfind' => ih j b'' ?_ hfind'
      have := s.descends hfind j hj
      omega
  exact h b fun j _ b' hfind => hstored _ j b' (Nat.lt_succ_self _) hfind

end Acyclic
