import Mathlib.Data.Prod.Lex
import Mathlib.Tactic.Linarith
import IscServer.Combat.CombatWorld

/-!
# The Order of a Threat List

`CompareReferencesLT` compares online states first, then taunt states, then threat, and the weight of
the first reference only counts in the last comparison. That is the lexicographic order of the
triples `sortKey`, with the first triple weighted.

## Main results

* `compareReferencesLT_iff` — the comparison is the order of the triples.
* `weightedKey_mono` — more weight is a higher triple.
-/

namespace IscServer

namespace Combat

namespace ThreatReference

variable {U : Type} {a b : ThreatReference U} {weight weight' : ℚ}

/-- What a reference is compared by, when its threat counts `weight` times. -/
def weightedKey (r : ThreatReference U) (weight : ℚ) : ℕ ×ₗ ℕ ×ₗ ℚ :=
  toLex (r.online.rank, toLex (r.taunted, r.getThreat * weight))

/-- The sort key of a reference. -/
def sortKey (r : ThreatReference U) : ℕ ×ₗ ℕ ×ₗ ℚ := r.weightedKey 1

theorem getThreat_nonneg (r : ThreatReference U) : 0 ≤ r.getThreat := le_max_right _ _

theorem rank_injective : Function.Injective OnlineState.rank := by
  intro x y h
  cases x <;> cases y <;> first | rfl | exact absurd h (by decide)

/-- **The comparison** of two references is that of their triples. -/
theorem compareReferencesLT_iff :
    a.compareReferencesLT b weight = true ↔ a.weightedKey weight < b.sortKey := by
  rw [compareReferencesLT, sortKey, weightedKey, weightedKey, Prod.Lex.toLex_lt_toLex,
    Prod.Lex.toLex_lt_toLex, mul_one]
  by_cases honline : a.online = b.online
  · rw [if_neg (not_not_intro honline), honline]
    by_cases htaunted : a.taunted = b.taunted
    · rw [if_neg (not_not_intro htaunted), htaunted]
      simp
    · rw [if_pos htaunted]
      simp [htaunted]
  · have hrank : a.online.rank ≠ b.online.rank := fun heq => honline (rank_injective heq)
    rw [if_pos honline]
    simp [hrank]

/-- More weight makes a triple no lower. -/
theorem weightedKey_mono (h : weight ≤ weight') (r : ThreatReference U) :
    r.weightedKey weight ≤ r.weightedKey weight' := by
  rw [weightedKey, weightedKey, Prod.Lex.toLex_le_toLex, Prod.Lex.toLex_le_toLex]
  exact Or.inr ⟨rfl, Or.inr ⟨rfl, mul_le_mul_of_nonneg_left h r.getThreat_nonneg⟩⟩

theorem isAvailable_iff {r : ThreatReference U} : r.isAvailable = true ↔ 0 < r.online.rank := by
  cases honline : r.online <;> simp [isAvailable, honline, OnlineState.rank]

/-- A reference above one that is available is available. -/
theorem isAvailable_mono (h : a.sortKey ≤ b.sortKey) (ha : a.isAvailable = true) :
    b.isAvailable = true := by
  rw [isAvailable_iff] at ha ⊢
  rcases Prod.Lex.le_iff.mp h with hlt | ⟨heq, -⟩
  · exact ha.trans hlt
  · have hrank : a.online.rank = b.online.rank := heq
    omega

end ThreatReference

end Combat

end IscServer
