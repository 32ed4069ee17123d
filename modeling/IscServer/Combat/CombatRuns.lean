import Mathlib
import IscServer.Combat.ThreatSteps

/-!
# Runs of the Combat System

What holds between any two operations of the two managers, for every environment and every sequence
of operations, and what an AI sees when it is called.

## Main results

* `refs_symmetric_of_run`: combat references are symmetric and decide the in-combat flag.
* `threat_stored_of_run`: a threat reference is stored in three places, and comes with combat.
* `handOffs_consistent_iff`: the calls into an AI of a run see consistent worlds exactly when the
  loops that erase references before they end the combat hand over to no AI while they do so.
-/

set_option linter.unusedSectionVars false

namespace IscServer

open Option

namespace Combat

variable {U : Type} [DecidableEq U]

namespace Execution

open World

/-! ### Units without references -/

section

variable (canHaveThreatList : U → Bool)

theorem refs_new (pvp : Bool) (a b : U) : (new canHaveThreatList).world.refs pvp a b = none := by
  cases pvp <;> rfl

theorem threatKey_new (id : ℕ) (o v : U) :
    (new canHaveThreatList).world.threatKey id ≠ some (o, v) :=
  (some_ne_none _).symm

theorem combatSound_new : CombatSound (new canHaveThreatList).world where
  refs pvp a b id := by
    rw [refs_new]
    refine iff_of_false (some_ne_none _).symm ?_
    rintro ⟨r, hr, -⟩
    exact absurd hr (some_ne_none _).symm
  distinct _ _ hr := absurd hr (some_ne_none _).symm
  single _ _ _ _ := refs_new _ _ _ _
  combatFresh _ _ := rfl

theorem threatSound_new :
    ThreatSound (new canHaveThreatList).world where
  entries o v id := iff_of_false (some_ne_none _).symm (threatKey_new _ id o v)
  threatenedByMe o v id := iff_of_false (some_ne_none _).symm (threatKey_new _ id o v)
  sorted o id := by
    refine iff_of_false List.not_mem_nil ?_
    rintro ⟨v, hv⟩
    exact threatKey_new _ id o v hv
  nodup _ := List.nodup_nil
  refers o id hr := by
    rcases hr with hr | hr | hr | ⟨v, hr⟩
    · exact absurd hr (some_ne_none _).symm
    · exact absurd hr (some_ne_none _).symm
    · exact absurd hr List.not_mem_nil
    · exact absurd hr (some_ne_none _).symm
  threatFresh _ _ := rfl

theorem sound_new : Sound (new canHaveThreatList).world where
  toCombatSound := combatSound_new canHaveThreatList
  toThreatSound := threatSound_new canHaveThreatList
  linked id o v hk := absurd hk (threatKey_new canHaveThreatList id o v)
  settled _ := rfl
  flags a := by
    refine iff_of_false Bool.false_ne_true ?_
    rintro ⟨pvp, b, id, r, hid, -⟩
    rw [refs_new] at hid
    exact absurd hid (some_ne_none _).symm

end

/-! ### Runs -/

variable (E : Env U)

/-- A sequence of operations, from units without references. -/
def run (canHaveThreatList : U → Bool) (ops : List (Op U)) : Execution U :=
  ops.foldl (step E) (new canHaveThreatList)

/-- **The outcome of a run.** -/
theorem run_outcome (canHaveThreatList : U → Bool) (ops : List (Op U)) :
    Outcome (new canHaveThreatList) (run E canHaveThreatList ops)
      (Run.Along (step E) (StepUndisturbed E) (new canHaveThreatList) ops) :=
  outcome_foldl (fun _ op h => step_outcome E h op) ops (sound_new canHaveThreatList)

/-- **Combat references are symmetric and decide the in-combat flag**, between any two operations.
The entry of a unit for another one is the same reference as the entry of the other one for it, and
the two are its units; there is at most one reference for any two units; and a unit is flagged as in
combat exactly when one of its references is not suppressed for it. -/
theorem refs_symmetric_of_run (canHaveThreatList : U → Bool) (ops : List (Op U)) :
    let w := (run E canHaveThreatList ops).world
    (∀ pvp a b id, w.refs pvp a b = some id → w.refs pvp b a = some id ∧ a ≠ b ∧
      ∃ r, w.combatRefs id = some r ∧ r.isPvP = pvp ∧
        (r.first = a ∧ r.second = b ∨ r.first = b ∧ r.second = a)) ∧
    (∀ pvp a b, w.refs pvp a b ≠ none → w.refs (!pvp) a b = none) ∧
    (∀ a b id id' r r', w.combatRefs id = some r → w.combatRefs id' = some r' → r.Between a b →
      r'.Between a b → id = id') ∧
    ∀ a, w.inCombat a = true ↔
      ∃ pvp b id r, w.refs pvp a b = some id ∧ w.combatRefs id = some r ∧
        r.isSuppressedFor a = false := by
  intro w
  have h : Sound w := (run_outcome E canHaveThreatList ops).sound
  refine ⟨?_, h.single, ?_, h.flags⟩
  · intro pvp a b id hid
    exact ⟨h.toCombatSound.refs_symm hid, h.toCombatSound.ne_of_refs hid,
      (h.refs pvp a b id).mp hid⟩
  · intro a b id id' r r' hr hr' hbetween hbetween'
    exact h.toCombatSound.unique hr hbetween hr' hbetween'

/-- **A threat reference is stored in exactly three places, and threat implies combat**, between any
two operations. -/
theorem threat_stored_of_run (canHaveThreatList : U → Bool) (ops : List (Op U)) :
    let w := (run E canHaveThreatList ops).world
    (∀ id r, w.threatRefs id = some r →
      (w.threat r.owner).myThreatListEntries r.victim = some id ∧
      (w.threat r.owner).sortedThreatList.count id = 1 ∧
      (w.threat r.victim).threatenedByMe r.owner = some id ∧
      ∃ pvp cid c, w.refs pvp r.owner r.victim = some cid ∧ w.combatRefs cid = some c ∧
        c.Between r.owner r.victim) ∧
    (∀ o v id, (w.threat o).myThreatListEntries v = some id →
      ∃ r, w.threatRefs id = some r ∧ r.owner = o ∧ r.victim = v) ∧
    (∀ o id, id ∈ (w.threat o).sortedThreatList → ∃ r, w.threatRefs id = some r ∧ r.owner = o) ∧
    (∀ v o id, (w.threat v).threatenedByMe o = some id →
      ∃ r, w.threatRefs id = some r ∧ r.owner = o ∧ r.victim = v) ∧
    (∀ id id' r r', w.threatRefs id = some r → w.threatRefs id' = some r' → r.owner = r'.owner →
      r.victim = r'.victim → id = id') ∧
    ∀ o id, (w.threat o).currentVictimRef = some id ∨ (w.threat o).fixateRef = some id →
      ∃ v, (w.threat o).myThreatListEntries v = some id := by
  intro w
  have h : Sound w := (run_outcome E canHaveThreatList ops).sound
  have hkey : ∀ {id r}, w.threatRefs id = some r → w.threatKey id = some (r.owner, r.victim) :=
    fun hr => threatKey_eq_some.mpr ⟨_, hr, rfl, rfl⟩
  refine ⟨?_, ?_, ?_, ?_, ?_, ?_⟩
  · intro id r hr
    have hk := hkey hr
    obtain ⟨pvp, cid, hcid⟩ := isInCombatWith_iff.mp (h.linked id _ _ hk)
    obtain ⟨c, hc, -, hbetween⟩ := (h.refs _ _ _ _).mp hcid
    refine ⟨(h.entries _ _ _).mpr hk, ?_, (h.threatenedByMe _ _ _).mpr hk, pvp, cid, c, hcid, hc,
      hbetween⟩
    exact List.count_eq_one_of_mem (h.nodup r.owner) ((h.sorted r.owner id).mpr ⟨r.victim, hk⟩)
  · intro o v id hentry
    exact threatKey_eq_some.mp ((h.entries _ _ _).mp hentry)
  · intro o id hmem
    obtain ⟨v, hk⟩ := (h.sorted o id).mp hmem
    obtain ⟨r, hr, howner, -⟩ := threatKey_eq_some.mp hk
    exact ⟨r, hr, howner⟩
  · intro v o id hentry
    exact threatKey_eq_some.mp ((h.threatenedByMe _ _ _).mp hentry)
  · intro id id' r r' hr hr' howner hvictim
    have hentry := (h.entries _ _ _).mpr (hkey hr)
    rw [howner, hvictim, (h.entries _ _ _).mpr (hkey hr')] at hentry
    exact (Option.some.inj hentry).symm
  · intro o id hpoints
    have hrefers : w.Refers o id := by
      rcases hpoints with hvictim | hfixate
      · exact Or.inl hvictim
      · exact Or.inr (Or.inl hfixate)
    obtain ⟨v, hk⟩ := h.refers o id hrefers
    exact ⟨v, (h.entries _ _ _).mpr hk⟩

/-- **What an AI sees.** The calls of a run see consistent worlds exactly when, in every round of
`Update`, `EndCombatBeyondRange` and `RevalidateCombat` that ends a combat, no `ClearThreat` hands
over to an AI while the reference is erased on one side. -/
theorem handOffs_consistent_iff (canHaveThreatList : U → Bool) (ops : List (Op U)) :
    (∀ x ∈ (run E canHaveThreatList ops).handOffs, Consistent x.2) ↔
      Run.Along (step E) (StepUndisturbed E) (new canHaveThreatList) ops := by
  obtain ⟨calls, hlogs, hiff⟩ := (run_outcome E canHaveThreatList ops).calls
  have hall : (run E canHaveThreatList ops).handOffs = calls := hlogs
  rw [hall]
  exact hiff

/-! ### A hand-off in between -/

local instance : NeZero 3 := ⟨by decide⟩

/-- Three units: a creature `0` with an AI, and two players that it threatens. It cannot see player
`2` at first, and from the ninth tick on nobody can be in combat with player `1`. -/
def threeUnits : Env (Fin 3) where
  units := [0, 1, 2]
  nodup_units := by decide
  mem_units := by decide
  order _ := [0, 1, 2]
  order_perm _ := List.Perm.refl _
  heapOrder _ ids := ids
  heapOrder_perm _ _ := List.Perm.refl _
  depth := 2
  canBeginCombat t a b := t < 9 ∨ a ≠ 1 ∧ b ≠ 1
  isControlledByPlayer _ a := a ≠ 0
  isWithinDistInMap _ _ _ _ := true
  isImmuneToPC _ _ := false
  isImmuneToNPC _ _ := false
  isPlayerControlled _ a := a ≠ 0
  hasAI _ a := a = 0
  shouldBeOffline t _ v := v = 2 ∧ t < 9
  shouldBeSuppressed _ _ _ := false
  hasDetaunt _ _ _ := false
  tauntCasters _ _ := []
  isWithinMeleeRange _ _ _ := true
  isEngaged _ _ := true
  vehicleBase _ _ := none
  isAccessory _ _ := false
  isPrivateObject _ _ := false
  checkPrivateObjectOwnerVisibility _ _ _ := true
  privateObjectOwner _ a := a
  getUnit _ _ _ := true
  calculateModifiedThreat _ amount _ _ := amount
  isControlled _ _ := false
  totalThreatModifier _ _ := 0

/-- The creature threatens both players, and then its combat is validated anew. -/
def revalidating : List (Op (Fin 3)) :=
  [.threat (.addThreat 0 1 10 none false false), .threat (.addThreat 0 2 10 none false false),
    .combat (.revalidateCombat 0)]

/-- **A call with a reference on one side only**: when `RevalidateCombat` ends the combat of the
creature with player `1`, its AI hears of player `2` while player `1` still has the reference. -/
theorem revalidateCombat_not_consistent :
    ¬ ∀ x ∈ (run threeUnits (fun a => a = 0) revalidating).handOffs, Consistent x.2 := by
  have hcall : (run threeUnits (fun a => a = 0) revalidating).handOffs.any
      (fun x => x.1 = .justStartedThreateningMe 0 2 ∧ x.2.refs false 1 0 = some 0 ∧
        x.2.refs false 0 1 = none) = true := by
    decide +kernel
  obtain ⟨x, hx, hone⟩ := List.any_eq_true.mp hcall
  intro hall
  obtain ⟨-, hthere, hgone⟩ := of_decide_eq_true hone
  rw [(hall x hx).symm false 1 0 0 hthere] at hgone
  exact absurd hgone (some_ne_none _)

end Execution

end Combat

end IscServer
