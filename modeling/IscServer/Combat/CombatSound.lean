import IscServer.Combat.ThreatHandOff
import IscServer.Library.Run

/-!
# Sound Worlds

`Sound` collects what holds of a world between two operations: the combat references of any two
units are symmetric, a unit has `UNIT_FLAG_IN_COMBAT` exactly when one of its references is not
suppressed for it, threat references are in their three places, and units with threat are in combat.
A call into an AI sees a `Consistent` world when the references are symmetric and threat comes with
combat.

## Main results

* `Wired.begun`: a new combat reference.
* `Ending.sound_ended`: a combat reference that ends, erased on one side before or not.
* `endCombatRef_spec`: `EndCombat` leads to a sound world; which calls it makes, and what they see.
-/

set_option linter.unusedSectionVars false

namespace IscServer

open List Function

namespace Combat

variable {U : Type} [DecidableEq U] (E : Env U)

namespace World

/-! ### Combat references -/

/-- A reference of a kind between two units, in either order. -/
def Pair (w : World U) (id : ℕ) (pvp : Bool) (a b : U) : Prop :=
  ∃ r, w.combatRefs id = some r ∧ r.isPvP = pvp ∧ r.Between a b

/-- The combat references are symmetric, between distinct units, and at most one for a pair. -/
structure CombatSound (w : World U) : Prop where
  refs : ∀ pvp a b id, w.refs pvp a b = some id ↔ w.Pair id pvp a b
  distinct : ∀ id r, w.combatRefs id = some r → r.first ≠ r.second
  single : ∀ pvp a b, w.refs pvp a b ≠ none → w.refs (!pvp) a b = none
  combatFresh : ∀ id, w.nextRef ≤ id → w.combatRefs id = none

/-- A unit has a reference that is not suppressed for it. -/
def HasCombat (w : World U) (a : U) : Prop :=
  ∃ pvp b id r, w.refs pvp a b = some id ∧ w.combatRefs id = some r ∧ r.isSuppressedFor a = false

/-- The flag of a unit is right. -/
def FlagOf (w : World U) (a : U) : Prop :=
  w.inCombat a = true ↔ w.HasCombat a

/-- All references are in order, and threat comes with combat. -/
structure Wired (w : World U) : Prop extends CombatSound w, ThreatSound w where
  linked : ∀ id o v, w.threatKey id = some (o, v) → w.isInCombatWith o v = true
  settled : Settled w

/-- What holds between two operations. -/
structure Sound (w : World U) : Prop extends Wired w where
  flags : ∀ a, w.FlagOf a

/-- The references of any two units are symmetric, and units with threat have a combat reference on
both sides. -/
structure Consistent (w : World U) : Prop where
  symm : ∀ pvp a b id, w.refs pvp a b = some id → w.refs pvp b a = some id
  linked : ∀ id o v, w.threatKey id = some (o, v) →
    ∃ pvp cid, w.refs pvp o v = some cid ∧ w.refs pvp v o = some cid

variable {r : CombatReference U} {b : U}

variable {a : U}

theorem between_comm : r.Between a b ↔ r.Between b a :=
  or_comm

variable {w : World U} {id : ℕ} {pvp : Bool}

theorem Pair.symm (h : w.Pair id pvp a b) : w.Pair id pvp b a := by
  obtain ⟨r, hr, hpvp, hbetween⟩ := h
  exact ⟨r, hr, hpvp, between_comm.mp hbetween⟩

theorem CombatSound.refs_symm (h : CombatSound w) (hid : w.refs pvp a b = some id) :
    w.refs pvp b a = some id :=
  (h.refs _ _ _ _).mpr ((h.refs _ _ _ _).mp hid).symm

theorem CombatSound.ne_of_refs (h : CombatSound w) {a : U} (hid : w.refs pvp a b = some id) :
    a ≠ b := by
  obtain ⟨r, hr, -, ⟨rfl, rfl⟩ | ⟨rfl, rfl⟩⟩ := (h.refs _ _ _ _).mp hid
  · exact h.distinct id r hr
  · exact (h.distinct id r hr).symm

/-- At most one combat reference for any two units. -/
theorem CombatSound.unique {w : World U} (h : CombatSound w) {a b : U} {id id' : ℕ}
    {r r' : CombatReference U} (hr : w.combatRefs id = some r) (hbetween : r.Between a b)
    (hr' : w.combatRefs id' = some r') (hbetween' : r'.Between a b) : id = id' := by
  have hid := (h.refs r.isPvP a b id).mpr ⟨r, hr, rfl, hbetween⟩
  have hid' := (h.refs r'.isPvP a b id').mpr ⟨r', hr', rfl, hbetween'⟩
  by_cases hpvp : r'.isPvP = r.isPvP
  · rw [hpvp, hid] at hid'
    exact Option.some.inj hid'
  · have hnone := h.single r.isPvP a b (hid ▸ Option.some_ne_none _)
    rw [Bool.eq_not_iff.mpr hpvp, hnone] at hid'
    exact absurd hid' (Option.some_ne_none _).symm

/-- The maps of a world. -/
theorem refs_congr {w w' : World U} (h : w'.combat = w.combat) : w'.refs = w.refs := by
  funext pvp a b
  rw [refs, refs, h]

/-- The combat part of a world decides whether its combat references are sound. -/
theorem CombatSound.congr {w' : World U} (h : CombatSound w) (hrefs : w'.combatRefs = w.combatRefs)
    (hmaps : w'.refs = w.refs) (hnext : w.nextRef ≤ w'.nextRef) : CombatSound w' where
  refs pvp a b id := by
    rw [hmaps, Pair, hrefs]
    exact h.refs pvp a b id
  distinct id r hr := h.distinct id r (hrefs ▸ hr)
  single pvp a b hne := by
    rw [hmaps] at hne ⊢
    exact h.single pvp a b hne
  combatFresh id hid := by
    rw [hrefs]
    exact h.combatFresh id (Nat.le_trans hnext hid)

theorem isInCombatWith_iff : w.isInCombatWith a b = true ↔ ∃ pvp id, w.refs pvp a b = some id := by
  rw [isInCombatWith, Bool.or_eq_true, Option.isSome_iff_exists, Option.isSome_iff_exists]
  constructor
  · rintro (⟨id, hid⟩ | ⟨id, hid⟩)
    · exact ⟨false, id, hid⟩
    · exact ⟨true, id, hid⟩
  · rintro ⟨pvp, id, hid⟩
    cases pvp with
    | false => exact Or.inl ⟨id, hid⟩
    | true => exact Or.inr ⟨id, hid⟩

/-- **A sound world is consistent**, also when some of its threat has been cleared. -/
theorem CombatSound.consistent (h : CombatSound w)
    (hlinked : ∀ id o v, w.threatKey id = some (o, v) → w.isInCombatWith o v = true) :
      Consistent w where
  symm _ _ _ _ hid := h.refs_symm hid
  linked id o v hk := by
    obtain ⟨pvp, cid, hcid⟩ := isInCombatWith_iff.mp (hlinked id o v hk)
    exact ⟨pvp, cid, hcid, h.refs_symm hcid⟩

theorem Wired.consistent {w : World U} (h : Wired w) : Consistent w :=
  h.toCombatSound.consistent h.linked

/-! ### The in-combat flag -/

/-- The flag of a unit depends on its maps and on the references. -/
theorem FlagOf.congr {w w' : World U} {x : U} (h : w.FlagOf x)
    (hmaps : ∀ pvp b, w'.refs pvp x b = w.refs pvp x b) (hrefs : w'.combatRefs = w.combatRefs)
    (hin : w'.inCombat = w.inCombat) : w'.FlagOf x := by
  simp only [FlagOf, HasCombat, hmaps, hrefs, hin]
  exact h

theorem hasCombat_iff (w : World U) (a : U) : w.hasCombat E a = true ↔ w.HasCombat a := by
  have hof : ∀ pvp, w.hasCombatOf E pvp a = true ↔
      ∃ b id r, w.refs pvp a b = some id ∧ w.combatRefs id = some r ∧
        r.isSuppressedFor a = false := by
    intro pvp
    rw [hasCombatOf, any_eq_true]
    constructor
    · rintro ⟨b, -, hany⟩
      obtain ⟨r, hr, hnot⟩ := (Option.any_eq_true _ _).mp hany
      obtain ⟨id, hid, hr⟩ := Option.bind_eq_some_iff.mp hr
      exact ⟨b, id, r, hid, hr, by simpa using hnot⟩
    · rintro ⟨b, id, r, hid, hr, hnot⟩
      refine ⟨b, E.mem_units b, (Option.any_eq_true _ _).mpr ⟨r, ?_, by simp [hnot]⟩⟩
      exact Option.bind_eq_some_iff.mpr ⟨id, hid, hr⟩
  rw [hasCombat, Bool.or_eq_true, hof, hof, HasCombat]
  constructor
  · rintro (h | h)
    · exact ⟨false, h⟩
    · exact ⟨true, h⟩
  · rintro ⟨pvp, h⟩
    cases pvp with
    | false => exact Or.inl h
    | true => exact Or.inr h

/-- The world after `UpdateOwnerCombatState`. -/
def recompute (w : World U) (a : U) : World U :=
  { w with inCombat := Function.update w.inCombat a (w.hasCombat E a) }

theorem updateOwnerCombatState_eq (w : World U) (a : U) :
    (w.updateOwnerCombatState E a).2 = w.recompute E a := by
  rw [updateOwnerCombatState]
  split_ifs with heq
  · rw [recompute, heq, update_eq_self]
  · rfl

theorem flagOf_recompute_self (w : World U) (a : U) : (w.recompute E a).FlagOf a := by
  have hflag : (w.recompute E a).inCombat a = w.hasCombat E a := update_self _ _ _
  rw [FlagOf, hflag, hasCombat_iff]
  exact Iff.rfl

variable {x : U}

theorem FlagOf.recompute (h : w.FlagOf x) (a : U) : (w.recompute E a).FlagOf x := by
  by_cases hx : x = a
  · rw [hx]
    exact flagOf_recompute_self E w a
  · have hflag : (w.recompute E a).inCombat x = w.inCombat x := update_of_ne hx _ _
    rw [FlagOf, hflag]
    exact h

/-- Two units whose combat state is computed anew. -/
theorem flagOf_recompute_both (h : ∀ x, x ≠ a → x ≠ b → w.FlagOf x) (x : U) :
    ((w.recompute E a).recompute E b).FlagOf x := by
  by_cases hb : x = b
  · rw [hb]
    exact flagOf_recompute_self E _ b
  · refine FlagOf.recompute E ?_ b
    by_cases ha : x = a
    · rw [ha]
      exact flagOf_recompute_self E w a
    · exact (h x ha hb).recompute E a

/-! ### Beginning a combat -/

/-- The maps after the entries of both units of a reference have changed. -/
theorem refs_setRef_both (w : World U) (r : CombatReference U) (value : Option ℕ) (pvp : Bool)
    (a b : U) :
    ((w.setRef r.isPvP r.first r.second value).setRef r.isPvP r.second r.first value).refs pvp a b =
      if pvp = r.isPvP ∧ r.Between a b then value else w.refs pvp a b := by
  by_cases hpvp : pvp = r.isPvP
  · by_cases h₁ : a = r.first ∧ b = r.second
    · simp [hpvp, h₁, CombatReference.Between]
    · by_cases h₂ : a = r.second ∧ b = r.first
      · simp [hpvp, h₂, CombatReference.Between]
      · have hnot : ¬ r.Between a b := by
          rintro (⟨rfl, rfl⟩ | ⟨rfl, rfl⟩)
          · exact h₁ ⟨rfl, rfl⟩
          · exact h₂ ⟨rfl, rfl⟩
        simp [h₁, h₂, hnot]
  · simp [hpvp]

/-- The world with a new combat reference. -/
def begun (w : World U) (r : CombatReference U) : World U :=
  (({ w with nextRef := w.nextRef + 1 }.setCombatRef w.nextRef r).putReference r.first r.second
    r.isPvP
    w.nextRef).putReference r.second r.first r.isPvP w.nextRef

theorem refs_begun (w : World U) (r : CombatReference U) (pvp : Bool) (a b : U) :
    (w.begun r).refs pvp a b =
      if pvp = r.isPvP ∧ r.Between a b then some w.nextRef else w.refs pvp a b := by
  rw [begun, putReference, putReference, refs_setRef_both]
  rfl

/-- A new reference between two distinct units that have none. -/
theorem CombatSound.begun (h : CombatSound w) (hne : r.first ≠ r.second)
    (hnone : ∀ pvp a b, r.Between a b → w.refs pvp a b = none) : CombatSound (w.begun r) := by
  have hget : ∀ id, (w.begun r).combatRefs id = if id = w.nextRef then some r else
    w.combatRefs id :=
    fun id => update_apply _ _ _ _
  have hold : ∀ {id r'}, w.combatRefs id = some r' → id ≠ w.nextRef := by
    rintro id r' hr' rfl
    rw [h.combatFresh _ (Nat.le_refl _)] at hr'
    exact absurd hr' (Option.some_ne_none _).symm
  refine ⟨?_, ?_, ?_, ?_⟩
  · intro pvp a b id
    rw [refs_begun, Pair, hget]
    by_cases hc : pvp = r.isPvP ∧ r.Between a b
    · rw [if_pos hc]
      constructor
      · intro hid
        exact ⟨r, if_pos (Option.some.inj hid).symm, hc.1.symm, hc.2⟩
      · rintro ⟨r', hr', hpvp, hbetween⟩
        split_ifs at hr' with hid
        · rw [hid]
        · have hid' := (h.refs pvp a b id).mpr ⟨r', hr', hpvp, hbetween⟩
          rw [hnone pvp a b hc.2] at hid'
          exact absurd hid' (Option.some_ne_none _).symm
    · rw [if_neg hc, h.refs]
      refine exists_congr fun r' => ⟨?_, ?_⟩
      · rintro ⟨hr', hrest⟩
        rw [if_neg (hold hr')]
        exact ⟨hr', hrest⟩
      · rintro ⟨hr', hpvp, hbetween⟩
        split_ifs at hr' with hid
        · obtain rfl := Option.some.inj hr'
          exact absurd ⟨hpvp.symm, hbetween⟩ hc
        · exact ⟨hr', hpvp, hbetween⟩
  · intro id r' hr'
    rw [hget] at hr'
    split_ifs at hr'
    · obtain rfl := Option.some.inj hr'
      exact hne
    · exact h.distinct id r' hr'
  · intro pvp a b hsome
    rw [refs_begun] at hsome ⊢
    by_cases hbetween : r.Between a b
    · have hpvp : pvp = r.isPvP := by
        by_contra hpvp
        rw [if_neg (fun hc => hpvp hc.1)] at hsome
        exact hsome (hnone pvp a b hbetween)
      have hnot : (!pvp) ≠ r.isPvP := by
        rw [← hpvp]
        exact Bool.not_ne_self pvp
      rw [if_neg (fun hc => hnot hc.1)]
      exact hnone _ a b hbetween
    · rw [if_neg (fun hc => hbetween hc.2)] at hsome ⊢
      exact h.single pvp a b hsome
  · intro id hid
    have hid' : w.nextRef + 1 ≤ id := hid
    rw [hget, if_neg (by omega)]
    exact h.combatFresh id (by omega)

/-- References do not get lost. -/
theorem isInCombatWith_begun (h : r.Between a b ∨ w.isInCombatWith a b = true) :
    (w.begun r).isInCombatWith a b = true := by
  rw [isInCombatWith_iff]
  by_cases hbetween : r.Between a b
  · exact ⟨r.isPvP, w.nextRef, by rw [refs_begun, if_pos ⟨rfl, hbetween⟩]⟩
  · obtain ⟨pvp, id, hid⟩ := isInCombatWith_iff.mp (h.resolve_left hbetween)
    exact ⟨pvp, id, by rw [refs_begun, if_neg (fun hc => hbetween hc.2), hid]⟩

theorem Wired.begun (h : Wired w) (hne : r.first ≠ r.second)
    (hnone : ∀ pvp a b, r.Between a b → w.refs pvp a b = none) :
    Wired (w.begun r) where
  toCombatSound := h.toCombatSound.begun hne hnone
  toThreatSound := h.toThreatSound.congr rfl rfl (Nat.le_succ _)
  linked id o v hk := isInCombatWith_begun (Or.inr (h.linked id o v hk))
  settled := h.settled

/-- The flags of other units. -/
theorem flagOf_begun (h : CombatSound w) (hfirst : x ≠ r.first) (hsecond : x ≠ r.second)
    (hflag : w.FlagOf x) : (w.begun r).FlagOf x := by
  have hnot : ∀ b, ¬ r.Between x b := by
    rintro b (⟨rfl, -⟩ | ⟨-, rfl⟩)
    · exact hfirst rfl
    · exact hsecond rfl
  have hiff : (w.begun r).HasCombat x ↔ w.HasCombat x := by
    refine exists_congr fun pvp => exists_congr fun b => exists_congr fun id =>
      exists_congr fun r' => ?_
    rw [refs_begun, if_neg (fun hc => hnot b hc.2)]
    refine and_congr_right fun hid => ?_
    have hget : (w.begun r).combatRefs id = w.combatRefs id := by
      refine update_of_ne ?_ _ _
      rintro rfl
      obtain ⟨r'', hr'', -⟩ := (h.refs _ _ _ _).mp hid
      rw [h.combatFresh _ (Nat.le_refl _)] at hr''
      exact absurd hr'' (Option.some_ne_none _).symm
    rw [hget]
  rw [FlagOf, hiff]
  exact hflag

/-! ### Ending a combat -/

/-- The world without a combat reference. -/
def ended (w : World U) (id : ℕ) (r : CombatReference U) : World U :=
  ((w.purgeReference r.first r.second r.isPvP).purgeReference r.second r.first
    r.isPvP).freeCombatRef id

theorem refs_ended (w : World U) (id : ℕ) (r : CombatReference U) (pvp : Bool) (a b : U) :
    (w.ended id r).refs pvp a b = if pvp = r.isPvP ∧ r.Between a b then none else w.refs pvp a
      b := by
  have hfree : ∀ w : World U, (w.freeCombatRef id).refs = w.refs := fun _ => rfl
  rw [ended, hfree, purgeReference, purgeReference, refs_setRef_both]

/-- Whether a reference has been erased on one side does not matter once it has ended. -/
theorem refs_ended_purge (w : World U) (id : ℕ) (h : r.Between a b) :
    ((w.purgeReference a b r.isPvP).ended id r).refs = (w.ended id r).refs := by
  funext pvp x y
  rw [refs_ended, refs_ended, purgeReference, refs_setRef]
  by_cases hc : pvp = r.isPvP ∧ x = a ∧ y = b
  · obtain ⟨rfl, rfl, rfl⟩ := hc
    simp [h]
  · rw [if_neg hc]

theorem CombatSound.ended (h : CombatSound w) (hr : w.combatRefs id = some r) :
    CombatSound (w.ended id r) := by
  have hrefs : (w.ended id r).combatRefs = Function.update w.combatRefs id none := rfl
  have hsub : ∀ {id' r'}, (w.ended id r).combatRefs id' = some r' → id' ≠ id ∧
    w.combatRefs id' = some r' := by
    intro id' r' hr'
    rw [hrefs, update_apply] at hr'
    split_ifs at hr' with hid
    exact ⟨hid, hr'⟩
  refine ⟨?_, ?_, ?_, ?_⟩
  · intro pvp a b id'
    rw [refs_ended]
    constructor
    · intro hid'
      split_ifs at hid' with hc
      obtain ⟨r', hr', hpvp, hbetween⟩ := (h.refs _ _ _ _).mp hid'
      refine ⟨r', ?_, hpvp, hbetween⟩
      rw [hrefs, update_of_ne]
      · exact hr'
      · rintro rfl
        obtain rfl : r = r' := Option.some.inj (hr.symm.trans hr')
        exact hc ⟨hpvp.symm, hbetween⟩
    · rintro ⟨r', hr', hpvp, hbetween⟩
      obtain ⟨hne, hr'⟩ := hsub hr'
      have hid' : w.refs pvp a b = some id' := (h.refs _ _ _ _).mpr ⟨r', hr', hpvp, hbetween⟩
      rw [if_neg]
      · exact hid'
      · rintro ⟨hpvp', hbetween'⟩
        have hid : w.refs pvp a b = some id := (h.refs _ _ _ _).mpr ⟨r, hr, hpvp'.symm, hbetween'⟩
        exact hne (Option.some.inj (hid'.symm.trans hid))
  · intro id' r' hr'
    exact h.distinct id' r' (hsub hr').2
  · intro pvp a b hne
    rw [refs_ended] at hne ⊢
    split_ifs at hne with hc
    · exact absurd rfl hne
    · split_ifs
      · rfl
      · exact h.single pvp a b hne
  · intro id' hid'
    rw [hrefs, update_apply]
    split_ifs
    · rfl
    · exact h.combatFresh id' hid'

/-- What `EndCombat` needs: all but the reference that ends is in order. -/
structure Ending (w : World U) (id : ℕ) (r : CombatReference U) : Prop extends ThreatSound w where
  ref : w.combatRefs id = some r
  distinct : r.first ≠ r.second
  ended : CombatSound (w.ended id r)
  flags : ∀ x, x ≠ r.first → x ≠ r.second → w.FlagOf x
  linked : ∀ id' o v, w.threatKey id' = some (o, v) → ¬ r.Between o v →
    (w.ended id r).isInCombatWith o v = true
  settled : Settled w

/-- The threat of other units still comes with combat when a reference has ended. -/
theorem Sound.linked_ended (h : Sound w) (id : ℕ) {id' : ℕ} {o v : U}
    (hk : w.threatKey id' = some (o, v)) (hnot : ¬ r.Between o v) :
    (w.ended id r).isInCombatWith o v = true := by
  obtain ⟨pvp, cid, hcid⟩ := isInCombatWith_iff.mp (h.linked id' o v hk)
  refine isInCombatWith_iff.mpr ⟨pvp, cid, ?_⟩
  rw [refs_ended, if_neg (fun hc => hnot hc.2), hcid]

theorem Sound.ending (h : Sound w) (hr : w.combatRefs id = some r) : Ending w id r where
  toThreatSound := h.toThreatSound
  ref := hr
  distinct := h.distinct id r hr
  ended := h.toCombatSound.ended hr
  flags x _ _ := h.flags x
  linked _ _ _ hk hnot := h.linked_ended id hk hnot
  settled := h.settled

/-- The same after the erasing of one side. -/
theorem Sound.ending_purge (h : Sound w) (hr : w.combatRefs id = some r) (hbetween : r.Between a b) :
    Ending (w.purgeReference a b r.isPvP) id r where
  toThreatSound := h.toThreatSound.congr rfl rfl (Nat.le_refl _)
  ref := hr
  distinct := h.distinct id r hr
  ended := (h.toCombatSound.ended hr).congr rfl (w.refs_ended_purge id hbetween) (Nat.le_refl _)
  flags x hfirst hsecond := by
    have hx : x ≠ a := by
      rcases hbetween with ⟨rfl, rfl⟩ | ⟨rfl, rfl⟩
      · exact hfirst
      · exact hsecond
    refine (h.flags x).congr (fun pvp b' => ?_) rfl rfl
    rw [purgeReference, refs_setRef, if_neg (fun hc => hx hc.2.1)]
  linked id' o v hk hnot := by
    have hlinked := h.linked_ended id hk hnot
    rw [isInCombatWith, w.refs_ended_purge id hbetween]
    exact hlinked
  settled := h.settled

/-- Deleting a reference that is in no map changes no combat state. -/
theorem hasCombat_freeCombatRef {w : World U} {id : ℕ} (h : CombatSound (w.freeCombatRef id))
    (x : U) :
    (w.freeCombatRef id).HasCombat x ↔ w.HasCombat x := by
  refine exists_congr fun pvp => exists_congr fun b => exists_congr fun id' =>
    exists_congr fun r => ?_
  refine and_congr_right fun hid' => ?_
  have hne : id' ≠ id := by
    rintro rfl
    obtain ⟨r', hr', -⟩ := (h.refs pvp x b id').mp hid'
    have hnone : (w.freeCombatRef id').combatRefs id' = none := update_self _ _ _
    rw [hnone] at hr'
    exact absurd hr' (Option.some_ne_none _).symm
  have hsame : (w.freeCombatRef id).combatRefs id' = w.combatRefs id' := update_of_ne hne _ _
  rw [hsame]

/-- The flags of the units that do not take part in a combat that ends. -/
theorem Ending.flagOf_purged {w₂ : World U} (h : Ending w id r) (hshrinks : Shrinks w w₂)
    (hfirst : x ≠ r.first) (hsecond : x ≠ r.second) :
    ((w₂.purgeReference r.first r.second r.isPvP).purgeReference r.second r.first r.isPvP).FlagOf
      x := by
  have hnot : ∀ b, ¬ r.Between x b := by
    rintro b (⟨rfl, -⟩ | ⟨-, rfl⟩)
    · exact hfirst rfl
    · exact hsecond rfl
  refine (h.flags x hfirst hsecond).congr (fun pvp b => ?_) hshrinks.combatRefs hshrinks.inCombat
  rw [purgeReference, purgeReference, refs_setRef_both, if_neg (fun hc => hnot b hc.2),
    refs_congr hshrinks.combat]

/-- The world after the purging and the two updates of the combat state, before the reference object
is deleted, is consistent, and the world after it is sound. -/
theorem Ending.sound_ended {w w₂ : World U} {id : ℕ} {r : CombatReference U} (h : Ending w id r)
    (hshrinks : Shrinks w w₂)
    (hcleared : ∀ id' o v, w₂.threatKey id' = some (o, v) → ¬ r.Between o v) :
    let w₃ := (w₂.purgeReference r.first r.second r.isPvP).purgeReference r.second r.first r.isPvP
    let w₅ := (w₃.recompute E r.first).recompute E r.second
    Consistent w₅ ∧ Sound (w₅.freeCombatRef id) := by
  intro w₃ w₅
  have hmaps : w₅.refs = (w.ended id r).refs := by
    have hended : w₅.refs = (w₂.ended id r).refs := rfl
    funext pvp a b
    rw [hended, refs_ended, refs_ended, refs_congr hshrinks.combat]
  have hcombat : CombatSound (w₅.freeCombatRef id) := by
    refine h.ended.congr ?_ hmaps (Nat.le_of_eq hshrinks.nextRef.symm)
    have hfree : (w₅.freeCombatRef id).combatRefs = Function.update w₂.combatRefs id none := rfl
    rw [hfree, hshrinks.combatRefs]
    rfl
  have hlinked : ∀ id' o v, w₅.threatKey id' = some (o, v) → w₅.isInCombatWith o v = true := by
    intro id' o v hk
    have hold := h.linked id' o v (hshrinks.keys _ _ hk) (hcleared id' o v hk)
    rw [isInCombatWith, hmaps]
    exact hold
  have hflags : ∀ x, w₅.FlagOf x := flagOf_recompute_both E fun x => h.flagOf_purged hshrinks
  refine ⟨⟨?_, ?_⟩, ?_⟩
  · intro pvp a b id' hid'
    exact hcombat.refs_symm hid'
  · intro id' o v hk
    obtain ⟨pvp, cid, hcid⟩ := isInCombatWith_iff.mp (hlinked id' o v hk)
    exact ⟨pvp, cid, hcid, hcombat.refs_symm hcid⟩
  · refine ⟨⟨hcombat, hshrinks.sound.congr rfl rfl (Nat.le_refl _), hlinked, hshrinks.settled⟩, ?_⟩
    intro x
    rw [FlagOf, hasCombat_freeCombatRef hcombat]
    exact hflags x

end World

namespace Execution

open World

variable (e : Execution U)

variable (due : Bool)

/-- A call that is due sees the world as it is. -/
theorem notify_spec (me : U) (call : HandOff U) :
    (e.notify E due me call).world = e.world ∧
      ∃ calls, Logs e (e.notify E due me call) calls ∧ ∀ c ∈ calls, c.2 = e.world := by
  rw [notify]
  split_ifs
  · refine ⟨rfl, [(call, e.world)], rfl, fun c hc => ?_⟩
    rw [mem_singleton.mp hc]
  · exact ⟨rfl, [], logs_update e id, fun _ hc => absurd hc not_mem_nil⟩

/-- Two calls in a row. -/
theorem notify_notify_spec (due' : Bool) (me me' : U) (call call' : HandOff U) :
    ((e.notify E due me call).notify E due' me' call').world = e.world ∧
      ∃ calls, Logs e ((e.notify E due me call).notify E due' me' call') calls ∧
        ∀ c ∈ calls, c.2 = e.world := by
  obtain ⟨hworld, calls, hlogs, hsees⟩ := e.notify_spec E due me call
  obtain ⟨hworld', calls', hlogs', hsees'⟩ := (e.notify E due me call).notify_spec E due' me' call'
  refine ⟨hworld'.trans hworld, _, hlogs.trans hlogs', fun c hc => ?_⟩
  rcases mem_append.mp hc with hc | hc
  · exact hsees c hc
  · exact (hsees' c hc).trans hworld

/-- **`EndCombat`** leads to a sound world. The calls of the two `ClearThreat` come first and see a
world with the maps as they were; the calls of `JustExitedCombat` see a consistent world. -/
theorem endCombatRef_spec {e : Execution U} {id : ℕ} {r : CombatReference U}
    (h : Ending e.world id r) :
    Sound (e.endCombatRef E id r).world ∧
      ∃ early late, Logs e (e.endCombatRef E id r) (early ++ late) ∧
      (∀ c ∈ early, Shrinks e.world c.2) ∧ (∀ c ∈ late, Consistent c.2) ∧
      (early = [] ↔ ¬ HandsOver E e.tick e.world r.first r.second ∧
        ¬ HandsOver E e.tick e.world r.second r.first) := by
  obtain ⟨hshrinks₁, hgone₁, calls₁, hlogs₁, hsees₁, hcalls₁⟩ :=
    clearThreat_spec E h.toThreatSound h.settled r.first r.second
  set e₁ := e.clearThreat E r.first r.second
  obtain ⟨hshrinks₂, hgone₂, calls₂, hlogs₂, hsees₂, hcalls₂⟩ :=
    clearThreat_spec E hshrinks₁.sound hshrinks₁.settled r.second r.first
  set e₂ := e₁.clearThreat E r.second r.first
  have hshrinks := hshrinks₁.trans hshrinks₂
  have hcleared : ∀ id' o v, e₂.world.threatKey id' = some (o, v) → ¬ r.Between o v := by
    rintro id' o v hk (⟨rfl, rfl⟩ | ⟨rfl, rfl⟩)
    · exact hgone₁ id' (hshrinks₂.keys _ _ hk)
    · exact hgone₂ id' hk
  obtain ⟨hconsistent, hsound⟩ := h.sound_ended E hshrinks hcleared
  set w₅ := ((((e₂.world.purgeReference r.first r.second r.isPvP).purgeReference r.second r.first
    r.isPvP).recompute E r.first).recompute E r.second) with hw₅
  set e₃ := e₂.update fun w =>
    (w.purgeReference r.first r.second r.isPvP).purgeReference r.second r.first r.isPvP
  set needFirstAI := e₃.updateOwnerCombatState E r.first with hfirst
  set needSecondAI := needFirstAI.2.updateOwnerCombatState E r.second with hsecond
  have hworld₅ : needSecondAI.2.world = w₅ := by
    rw [hsecond, updateOwnerCombatState, updateOwnerCombatState_eq, hfirst, updateOwnerCombatState,
      updateOwnerCombatState_eq]
    rfl
  have hlogs₅ : Logs e₂ needSecondAI.2 [] := logs_update e₂ fun _ => w₅
  obtain ⟨hworld, calls₃, hlogs₃, hsees₃⟩ :=
    needSecondAI.2.notify_notify_spec E needFirstAI.1 needSecondAI.1
    r.first r.second (.justExitedCombat r.first) (.justExitedCombat r.second)
  have heq : e.endCombatRef E id r = ((needSecondAI.2.notify E needFirstAI.1 r.first
      (.justExitedCombat r.first)).notify E needSecondAI.1 r.second
        (.justExitedCombat r.second)).update
      fun w => w.freeCombatRef id := rfl
  have hfinal : (e.endCombatRef E id r).world = w₅.freeCombatRef id := by
    rw [heq, update, hworld, hworld₅]
  refine ⟨hfinal ▸ hsound, calls₁ ++ calls₂, calls₃, ?_, ?_, ?_, ?_⟩
  · have hall := ((hlogs₁.trans hlogs₂).trans hlogs₅).trans
      (hlogs₃.trans (logs_update _ fun w => w.freeCombatRef id))
    rw [append_nil, append_nil] at hall
    exact hall
  · intro c hc
    rcases mem_append.mp hc with hc | hc
    · rw [hsees₁ c hc]
      exact hshrinks₁
    · rw [hsees₂ c hc]
      exact hshrinks
  · intro c hc
    rw [hsees₃ c hc, hworld₅]
    exact hconsistent
  · have helse := clearThreat_elsewhere E h.toThreatSound r.first r.second
    have htick : e₁.tick = e.tick := e.tick_clearThreat E r.first r.second
    rw [htick, helse.handsOver_iff E h.toThreatSound h.distinct.symm] at hcalls₂
    rw [append_eq_nil_iff, ← hcalls₁, ← hcalls₂, not_not, not_not]

end Execution

end Combat

end IscServer
