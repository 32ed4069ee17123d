import IscServer.Conditions.ConditionMgr

/-!
# The Search Mask of One Condition

A condition of a given type is about units, about players, about the objects of its value, or about
anything (`Condition.suits`); an object of another type can only meet its negation. Two things are
proved of this reading: a condition that is met for the object it looks at suits the object
(`suits_of_meets`), and the mask of a condition is made of the bits of the types it suits
(`getSearcherTypeMask_spec`). The load check lets two types through that the mask does not know, those
of the master branch.

## Main results

* `Condition.suits_of_meets` — what the evaluation says about the searched object.
* `Condition.getSearcherTypeMask_spec` — what the mask says.
-/

namespace IscServer.Conditions

variable {Object Map : Type} [DecidableEq Object]

/-! ### One condition -/

namespace Condition

/-- The objects a type of condition is about: an object of another type never meets it unless it is
negated. -/
def suits (c : Condition) (t : TypeID) : Bool :=
  c.negativeCondition ||
    match c.conditionType with
    | .none | .zoneid | .activeEvent | .instanceInfo | .mapid | .areaid | .nearCreature
    | .nearGameobject | .distanceTo | .worldState | .phasemask | .spawnmask | .realmAchievement
    | .difficultyId => true
    | .aura | .class_ | .race | .level | .relationTo | .reactionTo | .alive | .hpVal | .hpPct
    | .unitState | .inWater | .standState | .charmed => t = .unit || t = .player
    | .item | .itemEquipped | .reputationRank | .achievement | .team | .skill | .questrewarded
    | .questtaken | .questComplete | .questNone | .spell | .drunkenstate | .title | .gender
    | .dailyQuestDone | .petType | .taxi | .queststate | .questObjectiveProgress | .gamemaster
    | .groupStatus => t = .player
    | .objectEntryGuid => t.toNat = c.conditionValue1
    | .typeMask => (c.conditionValue1 &&& t.objectTypeMask) != 0
    | .creatureType => t = .unit
    | .stringId => t = .unit || t = .gameobject
    | _ => false

/-- The condition has a mask: the two types that the load check lets through and the mask does not
know are negated. -/
def HasMask (c : Condition) : Prop :=
  c.negativeCondition = true ∨
    (c.conditionType ≠ .objectEntryGuidMaster ∧ c.conditionType ≠ .typeMaskMaster)

variable {w : World Object Map} {c : Condition} {sourceInfo : ConditionSourceInfo Object Map}
  {object : Object}

/-- What the second switch asks can be answered with yes for objects the type is about only. -/
theorem suits_of_meetsObject (h : c.meetsObject w sourceInfo object = true) :
    c.suits (w.getTypeId object) = true := by
  rw [suits, Bool.or_eq_true]
  refine Or.inr ?_
  unfold meetsObject at h
  cases htype : c.conditionType with
  | relationTo =>
    rw [htype] at h
    cases htarget : sourceInfo.conditionTargets c.conditionValue1 with
    | none => simp [htarget] at h
    | some toObject =>
      simp only [htarget, meetsRelationTo, Bool.and_eq_true] at h
      exact h.1.2
  | reactionTo =>
    rw [htype] at h
    cases htarget : sourceInfo.conditionTargets c.conditionValue1 with
    | none => simp [htarget] at h
    | some toObject =>
      simp only [htarget, Bool.and_eq_true] at h
      exact h.1.2
  -- the types that this switch has no case for
  | none | activeEvent | instanceInfo | mapid | worldState | realmAchievement | difficultyId
  | terrainSwap | objectEntryGuidMaster | typeMaskMaster | battlePetCount | scenarioStep
  | sceneInProgress | playerCondition | privateObject | label =>
    simp [htype] at h
  | _ =>
    simp only [htype, Bool.and_eq_true] at h
    first
      | rfl
      | exact h
      | exact h.1
      | exact decide_eq_true h.1

/-- A condition on the searched object that is met is about objects of its type. -/
theorem suits_of_meets (htarget : sourceInfo.conditionTargets 0 = some object)
    (hown : c.conditionTarget = 0) (h : c.meets w sourceInfo = true) :
    c.suits (w.getTypeId object) = true := by
  cases hneg : c.negativeCondition with
  | true => simp [suits, hneg]
  | false =>
    rw [meets] at h
    cases hmeets : c.meetsWithoutObject w sourceInfo with
    | some condMeets =>
      have htype : c.conditionType ∈ [ConditionTypes.none, .activeEvent, .instanceInfo, .mapid,
          .worldState, .realmAchievement, .difficultyId] := by
        rw [meetsWithoutObject] at hmeets
        cases htype : c.conditionType <;> simp [htype] at hmeets ⊢
      simp only [List.mem_cons, List.not_mem_nil, or_false] at htype
      rcases htype with htype | htype | htype | htype | htype | htype | htype <;>
        simp [suits, htype]
    | none =>
      simp only [hmeets, hown, htarget, hneg, Bool.bne_false, Bool.and_eq_true] at h
      exact suits_of_meetsObject h.1

/-! ### Bits of a mask -/

end Condition

/-- A mask of bits of the grid containers. -/
def OfTypes (mask : ℕ) : Prop := ∀ i, mask.testBit i = true → ∃ t : TypeID, t.gridBit = i

variable {mask : ℕ}

theorem and_gridMapTypeMask_ne_zero_iff {t : TypeID} :
    (mask &&& t.gridMapTypeMask) ≠ 0 ↔ mask.testBit t.gridBit = true := by
  rw [TypeID.gridMapTypeMask, Nat.shiftLeft_eq, one_mul, Nat.and_two_pow]
  cases mask.testBit t.gridBit <;> simp

theorem ofTypes_iff_le : OfTypes mask ↔ mask < 64 := by
  constructor
  · intro h
    refine Nat.lt_pow_two_of_testBit (n := 6) mask fun i hi => ?_
    by_contra hbit
    obtain ⟨t, rfl⟩ := h i (by simpa using hbit)
    cases t <;> simp [TypeID.gridBit] at hi
  · intro h i hbit
    have hi : i < 6 := by
      by_contra hge
      have := Nat.ge_two_pow_of_testBit hbit
      have : 2 ^ 6 ≤ 2 ^ i := Nat.pow_le_pow_right (by omega) (by omega)
      omega
    interval_cases i
    · exact ⟨.corpse, rfl⟩
    · exact ⟨.unit, rfl⟩
    · exact ⟨.dynamicobject, rfl⟩
    · exact ⟨.gameobject, rfl⟩
    · exact ⟨.player, rfl⟩
    · exact ⟨.areatrigger, rfl⟩

theorem eq_zero_iff (h : OfTypes mask) :
    mask = 0 ↔ ∀ t : TypeID, mask.testBit t.gridBit = false := by
  constructor
  · rintro rfl t
    exact Nat.zero_testBit _
  · intro hbits
    refine Nat.eq_of_testBit_eq fun i => ?_
    rw [Nat.zero_testBit, Bool.eq_false_iff]
    intro hbit
    obtain ⟨t, rfl⟩ := h i hbit
    rw [hbits t] at hbit
    cases hbit

/-- A mask has a bit for each type of objects that fits. -/
def IsMask (mask : ℕ) (fits : TypeID → Prop) : Prop :=
  OfTypes mask ∧ ∀ t : TypeID, mask.testBit t.gridBit = true ↔ fits t

/-- A computed mask is there exactly when everything it needs is handled, and then has the bits of the
types that fit. -/
def Masks (mask : Option ℕ) (handled : Prop) (fits : TypeID → Prop) : Prop :=
  (handled ∧ ∃ m, mask = some m ∧ IsMask m fits) ∨ (¬handled ∧ mask = none)

theorem isMask_all : IsMask gridMapTypeMaskAll fun _ => True :=
  ⟨ofTypes_iff_le.mpr (by decide), fun t => by cases t <;> decide⟩

/-! ### The mask of one condition -/

namespace Condition

variable {lookup : Condition → Bool} {c : Condition}

theorem and_typeMask_ne_zero_iff {v : ℕ} {t : TypeID} :
    (v &&& t.typeMask) ≠ 0 ↔ v.testBit t.toNat = true := by
  rw [TypeID.typeMask, Nat.shiftLeft_eq, one_mul, Nat.and_two_pow]
  cases v.testBit t.toNat <;> simp

/-- An object is of its own type, and a player is a unit; the bit of all objects is not in the
mask. -/
theorem and_objectTypeMask_ne_zero_iff {v : ℕ} (h : v.testBit 0 = false) {t : TypeID} :
    (v &&& t.objectTypeMask) ≠ 0 ↔
      v.testBit t.toNat = true ∨ (t = .player ∧ v.testBit TypeID.unit.toNat = true) := by
  have hone : v &&& 1 = 0 := by
    rw [show (1 : ℕ) = 2 ^ 0 from rfl, Nat.and_two_pow, h]
    rfl
  cases t
  case player =>
    rw [TypeID.objectTypeMask, Nat.and_or_distrib_left, Nat.and_or_distrib_left, hone, Nat.zero_or,
      ne_eq, Nat.or_eq_zero_iff, not_and_or, ← ne_eq, ← ne_eq, and_typeMask_ne_zero_iff,
      and_typeMask_ne_zero_iff]
    simp only [true_and]
    exact or_comm
  all_goals
    rw [TypeID.objectTypeMask, Nat.and_or_distrib_left, hone, Nat.zero_or, and_typeMask_ne_zero_iff]
    all_goals simp

/-- `CONDITION_TYPE_MASK` may name four of the types. -/
private theorem typeMask_isMask (hneg : c.negativeCondition = false)
    (htype : c.conditionType = .typeMask) (hvalid : c.isConditionTypeValid lookup = true) :
    ∃ mask, c.getSearcherTypeMask = some mask ∧ IsMask mask fun t => c.suits t = true := by
  have hbits : c.conditionValue1 &&& 184 = c.conditionValue1 := by
    simp only [isConditionTypeValid, htype, reduceCtorEq] at hvalid
    split_ifs at hvalid
    simp only [Bool.and_eq_true, beq_iff_eq] at hvalid
    exact hvalid.1.2
  have hbit (i : ℕ) (hi : (184 : ℕ).testBit i = false) : c.conditionValue1.testBit i = false := by
    rw [← hbits, Nat.testBit_and, hi, Bool.and_false]
  refine ⟨_, by simp only [getSearcherTypeMask, hneg, htype]; rfl, ?_, fun t => ?_⟩
  · refine ofTypes_iff_le.mpr ?_
    split_ifs <;> decide
  · simp only [suits, hneg, htype, Bool.false_or, bne_iff_ne,
      and_objectTypeMask_ne_zero_iff (hbit 0 (by decide)), and_typeMask_ne_zero_iff]
    have hdynamic := hbit TypeID.dynamicobject.toNat (by decide)
    have harea := hbit TypeID.areatrigger.toNat (by decide)
    cases hunit : c.conditionValue1.testBit TypeID.unit.toNat <;>
      cases hplayer : c.conditionValue1.testBit TypeID.player.toNat <;>
      cases hgameobject : c.conditionValue1.testBit TypeID.gameobject.toNat <;>
      cases hcorpse : c.conditionValue1.testBit TypeID.corpse.toNat <;>
      cases t <;> simp only [hunit, hplayer, hgameobject, hcorpse, hdynamic, harea] <;> decide

/-- **The mask of a condition** has the bits of the types it suits, wherever it has a mask. -/
theorem getSearcherTypeMask_spec (hvalid : c.isConditionTypeValid lookup = true) :
    Masks c.getSearcherTypeMask c.HasMask fun t => c.suits t = true := by
  cases hneg : c.negativeCondition with
  | true =>
    refine Or.inl ⟨Or.inl hneg, gridMapTypeMaskAll, by rw [getSearcherTypeMask, hneg]; rfl, ?_⟩
    simpa [suits, hneg] using isMask_all
  | false =>
    cases htype : c.conditionType with
    | objectEntryGuidMaster | typeMaskMaster =>
      refine Or.inr ⟨by simp [HasMask, hneg, htype], by simp [getSearcherTypeMask, hneg, htype]⟩
    | terrainSwap | battlePetCount | scenarioStep | sceneInProgress | playerCondition
    | privateObject | label =>
      simp [isConditionTypeValid, htype] at hvalid
    | objectEntryGuid =>
      refine Or.inl ⟨by simp [HasMask, htype], ?_⟩
      have hvalue : ((c.conditionValue1 = 3 ∨ c.conditionValue1 = 5) ∨ c.conditionValue1 = 4) ∨
          c.conditionValue1 = 7 := by
        simp only [isConditionTypeValid, htype, reduceCtorEq] at hvalid
        split_ifs at hvalid
        simp only [Bool.and_eq_true, Bool.or_eq_true, decide_eq_true_eq] at hvalid
        exact hvalid.1
      rcases hvalue with ((hvalue | hvalue) | hvalue) | hvalue
      all_goals
        refine ⟨_, by simp only [getSearcherTypeMask, hneg, htype, hvalue]; rfl, ?_, fun t => ?_⟩
        · exact ofTypes_iff_le.mpr (by decide)
        · simp only [suits, hneg, htype, hvalue]
          cases t <;> decide
    | typeMask => exact Or.inl ⟨by simp [HasMask, htype], typeMask_isMask hneg htype hvalid⟩
    | _ =>
      refine Or.inl ⟨by simp [HasMask, htype], ?_⟩
      refine ⟨_, by simp only [getSearcherTypeMask, hneg, htype]; rfl, ?_, fun t => ?_⟩
      · exact ofTypes_iff_le.mpr (by decide)
      · simp only [suits, hneg, htype]
        cases t <;> decide

end Condition

end IscServer.Conditions
