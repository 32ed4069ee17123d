import IscServer.Reputation.ReputationMgr

/-!
# What a Step does to a Faction

Every function of `ReputationMgr` that changes something overwrites the states of some factions, one
after the other. `Changes` says what overwriting one state leaves behind, and what it does to the
counters; the counters by rank follow in `UpdateRankCounters`.

## Main results

* `changes_setVisibleState`, `changes_setAtWarState`, `changes_setInactiveState` — the setters of flags.
* `Counting.after` — the counters after one state has changed.
-/

namespace IscServer.Reputation

open Keyed

variable {ρ : Type} {W : World ρ} {player : Player} {m m' m'' : ReputationMgr}
  {f f' f'' : FactionState} {k : ℤ}

/-! ### Numbers -/

theorem int32_of_bounds {n : ℤ} (hlow : -2 ^ 31 ≤ n) (hhigh : n < 2 ^ 31) : int32 n = n := by
  exact Int.bmod_eq_of_le (by omega) (by omega)

/-- **Ranks**: a standing between bottom and cap has one of the eight ranks. -/
theorem reputationToRank_bounds {standing : ℤ} (hlow : reputationBottom ≤ standing)
    (hhigh : standing ≤ reputationCap) :
    repHated ≤ reputationToRank standing ∧ reputationToRank standing ≤ repExalted := by
  rw [reputationCap] at hhigh
  have hstart := List.takeWhile_prefix (l := reputationRankThresholds)
    fun threshold : ℤ => decide (threshold ≤ standing)
  have hlength := hstart.length_le
  have hproper : (reputationRankThresholds.takeWhile fun threshold => threshold ≤ standing) ≠
      reputationRankThresholds := by
    intro heq
    have hreached := List.takeWhile_eq_self_iff.mp heq 43000 (by decide)
    rw [decide_eq_true_iff] at hreached
    omega
  have hne := mt hstart.eq_of_length hproper
  have hfirst : 0 < (reputationRankThresholds.takeWhile fun threshold => threshold ≤ standing).length := by
    rw [reputationRankThresholds, List.takeWhile_cons_of_pos (by rw [decide_eq_true_iff]; exact hlow)]
    exact Nat.succ_pos _
  have hall : reputationRankThresholds.length = 9 := rfl
  rw [reputationToRank, repHated, repExalted]
  omega

/-- One or zero, for a counter. -/
def bit (b : Bool) : UInt8 := if b then 1 else 0

open scoped UInt8.CommRing in
/-- A counter follows a number. -/
theorem counter_follows {n n' a b : ℕ} (h : n' + a = n + b) :
    UInt8.ofNat n' = UInt8.ofNat n - UInt8.ofNat a + UInt8.ofNat b := by
  have hcast := congrArg UInt8.ofNat h
  rw [UInt8.ofNat_add, UInt8.ofNat_add] at hcast
  linear_combination hcast

/-! ### States -/

/-- The flags that a faction can have: those of its default, except that it may have become visible,
and that the player may have made it active or inactive, or declared war or peace. -/
structure FlagsOf (default flags : ReputationFlags) : Prop where
  hidden : flags.hidden = default.hidden
  header : flags.header = default.header
  peaceful : flags.peaceful = default.peaceful
  showPropagated : flags.showPropagated = default.showPropagated
  headerShowsBar : flags.headerShowsBar = default.headerShowsBar
  visible : default.visible = true → flags.visible = true
  shown : flags.visible = true → default.visible = false →
    flags.hidden = false ∧ (flags.header && !flags.headerShowsBar) = false
  changed : flags.inactive ≠ default.inactive →
    flags.hidden = false ∧ flags.header = false ∧ flags.visible = true

theorem FlagsOf.refl (flags : ReputationFlags) : FlagsOf flags flags where
  hidden := rfl
  header := rfl
  peaceful := rfl
  showPropagated := rfl
  headerShowsBar := rfl
  visible := id
  shown hvisible hhidden := absurd hvisible (by rw [hhidden]; exact Bool.false_ne_true)
  changed h := absurd rfl h

/-- A faction made visible, unless it is hidden. -/
def FactionState.madeVisible (f : FactionState) : FactionState :=
  if f.flags.hidden || (f.flags.header && !f.flags.headerShowsBar) || f.flags.visible then f
  else { f with flags := { f.flags with visible := true }, needSend := true, needSave := true }

/-- A faction at war or at peace. -/
def FactionState.withWar (rank : ℤ) (atWar : Bool) (f : FactionState) : FactionState :=
  if (atWar && f.flags.peaceful && rank > repHated) || f.flags.atWar = atWar then f
  else { f with flags := { f.flags with atWar := atWar }, needSend := true, needSave := true }

/-- A faction made active or inactive. -/
def FactionState.withInactive (inactive : Bool) (f : FactionState) : FactionState :=
  if f.flags.hidden || f.flags.header || !f.flags.visible || f.flags.inactive = inactive then f
  else { f with flags := { f.flags with inactive := inactive }, needSend := true, needSave := true }

/-- A setter changes flags of a state, and marks a changed state. -/
structure Sets (f f' : FactionState) : Prop where
  id : f'.id = f.id
  index : f'.reputationListId = f.reputationListId
  standing : f'.standing = f.standing
  flags : ∀ default, FlagsOf default f.flags → FlagsOf default f'.flags
  marked : f' = f ∨ f'.needSave = true

theorem Sets.refl (f : FactionState) : Sets f f := ⟨rfl, rfl, rfl, fun _ h => h, Or.inl rfl⟩

theorem Sets.trans (h : Sets f f') (h' : Sets f' f'') : Sets f f'' := by
  refine ⟨h'.id.trans h.id, h'.index.trans h.index, h'.standing.trans h.standing,
    fun default hflags => h'.flags default (h.flags default hflags), ?_⟩
  rcases h'.marked with rfl | hmarked
  · exact h.marked
  · exact Or.inr hmarked

theorem Sets.ite (c : Prop) [Decidable c] (h : Sets f f') (h' : Sets f f'') :
    Sets f (if c then f' else f'') := by
  split_ifs
  · exact h
  · exact h'

theorem sets_madeVisible (f : FactionState) : Sets f f.madeVisible := by
  rw [FactionState.madeVisible]
  split_ifs with h
  · exact Sets.refl f
  · rw [Bool.or_eq_true, Bool.or_eq_true, not_or, not_or] at h
    obtain ⟨⟨hhidden, hheader⟩, hvisible⟩ := h
    refine ⟨rfl, rfl, rfl, fun default hflags => ?_, Or.inr rfl⟩
    refine ⟨hflags.hidden, hflags.header, hflags.peaceful, hflags.showPropagated,
      hflags.headerShowsBar, fun _ => rfl, fun _ _ => ⟨?_, ?_⟩, fun hne => ?_⟩
    · exact Bool.eq_false_iff.mpr hhidden
    · exact Bool.eq_false_iff.mpr hheader
    · exact absurd (hflags.changed hne).2.2 hvisible

theorem sets_withWar (rank : ℤ) (atWar : Bool) (f : FactionState) : Sets f
    (f.withWar rank atWar) := by
  rw [FactionState.withWar]
  split_ifs
  · exact Sets.refl f
  · refine ⟨rfl, rfl, rfl, fun default hflags => ?_, Or.inr rfl⟩
    exact ⟨hflags.hidden, hflags.header, hflags.peaceful, hflags.showPropagated,
      hflags.headerShowsBar, hflags.visible, hflags.shown, hflags.changed⟩

theorem sets_withInactive (inactive : Bool) (f : FactionState) : Sets f
    (f.withInactive inactive) := by
  rw [FactionState.withInactive]
  split_ifs with h
  · exact Sets.refl f
  · rw [Bool.or_eq_true, Bool.or_eq_true, Bool.or_eq_true, not_or, not_or, not_or] at h
    obtain ⟨⟨⟨hhidden, hheader⟩, hvisible⟩, -⟩ := h
    refine ⟨rfl, rfl, rfl, fun default hflags => ?_, Or.inr rfl⟩
    refine ⟨hflags.hidden, hflags.header, hflags.peaceful, hflags.showPropagated,
      hflags.headerShowsBar, hflags.visible, hflags.shown, fun _ => ⟨?_, ?_, ?_⟩⟩
    · exact Bool.eq_false_iff.mpr hhidden
    · exact Bool.eq_false_iff.mpr hheader
    · simpa using hvisible

/-! ### Overwriting a state -/

/-- The state `f` of the manager is overwritten by `f'`; the counters by rank stay. -/
structure Changes (m m' : ReputationMgr) (f f' : FactionState) : Prop where
  factions : m'.factions = Keyed.put FactionState.reputationListId m.factions f'
  index : f'.reputationListId = f.reputationListId
  visible : m'.visibleFactionCount =
    m.visibleFactionCount - bit f.flags.visible + bit f'.flags.visible
  honored : m'.honoredFactionCount = m.honoredFactionCount
  revered : m'.reveredFactionCount = m.reveredFactionCount
  exalted : m'.exaltedFactionCount = m.exaltedFactionCount

/-- The states of a manager have different indices. -/
def Distinct (m : ReputationMgr) : Prop := (m.factions.map FactionState.reputationListId).Nodup

theorem Changes.refl (hnodup : Distinct m) (hfind : m.find k = some f) : Changes m m f f :=
  ⟨(put_self hnodup (mem_of_find hfind)).symm, rfl, (UInt8.sub_add_cancel _ _).symm, rfl, rfl, rfl⟩

theorem Changes.distinct (h : Changes m m' f f') (hnodup : Distinct m) : Distinct m' := by
  rw [Distinct, h.factions, keys_put]
  exact hnodup

/-- The new state is found. -/
theorem Changes.find (h : Changes m m' f f') (hfind : m.find k = some f) : m'.find k = some f' := by
  have hkey := key_of_find hfind
  subst hkey
  rw [ReputationMgr.find, h.factions, ← h.index]
  refine find_put_self ?_
  rw [h.index]
  exact Option.ne_none_iff_exists'.mpr ⟨f, hfind⟩

theorem Changes.trans (h : Changes m m' f f') (h' : Changes m' m'' f' f'') :
    Changes m m'' f f'' := by
  refine ⟨?_, h'.index.trans h.index, ?_, h'.honored.trans h.honored, h'.revered.trans h.revered,
    h'.exalted.trans h.exalted⟩
  · rw [h'.factions, h.factions, put_put h'.index]
  · rw [h'.visible, h.visible, UInt8.add_sub_cancel]

theorem withState_eq (hfind : m.find k = some f)
    (g : ReputationMgr → FactionState → ReputationMgr) :
    m.withState k g = g m f := by
  rw [ReputationMgr.withState, hfind]

theorem changes_put (hindex : f'.reputationListId = f.reputationListId)
    (hvisible : f'.flags.visible = f.flags.visible) : Changes m (m.put f') f f' :=
  ⟨rfl, hindex, by rw [hvisible, UInt8.sub_add_cancel]; rfl, rfl, rfl, rfl⟩

section

variable (hnodup : Distinct m) (hfind : m.find k = some f)
include hnodup hfind

/-- `SetVisible`. -/
theorem changes_setVisibleState : Changes m (m.setVisibleState f) f f.madeVisible := by
  rw [ReputationMgr.setVisibleState, FactionState.madeVisible]
  by_cases hhidden : f.flags.hidden
  · rw [if_pos hhidden, if_pos (by simp [hhidden])]
    exact Changes.refl hnodup hfind
  by_cases hheader : (f.flags.header && !f.flags.headerShowsBar) = true
  · rw [if_neg hhidden, if_pos hheader, if_pos (by rw [hheader]; simp)]
    exact Changes.refl hnodup hfind
  by_cases hvisible : f.flags.visible
  · rw [if_neg hhidden, if_neg hheader, if_pos hvisible, if_pos (by simp [hvisible])]
    exact Changes.refl hnodup hfind
  · rw [if_neg hhidden, if_neg hheader, if_neg hvisible, if_neg (by
      rw [Bool.or_eq_true, Bool.or_eq_true, not_or, not_or]
      exact ⟨⟨hhidden, hheader⟩, hvisible⟩)]
    refine ⟨rfl, rfl, ?_, rfl, rfl, rfl⟩
    rw [Bool.not_eq_true] at hvisible
    rw [hvisible]
    exact congrArg (· + 1) (UInt8.sub_zero _).symm

/-- A setter that may be refused, and has nothing to do where the flag is set already. -/
theorem changes_ite {refused : Bool} {p : Prop} [Decidable p]
    (hindex : f'.reputationListId = f.reputationListId)
    (hvisible : f'.flags.visible = f.flags.visible) :
    Changes m (if refused = true then m else if p then m else m.put f') f
      (if (refused || decide p) = true then f else f') := by
  cases refused with
  | true => exact Changes.refl hnodup hfind
  | false =>
    by_cases hset : p
    · rw [if_neg Bool.false_ne_true, if_pos hset, if_pos (by rw [decide_eq_true hset]; rfl)]
      exact Changes.refl hnodup hfind
    · rw [if_neg Bool.false_ne_true, if_neg hset, if_neg (by rw [decide_eq_false hset]; decide)]
      exact changes_put hindex hvisible

/-- `SetAtWar`. -/
theorem changes_setAtWarState (atWar : Bool) :
    Changes m (m.setAtWarState W player f atWar) f (f.withWar (m.rankOf W player f) atWar) :=
  changes_ite hnodup hfind rfl rfl

/-- `SetInactive`. -/
theorem changes_setInactiveState (inactive : Bool) :
    Changes m (m.setInactiveState f inactive) f (f.withInactive inactive) :=
  changes_ite hnodup hfind rfl rfl

end

/-! ### Counters -/

/-- The total reputation of a state. -/
def total (W : World ρ) (player : Player) (f : FactionState) : ℤ :=
  match W.lookupEntry f.id with
  | none => 0
  | some entry => getBaseReputation player entry + f.standing

/-- The rank of a state. -/
def stateRank (W : World ρ) (player : Player) (f : FactionState) : ℤ :=
  reputationToRank (total W player f)

/-- **The counters** are the numbers of factions that they stand for. -/
structure Counting (W : World ρ) (player : Player) (m : ReputationMgr) : Prop where
  visible : m.visibleFactionCount = UInt8.ofNat (m.factions.countP fun f => f.flags.visible)
  honored : m.honoredFactionCount =
    UInt8.ofNat (m.factions.countP fun f => repHonored ≤ stateRank W player f)
  revered : m.reveredFactionCount =
    UInt8.ofNat (m.factions.countP fun f => repRevered ≤ stateRank W player f)
  exalted : m.exaltedFactionCount =
    UInt8.ofNat (m.factions.countP fun f => repExalted ≤ stateRank W player f)

/-- One count after a state has been overwritten. -/
theorem count_put (hnodup : Distinct m) (hfind : m.find k = some f)
    (hindex : f'.reputationListId = f.reputationListId) (p : FactionState → Bool) :
    UInt8.ofNat ((Keyed.put FactionState.reputationListId m.factions f').countP p) =
      UInt8.ofNat (m.factions.countP p) - bit (p f) + bit (p f') := by
  have hbit : ∀ b : Bool, bit b = UInt8.ofNat (if b then 1 else 0) := by decide
  rw [hbit, hbit]
  exact counter_follows (countP_put hnodup (mem_of_find hfind) hindex p)

/-- **The counters follow** a change of one state. -/
theorem Counting.after (h : Counting W player m) (hnodup : Distinct m) (hfind : m.find k = some f)
    (hchanges : Changes m m' f f') :
    Counting W player (m'.updateRankCounters (stateRank W player f) (stateRank W player f')) := by
  have hcount := count_put hnodup hfind hchanges.index
  have hbit : ∀ r s : ℤ, bit (decide (r ≤ s)) = if s ≥ r then 1 else 0 := fun r s => by
    by_cases hle : r ≤ s
    · rw [decide_eq_true hle, if_pos hle]; rfl
    · rw [decide_eq_false hle, if_neg hle]; rfl
  refine ⟨?_, ?_, ?_, ?_⟩
  · rw [ReputationMgr.updateRankCounters, hchanges.factions, hcount, ← h.visible, hchanges.visible]
  · rw [ReputationMgr.updateRankCounters, hchanges.factions, hcount, ← h.honored, hchanges.honored,
      hbit, hbit]
  · rw [ReputationMgr.updateRankCounters, hchanges.factions, hcount, ← h.revered, hchanges.revered,
      hbit, hbit]
  · rw [ReputationMgr.updateRankCounters, hchanges.factions, hcount, ← h.exalted, hchanges.exalted,
      hbit, hbit]

/-- Counters of the same rank stay. -/
theorem updateRankCounters_self (r : ℤ) : m.updateRankCounters r r = m := by
  rw [ReputationMgr.updateRankCounters, UInt8.sub_add_cancel, UInt8.sub_add_cancel,
    UInt8.sub_add_cancel]

/-! ### The states of the factions -/

/-- The state of a faction: its total reputation is between bottom and cap. -/
structure StateOf (W : World ρ) (player : Player) (entry : FactionEntry ρ) (f : FactionState) :
    Prop where
  mem : entry ∈ W.factions
  id : entry.id = f.id
  ne_zero : entry.id ≠ 0
  index : entry.reputationIndex = f.reputationListId
  canHave : entry.canHaveReputation = true
  low : reputationBottom ≤ getBaseReputation player entry + f.standing
  high : getBaseReputation player entry + f.standing ≤ reputationCap
  flags : FlagsOf (getDefaultStateFlags player entry) f.flags

/-- **The invariant**: every state is that of a faction, and the counters are exact. -/
structure Sound (W : World ρ) (player : Player) (m : ReputationMgr) : Prop where
  distinct : Distinct m
  states : ∀ f ∈ m.factions, ∃ entry, StateOf W player entry f
  counting : Counting W player m

variable {entry : FactionEntry ρ}

theorem lookupEntry_of_mem (hmem : entry ∈ W.factions) :
    W.lookupEntry entry.id = some entry := find_of_mem W.ids hmem

section

variable (h : StateOf W player entry f)
include h

theorem StateOf.lookup : W.lookupEntry f.id = some entry := by
  rw [← h.id]
  exact lookupEntry_of_mem h.mem

theorem StateOf.total_eq : total W player f = getBaseReputation player entry + f.standing := by
  rw [total, h.lookup]

theorem StateOf.int32_eq :
    int32 (getBaseReputation player entry + f.standing) =
      getBaseReputation player entry + f.standing := by
  have hlow := h.low
  have hhigh := h.high
  rw [reputationBottom] at hlow
  rw [reputationCap] at hhigh
  exact int32_of_bounds (by omega) (by omega)

end

/-- The reputation of a faction is the total of its state. -/
theorem StateOf.getReputation (hstate : StateOf W player entry f) (hfind : m.find k = some f) :
    m.getReputation player entry = total W player f := by
  have hkey := key_of_find hfind
  subst hkey
  rw [ReputationMgr.getReputation, if_pos hstate.canHave, hstate.index, hfind, hstate.total_eq]
  exact hstate.int32_eq

theorem StateOf.rankOf (hstate : StateOf W player entry f) (hfind : m.find k = some f) :
    m.rankOf W player f = stateRank W player f := by
  rw [ReputationMgr.rankOf, hstate.lookup]
  exact congrArg reputationToRank (hstate.getReputation hfind)

/-- The state with the index of a faction is the state of that faction. -/
theorem Sound.stateOf (h : Sound W player m) (hmem : entry ∈ W.factions)
    (hfind : m.find entry.reputationIndex = some f) : StateOf W player entry f := by
  obtain ⟨entry', hstate⟩ := h.states f (mem_of_find hfind)
  have hindex : entry'.reputationIndex = entry.reputationIndex :=
    hstate.index.trans (key_of_find hfind)
  rw [← W.indices entry' hstate.mem entry hmem hstate.canHave hindex]
  exact hstate

/-- A state whose flags are set is still that of its faction. -/
theorem StateOf.sets (h : StateOf W player entry f) (hsets : Sets f f') :
    StateOf W player entry f' :=
  ⟨h.mem, h.id.trans hsets.id.symm, h.ne_zero, h.index.trans hsets.index.symm, h.canHave,
    by rw [hsets.standing]; exact h.low, by rw [hsets.standing]; exact h.high, hsets.flags _ h.flags⟩

theorem Sets.stateRank_eq (h : Sets f f') : stateRank W player f' = stateRank W player f := by
  rw [stateRank, stateRank, total, total, h.id, h.standing]

/-- The other states are those from before. -/
theorem Changes.mem_iff (h : Changes m m' f f') (hfind : m.find k = some f) :
    f'' ∈ m'.factions ↔ f'' = f' ∨ f'' ∈ m.factions ∧ f''.reputationListId ≠ f'.reputationListId := by
  rw [h.factions, mem_put_iff]
  have hmem : f'.reputationListId ∈ m.factions.map FactionState.reputationListId := by
    rw [h.index]
    exact List.mem_map_of_mem (mem_of_find hfind)
  rw [and_iff_left hmem]

section

variable (h : Sound W player m) (hfind : m.find k = some f) (hchanges : Changes m m' f f')
include h hfind hchanges

/-- **One state changes**, and the counters by rank follow. -/
theorem Sound.after (hstate : StateOf W player entry f') :
    Sound W player (m'.updateRankCounters (stateRank W player f) (stateRank W player f')) := by
  refine ⟨hchanges.distinct h.distinct, fun f'' hmem => ?_, h.counting.after h.distinct hfind hchanges⟩
  rcases (hchanges.mem_iff hfind).mp hmem with rfl | ⟨hmem, -⟩
  · exact ⟨entry, hstate⟩
  · exact h.states f'' hmem

/-- One state changes and keeps its rank. -/
theorem Sound.sameRank (hstate : StateOf W player entry f')
    (hrank : stateRank W player f' = stateRank W player f) : Sound W player m' := by
  have hafter := h.after hfind hchanges hstate
  rwa [hrank, updateRankCounters_self] at hafter

/-- A setter of flags keeps the invariant. -/
theorem Sound.sets (hsets : Sets f f') : Sound W player m' := by
  obtain ⟨entry, hstate⟩ := h.states f (mem_of_find hfind)
  exact h.sameRank hfind hchanges (hstate.sets hsets) hsets.stateRank_eq

end

end IscServer.Reputation
