import IscServer.Reputation.ReputationSteps

/-!
# Standings and Counters

Every function that a player or a script can call keeps the standings between bottom and cap and the
counters exact (`Sound`), and marks the states it changes for saving (`Marks`).

## Main results

* `keeps_setOneFactionReputation` — one faction.
* `keeps_setReputation` — a faction and those that its reputation spills over to.
-/

namespace IscServer.Reputation

variable {ρ : Type} {W : World ρ} {player : Player} {m m' m'' : ReputationMgr}
  {f f' : FactionState} {k : ℤ} {entry : FactionEntry ρ}

/-- A state that is not marked for saving is as it was before. -/
def Marks (m m' : ReputationMgr) : Prop :=
  ∀ f' ∈ m'.factions, f'.needSave = false → ∃ f ∈ m.factions,
    f.needSave = false ∧ f.id = f'.id ∧ f.standing = f'.standing ∧ f.flags = f'.flags

/-- What a function does to a sound manager. -/
structure Keeps (W : World ρ) (player : Player) (m m' : ReputationMgr) : Prop where
  sound : Sound W player m'
  marks : Marks m m'

theorem Marks.refl (m : ReputationMgr) : Marks m m := fun f hmem hsaved =>
    ⟨f, hmem, hsaved, rfl, rfl, rfl⟩

theorem Marks.trans (h : Marks m m') (h' : Marks m' m'') : Marks m m'' := by
  intro f'' hmem hsaved
  obtain ⟨f', hmem', hsaved', hid, hstanding, hflags⟩ := h' f'' hmem hsaved
  obtain ⟨f, hmem, hsaved, hid', hstanding', hflags'⟩ := h f' hmem' hsaved'
  exact ⟨f, hmem, hsaved, hid'.trans hid, hstanding'.trans hstanding, hflags'.trans hflags⟩

/-- One state is overwritten by itself or by one that is marked. -/
theorem Changes.marks (h : Changes m m' f f') (hfind : m.find k = some f)
    (hmarked : f' = f ∨ f'.needSave = true) : Marks m m' := by
  intro f'' hmem hsaved
  rcases (h.mem_iff hfind).mp hmem with rfl | ⟨hmem, -⟩
  · rcases hmarked with rfl | hmarked
    · exact ⟨f'', Keyed.mem_of_find hfind, hsaved, rfl, rfl, rfl⟩
    · rw [hmarked] at hsaved
      cases hsaved
  · exact ⟨f'', hmem, hsaved, rfl, rfl, rfl⟩

theorem Keeps.refl (h : Sound W player m) : Keeps W player m m := ⟨h, Marks.refl m⟩

theorem Keeps.trans (h : Keeps W player m m') (h' : Keeps W player m' m'') : Keeps W player m m'' :=
  ⟨h'.sound, h.marks.trans h'.marks⟩

/-- A setter of flags. -/
theorem Sound.keeps (h : Sound W player m) (hfind : m.find k = some f)
    (hchanges : Changes m m' f f') (hsets : Sets f f') : Keeps W player m m' :=
  ⟨h.sets hfind hchanges hsets, hchanges.marks hfind hsets.marked⟩

/-! ### Setters -/

section

variable (h : Sound W player m)
include h

theorem keeps_setVisible (entry : FactionEntry ρ) : Keeps W player m (m.setVisible entry) := by
  rw [ReputationMgr.setVisible]
  split_ifs
  · exact Keeps.refl h
  · cases hfind : m.find entry.reputationIndex with
    | none => exact Keeps.refl h
    | some f => exact h.keeps hfind (changes_setVisibleState h.distinct hfind) (sets_madeVisible f)

theorem keeps_setVisibleTemplate (templateFaction : ℕ) :
    Keeps W player m (m.setVisibleTemplate W player templateFaction) := by
  rw [ReputationMgr.setVisibleTemplate]
  split_ifs
  · exact Keeps.refl h
  · cases W.lookupEntry templateFaction with
    | none => exact Keeps.refl h
    | some entry =>
      dsimp only
      split_ifs
      · exact keeps_setVisible h entry
      · exact Keeps.refl h

theorem keeps_setAtWar (repListId : ℤ) (on : Bool) :
    Keeps W player m (m.setAtWar W player repListId on) := by
  rw [ReputationMgr.setAtWar]
  cases hfind : m.find repListId with
  | none => exact Keeps.refl h
  | some f =>
    dsimp only
    split_ifs
    · exact Keeps.refl h
    · exact h.keeps hfind (changes_setAtWarState h.distinct hfind on) (sets_withWar _ on f)

theorem keeps_setInactive (repListId : ℤ) (on : Bool) :
    Keeps W player m (m.setInactive repListId on) := by
  rw [ReputationMgr.setInactive]
  cases hfind : m.find repListId with
  | none => exact Keeps.refl h
  | some f => exact h.keeps hfind (changes_setInactiveState h.distinct hfind on) (sets_withInactive on f)

end

/-! ### Standings -/

theorem Changes.increased (h : Changes m m' f f') (increased : Bool) :
    Changes m (if increased then { m' with sendFactionIncreased := true } else m') f f' := by
  cases increased with
  | false => exact h
  | true => exact ⟨h.factions, h.index, h.visible, h.honored, h.revered, h.exalted⟩

/-- What `SetOneFactionReputation` does to the flags of a state. -/
theorem exists_changes_flags (hnodup : Distinct m) (hfind : m.find k = some f)
    (oldRank newRank : ℤ) :
    ∃ f', Changes m (
      let m := m.withState k ReputationMgr.setVisibleState
      if newRank ≤ repHostile then m.withState k fun m f => m.setAtWarState W player f true
      else if newRank > oldRank then m.withState k fun m f => m.setAtWarState W player f false
      else m) f f' ∧ Sets f f' := by
  have hvisible := changes_setVisibleState hnodup hfind
  have hsets := sets_madeVisible f
  rw [withState_eq hfind]
  have hfind' := hvisible.find hfind
  have hwar : ∀ atWar, ∃ f', Changes m ((m.setVisibleState f).withState k fun m f =>
      m.setAtWarState W player f atWar) f f' ∧ Sets f f' := fun atWar => by
    rw [withState_eq hfind']
    have hchanges := (@changes_setAtWarState _ W player) (hvisible.distinct hnodup) hfind' atWar
    exact ⟨_, hvisible.trans hchanges, hsets.trans (sets_withWar _ atWar _)⟩
  split_ifs
  · exact hwar true
  · exact hwar false
  · exact ⟨_, hvisible, hsets⟩

/-- A standing between the base's distances to bottom and cap. -/
theorem clamp_bounds (standing : ℤ) :
    reputationBottom ≤ (if standing > reputationCap then reputationCap
      else if standing < reputationBottom then reputationBottom else standing) ∧
    (if standing > reputationCap then reputationCap
      else if standing < reputationBottom then reputationBottom else standing) ≤ reputationCap := by
  have hle : reputationBottom ≤ reputationCap := by decide
  split_ifs <;> omega

theorem base_bounds (hmem : entry ∈ W.factions) :
    reputationBottom ≤ getBaseReputation player entry ∧
    getBaseReputation player entry ≤ reputationCap := by
  rw [getBaseReputation]
  cases getFactionDataIndex player entry with
  | none => exact (by decide : reputationBottom ≤ 0 ∧ 0 ≤ reputationCap)
  | some i => exact W.bases entry hmem i

/-- A state with a new total between bottom and cap. -/
theorem StateOf.withTotal (h : StateOf W player entry f) {n : ℤ} (hlow : reputationBottom ≤ n)
    (hhigh : n ≤ reputationCap) (hid : f'.id = f.id) (hindex : f'.reputationListId = f.reputationListId)
    (hstanding : f'.standing = int32 (n - getBaseReputation player entry))
    (hflags : f'.flags = f.flags) : StateOf W player entry f' ∧ total W player f' = n := by
  obtain ⟨hbase, hbase'⟩ := (@base_bounds _ _ player) h.mem
  have hexact : int32 (n - getBaseReputation player entry) = n - getBaseReputation player entry := by
    rw [reputationBottom] at hlow hbase
    rw [reputationCap] at hhigh hbase'
    exact int32_of_bounds (by omega) (by omega)
  have hsum : getBaseReputation player entry + f'.standing = n := by
    omega
  have hstate : StateOf W player entry f' :=
    ⟨h.mem, h.id.trans hid.symm, h.ne_zero, h.index.trans hindex.symm, h.canHave, by rw [hsum]; exact hlow,
      by rw [hsum]; exact hhigh, by rw [hflags]; exact h.flags⟩
  exact ⟨hstate, hstate.total_eq.trans hsum⟩

/-- **One faction** gets a standing between bottom and cap, and is counted with its new rank. -/
theorem keeps_setOneFactionReputation (h : Sound W player m) (hmem : entry ∈ W.factions)
    (standing : ℤ) (incremental : Bool) :
    Keeps W player m (m.setOneFactionReputation W player entry standing incremental).1 := by
  rw [ReputationMgr.setOneFactionReputation]
  cases hfind : m.find entry.reputationIndex with
  | none => exact Keeps.refl h
  | some f =>
    have hstate := h.stateOf hmem hfind
    have hold : int32 (f.standing + getBaseReputation player entry) = total W player f := by
      rw [Int.add_comm, hstate.int32_eq, hstate.total_eq]
    dsimp only
    rw [hold]
    generalize (if incremental then int32 (W.gain standing + total W player f) else standing) = given
    obtain ⟨hlow, hhigh⟩ := clamp_bounds given
    generalize (if given > reputationCap then reputationCap
      else if given < reputationBottom then reputationBottom else given) = clamped at hlow hhigh ⊢
    obtain ⟨f₁, hf₁⟩ : ∃ f₁ : FactionState, f₁ = { f with
      standing := int32 (clamped - getBaseReputation player entry), needSend := true,
      needSave := true } := ⟨_, rfl⟩
    obtain ⟨hstate₁, htotal₁⟩ := (@StateOf.withTotal _ _ _ _ f₁) hstate hlow hhigh (by rw [hf₁]) (by rw [hf₁])
      (by rw [hf₁]) (by rw [hf₁])
    rw [← hf₁]
    have hput : Changes m (m.put f₁) f f₁ := changes_put (by rw [hf₁]) (by rw [hf₁])
    have hfind' : m.find f.reputationListId = some f := by
      rw [Keyed.key_of_find hfind]
      exact hfind
    -- its flags
    obtain ⟨f₂, hchanges, hsets⟩ := (@exists_changes_flags _ W player)
      (hput.distinct h.distinct) (hput.find hfind') (stateRank W player f) (reputationToRank clamped)
    have hall := (hput.trans hchanges).increased
      (decide (reputationToRank clamped > stateRank W player f))
    have hrank : reputationToRank clamped = stateRank W player f₂ := by
      rw [hsets.stateRank_eq, stateRank, htotal₁]
    have hsound := h.after hfind hall (hstate₁.sets hsets)
    rw [← hrank] at hsound
    have hmarked : f₂.needSave = true := by
      rcases hsets.marked with rfl | hmarked
      · rw [hf₁]
      · exact hmarked
    have hmarks := hall.marks hfind (Or.inr hmarked)
    simp only [decide_eq_true_eq] at hsound hmarks
    exact ⟨hsound, hmarks⟩

/-- Marks on the states are not counted. -/
theorem Sound.map (h : Sound W player m) {g : FactionState → FactionState}
    (hg : ∀ f, (g f).id = f.id ∧ (g f).reputationListId = f.reputationListId ∧
      (g f).standing = f.standing ∧ (g f).flags = f.flags)
    (hfactions : m'.factions = m.factions.map g)
    (hvisible : m'.visibleFactionCount = m.visibleFactionCount)
    (hhonored : m'.honoredFactionCount = m.honoredFactionCount)
    (hrevered : m'.reveredFactionCount = m.reveredFactionCount)
    (hexalted : m'.exaltedFactionCount = m.exaltedFactionCount) : Sound W player m' := by
  have hrank : ∀ f, stateRank W player (g f) = stateRank W player f := fun f => by
    obtain ⟨hid, -, hstanding, -⟩ := hg f
    rw [stateRank, stateRank, total, total, hid, hstanding]
  have hcount : ∀ p : FactionState → Bool, (∀ f, p (g f) = p f) →
      m'.factions.countP p = m.factions.countP p := fun p hp => by
    rw [hfactions, List.countP_map]
    exact List.countP_congr fun f _ => by rw [Function.comp_apply, hp]
  refine ⟨?_, fun f hmem => ?_, ?_, ?_, ?_, ?_⟩
  · rw [Distinct, hfactions, List.map_map,
      show FactionState.reputationListId ∘ g = FactionState.reputationListId from
        funext fun f => (hg f).2.1]
    exact h.distinct
  · rw [hfactions] at hmem
    obtain ⟨f, hold, rfl⟩ := List.mem_map.mp hmem
    obtain ⟨entry, hstate⟩ := h.states f hold
    obtain ⟨hid, hindex, hstanding, hflags⟩ := hg f
    exact ⟨entry, hstate.mem, hstate.id.trans hid.symm, hstate.ne_zero, hstate.index.trans hindex.symm,
      hstate.canHave, by rw [hstanding]; exact hstate.low, by rw [hstanding]; exact hstate.high,
      by rw [hflags]; exact hstate.flags⟩
  · rw [hvisible, h.counting.visible, hcount _ fun f => by rw [(hg f).2.2.2]]
  · rw [hhonored, h.counting.honored, hcount _ fun f => by rw [hrank]]
  · rw [hrevered, h.counting.revered, hcount _ fun f => by rw [hrank]]
  · rw [hexalted, h.counting.exalted, hcount _ fun f => by rw [hrank]]

/-- `SendState` changes nothing that is counted or saved. -/
theorem keeps_sendState (h : Sound W player m) : Keeps W player m m.sendState := by
  refine ⟨h.map (g := fun f => { f with needSend := false }) (fun f => ⟨rfl, rfl, rfl, rfl⟩) rfl rfl
    rfl rfl rfl, fun f' hmem hsaved => ?_⟩
  obtain ⟨f, hold, rfl⟩ := List.mem_map.mp hmem
  exact ⟨f, hold, hsaved, rfl, rfl, rfl⟩

/-! ### Spillover -/

theorem lookupEntry_mem {id : ℕ} (h : W.lookupEntry id = some entry) : entry ∈ W.factions :=
  Keyed.mem_of_find h

/-- A loop whose rounds keep the invariant. -/
theorem keeps_foldl {α β : Type} (mgr : β → ReputationMgr) (g : β → α → β)
    (hg : ∀ b a, Sound W player (mgr b) → Keeps W player (mgr b) (mgr (g b a))) (b : β) (as : List α)
    (h : Sound W player (mgr b)) : Keeps W player (mgr b) (mgr (as.foldl g b)) := by
  induction as generalizing b with
  | nil => exact Keeps.refl h
  | cons a as ih =>
    have hfirst := hg b a h
    exact hfirst.trans (ih (g b a) hfirst.sound)

section

variable (h : Sound W player m)
include h

theorem keeps_spillTemplate (standing : ℤ) (incremental : Bool)
    (slots : List (SpilloverFaction ρ)) :
    Keeps W player m (m.spillTemplate W player standing incremental slots) := by
  refine keeps_foldl id _ (fun m slot h => ?_) m slots h
  cases hlookup : W.lookupEntry slot.faction with
  | none => exact Keeps.refl h
  | some entry =>
    dsimp only [id]
    split_ifs
    · exact keeps_setOneFactionReputation h (lookupEntry_mem hlookup) _ incremental
    · exact Keeps.refl h

theorem keeps_spillAffiliated (factionId : ℕ) (out : ρ) (incremental res : Bool) (flist : List ℕ) :
    Keeps W player m (m.spillAffiliated W player factionId out incremental res flist).1 := by
  refine keeps_foldl Prod.fst _ (fun b id h => ?_) (m, res) flist h
  cases hlookup : W.lookupEntry id with
  | none => exact Keeps.refl h
  | some entry =>
    dsimp only
    split_ifs
    · exact Keeps.refl h
    · exact keeps_setOneFactionReputation h (lookupEntry_mem hlookup) _ incremental
    · exact Keeps.refl h

theorem keeps_spillFactions (entry : FactionEntry ρ) (standing : ℤ) (incremental : Bool) :
    Keeps W player m (m.spillFactions W player entry standing incremental).1 := by
  rw [ReputationMgr.spillFactions]
  cases W.getFactionTeamList entry.id with
  | some flist => exact keeps_spillAffiliated h entry.id _ incremental false flist
  | none =>
    split_ifs
    · cases hlookup : W.lookupEntry entry.parentFactionId with
      | none => exact Keeps.refl h
      | some parent =>
        dsimp only
        split_ifs
        · exact keeps_setOneFactionReputation h (lookupEntry_mem hlookup) _ incremental
        · cases W.getFactionTeamList entry.parentFactionId with
          | none => exact Keeps.refl h
          | some flist => exact keeps_spillAffiliated h entry.id _ incremental false flist
    · exact Keeps.refl h

omit h in
theorem Keeps.setItself {m₁ : ReputationMgr} (hspilled : Keeps W player m m₁)
    (hmem : entry ∈ W.factions) (standing : ℤ) (incremental spillOverOnly : Bool) (res : Bool) :
    Keeps W player m (match m₁.find entry.reputationIndex with
      | none => (m₁, res)
      | some _ =>
        let (m, res) :=
          if !spillOverOnly then m₁.setOneFactionReputation W player entry standing incremental
          else (m₁, res)
        (m.sendState, res)).1 := by
  refine hspilled.trans ?_
  cases m₁.find entry.reputationIndex with
  | none => exact Keeps.refl hspilled.sound
  | some f =>
    cases spillOverOnly with
    | true => exact keeps_sendState hspilled.sound
    | false =>
      have hone := keeps_setOneFactionReputation hspilled.sound hmem standing incremental
      exact hone.trans (keeps_sendState hone.sound)

/-- **Reputation** of a faction, with what it spills over. -/
theorem keeps_setReputation (hmem : entry ∈ W.factions) (standing : ℤ)
    (incremental spillOverOnly : Bool) :
    Keeps W player m (m.setReputation W player entry standing incremental spillOverOnly).1 := by
  rw [ReputationMgr.setReputation]
  cases W.repSpilloverTemplate entry.id with
  | some slots => exact (keeps_spillTemplate h standing incremental slots).setItself hmem _ _ _ _
  | none => exact (keeps_spillFactions h entry standing incremental).setItself hmem _ _ _ _

end

end IscServer.Reputation
