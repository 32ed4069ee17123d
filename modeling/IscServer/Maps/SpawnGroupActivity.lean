import IscServer.Conditions.SearcherMask
import IscServer.Maps.SpawnGroup

/-!
# Active spawn groups

Every group with a member on a map is listed there once, so the loops over the groups of a map reach it
and find its template. `SetSpawnGroupActive` makes exactly the group active it is called for, whatever
the group's flag says about the default. After a loop over the groups that are not spawned by hand a
group is active exactly when its conditions hold; a later group changes nothing for it.

`InitSpawnGroupState` does not look at the flag for groups that are spawned by hand: such a group starts
active whenever its conditions hold, in particular when it has none, although nobody has spawned it.

## Main results

* `ObjectMgr.mem_spawnGroupsByMap_load` — the groups listed for a map.
* `SpawnGroups.isSpawnGroupActive_updateSpawnGroupConditions` — the groups after an update.
* `SpawnGroups.active_as_called_iff` — when the groups of a map are active exactly as they should be.
-/

namespace IscServer.Maps

open List Function Option

open Conditions

/-! ### Loading -/

namespace ObjectMgr

/-- Each group that has a map is listed there once, and only there. -/
structure Listed (om : ObjectMgr) : Prop where
  nodup : ∀ mapId, (om.spawnGroupsByMap mapId).Nodup
  template : ∀ mapId, ∀ groupId ∈ om.spawnGroupsByMap mapId,
    ∃ data, om.spawnGroupDataStore groupId = some data ∧ data.mapId = mapId ∧
      mapId ≠ spawnGroupMapUnset
  mem : ∀ groupId data, om.spawnGroupDataStore groupId = some data → data.isSystem = false →
    data.mapId ≠ spawnGroupMapUnset → groupId ∈ om.spawnGroupsByMap data.mapId

variable {om : ObjectMgr}

/-- The templates alone list no group, and give no group but the default ones a map. -/
structure Unlisted (om : ObjectMgr) : Prop where
  spawnGroupsByMap : ∀ mapId, om.spawnGroupsByMap mapId = []
  mapId : ∀ groupId data, om.spawnGroupDataStore groupId = some data → data.isSystem = false →
    data.mapId = spawnGroupMapUnset

section

variable (h : Unlisted om)
include h

theorem Unlisted.loadSpawnGroupTemplate (row : ℕ × ℕ) :
    Unlisted (om.loadSpawnGroupTemplate row) := by
  refine ⟨h.spawnGroupsByMap, fun groupId data hdata hsystem => ?_⟩
  rw [ObjectMgr.loadSpawnGroupTemplate] at hdata
  by_cases hid : groupId = row.1
  · subst hid
    simp only [update_self, some_inj] at hdata
    rw [← hdata]
  · simp only [update_of_ne hid] at hdata
    exact h.mapId groupId data hdata hsystem

theorem Unlisted.addDefaultGroup {groupId flags : ℕ}
    (hflags : flags &&& SpawnGroupFlags.system ≠ 0) : Unlisted (om.addDefaultGroup groupId flags) := by
  rw [ObjectMgr.addDefaultGroup]
  cases om.spawnGroupDataStore groupId with
  | some _ => exact h
  | none =>
    refine ⟨h.spawnGroupsByMap, fun groupId' data hdata hsystem => ?_⟩
    by_cases hid : groupId' = groupId
    · subst hid
      simp only [update_self, some_inj] at hdata
      rw [← hdata, SpawnGroupTemplateData.isSystem, bne_eq_false_iff_eq] at hsystem
      exact absurd hsystem hflags
    · simp only [update_of_ne hid] at hdata
      exact h.mapId groupId' data hdata hsystem

theorem Unlisted.loadSpawnGroupTemplates (rows : List (ℕ × ℕ)) :
    Unlisted (om.loadSpawnGroupTemplates rows) := by
  have hrows : Unlisted (rows.foldl ObjectMgr.loadSpawnGroupTemplate om) := by
    induction rows generalizing om with
    | nil => exact h
    | cons row rows ih => exact ih (h.loadSpawnGroupTemplate row)
  exact (hrows.addDefaultGroup (by decide)).addDefaultGroup (by decide)

theorem Unlisted.listed : Listed om := by
  refine ⟨fun mapId => ?_, fun mapId groupId hmem => ?_, fun groupId data hdata hsystem hne => ?_⟩
  · rw [h.spawnGroupsByMap]
    exact nodup_nil
  · rw [h.spawnGroupsByMap] at hmem
    exact absurd hmem not_mem_nil
  · exact absurd (h.mapId groupId data hdata hsystem) hne

end

theorem Listed.joinSpawnGroup (h : Listed om) (groupId : ℕ) (spawnType : SpawnObjectType)
    (spawnId : ℕ) (data : SpawnMetadata) : Listed (om.joinSpawnGroup groupId spawnType spawnId data) :=
  ⟨h.nodup, h.template, h.mem⟩

/-- The first member of a group. -/
theorem Listed.setMap (h : Listed om) {groupId : ℕ} {groupTemplate : SpawnGroupTemplateData}
    (hstore : om.spawnGroupDataStore groupId = some groupTemplate)
    (hunset : groupTemplate.mapId = spawnGroupMapUnset) {mapId : ℕ}
    (hmapId : mapId ≠ spawnGroupMapUnset) :
    Listed { om with
      spawnGroupDataStore := Function.update om.spawnGroupDataStore groupId
        (some { groupTemplate with mapId := mapId })
      spawnGroupsByMap := Function.update om.spawnGroupsByMap mapId
        (om.spawnGroupsByMap mapId ++ [groupId]) } := by
  -- the group is not listed anywhere yet
  have hfresh (map : ℕ) : groupId ∉ om.spawnGroupsByMap map := by
    intro hmem
    obtain ⟨data, hdata, hmap, hne⟩ := h.template map groupId hmem
    rw [hstore, some_inj] at hdata
    rw [← hdata, hunset] at hmap
    exact hne hmap.symm
  have hmem_iff (map g : ℕ) : g ∈ Function.update om.spawnGroupsByMap mapId
      (om.spawnGroupsByMap mapId ++ [groupId]) map ↔
        g ∈ om.spawnGroupsByMap map ∨ (map = mapId ∧ g = groupId) := by
    by_cases hmap : map = mapId
    · subst hmap
      simp
    · simp [hmap]
  refine ⟨fun map => ?_, fun map g hg => ?_, fun g data hdata hsystem hne => ?_⟩
  · by_cases hmap : map = mapId
    · subst hmap
      simp only [update_self]
      refine nodup_append.mpr ⟨h.nodup map, nodup_singleton groupId, fun a ha b hb => ?_⟩
      rw [mem_singleton.mp hb]
      exact fun heq => hfresh map (heq ▸ ha)
    · simp only [update_of_ne hmap]
      exact h.nodup map
  · rcases (hmem_iff map g).mp hg with hg | ⟨rfl, rfl⟩
    · have hid : g ≠ groupId := fun heq => hfresh map (heq ▸ hg)
      simp only [update_of_ne hid]
      exact h.template map g hg
    · exact ⟨_, update_self .., rfl, hmapId⟩
  · refine (hmem_iff data.mapId g).mpr ?_
    by_cases hid : g = groupId
    · subst hid
      simp only [update_self, some_inj] at hdata
      exact Or.inr ⟨by rw [← hdata], rfl⟩
    · simp only [update_of_ne hid] at hdata
      exact Or.inl (h.mem g data hdata hsystem hne)

theorem Listed.loadSpawnGroup (h : Listed om) (row : ℕ × ℕ × ℕ) : Listed
    (om.loadSpawnGroup row) := by
  rw [ObjectMgr.loadSpawnGroup]
  split
  · exact h
  · split
    · exact h
    · next data _ =>
        split_ifs
        · exact h
        · split
          · exact h
          · next groupTemplate hstore =>
              split_ifs with hunset
              · exact (h.setMap hstore hunset data.mapId_ne).joinSpawnGroup ..
              · exact h
              · exact h.joinSpawnGroup ..

theorem Listed.loadSpawnGroups (h : Listed om) (rows : List (ℕ × ℕ × ℕ)) :
    Listed (om.loadSpawnGroups rows) := by
  induction rows generalizing om with
  | nil => exact h
  | cons row rows ih => exact ih (h.loadSpawnGroup row)

/-- **The groups of a map** after start-up. -/
theorem listed_load (spawnMetadata : SpawnObjectType → ℕ → Option SpawnMetadata)
    (templates : List (ℕ × ℕ)) (members : List (ℕ × ℕ × ℕ)) :
    Listed (load spawnMetadata templates members) := by
  have hunlisted : Unlisted
      { spawnMetadata := spawnMetadata
        spawnGroupDataStore := fun _ => none
        spawnGroupsByMap := fun _ => [] } :=
    ⟨fun _ => rfl, fun _ _ h => absurd h (some_ne_none _).symm⟩
  exact (hunlisted.loadSpawnGroupTemplates templates).listed.loadSpawnGroups members

end ObjectMgr

/-! ### One group -/

namespace SpawnGroups

section Group

variable {Object Map : Type} {c : MapContext Object Map} {s : SpawnGroups} {groupId g : ℕ}
  {data : SpawnGroupTemplateData} {state : Bool}

theorem setSpawnGroupActive_lastCall :
    (s.setSpawnGroupActive c groupId state).lastCall = s.lastCall := by
  rw [setSpawnGroupActive]
  split
  · rfl
  · split_ifs <;> rfl

/-- Other groups stay as they are. -/
theorem isSpawnGroupActive_setSpawnGroupActive_of_ne (hne : g ≠ groupId) :
    (s.setSpawnGroupActive c groupId state).isSpawnGroupActive c g = s.isSpawnGroupActive c g := by
  have hmem : g ∈ (s.setSpawnGroupActive c groupId state).toggledSpawnGroupIds ↔
      g ∈ s.toggledSpawnGroupIds := by
    rw [setSpawnGroupActive]
    split
    · rfl
    · split_ifs <;> simp [hne]
  simp only [isSpawnGroupActive, hmem]

/-- A group of the map that is not a system group. -/
def Own (c : MapContext Object Map) (groupId : ℕ) (data : SpawnGroupTemplateData) : Prop :=
  c.getSpawnGroupData groupId = some data ∧ data.isSystem = false

theorem Own.any (h : Own c groupId data) : (c.getSpawnGroupData groupId).any
    (!·.isSystem) = true := by
  rw [h.1, any_some, h.2]
  rfl

/-- A group becomes active, or inactive, whatever its default is. -/
theorem Own.setSpawnGroupActive (h : Own c groupId data) (s : SpawnGroups) (state : Bool) :
    (s.setSpawnGroupActive c groupId state).isSpawnGroupActive c groupId = state := by
  simp only [SpawnGroups.setSpawnGroupActive, isSpawnGroupActive, h.1, h.2]
  cases data.isManualSpawn <;> cases state <;> simp

/-- What a call for one group does: the group is spawned, or it is not active any more, and the other
groups stay as they are. -/
structure Called (c : MapContext Object Map) (s s' : SpawnGroups) (groupId : ℕ) (call : GroupCall) :
    Prop where
  active : ∀ data, Own c groupId data → s'.isSpawnGroupActive c groupId = decide (call = .spawn)
  others : ∀ g ≠ groupId, s'.isSpawnGroupActive c g = s.isSpawnGroupActive c g
  lastCall : s'.lastCall = Function.update s.lastCall groupId (some call)

section

variable (s : SpawnGroups) (groupId : ℕ)

theorem called_spawnGroupSpawn : Called c s (s.spawnGroupSpawn c groupId) groupId .spawn := by
  rw [spawnGroupSpawn]
  refine ⟨fun data hown => ?_, fun g hne => ?_, ?_⟩
  · rw [if_pos hown.any]
    exact hown.setSpawnGroupActive _ true
  · split_ifs
    · exact isSpawnGroupActive_setSpawnGroupActive_of_ne hne
    · rfl
  · split_ifs
    · exact setSpawnGroupActive_lastCall
    · rfl

theorem called_spawnGroupDespawn : Called c s (s.spawnGroupDespawn c groupId) groupId .despawn := by
  rw [spawnGroupDespawn]
  refine ⟨fun data hown => ?_, fun g hne => ?_, ?_⟩
  · rw [if_pos hown.any]
    exact hown.setSpawnGroupActive _ false
  · split_ifs
    · exact isSpawnGroupActive_setSpawnGroupActive_of_ne hne
    · rfl
  · split_ifs
    · exact setSpawnGroupActive_lastCall
    · rfl

theorem called_setSpawnGroupInactive :
    Called c s (s.setSpawnGroupInactive c groupId) groupId .inactivate :=
  ⟨fun _ hown => hown.setSpawnGroupActive _ false,
    fun _ hne => isSpawnGroupActive_setSpawnGroupActive_of_ne hne, setSpawnGroupActive_lastCall⟩

end

/-- A group that is spawned by hand is active only when the last call for it was `SpawnGroupSpawn`. -/
def ActiveAsCalled (c : MapContext Object Map) (s : SpawnGroups) : Prop :=
  ∀ groupId data, Own c groupId data → data.isManualSpawn = true →
    s.isSpawnGroupActive c groupId = true → s.lastCall groupId = some .spawn

/-- Every call keeps it. -/
theorem Called.activeAsCalled {s' : SpawnGroups} {call : GroupCall} (h : Called c s s' groupId call)
    (hs : ActiveAsCalled c s) : ActiveAsCalled c s' := by
  intro g data hown hmanual hactive
  by_cases hid : g = groupId
  · subst hid
    rw [h.active data hown, decide_eq_true_eq] at hactive
    rw [h.lastCall, update_self, hactive]
  · rw [h.others g hid] at hactive
    rw [h.lastCall, update_of_ne hid]
    exact hs g data hown hmanual hactive

end Group

/-! ### The loops -/

section Loop

variable {Object Map : Type} [DecidableEq Object] {c : MapContext Object Map} {s s' : SpawnGroups}
  {groupId g : ℕ} {data : SpawnGroupTemplateData} {worlds : ℕ → World Object Map}

/-- One group of an update: the group is called, or nothing happens. -/
theorem updateSpawnGroup_cases (h : s.updateSpawnGroup c worlds groupId = some s') :
    s' = s ∨ ∃ call, Called c s s' groupId call := by
  obtain ⟨data, -, rfl⟩ := map_eq_some_iff.mp h
  dsimp only
  split_ifs
  · exact Or.inr ⟨.despawn, called_spawnGroupDespawn s groupId⟩
  · exact Or.inl rfl
  · exact Or.inl rfl
  · exact Or.inr ⟨.spawn, called_spawnGroupSpawn s groupId⟩
  · exact Or.inr ⟨.despawn, called_spawnGroupDespawn s groupId⟩
  · exact Or.inr ⟨.inactivate, called_setSpawnGroupInactive s groupId⟩

theorem updateSpawnGroup_others (h : s.updateSpawnGroup c worlds groupId = some s')
    (hne : g ≠ groupId) :
    s'.isSpawnGroupActive c g = s.isSpawnGroupActive c g := by
  rcases updateSpawnGroup_cases h with rfl | ⟨call, hcalled⟩
  · rfl
  · exact hcalled.others g hne

/-- After its turn a group that is not spawned by hand follows its conditions. -/
theorem updateSpawnGroup_self (hown : Own c groupId data) (hmanual : data.isManualSpawn = false)
    (h : s.updateSpawnGroup c worlds groupId = some s') :
    s'.isSpawnGroupActive c groupId = c.isMeetingConditions (worlds groupId) groupId := by
  rw [updateSpawnGroup, hown.1, map_some, some_inj] at h
  simp only [hmanual, Bool.false_eq_true, if_false] at h
  split_ifs at h with hsame hmeet
  · rw [← h, hsame]
  · rw [← h, hmeet, (called_spawnGroupSpawn s groupId).active data hown]
    rfl
  · rw [← h, Bool.eq_false_of_not_eq_true hmeet, (called_spawnGroupDespawn s groupId).active data hown]
    rfl
  · rw [← h, Bool.eq_false_of_not_eq_true hmeet, (called_setSpawnGroupInactive s groupId).active data hown]
    rfl

/-- **An update** reaches the groups of the list: it keeps the groups that are spawned by hand as they
were called, and the others follow their conditions. -/
theorem foldlM_updateSpawnGroup {groupIds : List ℕ}
    (hdata : ∀ groupId ∈ groupIds, ∃ data, c.getSpawnGroupData groupId = some data) :
    ∃ s', groupIds.foldlM (fun s groupId => s.updateSpawnGroup c worlds groupId) s = some s' ∧
      (ActiveAsCalled c s → ActiveAsCalled c s') ∧
      (∀ g ∉ groupIds, s'.isSpawnGroupActive c g = s.isSpawnGroupActive c g) ∧
      ∀ groupId ∈ groupIds, ∀ data, Own c groupId data → data.isManualSpawn = false →
        s'.isSpawnGroupActive c groupId = c.isMeetingConditions (worlds groupId) groupId := by
  induction groupIds generalizing s with
  | nil => exact ⟨s, rfl, fun hs => hs, fun _ _ => rfl, fun _ h => absurd h not_mem_nil⟩
  | cons groupId groupIds ih =>
    obtain ⟨data, hdata'⟩ := hdata groupId mem_cons_self
    obtain ⟨t, ht⟩ : ∃ t, s.updateSpawnGroup c worlds groupId = some t := by
      rw [updateSpawnGroup, hdata']
      exact ⟨_, rfl⟩
    have hcalled (hs : ActiveAsCalled c s) : ActiveAsCalled c t := by
      rcases updateSpawnGroup_cases ht with rfl | ⟨call, hcall⟩
      · exact hs
      · exact hcall.activeAsCalled hs
    obtain ⟨s', hs', hkept, hothers, hfollow⟩ :=
      ih (s := t) fun g hg => hdata g (mem_cons_of_mem _ hg)
    refine ⟨s', by rw [foldlM_cons, ht]; exact hs', fun hs => hkept (hcalled hs),
      fun g hg => ?_, fun g hg => ?_⟩
    · rw [mem_cons, not_or] at hg
      rw [hothers g hg.2, updateSpawnGroup_others ht hg.1]
    · intro data hown hmanual
      by_cases hlater : g ∈ groupIds
      · exact hfollow g hlater data hown hmanual
      · obtain rfl := (mem_cons.mp hg).resolve_right hlater
        rw [hothers g hlater, updateSpawnGroup_self hown hmanual ht]

omit [DecidableEq Object] in
/-- **`InitSpawnGroupState`** makes every group of the list follow its conditions, also those that are
spawned by hand. -/
theorem foldl_setSpawnGroupActive {groupIds : List ℕ} (met : ℕ → Bool) :
    (groupIds.foldl (fun s groupId => s.setSpawnGroupActive c groupId (met groupId)) s).lastCall =
        s.lastCall ∧
      (∀ g ∉ groupIds, (groupIds.foldl (fun s groupId => s.setSpawnGroupActive c groupId (met groupId))
        s).isSpawnGroupActive c g = s.isSpawnGroupActive c g) ∧
      ∀ groupId ∈ groupIds, ∀ data, Own c groupId data →
        (groupIds.foldl (fun s groupId => s.setSpawnGroupActive c groupId (met groupId))
          s).isSpawnGroupActive c groupId = met groupId := by
  induction groupIds generalizing s with
  | nil => exact ⟨rfl, fun _ _ => rfl, fun _ h => absurd h not_mem_nil⟩
  | cons groupId groupIds ih =>
    obtain ⟨hlast, hothers, hmet⟩ := ih (s := s.setSpawnGroupActive c groupId (met groupId))
    refine ⟨hlast.trans setSpawnGroupActive_lastCall, fun g hg => ?_, fun g hg data hown => ?_⟩
    · rw [mem_cons, not_or] at hg
      rw [foldl_cons, hothers g hg.2, isSpawnGroupActive_setSpawnGroupActive_of_ne hg.1]
    · by_cases hlater : g ∈ groupIds
      · exact hmet g hlater data hown
      · obtain rfl := (mem_cons.mp hg).resolve_right hlater
        rw [foldl_cons, hothers g hlater, hown.setSpawnGroupActive]

end Loop

/-! ### Runs -/

section Run

variable {Object Map : Type} [DecidableEq Object] {c : MapContext Object Map} {s s' : SpawnGroups}
  {toggled : Finset ℕ} {worlds : ℕ → World Object Map}

/-- The groups of a map that exists. -/
structure OfMap (c : MapContext Object Map) : Prop where
  listed : c.objectMgr.Listed
  mapId : c.mapId ≠ spawnGroupMapUnset

omit [DecidableEq Object] in
theorem OfMap.getSpawnGroupData (h : OfMap c) {groupId : ℕ}
    (hmem : groupId ∈ c.objectMgr.spawnGroupsByMap c.mapId) :
    ∃ data, c.getSpawnGroupData groupId = some data := by
  obtain ⟨data, hstore, hmap, -⟩ := h.listed.template c.mapId groupId hmem
  refine ⟨data, ?_⟩
  rw [MapContext.getSpawnGroupData, hstore, filter_some, hmap, beq_self_eq_true, Bool.or_true,
    if_pos rfl]

omit [DecidableEq Object] in
/-- A group of the map is in its list. -/
theorem OfMap.mem (h : OfMap c) {groupId : ℕ} {data : SpawnGroupTemplateData}
    (hown : Own c groupId data) : groupId ∈ c.objectMgr.spawnGroupsByMap c.mapId := by
  obtain ⟨hdata, hsystem⟩ := hown
  obtain ⟨hstore, hmap⟩ := filter_eq_some_iff.mp hdata
  rw [hsystem, Bool.false_or, beq_iff_eq] at hmap
  exact hmap ▸ h.listed.mem groupId data hstore hsystem (hmap ▸ h.mapId)

/-- After an update a group that is not spawned by hand is active exactly when its conditions hold. -/
theorem isSpawnGroupActive_updateSpawnGroupConditions (h : OfMap c) :
    ∃ s', s.updateSpawnGroupConditions c worlds = some s' ∧
      (ActiveAsCalled c s → ActiveAsCalled c s') ∧
      ∀ groupId data, Own c groupId data → data.isManualSpawn = false →
        s'.isSpawnGroupActive c groupId = c.isMeetingConditions (worlds groupId) groupId := by
  obtain ⟨s', hs', hkept, -, hfollow⟩ := (@foldlM_updateSpawnGroup _ _ _ c s worlds)
    fun _ hmem => h.getSpawnGroupData hmem
  exact ⟨s', hs', hkept, fun groupId data hown => hfollow groupId (h.mem hown) data hown⟩

/-- Each operation keeps the groups that are spawned by hand as they were called. -/
theorem step_activeAsCalled (h : OfMap c) (s : SpawnGroups) (op : GroupOp Object Map) :
    ∃ s', s.step c op = some s' ∧ (ActiveAsCalled c s → ActiveAsCalled c s') := by
  cases op with
  | updateSpawnGroupConditions worlds =>
    obtain ⟨s', hs', hkept, -⟩ :=
      (@isSpawnGroupActive_updateSpawnGroupConditions _ _ _ _ s worlds) h
    exact ⟨s', hs', hkept⟩
  | spawnGroupSpawn groupId => exact ⟨_, rfl, (called_spawnGroupSpawn s groupId).activeAsCalled⟩
  | spawnGroupDespawn groupId => exact ⟨_, rfl, (called_spawnGroupDespawn s groupId).activeAsCalled⟩
  | setSpawnGroupInactive groupId =>
    exact ⟨_, rfl, (called_setSpawnGroupInactive s groupId).activeAsCalled⟩

theorem foldlM_step_activeAsCalled (h : OfMap c) (s : SpawnGroups)
    (ops : List (GroupOp Object Map)) :
    ∃ s', ops.foldlM (fun s op => s.step c op) s = some s' ∧
      (ActiveAsCalled c s → ActiveAsCalled c s') := by
  induction ops generalizing s with
  | nil => exact ⟨s, rfl, fun hs => hs⟩
  | cons op ops ih =>
    obtain ⟨t, ht, hkept⟩ := step_activeAsCalled h s op
    obtain ⟨s', hs', hkept'⟩ := ih t
    exact ⟨s', by rw [foldlM_cons, ht]; exact hs', fun hs => hkept' (hkept hs)⟩

/-- Every group of a new map follows its conditions. -/
theorem isSpawnGroupActive_run_nil (h : OfMap c) :
    ∃ s, run c toggled worlds [] = some s ∧ (∀ groupId, s.lastCall groupId = none) ∧
      ∀ groupId data, Own c groupId data →
        s.isSpawnGroupActive c groupId = c.isMeetingConditions (worlds groupId) groupId := by
  obtain ⟨hlast, -, hmet⟩ := (@foldl_setSpawnGroupActive _ _ c { toggledSpawnGroupIds := toggled, lastCall := fun _ => none } (c.objectMgr.spawnGroupsByMap c.mapId))
    fun groupId => c.isMeetingConditions (worlds groupId) groupId
  exact ⟨_, rfl, fun groupId => congrFun hlast groupId,
    fun groupId data hown => hmet groupId (h.mem hown) data hown⟩

/-- The groups of a map are active as they should be: a group that is spawned by hand is active only
when the last call for it was `SpawnGroupSpawn`, and another one is active exactly when its conditions
hold, right after the map is created and right after each update. -/
structure ActiveAsTheyShouldBe (c : MapContext Object Map) (toggled : Finset ℕ)
    (worlds : ℕ → World Object Map) : Prop where
  manual : ∀ ops s, run c toggled worlds ops = some s → ActiveAsCalled c s
  init : ∀ s, run c toggled worlds [] = some s → ∀ groupId data, Own c groupId data →
    data.isManualSpawn = false →
      s.isSpawnGroupActive c groupId = c.isMeetingConditions (worlds groupId) groupId
  update : ∀ ops worlds' s, run c toggled worlds (ops ++ [.updateSpawnGroupConditions worlds']) = some s →
    ∀ groupId data, Own c groupId data → data.isManualSpawn = false →
      s.isSpawnGroupActive c groupId = c.isMeetingConditions (worlds' groupId) groupId

/-- **Active spawn groups**: no run of a map that exists aborts, and the groups are active as they should
be if and only if no group that is spawned by hand meets its conditions when the map is created. -/
theorem active_as_called_iff {spawnMetadata : SpawnObjectType → ℕ → Option SpawnMetadata}
    {templates : List (ℕ × ℕ)} {members : List (ℕ × ℕ × ℕ)}
    (hload : c.objectMgr = ObjectMgr.load spawnMetadata templates members)
    (hmapId : c.mapId ≠ spawnGroupMapUnset) :
    (∀ ops, ∃ s, run c toggled worlds ops = some s) ∧
      (ActiveAsTheyShouldBe c toggled worlds ↔
        ∀ groupId data, Own c groupId data → data.isManualSpawn = true →
          c.isMeetingConditions (worlds groupId) groupId = false) := by
  have h : OfMap c := ⟨hload ▸ ObjectMgr.listed_load spawnMetadata templates members, hmapId⟩
  obtain ⟨start, hstart, hlast, hinit⟩ := (@isSpawnGroupActive_run_nil _ _ _ _ toggled worlds) h
  have hrun (ops : List (GroupOp Object Map)) :
      run c toggled worlds ops = ops.foldlM (fun s op => s.step c op) start := by
    obtain rfl := Option.some.inj hstart
    rfl
  constructor
  · intro ops
    obtain ⟨s, hs, -⟩ := foldlM_step_activeAsCalled h start ops
    exact ⟨s, (hrun ops).trans hs⟩
  · constructor
    · intro hgood groupId data hown hmanual
      rw [← hinit groupId data hown, ← Bool.not_eq_true]
      intro hactive
      have hcall := hgood.manual [] start hstart groupId data hown hmanual hactive
      rw [hlast] at hcall
      cases hcall
    · intro hunmet
      have hstartCalled : ActiveAsCalled c start := by
        intro groupId data hown hmanual hactive
        rw [hinit groupId data hown, hunmet groupId data hown hmanual] at hactive
        cases hactive
      refine ⟨fun ops s hs => ?_, fun s hs groupId data hown _ => ?_,
        fun ops worlds' s hs groupId data hown hmanual => ?_⟩
      · obtain ⟨s', hs', hkept⟩ := foldlM_step_activeAsCalled h start ops
        rw [hrun, hs', some_inj] at hs
        exact hs ▸ hkept hstartCalled
      · obtain rfl := Option.some.inj (hstart.symm.trans hs)
        exact hinit groupId data hown
      · obtain ⟨t, ht, -⟩ := foldlM_step_activeAsCalled h start ops
        obtain ⟨s', hs', -, hfollow⟩ :=
          (@isSpawnGroupActive_updateSpawnGroupConditions _ _ _ _ t worlds') h
        rw [hrun, foldlM_append, ht, bind_eq_bind, bind_some, foldlM_cons, step, hs'] at hs
        exact Option.some.inj hs ▸ hfollow groupId data hown hmanual

end Run

/-! ### A group that is spawned by hand -/

section Example

/-- No lists of conditions are kept by number. -/
def withoutReferences : ConditionReferenceStore fun _ => true := noReferences

/-- A group with one creature on a map, which is spawned by hand. -/
def handSpawned : ObjectMgr :=
  ObjectMgr.load
    (fun spawnType spawnId =>
      if spawnType = .creature ∧ spawnId = 7 then
        some { mapId := 30, spawnGroup := 0, mapId_ne := by decide }
      else none)
    [(5, 0x04)] [(5, 0, 7)]

/-- The map of the group, with conditions on it. -/
def handSpawnedMap (conditions : Option (List Condition)) : MapContext Unit Unit where
  map := ()
  mapId := 30
  objectMgr := handSpawned
  lookup := fun _ => true
  references := withoutReferences
  conditionStore sourceType entry :=
    if sourceType = .spawnGroup ∧ entry = 5 then conditions else none

/-- A group that is spawned by hand and has no conditions is active on a new map, although
`SpawnGroupSpawn` has not been called. -/
theorem handSpawned_active :
    ∃ s data, run (handSpawnedMap none) ∅ (fun _ => default) [] = some s ∧
      Own (handSpawnedMap none) 5 data ∧ data.isManualSpawn = true ∧
      s.isSpawnGroupActive (handSpawnedMap none) 5 = true ∧ s.lastCall 5 = none :=
  ⟨_, { groupId := 5, mapId := 30, flags := 4 }, rfl, ⟨rfl, rfl⟩, rfl, rfl, rfl⟩

/-- With a condition on an event that is not active its groups are active as they should be. -/
theorem active_as_called_iff_handSpawned :
    ActiveAsTheyShouldBe (handSpawnedMap (some [{ conditionType := .activeEvent }])) ∅
      fun _ => default := by
  refine (active_as_called_iff rfl (by decide)).2.mpr fun groupId data hown _ => ?_
  have hmem := OfMap.mem ⟨ObjectMgr.listed_load .., by decide⟩ hown
  obtain rfl : groupId = 5 := mem_singleton.mp hmem
  rfl

end Example

end SpawnGroups

end IscServer.Maps
