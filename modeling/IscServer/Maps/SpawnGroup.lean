import IscServer.Conditions.ConditionMgr

/-!
# Spawn Groups

Spawns are gathered in groups, and a map respawns the members of its active groups only. A group is
active by default, or inactive when it is to be spawned by hand; the map keeps the groups that have been
toggled away from their default. When a map is created, and again while it is updated, the conditions of
its groups are looked at.

`lastCall` is not in the source: it is the last call of `SpawnGroupSpawn`, `SpawnGroupDespawn` or
`SetSpawnGroupInactive` for a group.

## Main definitions

* `ObjectMgr.loadSpawnGroupTemplates`, `ObjectMgr.loadSpawnGroups` — the groups and their maps.
* `SpawnGroups.initSpawnGroupState`, `SpawnGroups.updateSpawnGroupConditions` — what a map makes of the
  conditions.
* `SpawnGroups.run` — a map from its creation on.
-/

namespace IscServer.Maps

open Conditions

/-! ### The groups -/

namespace SpawnGroupFlags

def system : ℕ := 0x01
def compatibilityMode : ℕ := 0x02
def manualSpawn : ℕ := 0x04
def dynamicSpawnRate : ℕ := 0x08
def escortQuestNpc : ℕ := 0x10
def despawnOnConditionFailure : ℕ := 0x20

/-- `SPAWNGROUP_FLAGS_ALL`. -/
def all : ℕ :=
  system ||| compatibilityMode ||| manualSpawn ||| dynamicSpawnRate ||| escortQuestNpc |||
    despawnOnConditionFailure

/-- `SPAWNGROUP_FLAGS_ALL` without the flag for groups that are spawned by hand. -/
def allButManualSpawn : ℕ :=
  system ||| compatibilityMode ||| dynamicSpawnRate ||| escortQuestNpc ||| despawnOnConditionFailure

end SpawnGroupFlags

/-- `SPAWNGROUP_MAP_UNSET`. -/
def spawnGroupMapUnset : ℕ := 0xFFFFFFFF

/-- `SpawnGroupTemplateData`. -/
structure SpawnGroupTemplateData where
  groupId : ℕ
  mapId : ℕ
  flags : ℕ
  deriving DecidableEq

namespace SpawnGroupTemplateData

def isSystem (data : SpawnGroupTemplateData) : Bool := data.flags &&& SpawnGroupFlags.system != 0

def isManualSpawn (data : SpawnGroupTemplateData) : Bool :=
  data.flags &&& SpawnGroupFlags.manualSpawn != 0

def isDespawnOnConditionFailure (data : SpawnGroupTemplateData) : Bool :=
  data.flags &&& SpawnGroupFlags.despawnOnConditionFailure != 0

end SpawnGroupTemplateData

/-- `SpawnObjectType`. -/
inductive SpawnObjectType
  | creature | gameobject
  deriving DecidableEq

/-- A valid spawn type of the database. -/
def SpawnObjectType.ofNat? : ℕ → Option SpawnObjectType
  | 0 => some .creature
  | 1 => some .gameobject
  | _ => none

/-- `SpawnMetadata`, with the number of its group. A spawn is loaded only on a map that exists. -/
structure SpawnMetadata where
  mapId : ℕ
  spawnGroup : ℕ
  mapId_ne : mapId ≠ spawnGroupMapUnset

/-- The spawns and groups of `ObjectMgr`. -/
structure ObjectMgr where
  spawnMetadata : SpawnObjectType → ℕ → Option SpawnMetadata
  spawnGroupDataStore : ℕ → Option SpawnGroupTemplateData
  spawnGroupsByMap : ℕ → List ℕ

namespace ObjectMgr

/-- A row of `spawn_group_template`: unknown flags are dropped, and a system group cannot be spawned by
hand. -/
def loadSpawnGroupTemplate (om : ObjectMgr) (row : ℕ × ℕ) : ObjectMgr :=
  let flags := row.2 &&& SpawnGroupFlags.all
  let flags := if flags &&& SpawnGroupFlags.system != 0 && flags &&& SpawnGroupFlags.manualSpawn != 0
    then flags &&& SpawnGroupFlags.allButManualSpawn else flags
  { om with
    spawnGroupDataStore := Function.update om.spawnGroupDataStore row.1
      (some { groupId := row.1, mapId := spawnGroupMapUnset, flags := flags }) }

/-- A default group that is missing in the database. -/
def addDefaultGroup (om : ObjectMgr) (groupId flags : ℕ) : ObjectMgr :=
  match om.spawnGroupDataStore groupId with
  | some _ => om
  | none =>
    { om with
      spawnGroupDataStore := Function.update om.spawnGroupDataStore groupId
        (some { groupId := groupId, mapId := 0, flags := flags }) }

/-- `ObjectMgr::LoadSpawnGroupTemplates`. -/
def loadSpawnGroupTemplates (om : ObjectMgr) (rows : List (ℕ × ℕ)) : ObjectMgr :=
  ((rows.foldl loadSpawnGroupTemplate om).addDefaultGroup 0 SpawnGroupFlags.system).addDefaultGroup 1
    (SpawnGroupFlags.system ||| SpawnGroupFlags.compatibilityMode)

/-- A spawn joins a group. -/
def joinSpawnGroup (om : ObjectMgr) (groupId : ℕ) (spawnType : SpawnObjectType) (spawnId : ℕ)
    (data : SpawnMetadata) : ObjectMgr :=
  { om with
    spawnMetadata := Function.update om.spawnMetadata spawnType
      (Function.update (om.spawnMetadata spawnType) spawnId
        (some { data with spawnGroup := groupId })) }

/-- A row of `spawn_group`: the first member decides the map of its group. -/
def loadSpawnGroup (om : ObjectMgr) (row : ℕ × ℕ × ℕ) : ObjectMgr :=
  match SpawnObjectType.ofNat? row.2.1 with
  | none => om
  | some spawnType =>
    match om.spawnMetadata spawnType row.2.2 with
    | none => om
    | some data =>
      if data.spawnGroup ≠ 0 then om
      else
        match om.spawnGroupDataStore row.1 with
        | none => om
        | some groupTemplate =>
          if groupTemplate.mapId = spawnGroupMapUnset then
            let om := { om with
              spawnGroupDataStore := Function.update om.spawnGroupDataStore row.1
                (some { groupTemplate with mapId := data.mapId })
              spawnGroupsByMap := Function.update om.spawnGroupsByMap data.mapId
                (om.spawnGroupsByMap data.mapId ++ [row.1]) }
            om.joinSpawnGroup row.1 spawnType row.2.2 data
          else if groupTemplate.mapId ≠ data.mapId && !groupTemplate.isSystem then om
          else om.joinSpawnGroup row.1 spawnType row.2.2 data

/-- `ObjectMgr::LoadSpawnGroups`. -/
def loadSpawnGroups (om : ObjectMgr) (rows : List (ℕ × ℕ × ℕ)) : ObjectMgr := rows.foldl loadSpawnGroup om

/-- The groups after start-up: the spawns, the templates and the members are loaded in this order. -/
def load (spawnMetadata : SpawnObjectType → ℕ → Option SpawnMetadata) (templates : List (ℕ × ℕ))
    (members : List (ℕ × ℕ × ℕ)) : ObjectMgr :=
  (loadSpawnGroupTemplates
    { spawnMetadata := spawnMetadata
      spawnGroupDataStore := fun _ => none
      spawnGroupsByMap := fun _ => [] } templates).loadSpawnGroups members

end ObjectMgr

/-! ### The groups of a map -/

/-- A call that a script can make for a group. -/
inductive GroupCall
  | spawn | despawn | inactivate
  deriving DecidableEq

/-- The toggled groups of a map, and the last call for each group. -/
structure SpawnGroups where
  toggledSpawnGroupIds : Finset ℕ
  lastCall : ℕ → Option GroupCall

/-- What a map knows of the world: its own number, the groups, and the conditions. -/
structure MapContext (Object Map : Type) where
  map : Map
  mapId : ℕ
  objectMgr : ObjectMgr
  lookup : Condition → Bool
  references : ConditionReferenceStore lookup
  conditionStore : ConditionSourceType → ℕ → Option (List Condition)

namespace MapContext

variable {Object Map : Type} [DecidableEq Object] (c : MapContext Object Map)

/-- `Map::GetSpawnGroupData`. -/
def getSpawnGroupData (groupId : ℕ) : Option SpawnGroupTemplateData :=
  (c.objectMgr.spawnGroupDataStore groupId).filter fun data => data.isSystem || data.mapId == c.mapId

/-- The conditions of a group. -/
def isMeetingConditions (w : World Object Map) (groupId : ℕ) : Bool :=
  isMapMeetingNotGroupedConditions c.references c.conditionStore w .spawnGroup groupId c.map

end MapContext

namespace SpawnGroups

variable {Object Map : Type} [DecidableEq Object] (c : MapContext Object Map) (s : SpawnGroups)

/-- `Map::SetSpawnGroupActive`. -/
def setSpawnGroupActive (groupId : ℕ) (state : Bool) : SpawnGroups :=
  match c.getSpawnGroupData groupId with
  | none => s
  | some data =>
    if data.isSystem then s
    else if state != !data.isManualSpawn then
      { s with toggledSpawnGroupIds := insert groupId s.toggledSpawnGroupIds }
    else { s with toggledSpawnGroupIds := s.toggledSpawnGroupIds.erase groupId }

/-- `Map::IsSpawnGroupActive`. -/
def isSpawnGroupActive (groupId : ℕ) : Bool :=
  match c.getSpawnGroupData groupId with
  | none => false
  | some data =>
    if data.isSystem then true
    else decide (groupId ∈ s.toggledSpawnGroupIds) != !data.isManualSpawn

/-- A call for a group. -/
def called (groupId : ℕ) (call : GroupCall) : SpawnGroups :=
  { s with lastCall := Function.update s.lastCall groupId (some call) }

/-- The state of `Map::SpawnGroupSpawn`, which is blocked for a group that is not of this map. -/
def spawnGroupSpawn (groupId : ℕ) : SpawnGroups :=
  let s := s.called groupId .spawn
  if (c.getSpawnGroupData groupId).any (!·.isSystem) then s.setSpawnGroupActive c groupId true else s

/-- The state of `Map::SpawnGroupDespawn`. -/
def spawnGroupDespawn (groupId : ℕ) : SpawnGroups :=
  let s := s.called groupId .despawn
  if (c.getSpawnGroupData groupId).any (!·.isSystem) then s.setSpawnGroupActive c groupId false else s

/-- `Map::SetSpawnGroupInactive`. -/
def setSpawnGroupInactive (groupId : ℕ) : SpawnGroups :=
  (s.called groupId .inactivate).setSpawnGroupActive c groupId false

/-- `Map::InitSpawnGroupState`; the conditions of a group are evaluated in the world at its turn. -/
def initSpawnGroupState (worlds : ℕ → World Object Map) : SpawnGroups :=
  (c.objectMgr.spawnGroupsByMap c.mapId).foldl
    (fun s groupId => s.setSpawnGroupActive c groupId (c.isMeetingConditions (worlds groupId) groupId)) s

/-- One group in `Map::UpdateSpawnGroupConditions`; the source aborts at a group without a template. -/
def updateSpawnGroup (worlds : ℕ → World Object Map) (groupId : ℕ) : Option SpawnGroups :=
  (c.getSpawnGroupData groupId).map fun spawnGroupTemplate =>
    let isActive := s.isSpawnGroupActive c groupId
    let shouldBeActive := c.isMeetingConditions (worlds groupId) groupId
    if spawnGroupTemplate.isManualSpawn then
      if isActive && !shouldBeActive && spawnGroupTemplate.isDespawnOnConditionFailure then
        s.spawnGroupDespawn c groupId
      else s
    else if isActive = shouldBeActive then s
    else if shouldBeActive then s.spawnGroupSpawn c groupId
    else if spawnGroupTemplate.isDespawnOnConditionFailure then s.spawnGroupDespawn c groupId
    else s.setSpawnGroupInactive c groupId

/-- `Map::UpdateSpawnGroupConditions`. -/
def updateSpawnGroupConditions (worlds : ℕ → World Object Map) : Option SpawnGroups :=
  (c.objectMgr.spawnGroupsByMap c.mapId).foldlM (fun s groupId => s.updateSpawnGroup c worlds groupId) s

end SpawnGroups

/-- An operation on the groups of a map. -/
inductive GroupOp (Object Map : Type)
  | updateSpawnGroupConditions (worlds : ℕ → World Object Map)
  | spawnGroupSpawn (groupId : ℕ)
  | spawnGroupDespawn (groupId : ℕ)
  | setSpawnGroupInactive (groupId : ℕ)

namespace SpawnGroups

variable {Object Map : Type} [DecidableEq Object] (c : MapContext Object Map) (s : SpawnGroups)

/-- One operation. -/
def step : GroupOp Object Map → Option SpawnGroups
  | .updateSpawnGroupConditions worlds => s.updateSpawnGroupConditions c worlds
  | .spawnGroupSpawn groupId => some (s.spawnGroupSpawn c groupId)
  | .spawnGroupDespawn groupId => some (s.spawnGroupDespawn c groupId)
  | .setSpawnGroupInactive groupId => some (s.setSpawnGroupInactive c groupId)

/-- A map whose groups have been toggled in some way, `InitSpawnGroupState`, and the operations since. -/
def run (toggled : Finset ℕ) (worlds : ℕ → World Object Map) (ops : List (GroupOp Object Map)) :
    Option SpawnGroups :=
  ops.foldlM (fun s op => s.step c op)
    (initSpawnGroupState c { toggledSpawnGroupIds := toggled, lastCall := fun _ => none } worlds)

end SpawnGroups

end IscServer.Maps
