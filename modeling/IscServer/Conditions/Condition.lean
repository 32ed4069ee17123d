import Mathlib.Data.Nat.Bitwise

/-!
# Conditions

A condition asks one question about one of the targets of a `ConditionSourceInfo`: whether the unit
is alive, the player has a quest, a creature is near. Its negation flag turns the answer around.
Beside the evaluation there is a second, coarser reading of a condition, `getSearcherTypeMask`: the
kinds of objects for which it can be met, as a mask that a grid search uses to skip the containers of
the other kinds.

What the conditions ask of the world is a record of queries, one for each call of the source, so that
the evaluation is about any world, any objects and any map.

## Main definitions

* `Condition.meets` — the evaluation of one condition.
* `Condition.getSearcherTypeMask` — the kinds of objects for which it can be met.
* `Condition.isConditionTypeValid` — the checks a condition passes when it is loaded.
-/

namespace IscServer.Conditions

/-- `ConditionTypes`. -/
inductive ConditionTypes
  | none | aura | item | itemEquipped | zoneid | reputationRank | team | skill | questrewarded
  | questtaken | drunkenstate | worldState | activeEvent | instanceInfo | questNone | class_ | race
  | achievement | title | spawnmask | gender | unitState | mapid | areaid | creatureType | spell
  | phasemask | level | questComplete | nearCreature | nearGameobject | objectEntryGuid | typeMask
  | relationTo | reactionTo | distanceTo | alive | hpVal | hpPct | realmAchievement | inWater
  | terrainSwap | standState | dailyQuestDone | charmed | petType | taxi | queststate
  | questObjectiveProgress | difficultyId | gamemaster | objectEntryGuidMaster | typeMaskMaster
  | battlePetCount | scenarioStep | sceneInProgress | playerCondition | privateObject | stringId
  | label | groupStatus
  deriving DecidableEq

/-- `ConditionSourceType`: what a condition is attached to. -/
inductive ConditionSourceType
  | none | creatureLootTemplate | disenchantLootTemplate | fishingLootTemplate
  | gameobjectLootTemplate | itemLootTemplate | mailLootTemplate | millingLootTemplate
  | pickpocketingLootTemplate | prospectingLootTemplate | referenceLootTemplate
  | skinningLootTemplate | spellLootTemplate | spellImplicitTarget | gossipMenu | gossipMenuOption
  | creatureTemplateVehicle | spell | spellClickEvent | questAvailable | vehicleSpell | smartEvent
  | npcVendor | spellProc | terrainSwap | phase | graveyard | areatrigger | conversationLine
  | areatriggerClientTriggered | trainerSpell | objectIdVisibility | spawnGroup
  deriving DecidableEq

/-- A row of the `conditions` table. A reference has the number of another list in `referenceId` and
no condition type of its own. -/
structure Condition where
  sourceType : ConditionSourceType := .none
  sourceGroup : ℕ := 0
  sourceEntry : ℤ := 0
  sourceId : ℕ := 0
  elseGroup : ℕ := 0
  conditionType : ConditionTypes := .none
  conditionValue1 : ℕ := 0
  conditionValue2 : ℕ := 0
  conditionValue3 : ℕ := 0
  conditionStringValue1 : String := ""
  referenceId : ℕ := 0
  scriptId : ℕ := 0
  conditionTarget : ℕ := 0
  negativeCondition : Bool := false
  deriving DecidableEq

/-! ### Objects on the grid -/

/-- The `TypeID`s of world objects. -/
inductive TypeID
  | unit | player | gameobject | dynamicobject | corpse | areatrigger
  deriving DecidableEq, Inhabited

namespace TypeID

/-- `TYPEID_UNIT` and the others. -/
def toNat : TypeID → ℕ
  | unit => 3
  | player => 4
  | gameobject => 5
  | dynamicobject => 6
  | corpse => 7
  | areatrigger => 8

/-- `TYPEMASK_UNIT` and the others. -/
def typeMask (t : TypeID) : ℕ := 1 <<< t.toNat

/-- `ObjectTypeMask`: an object is of its own type, and a player is a unit too. -/
def objectTypeMask : TypeID → ℕ
  | player => 1 ||| unit.typeMask ||| player.typeMask
  | t => 1 ||| t.typeMask

/-- The bit of the object's container among the `GRID_MAP_TYPE_MASK`s. -/
def gridBit : TypeID → ℕ
  | corpse => 0
  | unit => 1
  | dynamicobject => 2
  | gameobject => 3
  | player => 4
  | areatrigger => 5

/-- `GRID_MAP_TYPE_MASK_CORPSE` and the others. -/
def gridMapTypeMask (t : TypeID) : ℕ := 1 <<< t.gridBit

end TypeID

/-- `GRID_MAP_TYPE_MASK_ALL`. -/
def gridMapTypeMaskAll : ℕ := 0x3F

/-- `CompareValues`: the load check leaves no other comparison, the source aborts there. -/
def compareValues (type val1 val2 : ℕ) : Bool :=
  match type with
  | 0 => val1 == val2
  | 1 => val1 > val2
  | 2 => val1 < val2
  | 3 => val1 ≥ val2
  | 4 => val1 ≤ val2
  | _ => false

/-! ### What the conditions ask of the world -/

/-- The data of an `InstanceScript`. -/
structure InstanceScript where
  getData : ℕ → ℕ
  getGuidData : ℕ → ℕ
  getBossState : ℕ → ℕ
  getData64 : ℕ → ℕ

/-- `ConditionSourceInfo`: the objects a condition can look at, and the map. -/
structure ConditionSourceInfo (Object Map : Type) where
  conditionTargets : ℕ → Option Object
  conditionMap : Map

/-- The queries of the conditions. Comparisons of floats are queries of their own. -/
structure World (Object Map : Type) where
  isActiveEvent : ℕ → Bool
  getWorldState : ℕ → ℕ
  /-- The achievement exists and is completed on the realm. -/
  isRealmCompleted : ℕ → Bool
  isDungeon : Map → Bool
  getInstanceScript : Map → Option InstanceScript
  getId : Map → ℕ
  getDifficultyID : Map → ℕ
  getTypeId : Object → TypeID
  getZoneId : Object → ℕ
  getAreaId : Object → ℕ
  getEntry : Object → ℕ
  getSpawnId : Object → ℕ
  getPhaseMask : Object → ℕ
  getSpawnMode : Object → ℕ
  findNearestCreature : Object → ℕ → ℕ → Bool → Bool
  findNearestGameObject : Object → ℕ → ℕ → Bool
  /-- `CompareValues` of the distance between two objects and a number of yards. -/
  compareDistance : ℕ → Object → Object → ℕ → Bool
  hasStringId : Object → String → Bool
  getCreatureType : Object → ℕ
  hasAuraEffect : Object → ℕ → ℕ → Bool
  getClassMask : Object → ℕ
  getRaceMask : Object → ℕ
  getLevel : Object → ℕ
  isInPartyWith : Object → Object → Bool
  isInRaidWith : Object → Object → Bool
  getGUID : Object → ℕ
  getOwnerGUID : Object → ℕ
  getCreatorGUID : Object → ℕ
  isOnVehicle : Object → Object → Bool
  getReactionTo : Object → Object → ℕ
  isAlive : Object → Bool
  getHealth : Object → ℕ
  /-- `CompareValues` of the health percentage of a unit and a number. -/
  compareHealthPct : ℕ → Object → ℕ → Bool
  hasUnitState : Object → ℕ → Bool
  isInWater : Object → Bool
  getStandState : Object → ℕ
  isStandState : Object → Bool
  isSitState : Object → Bool
  isCharmed : Object → Bool
  hasItemCount : Object → ℕ → ℕ → Bool → Bool
  hasItemOrGemWithIdEquipped : Object → ℕ → ℕ → Bool
  /-- The rank with a faction, when the faction exists. -/
  getRank : Object → ℕ → Option ℕ
  hasAchieved : Object → ℕ → Bool
  getTeam : Object → ℕ
  getNativeGender : Object → ℕ
  hasSkill : Object → ℕ → Bool
  getBaseSkillValue : Object → ℕ → ℕ
  getQuestRewardStatus : Object → ℕ → Bool
  getQuestStatus : Object → ℕ → ℕ
  hasSpell : Object → ℕ → Bool
  getDrunkValue : Object → ℕ
  hasTitle : Object → ℕ → Bool
  isDailyQuestDone : Object → ℕ → Bool
  /-- The type of the player's pet. -/
  getPetType : Object → Option ℕ
  isInFlight : Object → Bool
  /-- The slot of a quest in the quest log. -/
  findQuestSlot : Object → ℕ → Option ℕ
  getQuestSlotCounter : Object → ℕ → ℕ → ℕ
  canBeGameMaster : Object → Bool
  isGameMaster : Object → Bool
  /-- Whether the player's group is a raid. -/
  getGroup : Object → Option Bool
  onConditionCheck : Condition → ConditionSourceInfo Object Map → Bool
  deriving Inhabited

variable {Object Map : Type} [DecidableEq Object]

namespace World

/-- `WorldObject::ToUnit`: creatures and players are units. -/
def isUnit (w : World Object Map) (o : Object) : Bool :=
  w.getTypeId o = .unit || w.getTypeId o = .player

def isCreature (w : World Object Map) (o : Object) : Bool := w.getTypeId o = .unit

def isPlayer (w : World Object Map) (o : Object) : Bool := w.getTypeId o = .player

def isGameObject (w : World Object Map) (o : Object) : Bool := w.getTypeId o = .gameobject

/-- `Object::isType`. -/
def isType (w : World Object Map) (o : Object) (mask : ℕ) : Bool :=
  (mask &&& (w.getTypeId o).objectTypeMask) != 0

/-- `Player::GetDrunkenstateByValue`. -/
def getDrunkenstateByValue (value : ℕ) : ℕ :=
  if 90 ≤ value then 3 else if 50 ≤ value then 2 else if value ≠ 0 then 1 else 0

/-- `MeetsGroupStatusCondition`. -/
def meetsGroupStatusCondition (group : Option Bool) (status : ℕ) : Bool :=
  match status with
  | 0 => group.isNone
  | 1 => group.isSome
  | 2 => group == some false
  | 3 => group == some true
  | 4 => group != some true
  | _ => false

end World

namespace Condition

/-- `Condition::isLoaded`. -/
def isLoaded (c : Condition) : Bool := c.conditionType ≠ .none || c.referenceId ≠ 0

/-- `Condition::GetMaxAvailableConditionTargets`. -/
def getMaxAvailableConditionTargets (c : Condition) : ℕ :=
  match c.sourceType with
  | .spell | .spellImplicitTarget | .creatureTemplateVehicle | .vehicleSpell | .spellClickEvent
  | .gossipMenu | .gossipMenuOption | .smartEvent | .npcVendor | .spellProc => 2
  | _ => 1

/-- `ConditionMgr::isConditionTypeValid`. `lookup` stands for the remaining checks, of ids against the
stores of the game and of ranges of values, on which neither the evaluation nor the mask relies. -/
def isConditionTypeValid (lookup : Condition → Bool) (c : Condition) : Bool :=
  if c.conditionType = .none then false
  else if c.getMaxAvailableConditionTargets ≤ c.conditionTarget then false
  else
    (match c.conditionType with
      | .objectEntryGuid =>
        c.conditionValue1 = TypeID.unit.toNat || c.conditionValue1 = TypeID.gameobject.toNat ||
          c.conditionValue1 = TypeID.player.toNat || c.conditionValue1 = TypeID.corpse.toNat
      | .typeMask =>
        -- no bit outside the four types
        c.conditionValue1 != 0 &&
          c.conditionValue1 &&& (TypeID.unit.typeMask ||| TypeID.player.typeMask |||
            TypeID.gameobject.typeMask ||| TypeID.corpse.typeMask) == c.conditionValue1
      | .relationTo =>
        c.conditionValue1 < c.getMaxAvailableConditionTargets &&
          c.conditionValue1 != c.conditionTarget && c.conditionValue2 < 6
      | .reactionTo =>
        c.conditionValue1 < c.getMaxAvailableConditionTargets &&
          c.conditionValue1 != c.conditionTarget && c.conditionValue2 != 0
      | .distanceTo =>
        c.conditionValue1 < c.getMaxAvailableConditionTargets &&
          c.conditionValue1 != c.conditionTarget && c.conditionValue3 < 5
      | .terrainSwap | .battlePetCount | .scenarioStep | .sceneInProgress | .playerCondition
      | .privateObject | .label => false
      | _ => true) && lookup c

/-! ### The evaluation -/

/-- The first switch of `Condition::Meets`: the types that look at no object. -/
def meetsWithoutObject (w : World Object Map) (c : Condition)
    (sourceInfo : ConditionSourceInfo Object Map) : Option Bool :=
  let map := sourceInfo.conditionMap
  match c.conditionType with
  | .none => some true
  | .activeEvent => some (w.isActiveEvent c.conditionValue1)
  | .instanceInfo => some (w.isDungeon map &&
      match w.getInstanceScript map with
      | some script =>
        match c.conditionValue3 with
        | 0 => script.getData c.conditionValue1 == c.conditionValue2
        | 1 => script.getGuidData c.conditionValue1 == c.conditionValue2
        | 2 => script.getBossState c.conditionValue1 == c.conditionValue2
        | 3 => script.getData64 c.conditionValue1 == c.conditionValue2
        | _ => false
      | none => false)
  | .mapid => some (w.getId map == c.conditionValue1)
  | .worldState => some (c.conditionValue2 == w.getWorldState c.conditionValue1)
  | .realmAchievement => some (w.isRealmCompleted c.conditionValue1)
  | .difficultyId => some (w.getDifficultyID map == c.conditionValue1)
  | _ => none

/-- `CONDITION_RELATION_TO`: both objects have to be units. -/
def meetsRelationTo (w : World Object Map) (c : Condition) (object toObject : Object) : Bool :=
  w.isUnit toObject && w.isUnit object &&
    match c.conditionValue2 with
    | 0 => object = toObject
    | 1 => w.isInPartyWith object toObject
    | 2 => w.isInRaidWith object toObject
    | 3 => w.getOwnerGUID object == w.getGUID toObject
    | 4 => w.isOnVehicle object toObject
    | 5 => w.getCreatorGUID object == w.getGUID toObject
    | _ => false

/-- `CONDITION_QUESTSTATE`: the player is in one of the states of the mask. -/
def meetsQueststate (w : World Object Map) (c : Condition) (object : Object) : Bool :=
  let status := w.getQuestStatus object c.conditionValue1
  (c.conditionValue2.testBit 0 && status == 0) || (c.conditionValue2.testBit 1 && status == 1) ||
    (c.conditionValue2.testBit 3 && status == 3) || (c.conditionValue2.testBit 5 && status == 5) ||
    (c.conditionValue2.testBit 6 && w.getQuestRewardStatus object c.conditionValue1)

/-- The second switch of `Condition::Meets`: what the condition asks of its object. -/
def meetsObject (w : World Object Map) (c : Condition)
    (sourceInfo : ConditionSourceInfo Object Map) (object : Object) : Bool :=
  let v1 := c.conditionValue1
  let v2 := c.conditionValue2
  let v3 := c.conditionValue3
  match c.conditionType with
  | .aura => w.isUnit object && w.hasAuraEffect object v1 v2
  | .item => w.isPlayer object && w.hasItemCount object v1 v2 (v3 ≠ 0)
  | .itemEquipped => w.isPlayer object && w.hasItemOrGemWithIdEquipped object v1 1
  | .zoneid => w.getZoneId object == v1
  | .reputationRank => w.isPlayer object &&
      match w.getRank object v1 with
      | some rank => v2.testBit rank
      | none => false
  | .achievement => w.isPlayer object && w.hasAchieved object v1
  | .team => w.isPlayer object && w.getTeam object == v1
  | .class_ => w.isUnit object && (w.getClassMask object &&& v1) != 0
  | .race => w.isUnit object && (w.getRaceMask object &&& v1) != 0
  | .gender => w.isPlayer object && w.getNativeGender object == v1
  | .skill => w.isPlayer object && (w.hasSkill object v1 && w.getBaseSkillValue object v1 ≥ v2)
  | .questrewarded => w.isPlayer object && w.getQuestRewardStatus object v1
  | .questtaken => w.isPlayer object && w.getQuestStatus object v1 == 3
  | .questComplete => w.isPlayer object &&
      (w.getQuestStatus object v1 == 1 && !w.getQuestRewardStatus object v1)
  | .questNone => w.isPlayer object && w.getQuestStatus object v1 == 0
  | .areaid => w.getAreaId object == v1
  | .spell => w.isPlayer object && w.hasSpell object v1
  | .level => w.isUnit object && compareValues v2 (w.getLevel object) v1
  | .drunkenstate => w.isPlayer object && World.getDrunkenstateByValue (w.getDrunkValue object) ≥ v1
  | .nearCreature => w.findNearestCreature object v1 v2 (v3 = 0)
  | .nearGameobject => w.findNearestGameObject object v1 v2
  | .objectEntryGuid => (w.getTypeId object).toNat == v1 &&
      ((v2 == 0 || w.getEntry object == v2) &&
        -- only creatures and gameobjects have spawn ids to compare
        (v3 == 0 || !(w.isCreature object || w.isGameObject object) || w.getSpawnId object == v3))
  | .typeMask => w.isType object v1
  | .relationTo =>
    match sourceInfo.conditionTargets v1 with
    | some toObject => c.meetsRelationTo w object toObject
    | none => false
  | .reactionTo =>
    match sourceInfo.conditionTargets v1 with
    | some toObject => w.isUnit toObject && w.isUnit object &&
        v2.testBit (w.getReactionTo object toObject)
    | none => false
  | .distanceTo =>
    match sourceInfo.conditionTargets v1 with
    | some toObject => w.compareDistance v3 object toObject v2
    | none => false
  | .alive => w.isUnit object && w.isAlive object
  | .hpVal => w.isUnit object && compareValues v2 (w.getHealth object) v1
  | .hpPct => w.isUnit object && w.compareHealthPct v2 object v1
  | .phasemask => (w.getPhaseMask object &&& v1) != 0
  | .title => w.isPlayer object && w.hasTitle object v1
  | .spawnmask => v1.testBit (w.getSpawnMode object)
  | .unitState => w.isUnit object && w.hasUnitState object v1
  | .creatureType => w.isCreature object && w.getCreatureType object == v1
  | .inWater => w.isUnit object && w.isInWater object
  | .standState => w.isUnit object &&
      (if v1 = 0 then w.getStandState object == v2
      else if v2 = 0 then w.isStandState object
      else if v2 = 1 then w.isSitState object
      else false)
  | .dailyQuestDone => w.isPlayer object && w.isDailyQuestDone object v1
  | .charmed => w.isUnit object && w.isCharmed object
  | .petType => w.isPlayer object &&
      match w.getPetType object with
      | some petType => v1.testBit petType
      | none => false
  | .taxi => w.isPlayer object && w.isInFlight object
  | .queststate => w.isPlayer object && c.meetsQueststate w object
  | .questObjectiveProgress => w.isPlayer object &&
      match w.findQuestSlot object v1 with
      | some slot => w.getQuestSlotCounter object slot v2 == v3
      | none => false
  | .gamemaster => w.isPlayer object &&
      if v1 = 1 then w.canBeGameMaster object else w.isGameMaster object
  | .stringId => (w.isCreature object || w.isGameObject object) &&
      w.hasStringId object c.conditionStringValue1
  | .groupStatus => w.isPlayer object && World.meetsGroupStatusCondition (w.getGroup object) v1
  | _ => false

/-- `Condition::Meets`. A missing object fails the condition before its negation is looked at. -/
def meets (w : World Object Map) (c : Condition) (sourceInfo : ConditionSourceInfo Object Map) :
    Bool :=
  let finish (condMeets : Bool) := (condMeets != c.negativeCondition) && w.onConditionCheck c sourceInfo
  match c.meetsWithoutObject w sourceInfo with
  | some condMeets => finish condMeets
  | none =>
    match sourceInfo.conditionTargets c.conditionTarget with
    | some object => finish (c.meetsObject w sourceInfo object)
    | none => false

/-! ### The search mask -/

/-- The masks that most types of conditions are about. -/
def maskUnit : ℕ := TypeID.unit.gridMapTypeMask ||| TypeID.player.gridMapTypeMask

/-- `Condition::GetSearcherTypeMaskForCondition`, `none` where the source aborts. -/
def getSearcherTypeMask (c : Condition) : Option ℕ :=
  if c.negativeCondition then some gridMapTypeMaskAll
  else
    match c.conditionType with
    | .none | .zoneid | .activeEvent | .instanceInfo | .mapid | .areaid | .nearCreature
    | .nearGameobject | .distanceTo | .worldState | .phasemask | .spawnmask | .realmAchievement
    | .difficultyId => some gridMapTypeMaskAll
    | .aura | .class_ | .race | .level | .relationTo | .reactionTo | .alive | .hpVal | .hpPct
    | .unitState | .inWater | .standState | .charmed => some maskUnit
    | .item | .itemEquipped | .reputationRank | .achievement | .team | .skill | .questrewarded
    | .questtaken | .questComplete | .questNone | .spell | .drunkenstate | .title | .gender
    | .dailyQuestDone | .petType | .taxi | .queststate | .questObjectiveProgress | .gamemaster
    | .groupStatus => some TypeID.player.gridMapTypeMask
    | .objectEntryGuid =>
      match c.conditionValue1 with
      | 3 => some TypeID.unit.gridMapTypeMask
      | 4 => some TypeID.player.gridMapTypeMask
      | 5 => some TypeID.gameobject.gridMapTypeMask
      | 7 => some TypeID.corpse.gridMapTypeMask
      | _ => some 0
    | .typeMask =>
      let has (t : TypeID) (mask : ℕ) := if (c.conditionValue1 &&& t.typeMask) ≠ 0 then mask else 0
      some (has .unit maskUnit ||| has .player TypeID.player.gridMapTypeMask |||
        has .gameobject TypeID.gameobject.gridMapTypeMask |||
        has .corpse TypeID.corpse.gridMapTypeMask)
    | .creatureType => some TypeID.unit.gridMapTypeMask
    -- everything but players
    | .privateObject => some (gridMapTypeMaskAll ^^^ TypeID.player.gridMapTypeMask)
    | .stringId => some (TypeID.unit.gridMapTypeMask ||| TypeID.gameobject.gridMapTypeMask)
    | .terrainSwap | .objectEntryGuidMaster | .typeMaskMaster | .battlePetCount | .scenarioStep
    | .sceneInProgress | .playerCondition | .label => none

end Condition

end IscServer.Conditions
