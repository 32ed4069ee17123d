import Mathlib
import IscServer.Library.Run

/-!
# Spawn Pools

`PoolMgr` (`game/Pools/PoolMgr.h`, `PoolMgr.cpp`). A pool has creatures, gameobjects and other
pools as members, of which at most `MaxLimit` are active at a time. Which ones is rolled when
the pool is spawned and again whenever a member is ready to respawn. All kinds of members share
one counter of the pool, in the map `mSpawnedPools`, whose keys also tell which child pools are
active.

The code is generic in the kind of the members; here the kind is an argument. What
`LoadFromDB` leaves behind is a `Forest`: every member is listed in one pool, and the cycles are
cut, so that a rank of the pools decreases from mother to child. Random numbers come from an
oracle that is asked once for each draw. The grids and maps that `Spawn1Object` and
`Despawn1Object` change for creatures and gameobjects are left out.
-/

namespace IscServer

namespace Pools

/-- The kinds of members: the template argument of the source. -/
inductive Kind where
  | creature
  | gameobject
  | pool
  deriving DecidableEq, Repr

/-- `PoolObject`. -/
structure PoolObject where
  guid : ℕ
  chance : ℚ
  deriving DecidableEq

/-! ### Active objects -/

/-- `ActivePoolData`. -/
structure ActivePoolData where
  spawnedCreatures : Finset ℕ := ∅
  spawnedGameobjects : Finset ℕ := ∅
  spawnedPools : ℕ → Option ℕ := fun _ => none

namespace ActivePoolData

/-- `GetActiveObjectCount`. -/
def getActiveObjectCount (d : ActivePoolData) (poolId : ℕ) : ℕ :=
  (d.spawnedPools poolId).getD 0

/-- `IsActiveObject`. -/
def isActiveObject (d : ActivePoolData) : Kind → ℕ → Bool
  | .creature, guid => guid ∈ d.spawnedCreatures
  | .gameobject, guid => guid ∈ d.spawnedGameobjects
  | .pool, subPoolId => (d.spawnedPools subPoolId).isSome

/-- Insert a member into the set of its kind; a pool gets the counter `0`. -/
def insertObject (d : ActivePoolData) : Kind → ℕ → ActivePoolData
  | .creature, guid => { d with spawnedCreatures := insert guid d.spawnedCreatures }
  | .gameobject, guid => { d with spawnedGameobjects := insert guid d.spawnedGameobjects }
  | .pool, subPoolId =>
    { d with spawnedPools := Function.update d.spawnedPools subPoolId (some 0) }

/-- Erase a member from the set of its kind. -/
def eraseObject (d : ActivePoolData) : Kind → ℕ → ActivePoolData
  | .creature, guid => { d with spawnedCreatures := d.spawnedCreatures.erase guid }
  | .gameobject, guid => { d with spawnedGameobjects := d.spawnedGameobjects.erase guid }
  | .pool, subPoolId =>
    { d with spawnedPools := Function.update d.spawnedPools subPoolId none }

/-- Write the counter of a pool, which makes an entry for it. -/
def setCount (d : ActivePoolData) (poolId n : ℕ) : ActivePoolData :=
  { d with spawnedPools := Function.update d.spawnedPools poolId (some n) }

/-- `ActivateObject`. -/
def activateObject (d : ActivePoolData) (kind : Kind) (guid poolId : ℕ) : ActivePoolData :=
  let d := d.insertObject kind guid
  d.setCount poolId (d.getActiveObjectCount poolId + 1)

/-- `RemoveObject`. -/
def removeObject (d : ActivePoolData) (kind : Kind) (guid poolId : ℕ) : ActivePoolData :=
  let d := d.eraseObject kind guid
  d.setCount poolId (d.getActiveObjectCount poolId - 1)

end ActivePoolData

/-! ### Pools -/

/-- `PoolGroup`: the members of one kind in a pool. -/
structure PoolGroup where
  explicitlyChanced : List PoolObject := []
  equalChanced : List PoolObject := []

namespace PoolGroup

/-- `isEmpty`. -/
def isEmpty (g : PoolGroup) : Bool :=
  g.explicitlyChanced.isEmpty && g.equalChanced.isEmpty

/-- All members, in the order in which the loops of the source visit them. -/
def objects (g : PoolGroup) : List PoolObject :=
  g.equalChanced ++ g.explicitlyChanced

/-- The identifiers of the members. -/
def guids (g : PoolGroup) : List ℕ :=
  g.objects.map (·.guid)

end PoolGroup

/-- The pools after `LoadFromDB`: the templates, the groups and the search maps. -/
structure Forest where
  maxLimit : ℕ → ℕ
  group : Kind → ℕ → PoolGroup
  search : Kind → ℕ → Option ℕ
  rank : ℕ → ℕ
  mem_guids : ∀ kind poolId guid, guid ∈ (group kind poolId).guids ↔ search kind guid = some poolId
  nodup : ∀ kind poolId, (group kind poolId).guids.Nodup
  rank_lt : ∀ child mother, search .pool child = some mother → rank child < rank mother
  maxLimit_lt : ∀ poolId, maxLimit poolId < 2 ^ 32

/-- `IsPartOfAPool`. -/
def Forest.isPartOfAPool (F : Forest) (kind : Kind) (guid : ℕ) : ℕ :=
  (F.search kind guid).getD 0

/-- The members of a pool of one kind. -/
def Forest.members (F : Forest) (kind : Kind) (poolId : ℕ) : List ℕ :=
  (F.group kind poolId).guids

/-- The random numbers: `rand_chance()` and `urand(1, n)` at each draw. -/
structure Random where
  randChance : ℕ → ℚ
  urand : ℕ → ℕ → ℕ
  one_le_urand : ∀ draw n, 1 ≤ urand draw n
  urand_le : ∀ draw n, 1 ≤ n → urand draw n ≤ n

/-- The state of a `PoolMgr`: the active objects, the number of draws so far, and a record of
the active objects right after each call of `SpawnPool<T>`. -/
structure State where
  spawns : ActivePoolData := {}
  draws : ℕ := 0
  calls : List (Kind × ℕ × ActivePoolData) := []

/-! ### Despawning -/

section Despawn

variable (F : Forest) (despawnPool : ActivePoolData → ℕ → ActivePoolData)

/-- `Despawn1Object`. -/
def despawn1Object : Kind → ActivePoolData → ℕ → ActivePoolData
  | .creature, d, _ => d
  | .gameobject, d, _ => d
  | .pool, d, childPoolId => despawnPool d childPoolId

/-- `DespawnObject`. -/
def despawnObject (kind : Kind) (poolId : ℕ) (d : ActivePoolData) (guid : ℕ) : ActivePoolData :=
  if d.isActiveObject kind guid then
    (despawn1Object despawnPool kind d guid).removeObject kind guid poolId
  else d

/-- `DespawnAllObjects`. -/
def despawnAllObjects (poolId : ℕ) (d : ActivePoolData) (kind : Kind) : ActivePoolData :=
  (F.group kind poolId).objects.foldl
    (fun d object => despawnObject despawnPool kind poolId d object.guid) d

end Despawn

/-- `DespawnPool`, with fuel for the nesting of pools. -/
def despawnPool (F : Forest) : ℕ → ActivePoolData → ℕ → ActivePoolData
  | 0, d, _ => d
  | fuel + 1, d, poolId =>
    [.creature, .gameobject, .pool].foldl (despawnAllObjects F (despawnPool F fuel) poolId) d

/-! ### Choosing members -/

/-- The loop that rolls for one chanced candidate: the index of the one that is hit. -/
def rollChanced : ℚ → List PoolObject → Option ℕ
  | _, [] => none
  | roll, candidate :: candidates =>
    if candidate.chance > 0 then
      if roll - candidate.chance < 0 then some 0
      else (rollChanced (roll - candidate.chance) candidates).map (· + 1)
    else (rollChanced roll candidates).map (· + 1)

/-- `std::swap(candidates[i], candidates.back()); candidates.pop_back();` -/
def swapPop (candidates : List PoolObject) (i : ℕ) : List PoolObject :=
  (candidates.set i (candidates.getLastD ⟨0, 0⟩)).dropLast

/-- The object hit by the roll, if any, and the other candidates. -/
def takeChanced (roll : ℚ) (candidates : List PoolObject) : List PoolObject × List PoolObject :=
  match rollChanced roll candidates with
  | none => ([], candidates)
  | some i => ((candidates[i]?).toList, swapPop candidates i)

/-- `RandomResize`, from the given draw on. -/
def randomResize (R : Random) : ℕ → List PoolObject → ℕ → List PoolObject
  | _, [], _ => []
  | draw, object :: objects, elementsToKeep =>
    if R.urand draw (objects.length + 1) ≤ elementsToKeep then
      object :: randomResize R (draw + 1) objects (elementsToKeep - 1)
    else randomResize R (draw + 1) objects elementsToKeep

/-- Fill the slots that are left with the candidates that are left. -/
def fillSlots (R : Random) (draw : ℕ) (candidates : List PoolObject) (remainingCount : ℕ) :
    List PoolObject × ℕ :=
  if remainingCount > 0 ∧ candidates ≠ [] then
    if candidates.length > remainingCount then
      (randomResize R draw candidates remainingCount, draw + candidates.length)
    else (candidates, draw)
  else ([], draw)

/-- The choice of the objects to spawn, and the number of draws after it. -/
def rollObjects (R : Random) (draw : ℕ) (group : PoolGroup) (candidates : List PoolObject)
    (count : ℕ) : List PoolObject × ℕ :=
  let chanced := if group.explicitlyChanced.isEmpty then ([], candidates)
    else takeChanced (R.randChance draw) candidates
  let draw := if group.explicitlyChanced.isEmpty then draw else draw + 1
  let filled := fillSlots R draw chanced.2 (count - chanced.1.length)
  (chanced.1 ++ filled.1, filled.2)

/-! ### Spawning -/

section Spawn

variable (F : Forest) (R : Random) (spawnPool : State → ℕ → State)
  (despawnPool : ActivePoolData → ℕ → ActivePoolData)

/-- `Spawn1Object`. -/
def spawn1Object : Kind → State → ℕ → State
  | .creature, s, _ => s
  | .gameobject, s, _ => s
  | .pool, s, childPoolId => spawnPool s childPoolId

/-- Activate an object and spawn it. -/
def activateAndSpawn (kind : Kind) (poolId : ℕ) (s : State) (object : PoolObject) : State :=
  spawn1Object spawnPool kind
    { s with spawns := s.spawns.activateObject kind object.guid poolId } object.guid

/-- `SpawnObject`, after the object that triggered the respawn has been cleared. The number of
free slots is an `int32`, computed from the difference of two `uint32`. -/
def spawnCandidates (kind : Kind) (poolId : ℕ) (s : State) : State :=
  let count := (F.maxLimit poolId + 2 ^ 32 - s.spawns.getActiveObjectCount poolId) % 2 ^ 32
  if count = 0 ∨ 2 ^ 31 ≤ count then s
  else
    let group := F.group kind poolId
    let candidates := group.objects.filter fun o => !s.spawns.isActiveObject kind o.guid
    if candidates = [] then s
    else
      let rolled := rollObjects R s.draws group candidates count
      rolled.1.foldl (activateAndSpawn spawnPool kind poolId) { s with draws := rolled.2 }

/-- `SpawnObject`. -/
def spawnObject (kind : Kind) (poolId triggerFrom : ℕ) (s : State) : State :=
  let s := if triggerFrom ≠ 0 then
      { s with spawns := despawnObject despawnPool kind poolId s.spawns triggerFrom }
    else s
  spawnCandidates F R spawnPool kind poolId s

/-- `SpawnPool<T>`, with the record of the state after it. -/
def spawnKind (poolId triggerFrom : ℕ) (s : State) (kind : Kind) : State :=
  let s := if (F.group kind poolId).isEmpty then s
    else spawnObject F R spawnPool despawnPool kind poolId triggerFrom s
  { s with calls := s.calls ++ [(kind, poolId, s.spawns)] }

end Spawn

/-- `SpawnPool`, with fuel for the nesting of pools. -/
def spawnPool (F : Forest) (R : Random) : ℕ → State → ℕ → State
  | 0, s, _ => s
  | fuel + 1, s, poolId =>
    [.pool, .gameobject, .creature].foldl
      (spawnKind F R (spawnPool F R fuel) (despawnPool F fuel) poolId 0) s

/-! ### Steps -/

/-- The events of a run: pools are spawned and despawned by the start of the server and by game
events, and members report that they are ready to respawn. -/
inductive Op where
  | spawnPool (poolId : ℕ)
  | despawnPool (poolId : ℕ)
  | updatePool (kind : Kind) (poolId guid : ℕ)
  deriving DecidableEq

/-- The pool that `UpdatePool` spawns from: the mother of the pool, if it has one. -/
def Forest.updated (F : Forest) (poolId : ℕ) : ℕ :=
  if F.isPartOfAPool .pool poolId ≠ 0 then F.isPartOfAPool .pool poolId else poolId

/-- `UpdatePool`. -/
def updatePool (F : Forest) (R : Random) (kind : Kind) (poolId guid : ℕ) (s : State) : State :=
  let motherPoolId := F.isPartOfAPool .pool poolId
  if motherPoolId ≠ 0 then
    spawnKind F R (spawnPool F R (F.rank motherPoolId)) (despawnPool F (F.rank motherPoolId))
      motherPoolId poolId s .pool
  else
    spawnKind F R (spawnPool F R (F.rank poolId)) (despawnPool F (F.rank poolId)) poolId guid s kind

/-- One step. The rank of a pool is enough fuel for its children. -/
def step (F : Forest) (R : Random) (s : State) : Op → State
  | .spawnPool poolId => spawnPool F R (F.rank poolId + 1) s poolId
  | .despawnPool poolId => { s with spawns := despawnPool F (F.rank poolId + 1) s.spawns poolId }
  | .updatePool kind poolId guid => updatePool F R kind poolId guid s

end Pools

end IscServer
