import Mathlib

/-!
# Resets of Instances

The queue of resets of `InstanceSaveManager` (`game/Instances/InstanceSaveMgr.h`, `InstanceSaveMgr.cpp`).

* Times are numbers of seconds; a time in the queue may lie before zero. The queue is a multimap: a new
  event stands behind those of the same time.
* The maps and their difficulties, and the functions that compute times of day, are parameters.
* What a reset does to the instances themselves is left out.
-/

namespace IscServer.Instances

/-! ### Data -/

/-- `DAY`. -/
def DAY : ℕ := 86400

/-- `InstResetEvent`. -/
structure InstResetEvent where
  type : ℕ
  difficulty : ℕ
  mapid : ℕ
  instanceId : ℕ
  deriving DecidableEq, Repr

/-- The constructor: the ids of the map and of the instance are `uint16`. -/
def InstResetEvent.new (t mapid d instanceid : ℕ) : InstResetEvent :=
  ⟨t, d, mapid % 2 ^ 16, instanceid % 2 ^ 16⟩

/-- `InstResetEvent::operator==`. -/
def InstResetEvent.same (event e : InstResetEvent) : Bool := e.instanceId = event.instanceId

/-- `ResetTimeDelay`, for a type. -/
def resetTimeDelay (type : ℕ) : ℕ := [3600, 900, 300, 60].getD (type - 1) 0

/-- `MapDifficultyEntry`. -/
structure MapDifficultyEntry where
  mapID : ℕ
  difficulty : ℕ
  raidDuration : ℕ
  deriving DecidableEq, Repr

/-- The key of an entry. -/
def MapDifficultyEntry.key (entry : MapDifficultyEntry) : ℕ × ℕ := (entry.mapID, entry.difficulty)

/-- The maps: `sMapDifficultyStore`, `MapEntry::Instanceable` and the time of day after a reset, which is
later by a day at least. -/
structure Maps where
  mapDifficulty : List MapDifficultyEntry
  instanceable : ℕ → Bool
  subsequent : ℕ → ℕ → ℕ → ℕ
  keys : (mapDifficulty.map MapDifficultyEntry.key).Nodup
  narrow : ∀ entry ∈ mapDifficulty, entry.mapID < 2 ^ 16
  raid : ∀ entry ∈ mapDifficulty, entry.raidDuration ≠ 0 → instanceable entry.mapID = true
  later : ∀ mapid difficulty t, t + DAY ≤ subsequent mapid difficulty t

variable (maps : Maps)

/-- `GetMapDifficultyData`. -/
def Maps.getMapDifficultyData (mapId difficulty : ℕ) : Option MapDifficultyEntry :=
  maps.mapDifficulty.find? fun entry => entry.mapID = mapId && entry.difficulty = difficulty

/-- `GetDownscaledMapDifficultyData`: the difficulty it leaves, if there is an entry. -/
def Maps.getDownscaledMapDifficultyData (mapId difficulty : ℕ) : Option ℕ :=
  if (maps.getMapDifficultyData mapId difficulty).isSome then some difficulty
  else
    -- a `uint32` that is read as a `uint8`
    let tmpDiff := if 1 < difficulty then difficulty - 2 else (difficulty + 2 ^ 32 - 1) % 2 ^ 32
    if (maps.getMapDifficultyData mapId (tmpDiff % 2 ^ 8)).isSome then some (tmpDiff % 2 ^ 8)
    else
      let tmpDiff := (tmpDiff + 2 ^ 32 - 1) % 2 ^ 32
      if (maps.getMapDifficultyData mapId (tmpDiff % 2 ^ 8)).isSome then some (tmpDiff % 2 ^ 8) else none

/-- `GetSubsequentResetTime`. -/
def Maps.getSubsequentResetTime (mapid difficulty resetTime : ℕ) : ℕ :=
  match maps.getMapDifficultyData mapid difficulty with
  | none => 0
  | some mapDiff => if mapDiff.raidDuration = 0 then 0 else maps.subsequent mapid difficulty resetTime

/-- `ResetTimeQueue`. -/
abbrev ResetTimeQueue := List (ℤ × InstResetEvent)

/-- `InstanceSaveManager`: the reset times and the queue. -/
structure InstanceSaveManager where
  resetTimeByMapDifficulty : ℕ × ℕ → Option ℕ
  resetTimeQueue : ResetTimeQueue

/-- A manager that has loaded nothing. -/
def InstanceSaveManager.new : InstanceSaveManager := ⟨fun _ => none, []⟩

/-- `MAKE_PAIR32`. -/
def makePair32 (mapid d : ℕ) : ℕ × ℕ := (mapid % 2 ^ 16, d)

variable (manager : InstanceSaveManager)

/-- `GetResetTimeFor`. -/
def InstanceSaveManager.getResetTimeFor (mapid d : ℕ) : ℕ :=
  (manager.resetTimeByMapDifficulty (makePair32 mapid d)).getD 0

/-- `InitializeResetTimeFor`, and `SetResetTimeFor` of a pair that is there. -/
def InstanceSaveManager.setResetTimeFor (mapid d t : ℕ) : InstanceSaveManager :=
  { manager with
    resetTimeByMapDifficulty :=
      Function.update manager.resetTimeByMapDifficulty (makePair32 mapid d) (some t) }

/-! ### The queue -/

/-- `std::multimap::insert`. -/
def ResetTimeQueue.insert (queue : ResetTimeQueue) (time : ℤ) (event : InstResetEvent) : ResetTimeQueue :=
  queue.orderedInsert (fun a b => a.1 < b.1) (time, event)

/-- `ScheduleReset` of an event to remove: among those of the time, or else in the whole queue. -/
def ResetTimeQueue.cancel (queue : ResetTimeQueue) (time : ℤ) (event : InstResetEvent) : ResetTimeQueue :=
  if queue.any fun entry => entry.1 = time && entry.2.same event then
    queue.eraseP fun entry => entry.1 = time && entry.2.same event
  else queue.eraseP fun entry => entry.2.same event

/-- `ScheduleReset`. -/
def InstanceSaveManager.scheduleReset (add : Bool) (time : ℤ) (event : InstResetEvent) :
    InstanceSaveManager :=
  { manager with
    resetTimeQueue :=
      if add then manager.resetTimeQueue.insert time event else manager.resetTimeQueue.cancel time event }

/-! ### Resets -/

/-- `_ResetOrWarnAll`. -/
def InstanceSaveManager.resetOrWarnAll (mapid difficulty : ℕ) (warn : Bool) (resetTime : ℕ) :
    InstanceSaveManager :=
  if maps.instanceable mapid && !warn then
    let next_reset := maps.getSubsequentResetTime mapid difficulty resetTime
    if next_reset = 0 then manager
    else (manager.setResetTimeFor mapid difficulty next_reset).scheduleReset true (next_reset - 3600)
      (.new 1 mapid difficulty 0)
  else manager

/-- `ForceGlobalReset`. -/
def InstanceSaveManager.forceGlobalReset (now mapId difficulty : ℕ) : InstanceSaveManager :=
  match maps.getDownscaledMapDifficultyData mapId difficulty with
  | none => manager
  | some difficulty =>
    let manager := manager.scheduleReset false 0 (.new 1 mapId difficulty 0)
    let manager := manager.scheduleReset false 0 (.new 4 mapId difficulty 0)
    manager.resetOrWarnAll maps mapId difficulty false now

/-- One round of the loop of `Update`; `none` when it ends. -/
def InstanceSaveManager.updateOnce (now : ℤ) : Option InstanceSaveManager :=
  match manager.resetTimeQueue with
  | [] => none
  | (t, event) :: rest =>
    if now ≤ t then none
    else if event.type = 0 then some { manager with resetTimeQueue := rest }
    else
      let resetTime := manager.getResetTimeFor event.mapid event.difficulty
      let manager := manager.resetOrWarnAll maps event.mapid event.difficulty (event.type ≠ 4) resetTime
      if event.type ≠ 4 then
        -- the type is changed in the queue, and a copy is scheduled
        let event := { event with type := event.type + 1 }
        let manager := { manager with resetTimeQueue := (t, event) :: rest }
        let manager := manager.scheduleReset true (resetTime - resetTimeDelay event.type) event
        some { manager with resetTimeQueue := manager.resetTimeQueue.tail }
      else some { manager with resetTimeQueue := manager.resetTimeQueue.tail }

/-- By how much the queue lies behind the clock. -/
def ResetTimeQueue.behind (queue : ResetTimeQueue) (now : ℤ) : ℕ :=
  (queue.map fun entry => (now - entry.1).toNat).sum

/-- Rounds of the loop, at most as many as are given. -/
def InstanceSaveManager.rounds (now : ℤ) : ℕ → InstanceSaveManager → InstanceSaveManager
  | 0, manager => manager
  | fuel + 1, manager =>
    match manager.updateOnce maps now with
    | none => manager
    | some manager => rounds now fuel manager

/-- `Update`: every round brings the queue nearer to the clock. -/
def InstanceSaveManager.update (now : ℤ) : InstanceSaveManager :=
  InstanceSaveManager.rounds maps now (manager.resetTimeQueue.behind now) manager

/-! ### Loading -/

/-- A row of `instance`. -/
structure InstanceRow where
  id : ℕ
  map : ℕ
  difficulty : ℕ
  resettime : ℕ
  deriving DecidableEq, Repr

/-- A row of `instance_reset`. -/
structure ResetRow where
  mapid : ℕ
  difficulty : ℕ
  resettime : ℕ
  deriving DecidableEq, Repr

/-- `GetLocalHourTimestamp` for the configured hour, at or after a time and on its day; and the period of a
raid in seconds, before it is a day at least. -/
structure Hours where
  next : ℕ → ℕ
  same : ℕ → ℕ
  period : ℕ → ℕ

/-- The type of the first event that is still to come. -/
def firstType (t now : ℕ) : ℕ :=
  if (now : ℤ) < t - resetTimeDelay 1 then 1
  else if (now : ℤ) < t - resetTimeDelay 2 then 2
  else if (now : ℤ) < t - resetTimeDelay 3 then 3
  else 4

/-- The reset time of an entry of `sMapDifficultyStore`, from the one that is known. -/
def Hours.resetTime (hours : Hours) (now : ℕ) (mapDiff : MapDifficultyEntry) (known : ℕ) : ℕ :=
  let today := now / DAY * DAY
  let period := max DAY (hours.period mapDiff.raidDuration)
  let t := if known = 0 then hours.next (today + period) else known
  if t < now then
    let day := t / DAY * DAY
    hours.next (day + ((today - day) / period + 1) * period)
  else t

/-- The loop of `LoadResetTimes` over the rows of `instance`. -/
def InstanceSaveManager.loadInstance (now : ℕ) (manager : InstanceSaveManager) (row : InstanceRow) :
    InstanceSaveManager :=
  if row.resettime ≠ 0 ∧ now < row.resettime then
    manager.scheduleReset true row.resettime (.new 0 row.map row.difficulty row.id)
  else manager

/-- The loop over the rows of `instance_reset`. -/
def InstanceSaveManager.loadReset (hours : Hours) (manager : InstanceSaveManager) (row : ResetRow) :
    InstanceSaveManager :=
  match maps.getMapDifficultyData row.mapid row.difficulty with
  | none => manager
  | some _ => manager.setResetTimeFor row.mapid row.difficulty (hours.same row.resettime)

/-- The loop over `sMapDifficultyStore`. -/
def InstanceSaveManager.loadMapDifficulty (hours : Hours) (now : ℕ) (instances : List InstanceRow)
    (manager : InstanceSaveManager) (mapDiff : MapDifficultyEntry) : InstanceSaveManager :=
  if mapDiff.raidDuration = 0 then manager
  else
    let mapid := mapDiff.mapID
    let difficulty := mapDiff.difficulty
    let t := hours.resetTime now mapDiff (manager.getResetTimeFor mapid difficulty)
    let manager := manager.setResetTimeFor mapid difficulty t
    let type := firstType t now
    let manager := manager.scheduleReset true (t - resetTimeDelay type) (.new type mapid difficulty 0)
    let range := instances.filter fun row =>
      row.resettime ≠ 0 && makePair32 row.map row.difficulty = makePair32 mapid difficulty
    range.foldl (fun manager row =>
      manager.scheduleReset true (t - resetTimeDelay type) (.new type mapid difficulty row.id)) manager

/-- `LoadResetTimes`. -/
def loadResetTimes (hours : Hours) (now : ℕ) (instances : List InstanceRow) (resets : List ResetRow) :
    InstanceSaveManager :=
  let manager := instances.foldl (·.loadInstance now ·) .new
  let manager := resets.foldl (·.loadReset maps hours ·) manager
  maps.mapDifficulty.foldl (·.loadMapDifficulty hours now instances ·) manager

/-! ### Steps -/

/-- What happens to the manager. The resets of single instances are of type 0. -/
inductive Request
  | update (now : ℕ)
  | forceGlobalReset (now mapId difficulty : ℕ)
  | scheduleReset (add : Bool) (time : ℤ) (mapid difficulty instanceId : ℕ)
  deriving DecidableEq, Repr

/-- One operation. -/
def step (manager : InstanceSaveManager) : Request → InstanceSaveManager
  | .update now => manager.update maps now
  | .forceGlobalReset now mapId difficulty => manager.forceGlobalReset maps now mapId difficulty
  | .scheduleReset add time mapid difficulty instanceId =>
    manager.scheduleReset add time (.new 0 mapid difficulty instanceId)

end IscServer.Instances
