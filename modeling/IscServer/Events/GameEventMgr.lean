import Mathlib

/-!
# Game Events

The schedule of game events (`game/Events/GameEventMgr.h`, `GameEventMgr.cpp`): loading `game_event`,
the tests `CheckOneGameEvent` and `NextCheck`, and `Update`, which starts and stops events and returns when
it wants to be called again.

* The clock is a parameter. `time_t` is an integer, since `UNIX_TIMESTAMP` is far below its bounds.
* Products of `uint32` wrap around, and a remainder by zero has no result.
* What events do to the world, and their rows in the character database, are left out.
-/

namespace IscServer.Events

/-! ### Data -/

/-- `GameEventState`; `other` is a value that the enumeration does not name. -/
inductive GameEventState
  | normal
  | worldInactive
  | worldConditions
  | worldNextphase
  | worldFinished
  | internal
  | other (value : ℕ)
  deriving DecidableEq, Repr

/-- The cast of the column `world_event`. -/
def GameEventState.ofNat : ℕ → GameEventState
  | 0 => normal
  | 1 => worldInactive
  | 2 => worldConditions
  | 3 => worldNextphase
  | 4 => worldFinished
  | 5 => internal
  | value => other value

/-- What is read of a `GameEventFinishCondition`. -/
structure GameEventFinishCondition where
  reqNum : ℚ
  done : ℚ
  deriving DecidableEq, Repr

/-- `GameEventData`, without the holiday, the description and the announcement. -/
structure GameEventData where
  start : ℤ
  endTime : ℤ
  nextstart : ℤ
  occurence : ℕ
  length : ℕ
  state : GameEventState
  conditions : List GameEventFinishCondition
  prerequisiteEvents : List ℕ
  deriving DecidableEq, Repr

/-- A new `GameEventData`. -/
def GameEventData.new : GameEventData := ⟨1, 0, 0, 0, 0, .normal, [], []⟩

/-- `mGameEvent` and `m_ActiveEvents`. -/
structure GameEventMgr where
  mGameEvent : List GameEventData
  activeEvents : Finset ℕ
  deriving DecidableEq

/-- A row of `game_event`, its times as `UNIX_TIMESTAMP` returns them. -/
structure GameEventRow where
  eventEntry : ℕ
  startTime : ℕ
  endTime : ℕ
  occurence : ℕ
  length : ℕ
  worldEvent : ℕ
  deriving DecidableEq, Repr

/-- `max_ge_check_delay`, a day. -/
def maxGeCheckDelay : ℕ := 86400

/-! ### Loading -/

/-- `GameEventMgr::Initialize`: one element more than the largest entry. -/
def emptyEvents (rows : List GameEventRow) : List GameEventData :=
  List.replicate ((rows.map GameEventRow.eventEntry).foldl max 0 + 1) GameEventData.new

/-- One row of `LoadFromDB`. A row without a length is complained about after it has been stored. -/
def loadRow (mGameEvent : List GameEventData) (row : GameEventRow) : List GameEventData :=
  if row.eventEntry = 0 then mGameEvent
  else mGameEvent.set row.eventEntry ⟨row.startTime, row.endTime, 0, row.occurence % 2 ^ 32,
    row.length % 2 ^ 32, .ofNat row.worldEvent, [], []⟩

/-- `GameEventMgr::LoadFromDB`, for `game_event`. -/
def loadFromDB (rows : List GameEventRow) : List GameEventData := rows.foldl loadRow (emptyEvents rows)

/-! ### The schedule -/

/-- An element of `mGameEvent`. -/
def eventAt (mGameEvent : List GameEventData) (entry : ℕ) : GameEventData :=
  mGameEvent.getD entry .new

/-- `occurence * MINUTE`. -/
def GameEventData.occurenceTime (data : GameEventData) : ℕ := data.occurence * 60 % 2 ^ 32

/-- `length * MINUTE`. -/
def GameEventData.lengthTime (data : GameEventData) : ℕ := data.length * 60 % 2 ^ 32

/-- `(currenttime - start) % (occurence * MINUTE)`. -/
def GameEventData.phase (data : GameEventData) (now : ℤ) : Option ℤ :=
  if data.occurenceTime = 0 then none else some ((now - data.start).tmod data.occurenceTime)

/-- `CheckOneGameEvent` for an event in state normal. -/
def GameEventData.checkNormal (data : GameEventData) (now : ℤ) : Option Bool :=
  if data.start < now && now < data.endTime then
    (data.phase now).map fun phase => decide (phase < (data.lengthTime : ℤ))
  else some false

/-- `CheckOneGameEvent` for a world event that has not been started. -/
def checkPrerequisites (mGameEvent : List GameEventData) (data : GameEventData) (now : ℤ) : Bool :=
  data.prerequisiteEvents.all (fun prerequisite =>
    let data := eventAt mGameEvent prerequisite
    (data.state = .worldNextphase || data.state = .worldFinished) && data.nextstart ≤ now) &&
    !data.prerequisiteEvents.isEmpty

/-- `GameEventMgr::CheckOneGameEvent`. -/
def checkOneGameEvent (mGameEvent : List GameEventData) (entry : ℕ) (now : ℤ) : Option Bool :=
  let data := eventAt mGameEvent entry
  match data.state with
  | .worldConditions | .worldNextphase => some true
  | .worldFinished | .internal => some false
  | .worldInactive => some (checkPrerequisites mGameEvent data now)
  | .normal | .other _ => data.checkNormal now

/-- A difference of times as `uint32`. -/
def uint32 (time : ℤ) : ℕ := (time % 2 ^ 32).toNat

/-- The delay that `NextCheck` computes for an event between start and end. -/
def GameEventData.nextBoundary (data : GameEventData) (now phase : ℤ) : ℕ :=
  let delay := uint32 (if phase < data.lengthTime then data.lengthTime - phase
    else data.occurenceTime - phase)
  if data.endTime < now + delay then uint32 (data.endTime - now) else delay

/-- `GameEventMgr::NextCheck`. -/
def GameEventData.nextCheck (data : GameEventData) (now : ℤ) : Option ℕ :=
  if (data.state = .worldNextphase || data.state = .worldFinished) && now ≤ data.nextstart then
    some (uint32 (data.nextstart - now))
  else if data.state = .worldConditions then
    some (if data.length = 0 then maxGeCheckDelay else data.lengthTime)
  else if data.endTime < now then some maxGeCheckDelay
  else if now < data.start then some (uint32 (data.start - now))
  else (data.phase now).map (data.nextBoundary now)

/-! ### Starting and stopping -/

/-- `GameEventMgr::CheckOneGameEventConditions`. -/
def checkOneGameEventConditions (mGameEvent : List GameEventData) (entry : ℕ) (now : ℤ) :
    List GameEventData × Bool :=
  let data := eventAt mGameEvent entry
  if data.conditions.any fun condition => condition.done < condition.reqNum then (mGameEvent, false)
  else (mGameEvent.set entry { data with
    state := .worldNextphase
    nextstart := if data.nextstart = 0 then now + data.lengthTime else data.nextstart }, true)

/-- `GameEventMgr::StartEvent`, without overwriting; whether the event is complete. -/
def GameEventMgr.startEvent (mgr : GameEventMgr) (eventId : ℕ) (now : ℤ) : GameEventMgr × Bool :=
  let data := eventAt mgr.mGameEvent eventId
  let active := insert eventId mgr.activeEvents
  if data.state = .normal ∨ data.state = .internal then (⟨mgr.mGameEvent, active⟩, false)
  else
    let mGameEvent := if data.state = .worldInactive then
      mgr.mGameEvent.set eventId { data with state := .worldConditions } else mgr.mGameEvent
    let checked := checkOneGameEventConditions mGameEvent eventId now
    (⟨checked.1, active⟩, checked.2)

/-- `GameEventMgr::StopEvent`, without overwriting. -/
def GameEventMgr.stopEvent (mgr : GameEventMgr) (eventId : ℕ) : GameEventMgr :=
  let data := eventAt mgr.mGameEvent eventId
  let active := mgr.activeEvents.erase eventId
  if data.state = .normal ∨ data.state = .internal ∨ data.state = .worldFinished then
    ⟨mgr.mGameEvent, active⟩
  else ⟨mgr.mGameEvent.set eventId { data with
    state := .worldInactive
    nextstart := 0
    conditions := data.conditions.map fun condition => { condition with done := 0 } }, active⟩

/-! ### Update -/

/-- What the first loop of `Update` has computed. -/
structure Round where
  mGameEvent : List GameEventData
  nextEventDelay : ℕ
  activate : List ℕ
  deactivate : List ℕ
  deriving DecidableEq

/-- One round of the first loop of `Update`. -/
def updateOne (activeEvents : Finset ℕ) (now : ℤ) (round : Round) (itr : ℕ) : Option Round := do
  let data := eventAt round.mGameEvent itr
  let deactivate := if itr ∈ activeEvents then round.deactivate ++ [itr] else round.deactivate
  if ← checkOneGameEvent round.mGameEvent itr now then
    if data.state = .worldNextphase ∧ data.nextstart ≤ now then
      some { round with
        mGameEvent := round.mGameEvent.set itr { data with state := .worldFinished, nextstart := 0 }
        deactivate := deactivate }
    else
      let mGameEvent := if data.state = .worldConditions then
        (checkOneGameEventConditions round.mGameEvent itr now).1 else round.mGameEvent
      let calcDelay ← (eventAt mGameEvent itr).nextCheck now
      some { round with
        mGameEvent := mGameEvent
        activate := if itr ∈ activeEvents then round.activate else round.activate ++ [itr]
        nextEventDelay := min calcDelay round.nextEventDelay }
  else
    let calcDelay ← data.nextCheck now
    some { round with
      deactivate := deactivate
      nextEventDelay := min calcDelay round.nextEventDelay }

/-- The entries that `Update` goes through. -/
def entries (mGameEvent : List GameEventData) : List ℕ := List.range' 1 (mGameEvent.length - 1)

/-- One round of the loop that activates. -/
def activateOne (now : ℤ) (state : GameEventMgr × ℕ) (itr : ℕ) : GameEventMgr × ℕ :=
  let started := state.1.startEvent itr now
  (started.1, if started.2 then 0 else state.2)

/-- `GameEventMgr::Update`, with the delay it returns. -/
def GameEventMgr.update (mgr : GameEventMgr) (now : ℤ) : Option (GameEventMgr × ℕ) :=
  ((entries mgr.mGameEvent).foldlM (updateOne mgr.activeEvents now)
    ⟨mgr.mGameEvent, maxGeCheckDelay, [], []⟩).map fun round =>
      let started := round.activate.foldl (activateOne now)
        (⟨round.mGameEvent, mgr.activeEvents⟩, round.nextEventDelay)
      (round.deactivate.foldl GameEventMgr.stopEvent started.1, (started.2 + 1) * 1000 % 2 ^ 32)

end IscServer.Events
