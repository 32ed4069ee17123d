import Mathlib.Data.Nat.Bitwise
import Mathlib.Data.List.Basic

/-!
# The Motion Master

A unit is moved by one movement generator at a time. `MotionMaster` keeps a default generator and a set
of active ones ordered by priority; the first of the set, or the default one when the set is empty, is
the current generator. A generator is initialised when it is updated as the current one for the first
time, deactivated when another takes its place and reset when its turn comes back.

Generators are objects with callbacks. While `Update` runs the callbacks of the current generator they
may call the motion master again; its operations are queued then and carried out at the end. The model
takes what a callback answers and the operations it calls as arguments of the update, so a run is a tree
of operations (`Op`). The flags of a generator live in its object, kept here by the number that stands
for its address; the static idle generator has the number 0.

`trace` and `entered` are not in the source: they record the callbacks that have been called and the
generators that have been put into a slot.

## Main definitions

* `MotionMaster.act` — an operation that changes the slots, queued or carried out.
* `MotionMaster.update` — `Update` with the callbacks of the current generator.
* `exec` — any operation, together with those its callbacks call.
-/

namespace IscServer.Movement

/-- `MovementGeneratorType`. -/
inductive MovementGeneratorType
  | idle | random | waypoint | maxDb | confused | chase | home | flight | point | fleeing | distract
  | assistance | assistanceDistract | timedFleeing | follow | rotate | effect | splineChain
  | formation | face
  deriving DecidableEq

/-- `MovementSlot`. -/
inductive MovementSlot
  | default | active
  deriving DecidableEq

/-- The `MovementGeneratorFlags` the motion master looks at. -/
structure GeneratorFlags where
  initializationPending : Bool
  deactivated : Bool
  finalized : Bool
  deriving DecidableEq

/-- `MovementGenerator`: its address, what its constructor sets, and the flags it starts with. -/
structure MovementGenerator where
  id : ℕ
  type : MovementGeneratorType
  priority : ℕ
  baseUnitState : ℕ
  immediate : Bool
  flags : GeneratorFlags
  deriving DecidableEq

/-- `GetIdleMovementGenerator`: one object for all units, initialised from the beginning. -/
def idleMovementGenerator : MovementGenerator where
  id := 0
  type := .idle
  priority := 64
  baseUnitState := 0
  immediate := false
  flags := ⟨false, false, false⟩

/-- `IsStatic`. -/
def isStatic (m : MovementGenerator) : Bool := m.id = 0

/-- The callbacks of a generator. -/
inductive Call
  | init | reset | update | deactivate | finalize (active movementInform : Bool)
  deriving DecidableEq

/-- What a callback does to the flags of its generator. The static generator has an empty
`Deactivate`. -/
def Call.effect (m : MovementGenerator) (f : GeneratorFlags) : Call → GeneratorFlags
  | init | reset => { f with initializationPending := false, deactivated := false }
  | update => f
  | deactivate => if isStatic m then f else { f with deactivated := true }
  | finalize _ _ => { f with finalized := true }

/-- An operation that changes the slots. `Add` and `Initialize` come with their generator and with what
its `Initialize` answers when the motion master calls it at once. -/
inductive Action
  | add (movement : MovementGenerator) (slot : MovementSlot) (initialized : Bool)
  | remove (type : MovementGeneratorType) (slot : MovementSlot)
  | clear
  | clearSlot (slot : MovementSlot)
  | clearPriority (priority : ℕ)
  | init (movement : MovementGenerator) (initialized : Bool)
  deriving DecidableEq

/-- The state of a motion master, the movement bits of its unit's state, and the flags of the
generators. -/
structure MotionMaster where
  defaultGenerator : Option MovementGenerator
  /-- `_generators`, in the order of the set. -/
  generators : List MovementGenerator
  baseUnitStatesMap : List (ℕ × ℕ)
  delayedActions : List Action
  /-- The four `MotionMasterFlags`. -/
  update : Bool
  staticInitializationPending : Bool
  initializationPending : Bool
  initializing : Bool
  unitState : ℕ
  flags : ℕ → Option GeneratorFlags
  trace : List (Call × ℕ)
  entered : List ℕ

namespace MotionMaster

/-- The constructor. -/
def new : MotionMaster where
  defaultGenerator := none
  generators := []
  baseUnitStatesMap := []
  delayedActions := []
  update := false
  staticInitializationPending := false
  initializationPending := true
  initializing := false
  unitState := 0
  flags _ := none
  trace := []
  entered := []

/-- The flags of a generator now. -/
def flagsOf (s : MotionMaster) (m : MovementGenerator) : GeneratorFlags := (s.flags m.id).getD m.flags

/-- A callback is called. -/
def call (s : MotionMaster) (c : Call) (m : MovementGenerator) : MotionMaster :=
  { s with
    trace := s.trace ++ [(c, m.id)]
    flags := Function.update s.flags m.id (some (c.effect m (s.flagsOf m))) }

/-- `GetCurrentMovementGenerator`. -/
def current (s : MotionMaster) : Option MovementGenerator := s.generators.head?.or s.defaultGenerator

/-- `MOTIONMASTER_FLAG_DELAYED`. -/
def delayed (s : MotionMaster) : Bool := s.update || s.initializationPending

/-! ### Base unit states -/

/-- `AddBaseUnitState`. -/
def addBaseUnitState (s : MotionMaster) (m : MovementGenerator) : MotionMaster :=
  if m.baseUnitState = 0 then s
  else { s with
    baseUnitStatesMap := s.baseUnitStatesMap ++ [(m.baseUnitState, m.id)]
    unitState := s.unitState ||| m.baseUnitState }

/-- `ClearBaseUnitState`: the bits go with the last generator that has them. -/
def clearBaseUnitState (s : MotionMaster) (m : MovementGenerator) : MotionMaster :=
  if m.baseUnitState = 0 then s
  else
    let map := s.baseUnitStatesMap.filter (· ≠ (m.baseUnitState, m.id))
    { s with
      baseUnitStatesMap := map
      unitState := if map.any (·.1 == m.baseUnitState) then s.unitState
        else s.unitState.ldiff m.baseUnitState }

/-- `ClearBaseUnitStates`. -/
def clearBaseUnitStates (s : MotionMaster) : MotionMaster :=
  { s with
    baseUnitStatesMap := []
    unitState := s.unitState.ldiff (s.baseUnitStatesMap.foldl (fun state e => state ||| e.1) 0) }

/-! ### Removal -/

/-- `Remove` of an iterator: the generator is taken out of the set, finalised and deleted. -/
def removeAt (s : MotionMaster) (m : MovementGenerator) (active movementInform : Bool) :
    MotionMaster :=
  let s := { s with generators := s.generators.filter (·.priority ≠ m.priority) }
  (s.call (.finalize active movementInform) m).clearBaseUnitState m

/-- `DirectClear`: the current generator first, then the rest. -/
def directClear (s : MotionMaster) : MotionMaster :=
  let s := match s.generators with
    | [] => s
    | top :: rest => rest.foldl (fun s m => s.removeAt m false false) (s.removeAt top true false)
  s.clearBaseUnitStates

/-- `DirectClear` with a filter. -/
def directClearWhere (s : MotionMaster) (filter : MovementGenerator → Bool) : MotionMaster :=
  let top := s.current.map MovementGenerator.id
  (s.generators.filter filter).foldl (fun s m => s.removeAt m (some m.id == top) false) s

/-- `DeleteDefault`: the static generator takes the place. -/
def deleteDefault (s : MotionMaster) (m : MovementGenerator) (active movementInform : Bool) :
    MotionMaster :=
  { s.call (.finalize active movementInform) m with
    defaultGenerator := some idleMovementGenerator
    staticInitializationPending := true }

/-- `DirectClearDefault`. -/
def directClearDefault (s : MotionMaster) : MotionMaster :=
  match s.defaultGenerator with
  | some m => s.deleteDefault m s.generators.isEmpty false
  | none => s

/-! ### Addition -/

/-- `lower_bound`: the first generator of the set whose priority is not higher. -/
def lowerBound (generators : List MovementGenerator) (m : MovementGenerator) :
    Option MovementGenerator :=
  generators.find? fun g => !(g.priority > m.priority)

/-- `std::set::insert` by priority, which refuses a second generator of the same priority. -/
def insert (m : MovementGenerator) : List MovementGenerator → List MovementGenerator
  | [] => [m]
  | g :: gs =>
    if m.priority > g.priority then m :: g :: gs
    else if g.priority > m.priority then g :: insert m gs
    else g :: gs

/-- The default slot in `DirectAdd`. -/
def directAddDefault (s : MotionMaster) (m : MovementGenerator) : MotionMaster :=
  let s := match s.defaultGenerator with
    | some old => s.call (.finalize s.generators.isEmpty false) old
    | none => s
  { s with
    defaultGenerator := some m
    staticInitializationPending := s.staticInitializationPending || isStatic m
    entered := s.entered ++ [m.id] }

/-- The generator of the same priority makes place, or the current one is deactivated. -/
def makePlace (s : MotionMaster) (m : MovementGenerator) : MotionMaster :=
  match s.generators with
  | [] =>
    match s.defaultGenerator with
    | some d => s.call .deactivate d
    | none => s
  | top :: rest =>
    match lowerBound (top :: rest) m with
    | none => s
    | some g =>
      if !m.immediate && !(m.priority > g.priority) then s.removeAt g (g.id == top.id) false
      else if g.id == top.id then s.call .deactivate top
      else s

/-- The active slot in `DirectAdd`: an immediate generator is done at once. -/
def directAddActive (s : MotionMaster) (m : MovementGenerator) : MotionMaster :=
  let s := { s.makePlace m with entered := (s.makePlace m).entered ++ [m.id] }
  if m.immediate then s.call (.finalize true true) m
  else { s with generators := insert m s.generators }.addBaseUnitState m

/-- `DirectAdd`. -/
def directAdd (s : MotionMaster) (m : MovementGenerator) : MovementSlot → MotionMaster
  | .default => s.directAddDefault m
  | .active => s.directAddActive m

/-- `wouldBecomeTop` in `Add`: the lower bound is the beginning of the set. -/
def wouldBecomeTop (s : MotionMaster) (m : MovementGenerator) : Bool :=
  match s.generators with
  | [] => true
  | top :: _ => !(top.priority > m.priority)

/-- `Add` after the check of immediate generators. -/
def addOrDelay (s : MotionMaster) (m : MovementGenerator) (slot : MovementSlot)
    (initialized : Bool) : MotionMaster :=
  if s.delayed then { s with delayedActions := s.delayedActions ++ [.add m slot initialized] }
  else s.directAdd m slot

/-- `Add`: an immediate generator is initialised at once, and deleted when it is not to become the
current one or its initialisation fails. -/
def add (s : MotionMaster) (m : MovementGenerator) (slot : MovementSlot) (initialized : Bool) :
    MotionMaster :=
  if m.immediate && (s.flagsOf m).initializationPending then
    if s.wouldBecomeTop m then
      if initialized then (s.call .init m).addOrDelay m slot initialized
      else s.call .init m
    else s
  else s.addOrDelay m slot initialized

/-- `DirectInitialize`: everything is cleared, and the selected generator becomes the default one. -/
def directInitialize (s : MotionMaster) (m : MovementGenerator) (initialized : Bool) : MotionMaster :=
  s.directClearDefault.directClear.add m .default initialized

/-! ### The operations -/

/-- The operation itself. -/
def directAct (s : MotionMaster) : Action → MotionMaster
  | .add m slot initialized => s.add m slot initialized
  | .remove type .default =>
    if s.defaultGenerator.any (·.type = type) then s.directClearDefault else s
  | .remove type .active => s.directClearWhere (·.type = type)
  | .clear => s.directClear
  | .clearSlot .default => s.directClearDefault
  | .clearSlot .active => s.directClear
  | .clearPriority priority => s.directClearWhere (·.priority = priority)
  | .init m initialized => s.directInitialize m initialized

/-- `Add`, `Remove`, `Clear` and `Initialize`, queued while the motion master is updating or not yet
in the world. `Initialize` is refused outside the world, `Remove` refuses a type that is none. -/
def act (s : MotionMaster) (a : Action) : MotionMaster :=
  match a with
  | .add m slot initialized => s.add m slot initialized
  | .init m initialized =>
    if s.initializationPending then s
    else if s.update then { s with delayedActions := s.delayedActions ++ [a] }
    else s.directInitialize m initialized
  | .remove .maxDb _ => s
  | _ => if s.delayed then { s with delayedActions := s.delayedActions ++ [a] } else s.directAct a

/-- `ResolveDelayedActions`: nothing is queued while the actions are carried out. -/
def resolveDelayedActions (s : MotionMaster) : MotionMaster :=
  s.delayedActions.foldl act { s with delayedActions := [] }

/-- `AddToWorld`, with the generator that is selected as the default one. -/
def addToWorld (s : MotionMaster) (m : MovementGenerator) (initialized : Bool) : MotionMaster :=
  if s.initializationPending then
    let s := { s with initializing := true, initializationPending := false }
    { (s.directInitialize m initialized).resolveDelayedActions with initializing := false }
  else s

/-- `InterruptOnTeleport`. -/
def interruptOnTeleport (s : MotionMaster) : MotionMaster :=
  match s.current with
  | none => s
  | some top =>
    if (s.flagsOf top).deactivated || (s.flagsOf top).finalized then s else s.call .deactivate top

/-! ### Update -/

/-- `InitState` in `Update`. -/
inductive InitState
  | failed | success | alreadyInitialized
  deriving DecidableEq

/-- What the callbacks of the current generator answer, and what they do to the motion master. -/
structure Callbacks where
  staticInitialized : Bool
  onStaticInitialize : MotionMaster → Option MotionMaster
  initialized : Bool
  onInitialize : MotionMaster → Option MotionMaster
  hasReset : Bool
  onReset : MotionMaster → Option MotionMaster
  updated : Bool
  onUpdate : MotionMaster → Option MotionMaster
  onFinalize : MotionMaster → Option MotionMaster

/-- `InitState` after a callback. -/
def initState (answer : Bool) : InitState := if answer then .success else .failed

/-- The static generator is initialised anew for this unit. -/
def updateStatic (cb : Callbacks) (top : MovementGenerator) (s : MotionMaster) :
    Option (MotionMaster × InitState) :=
  if s.staticInitializationPending && isStatic top then
    (cb.onStaticInitialize ({ s with staticInitializationPending := false }.call .init top)).map
      fun s => (s, initState cb.staticInitialized)
  else some (s, .alreadyInitialized)

/-- The current generator is initialised when it has not been. -/
def updateInitialize (cb : Callbacks) (top : MovementGenerator) (s : MotionMaster × InitState) :
    Option (MotionMaster × InitState) :=
  if (s.1.flagsOf top).initializationPending then
    (cb.onInitialize (s.1.call .init top)).map fun s => (s, initState cb.initialized)
  else some s

/-- The current generator is reset when it has been deactivated. -/
def updateReset (cb : Callbacks) (top : MovementGenerator) (s : MotionMaster × InitState) :
    Option (MotionMaster × InitState) :=
  if (s.1.flagsOf top).deactivated then
    (cb.onReset (s.1.call .reset top)).map fun s => (s, initState cb.hasReset)
  else some s

/-- `Pop` at the end of `Update`; the source aborts when the current generator has changed. -/
def updatePop (cb : Callbacks) (top : MovementGenerator) (s : MotionMaster) : Option MotionMaster :=
  if s.current.map MovementGenerator.id ≠ some top.id then none
  else
    match s.generators with
    | [] => some s
    | m :: _ =>
      let s := { s with generators := s.generators.filter (·.priority ≠ m.priority) }
      (cb.onFinalize (s.call (.finalize true true) m)).map (·.clearBaseUnitState m)

/-- The update of the current generator; the source aborts when it is still not initialised. -/
def updateTop (cb : Callbacks) (top : MovementGenerator) (s : MotionMaster × InitState) :
    Option MotionMaster :=
  let f := s.1.flagsOf top
  if f.initializationPending || f.deactivated then none
  else if s.2 = .failed then updatePop cb top s.1
  else
    (cb.onUpdate (s.1.call .update top)).bind fun s => if cb.updated then some s else updatePop cb top s

/-- `Update`; the source aborts when there is no generator at all. -/
def updateWith (s : MotionMaster) (cb : Callbacks) : Option MotionMaster :=
  if s.initializationPending || s.initializing then some s
  else
    match s.current with
    | none => none
    | some top =>
      ((((updateStatic cb top { s with update := true }).bind (updateInitialize cb top)).bind
        (updateReset cb top)).bind (updateTop cb top)).map
          fun s => { s with update := false }.resolveDelayedActions

end MotionMaster

/-- An operation, together with the operations called by the callbacks it runs. -/
inductive Op
  | act (action : Action)
  | interruptOnTeleport
  | update (staticInitialized : Bool) (onStaticInitialize : List Op)
      (initialized : Bool) (onInitialize : List Op) (hasReset : Bool) (onReset : List Op)
      (updated : Bool) (onUpdate : List Op) (onFinalize : List Op)

mutual

/-- One operation; `none` where the source aborts. -/
def exec : Op → MotionMaster → Option MotionMaster
  | .act action, s => some (s.act action)
  | .interruptOnTeleport, s => some s.interruptOnTeleport
  | .update staticInitialized onStaticInitialize initialized onInitialize hasReset onReset updated
      onUpdate onFinalize, s =>
      s.updateWith
        { staticInitialized := staticInitialized
          onStaticInitialize := execAll onStaticInitialize
          initialized := initialized
          onInitialize := execAll onInitialize
          hasReset := hasReset
          onReset := execAll onReset
          updated := updated
          onUpdate := execAll onUpdate
          onFinalize := execAll onFinalize }

/-- Operations one after the other. -/
def execAll : List Op → MotionMaster → Option MotionMaster
  | [], s => some s
  | op :: ops, s => (exec op s).bind (execAll ops)

end

end IscServer.Movement
