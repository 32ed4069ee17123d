import Mathlib.Algebra.Order.Field.Rat
import Mathlib.Data.List.Nodup

/-!
# Units, References and Hand-offs

The data of the combat system (`game/Combat/CombatManager.h`, `ThreatManager.h`): references are
dynamically allocated objects that the managers of two units point to, so a world is a heap of
`CombatReference` and `ThreatReference` objects together with the managers of all units. A unit
stands for its GUID as well.

What the managers ask the rest of the game is an environment `Env`: its answers may depend on the
`tick`, which goes on with every call, so that the same question can have different answers
whenever it is asked again. The order in which a hash map is traversed and the order of the
entries of a Fibonacci heap are answers of the environment too. Threat is a rational number.

Whenever a manager calls into an AI, the call is recorded with the world that the AI sees
(`Execution.handOff`). The AI and the other hooks do not call back; packets to clients and the
flags that trigger them are left out, and the `ASSERT`s are not part of the functions.
-/

namespace IscServer

namespace Combat

/-! ### References -/

/-- `CombatReference` and `PvPCombatReference`; the timer is of use in the latter. -/
structure CombatReference (U : Type) where
  first : U
  second : U
  isPvP : Bool
  suppressFirst : Bool := false
  suppressSecond : Bool := false
  combatTimer : ℕ := 5000
  deriving DecidableEq

/-- `PvPCombatReference::PVP_COMBAT_TIMEOUT`. -/
def pvpCombatTimeout : ℕ := 5000

/-- `ThreatReference::OnlineState`. -/
inductive OnlineState where
  | offline
  | suppressed
  | online
  deriving DecidableEq, Repr

/-- The value of an online state. -/
def OnlineState.rank : OnlineState → ℕ
  | offline => 0
  | suppressed => 1
  | online => 2

/-- `ThreatReference`. The taunt state is a number: detaunted, none, and from two on taunting. -/
structure ThreatReference (U : Type) where
  owner : U
  victim : U
  online : OnlineState := .offline
  baseAmount : ℚ := 0
  tempModifier : ℤ := 0
  taunted : ℕ := 1
  deriving DecidableEq

section References

variable {U : Type} [DecidableEq U]

namespace CombatReference

/-- `GetOther`. -/
def getOther (r : CombatReference U) (me : U) : U :=
  if r.first = me then r.second else r.first

/-- `IsSuppressedFor`. -/
def isSuppressedFor (r : CombatReference U) (who : U) : Bool :=
  if who = r.first then r.suppressFirst else r.suppressSecond

/-- `Suppress`. -/
def suppress (r : CombatReference U) (who : U) : CombatReference U :=
  if who = r.first then { r with suppressFirst := true } else { r with suppressSecond := true }

/-- The reference is between two units, in either order. -/
def Between (r : CombatReference U) (a b : U) : Prop :=
  r.first = a ∧ r.second = b ∨ r.first = b ∧ r.second = a

instance (r : CombatReference U) (a b : U) : Decidable (r.Between a b) :=
  inferInstanceAs (Decidable (_ ∨ _))

end CombatReference

namespace ThreatReference

/-- `TAUNT_STATE_DETAUNT`, `TAUNT_STATE_NONE` and `TAUNT_STATE_TAUNT`. -/
def tauntStateDetaunt : ℕ := 0

def tauntStateNone : ℕ := 1

def tauntStateTaunt : ℕ := 2

/-- `GetThreat`. -/
def getThreat (r : ThreatReference U) : ℚ :=
  max (r.baseAmount + r.tempModifier) 0

/-- `IsAvailable`. -/
def isAvailable (r : ThreatReference U) : Bool :=
  r.online ≠ .offline

/-- `IsOffline`. -/
def isOffline (r : ThreatReference U) : Bool :=
  r.online = .offline

/-- `IsTaunting`. -/
def isTaunting (r : ThreatReference U) : Bool :=
  tauntStateTaunt ≤ r.taunted

/-- `CompareReferencesLT`: the first reference is lower on the threat list. -/
def compareReferencesLT (a b : ThreatReference U) (aWeight : ℚ) : Bool :=
  if a.online ≠ b.online then a.online.rank < b.online.rank
  else if a.taunted ≠ b.taunted then a.taunted < b.taunted
  else a.getThreat * aWeight < b.getThreat

end ThreatReference

end References

/-! ### Managers and worlds -/

/-- `CombatManager`: the two maps from GUIDs to references. -/
structure CombatManager (U : Type) where
  pveRefs : U → Option ℕ := fun _ => none
  pvpRefs : U → Option ℕ := fun _ => none

/-- `ThreatManager`. -/
structure ThreatManager (U : Type) where
  ownerCanHaveThreatList : Bool := false
  updateTimer : ℕ := 1000
  sortedThreatList : List ℕ := []
  myThreatListEntries : U → Option ℕ := fun _ => none
  needsAIUpdate : List U := []
  currentVictimRef : Option ℕ := none
  fixateRef : Option ℕ := none
  threatenedByMe : U → Option ℕ := fun _ => none
  redirectInfo : List (U × ℕ) := []

/-- `ThreatManager::THREAT_UPDATE_INTERVAL`. -/
def threatUpdateInterval : ℕ := 1000

/-- The state of all units: the two heaps, the next free address, the managers, and
`UNIT_FLAG_IN_COMBAT`. The last field records the calls of `HeapNotifyIncreased` (`true`) and
`HeapNotifyDecreased`. -/
structure World (U : Type) where
  combatRefs : ℕ → Option (CombatReference U) := fun _ => none
  threatRefs : ℕ → Option (ThreatReference U) := fun _ => none
  nextRef : ℕ := 0
  combat : U → CombatManager U := fun _ => {}
  threat : U → ThreatManager U
  inCombat : U → Bool := fun _ => false
  notified : List (ℕ × Bool) := []

/-- A spell, as far as threat depends on it. -/
structure SpellInfo where
  id : ℕ
  noThreat : Bool
  suppressTargetProcs : Bool
  deriving DecidableEq, Repr

/-- What the managers ask the rest of the game, at a tick: the checks of `CanBeginCombat` for
distinct units, the checks of `ShouldBeOffline` and `ShouldBeSuppressed`, and so on. `units` are
all units, `order` is the order in which a map is traversed, and `heapOrder` that of a heap. The
bound `depth` is for the nesting of vehicles and private objects that `AddThreat` follows. -/
structure Env (U : Type) where
  units : List U
  nodup_units : units.Nodup
  mem_units : ∀ u, u ∈ units
  order : ℕ → List U
  order_perm : ∀ t, (order t).Perm units
  heapOrder : ℕ → List ℕ → List ℕ
  heapOrder_perm : ∀ t ids, (heapOrder t ids).Perm ids
  depth : ℕ
  canBeginCombat : ℕ → U → U → Bool
  isControlledByPlayer : ℕ → U → Bool
  isWithinDistInMap : ℕ → U → U → ℚ → Bool
  isImmuneToPC : ℕ → U → Bool
  isImmuneToNPC : ℕ → U → Bool
  isPlayerControlled : ℕ → U → Bool
  hasAI : ℕ → U → Bool
  shouldBeOffline : ℕ → U → U → Bool
  shouldBeSuppressed : ℕ → U → U → Bool
  hasDetaunt : ℕ → U → U → Bool
  tauntCasters : ℕ → U → List U
  isWithinMeleeRange : ℕ → U → U → Bool
  isEngaged : ℕ → U → Bool
  vehicleBase : ℕ → U → Option U
  isAccessory : ℕ → U → Bool
  isPrivateObject : ℕ → U → Bool
  checkPrivateObjectOwnerVisibility : ℕ → U → U → Bool
  privateObjectOwner : ℕ → U → U
  getUnit : ℕ → U → U → Bool
  calculateModifiedThreat : ℕ → ℚ → U → Option SpellInfo → ℚ
  isControlled : ℕ → U → Bool
  totalThreatModifier : ℕ → U → ℤ

/-- The calls into an AI. -/
inductive HandOff (U : Type) where
  | justEnteredCombat (me who : U)
  | justExitedCombat (me : U)
  | justStartedThreateningMe (me who : U)
  deriving DecidableEq

/-- A world, the tick, the calls into an AI so far, each with the world at that moment, and
whether `AddThreat` has met a nesting deeper than the bound. -/
structure Execution (U : Type) where
  world : World U
  tick : ℕ := 0
  handOffs : List (HandOff U × World U) := []
  outOfDepth : Bool := false

namespace Execution

variable {U : Type}

/-- Time goes on. -/
def next (e : Execution U) : Execution U :=
  { e with tick := e.tick + 1 }

/-- Change the world. -/
def update (e : Execution U) (f : World U → World U) : Execution U :=
  { e with world := f e.world }

/-- A call into an AI. -/
def handOff (e : Execution U) (call : HandOff U) : Execution U :=
  { e with handOffs := e.handOffs ++ [(call, e.world)] }

/-- A call into the AI of a unit, if it is due and the unit has an AI. -/
def notify (E : Env U) (e : Execution U) (due : Bool) (me : U) (call : HandOff U) : Execution U :=
  if due ∧ E.hasAI e.tick me then e.handOff call else e

end Execution

namespace World

/-! ### Heaps and maps -/

variable {U : Type}

/-- The references of a map, in the order in which it is traversed. -/
def entriesOf (order : List U) (map : U → Option ℕ) : List ℕ :=
  order.filterMap map

theorem mem_entriesOf {order : List U} {map : U → Option ℕ} {id : ℕ}
    (h : id ∈ entriesOf order map) :
    ∃ u, map u = some id := by
  obtain ⟨u, -, hu⟩ := List.mem_filterMap.mp h
  exact ⟨u, hu⟩

/-- The map of a unit for one kind of references. -/
def refs (w : World U) (pvp : Bool) (a b : U) : Option ℕ :=
  if pvp then (w.combat a).pvpRefs b else (w.combat a).pveRefs b

/-- Write a combat reference object. -/
def setCombatRef (w : World U) (id : ℕ) (r : CombatReference U) : World U :=
  { w with combatRefs := Function.update w.combatRefs id (some r) }

/-- Write a threat reference object. -/
def setThreatRef (w : World U) (id : ℕ) (r : ThreatReference U) : World U :=
  { w with threatRefs := Function.update w.threatRefs id (some r) }

variable [DecidableEq U]

/-- Change an entry of a map. -/
def setRef (w : World U) (pvp : Bool) (a b : U) (value : Option ℕ) : World U :=
  let m := w.combat a
  let m := if pvp then { m with pvpRefs := Function.update m.pvpRefs b value }
    else { m with pveRefs := Function.update m.pveRefs b value }
  { w with combat := Function.update w.combat a m }

/-- `PutReference`. -/
def putReference (w : World U) (a b : U) (pvp : Bool) (id : ℕ) : World U :=
  w.setRef pvp a b (some id)

/-- `PurgeReference`. -/
def purgeReference (w : World U) (a b : U) (pvp : Bool) : World U :=
  w.setRef pvp a b none

/-- Change the threat manager of a unit. -/
def setThreat (w : World U) (o : U) (f : ThreatManager U → ThreatManager U) : World U :=
  { w with threat := Function.update w.threat o (f (w.threat o)) }

@[simp] theorem refs_setRef (w : World U) (pvp pvp' : Bool) (a b x y : U) (value : Option ℕ) :
    (w.setRef pvp a b value).refs pvp' x y =
      if pvp' = pvp ∧ x = a ∧ y = b then value else w.refs pvp' x y := by
  by_cases hx : x = a
  · subst hx
    by_cases hy : y = b
    · subst hy
      cases pvp <;> cases pvp' <;> simp [refs, setRef]
    · cases pvp <;> cases pvp' <;> simp [refs, setRef, hy]
  · simp [refs, setRef, hx]

end World

end Combat

end IscServer
