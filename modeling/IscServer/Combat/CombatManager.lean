import IscServer.Combat.ThreatList

/-!
# The Combat Manager

`CombatManager` and `CombatReference` (`game/Combat/CombatManager.cpp`). Ending a combat clears the
threat between the two units first, which may select a new victim and call into an AI; the three
loops `Update`, `EndCombatBeyondRange` and `RevalidateCombat` erase the entry of their owner before
they end the combat (`endErased`), while `EndAllPvECombat` and `EndAllPvPCombat` collect the
references first.
-/

namespace IscServer

namespace Combat

variable {U : Type} [DecidableEq U] (E : Env U)

/-- `CanBeginCombat`: the two units need to be different, and further checks. -/
def canBeginCombat (t : ℕ) (a b : U) : Bool :=
  a ≠ b ∧ E.canBeginCombat t a b

namespace World

/-- `IsInCombatWith`. -/
def isInCombatWith (w : World U) (a b : U) : Bool :=
  (w.refs false a b).isSome || (w.refs true a b).isSome

/-- `HasPvECombat` and `HasPvPCombat`. -/
def hasCombatOf (w : World U) (pvp : Bool) (a : U) : Bool :=
  E.units.any fun b => ((w.refs pvp a b).bind w.combatRefs).any fun r => !r.isSuppressedFor a

/-- `HasCombat`. -/
def hasCombat (w : World U) (a : U) : Bool :=
  w.hasCombatOf E false a || w.hasCombatOf E true a

/-- `UpdateOwnerCombatState`: whether the flag has changed. -/
def updateOwnerCombatState (w : World U) (a : U) : Bool × World U :=
  let combatState := w.hasCombat E a
  if combatState = w.inCombat a then (false, w)
  else (true, { w with inCombat := Function.update w.inCombat a combatState })

/-- `delete` of a combat reference. -/
def freeCombatRef (w : World U) (id : ℕ) : World U :=
  { w with combatRefs := Function.update w.combatRefs id none }

end World

namespace Execution

/-- `UpdateOwnerCombatState`. -/
def updateOwnerCombatState (e : Execution U) (a : U) : Bool × Execution U :=
  let r := e.world.updateOwnerCombatState E a
  (r.1, { e with world := r.2 })

/-- `UpdateOwnerCombatState`, with `JustExitedCombat` if the flag has changed. -/
def leaveCombat (e : Execution U) (a : U) : Execution U :=
  let r := e.updateOwnerCombatState E a
  r.2.notify E r.1 a (.justExitedCombat a)

/-! ### References -/

/-- `EndCombat` of the reference `r` at the address `id`. -/
def endCombatRef (e : Execution U) (id : ℕ) (r : CombatReference U) : Execution U :=
  -- first, get rid of any threat that still exists...
  let e := (e.clearThreat E r.first r.second).clearThreat E r.second r.first
  -- ...then, remove the references from both managers...
  let e := e.update fun w =>
    (w.purgeReference r.first r.second r.isPvP).purgeReference r.second r.first r.isPvP
  -- ...update the combat state...
  let needFirstAI := e.updateOwnerCombatState E r.first
  let needSecondAI := needFirstAI.2.updateOwnerCombatState E r.second
  -- ...and if that happened, also notify the AI of it...
  let e := needSecondAI.2.notify E needFirstAI.1 r.first (.justExitedCombat r.first)
  let e := e.notify E needSecondAI.1 r.second (.justExitedCombat r.second)
  -- ...and finally clean up the reference object
  e.update fun w => w.freeCombatRef id

/-- `EndCombat`. -/
def endCombat (e : Execution U) (id : ℕ) : Execution U :=
  match e.world.combatRefs id with
  | none => e
  | some r => e.next.endCombatRef E id r

/-- `EndCombat` of a reference that a loop has erased from the map of its owner. -/
def endErased (e : Execution U) (a b : U) (pvp : Bool) (id : ℕ) : Execution U :=
  (e.update fun w => w.purgeReference a b pvp).endCombat E id

/-- `NotifyAICombat`. -/
def notifyAICombat (e : Execution U) (due : Bool) (me other : U) : Execution U :=
  e.notify E due me (.justEnteredCombat me other)

/-- `Refresh`. -/
def refresh (e : Execution U) (id : ℕ) : Execution U :=
  match e.world.combatRefs id with
  | none => e
  | some r =>
    let needFirstAI := if r.suppressFirst then
        (e.update fun w => w.setCombatRef id
          { r with suppressFirst := false }).updateOwnerCombatState E
          r.first
      else (false, e)
    let needSecondAI := if r.suppressSecond then
        (needFirstAI.2.update fun w => w.setCombatRef id
          { r with suppressFirst := false, suppressSecond := false }).updateOwnerCombatState E
            r.second
      else (false, needFirstAI.2)
    let e := needSecondAI.2.notifyAICombat E needFirstAI.1 r.first r.second
    e.notifyAICombat E needSecondAI.1 r.second r.first

/-- `RefreshTimer`. -/
def refreshTimer (e : Execution U) (id : ℕ) : Execution U :=
  match e.world.combatRefs id with
  | none => e
  | some r => e.update fun w => w.setCombatRef id { r with combatTimer := pvpCombatTimeout }

/-- `SuppressFor`, of the reference of a unit with another one. -/
def suppressFor (e : Execution U) (pvp : Bool) (who other : U) : Execution U :=
  match e.world.refs pvp who other with
  | none => e
  | some id =>
    match e.world.combatRefs id with
    | none => e
    | some r => (e.update fun w => w.setCombatRef id (r.suppress who)).leaveCombat E who

/-- `EndCombat`, of the reference of a unit with another one. -/
def endCombatWith (e : Execution U) (pvp : Bool) (a b : U) : Execution U :=
  match e.world.refs pvp a b with
  | none => e
  | some id => e.endCombat E id

/-! ### Managers -/

/-- The part of `SetInCombatWith` that creates a reference. -/
def beginCombat (e : Execution U) (a who : U) (addSecondUnitSuppressed : Bool) : Execution U :=
  let pvp := E.isControlledByPlayer e.tick a && E.isControlledByPlayer e.tick who
  let r : CombatReference U := { first := a, second := who, isPvP := pvp }
  let r := if addSecondUnitSuppressed then r.suppress who else r
  let id := e.world.nextRef
  -- insert it into both managers
  let e := e.update fun w =>
    (({ w with nextRef := id + 1 }.setCombatRef id r).putReference a who pvp id).putReference who
      a pvp id
  -- update the combat state, which will set both units in combat
  let needSelfAI := e.updateOwnerCombatState E a
  let needOtherAI := needSelfAI.2.updateOwnerCombatState E who
  -- then, we finally notify the AI
  let e := needOtherAI.2.notifyAICombat E needSelfAI.1 a who
  e.notifyAICombat E needOtherAI.1 who a

/-- `SetInCombatWith`. -/
def setInCombatWith (e : Execution U) (a who : U) (addSecondUnitSuppressed : Bool) :
    Bool × Execution U :=
  let e := e.next
  match e.world.refs true a who with
  | some existingPvpRef => (true, (e.refreshTimer existingPvpRef).refresh E existingPvpRef)
  | none =>
    match e.world.refs false a who with
    | some existingPveRef => (true, e.refresh E existingPveRef)
    | none =>
      if !canBeginCombat E e.tick a who then (false, e)
      else
        let e := e.beginCombat E a who addSecondUnitSuppressed
        (e.world.isInCombatWith a who, e)

/-- Units that are immune to the target do not inherit the combat with it. -/
def isImmuneTo (t : ℕ) (a target : U) : Bool :=
  E.isImmuneToPC t a && E.isPlayerControlled t target ||
    E.isImmuneToNPC t a && !E.isPlayerControlled t target

/-- One round of `InheritCombatStatesFrom`; entries of the first kind that are there already are
skipped. -/
def inheritRef (a who : U) (pvp : Bool) (e : Execution U) (guid : U) : Execution U :=
  match (e.world.refs pvp who guid).bind e.world.combatRefs with
  | none => e
  | some r =>
    if !pvp && e.world.isInCombatWith a guid then e
    else if isImmuneTo E e.tick a (r.getOther who) then e
    else (e.setInCombatWith E a (r.getOther who) false).2

/-- `InheritCombatStatesFrom`. -/
def inheritCombatStatesFrom (e : Execution U) (a who : U) : Execution U :=
  let e := (E.order e.tick).foldl (inheritRef E a who false) e
  (E.order e.tick).foldl (inheritRef E a who true) e

/-- One round of a loop that ends the combats that do not pass a test. -/
def endUnless (a : U) (pvp : Bool) (keep : ℕ → CombatReference U → Bool) (e : Execution U) (b : U) :
    Execution U :=
  match e.world.refs pvp a b with
  | none => e
  | some id =>
    match e.world.combatRefs id with
    | none => e
    | some r => if keep e.tick r then e else e.endErased E a b pvp id

/-- One round of `Update`: only the first unit of a reference runs its timer. -/
def updateRef (a : U) (tdiff : ℕ) (e : Execution U) (b : U) : Execution U :=
  match e.world.refs true a b with
  | none => e
  | some id =>
    match e.world.combatRefs id with
    | none => e
    | some r =>
      if r.first = a then
        if r.combatTimer ≤ tdiff then e.endErased E a b true id
        else e.update fun w => w.setCombatRef id { r with combatTimer := r.combatTimer - tdiff }
      else e

/-- `Update`. -/
def combatUpdate (e : Execution U) (a : U) (tdiff : ℕ) : Execution U :=
  (E.order e.tick).foldl (updateRef E a tdiff) e

/-- The test of `EndCombatBeyondRange`. -/
def inRange (range : ℚ) (t : ℕ) (r : CombatReference U) : Bool :=
  E.isWithinDistInMap t r.first r.second range

/-- `EndCombatBeyondRange`. -/
def endCombatBeyondRange (e : Execution U) (a : U) (range : ℚ) (includingPvP : Bool) :
    Execution U :=
  let e := (E.order e.tick).foldl (endUnless E a false (inRange E range)) e
  if !includingPvP then e else (E.order e.tick).foldl (endUnless E a true (inRange E range)) e

/-- The test of `RevalidateCombat`. -/
def stillValid (a : U) (t : ℕ) (r : CombatReference U) : Bool :=
  canBeginCombat E t a (r.getOther a)

/-- `RevalidateCombat`. -/
def revalidateCombat (e : Execution U) (a : U) : Execution U :=
  let e := (E.order e.tick).foldl (endUnless E a false (stillValid E a)) e
  (E.order e.tick).foldl (endUnless E a true (stillValid E a)) e

/-- One round of `SuppressPvPCombat`. -/
def suppressRef (a : U) (filter : U → Bool) (w : World U) (b : U) : World U :=
  match w.refs true a b with
  | none => w
  | some id =>
    match w.combatRefs id with
    | none => w
    | some r => if filter (r.getOther a) then w.setCombatRef id (r.suppress a) else w

/-- `SuppressPvPCombat`. -/
def suppressPvPCombat (e : Execution U) (a : U) (filter : ℕ → U → Bool) : Execution U :=
  (e.update fun w => (E.order e.tick).foldl (suppressRef a (filter e.tick)) w).leaveCombat E a

/-- The references of a map whose other unit passes a filter. -/
def collectRefs (e : Execution U) (a : U) (pvp : Bool) (filter : ℕ → U → Bool) : List ℕ :=
  (World.entriesOf (E.order e.tick) (e.world.refs pvp a)).filter fun id =>
    (e.world.combatRefs id).any fun r => filter e.tick (r.getOther a)

/-- `EndAllPvPCombat`. -/
def endAllPvPCombat (e : Execution U) (a : U) (filter : ℕ → U → Bool) : Execution U :=
  (e.collectRefs E a true filter).foldl (endCombat E) e

/-- `EndAllPvECombat`: no threat without combat. -/
def endAllPvECombat (e : Execution U) (a : U) (filter : ℕ → U → Bool) : Execution U :=
  let e := ((e.removeMeFromThreatLists E a (filter e.tick)).clearAllThreat E a).next
  (e.collectRefs E a false filter).foldl (endCombat E) e

end Execution

end Combat

end IscServer
