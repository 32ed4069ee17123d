import IscServer.Combat.CombatManager

/-!
# The Threat Manager

The part of `ThreatManager` (`game/Combat/ThreatManager.cpp`) that creates threat references. Adding
threat puts the two units in combat first, and follows vehicles, private objects and redirections.
`step` collects the operations of both managers.
-/

namespace IscServer

namespace Combat

variable {U : Type} [DecidableEq U] (E : Env U)

namespace World

/-- `PutThreatListRef`. -/
def putThreatListRef (w : World U) (o v : U) (id : ℕ) : World U :=
  w.setThreat o fun m => { m with
    myThreatListEntries := Function.update m.myThreatListEntries v (some id)
    sortedThreatList := id :: m.sortedThreatList }

/-- `PutThreatenedByMeRef`. -/
def putThreatenedByMeRef (w : World U) (v o : U) (id : ℕ) : World U :=
  w.setThreat v fun m => { m with threatenedByMe := Function.update m.threatenedByMe o (some id) }

/-- A new threat reference, pushed to the respective managers. -/
def newThreatRef (w : World U) (o v : U) : World U :=
  let id := w.nextRef
  (({ w with nextRef := id + 1 }.setThreatRef id { owner := o, victim := v }).putThreatListRef o v
    id).putThreatenedByMeRef v o id

/-- More threat for an entry that exists. Suppressed entries do not go back online until threat is
caused by them. -/
def increaseThreat (t : ℕ) (amount : ℚ) (w : World U) (id : ℕ) : World U :=
  match w.threatRefs id with
  | none => w
  | some r =>
    let wakes := r.online = .suppressed ∧ !shouldBeSuppressed E t r
    let w := if wakes then w.touch id { r with online := .online } true else w
    if wakes ∨ r.online = .online then w.addRefThreat amount id else w

/-- The threat of a new entry, if it is available. -/
def startThreat (t : ℕ) (amount : ℚ) (w : World U) (id : ℕ) : World U :=
  let w := w.updateOffline E t id
  if (w.threatRefs id).any fun r => r.online = .online then w.addRefThreat amount id else w

/-- `GetThreat` of a target, offline entries included. -/
def getThreat (w : World U) (o target : U) : ℚ :=
  match ((w.threat o).myThreatListEntries target).bind w.threatRefs with
  | none => 0
  | some r => r.getThreat

end World

namespace Execution

/-- The end of `AddThreat`, once the units are in combat. -/
def applyThreat (e : Execution U) (o target : U) (amount : ℚ) : Execution U :=
  match (e.world.threat o).myThreatListEntries target with
  | some id => e.update fun w => w.increaseThreat E e.tick amount id
  | none =>
    let id := e.world.nextRef
    let e := (e.update fun w => (w.newThreatRef o target).startThreat E e.tick amount id).next
    if (e.world.threat o).currentVictimRef = none then e.updateVictim E o
    else e.processAIUpdates E o

/-- `AddThreat` for an owner without a threat list: only the combat state is set, for the target
and for its redirections. -/
def engageOnly (e : Execution U) (o target : U) : Execution U :=
  let r := e.setInCombatWith E o target false
  if !r.1 then r.2
  else
    (r.2.world.threat target).redirectInfo.foldl (fun e pair =>
      let e := e.next
      if !e.world.isInCombatWith o pair.1 && E.getUnit e.tick o pair.1 then
        (e.setInCombatWith E o pair.1 false).2
      else e) r.2

/-- The unit that a redirection goes to, looked up in the threat list first. -/
def redirectTarget (e : Execution U) (o guid : U) : Option U :=
  match (e.world.threat o).myThreatListEntries guid with
  | some id => (e.world.threatRefs id).map fun r => r.victim
  | none => if E.getUnit e.tick o guid then some guid else none

/-- The redirections of `AddThreat`: `add` is the nested call. -/
def redirectThreat (add : Execution U → U → ℚ → Execution U) (o : U) (origAmount : ℚ)
    (info : List (U × ℕ)) (e : Execution U) : Execution U × ℚ :=
  info.foldl (fun (e, amount) pair =>
    let e := e.next
    match e.redirectTarget E o pair.1 with
    | none => (e, amount)
    | some redirTarget =>
      let amountRedirected := origAmount * pair.2 / 100
      (add e redirTarget amountRedirected, amount - amountRedirected)) (e, origAmount)

/-- `AddThreat`. Vehicles and private objects are followed to the depth of the environment. -/
def addThreat : ℕ → Execution U → U → U → ℚ → Option SpellInfo → Bool → Bool → Execution U
  | 0, e, _, _, _, _, _, _ => { e with outOfDepth := true }
  | depth + 1, e, o, target, amount, spell, ignoreModifiers, ignoreRedirects =>
    let e := e.next
    let t := e.tick
    if spell.any fun s => s.noThreat || !E.isEngaged t o && s.suppressTargetProcs then e
    else
      -- while riding a vehicle, all threat goes to the vehicle, not the pilot
      let vehicle := match E.vehicleBase t target with
        | none => (e, amount)
        | some vehicle =>
          (addThreat depth e o vehicle amount spell ignoreModifiers ignoreRedirects, 0)
      if (E.vehicleBase t target).isSome && E.isAccessory t target then vehicle.1
      else
        -- if the victim is a personal spawn, redirect all aggro to the summoner
        let owner := if E.isPrivateObject t target &&
            (!E.isPrivateObject t o || !E.checkPrivateObjectOwnerVisibility t o target) &&
            E.getUnit t o (E.privateObjectOwner t target) then
          (addThreat depth vehicle.1 o (E.privateObjectOwner t target) vehicle.2 spell
            ignoreModifiers
            ignoreRedirects, 0)
          else vehicle
        if !(owner.1.world.threat o).ownerCanHaveThreatList then owner.1.engageOnly E o target
        else
          let amount := if ignoreModifiers then owner.2
            else E.calculateModifiedThreat t owner.2 target spell
          -- if we are increasing threat, send some of it to redirection targets
          let info := (owner.1.world.threat target).redirectInfo
          let redirected := if !ignoreRedirects && decide (amount > 0) then
              redirectThreat E (fun e v n => addThreat depth e o v n spell true true) o amount
                info owner.1
            else (owner.1, amount)
          -- ensure we are in combat: threat implies combat
          let r := redirected.1.setInCombatWith E o target false
          if !r.1 then r.2 else r.2.applyThreat E o target redirected.2

/-- `MatchUnitThreatToHighestThreat`. -/
def matchUnitThreatToHighestThreat (e : Execution U) (o target : U) : Execution U :=
  match e.world.threatList E e.tick o with
  | [] => e
  | highest :: rest =>
    if !highest.2.isAvailable then e
    else
      let next := if highest.2.isTaunting then
          rest.head?.filter fun a =>
            a.2.isAvailable && decide (a.2.getThreat > highest.2.getThreat)
        else none
      let threat := (next.getD highest).2.getThreat - e.world.getThreat o target
      addThreat E E.depth e o target threat none true true

/-- `ForwardThreatForAssistingMe`: targets under crowd control cannot gain assist threat. -/
def forwardThreatForAssistingMe (e : Execution U) (a assistant : U) (baseAmount : ℚ)
    (spell : Option SpellInfo) (ignoreModifiers : Bool) : Execution U :=
  if spell.any fun s => s.noThreat then e
  else
    let owners := (World.entriesOf (E.order e.tick) (e.world.threat a).threatenedByMe).filterMap
      fun id => (e.world.threatRefs id).map fun r => r.owner
    let canBeThreatened := owners.filter fun o => !E.isControlled e.tick o
    let cannotBeThreatened := owners.filter fun o => E.isControlled e.tick o
    let perTarget := baseAmount / canBeThreatened.length
    let e := canBeThreatened.foldl
      (fun e o => addThreat E E.depth e o assistant perTarget spell ignoreModifiers false) e
    cannotBeThreatened.foldl (fun e o => addThreat E E.depth e o assistant 0 spell true false) e

/-- What `RegisterRedirectThreat` and `UnregisterRedirectThreat` leave behind. -/
def setRedirectInfo (e : Execution U) (a : U) (redirectInfo : List (U × ℕ)) : Execution U :=
  e.update fun w => w.setThreat a fun m => { m with redirectInfo }

end Execution

/-! ### Operations -/

/-- The operations of the combat manager and of its references. -/
inductive CombatOp (U : Type) where
  | setInCombatWith (a who : U) (addSecondUnitSuppressed : Bool)
  | inheritCombatStatesFrom (a who : U)
  | update (a : U) (tdiff : ℕ)
  | endCombatBeyondRange (a : U) (range : ℚ) (includingPvP : Bool)
  | suppressPvPCombat (a : U) (filter : ℕ → U → Bool)
  | suppressFor (pvp : Bool) (who other : U)
  | endAllPvECombat (a : U) (filter : ℕ → U → Bool)
  | endAllPvPCombat (a : U) (filter : ℕ → U → Bool)
  | revalidateCombat (a : U)
  | endCombat (pvp : Bool) (a b : U)

/-- The operations of the threat manager. -/
inductive ThreatOp (U : Type) where
  | addThreat (o target : U) (amount : ℚ) (spell : Option SpellInfo)
      (ignoreModifiers ignoreRedirects : Bool)
  | scaleThreat (o target : U) (factor : ℚ)
  | matchUnitThreatToHighestThreat (o target : U)
  | tauntUpdate (o : U)
  | resetAllThreat (o : U)
  | clearThreat (o target : U)
  | clearAllThreat (o : U)
  | fixateTarget (o : U) (target : Option U)
  | evaluateSuppressed (a : U) (canExpire : Bool)
  | updateMyTempModifiers (a : U)
  | forwardThreatForAssistingMe (a assistant : U) (baseAmount : ℚ) (spell : Option SpellInfo)
      (ignoreModifiers : Bool)
  | removeMeFromThreatLists (a : U) (filter : ℕ → U → Bool)
  | update (o : U) (tdiff : ℕ)
  | getCurrentVictim (o : U)
  | setRedirectInfo (a : U) (redirectInfo : List (U × ℕ))

/-- The operations of both managers. -/
inductive Op (U : Type) where
  | combat (op : CombatOp U)
  | threat (op : ThreatOp U)

namespace Execution

/-- One operation of the combat manager. -/
def combatStep (e : Execution U) : CombatOp U → Execution U
  | .setInCombatWith a who addSecondUnitSuppressed =>
    (e.setInCombatWith E a who addSecondUnitSuppressed).2
  | .inheritCombatStatesFrom a who => e.inheritCombatStatesFrom E a who
  | .update a tdiff => e.combatUpdate E a tdiff
  | .endCombatBeyondRange a range includingPvP => e.endCombatBeyondRange E a range includingPvP
  | .suppressPvPCombat a filter => e.suppressPvPCombat E a filter
  | .suppressFor pvp who other => e.suppressFor E pvp who other
  | .endAllPvECombat a filter => e.endAllPvECombat E a filter
  | .endAllPvPCombat a filter => e.endAllPvPCombat E a filter
  | .revalidateCombat a => e.revalidateCombat E a
  | .endCombat pvp a b => e.endCombatWith E pvp a b

/-- One operation of the threat manager. -/
def threatStep (e : Execution U) : ThreatOp U → Execution U
  | .addThreat o target amount spell ignoreModifiers ignoreRedirects =>
    addThreat E E.depth e o target amount spell ignoreModifiers ignoreRedirects
  | .scaleThreat o target factor => e.scaleThreat o target factor
  | .matchUnitThreatToHighestThreat o target => e.matchUnitThreatToHighestThreat E o target
  | .tauntUpdate o => e.tauntUpdate E o
  | .resetAllThreat o => e.resetAllThreat E o
  | .clearThreat o target => e.clearThreat E o target
  | .clearAllThreat o => e.clearAllThreat E o
  | .fixateTarget o target => e.fixateTarget o target
  | .evaluateSuppressed a canExpire => e.evaluateSuppressed E a canExpire
  | .updateMyTempModifiers a => e.updateMyTempModifiers E a
  | .forwardThreatForAssistingMe a assistant baseAmount spell ignoreModifiers =>
    e.forwardThreatForAssistingMe E a assistant baseAmount spell ignoreModifiers
  | .removeMeFromThreatLists a filter => e.removeMeFromThreatLists E a (filter e.tick)
  | .update o tdiff => e.threatUpdate E o tdiff
  | .getCurrentVictim o => e.getCurrentVictim E o
  | .setRedirectInfo a redirectInfo => e.setRedirectInfo a redirectInfo

/-- One operation, each at a tick of its own. -/
def step (e : Execution U) : Op U → Execution U
  | .combat op => e.next.combatStep E op
  | .threat op => e.next.threatStep E op

/-- Units without any reference; `canHaveThreatList` is what `Initialize` finds out about them. -/
def new (canHaveThreatList : U → Bool) : Execution U where
  world := { threat := fun u => { ownerCanHaveThreatList := canHaveThreatList u } }

end Execution

end Combat

end IscServer
