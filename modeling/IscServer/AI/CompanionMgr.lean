import IscServer.Library.Run
import Mathlib.Data.Finset.Card

/-!
# Companions

`CompanionMgr` and `CompanionAI` (`game/AI/Companion`). A player recruits creatures that follow
and assist; who follows whom is stored twice, as the `_ownerGuid` of the AI of the creature and
in the list `_activeCompanions` of the player. The AI repairs the list when the creature dies,
respawns, is sent away or has lost sight of its owner.

Creatures are found by the map and the identifier: the counters in the identifiers of creatures
are drawn per map, so two creatures on different maps may have the same identifier. The faction,
the movement and the reactions of a companion are left out.
-/

namespace IscServer

namespace Companions

/-- `MAX_COMPANIONS`. -/
def maxCompanions : ℕ := 4

/-- `COMPANION_CHECK_INTERVAL`. -/
def companionCheckInterval : ℕ := 1000

/-- The creatures of a realm. `isCompanion` is the look-up of the entry in `companion_template`,
`hasCompanionAI` the `dynamic_cast` of the AI, and `getCreature` the look-up on a map. -/
structure Realm (ι : Type) where
  guid : ι → ℕ
  map : ι → ℕ
  isCompanion : ι → Bool
  hasCompanionAI : ι → Bool
  getCreature : ℕ → ℕ → Option ι
  getCreature_eq : ∀ m g c, getCreature m g = some c ↔ map c = m ∧ guid c = g

/-- The state of all companions and of `CompanionMgr`, with the map on which each player is in
the world. -/
structure State (ι : Type) where
  ownerGuid : ι → Option ℕ := fun _ => none
  isAlive : ι → Bool := fun _ => true
  checkTimer : ι → ℕ := fun _ => 0
  activeCompanions : ℕ → Option (List ℕ) := fun _ => none
  playerMap : ℕ → Option ℕ := fun _ => none

variable {ι : Type} [DecidableEq ι]

namespace State

variable (R : Realm ι)

/-- `GetCompanions`. -/
def getCompanions (s : State ι) (playerGuid : ℕ) : List ℕ :=
  (s.activeCompanions playerGuid).getD []

/-- `IsRecruited`. -/
def isRecruited (s : State ι) (c : ι) : Bool :=
  (s.ownerGuid c).isSome

/-- `OnCompanionDismissed`. -/
def onCompanionDismissed (s : State ι) (playerGuid companionGuid : ℕ) : State ι :=
  match s.activeCompanions playerGuid with
  | none => s
  | some companions =>
    let rest := companions.filter (· ≠ companionGuid)
    let entry := if rest = [] then none else some rest
    { s with activeCompanions := Function.update s.activeCompanions playerGuid entry }

/-- `NotifyDismissed`. -/
def notifyDismissed (s : State ι) (c : ι) : State ι :=
  match s.ownerGuid c with
  | none => s
  | some owner =>
    let s := s.onCompanionDismissed owner (R.guid c)
    { s with ownerGuid := Function.update s.ownerGuid c none }

/-- `StartFollowing`. -/
def startFollowing (s : State ι) (c : ι) (playerGuid : ℕ) : State ι :=
  { s with ownerGuid := Function.update s.ownerGuid c (some playerGuid) }

/-- `StopFollowing`. -/
def stopFollowing (s : State ι) (c : ι) : State ι :=
  s.notifyDismissed R c

/-- The checks of `Recruit`. -/
def canRecruit (s : State ι) (playerGuid : ℕ) (c : ι) : Bool :=
  R.isCompanion c && s.isAlive c && R.hasCompanionAI c && !s.isRecruited c &&
    decide ((s.getCompanions playerGuid).length < maxCompanions)

/-- `Recruit`. -/
def recruit (s : State ι) (playerGuid : ℕ) (c : ι) : Bool × State ι :=
  if s.canRecruit R playerGuid c then
    let companions := s.getCompanions playerGuid ++ [R.guid c]
    let s := { s with
      activeCompanions := Function.update s.activeCompanions playerGuid (some companions) }
    (true, s.startFollowing c playerGuid)
  else (false, s)

/-- The look-up of a companion in `DismissAll`: `ObjectAccessor::GetCreature(*player, guid)` and
the cast of its AI. -/
def findCompanion (s : State ι) (playerGuid companionGuid : ℕ) : Option ι :=
  ((s.playerMap playerGuid).bind fun m => R.getCreature m companionGuid).filter R.hasCompanionAI

/-- The loop body of `DismissAll`. -/
def dismissOne (playerGuid : ℕ) (s : State ι) (companionGuid : ℕ) : State ι :=
  match s.findCompanion R playerGuid companionGuid with
  | none => s
  | some c => s.stopFollowing R c

/-- `DismissAll`. -/
def dismissAll (s : State ι) (playerGuid : ℕ) : State ι :=
  match s.activeCompanions playerGuid with
  | none => s
  | some companions =>
    let s := companions.foldl (dismissOne R playerGuid) s
    { s with activeCompanions := Function.update s.activeCompanions playerGuid none }

/-- `ObjectAccessor::GetPlayer(*me, _ownerGuid)`. -/
def ownerOnMap (s : State ι) (c : ι) : Option ℕ :=
  (s.ownerGuid c).filter fun owner => s.playerMap owner = some (R.map c)

/-- `UpdateAI`. `follows` tells whether the companion is out of combat and has stopped
following. -/
def updateAI (s : State ι) (c : ι) (diff : ℕ) (follows : Bool) : State ι :=
  if !s.isRecruited c || !s.isAlive c then s
  else if s.checkTimer c > diff then
    { s with checkTimer := Function.update s.checkTimer c (s.checkTimer c - diff) }
  else
    let s := { s with checkTimer := Function.update s.checkTimer c companionCheckInterval }
    match s.ownerOnMap R c with
    | none => s.stopFollowing R c
    | some owner => if follows then s.startFollowing c owner else s

/-- `EnterEvadeMode`, once the creature has left combat. -/
def enterEvadeMode (s : State ι) (c : ι) : State ι :=
  match s.ownerOnMap R c with
  | none => s
  | some owner => s.startFollowing c owner

/-- `OnGossipSelect`. -/
def onGossipSelect (s : State ι) (playerGuid : ℕ) (c : ι) (gossipListId : ℕ) : State ι :=
  if gossipListId ≠ 0 then s
  else if s.ownerGuid c = some playerGuid then s.stopFollowing R c
  else if !s.isRecruited c then (s.recruit R playerGuid c).2
  else s

end State

/-- The events. -/
inductive Op (ι : Type) where
  | recruit (playerGuid : ℕ) (c : ι)
  | gossipSelect (playerGuid : ℕ) (c : ι) (gossipListId : ℕ)
  | stopFollowing (c : ι)
  | justDied (c : ι)
  | justAppeared (c : ι)
  | updateAI (c : ι) (diff : ℕ) (follows : Bool)
  | enterEvadeMode (c : ι)
  | changeMap (playerGuid : ℕ) (map : Option ℕ)
  | dismissAll (playerGuid : ℕ)

/-- One event. A player who changes the map or logs out is not in the world for a while: that is
`changeMap` to `none`. -/
def step (R : Realm ι) (s : State ι) : Op ι → State ι
  | .recruit playerGuid c => (s.recruit R playerGuid c).2
  | .gossipSelect playerGuid c gossipListId => s.onGossipSelect R playerGuid c gossipListId
  | .stopFollowing c => s.stopFollowing R c
  | .justDied c => { s with isAlive := Function.update s.isAlive c false }.notifyDismissed R c
  | .justAppeared c => { s with isAlive := Function.update s.isAlive c true }.notifyDismissed R c
  | .updateAI c diff follows => s.updateAI R c diff follows
  | .enterEvadeMode c => s.enterEvadeMode R c
  | .changeMap playerGuid map =>
    { s with playerMap := Function.update s.playerMap playerGuid map }
  | .dismissAll playerGuid => s.dismissAll R playerGuid

end Companions

end IscServer
