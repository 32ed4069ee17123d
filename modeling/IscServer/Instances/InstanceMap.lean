import IscServer.Instances.InstanceIds

/-!
# Resets of Instance Maps

`InstanceMap::Reset` (`game/Maps/Map.cpp`). A global reset spares a map that somebody is still locked to:
a player inside whose bind did not run out, or any character with a permanent row. The statement for the
rows takes the id of the instance as 16 bits.

## Main results

* `wiped_eq` — what a global reset goes by.
* `resetsUnlocked_iff` — when it wipes exactly the maps that nobody is locked to.
-/

namespace IscServer.Instances

open List

inductive InstanceResetMethod
  | all
  | changeDifficulty
  | global
  | groupDisband
  | groupJoin
  | respawnDelay
  deriving DecidableEq

inductive BindExtensionState
  | expired
  | normal
  | extended
  deriving DecidableEq

/-- `InstancePlayerBind`, with the id of its save. -/
structure InstancePlayerBind where
  instanceId : UInt32
  extendState : BindExtensionState

/-- A player inside: the binds by difficulty and map, and the maps it was told could not be reset. -/
structure Player where
  boundInstances : ℕ → ℕ → Option InstancePlayerBind
  instanceValid : Bool
  resetFailedNotify : List ℕ

/-- A row of `character_instance`. -/
structure CharacterInstance where
  guid : ℕ
  instanceId : UInt32
  permanent : Bool

/-- `InstanceMap`. What `m_resetAfterUnload` stands for is wiped when the map unloads. -/
structure InstanceMap where
  id : ℕ
  difficultyID : ℕ
  instanceId : UInt32
  players : List Player
  unloadTimer : ℕ
  unloadWhenEmpty : Bool
  resetAfterUnload : Bool

/-- `MIN_UNLOAD_DELAY`. -/
def minUnloadDelay : ℕ := 1

variable (maps : Maps) (rows : List CharacterInstance)

def Player.getBoundInstance (player : Player) (mapid difficulty : ℕ) (withExpired : Bool) :
    Option InstancePlayerBind :=
  match maps.getDownscaledMapDifficultyData mapid difficulty with
  | none => none
  | some difficulty =>
    (player.boundInstances difficulty mapid).filter fun bind =>
      bind.extendState ≠ .expired || withExpired

namespace InstanceMap

variable (map : InstanceMap)

/-- `HasPermBoundPlayers`: the parameter of the statement is a `uint16`. -/
def hasPermBoundPlayers : Bool :=
  rows.any fun row => row.instanceId = map.instanceId.toUInt16.toUInt32 && row.permanent

/-- The player has a bind to this instance that did not run out: the reset extended it. -/
def keeps (player : Player) : Bool :=
  match player.getBoundInstance maps map.id map.difficultyID false with
  | none => false
  | some bind => bind.extendState ≠ .expired && bind.instanceId = map.instanceId

/-- `Reset`, and whether the map is empty. -/
def reset (method : InstanceResetMethod) : Bool × InstanceMap :=
  let hasPlayers := !map.players.isEmpty
  (!hasPlayers,
    if hasPlayers then
      if method = .all ∨ method = .changeDifficulty then
        { map with players := map.players.map fun player =>
            { player with resetFailedNotify := player.resetFailedNotify ++ [map.id] } }
      else
        let isGlobal := decide (method = .global)
        let players := if isGlobal then map.players.map fun player =>
            if map.keeps maps player then player else { player with instanceValid := false }
          else map.players
        let doUnload := !(isGlobal &&
          (map.players.any (map.keeps maps) || map.hasPermBoundPlayers rows))
        if doUnload then
          { map with players := players, unloadWhenEmpty := true, resetAfterUnload := true }
        else { map with players := players }
    else
      { map with
        unloadTimer := minUnloadDelay
        resetAfterUnload := !(method = .global && map.hasPermBoundPlayers rows) })

/-- The flag after a global reset that finds it cleared. -/
def wiped : Bool :=
  (reset maps rows { map with resetAfterUnload := false } .global).2.resetAfterUnload

/-- A character has a permanent row for this very instance. -/
def PermBound : Prop := ∃ row ∈ rows, row.instanceId = map.instanceId ∧ row.permanent = true

/-- **A global reset wipes** the map if and only if nobody is locked to it. -/
def ResetsUnlocked : Prop :=
  map.wiped maps rows = true ↔
    (∀ player ∈ map.players, map.keeps maps player = false) ∧ ¬ map.PermBound rows

/-- A global reset goes by the binds of the players inside and by the answer to the query. -/
theorem wiped_eq : map.wiped maps rows =
    !(map.players.any (map.keeps maps) || map.hasPermBoundPlayers rows) := by
  obtain ⟨id, difficultyID, instanceId, players, unloadTimer, unloadWhenEmpty, flag⟩ := map
  cases players with
  | nil => rfl
  | cons player players =>
    rw [wiped, reset]
    dsimp only
    rw [if_pos (show (!(player :: players).isEmpty) = true from rfl),
      if_neg (show ¬ (InstanceResetMethod.global = .all ∨ _) by decide),
      apply_ite resetAfterUnload]
    split
    · next h => exact h.symm
    · next h => exact (Bool.eq_false_iff.mpr h).symm

/-- **The right wipes**: somebody inside keeps a bind, or the query finds permanent rows exactly if this
instance has some. -/
theorem resetsUnlocked_iff : map.ResetsUnlocked maps rows ↔
    (∃ player ∈ map.players, map.keeps maps player = true) ∨
      (map.hasPermBoundPlayers rows = true ↔ map.PermBound rows) := by
  have hwiped : map.wiped maps rows = true ↔
      (∀ player ∈ map.players, map.keeps maps player = false) ∧
        ¬ map.hasPermBoundPlayers rows = true := by
    simp [wiped_eq]
  rw [ResetsUnlocked, hwiped, and_congr_right_iff, not_iff_not, imp_iff_not_or]
  simp

end InstanceMap

/-- An empty map of instance 65541: the query asks for instance 5. -/
theorem not_resetsUnlocked_large :
    ¬ InstanceMap.ResetsUnlocked noMaps [⟨1, 65541, true⟩] ⟨0, 0, 65541, [], 0, false, false⟩ := by
  have hwiped : InstanceMap.wiped noMaps [⟨1, 65541, true⟩] ⟨0, 0, 65541, [], 0, false, false⟩ =
    true := by decide
  exact fun h => (h.mp hwiped).2 ⟨_, mem_singleton_self _, rfl, rfl⟩

end IscServer.Instances
