import IscServer.Library.Keyed

/-!
# Reputation

`ReputationMgr` (`game/Reputation/ReputationMgr.h`, `game/Reputation/ReputationMgr.cpp`): the
standings of a player with the factions, their flags, and the counters of factions by rank.

* The factions and the spillover templates are a `World`; the floating point numbers of their rates are
  a parameter, with the conversions that spillover uses. The ids fit the column of the table in which
  standings are saved.
* The eight bits of `ReputationFlags` are the fields of a structure.
* A `FactionState*` is the state in the list with the same `ReputationListID`.
* The rows of `character_reputation` are those of the one player.
-/

namespace IscServer.Reputation

/-! ### Flags and ranks -/

/-- `ReputationFlags`. -/
structure ReputationFlags where
  visible : Bool
  atWar : Bool
  hidden : Bool
  header : Bool
  peaceful : Bool
  inactive : Bool
  showPropagated : Bool
  headerShowsBar : Bool
  deriving DecidableEq, Repr

/-- `ReputationFlags::None`. -/
def ReputationFlags.none : ReputationFlags := ⟨false, false, false, false, false, false, false, false⟩

/-- `ReputationRankThresholds`, in the order of the set. -/
def reputationRankThresholds : List ℤ := [-42000, -6000, -3000, 0, 3000, 9000, 21000, 42000, 43000]

/-- `Reputation_Cap`. -/
def reputationCap : ℤ := 42999

/-- `Reputation_Bottom`. -/
def reputationBottom : ℤ := -42000

/-- `REP_HATED`, the first of the eight values of `ReputationRank`. -/
def repHated : ℤ := 0

/-- `REP_HOSTILE`. -/
def repHostile : ℤ := 1

/-- `REP_HONORED`. -/
def repHonored : ℤ := 5

/-- `REP_REVERED`. -/
def repRevered : ℤ := 6

/-- `REP_EXALTED`, the last one. -/
def repExalted : ℤ := 7

/-- `ReputationMgr::ReputationToRank`. -/
def reputationToRank (standing : ℤ) : ℤ :=
  (reputationRankThresholds.takeWhile fun threshold => threshold ≤ standing).length - 1

/-- The value of a number in an `int32`. -/
def int32 (n : ℤ) : ℤ := n.bmod (2 ^ 32)

/-! ### Factions -/

/-- `FactionEntry`, with the type `ρ` of its floating point numbers. -/
structure FactionEntry (ρ : Type) where
  id : ℕ
  reputationIndex : ℤ
  reputationRaceMask : Fin 4 → ℕ
  reputationClassMask : Fin 4 → ℕ
  reputationBase : Fin 4 → ℤ
  reputationFlags : Fin 4 → ReputationFlags
  parentFactionId : ℕ
  parentFactionMod : Fin 2 → ρ
  parentFactionCap : Fin 2 → ℤ

/-- `FactionEntry::CanHaveReputation`. -/
def FactionEntry.canHaveReputation {ρ : Type} (entry : FactionEntry ρ) : Bool :=
  0 ≤ entry.reputationIndex

/-- One of the `MAX_SPILLOVER_FACTIONS` factions of a `RepSpilloverTemplate`. -/
structure SpilloverFaction (ρ : Type) where
  faction : ℕ
  factionRate : ρ
  factionRank : ℤ

/-- The factions, the spillover templates and the arithmetic of the rates. -/
structure World (ρ : Type) where
  factions : List (FactionEntry ρ)
  repSpilloverTemplate : ℕ → Option (List (SpilloverFaction ρ))
  ofInt : ℤ → ρ
  mul : ρ → ρ → ρ
  toInt : ρ → ℤ
  isZero : ρ → Bool
  gain : ℤ → ℤ
  ids : (factions.map FactionEntry.id).Nodup
  ids_lt : ∀ entry ∈ factions, entry.id < 2 ^ 16
  indices : ∀ entry ∈ factions, ∀ entry' ∈ factions, entry.canHaveReputation = true →
    entry.reputationIndex = entry'.reputationIndex → entry = entry'
  bases : ∀ entry ∈ factions, ∀ i, reputationBottom ≤ entry.reputationBase i ∧
    entry.reputationBase i ≤ reputationCap

/-- The masks of the player's race and class. -/
structure Player where
  raceMask : ℕ
  classMask : ℕ

section Factions

variable {ρ : Type} (W : World ρ) (player : Player)

/-- `sFactionStore.LookupEntry`. -/
def World.lookupEntry (id : ℕ) : Option (FactionEntry ρ) := Keyed.find FactionEntry.id W.factions id

/-- `GetFactionTeamList`: the factions with a parent. -/
def World.getFactionTeamList (id : ℕ) : Option (List ℕ) :=
  let flist := (W.factions.filter fun entry =>
    !(entry.parentFactionId = 0) && entry.parentFactionId = id).map FactionEntry.id
  if flist.isEmpty then none else some flist

/-- `ReputationMgr::GetFactionDataIndexForRaceAndClass`. -/
def getFactionDataIndex (entry : FactionEntry ρ) : Option (Fin 4) :=
  (List.finRange 4).find? fun i =>
    (entry.reputationRaceMask i &&& player.raceMask ≠ 0 ||
      (entry.reputationRaceMask i = 0 && entry.reputationClassMask i ≠ 0)) &&
    (entry.reputationClassMask i &&& player.classMask ≠ 0 || entry.reputationClassMask i = 0)

/-- `ReputationMgr::GetBaseReputation`. -/
def getBaseReputation (entry : FactionEntry ρ) : ℤ :=
  match getFactionDataIndex player entry with
  | none => 0
  | some i => entry.reputationBase i

/-- `ReputationMgr::GetDefaultStateFlags`. -/
def getDefaultStateFlags (entry : FactionEntry ρ) : ReputationFlags :=
  match getFactionDataIndex player entry with
  | none => .none
  | some i => entry.reputationFlags i

/-- `ReputationMgr::GetBaseRank`. -/
def getBaseRank (entry : FactionEntry ρ) : ℤ := reputationToRank (getBaseReputation player entry)

end Factions

/-! ### The manager -/

/-- `FactionState`. -/
structure FactionState where
  id : ℕ
  reputationListId : ℤ
  standing : ℤ
  flags : ReputationFlags
  needSend : Bool
  needSave : Bool
  deriving DecidableEq, Repr

/-- `ReputationMgr`. -/
structure ReputationMgr where
  factions : List FactionState
  visibleFactionCount : UInt8
  honoredFactionCount : UInt8
  reveredFactionCount : UInt8
  exaltedFactionCount : UInt8
  sendFactionIncreased : Bool
  deriving DecidableEq

namespace ReputationMgr

/-- The constructor. -/
def new : ReputationMgr := ⟨[], 0, 0, 0, 0, false⟩

variable {ρ : Type} (W : World ρ) (player : Player) (m : ReputationMgr)

/-- `_factions.find`. The index of a faction without reputation is negative, and not in the list. -/
def find (reputationListId : ℤ) : Option FactionState :=
  Keyed.find FactionState.reputationListId m.factions reputationListId

/-- Write a state through its pointer. -/
def put (faction : FactionState) : ReputationMgr :=
  { m with factions := Keyed.put FactionState.reputationListId m.factions faction }

/-- `_factions[faction.ReputationListID] = faction`. -/
def insert (faction : FactionState) : ReputationMgr :=
  match m.find faction.reputationListId with
  | none => { m with factions := m.factions ++ [faction] }
  | some _ => m.put faction

/-- `ReputationMgr::GetReputation`. -/
def getReputation (entry : FactionEntry ρ) : ℤ :=
  if entry.canHaveReputation then
    match m.find entry.reputationIndex with
    | none => 0
    | some state => int32 (getBaseReputation player entry + state.standing)
  else 0

/-- `ReputationMgr::GetRank`. -/
def getRank (entry : FactionEntry ρ) : ℤ := reputationToRank (m.getReputation player entry)

/-- `ReputationMgr::UpdateRankCounters`. -/
def updateRankCounters (oldRank newRank : ℤ) : ReputationMgr :=
  { m with
    exaltedFactionCount := m.exaltedFactionCount - (if oldRank ≥ repExalted then 1 else 0) +
      if newRank ≥ repExalted then 1 else 0
    reveredFactionCount := m.reveredFactionCount - (if oldRank ≥ repRevered then 1 else 0) +
      if newRank ≥ repRevered then 1 else 0
    honoredFactionCount := m.honoredFactionCount - (if oldRank ≥ repHonored then 1 else 0) +
      if newRank ≥ repHonored then 1 else 0 }

/-- The body of the loop of `ReputationMgr::Initialize`. -/
def initializeFaction (entry : FactionEntry ρ) : ReputationMgr :=
  if entry.canHaveReputation then
    let newFaction : FactionState :=
      { id := entry.id
        reputationListId := entry.reputationIndex
        standing := 0
        flags := getDefaultStateFlags player entry
        needSend := true
        needSave := true }
    let m := if newFaction.flags.visible then
        { m with visibleFactionCount := m.visibleFactionCount + 1 }
      else m
    (m.updateRankCounters repHostile (getBaseRank player entry)).insert newFaction
  else m

/-- `ReputationMgr::Initialize`. The loop begins with the faction that has id one. -/
def initializeMgr : ReputationMgr :=
  (W.factions.filter fun entry => !(entry.id = 0)).foldl
    (fun m entry => m.initializeFaction player entry) new

/-- `ReputationMgr::SetVisible` of a state. -/
def setVisibleState (faction : FactionState) : ReputationMgr :=
  -- always invisible or hidden faction can't be make visible
  if faction.flags.hidden then m
  else if faction.flags.header && !faction.flags.headerShowsBar then m
  -- already set
  else if faction.flags.visible then m
  else
    { m.put { faction with
        flags := { faction.flags with visible := true }, needSend := true, needSave := true } with
      visibleFactionCount := m.visibleFactionCount + 1 }

/-- `ReputationMgr::SetVisible` of a faction. -/
def setVisible (entry : FactionEntry ρ) : ReputationMgr :=
  if !entry.canHaveReputation then m
  else
    match m.find entry.reputationIndex with
    | none => m
    | some faction => m.setVisibleState faction

/-- `ReputationMgr::SetVisible` of a faction template, with the `Faction` of it. -/
def setVisibleTemplate (templateFaction : ℕ) : ReputationMgr :=
  if templateFaction = 0 then m
  else
    match W.lookupEntry templateFaction with
    | none => m
    | some entry =>
      -- Never show factions of the opposing team
      if !(entry.reputationRaceMask 1 &&& player.raceMask ≠ 0 &&
          entry.reputationBase 1 = reputationBottom) then m.setVisible entry
      else m

/-- The rank that `SetAtWar` compares: `GetRank(sFactionStore.AssertEntry(faction->ID))`. -/
def rankOf (faction : FactionState) : ℤ :=
  match W.lookupEntry faction.id with
  | none => 0
  | some entry => m.getRank player entry

/-- `ReputationMgr::SetAtWar` of a state. -/
def setAtWarState (faction : FactionState) (atWar : Bool) : ReputationMgr :=
  -- Do not allow to declare war to our own faction. But allow for rival factions
  if atWar && faction.flags.peaceful && m.rankOf W player faction > repHated then m
  -- already set
  else if faction.flags.atWar = atWar then m
  else
    m.put { faction with
      flags := { faction.flags with atWar := atWar }, needSend := true, needSave := true }

/-- `ReputationMgr::SetAtWar`. -/
def setAtWar (repListId : ℤ) (on : Bool) : ReputationMgr :=
  match m.find repListId with
  | none => m
  | some faction =>
    -- always invisible or hidden faction can't change war state
    if faction.flags.hidden || faction.flags.header then m
    else m.setAtWarState W player faction on

/-- `ReputationMgr::SetInactive` of a state. -/
def setInactiveState (faction : FactionState) (inactive : Bool) : ReputationMgr :=
  -- always invisible or hidden faction can't be inactive
  if (faction.flags.hidden || faction.flags.header) || !faction.flags.visible then m
  -- already set
  else if faction.flags.inactive = inactive then m
  else
    m.put { faction with
      flags := { faction.flags with inactive := inactive }, needSend := true, needSave := true }

/-- `ReputationMgr::SetInactive`. -/
def setInactive (repListId : ℤ) (on : Bool) : ReputationMgr :=
  match m.find repListId with
  | none => m
  | some faction => m.setInactiveState faction on

/-- What is done to the state with an index, if there is one. -/
def withState (reputationListId : ℤ) (k : ReputationMgr → FactionState → ReputationMgr) :
    ReputationMgr :=
  match m.find reputationListId with
  | none => m
  | some faction => k m faction

/-- `ReputationMgr::SetOneFactionReputation`. -/
def setOneFactionReputation (entry : FactionEntry ρ) (standing : ℤ) (incremental : Bool) :
    ReputationMgr × Bool :=
  match m.find entry.reputationIndex with
  | none => (m, false)
  | some faction =>
    let baseRep := getBaseReputation player entry
    let standing := if incremental then int32 (W.gain standing + int32 (faction.standing + baseRep))
      else standing
    let standing :=
      if standing > reputationCap then reputationCap
      else if standing < reputationBottom then reputationBottom
      else standing
    let oldRank := reputationToRank (int32 (faction.standing + baseRep))
    let newRank := reputationToRank standing
    let m := m.put { faction with
      standing := int32 (standing - baseRep), needSend := true, needSave := true }
    let m := m.withState faction.reputationListId setVisibleState
    let m :=
      if newRank ≤ repHostile then
        m.withState faction.reputationListId fun m f => m.setAtWarState W player f true
      else if newRank > oldRank then
        m.withState faction.reputationListId fun m f => m.setAtWarState W player f false
      else m
    let m := if newRank > oldRank then { m with sendFactionIncreased := true } else m
    (m.updateRankCounters oldRank newRank, true)

/-- `ReputationMgr::SendState`. -/
def sendState : ReputationMgr :=
  { m with
    sendFactionIncreased := false
    factions := m.factions.map fun state => { state with needSend := false } }

/-- The loop of `SetReputation` over the factions of a spillover template. -/
def spillTemplate (standing : ℤ) (incremental : Bool) (slots : List (SpilloverFaction ρ)) :
    ReputationMgr :=
  slots.foldl (fun m slot =>
    match W.lookupEntry slot.faction with
    | none => m
    | some entry =>
      if !(slot.faction = 0) && m.getRank player entry ≤ slot.factionRank then
        let spilloverRep := W.toInt (W.mul (W.ofInt standing) slot.factionRate)
        (m.setOneFactionReputation W player entry spilloverRep incremental).1
      else m) m

/-- The loop of `SetReputation` over affiliated factions. -/
def spillAffiliated (factionId : ℕ) (spillOverRepOut : ρ) (incremental res : Bool) (flist : List ℕ) :
    ReputationMgr × Bool :=
  flist.foldl (fun (m, res) id =>
    match W.lookupEntry id with
    | none => (m, res)
    | some entry =>
      if entry.id = factionId ∨ m.getRank player entry > entry.parentFactionCap 0 then (m, res)
      else
        let spilloverRep := W.toInt (W.mul spillOverRepOut (entry.parentFactionMod 0))
        if spilloverRep ≠ 0 ∨ !incremental then
          m.setOneFactionReputation W player entry spilloverRep incremental
        else (m, res)) (m, res)

/-- The spillover of `SetReputation` when there is no template. -/
def spillFactions (entry : FactionEntry ρ) (standing : ℤ) (incremental : Bool) :
    ReputationMgr × Bool :=
  let spillOverRepOut := W.ofInt standing
  -- check for sub-factions that receive spillover
  match W.getFactionTeamList entry.id with
  | some flist => m.spillAffiliated W player entry.id spillOverRepOut incremental false flist
  | none =>
    -- if has no sub-factions, check for factions with same parent
    if !(entry.parentFactionId = 0) && !W.isZero (entry.parentFactionMod 1) then
      let spillOverRepOut := W.mul spillOverRepOut (entry.parentFactionMod 1)
      match W.lookupEntry entry.parentFactionId with
      | none => (m, false)
      | some parent =>
        -- some team factions have own reputation standing
        if (m.find parent.reputationIndex).any fun state => state.flags.headerShowsBar then
          ((m.setOneFactionReputation W player parent (W.toInt spillOverRepOut) incremental).1,
            false)
        -- spill to "sister" factions
        else
          match W.getFactionTeamList entry.parentFactionId with
          | none => (m, false)
          | some flist =>
            m.spillAffiliated W player entry.id spillOverRepOut incremental false flist
    else (m, false)

/-- `ReputationMgr::SetReputation`. -/
def setReputation (entry : FactionEntry ρ) (standing : ℤ) (incremental spillOverOnly : Bool) :
    ReputationMgr × Bool :=
  let (m, res) :=
    match W.repSpilloverTemplate entry.id with
    | some slots => (m.spillTemplate W player standing incremental slots, false)
    | none => m.spillFactions W player entry standing incremental
  -- spillover done, update faction itself
  match m.find entry.reputationIndex with
  | none => (m, res)
  | some _ =>
    let (m, res) :=
      if !spillOverOnly then m.setOneFactionReputation W player entry standing incremental
      else (m, res)
    (m.sendState, res)

/-! ### The table -/

/-- A row of `character_reputation`. -/
structure Row where
  faction : ℕ
  standing : ℤ
  flags : ReputationFlags
  deriving DecidableEq, Repr

/-- What `SaveToDB` writes for a state: the row of the faction is deleted and inserted. -/
def saveState (rows : List Row) (state : FactionState) : List Row :=
  if state.needSave then
    let faction := state.id % 2 ^ 16
    rows.filter (fun row => !(row.faction = faction)) ++ [⟨faction, state.standing, state.flags⟩]
  else rows

/-- `ReputationMgr::SaveToDB`. -/
def saveToDB (rows : List Row) : ReputationMgr × List Row :=
  ({ m with factions := m.factions.map fun state => { state with needSave := false } },
    m.factions.foldl saveState rows)

/-- The flags of a row are applied to the state with the setters. -/
def loadFlags (entry : FactionEntry ρ) (repListId : ℤ) (dbFactionFlags : ReputationFlags) :
    ReputationMgr :=
  let m := if dbFactionFlags.visible then m.withState repListId setVisibleState else m
  let m :=
    if dbFactionFlags.inactive then m.withState repListId fun m f => m.setInactiveState f true
    else m
  let m :=
    if dbFactionFlags.atWar then m.withState repListId fun m f => m.setAtWarState W player f true
    else
      -- allow remove if visible
      m.withState repListId fun m f => if f.flags.visible then m.setAtWarState W player f false else m
  -- set atWar for hostile
  if m.getRank player entry ≤ repHostile then
    m.withState repListId fun m f => m.setAtWarState W player f true
  else m

/-- The body of the loop of `ReputationMgr::LoadFromDB`. Every faction that can have reputation has got
a state from `Initialize`. -/
def loadRow (row : Row) : ReputationMgr :=
  match W.lookupEntry row.faction with
  | none => m
  | some entry =>
    if entry.canHaveReputation then
      match m.find entry.reputationIndex with
      | none => m
      | some faction =>
        -- update standing to current
        let m := m.put { faction with standing := row.standing }
        -- update counters
        let baseRep := getBaseReputation player entry
        let m := m.updateRankCounters (reputationToRank baseRep)
          (reputationToRank (int32 (baseRep + row.standing)))
        let m := m.loadFlags W player entry faction.reputationListId row.flags
        -- reset changed flag if values similar to saved in DB
        m.withState faction.reputationListId fun m f =>
          if f.flags = row.flags then m.put { f with needSend := false, needSave := false } else m
    else m

/-- `ReputationMgr::LoadFromDB`. -/
def loadFromDB (rows : List Row) : ReputationMgr :=
  rows.foldl (fun m row => m.loadRow W player row) (initializeMgr W player)

end ReputationMgr

end IscServer.Reputation
