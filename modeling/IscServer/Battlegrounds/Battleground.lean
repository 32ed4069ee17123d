import IscServer.Battlegrounds.ArenaTeam
import IscServer.Library.Keyed

/-!
# A Battleground or Arena Instance and Its Queue

One instance, the queue that invites players to it, and the players. The instance is told about
a player by the queue (an invitation is counted), by the arrival of a player who accepted, by
players who leave, log out and log in, by kills and by its own update; an arena ends its match
from several of these. `Match` is the state between two of them and `step` handles one.

`Arena` overrides four functions of `Battleground`; the model has one definition for both, with
the override where `isArena` holds. What a battleground of another kind adds (flags, bases, the
premature end) reaches the modelled state only through `EndBattleground`, which is the event
`endBattleground`. The four lists of the queue are one list whose groups name the faction they
are listed under. Scores, auras, packets, raids and ratings are left out.

## Main definitions

* `Battleground`, `GroupQueueInfo`, `Player`, `Match` — the state.
* `Match.endBattleground`, `Match.checkWinConditions` — how an arena ends and is scored.
* `Match.removePlayerAtLeave`, `Match.addPlayer`, `Match.eventPlayerLoggedOut`, `Match.update` —
  the operations of the instance.
* `Match.removePlayerFromQueue`, `Match.inviteGroupToBG`, `Match.handleBattleFieldPort` — the
  operations of the queue and the packet that answers an invitation.
* `Event`, `step` — what can happen, one thing after the other.
-/

namespace IscServer.Battlegrounds

/-- `ALLIANCE` and `HORDE`. -/
inductive Team
  | alliance
  | horde
  deriving DecidableEq, Repr

/-- `Battleground::GetOtherTeam`. -/
def Team.other : Team → Team
  | .alliance => .horde
  | .horde => .alliance

/-- `BattlegroundStatus`. -/
inductive BattlegroundStatus
  | none
  | waitQueue
  | waitJoin
  | inProgress
  | waitLeave
  deriving DecidableEq, Repr

/-- The value of a status. -/
def BattlegroundStatus.value : BattlegroundStatus → ℕ
  | .none => 0
  | .waitQueue => 1
  | .waitJoin => 2
  | .inProgress => 3
  | .waitLeave => 4

/-- `MAX_OFFLINE_TIME`, in seconds. -/
def maxOfflineTime : ℕ := 300

/-- `TIME_AUTOCLOSE_BATTLEGROUND`, in milliseconds. -/
def timeAutocloseBattleground : UInt32 := 120000

/-- `INVITE_ACCEPT_WAIT_TIME`, in milliseconds. -/
def inviteAcceptWaitTime : ℕ := 60000

/-- After 47 minutes an arena closes without a winner. -/
def arenaTimeLimit : UInt32 := 2820000

/-! ### The instance -/

/-- `BattlegroundPlayer`, with the guid it is stored under in `m_Players`. -/
structure BattlegroundPlayer where
  guid : Guid
  team : Team
  offlineRemoveTime : ℕ
  deriving DecidableEq, Repr

/-- The members of `Battleground` that the modelled functions use. -/
structure Battleground where
  instanceID : ℕ
  isArena : Bool
  isRated : Bool
  status : BattlegroundStatus
  events : UInt8
  startDelayTime : ℤ
  elapsedTime : UInt32
  remainingTime : UInt32
  players : List BattlegroundPlayer
  playersCount : Team → UInt32
  invitedCount : Team → UInt32
  offlineQueue : List Guid
  arenaTeamIds : Team → ℕ
  setDeleteThis : Bool

namespace Battleground

variable (b : Battleground)

/-- The entry of a player in `m_Players`. -/
def find (guid : Guid) : Option BattlegroundPlayer := Keyed.find BattlegroundPlayer.guid b.players guid

/-- `Battleground::IsPlayerInBattleground`. -/
def isPlayerInBattleground (guid : Guid) : Bool := (b.find guid).isSome

/-- `Battleground::GetInvitedCount`. -/
def getInvitedCount (team : Team) : UInt32 := b.invitedCount team

/-- `Battleground::GetPlayersCountByTeam`. -/
def getPlayersCountByTeam (team : Team) : UInt32 := b.playersCount team

/-- `Battleground::DecreaseInvitedCount`. -/
def decreaseInvitedCount (team : Team) : Battleground :=
  { b with invitedCount := Function.update b.invitedCount team (b.invitedCount team - 1) }

/-- `Battleground::IncreaseInvitedCount`. -/
def increaseInvitedCount (team : Team) : Battleground :=
  { b with invitedCount := Function.update b.invitedCount team (b.invitedCount team + 1) }

/-- `Battleground::UpdatePlayersCountByTeam`. -/
def updatePlayersCountByTeam (team : Team) (remove : Bool) : Battleground :=
  { b with
    playersCount := Function.update b.playersCount team
      (if remove then b.playersCount team - 1 else b.playersCount team + 1) }

/-- Take a player out of `m_Players`, the first part of `RemovePlayerAtLeave`. -/
def erasePlayer (guid : Guid) : Battleground :=
  match b.find guid with
  | none => b
  | some entry =>
    { b.updatePlayersCountByTeam entry.team true with
      players := b.players.filter fun e => !(e.guid = guid) }

/-- Put a player into `m_Players`, the part of `AddPlayer` that the counts see. -/
def enterPlayer (guid : Guid) (team : Team) : Battleground :=
  let entered := { b with
    players := Keyed.assign BattlegroundPlayer.guid b.players ⟨guid, team, 0⟩ }
  if b.isPlayerInBattleground guid then entered else entered.updatePlayersCountByTeam team false

/-- Change the time at which an entry is removed. -/
def setOfflineRemoveTime (guid : Guid) (time : ℕ) : Battleground :=
  { b with
    players := b.players.map fun e =>
      if e.guid = guid then { e with offlineRemoveTime := time } else e }

end Battleground

/-! ### Players, the queue and the whole state -/

/-- What a player object knows about battlegrounds: whether it is connected, its team, `m_bgData`
and the slot of the modelled queue with the instance it is invited to (0 for none). -/
structure Ticket where
  connected : Bool
  team : Team
  bgTeam : Option Team
  bgInstanceID : ℕ
  queueSlot : Option ℕ
  deriving DecidableEq, Repr

/-- `Player::GetBGTeam`. -/
def Ticket.getBGTeam (p : Ticket) : Team := p.bgTeam.getD p.team

/-- A player object; `alive` and `spiritOfRedemption` (the form) decide whether it still fights. -/
structure Player extends Ticket where
  alive : Bool
  spiritOfRedemption : Bool
  deriving DecidableEq, Repr

/-- `GroupQueueInfo`; `faction` is the faction under whose lists the queue holds the group. -/
structure GroupQueueInfo where
  players : List Guid
  team : Team
  faction : Team
  isRated : Bool
  arenaTeamId : ℕ
  isInvitedToBGInstanceGUID : ℕ
  removeInviteTime : ℕ
  deriving DecidableEq, Repr

/-- What was done to the arena teams, and each call of `Arena::EndBattleground` with the status
it was made in, the winner and the players of the other side who may still enter. -/
inductive Report
  | ended (status : BattlegroundStatus) (winner : Option Team) (awaited : List Guid)
  | wonAgainst (arenaTeamId : ℕ)
  | lostAgainst (arenaTeamId : ℕ)
  | finishGame (arenaTeamId : ℕ)
  | memberWon (arenaTeamId : ℕ) (guid : Guid)
  | memberLost (arenaTeamId : ℕ) (guid : Guid)
  | offlineMemberLost (arenaTeamId : ℕ) (guid : Guid)
  deriving DecidableEq, Repr

/-- Change an arena team, if `GetArenaTeamById` finds it. -/
def modifyArenaTeam (teams : ℕ → Option ArenaTeam) (id : ℕ) (f : ArenaTeam → ArenaTeam) :
    ℕ → Option ArenaTeam :=
  Function.update teams id ((teams id).map f)

/-- What a report did to the arena teams. -/
def Report.apply (teams : ℕ → Option ArenaTeam) : Report → ℕ → Option ArenaTeam
  | .ended _ _ _ => teams
  | .wonAgainst id => modifyArenaTeam teams id ArenaTeam.wonAgainst
  | .lostAgainst id => modifyArenaTeam teams id ArenaTeam.lostAgainst
  | .finishGame id => modifyArenaTeam teams id ArenaTeam.finishGame
  | .memberWon id guid => modifyArenaTeam teams id (·.memberWon guid)
  | .memberLost id guid => modifyArenaTeam teams id (·.memberLost guid)
  | .offlineMemberLost id guid => modifyArenaTeam teams id (·.offlineMemberLost guid)

/-- An instance, the queue it belongs to, the players, those of them who accepted an invitation
and are on their way, the arena teams and the history of the match, newest first. -/
structure Match where
  bg : Battleground
  queuedGroups : List GroupQueueInfo
  player : Guid → Player
  transit : List Guid
  arenaTeams : ℕ → Option ArenaTeam
  log : List Report

namespace Match

variable (s : Match)

/-- `sBattlegroundMgr->GetBattleground` finds this instance. -/
def isHere (instanceID : ℕ) : Bool := instanceID = s.bg.instanceID && !s.bg.setDeleteThis

/-- `ObjectAccessor::FindPlayer`: connected and in the world. -/
def findPlayer (guid : Guid) : Bool := (s.player guid).connected && !(guid ∈ s.transit : Bool)

/-- `Battleground::_GetPlayer`. -/
def getPlayer (entry : BattlegroundPlayer) : Bool :=
  entry.offlineRemoveTime = 0 && s.findPlayer entry.guid

/-- Change a player object. -/
def modifyPlayer (guid : Guid) (f : Player → Player) : Match :=
  { s with player := Function.update s.player guid (f (s.player guid)) }

variable (guid : Guid)

variable (f : Player → Player)

@[simp] theorem player_modifyPlayer_self :
    (s.modifyPlayer guid f).player guid = f (s.player guid) :=
  Function.update_self ..

@[simp] theorem player_modifyPlayer_of_ne {guid g : Guid} (h : g ≠ guid) (f : Player → Player) :
    (s.modifyPlayer guid f).player g = s.player g :=
  Function.update_of_ne h ..

theorem modifyPlayer_modifyPlayer (g : Player → Player) :
    (s.modifyPlayer guid f).modifyPlayer guid g = s.modifyPlayer guid fun p => g (f p) := by
  simp only [modifyPlayer, Function.update_self, Function.update_idem]

@[simp] theorem transit_modifyPlayer : (s.modifyPlayer guid f).transit = s.transit := rfl

/-- `Battleground::GetAlivePlayersCountByTeam`. -/
def getAlivePlayersCountByTeam (team : Team) : ℕ :=
  s.bg.players.countP fun e =>
    e.team = team && (s.findPlayer e.guid && (s.player e.guid).alive &&
      !(s.player e.guid).spiritOfRedemption)

/-- The players in groups of a side that are invited to this instance. -/
def queuedHere (team : Team) : List Guid :=
  (s.queuedGroups.filter fun g =>
    g.isInvitedToBGInstanceGUID = s.bg.instanceID && g.team = team).flatMap (·.players)

/-- The players of a side who accepted and have not arrived. -/
def inTransit (team : Team) : List Guid :=
  s.transit.filter fun guid => (s.player guid).getBGTeam = team

/-- The players of a side who may still enter on an invitation. -/
def awaited (team : Team) : List Guid := s.queuedHere team ++ s.inTransit team

/-- Call one of the scoring functions of an arena team. -/
def record (r : Report) : Match :=
  { s with arenaTeams := r.apply s.arenaTeams, log := r :: s.log }

/-! ### The end of a match -/

/-- `Battleground::EndBattleground`: the players who are found are resurrected. -/
def endBattlegroundBase : Match :=
  { s with
    bg := { s.bg with status := .waitLeave, remainingTime := timeAutocloseBattleground }
    player := fun guid =>
      match s.bg.find guid with
      | none => s.player guid
      | some entry =>
        if s.getPlayer entry then
          { s.player guid with alive := true, spiritOfRedemption := false }
        else s.player guid }

/-- One round of the loop over the players in `Arena::EndBattleground`. -/
def memberReports (winner : Option Team) (winnerTeam loserTeam : ℕ) (entry : BattlegroundPlayer) :
    List Report :=
  if entry.offlineRemoveTime ≠ 0 then
    if some entry.team = winner then [.offlineMemberLost winnerTeam entry.guid]
    else if winner = none then
      [.offlineMemberLost winnerTeam entry.guid, .offlineMemberLost loserTeam entry.guid]
    else [.offlineMemberLost loserTeam entry.guid]
  else if !s.getPlayer entry then []
  else if some entry.team = winner then [.memberWon winnerTeam entry.guid]
  else if winner = none then [.memberLost winnerTeam entry.guid, .memberLost loserTeam entry.guid]
  else [.memberLost loserTeam entry.guid]

/-- The reports about the two teams. -/
def teamReports (winner : Option Team) (winnerTeam loserTeam : ℕ) : List Report :=
  if winner.isSome then [.wonAgainst winnerTeam, .lostAgainst loserTeam]
  else [.finishGame winnerTeam, .finishGame loserTeam]

/-- The rated part of `Arena::EndBattleground`; without a winner `ALLIANCE` takes the part of the
winner and `HORDE` that of the loser. -/
def scoreMatch (winner : Option Team) : Match :=
  let winnerTeam := s.bg.arenaTeamIds (winner.getD .alliance)
  let loserTeam := s.bg.arenaTeamIds (winner.getD .alliance).other
  if (s.arenaTeams winnerTeam).isSome && (s.arenaTeams loserTeam).isSome &&
      winnerTeam ≠ loserTeam then
    (teamReports winner winnerTeam loserTeam ++
      s.bg.players.flatMap (s.memberReports winner winnerTeam loserTeam)).foldl record s
  else s

/-- The players of the side that does not win who may still enter. -/
def awaitedAgainst : Option Team → List Guid
  | none => []
  | some winner => s.awaited winner.other

/-- `EndBattleground`, which `Arena` overrides to score a rated match first. -/
def endBattleground (winner : Option Team) : Match :=
  if s.bg.isArena then
    let s := s.record (.ended s.bg.status winner (s.awaitedAgainst winner))
    let s := if s.bg.isRated then s.scoreMatch winner else s
    s.endBattlegroundBase
  else s.endBattlegroundBase

/-- `Arena::CheckWinConditions`. -/
def checkWinConditions : Match :=
  if s.getAlivePlayersCountByTeam .alliance = 0 ∧ s.bg.getPlayersCountByTeam .horde ≠ 0 then
    s.endBattleground (some .horde)
  else if s.bg.getPlayersCountByTeam .alliance ≠ 0 ∧ s.getAlivePlayersCountByTeam .horde = 0 then
    s.endBattleground (some .alliance)
  else s

/-- `HandleKillPlayer`, as far as the match is concerned. -/
def handleKillPlayer : Match :=
  if s.bg.isArena && s.bg.status = .inProgress then s.checkWinConditions else s

/-- The hook `RemovePlayer`: `Arena::RemovePlayer`; other battlegrounds drop flags there. -/
def removePlayer : Match :=
  if s.bg.isArena && s.bg.status ≠ .waitLeave then s.checkWinConditions else s

/-! ### Leaving, arriving, logging out and in -/

/-- The first part of `Arena::RemovePlayerAtLeave`: a participant who leaves a rated match while
it is in progress has lost it. -/
def scoreLeaver (guid : Guid) : Match :=
  if s.bg.isArena && s.bg.isRated && s.bg.status = .inProgress then
    match s.bg.find guid with
    | none => s
    | some entry =>
      let winnerTeam := s.bg.arenaTeamIds entry.team.other
      let loserTeam := s.bg.arenaTeamIds entry.team
      if (s.arenaTeams winnerTeam).isSome && (s.arenaTeams loserTeam).isSome &&
          winnerTeam ≠ loserTeam then
        if s.getPlayer entry then s.record (.memberLost loserTeam guid)
        else s.record (.offlineMemberLost loserTeam guid)
      else s
  else s

/-- What `RemovePlayerAtLeave` does after the hook: `entry` is what `m_Players` held. -/
def forgetPlayer (guid : Guid) (entry : Option BattlegroundPlayer) : Match :=
  let found := s.findPlayer guid
  let s :=
    match entry with
    | none => s
    | some entry =>
      let s := if found then s.modifyPlayer guid fun p => { p with queueSlot := none } else s
      { s with bg := s.bg.decreaseInvitedCount entry.team }
  if found then s.modifyPlayer guid fun p => { p with bgInstanceID := 0, bgTeam := none } else s

/-- `RemovePlayerAtLeave`. -/
def removePlayerAtLeave (guid : Guid) : Match :=
  let s := s.scoreLeaver guid
  let entry := s.bg.find guid
  let s := { s with bg := s.bg.erasePlayer guid }
  let s :=
    if s.findPlayer guid then
      s.modifyPlayer guid fun p => { p with alive := true, spiritOfRedemption := false }
    else s
  s.removePlayer.forgetPlayer guid entry

/-- `AddPlayer`. -/
def addPlayer (guid : Guid) : Match :=
  { s with bg := s.bg.enterPlayer guid (s.player guid).getBGTeam }

/-- `Battleground::EventPlayerLoggedIn`. -/
def eventPlayerLoggedIn (guid : Guid) : Match :=
  { s with bg := { s.bg.setOfflineRemoveTime guid 0 with offlineQueue := s.bg.offlineQueue.erase guid } }

/-- `Battleground::EventPlayerLoggedOut`. -/
def eventPlayerLoggedOut (guid : Guid) (now : ℕ) : Match :=
  if s.bg.isPlayerInBattleground guid then
    let s := { s with bg := { s.bg.setOfflineRemoveTime guid (now + maxOfflineTime) with
      offlineQueue := s.bg.offlineQueue ++ [guid] } }
    if s.bg.status = .inProgress then
      let s := s.removePlayer
      let team := (s.player guid).getBGTeam
      if s.bg.isArena && (s.player guid).alive &&
          (s.getAlivePlayersCountByTeam team ≤ 1 && s.bg.getPlayersCountByTeam team.other ≠ 0) then
        s.endBattleground (some team.other)
      else s
    else s
  else s

/-! ### The update -/

/-- `StartDelayTimes`, by arena or battleground. -/
def startDelayTimes : ℤ × ℤ × ℤ × ℤ :=
  if s.bg.isArena then (60000, 30000, 15000, 0) else (120000, 60000, 30000, 0)

/-- `Battleground::_ProcessJoin`: the four starting events. `setup` says whether the map is found
and `SetupBattleground` succeeds; if not, `EndNow` is called. -/
def processJoin (diff : UInt32) (setup : Bool) : Match :=
  let (first, second, third, fourth) := s.startDelayTimes
  let delay := s.bg.startDelayTime - diff.toNat
  let s := { s with bg := { s.bg with startDelayTime := delay } }
  if s.bg.events &&& 1 = 0 then
    if setup then
      { s with bg := { s.bg with events := s.bg.events ||| 1, startDelayTime := first } }
    else
      { s with bg := { s.bg with events := s.bg.events ||| 1, status := .waitLeave, remainingTime := 0 } }
  else if delay ≤ second ∧ s.bg.events &&& 2 = 0 then
    { s with bg := { s.bg with events := s.bg.events ||| 2 } }
  else if delay ≤ third ∧ s.bg.events &&& 4 = 0 then
    { s with bg := { s.bg with events := s.bg.events ||| 4 } }
  else if delay ≤ 0 ∧ s.bg.events &&& 8 = 0 then
    let s := { s with bg := { s.bg with
      events := s.bg.events ||| 8, status := .inProgress, startDelayTime := fourth } }
    if s.bg.isArena then s.checkWinConditions else s
  else s

/-- `Battleground::_ProcessOfflineQueue`: the player at the front, once its time has come. -/
def processOfflineQueue (now : ℕ) : Match :=
  match s.bg.offlineQueue with
  | [] => s
  | guid :: _ =>
    match s.bg.find guid with
    | none => s
    | some entry =>
      if entry.offlineRemoveTime ≤ now then
        let s := s.removePlayerAtLeave guid
        { s with bg := { s.bg with offlineQueue := s.bg.offlineQueue.tail } }
      else s

/-- `Battleground::_ProcessLeave`; the remaining time is compared as an unsigned number. -/
def processLeave (diff : UInt32) : Match :=
  let s := { s with bg := { s.bg with remainingTime := s.bg.remainingTime - diff } }
  if s.bg.remainingTime = 0 then
    (s.bg.players.map (·.guid)).foldl removePlayerAtLeave s
  else s

/-- The end of `Battleground::Update`. -/
def addElapsedTime (diff : UInt32) : Match :=
  { s with bg := { s.bg with elapsedTime := s.bg.elapsedTime + diff } }

/-- `Battleground::Update`. -/
def update (diff : UInt32) (now : ℕ) (setup : Bool) : Match :=
  if s.bg.players = [] then
    if s.bg.getInvitedCount .horde = 0 ∧ s.bg.getInvitedCount .alliance = 0 then
      { s with bg := { s.bg with setDeleteThis := true } }
    else s
  else
    match s.bg.status with
    | .waitJoin => (s.processJoin diff setup).addElapsedTime diff
    | .inProgress =>
      let s := s.processOfflineQueue now
      if s.bg.isArena && s.bg.elapsedTime ≥ arenaTimeLimit then s.endBattleground none
      else s.addElapsedTime diff
    | .waitLeave => (s.processLeave diff).addElapsedTime diff
    | _ => s.addElapsedTime diff

/-! ### The queue -/

/-- `m_QueuedPlayers`: the group a player is queued in. -/
def groupOf (guid : Guid) : Option GroupQueueInfo := s.queuedGroups.find? fun g => guid ∈ g.players

/-- Take a player out of its group and out of `m_QueuedPlayers`; an empty group is deleted. -/
def dropFromGroup (guid : Guid) : Match :=
  { s with
    queuedGroups :=
      (s.queuedGroups.map fun g => { g with players := g.players.filter fun p => !(p = guid) }).filter
        fun g => !g.players.isEmpty }

/-- `Player::RemoveBattlegroundQueueId` for this queue. -/
def removeBattlegroundQueueId (guid : Guid) : Match :=
  s.modifyPlayer guid fun p => { p with queueSlot := none }

/-- The recursion of `BattlegroundQueue::RemovePlayer` over the rest of a rated group that is not
invited. -/
def removeRest (guids : List Guid) : Match :=
  guids.foldl (fun s guid =>
    let s := if (s.player guid).connected then s.removeBattlegroundQueueId guid else s
    s.dropFromGroup guid) s

/-- In `BattlegroundQueue::RemovePlayer`: an invitation to this instance is taken back. -/
def takeInvitationBack (group : GroupQueueInfo) (decreaseInvitedCount : Bool) : Match :=
  if decreaseInvitedCount && s.isHere group.isInvitedToBGInstanceGUID then
    { s with bg := s.bg.decreaseInvitedCount group.team }
  else s

/-- In `BattlegroundQueue::RemovePlayer`: who does not come to a rated match has lost it. -/
def scoreAbsent (guid : Guid) (group : GroupQueueInfo) (decreaseInvitedCount : Bool) : Match :=
  if group.isInvitedToBGInstanceGUID ≠ 0 && group.isRated && decreaseInvitedCount &&
      (s.arenaTeams group.arenaTeamId).isSome then
    if (s.player guid).connected then s.record (.memberLost group.arenaTeamId guid)
    else s.record (.offlineMemberLost group.arenaTeamId guid)
  else s

/-- `BattlegroundQueue::RemovePlayer`. -/
def removePlayerFromQueue (guid : Guid) (decreaseInvitedCount : Bool) : Match :=
  match s.groupOf guid with
  | none => s
  | some group =>
    if group.faction ≠ group.team then s
    else
      let s := s.dropFromGroup guid
      let s := s.takeInvitationBack group decreaseInvitedCount
      let s := s.scoreAbsent guid group decreaseInvitedCount
      if group.isInvitedToBGInstanceGUID = 0 && group.isRated then
        s.removeRest (group.players.filter fun p => !(p = guid))
      else s

/-- One player of the loop in `BattlegroundQueue::InviteGroupToBG`. -/
def invitePlayer (side : Team) (instanceID : ℕ) (s : Match) (guid : Guid) : Match :=
  if (s.player guid).connected then
    let s := if s.isHere instanceID then { s with bg := s.bg.increaseInvitedCount side } else s
    s.modifyPlayer guid fun p => { p with queueSlot := p.queueSlot.map fun _ => instanceID }
  else s

/-- The first part of `BattlegroundQueue::InviteGroupToBG`. Before it, the queue's update has moved
a group that changes its faction to the lists of the new one. -/
def markInvited (group : GroupQueueInfo) (side : Team) (instanceID now : ℕ) : Match :=
  { s with
    queuedGroups := s.queuedGroups.map fun g =>
      if g = group then
        { g with
          team := side
          faction := side
          isInvitedToBGInstanceGUID := instanceID
          removeInviteTime := now + inviteAcceptWaitTime }
      else g
    bg := { s.bg with
      arenaTeamIds :=
        if s.isHere instanceID && (s.bg.isArena && s.bg.isRated) then
          Function.update s.bg.arenaTeamIds side group.arenaTeamId
        else s.bg.arenaTeamIds } }

/-- `BattlegroundQueue::InviteGroupToBG`. -/
def inviteGroupToBG (group : GroupQueueInfo) (side : Team) (instanceID now : ℕ) : Match :=
  group.players.foldl (invitePlayer side instanceID) (s.markInvited group side instanceID now)

/-- What `HandleBattleFieldPortOpcode` finds out about the player and the world: whether there is
a bracket for its level, whether it may not enter a battleground (deserter, or above the maximum
level), whether it is frozen, and the status of the battleground the group is invited to when
that is another instance. -/
structure PortChecks where
  bracket : Bool
  barred : Bool
  frozen : Bool
  elsewhere : Option BattlegroundStatus

/-- The status of the battleground that a group is invited to, or of the template. -/
def portStatus (instanceID : ℕ) (checks : PortChecks) : Option BattlegroundStatus :=
  if instanceID = 0 then none
  else if instanceID = s.bg.instanceID then
    if s.bg.setDeleteThis then none else some s.bg.status
  else checks.elsewhere

/-- The accepting branch of `WorldSession::HandleBattleFieldPortOpcode`. -/
def acceptInvite (guid : Guid) (group : GroupQueueInfo) : Match :=
  let s := s.modifyPlayer guid fun p => { p with alive := true }
  let s := s.removePlayerFromQueue guid false
  let s := if s.isHere (s.player guid).bgInstanceID then s.removePlayerAtLeave guid else s
  let s := s.modifyPlayer guid fun p =>
    { p with bgInstanceID := group.isInvitedToBGInstanceGUID, bgTeam := some group.team }
  if s.isHere group.isInvitedToBGInstanceGUID then { s with transit := guid :: s.transit } else s

/-- `WorldSession::HandleBattleFieldPortOpcode`. -/
def handleBattleFieldPort (guid : Guid) (accepted : Bool) (checks : PortChecks) : Match :=
  if (s.player guid).queueSlot = none then s
  else
    match s.groupOf guid with
    | none => s
    | some group =>
      let status := s.portStatus group.isInvitedToBGInstanceGUID checks
      if accepted && (group.isInvitedToBGInstanceGUID = 0 || status = none) then s
      else if !checks.bracket then s
      else if accepted && (s.bg.isArena || !checks.barred) then
        if checks.frozen || (s.player guid).queueSlot = some 0 then s
        else s.acceptInvite guid group
      else if s.bg.isArena && (status.getD .none).value > BattlegroundStatus.waitQueue.value then s
      else (s.removeBattlegroundQueueId guid).removePlayerFromQueue guid true

/-- `BGQueueRemoveEvent::Execute`. -/
def queueRemoveEvent (guid : Guid) (instanceID removeTime : ℕ) : Match :=
  if (s.player guid).connected && (s.player guid).queueSlot ≠ none then
    match s.groupOf guid with
    | none => s
    | some group =>
      if group.isInvitedToBGInstanceGUID = instanceID && group.removeInviteTime = removeTime then
        (s.removeBattlegroundQueueId guid).removePlayerFromQueue guid true
      else s
  else s

/-! ### One thing after the other -/

/-- `WorldSession::HandleMoveWorldportAck`: the player who accepted arrives. -/
def arrive (guid : Guid) : Match :=
  if guid ∈ s.transit then
    let s := { s with transit := s.transit.filter fun p => !(p = guid) }
    if s.isHere (s.player guid).bgInstanceID &&
        (s.player guid).queueSlot = some (s.player guid).bgInstanceID then s.addPlayer guid
    else s
  else s

/-- `Player::LeaveBattleground`. Of another instance only the effect on the player is modelled: the
slot of this queue is given back if it stands for that instance and not for a place in the queue. -/
def leaveBattleground (guid : Guid) : Match :=
  if s.findPlayer guid && (s.player guid).bgInstanceID ≠ 0 then
    if s.isHere (s.player guid).bgInstanceID then s.removePlayerAtLeave guid
    else s.modifyPlayer guid fun p =>
      { p with
        queueSlot :=
          if p.queueSlot = some p.bgInstanceID && (s.groupOf guid).isNone then none else p.queueSlot
        bgInstanceID := 0
        bgTeam := none }
  else s

/-- In `WorldSession::LogoutPlayer`: a player with the form of the spirit of redemption dies. -/
def endRedemption (guid : Guid) : Match :=
  s.modifyPlayer guid fun p =>
    { p with alive := p.alive && !p.spiritOfRedemption, spiritOfRedemption := false }

/-- In `WorldSession::LogoutPlayer`: the battleground is told. -/
def logoutFromBattleground (guid : Guid) (now : ℕ) : Match :=
  if s.isHere (s.player guid).bgInstanceID then s.eventPlayerLoggedOut guid now else s

/-- In `WorldSession::LogoutPlayer`: the queue of an occupied slot is told. -/
def logoutFromQueue (guid : Guid) : Match :=
  if (s.player guid).queueSlot ≠ none then
    (s.removeBattlegroundQueueId guid).removePlayerFromQueue guid true
  else s

/-- `WorldSession::LogoutPlayer`, which first finishes a pending transfer. -/
def logoutPlayer (guid : Guid) (now : ℕ) : Match :=
  if (s.player guid).connected then
    ((((s.arrive guid).endRedemption guid).logoutFromBattleground guid now).logoutFromQueue
      guid).modifyPlayer guid fun p => { p with connected := false }
  else s

/-- `Player::LoadFromDB` and the login after it. `rejoin` says whether another instance still has
the player. -/
def loginPlayer (guid : Guid) (alive rejoin : Bool) : Match :=
  if (s.player guid).connected then s
  else
    let online : Player → Player := fun p =>
      { p with connected := true, alive := alive, spiritOfRedemption := false, queueSlot := none }
    if s.isHere (s.player guid).bgInstanceID then
      if s.bg.isPlayerInBattleground guid then
        if s.bg.status ≠ .waitLeave then
          (s.eventPlayerLoggedIn guid).modifyPlayer guid fun p =>
            { online p with queueSlot := some p.bgInstanceID }
        else
          (s.removePlayerAtLeave guid).modifyPlayer guid fun p => { online p with bgInstanceID := 0 }
      else s.modifyPlayer guid fun p => { online p with bgInstanceID := 0 }
    else s.modifyPlayer guid fun p =>
      if rejoin && p.bgInstanceID ≠ 0 && p.bgInstanceID ≠ s.bg.instanceID then
        { online p with queueSlot := some p.bgInstanceID }
      else { online p with bgInstanceID := 0 }

/-- A player dies, or takes the form of the spirit of redemption instead. -/
def markKilled (victim : Guid) (redemption : Bool) : Match :=
  s.modifyPlayer victim fun p =>
    if redemption then { p with spiritOfRedemption := true }
    else { p with alive := false, spiritOfRedemption := false }

/-- The end of `Unit::Kill` for a player in the world. -/
def killPlayer (victim : Guid) (redemption : Bool) : Match :=
  if s.findPlayer victim then
    if s.isHere (s.player victim).bgInstanceID then (s.markKilled victim redemption).handleKillPlayer
    else s.markKilled victim redemption
  else s

end Match

/-- What can happen to an instance, its queue and the players. -/
inductive Event
  | addGroup (group : GroupQueueInfo)
  | invite (member : Guid) (side : Team) (instanceID now : ℕ)
  | port (guid : Guid) (accepted : Bool) (checks : Match.PortChecks)
  | arrive (guid : Guid)
  | queueRemove (guid : Guid) (instanceID removeTime : ℕ)
  | leave (guid : Guid)
  | logout (guid : Guid) (now : ℕ)
  | login (guid : Guid) (alive rejoin : Bool)
  | update (diff : UInt32) (now : ℕ) (setup : Bool)
  | kill (victim : Guid) (redemption : Bool)
  | revive (guid : Guid)
  | endBattleground (winner : Option Team)

open Match in
/-- One event. A group joins with connected players who are in no group of the queue (`AddGroup`);
only a group that is not invited is invited, to an instance that exists; the end of a
battleground that is no arena may come at any time. -/
def step (s : Match) : Event → Match
  | .addGroup group =>
    if group.players ≠ [] ∧ group.players.Nodup ∧
        ∀ guid ∈ group.players, (s.player guid).connected ∧ (s.player guid).queueSlot = none then
      let s := { s with queuedGroups := s.queuedGroups ++
        [{ group with faction := group.team, isInvitedToBGInstanceGUID := 0, removeInviteTime := 0 }] }
      group.players.foldl (fun s guid => s.modifyPlayer guid fun p =>
        { p with queueSlot := some 0 }) s
    else s
  | .invite member side instanceID now =>
    match s.groupOf member with
    | none => s
    | some group =>
      if group.isInvitedToBGInstanceGUID = 0 ∧ instanceID ≠ 0 ∧
          (instanceID = s.bg.instanceID → !s.bg.setDeleteThis) then
        s.inviteGroupToBG group side instanceID now
      else s
  | .port guid accepted checks =>
    if s.findPlayer guid then s.handleBattleFieldPort guid accepted checks else s
  | .arrive guid => s.arrive guid
  | .queueRemove guid instanceID removeTime => s.queueRemoveEvent guid instanceID removeTime
  | .leave guid => s.leaveBattleground guid
  | .logout guid now => s.logoutPlayer guid now
  | .login guid alive rejoin => s.loginPlayer guid alive rejoin
  | .update diff now setup => if s.bg.setDeleteThis then s else s.update diff now setup
  | .kill victim redemption => s.killPlayer victim redemption
  | .revive guid => s.modifyPlayer guid fun p => { p with alive := true, spiritOfRedemption := false }
  | .endBattleground winner => if s.bg.isArena then s else s.endBattleground winner

/-- A run from a state over the events that happen. -/
def run (s : Match) (events : List Event) : Match := events.foldl step s

end IscServer.Battlegrounds
