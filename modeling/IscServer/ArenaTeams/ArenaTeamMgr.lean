import IscServer.Library.Keyed

/-!
# Arena Teams and Their Three Records of a Member

Who is in an arena team is written down three times: in the team's member list, in the character
cache (`ArenaTeamId` of each slot) and, while the player is connected, in the unit fields of the
player object. The table `arena_team_member` holds a fourth copy, from which the unit fields are
loaded at login. `ArenaTeam::AddMember`, `DelMember` and `Disband` write them all.

A login is not one step: the rows of the player are read when the query runs (`loadArenaRows`) and
the player object is built when its result comes back (`finishLoading`).

## Main definitions

* `World` — the team store, the counter of team ids, the character cache, the sessions and the
  rows of the member table.
* `World.create`, `World.addMember`, `World.delMember`, `World.disband` — the operations of a team.
* `World.handleArenaTeamInvite` and the handlers after it — the packets.
-/

namespace IscServer.ArenaTeams

/-- A player's guid. -/
abbrev Guid := ℕ

/-- `ArenaTeamTypes`. -/
inductive ArenaTeamType
  | arenaTeam2v2
  | arenaTeam3v3
  | arenaTeam5v5
  deriving DecidableEq, Repr

/-- The number that stands for the type: the players of one side. -/
def ArenaTeamType.value : ArenaTeamType → ℕ
  | arenaTeam2v2 => 2
  | arenaTeam3v3 => 3
  | arenaTeam5v5 => 5

/-- `ArenaTeam::GetSlotByType`. -/
def ArenaTeamType.getSlot : ArenaTeamType → Fin 3
  | arenaTeam2v2 => 0
  | arenaTeam3v3 => 1
  | arenaTeam5v5 => 2

theorem ArenaTeamType.getSlot_inj {a b : ArenaTeamType} : a.getSlot = b.getSlot ↔ a = b := by
  cases a <;> cases b <;> decide

/-- `ArenaTeamMember`. -/
structure ArenaTeamMember where
  guid : Guid
  name : String
  deriving DecidableEq, Repr

/-- `ArenaTeam`. -/
structure ArenaTeam where
  teamId : ℕ
  type : ArenaTeamType
  teamName : String
  captainGuid : Guid
  members : List ArenaTeamMember
  deriving DecidableEq, Repr

/-- `ArenaTeam::IsMember`. -/
def ArenaTeam.isMember (team : ArenaTeam) (guid : Guid) : Bool :=
  team.members.any fun m => m.guid = guid

/-- `ArenaTeam::GetMember`, by name. -/
def ArenaTeam.getMember (team : ArenaTeam) (name : String) : Option ArenaTeamMember :=
  team.members.find? fun m => m.name = name

/-- The team can't have more than twice as many members as fight on one side. -/
def ArenaTeam.isFull (team : ArenaTeam) : Bool :=
  decide (team.type.value * 2 ≤ team.members.length)

/-- `CharacterCacheEntry`. -/
structure CharacterCacheEntry where
  name : String
  arenaTeamId : Fin 3 → ℕ

/-- A player object: the arena team ids of its unit fields, the team it is invited to, and whether
it is in the world (it is not while it is being teleported to another map). -/
structure Player where
  name : String
  arenaTeamId : Fin 3 → ℕ
  arenaTeamIdInvited : ℕ
  inWorld : Bool

/-- What a character is doing: nobody plays it, its login waits for the player object with the team
ids that were read from the member table, or it is connected. -/
inductive Session
  | offline
  | loading (arenaRows : List ℕ)
  | online (player : Player)

/-- The server, as far as arena teams see it. -/
structure World where
  arenaTeamStore : List ArenaTeam
  nextArenaTeamId : ℕ
  characterCache : Guid → Option CharacterCacheEntry
  sessions : Guid → Session
  playerNameMap : String → Option Guid
  memberRows : Guid → List ℕ

namespace World

/-! ### Looking things up -/

/-- `ObjectAccessor::FindConnectedPlayer`. -/
def findConnectedPlayer (w : World) (guid : Guid) : Option Player :=
  match w.sessions guid with
  | .online player => some player
  | _ => none

/-- `ObjectAccessor::FindPlayer`: a player who is in the world. -/
def findPlayer (w : World) (guid : Guid) : Option Player :=
  (w.findConnectedPlayer guid).filter fun player => player.inWorld

/-- `ObjectAccessor::FindPlayerByName`. -/
def findPlayerByName (w : World) (name : String) : Option (Guid × Player) :=
  (w.playerNameMap name).bind fun guid => (w.findPlayer guid).map fun player => (guid, player)

/-- `ArenaTeamMgr::GetArenaTeamById`. -/
def getArenaTeamById (w : World) (arenaTeamId : ℕ) : Option ArenaTeam :=
  Keyed.find ArenaTeam.teamId w.arenaTeamStore arenaTeamId

/-- `ArenaTeamMgr::GetArenaTeamByName` finds a team: names are compared without regard to case. -/
def isNameTaken (w : World) (teamName : String) : Bool :=
  w.arenaTeamStore.any fun team =>
    team.teamName.toList.map Char.toLower = teamName.toList.map Char.toLower

/-- `CharacterCache::GetCharacterArenaTeamIdByGuid`. -/
def getCharacterArenaTeamIdByGuid (w : World) (guid : Guid) (type : ArenaTeamType) : ℕ :=
  match w.characterCache guid with
  | none => 0
  | some entry => entry.arenaTeamId type.getSlot

/-! ### The single writes -/

/-- `CharacterCache::UpdateCharacterArenaTeamId`. -/
def updateCharacterArenaTeamId (w : World) (guid : Guid) (slot : Fin 3) (arenaTeamId : ℕ) : World :=
  match w.characterCache guid with
  | none => w
  | some entry =>
    { w with
      characterCache := Function.update w.characterCache guid (some
        { entry with arenaTeamId := Function.update entry.arenaTeamId slot arenaTeamId }) }

/-- Something is done with a player object. -/
def modifyPlayer (w : World) (guid : Guid) (f : Player → Player) : World :=
  match w.sessions guid with
  | .online player => { w with sessions := Function.update w.sessions guid (.online (f player)) }
  | _ => w

/-- `Player::SetInArenaTeam`: the team id in the unit fields of a slot. -/
def Player.setArenaTeamId (player : Player) (slot : Fin 3) (arenaTeamId : ℕ) : Player :=
  { player with arenaTeamId := Function.update player.arenaTeamId slot arenaTeamId }

/-- `Player::SetArenaTeamIdInvited`. -/
def Player.setArenaTeamIdInvited (player : Player) (arenaTeamId : ℕ) : Player :=
  { player with arenaTeamIdInvited := arenaTeamId }

/-- A row is inserted into the member table. -/
def insertMemberRow (w : World) (arenaTeamId : ℕ) (guid : Guid) : World :=
  { w with memberRows := Function.update w.memberRows guid (w.memberRows guid ++ [arenaTeamId]) }

/-- A row is deleted from the member table. -/
def deleteMemberRow (w : World) (arenaTeamId : ℕ) (guid : Guid) : World :=
  { w with
    memberRows := Function.update w.memberRows guid
      ((w.memberRows guid).filter fun id => id ≠ arenaTeamId) }

/-- All rows of a team are deleted from the member table. -/
def deleteTeamRows (w : World) (arenaTeamId : ℕ) : World :=
  { w with memberRows := fun guid => (w.memberRows guid).filter fun id => id ≠ arenaTeamId }

/-- A team of the store is written back. -/
def putArenaTeam (w : World) (team : ArenaTeam) : World :=
  { w with arenaTeamStore := Keyed.put ArenaTeam.teamId w.arenaTeamStore team }

/-- `ArenaTeamMgr::AddArenaTeam`. -/
def addArenaTeam (w : World) (team : ArenaTeam) : World :=
  { w with arenaTeamStore := w.arenaTeamStore ++ [team] }

/-- `ArenaTeamMgr::RemoveArenaTeam`. -/
def removeArenaTeam (w : World) (arenaTeamId : ℕ) : World :=
  { w with arenaTeamStore := w.arenaTeamStore.filter fun team => !(team.teamId = arenaTeamId) }

/-! ### The operations of a team -/

/-- The name under which `AddMember` enters a player: that of the player object, or of the cache. -/
def memberName (w : World) (playerGuid : Guid) : Option String :=
  match w.findPlayer playerGuid with
  | some player => some player.name
  | none => (w.characterCache playerGuid).map fun entry => entry.name

/-- The player is already in a similar arena team. -/
def isInSimilarTeam (w : World) (playerGuid : Guid) (type : ArenaTeamType) : Bool :=
  (match w.findPlayer playerGuid with
    | some player => decide (player.arenaTeamId type.getSlot ≠ 0)
    | none => false) ||
  decide (w.getCharacterArenaTeamIdByGuid playerGuid type ≠ 0)

/-- What `AddMember` writes outside the team: the cache, the member table and, if the player is in
the world, his unit fields. -/
def recordMember (w : World) (team : ArenaTeam) (playerGuid : Guid) : World :=
  let w := (w.updateCharacterArenaTeamId playerGuid team.type.getSlot team.teamId).insertMemberRow
    team.teamId playerGuid
  match w.findPlayer playerGuid with
  | none => w
  | some _ => w.modifyPlayer playerGuid fun player =>
    Player.setArenaTeamIdInvited (Player.setArenaTeamId player team.type.getSlot team.teamId) 0

/-- `ArenaTeam::AddMember`: the team and the world after it, or nothing if it fails. -/
def addMember (w : World) (team : ArenaTeam) (playerGuid : Guid) : Option (ArenaTeam × World) :=
  if team.isFull then none
  else
    match w.memberName playerGuid with
    | none => none
    | some name =>
      if w.isInSimilarTeam playerGuid team.type then none
      else some ({ team with members := team.members ++ [⟨playerGuid, name⟩] },
        w.recordMember team playerGuid)

/-- `ArenaTeam::DelMember`. The unit fields of a connected player are cleared whether or not he was
found in the team. -/
def delMember (w : World) (team : ArenaTeam) (guid : Guid) (cleanDb : Bool) : ArenaTeam × World :=
  let w₁ := if team.isMember guid then w.updateCharacterArenaTeamId guid team.type.getSlot 0 else w
  let w₂ := w₁.modifyPlayer guid fun player => Player.setArenaTeamId player team.type.getSlot 0
  ({ team with members := team.members.eraseP fun m => m.guid = guid },
    if cleanDb then w₂.deleteMemberRow team.teamId guid else w₂)

/-- `ArenaTeam::Disband`. The loop deletes the member at the front until there is none, which takes
the members in their order. -/
def disband (w : World) (team : ArenaTeam) : World :=
  let deleted := team.members.foldl (fun (p : ArenaTeam × World) m => p.2.delMember p.1 m.guid false)
    (team, w)
  (deleted.2.deleteTeamRows team.teamId).removeArenaTeam team.teamId

/-- `ArenaTeamMgr::GenerateArenaTeamId`, a counter of 32 bits. When the ids run out the source asks
the world to stop, which ends the update loop but not the update it is in: the packets that are
still handled go on counting. -/
def generateArenaTeamId (w : World) : ℕ × World :=
  (w.nextArenaTeamId, { w with nextArenaTeamId := (w.nextArenaTeamId + 1) % 2 ^ 32 })

/-- `ArenaTeam::Create` and, when it succeeds, `ArenaTeamMgr::AddArenaTeam`. The answer of
`AddMember` is not read. -/
def create (w : World) (captainGuid : Guid) (type : ArenaTeamType) (teamName : String) : World :=
  match w.characterCache captainGuid with
  | none => w
  | some _ =>
    if w.isNameTaken teamName then w
    else
      let (teamId, w₁) := w.generateArenaTeamId
      let team : ArenaTeam := ⟨teamId, type, teamName, captainGuid, []⟩
      match w₁.addMember team captainGuid with
      | none => w₁.addArenaTeam team
      | some (joined, w₂) => w₂.addArenaTeam joined

/-- `AddMember` called on a team of the store. -/
def addMemberOf (w : World) (team : ArenaTeam) (playerGuid : Guid) : World :=
  match w.addMember team playerGuid with
  | none => w
  | some (joined, w₁) => w₁.putArenaTeam joined

/-- `DelMember` called on a team of the store, with the row of the member. -/
def delMemberOf (w : World) (team : ArenaTeam) (guid : Guid) : World :=
  let (left, w₁) := w.delMember team guid true
  w₁.putArenaTeam left

/-- A signer of the petition joins the team. -/
def addSigner (w : World) (arenaTeamId : ℕ) (playerGuid : Guid) : World :=
  match w.getArenaTeamById arenaTeamId with
  | none => w
  | some team => w.addMemberOf team playerGuid

/-! ### The packets -/

/-- `HandleArenaTeamInviteOpcode`. The name is what `normalizePlayerName` made of the one in the
packet, if it made anything. -/
def handleArenaTeamInvite (w : World) (player : Player) (arenaTeamId : ℕ)
    (invitedName : Option String) (isMaxLevel hasIgnore isAllied : Bool) : World :=
  match invitedName.bind w.findPlayerByName with
  | none => w
  | some (guid, target) =>
    if !isMaxLevel then w
    else
      match w.getArenaTeamById arenaTeamId with
      | none => w
      | some team =>
        if player.arenaTeamId team.type.getSlot ≠ arenaTeamId then w
        else if hasIgnore then w
        else if !isAllied then w
        else if target.arenaTeamId team.type.getSlot ≠ 0 then w
        else if target.arenaTeamIdInvited ≠ 0 then w
        else if team.isFull then w
        else w.modifyPlayer guid fun p => Player.setArenaTeamIdInvited p team.teamId

/-- `HandleArenaTeamAcceptOpcode`. -/
def handleArenaTeamAccept (w : World) (guid : Guid) (player : Player) (isAllied : Bool) : World :=
  match w.getArenaTeamById player.arenaTeamIdInvited with
  | none => w
  | some team =>
    if player.arenaTeamId team.type.getSlot ≠ 0 then w
    else if !isAllied then w
    else w.addMemberOf team guid

/-- `HandleArenaTeamDeclineOpcode`. -/
def handleArenaTeamDecline (w : World) (guid : Guid) : World :=
  w.modifyPlayer guid fun player => Player.setArenaTeamIdInvited player 0

/-- `HandleArenaTeamLeaveOpcode`. Whether the sender is a member of the team is not asked. -/
def handleArenaTeamLeave (w : World) (guid : Guid) (arenaTeamId : ℕ) (inArena isInvited : Bool) :
    World :=
  match w.getArenaTeamById arenaTeamId with
  | none => w
  | some team =>
    if inArena then w
    else if guid = team.captainGuid ∧ 1 < team.members.length then w
    else if isInvited then w
    else if guid = team.captainGuid then w.disband team
    else w.delMemberOf team guid

/-- `HandleArenaTeamDisbandOpcode`. -/
def handleArenaTeamDisband (w : World) (guid : Guid) (arenaTeamId : ℕ)
    (isInvited isFighting : Bool) : World :=
  match w.getArenaTeamById arenaTeamId with
  | none => w
  | some team =>
    if team.captainGuid ≠ guid then w
    else if isInvited then w
    else if isFighting then w
    else w.disband team

/-- `HandleArenaTeamRemoveOpcode`. -/
def handleArenaTeamRemove (w : World) (guid : Guid) (arenaTeamId : ℕ) (name : Option String)
    (isInvited isFighting : Bool) : World :=
  match w.getArenaTeamById arenaTeamId with
  | none => w
  | some team =>
    if team.captainGuid ≠ guid then w
    else
      match name.bind team.getMember with
      | none => w
      | some member =>
        if team.captainGuid = member.guid then w
        else if isInvited then w
        else if isFighting then w
        else w.delMemberOf team member.guid

/-- `HandleArenaTeamLeaderOpcode`. -/
def handleArenaTeamLeader (w : World) (guid : Guid) (arenaTeamId : ℕ) (name : Option String) :
    World :=
  match w.getArenaTeamById arenaTeamId with
  | none => w
  | some team =>
    if team.captainGuid ≠ guid then w
    else
      match name.bind team.getMember with
      | none => w
      | some member =>
        if team.captainGuid = member.guid then w
        else w.putArenaTeam { team with captainGuid := member.guid }

/-! ### Logging in and out -/

/-- The query of a login reads the rows of the character from the member table. -/
def loadArenaRows (w : World) (guid : Guid) : World :=
  match w.characterCache guid, w.sessions guid with
  | some _, .offline =>
    { w with sessions := Function.update w.sessions guid (.loading (w.memberRows guid)) }
  | _, _ => w

/-- `Player::_LoadArenaTeamInfo`: the rows of teams that exist are written to the unit fields. -/
def loadArenaTeamInfo (w : World) (arenaRows : List ℕ) : Fin 3 → ℕ :=
  arenaRows.foldl (fun fields arenaTeamId =>
    match w.getArenaTeamById arenaTeamId with
    | none => fields
    | some team => Function.update fields team.type.getSlot arenaTeamId) fun _ => 0

/-- The integrity check of `Player::LoadFromDB`: a team that does not exist, or of which the player
is no member, is cleaned out. -/
def checkArenaTeams (w : World) (guid : Guid) (fields : Fin 3 → ℕ) : Fin 3 → ℕ := fun slot =>
  if fields slot = 0 then 0
  else
    match w.getArenaTeamById (fields slot) with
    | none => 0
    | some team => if team.isMember guid then fields slot else 0

/-- The player object is built and comes into the world. -/
def finishLoading (w : World) (guid : Guid) : World :=
  match w.characterCache guid, w.sessions guid with
  | some entry, .loading arenaRows =>
    { w with
      sessions := Function.update w.sessions guid
        (.online ⟨entry.name, w.checkArenaTeams guid (w.loadArenaTeamInfo arenaRows), 0, true⟩)
      playerNameMap := Function.update w.playerNameMap entry.name (some guid) }
  | _, _ => w

/-- The player object goes away, or the login fails. -/
def logout (w : World) (guid : Guid) : World :=
  { w with
    sessions := Function.update w.sessions guid .offline
    playerNameMap := fun name => (w.playerNameMap name).filter fun g => g ≠ guid }

end World

/-! ### Runs -/

/-- What happens to the server: teams are founded and signers of the petition join, players in the
world send packets, and players log in and out and leave the world while they are teleported. -/
inductive Event
  | create (captainGuid : Guid) (type : ArenaTeamType) (teamName : String)
  | addSigner (arenaTeamId : ℕ) (playerGuid : Guid)
  | invite (sender : Guid) (arenaTeamId : ℕ) (name : Option String)
      (isMaxLevel hasIgnore isAllied : Bool)
  | accept (sender : Guid) (isAllied : Bool)
  | decline (sender : Guid)
  | leave (sender : Guid) (arenaTeamId : ℕ) (inArena isInvited : Bool)
  | remove (sender : Guid) (arenaTeamId : ℕ) (name : Option String) (isInvited isFighting : Bool)
  | leader (sender : Guid) (arenaTeamId : ℕ) (name : Option String)
  | disband (sender : Guid) (arenaTeamId : ℕ) (isInvited isFighting : Bool)
  | loadArenaRows (guid : Guid)
  | finishLoading (guid : Guid)
  | logout (guid : Guid)
  | setInWorld (guid : Guid) (inWorld : Bool)

/-- A packet is handled if its sender is in the world. -/
def World.handlePacket (w : World) (sender : Guid) (handler : Player → World) : World :=
  match w.findPlayer sender with
  | none => w
  | some player => handler player

/-- One event. A team is founded by a captain who has no team of its type. -/
def step (w : World) : Event → World
  | .create captainGuid type teamName =>
    if w.getCharacterArenaTeamIdByGuid captainGuid type ≠ 0 then w
    else w.create captainGuid type teamName
  | .addSigner arenaTeamId playerGuid => w.addSigner arenaTeamId playerGuid
  | .invite sender arenaTeamId name isMaxLevel hasIgnore isAllied =>
    w.handlePacket sender fun player =>
      w.handleArenaTeamInvite player arenaTeamId name isMaxLevel hasIgnore isAllied
  | .accept sender isAllied =>
    w.handlePacket sender fun player => w.handleArenaTeamAccept sender player isAllied
  | .decline sender => w.handlePacket sender fun _ => w.handleArenaTeamDecline sender
  | .leave sender arenaTeamId inArena isInvited =>
    w.handlePacket sender fun _ => w.handleArenaTeamLeave sender arenaTeamId inArena isInvited
  | .remove sender arenaTeamId name isInvited isFighting =>
    w.handlePacket sender fun _ =>
      w.handleArenaTeamRemove sender arenaTeamId name isInvited isFighting
  | .leader sender arenaTeamId name =>
    w.handlePacket sender fun _ => w.handleArenaTeamLeader sender arenaTeamId name
  | .disband sender arenaTeamId isInvited isFighting =>
    w.handlePacket sender fun _ =>
      w.handleArenaTeamDisband sender arenaTeamId isInvited isFighting
  | .loadArenaRows guid => w.loadArenaRows guid
  | .finishLoading guid => w.finishLoading guid
  | .logout guid => w.logout guid
  | .setInWorld guid inWorld => w.modifyPlayer guid fun player => { player with inWorld := inWorld }

end IscServer.ArenaTeams
