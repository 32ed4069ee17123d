import Mathlib.Data.List.Perm.Basic
import Mathlib.Data.Nat.Bitwise
import IscServer.Library.Run

/-!
# Guilds

`Guild` (`game/Guilds/Guild.h`, `Guild.cpp`): the members with their ranks, the ranks with their
rights, and the commands of the client that change them. Rank 0 is the guild master, higher ids are
lower ranks.

* The leader is stored twice, as `m_leaderGuid` and as the member of rank `GR_GUILDMASTER`.
* Members are in the order in which they joined. `m_members` is an unordered map; where the code
  walks through it and the order matters (`DeleteMember`), the order is an argument.
* `GetMember(name)` finds the member whose name is given. Names of characters are unique, so that
  a command names its target by guid.
* `Disband` removes the guild. The model keeps it as a state that is no longer `alive`.

Names of ranks, notes, emblems, logs, rosters, packets and the rows of the database are left out;
the bank is a module of its own.
-/

namespace IscServer.Guilds

/-- The guid of a player. -/
abbrev Guid := ℕ

/-- `GUILD_RANKS_MIN_COUNT`. -/
def guildRanksMinCount : ℕ := 5

/-- `GUILD_RANKS_MAX_COUNT`. -/
def guildRanksMaxCount : ℕ := 10

/-- `GR_GUILDMASTER`. -/
def grGuildmaster : ℕ := 0

/-- `GR_OFFICER`. -/
def grOfficer : ℕ := 1

/-- `GR_RIGHT_REMOVE`. -/
def grRightRemove : ℕ := 0x00000020

/-- `GR_RIGHT_PROMOTE`. -/
def grRightPromote : ℕ := 0x00000080

/-- `GR_RIGHT_DEMOTE`. -/
def grRightDemote : ℕ := 0x00000100

/-- `GR_RIGHT_ALL`. -/
def grRightAll : ℕ := 0x001DFFFF

/-- `GR_RIGHT_GCHATLISTEN | GR_RIGHT_GCHATSPEAK | GR_RIGHT_LEAVE`, what a new rank may do. -/
def grRightDefault : ℕ := 0x00000043

/-- `RankInfo`. -/
structure RankInfo where
  rankId : ℕ
  rights : ℕ
  deriving DecidableEq, Repr

/-- `Member`. -/
structure Member where
  guid : Guid
  rankId : ℕ
  deriving DecidableEq, Repr

/-- `Guild`. -/
structure Guild where
  alive : Bool
  leaderGuid : Guid
  members : List Member
  ranks : List RankInfo

variable (g : Guild)

/-- The guids of the members. -/
def Guild.guids : List Guid := g.members.map Member.guid

/-- `GetMember`. -/
def Guild.getMember (guid : Guid) : Option Member := g.members.find? fun member => member.guid = guid

/-- `_GetLowestRankId`. -/
def Guild.lowestRankId : ℕ := g.ranks.length - 1

/-- `_GetRankRights`. -/
def Guild.rankRights (rankId : ℕ) : ℕ :=
  match g.ranks[rankId]? with
  | none => 0
  | some info => info.rights

/-- `_HasRankRight`. -/
def Guild.hasRankRight (guid : Guid) (right : ℕ) : Bool :=
  match g.getMember guid with
  | none => false
  | some member => g.rankRights member.rankId &&& right ≠ 0

/-- `_IsLeader`: by the leader's guid or by the rank. -/
def Guild.isLeader (guid : Guid) : Bool :=
  guid = g.leaderGuid || (g.getMember guid).any fun member => member.rankId = grGuildmaster

/-- `Member::ChangeRank`. -/
def changeRank (guid : Guid) (rankId : ℕ) (g : Guild) : Guild :=
  { g with
    members := g.members.map fun member =>
      if member.guid = guid then { member with rankId := rankId } else member }

/-- `_SetLeader`. -/
def setLeader (guid : Guid) (g : Guild) : Guild :=
  changeRank guid grGuildmaster { g with leaderGuid := guid }

/-- `Guild::Disband`. -/
def disband (g : Guild) : Guild := { g with alive := false, members := [] }

/-- `_CreateRank`. -/
def createRank (rights : ℕ) (g : Guild) : Guild :=
  if guildRanksMaxCount ≤ g.ranks.length then g
  else { g with ranks := g.ranks ++ [⟨g.ranks.length, rights⟩] }

/-- `_CreateDefaultGuildRanks`: master, officer, veteran, member and initiate. -/
def createDefaultGuildRanks (g : Guild) : Guild :=
  [grRightAll, grRightAll, grRightDefault, grRightDefault, grRightDefault].foldl
    (fun g rights => createRank rights g) { g with ranks := [] }

/-- `Guild::AddMember`. `free` says that the player is in no guild; without a rank a new member
gets the lowest one. -/
def addMember (guid : Guid) (free : Bool) (rankId : Option ℕ) (g : Guild) : Guild :=
  if free ∧ (g.getMember guid).isNone then
    { g with members := g.members ++ [⟨guid, rankId.getD g.lowestRankId⟩] }
  else g

/-- `Guild::Create`. -/
def create (leader : Guid) : Guild :=
  addMember leader true (some grGuildmaster) (createDefaultGuildRanks ⟨true, leader, [], []⟩)

/-- One step of the search of `DeleteMember` for the next leader. -/
def considerLeader (guid : Guid) (newLeader : Option Member) (member : Member) : Option Member :=
  if member.guid = guid then newLeader
  else
    match newLeader with
    | none => some member
    | some best => if member.rankId < best.rankId then some member else some best

/-- The first member of the highest rank, other than the one who leaves. -/
def nextLeader (guid : Guid) (members : List Member) : Option Member :=
  members.foldl (considerLeader guid) none

/-- The last part of `DeleteMember`. -/
def eraseMember (guid : Guid) (g : Guild) : Guild :=
  let left := { g with members := g.members.filter fun member => member.guid ≠ guid }
  if left.members.isEmpty then disband left else left

/-- `Guild::DeleteMember` while the guild is not disbanding; `walk` are the members in the order of
the map. -/
def deleteMember (guid : Guid) (walk : List Guid) (g : Guild) : Guild :=
  if g.leaderGuid = guid then
    match nextLeader guid (walk.filterMap g.getMember) with
    | none => disband g
    | some newLeader => eraseMember guid (setLeader newLeader.guid g)
  else eraseMember guid g

/-! ### Commands of the client -/

/-- `Guild::HandleSetNewGuildMaster`. -/
def handleSetNewGuildMaster (player target : Guid) (g : Guild) : Guild :=
  if g.isLeader player then
    match g.getMember target with
    | none => g
    | some newGuildMaster => changeRank g.leaderGuid grOfficer (setLeader newGuildMaster.guid g)
  else g

/-- `Guild::HandleUpdateMemberRank`. -/
def handleUpdateMemberRank (player target : Guid) (demote : Bool) (g : Guild) : Guild :=
  if g.hasRankRight player (if demote then grRightDemote else grRightPromote) then
    match g.getMember target, g.getMember player with
    | some member, some memberMe =>
      if member.guid = player then g
      else if demote then
        -- only lower ranks, and not the lowest one
        if member.rankId ≤ memberMe.rankId ∨ g.lowestRankId ≤ member.rankId then g
        else changeRank member.guid (member.rankId + 1) g
      else
        -- only to ranks below the own one
        if member.rankId ≤ memberMe.rankId + 1 then g
        else changeRank member.guid (member.rankId - 1) g
    | _, _ => g
  else g

/-- `Guild::HandleAddNewRank`. -/
def handleAddNewRank (player : Guid) (g : Guild) : Guild :=
  if guildRanksMaxCount ≤ g.ranks.length then g
  else if g.isLeader player then createRank grRightDefault g
  else g

/-- `Guild::HandleRemoveRank`. -/
def handleRemoveRank (player : Guid) (rankId : ℕ) (g : Guild) : Guild :=
  if g.ranks.length ≤ guildRanksMinCount ∨ g.ranks.length ≤ rankId ∨ ¬ g.isLeader player then g
  else { g with ranks := g.ranks.take rankId }

/-- `Guild::HandleRemoveLowestRank`. -/
def handleRemoveLowestRank (player : Guid) (g : Guild) : Guild :=
  handleRemoveRank player g.lowestRankId g

/-- `Guild::HandleSetRankInfo`, of which the rights are kept: the guild master's rank always has
all of them. -/
def handleSetRankInfo (player : Guid) (rankId rights : ℕ) (g : Guild) : Guild :=
  if g.isLeader player then
    { g with
      ranks := g.ranks.modify rankId fun info =>
        { info with rights := if info.rankId = grGuildmaster then grRightAll else rights } }
  else g

/-- `Guild::HandleAcceptMember`; `allied` says that the player is of the team of the leader or that
both teams may join. -/
def handleAcceptMember (player : Guid) (allied free : Bool) (g : Guild) : Guild :=
  if allied then addMember player free none g else g

/-- `Guild::HandleLeaveMember`: the leader leaves last. -/
def handleLeaveMember (player : Guid) (walk : List Guid) (g : Guild) : Guild :=
  if g.isLeader player then if 1 < g.members.length then g else disband g
  else deleteMember player walk g

/-- `Guild::HandleRemoveMember`. -/
def handleRemoveMember (player target : Guid) (walk : List Guid) (g : Guild) : Guild :=
  if g.hasRankRight player grRightRemove then
    match g.getMember target, g.getMember player with
    | some member, some memberMe =>
      if member.rankId = grGuildmaster ∨ member.rankId ≤ memberMe.rankId then g
      else deleteMember member.guid walk g
    | _, _ => g
  else g

/-- What happens to a guild. -/
inductive Command
  | setNewGuildMaster (player target : Guid)
  | updateMemberRank (player target : Guid) (demote : Bool)
  | addNewRank (player : Guid)
  | removeLowestRank (player : Guid)
  | setRankInfo (player : Guid) (rankId rights : ℕ)
  | acceptMember (player : Guid) (allied free : Bool)
  | leaveMember (player : Guid) (walk : List Guid)
  | removeMember (player target : Guid) (walk : List Guid)
  | deleteMember (guid : Guid) (walk : List Guid)

/-- A command to a guild that exists. -/
def perform (g : Guild) : Command → Guild
  | .setNewGuildMaster player target => handleSetNewGuildMaster player target g
  | .updateMemberRank player target demote => handleUpdateMemberRank player target demote g
  | .addNewRank player => handleAddNewRank player g
  | .removeLowestRank player => handleRemoveLowestRank player g
  | .setRankInfo player rankId rights => handleSetRankInfo player rankId rights g
  | .acceptMember player allied free => handleAcceptMember player allied free g
  | .leaveMember player walk => handleLeaveMember player walk g
  | .removeMember player target walk => handleRemoveMember player target walk g
  | .deleteMember guid walk => deleteMember guid walk g

/-- The state after a command; a guild that is gone receives none. -/
def step (g : Guild) (command : Command) : Guild := if g.alive then perform g command else g

end IscServer.Guilds
