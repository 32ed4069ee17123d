import IscServer.Guilds.Bank
import IscServer.Guilds.GuildSound

/-!
# Loaded Guilds

`Guild::Validate` repairs a guild that was read from the tables: the ranks, the ranks of the
members, the leader and the surplus guild masters, in this order. Of a rank its tab rights take
part, since the ranks that are there get the tabs they lack.

The tables give every rank of a guild an id of its own (the primary key of `guild_rank`) and every
member a guid of its own; ids of ranks are bytes. Nothing else is known of them (`Loadable`).

## Main definitions

* `LoadedGuild` — the leader, the members, the ranks with their tabs, and the purchased tabs.
* `LoadedGuild.validate` — `Guild::Validate`; there is no guild left where it returns false.
* `LoadedGuild.Repaired` — what a repaired guild is.
* `LoadedGuild.Mendable` — the guilds that are repaired by one validation for good.
-/

namespace IscServer.Guilds

/-- `GuildBankRightsAndSlots`: what a rank may do with a tab of the bank. -/
structure TabRights where
  tabId : ℕ
  rights : ℕ
  slots : ℕ
  deriving DecidableEq, Repr

/-- A tab of which nothing was loaded: its id is `TAB_UNDEFINED`. -/
def TabRights.undefined : TabRights := ⟨0xFF, 0, 0⟩

/-- `GuildBankRightsAndSlots::SetGuildMasterValues`. -/
def TabRights.setGuildMasterValues (t : TabRights) : TabRights :=
  { t with rights := 0xFF, slots := 0xFFFFFFFF }

/-- `RankInfo` with the rights of its tabs. -/
structure LoadedRank where
  info : RankInfo
  tabs : List TabRights
  deriving DecidableEq, Repr

namespace LoadedRank

/-- A rank that was made without tabs. -/
def new (rankId rights : ℕ) : LoadedRank :=
  ⟨⟨rankId, rights⟩, List.replicate guildBankMaxTabs TabRights.undefined⟩

/-- `RankInfo::CreateMissingTabsIfNeeded` at one tab. -/
def createMissingTab (r : LoadedRank) (tabs i : ℕ) (t : TabRights) : TabRights :=
  if tabs ≤ i then t
  else if t.tabId = i then t
  else if r.info.rankId = grGuildmaster then { t with tabId := i }.setGuildMasterValues
  else { t with tabId := i }

/-- `RankInfo::CreateMissingTabsIfNeeded`. -/
def createMissingTabsIfNeeded (r : LoadedRank) (tabs : ℕ) : LoadedRank :=
  { r with tabs := r.tabs.mapIdx (r.createMissingTab tabs) }

end LoadedRank

/-- `Guild`, as far as it is validated. -/
structure LoadedGuild where
  leaderGuid : Guid
  members : List Member
  ranks : List LoadedRank
  purchasedTabs : ℕ
  deriving DecidableEq, Repr

namespace LoadedGuild

variable (g : LoadedGuild)

/-- The guild without its bank. -/
def guild : Guild := ⟨true, g.leaderGuid, g.members, g.ranks.map LoadedRank.info⟩

/-- The guids of the members. -/
def guids : List Guid := g.members.map Member.guid

/-- `_GetRanksSize`, a byte. -/
def ranksSize : ℕ := g.ranks.length % 256

/-- `_GetLowestRankId`, a byte. -/
def lowestRankId : ℕ := (g.ranks.length - 1) % 256

/-- `_CreateRank`: the rank is stored before its tabs are created, and these are created in the copy
that was stored. -/
def createRank (rights : ℕ) (g : LoadedGuild) : LoadedGuild :=
  if guildRanksMaxCount ≤ g.ranksSize then g
  else { g with ranks := g.ranks ++ [LoadedRank.new g.ranksSize rights] }

/-- `_CreateDefaultGuildRanks`. -/
def createDefaultGuildRanks : LoadedGuild :=
  [grRightAll, grRightAll, grRightDefault, grRightDefault, grRightDefault].foldl
    (fun g rights => createRank rights g) g

/-- The ranks are too few or too many, or one of them does not have the id of its place. -/
def brokenRanks : Bool :=
  decide (g.ranksSize < guildRanksMinCount) || decide (guildRanksMaxCount < g.ranksSize) ||
    (g.ranks.take g.ranksSize).zipIdx.any fun r => r.1.info.rankId ≠ r.2

/-- The first part of `Validate`: broken ranks are replaced by the default ones, and good ones get
the tabs they lack. -/
def validateRanks : LoadedGuild :=
  if g.brokenRanks then createDefaultGuildRanks { g with ranks := [] }
  else
    { g with
      ranks := g.ranks.mapIdx fun rankId r =>
        if rankId < g.ranksSize then r.createMissingTabsIfNeeded g.purchasedTabs else r }

/-- The rank of a member after the second part of `Validate`. -/
def validRank (rankId : ℕ) : ℕ := if rankId > g.ranksSize then g.lowestRankId else rankId

/-- The second part of `Validate`: a member whose rank id is greater than the number of ranks gets
the lowest rank. -/
def validateMembers : LoadedGuild :=
  { g with members := g.members.map fun m => { m with rankId := g.validRank m.rankId } }

/-- The third part of `Validate`: the leader gets the rank of the guild master, and a missing leader
is deleted like a member who leaves, which makes another one the leader. Without a member left the
guild is gone. -/
def validateLeader (walk : List Guid) : Option LoadedGuild :=
  match g.guild.getMember g.leaderGuid with
  | none =>
    let left := deleteMember g.leaderGuid walk g.guild
    if left.alive then some { g with leaderGuid := left.leaderGuid, members := left.members }
    else none
  | some leader =>
    if leader.rankId = grGuildmaster then some g
    else
      let left := setLeader leader.guid g.guild
      some { g with leaderGuid := left.leaderGuid, members := left.members }

/-- The last part of `Validate`: unless there may be several, all guild masters but the leader
become officers. -/
def validateMasters (allowMultiple : Bool) : LoadedGuild :=
  if allowMultiple then g
  else
    { g with
      members := g.members.map fun m =>
        if m.rankId = grGuildmaster ∧ m.guid ≠ g.leaderGuid then { m with rankId := grOfficer }
        else m }

/-- `Guild::Validate`; `allowMultiple` is `Guild.AllowMultipleGuildMaster`, and `walk` are the
members in the order of the map. -/
def validate (allowMultiple : Bool) (walk : List Guid) : Option LoadedGuild :=
  (g.validateRanks.validateMembers.validateLeader walk).map fun g => g.validateMasters allowMultiple

/-! ### What is expected -/

/-- A guild with members as the tables give it. -/
structure Loadable : Prop where
  members : g.members ≠ []
  guids_nodup : g.guids.Nodup
  ids_nodup : (g.ranks.map fun r => r.info.rankId).Nodup
  ids_byte : ∀ r ∈ g.ranks, r.info.rankId < 256
  tabs : ∀ r ∈ g.ranks, r.tabs.length = guildBankMaxTabs
  purchased : g.purchasedTabs ≤ guildBankMaxTabs

/-- The ranks are 5 to 10 and each has the id of its place. -/
structure SoundRanks : Prop where
  count_ge : 5 ≤ g.ranks.length
  count_le : g.ranks.length ≤ 10
  ids : ∀ (i : ℕ) (r : LoadedRank), g.ranks[i]? = some r → r.info.rankId = i

/-- **A repaired guild**: 5 to 10 ranks with the ids 0, 1, 2 and so on, every member has one of
them, and the leader is a member and the guild master, the only one unless several are allowed. -/
structure Repaired (allowMultiple : Bool) : Prop where
  ranks : g.SoundRanks
  members : ∀ m ∈ g.members, m.rankId < g.ranks.length
  leader : ∃ m ∈ g.members, m.guid = g.leaderGuid ∧ m.rankId = grGuildmaster
  masters : allowMultiple = false → ∀ m ∈ g.members, m.rankId = grGuildmaster →
    m.guid = g.leaderGuid

/-- The number of ranks after the validation. -/
def rankCount : ℕ := if g.brokenRanks then 5 else g.ranks.length

/-- **What one validation repairs for good**: no member has the first rank id that is out of range,
unless it is the leader or will be as the only member; and the default ranks are not made for a
guild with tabs. -/
structure Mendable : Prop where
  members : ∀ m ∈ g.members, m.rankId = g.rankCount →
    m.guid = g.leaderGuid ∨ g.leaderGuid ∉ g.guids ∧ g.members = [m]
  tabs : g.brokenRanks = true → g.purchasedTabs = 0

end LoadedGuild

end IscServer.Guilds
