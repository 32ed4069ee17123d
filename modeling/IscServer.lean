import IscServer.Protocol.IscStream
import IscServer.Server.WorldSocketRead
import IscServer.Server.WorldSocketStream
import IscServer.Cryptography.Srp6
import IscServer.AuthServer.AuthStream
import IscServer.Pools.PoolRuns
import IscServer.AI.CompanionRuns
import IscServer.Updater.UpdateConverge
import IscServer.DevTools.DevToolsCommit
import IscServer.DevTools.DevToolsRuns
import IscServer.DungeonFinding.LFGPlacementRuns
import IscServer.DungeonFinding.LFGBest
import IscServer.DungeonFinding.LFGMgr
import IscServer.Groups.GroupRows
import IscServer.Guilds.BankRights
import IscServer.Loot.LootOnce
import IscServer.Loot.LootCounted
import IscServer.Chat.HyperlinkGrammar
import IscServer.Chat.ChatCommandResolve
import IscServer.Chat.ChatCommandInvoker
import IscServer.Guilds.GuildLogRuns
import IscServer.Reputation.ReputationRuns
import IscServer.AuctionHouse.AuctionRuns
import IscServer.Mails.MailRuns
import IscServer.Spells.CategoryCooldowns
import IscServer.Events.GameEventSchedule
import IscServer.Server.PacketOrder
import IscServer.Threading.MPSCSound
import IscServer.Channels.ChannelOwner
import IscServer.Channels.ChannelRestart
import IscServer.Instances.GlobalResets
import IscServer.Conditions.SearcherMask
import IscServer.Maps.SpawnGroupActivity
import IscServer.Accounts.RBACReload
import IscServer.Battlegrounds.ArenaMatch
import IscServer.ArenaTeams.ArenaTeamRuns
import IscServer.Calendar.CalendarRights
import IscServer.DungeonFinding.LFGRoles
import IscServer.Combat.ThreatVictim
import IscServer.Combat.ThreatRedirect
import IscServer.Utilities.TaskSchedulerSound
import IscServer.Guilds.GuildValidateSound
import IscServer.Pools.PoolCycles
import IscServer.Chat.ChatCommandEnums
import IscServer.Utilities.Util
import IscServer.Spells.PetCooldowns
import IscServer.Instances.InstanceMap
import IscServer.Battlegrounds.BattlegroundClosing
import IscServer.Movement.MotionRemoval
import IscServer.Accounts.RBACPermissions
import IscServer.IPLocation.IpLocationStore
