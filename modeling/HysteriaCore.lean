import HysteriaCore.Cluster.IdPartition
import HysteriaCore.Database.Atomicity
import HysteriaCore.Client.References
import HysteriaCore.Auth.Authed
import HysteriaCore.Rebase.Apart
import HysteriaCore.Rebase.Renaming
import HysteriaCore.Client.Kick
import HysteriaCore.Cluster.Failover
import HysteriaCore.Client.HandOver
import HysteriaCore.Client.Relay
import HysteriaCore.Net.Framing
import HysteriaCore.Net.Output
import HysteriaCore.Chat.Ownership
import HysteriaCore.Chat.Bans
import HysteriaCore.Chat.Privileges
import HysteriaCore.Looting.Window
import HysteriaCore.Looting.Distribution
import HysteriaCore.Battleground.Index
import HysteriaCore.Dungeon.Proposal
import HysteriaCore.Looting.Blocks
import HysteriaCore.Groups.Lifetime
import HysteriaCore.Guilds.Master
import HysteriaCore.Guilds.Membership
import HysteriaCore.Guilds.BankLimits
import HysteriaCore.Auctions.Requests
import HysteriaCore.Mails.Count
import HysteriaCore.Containers.Runs
import HysteriaCore.Events.Quests
import HysteriaCore.Instances.Binds
import HysteriaCore.Instances.Schedule
import HysteriaCore.Pools.Spawning
import HysteriaCore.Tickets.Persistence
import HysteriaCore.Collision.Queries
import HysteriaCore.Auth.Segmentation
import HysteriaCore.Client.Positions
import HysteriaCore.Warden.Bounds
import HysteriaCore.Warden.Loading
import HysteriaCore.Bans.Calls
import HysteriaCore.Cluster.InitCodec
import HysteriaCore.Net.HeaderCode
import HysteriaCore.Dungeon.RoleChoice
import HysteriaCore.Net.PackedGuid
import HysteriaCore.Pools.Circular
import HysteriaCore.Battleground.Balance
import HysteriaCore.Dungeon.RemoveProposal
import HysteriaCore.Dungeon.Boot
import HysteriaCore.Utilities.EventRuns
import HysteriaCore.Utilities.Tokenizer
import HysteriaCore.Utilities.TimeString
import HysteriaCore.Utilities.PlayerName
import HysteriaCore.Looting.Outcome
import HysteriaCore.Groups.RaidRows
import HysteriaCore.Guilds.EventLog
import HysteriaCore.Battleground.ArenaTeam
import HysteriaCore.Auctions.Restart
import HysteriaCore.Trades.Eligibility
import HysteriaCore.Combat.Victims
import HysteriaCore.Calendar.Visibility
import HysteriaCore.Instances.InstanceIds
import HysteriaCore.Events.Holidays
import HysteriaCore.Reputation.Relog
import HysteriaCore.Inventory.NewItem
import HysteriaCore.Looting.QuestDrops
import HysteriaCore.Conditions.References
