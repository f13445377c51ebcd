import Sunstrider.Laws.Accounts.Permissions
import Sunstrider.Laws.Auction.Bids
import Sunstrider.Laws.Auction.Cut
import Sunstrider.Laws.Auction.Items
import Sunstrider.Laws.Auction.Money
import Sunstrider.Laws.Battlegrounds.Disbanding
import Sunstrider.Laws.Battlegrounds.Premades
import Sunstrider.Laws.Battlegrounds.SeasonNumbers
import Sunstrider.Laws.Cache.NameIndex
import Sunstrider.Laws.Chat.Messages
import Sunstrider.Laws.Combat.HighestThreat
import Sunstrider.Laws.Combat.Redirection
import Sunstrider.Laws.Conditions.Branches
import Sunstrider.Laws.Events.NextCheck
import Sunstrider.Laws.Groups.InviteRuns
import Sunstrider.Laws.Groups.RollAwards
import Sunstrider.Laws.Groups.RoundRobin
import Sunstrider.Laws.Guilds.BankLimits
import Sunstrider.Laws.Guilds.BankReload
import Sunstrider.Laws.Guilds.EventLog
import Sunstrider.Laws.Guilds.Hierarchy
import Sunstrider.Laws.Guilds.Rights
import Sunstrider.Laws.Instances.Doors
import Sunstrider.Laws.Instances.QueueRuns
import Sunstrider.Laws.Instances.ResetTimes
import Sunstrider.Laws.Inventory.Exchange
import Sunstrider.Laws.Items.Buyback
import Sunstrider.Laws.Loots.MasterLoot
import Sunstrider.Laws.Loots.QuestLoot
import Sunstrider.Laws.Loots.Storing
import Sunstrider.Laws.Mails.MailList
import Sunstrider.Laws.Maps.Respawns
import Sunstrider.Laws.Network.Cipher
import Sunstrider.Laws.Network.Delivery
import Sunstrider.Laws.Network.PackedGuids
import Sunstrider.Laws.Player.CorpseReclaim
import Sunstrider.Laws.Player.SavedFlights
import Sunstrider.Laws.Player.Skills
import Sunstrider.Laws.Player.SpamReports
import Sunstrider.Laws.Pools.QuestPools
import Sunstrider.Laws.Pools.Updates
import Sunstrider.Laws.Reputation.Promises
import Sunstrider.Laws.Spells.Categories
import Sunstrider.Laws.Spells.CooldownPacket
import Sunstrider.Laws.Tickets.TicketMgr
import Sunstrider.Laws.Trade.Conservation
import Sunstrider.Laws.Utilities.Durations
import Sunstrider.Laws.Utilities.EventLoops
import Sunstrider.Laws.Utilities.EventSchedule
import Sunstrider.Laws.Utilities.MinimalDelay
import Sunstrider.Laws.Utilities.Names
import Sunstrider.Laws.Utilities.TaskOrder
