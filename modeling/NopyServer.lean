import NopyServer.Lib.BoundedLoop
import NopyServer.Lib.SlotPack
import NopyServer.Items
import NopyServer.World
import NopyServer.Player
import NopyServer.Drop
import NopyServer.DropConservation
import NopyServer.DropCleanUp
import NopyServer.Inventory
import NopyServer.InventoryInvariant
import NopyServer.InventoryRuns
import NopyServer.AutoConvert
import NopyServer.Text
import NopyServer.Lib.Json
import NopyServer.Lib.Ledger
import NopyServer.Server
import NopyServer.Locks
import NopyServer.BuyingMachine
import NopyServer.MachineLedger
import NopyServer.BuyingMachineConservation
import NopyServer.Payments
import NopyServer.Vending
import NopyServer.VendingConservation
import NopyServer.WorldRecords
import NopyServer.WorldFile
import NopyServer.WorldRoundTrip
import NopyServer.WorldGenerator
import NopyServer.WorldStore
import NopyServer.WorldSaveLoad
import NopyServer.WorldStoreNames
import NopyServer.WorldLookup
import NopyServer.AutoHarvest
import NopyServer.Backpack
import NopyServer.DailyChallenge
import NopyServer.DialogGate
import NopyServer.Guilds
import NopyServer.StorageBox
import NopyServer.BoxLedger
import NopyServer.StorageRuns
import NopyServer.DonationBox
import NopyServer.DonationRuns
import NopyServer.Trade
import NopyServer.TradeRuns
import NopyServer.TradeRules
import NopyServer.TradeSpace
import NopyServer.SuckerBox
import NopyServer.DisplayDialogs
import NopyServer.DisplayConservation
import NopyServer.Lib.FloodFill
import NopyServer.PatchPath
import NopyServer.DialogReads
import NopyServer.GuildTransfer
import NopyServer.GuildMembership
import NopyServer.Clothing
import NopyServer.TileDialogs
import NopyServer.BuxGems
import NopyServer.RedeemCode
import NopyServer.RedeemRuns
import NopyServer.EventPump
import NopyServer.GuildSave
import NopyServer.GamePacket
import NopyServer.PendingDialogs
import NopyServer.AntiDDoS
import NopyServer.Lib.Calendar
import NopyServer.DailyReward
import NopyServer.DailyRewardRuns
import NopyServer.WorldGame
import NopyServer.RoleEditor
import NopyServer.HarvestJobs
import NopyServer.Experience
import NopyServer.Gacha
import NopyServer.Conversions
import NopyServer.FishSale
import NopyServer.ItemMoves
import NopyServer.SafeGifts
import NopyServer.Exchanges
import NopyServer.SecretBansos
import NopyServer.BansosSchedule
import NopyServer.LockTiles
import NopyServer.LockReapply
import NopyServer.TakeLocks
import NopyServer.EnsurePay
import NopyServer.Lib.CursorBuffer
import NopyServer.ItemsEncoder
import NopyServer.LockSpiral
import NopyServer.GameTeams
import NopyServer.RoleRights
import NopyServer.FormVisual
import NopyServer.VisualBounds
import NopyServer.LockUpdate
import NopyServer.EntryBooth
import NopyServer.CrystalSale
import NopyServer.PairRuns
import NopyServer.Lib.EraseLoop
import NopyServer.FriendsList
import NopyServer.DropItem
import NopyServer.DailyDates
import NopyServer.Lib.Base64
import NopyServer.LoginHandler
import NopyServer.DailySkips
import NopyServer.DailyCounts
import NopyServer.PacketRate
import NopyServer.Lib.ByteMemory
import NopyServer.TankPackets
import NopyServer.PlayerMoving
import NopyServer.GameDialog
import NopyServer.Lib.TextSearch
import NopyServer.LoginFields
import NopyServer.FloodBans
import NopyServer.Lib.TimeCounts
import NopyServer.FloodWindows
import NopyServer.LoginFlood
import NopyServer.ItemsFile
import NopyServer.Lib.ByteReader
import NopyServer.ItemsData
import NopyServer.CollectDrops
import NopyServer.Lib.Postings
import NopyServer.BankCentral
import NopyServer.Lib.LateWrites
import NopyServer.WorldSaves
import NopyServer.WorldSaveRuns
import NopyServer.AreaLocks
import NopyServer.LockArea
