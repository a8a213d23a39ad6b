import Sylverant.Library.CInt
import Sylverant.Library.BitMask
import Sylverant.Library.CString
import Sylverant.Library.Loop
import Sylverant.Library.FlagStream
import Sylverant.Library.Lz77
import Sylverant.Library.Simulation
import Sylverant.Library.HashChain
import Sylverant.Library.ChunkedInput
import Sylverant.Library.Socket
import Sylverant.Library.Run
import Sylverant.Library.Slots
import Sylverant.Library.Seating
import Sylverant.Library.Counting
import Sylverant.Library.RandomAccess
import Sylverant.Library.Layout
import Sylverant.Library.Blocks
import Sylverant.Library.Chain
import Sylverant.Prs.Outcome
import Sylverant.Prs.Decomp
import Sylverant.Prs.Decoder
import Sylverant.Prs.FrontEnds
import Sylverant.Prs.Grammar
import Sylverant.Prs.Decoding
import Sylverant.Prs.Agreement
import Sylverant.Prs.Safety
import Sylverant.Prs.Comp
import Sylverant.Prs.Search
import Sylverant.Prs.Emit
import Sylverant.Prs.Parse
import Sylverant.Prs.Compress
import Sylverant.Prs.RoundTrip
import Sylverant.Prs.FixedBuffer
import Sylverant.Archive.Files
import Sylverant.Archive.Afs
import Sylverant.Archive.AfsFormat
import Sylverant.Archive.AfsRead
import Sylverant.Archive.AfsCreate
import Sylverant.Archive.AfsEdit
import Sylverant.Archive.AfsAdd
import Sylverant.Archive.Gsl
import Sylverant.Archive.GslFormat
import Sylverant.Archive.GslRead
import Sylverant.Archive.GslCreate
import Sylverant.Archive.Bml
import Sylverant.Archive.BmlFormat
import Sylverant.Archive.BmlRead
import Sylverant.Archive.BmlUpdate
import Sylverant.Ship.Version
import Sylverant.Ship.Framing
import Sylverant.Ship.HostileHeaders
import Sylverant.Ship.Delivery
import Sylverant.Ship.SendBuf
import Sylverant.Ship.Block
import Sylverant.Ship.Lobby
import Sylverant.Ship.Transfer
import Sylverant.Ship.Signals
import Sylverant.Ship.Calls
import Sylverant.Ship.Membership
import Sylverant.Ship.Leader
import Sylverant.Ship.Burst
import Sylverant.Ship.BurstQueue
import Sylverant.Ship.Targets
import Sylverant.Ship.Games
import Sylverant.Ship.Accounting
import Sylverant.Ship.GameList
import Sylverant.Ship.WordSelect
import Sylverant.Ship.MapData
import Sylverant.Ship.MapParse
import Sylverant.Ship.QuestMap
import Sylverant.Ship.QuestSections
import Sylverant.Ship.QuestCache
import Sylverant.Ship.QuestRoundTrip
import Sylverant.Ship.BbGame
import Sylverant.Ship.Items
import Sylverant.Ship.Quantities
import Sylverant.Ship.BbHandlers
import Sylverant.Ship.ItemIds
import Sylverant.Ship.Meseta
import Sylverant.Ship.Bank
import Sylverant.Ship.Experience
import Sylverant.Ship.PickUp
import Sylverant.Ship.TrackInv
import Sylverant.Ship.DropTables
import Sylverant.Ship.RareTables
import Sylverant.Ship.DropStack
import Sylverant.Ship.DropItems
import Sylverant.Ship.DropRequests
import Sylverant.Ship.DropOnce
import Sylverant.Ship.DropBounds
import Sylverant.Ship.LegitCheck
import Sylverant.Ship.LegitMode
import Sylverant.Items.Document
import Sylverant.Items.Check
import Sylverant.Items.Attributes
import Sylverant.Patch.FileSending
import Sylverant.Patch.Delivery
import Sylverant.Servers.Output
import Sylverant.Servers.ReadFromClient
import Sylverant.Servers.ClientHeaders
import Sylverant.Servers.PacketStream
import Sylverant.Servers.PatchFraming
import Sylverant.Shipgate.Link
import Sylverant.Shipgate.Framing
import Sylverant.Shipgate.HostileHeaders
import Sylverant.Servers.Receivers
import Sylverant.Shipgate.Packets
import Sylverant.Shipgate.Requests
import Sylverant.Shipgate.Boundaries
import Sylverant.Shipgate.Recovery
import Sylverant.Shipgate.Output
import Sylverant.Library.SortedArray
import Sylverant.Ship.ShipList
import Sylverant.Library.TracedLoop
import Sylverant.Ship.FromShipgate
import Sylverant.Ship.BlockNumbers
import Sylverant.Library.Packed
import Sylverant.Shipgate.CharacterStore
import Sylverant.Login.CharacterData
import Sylverant.Ship.CharacterSaves
import Sylverant.Shipgate.OnlineShips
import Sylverant.Shipgate.OnlineClients
import Sylverant.Servers.Framing
import Sylverant.Servers.LoginFraming
import Sylverant.Login.Privileges
import Sylverant.Library.Channels
import Sylverant.Ship.SimpleMail
import Sylverant.Ship.QueueDelivery
import Sylverant.Library.Bounded
import Sylverant.Library.Labels
import Sylverant.Dns.Query
import Sylverant.Dns.Answers
import Sylverant.Ship.Bans
import Sylverant.Ship.BanKeeping
import Sylverant.Library.Decimal
import Sylverant.Ship.BanFile
import Sylverant.Shipgate.BlockClients
import Sylverant.Ship.MonsterLists
import Sylverant.Ship.QuestLoads
import Sylverant.Patch.FileList
import Sylverant.Library.Ownership
import Sylverant.Patch.ConfigFile
import Sylverant.Patch.ConfigReading
import Sylverant.Patch.ConfigReload
import Sylverant.Ship.QuestFiles
import Sylverant.Ship.QuestFileChunks
import Sylverant.Ship.QuestFileReading
import Sylverant.Library.Ledger
import Sylverant.Ship.Kills
import Sylverant.Ship.KillLedger
import Sylverant.Shipgate.MonsterKills
import Sylverant.Shipgate.KillAccounting
import Sylverant.Ship.Levels
import Sylverant.Ship.MonsterPackets
import Sylverant.Library.Pieces
import Sylverant.Servers.Checksum
import Sylverant.Login.Params
import Sylverant.Login.GuildCards
import Sylverant.Ship.UserOptions
import Sylverant.Library.Iconv
import Sylverant.Ship.Passwords
import Sylverant.Login.ShipMenu
import Sylverant.Login.Tables
import Sylverant.Ship.GameTables
import Sylverant.Ship.GameDrops
import Sylverant.Ship.InventorySort
import Sylverant.Ship.Equipment
import Sylverant.Ship.JoinItems
import Sylverant.Ship.ChallengeCap
import Sylverant.Ship.WeightedDrops
import Sylverant.Ship.WeaponDrops
import Sylverant.Ship.QuestScan
import Sylverant.Ship.MapRecords
import Sylverant.Ship.MapExpansion
import Sylverant.Library.Levels
import Sylverant.Ship.UnitTables
import Sylverant.Ship.ItemWords
import Sylverant.Library.Stopping
import Sylverant.Ship.PmtData
import Sylverant.Ship.PmtBounds
import Sylverant.Ship.PmtLookups
import Sylverant.Ship.PmtSafety
import Sylverant.Ship.PlayerList
import Sylverant.Ship.PlayerPages
import Sylverant.Archive.BmlExtract
import Sylverant.Prs.Observed
import Sylverant.Prs.Searches
import Sylverant.Prs.Account
import Sylverant.Prs.Reads
import Sylverant.Library.LaggedBlock
import Sylverant.Library.WordCipher
import Sylverant.Encryption.Streams
import Sylverant.Encryption.BlueBurst
import Sylverant.Encryption.Links
import Sylverant.Servers.PatchCipher
import Sylverant.Servers.Random
import Sylverant.Library.BlockHash
import Sylverant.Servers.Md5
