import CKGameServer.Library.Outbox
import CKGameServer.Library.Runs
import CKGameServer.Library.Memory
import CKGameServer.Library.Layout
import CKGameServer.Library.Framing
import CKGameServer.Library.SlidingQueue
import CKGameServer.Model.Packet
import CKGameServer.Model.User
import CKGameServer.Library.Decimal
import CKGameServer.Model.RedisTaskDefine
import CKGameServer.Model.RedisConn
import CKGameServer.Model.RedisManager
import CKGameServer.Model.Server
import CKGameServer.Model.PacketManager
import CKGameServer.Model.Effects
import CKGameServer.Model.GameServer
import CKGameServer.Model.Run
import CKGameServer.Network.SendMsg
import CKGameServer.Trade.Request
import CKGameServer.Model.TradeManager
import CKGameServer.Trade.Confirm
import CKGameServer.Buffer.Progress
import CKGameServer.Buffer.Intact
import CKGameServer.Buffer.Compaction
import CKGameServer.Buffer.ReceiveBuffer
import CKGameServer.Buffer.Backlog
import CKGameServer.Buffer.FrameQueue
import CKGameServer.Model.NetworkClient
import CKGameServer.Buffer.ClientFraming
import CKGameServer.Login.EndToEnd
import CKGameServer.Login.Client
import CKGameServer.Chat.Commands
import CKGameServer.Lobby.AuthenticationGate
import CKGameServer.Lobby.Basic
import CKGameServer.Lobby.Refinement
import CKGameServer.Model.Client
import CKGameServer.Lobby.Occupancy
import CKGameServer.Lobby.Membership
import CKGameServer.Lobby.DoubleLogin
import CKGameServer.Lobby.TrustBoundary
import CKGameServer.Library.FillEmpty
import CKGameServer.Trade.Inventory
import CKGameServer.Inventory.Stored
import CKGameServer.Shop.Purchase
import CKGameServer.Shop.Update
import CKGameServer.Inventory.Frame
import CKGameServer.Inventory.Failures
import CKGameServer.Packets.Senders
import CKGameServer.Inventory.Load
import CKGameServer.Inventory.Delivery
import CKGameServer.Trade.Exchange
import CKGameServer.Trade.Failures
import CKGameServer.Trade.Correct
import CKGameServer.Trade.Validation
import CKGameServer.Session.Tasks
import CKGameServer.Session.History
import CKGameServer.Session.Origin
import CKGameServer.Session.Boundaries
import CKGameServer.Model.ClientInfo
import CKGameServer.Network.SendQueue
import CKGameServer.Packets.Dependence
import CKGameServer.Packets.ChatMessage
import CKGameServer.Packets.Containment
import CKGameServer.Packets.Layout
import CKGameServer.Session.Reuse
import CKGameServer.Lobby.RoomActions
import CKGameServer.Lobby.News
import CKGameServer.Lobby.Views
import CKGameServer.Lobby.Replicas
import CKGameServer.Library.Deadline
import CKGameServer.Shop.Schedule
import CKGameServer.Shop.Broadcast
import CKGameServer.Shop.Offer
import CKGameServer.Shop.AddHours
import CKGameServer.Library.InFlight
import CKGameServer.Network.SendOrder
import CKGameServer.Login.Capacity
import CKGameServer.Packets.RequestTasks
import CKGameServer.Inventory.Numeric
import CKGameServer.Session.Answers
import CKGameServer.Chat.Notices
import CKGameServer.Model.ReadTcpDataThread
import CKGameServer.Buffer.ClientReader
import CKGameServer.Buffer.ClientReaderEnd
import CKGameServer.Model.IOCPServer
import CKGameServer.Network.Slots
import CKGameServer.Library.Sessions
import CKGameServer.Model.WokerThread
import CKGameServer.Network.Callbacks
import CKGameServer.Shop.Reload
import CKGameServer.Inventory.Decoders
import CKGameServer.Inventory.Starter
import CKGameServer.Lobby.Leave
import CKGameServer.Packets.UserIDs
import CKGameServer.Library.Rotation
import CKGameServer.Lobby.Movement
import CKGameServer.Library.Resp
import CKGameServer.Library.Incremental
import CKGameServer.Model.RedisReader
import CKGameServer.Redis.Numbers
import CKGameServer.Redis.Reader
import CKGameServer.Redis.Replies
import CKGameServer.Model.Hiredis
import CKGameServer.Redis.Commands
import CKGameServer.Redis.Connection
import CKGameServer.Model.CRedisConn
import CKGameServer.Redis.Database
import CKGameServer.Session.Inbox
import CKGameServer.Model.ClientRequest
import CKGameServer.Session.Requests
import CKGameServer.Network.Streams
import CKGameServer.Lobby.Agreement
import CKGameServer.Inventory.Safekeeping
import CKGameServer.Session.Pipeline
import CKGameServer.Session.Workload
