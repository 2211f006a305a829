import RioServer.Lib.Framing
import RioServer.Lib.Interleaving
import RioServer.Lib.Lock
import RioServer.Lib.Loop
import RioServer.Lib.Part
import RioServer.Lib.Progress
import RioServer.Lib.UnorderedMap
import RioServer.Lib.Wire
import RioServer.Server.Types
import RioServer.Server.RecvCompleted
import RioServer.Server.RecvLeftover
import RioServer.Server.SendStream
import RioServer.Server.Session
import RioServer.Server.RecvWindow
import RioServer.Server.RecvOffset
import RioServer.Server.IoCount
import RioServer.Server.Ownership
import RioServer.Server.ReleaseOnce
import RioServer.Server.ReleaseQuiet
import RioServer.Server.SendExclusive
import RioServer.Server.SendDrained
import RioServer.Server.SendBytes
import RioServer.Server.SendCopies
import RioServer.Server.SendFailed
import RioServer.Server.SendDisconnect
import RioServer.Server.RioTestServer
import RioServer.Server.Contexts
import RioServer.Server.EachSession
import RioServer.Server.Attribution
import RioServer.Server.Requests
import RioServer.Server.Emptied
import RioServer.Server.Tables
import RioServer.Server.Broadcast
import RioServer.Server.Counters
import RioServer.Server.Handles
import RioServer.Server.StartServer
import RioServer.Server.Program
import RioServer.Server.ProgramEnd
import RioServer.Server.StopServer
import RioServer.Server.NetBuffers
import RioServer.Server.Enqueued
import RioServer.Server.HandedOver
import RioServer.Server.BroadcastDelivery
import RioServer.Server.WorkerBalance
import RioServer.Server.CompletionQueue
import RioServer.Server.MakeNewSession
import RioServer.Server.FrameTime
import RioServer.Packets.Protocol
import RioServer.Packets.PacketManager
import RioServer.Packets.ReceivePath
import RioServer.Packets.ProcedureReplyHandler
import RioServer.Packets.ClientFrames
import RioServer.Packets.Parameters
import RioServer.Db.DbJobManager
import RioServer.Db.DbJob
import RioServer.Db.Channels
import RioServer.Db.FixedChannel
import RioServer.Db.Outcome
import RioServer.Db.BufferOwnership
import RioServer.Client.RecvLoop
import RioServer.Client.Session
import RioServer.Client.RecvFrames
import RioServer.Client.ReleaseOnce
import RioServer.Client.Store
import RioServer.Client.Freed
import RioServer.Client.SendOrder
import RioServer.Client.Reconnect
import RioServer.Client.MultiLanClient
import RioServer.Client.ReconnectList
import RioServer.Client.EachConnection
import RioServer.Client.NeverLost
import RioServer.Client.Silence
import RioServer.Client.ClientThreads
import RioServer.Client.StopClient
import RioServer.Log.Logger
import RioServer.Lib.Simulation
