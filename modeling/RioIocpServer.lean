import RioIocpServer.TransitionSystem
import RioIocpServer.ThreadSum
import RioIocpServer.JobScheduling
import RioIocpServer.CyclicMemory
import RioIocpServer.RingBuffer
import RioIocpServer.FrameStream
import RioIocpServer.PacketExtraction
import RioIocpServer.ReceivePath
import RioIocpServer.RioBuffer
import RioIocpServer.RioSend
import RioIocpServer.RioSendProgress
import RioIocpServer.IocpSend
import RioIocpServer.IocpSendLoss
import RioIocpServer.RWLock
import RioIocpServer.ThreadManager
import RioIocpServer.GridWindow
import RioIocpServer.Contents
import RioIocpServer.SectorJobs
import RioIocpServer.SectorSearch
import RioIocpServer.Bracketing
import RioIocpServer.Visibility
import RioIocpServer.PacketHandler
import RioIocpServer.PlayerRegistry
import RioIocpServer.ServerRun
import RioIocpServer.MissingPlayer
import RioIocpServer.PlayerLifetime
import RioIocpServer.FrameRoundTrip
import RioIocpServer.Teardown
import RioIocpServer.RioCore
import RioIocpServer.Listening
import RioIocpServer.IocpDispatch
import RioIocpServer.RecvTeardown
import RioIocpServer.PacketWalk
import RioIocpServer.RingBufferRead
import RioIocpServer.RingBufferWrite
import RioIocpServer.RingBufferRuns
import RioIocpServer.RingBufferAdjust
import RioIocpServer.Compaction
import RioIocpServer.SendDeferredBound
import RioIocpServer.PacketRejection
import RioIocpServer.SessionInit
import RioIocpServer.SessionInitRuns
import RioIocpServer.WorkerDeadline
import RioIocpServer.AcceptRearm
import RioIocpServer.LatencyReport
import RioIocpServer.FifoChannel
import RioIocpServer.Connection
import RioIocpServer.RioConnection
import RioIocpServer.IocpConnection
import RioIocpServer.SessionPair
import RioIocpServer.LoginProtocol
import RioIocpServer.WireFormat
import RioIocpServer.ProtocolMessages
import RioIocpServer.MessageDelivery
import RioIocpServer.LoginSafety
import RioIocpServer.ViewConvergence
import RioIocpServer.Linearization
import RioIocpServer.LockedObject
import RioIocpServer.LockedContainers
import RioIocpServer.ObjectPool
import RioIocpServer.RankedLocks
import RioIocpServer.LockedThreads
import RioIocpServer.LockOrder
import RioIocpServer.SessionRegistry
import RioIocpServer.StressTest
import RioIocpServer.MessageChannels
import RioIocpServer.SharedPtr
import RioIocpServer.SessionLifetime
