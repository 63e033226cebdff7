import TcpServer.Lifecycle
import TcpServer.ReceiveLoop
import TcpServer.Dispatcher
import TcpServer.EchoConnection
import TcpServer.EchoConservation
import TcpServer.Monitors
import TcpServer.PoolMoves
import TcpServer.PoolSafety
import TcpServer.PoolConservation
import TcpServer.PoolShutdown
import TcpServer.PoolConstruction
import TcpServer.PoolEviction
import TcpServer.WireForm
import TcpServer.LifecycleHistory
import TcpServer.Outbound
import TcpServer.PoolWakeups
import TcpServer.PoolOrder
import TcpServer.IdleTimeout
import TcpServer.EventLoop
import TcpServer.InterestTracking
import TcpServer.EventLoopBookkeeping
import TcpServer.GracefulShutdown
import TcpServer.ShutdownSafety
import TcpServer.DescriptorOwnership
import TcpServer.DecoderWidth
import TcpServer.CodecLimits
import TcpServer.ReadBufferBound
import TcpServer.BoundedFill
import TcpServer.SelectWait
import TcpServer.FdSetRange
import TcpServer.ConfigLoader
import TcpServer.Interruptions
import TcpServer.KernelLengths
import TcpServer.PoolStopping
import TcpServer.ConfigGrammar
import TcpServer.ConfigMeaning
import TcpServer.ConfigOverrides
import TcpServer.Logging
import TcpServer.LogLines
import TcpServer.LogRecords
import TcpServer.ConfigReadFailure
import TcpServer.PoolRest
import TcpServer.EchoServiceRest
import TcpServer.StreamIsolation
import TcpServer.PoolLinearizable
import TcpServer.ConcurrentLogging
import TcpServer.ConfigValidator
import TcpServer.Metrics
