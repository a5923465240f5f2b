import CxkFramework.Runs
import CxkFramework.ByteArrayRoundTrip
import CxkFramework.LruCacheHistory
import CxkFramework.WebSocketFraming
import CxkFramework.IoManagerTable
import CxkFramework.SchedulerExclusive
import CxkFramework.SchedulerStop
import CxkFramework.SchedulerAffinity
import CxkFramework.RockStreamMatching
import CxkFramework.RockRoundTrip
import CxkFramework.TimerWakeUp
import CxkFramework.IoManagerGrowth
import CxkFramework.HookTimeout
import CxkFramework.SendQueue
import CxkFramework.StreamLoops
import CxkFramework.RockStreamTable
import CxkFramework.HttpSession
import CxkFramework.WebSocketControl
import CxkFramework.HttpFraming
import CxkFramework.HttpChunks
import CxkFramework.HttpRequestRoundTrip
import CxkFramework.ConfigRegistry
import CxkFramework.ConfigVar
import CxkFramework.MySQLTransaction
import CxkFramework.MySQLManager
import CxkFramework.HttpConnectionLimits
import CxkFramework.LoadBalance
import CxkFramework.WorkerGroup
import CxkFramework.FdManager
import CxkFramework.ModuleManager
import CxkFramework.ZlibStream
import CxkFramework.LogConfig
import CxkFramework.FiberLifetime
import CxkFramework.UriDecompose
import CxkFramework.ByteArrayFile
import CxkFramework.ByteArrayStrings
import CxkFramework.TimerGuard
import CxkFramework.TimerDeadline
import CxkFramework.IdleTimeout
import CxkFramework.IdleDispatch
import CxkFramework.HashLruCache
import CxkFramework.LoadBalanceGet
import CxkFramework.StreamManager
import CxkFramework.StatsWindow
import CxkFramework.WebSocketResend
import CxkFramework.WebSocketLimit
import CxkFramework.HexString
import CxkFramework.Base64
import CxkFramework.WebSocketHandshake
import CxkFramework.StringUtil
import CxkFramework.HttpMethodNames
import CxkFramework.HttpRequestMaps
import CxkFramework.WriteFixSize
import CxkFramework.ZlibErrors
import CxkFramework.HttpContentLength
import CxkFramework.StringHash
import CxkFramework.Hmac
import CxkFramework.JsonEscape
import CxkFramework.JsonIntegers
import CxkFramework.LogPattern
import CxkFramework.LogText
import CxkFramework.IpNetwork
import CxkFramework.Ipv6Text
import CxkFramework.AddressLookup
import CxkFramework.ServletDispatch
import CxkFramework.ByteArrayCapacity
import CxkFramework.Varint
import CxkFramework.ReadFixSize
import CxkFramework.SQLite3Transaction
import CxkFramework.SemaphorePermits
import CxkFramework.HookSleep
import CxkFramework.FileRemoval
import CxkFramework.HttpExchange
import CxkFramework.WebSocketUpgrade
import CxkFramework.SchedulerTickle
import CxkFramework.RockLink
import CxkFramework.TcpServer
import CxkFramework.Descriptors
