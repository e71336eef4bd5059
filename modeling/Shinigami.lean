import Shinigami.Core.CompletionRouting
import Shinigami.Core.IoUringLoop
import Shinigami.Core.MemoryPool
import Shinigami.Core.PoolAddresses
import Shinigami.Core.PoolGeometry
import Shinigami.Core.PoolRefinement
import Shinigami.Core.ReadBuffers
import Shinigami.Core.RingAttach
import Shinigami.Core.RingBuffer
import Shinigami.Core.SlotReuse
import Shinigami.Core.SpscQueue
import Shinigami.Foundations.Binary64
import Shinigami.Foundations.Bitmap
import Shinigami.Foundations.BlockFold
import Shinigami.Foundations.Bpf
import Shinigami.Foundations.ByteStream
import Shinigami.Foundations.CString
import Shinigami.Foundations.CText
import Shinigami.Foundations.DepthFirst
import Shinigami.Foundations.Escaping
import Shinigami.Foundations.Exposition
import Shinigami.Foundations.FirstMatch
import Shinigami.Foundations.FirstMin
import Shinigami.Foundations.GapFree
import Shinigami.Foundations.IniFile
import Shinigami.Foundations.Json
import Shinigami.Foundations.KeyedTable
import Shinigami.Foundations.LinearProbing
import Shinigami.Foundations.LittleEndian
import Shinigami.Foundations.Ownership
import Shinigami.Foundations.PathResolution
import Shinigami.Foundations.PoolChain
import Shinigami.Foundations.Precedence
import Shinigami.Foundations.RingHistory
import Shinigami.Foundations.RingIndex
import Shinigami.Foundations.Run
import Shinigami.Foundations.SecureHash
import Shinigami.Foundations.ShortWrites
import Shinigami.Foundations.SortedSearch
import Shinigami.Foundations.TextLines
import Shinigami.Foundations.TokenBucket
import Shinigami.Hal.Admission
import Shinigami.Hal.AudioTransfer
import Shinigami.Hal.DeviceOps
import Shinigami.Hal.DeviceRuns
import Shinigami.Hal.Interface
import Shinigami.Hal.Lifecycle
import Shinigami.Hal.RefCounting
import Shinigami.Hal.RefInvariant
import Shinigami.Hal.RefSafety
import Shinigami.Hal.Registry
import Shinigami.Hal.Settings
import Shinigami.Hal.StreamStart
import Shinigami.Monitoring.Alerts.AlertDedup
import Shinigami.Monitoring.Alerts.AlertEngine
import Shinigami.Monitoring.Alerts.AlertEviction
import Shinigami.Monitoring.Collectors.CollectorThread
import Shinigami.Monitoring.Collectors.ErrorThreshold
import Shinigami.Monitoring.Collectors.Pairing
import Shinigami.Monitoring.Daemon.Snapshot
import Shinigami.Monitoring.Daemon.StaleMemory
import Shinigami.Monitoring.Health.HealthHistory
import Shinigami.Monitoring.Health.HealthScore
import Shinigami.Monitoring.Health.Sparkline
import Shinigami.Monitoring.Metrics.ExportGrammar
import Shinigami.Monitoring.Metrics.ExportLength
import Shinigami.Monitoring.Metrics.ExportLines
import Shinigami.Monitoring.Metrics.Histogram
import Shinigami.Monitoring.Metrics.MetricsHistory
import Shinigami.Monitoring.Metrics.Prometheus
import Shinigami.Monitoring.Protocol.Retry
import Shinigami.Monitoring.Protocol.WireFormat
import Shinigami.Monitoring.Tracing.Waterfall
import Shinigami.Proxy.ApiCalls
import Shinigami.Proxy.Authenticity
import Shinigami.Proxy.BufferConservation
import Shinigami.Proxy.Connection
import Shinigami.Proxy.DeliveryOrder
import Shinigami.Proxy.DisconnectFinal
import Shinigami.Proxy.Discovery
import Shinigami.Proxy.FrameBoundary
import Shinigami.Proxy.FrameSequence
import Shinigami.Proxy.Listening
import Shinigami.Proxy.QueueInvariant
import Shinigami.Proxy.ReceiveBuffers
import Shinigami.Proxy.ReplySlot
import Shinigami.Proxy.SessionLifecycle
import Shinigami.Proxy.ShmBounds
import Shinigami.Proxy.ShmReader
import Shinigami.Proxy.StopSignals
import Shinigami.Proxy.ThreadPool
import Shinigami.Proxy.ThreadStart
import Shinigami.Security.Capabilities.CapabilitiesCore
import Shinigami.Security.Core.Rollback
import Shinigami.Security.Core.SecurityManager
import Shinigami.Security.Sandbox.Apply
import Shinigami.Security.Sandbox.Cleanup
import Shinigami.Security.Sandbox.Enforcement
import Shinigami.Security.Verify.Basic
import Shinigami.Security.Verify.Stream
import Shinigami.Security.Verify.Token
import Shinigami.ServiceManager.Enterprise.Discovery
import Shinigami.ServiceManager.Enterprise.DiscoveryDelivery
import Shinigami.ServiceManager.Enterprise.DiscoveryRegistry
import Shinigami.ServiceManager.Enterprise.EventHistory
import Shinigami.ServiceManager.Enterprise.PoolShutdown
import Shinigami.ServiceManager.Enterprise.RestartBatches
import Shinigami.ServiceManager.Enterprise.RollingRestart
import Shinigami.ServiceManager.Enterprise.Subscriptions
import Shinigami.ServiceManager.Enterprise.TaskQueue
import Shinigami.ServiceManager.Enterprise.ThreadPool
import Shinigami.ServiceManager.Infrastructure.ConnectionPool
import Shinigami.ServiceManager.Infrastructure.Content
import Shinigami.ServiceManager.Infrastructure.Handlers
import Shinigami.ServiceManager.Infrastructure.Ownership
import Shinigami.ServiceManager.Infrastructure.PathConfinement
import Shinigami.ServiceManager.Infrastructure.Protocol
import Shinigami.ServiceManager.Infrastructure.Registry.Basic
import Shinigami.ServiceManager.Infrastructure.Registry.Invariant
import Shinigami.ServiceManager.Infrastructure.Registry.Operations
import Shinigami.ServiceManager.Infrastructure.ReplaySafety
import Shinigami.ServiceManager.Infrastructure.RequestCharge
import Shinigami.ServiceManager.Infrastructure.TimeWindow
import Shinigami.ServiceManager.Lifecycle.CircularDependency
import Shinigami.ServiceManager.Lifecycle.Client
import Shinigami.ServiceManager.Lifecycle.ClientResult
import Shinigami.ServiceManager.Lifecycle.Config
import Shinigami.ServiceManager.Lifecycle.ConfigReload
import Shinigami.ServiceManager.Lifecycle.Dependencies
import Shinigami.ServiceManager.Lifecycle.GracefulShutdown
import Shinigami.ServiceManager.Lifecycle.LoadedContent
import Shinigami.ServiceManager.Lifecycle.ManagementAuth
import Shinigami.ServiceManager.Lifecycle.ManagementRequest
import Shinigami.ServiceManager.Lifecycle.ManagementServices
import Shinigami.ServiceManager.Lifecycle.OrderSoundness
import Shinigami.ServiceManager.Lifecycle.Persistence
import Shinigami.ServiceManager.Lifecycle.Reload
import Shinigami.ServiceManager.Lifecycle.SaveAtomicity
import Shinigami.ServiceManager.Lifecycle.SearchDepth
import Shinigami.ServiceManager.Lifecycle.ShutdownOrder
import Shinigami.ServiceManager.Lifecycle.StartupOrder
import Shinigami.ServiceManager.Lifecycle.WorkQueue
import Shinigami.ServiceManager.Observability.Audit
import Shinigami.ServiceManager.Observability.EntryHistory
import Shinigami.ServiceManager.Observability.Health
import Shinigami.ServiceManager.Observability.HealthPass
import Shinigami.ServiceManager.Observability.Metrics
import Shinigami.ServiceManager.Observability.PeakRate
import Shinigami.ServiceManager.Observability.RestartBound
import Shinigami.ServiceManager.Observability.StructuredLog
import Shinigami.ServiceManager.Security.AdvancedRateLimit
import Shinigami.ServiceManager.Security.BanCompleteness
import Shinigami.ServiceManager.Security.BanSoundness
import Shinigami.ServiceManager.Security.BannedRequests
import Shinigami.ServiceManager.Security.Crypto
import Shinigami.ServiceManager.Security.CryptoCorrect
import Shinigami.ServiceManager.Security.PenaltyBox
import Shinigami.ServiceManager.Security.RateBound
import Shinigami.ServiceManager.Security.RateLimit
import Shinigami.ServiceManager.Security.Replay
import Shinigami.ServiceManager.Security.Seccomp
import Shinigami.Services.AudioLoop
import Shinigami.Services.ConfigSemantics
import Shinigami.Services.DropOldest
import Shinigami.Services.EnvOverride
import Shinigami.Services.FrameAgreement
import Shinigami.Services.SendFrame
import Shinigami.Services.ServiceConfig
import Shinigami.Services.ServiceIpc
