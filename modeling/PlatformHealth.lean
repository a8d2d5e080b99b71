import PlatformHealth.Library.Binary64
import PlatformHealth.Library.Binary64Error
import PlatformHealth.Library.Chrono
import PlatformHealth.Library.Json.Lexer
import PlatformHealth.Library.Json.Reader
import PlatformHealth.Library.Json.Embedding
import PlatformHealth.Library.Json.Splice
import PlatformHealth.Library.Json.Quoted
import PlatformHealth.Library.Json.Fields
import PlatformHealth.Library.Json.Completeness
import PlatformHealth.Library.Json.Scalar
import PlatformHealth.Library.Json.Writer
import PlatformHealth.Library.Json.Numerals
import PlatformHealth.Library.Json.Printing
import PlatformHealth.Library.Json.Sorted
import PlatformHealth.Library.Json.AsWritten
import PlatformHealth.Library.Path
import PlatformHealth.Library.SampleHold
import PlatformHealth.Library.Lockstep
import PlatformHealth.Library.FileStream
import PlatformHealth.Library.FileTree
import PlatformHealth.Library.RunningTotal
import PlatformHealth.Library.RateMeter
import PlatformHealth.Monitors.ProcessLoss
import PlatformHealth.Monitors.Heartbeat
import PlatformHealth.Monitors.Sampling
import PlatformHealth.Monitors.PlatformAccess
import PlatformHealth.Monitors.HangEpisodes
import PlatformHealth.Monitors.CleanSlate
import PlatformHealth.Monitors.Reconfigure
import PlatformHealth.Monitors.LongName
import PlatformHealth.Library.Scanf
import PlatformHealth.Platform.CpuUsage
import PlatformHealth.Platform.OpenFiles
import PlatformHealth.Platform.ProcessName
import PlatformHealth.Platform.ProcStat
import PlatformHealth.Platform.SystemStat
import PlatformHealth.Platform.CpuTime
import PlatformHealth.Channel.HealthChannel
import PlatformHealth.Channel.Attachment
import PlatformHealth.Channel.Reports
import PlatformHealth.Channel.ResourceReporter
import PlatformHealth.EventManager
import PlatformHealth.Entity.History
import PlatformHealth.Entity.Escalation
import PlatformHealth.Entity.Masking
import PlatformHealth.Entity.Intermittent
import PlatformHealth.Entity.Recovery
import PlatformHealth.Entity.PersistentFault
import PlatformHealth.Entity.Notifications
import PlatformHealth.Entity.Ordering
import PlatformHealth.Entity.Delivery
import PlatformHealth.Entity.OwnConfig
import PlatformHealth.Entity.SeverityCount
import PlatformHealth.Entity.FreshStart
import PlatformHealth.Entity.CounterMeaning
import PlatformHealth.Engine.LockFreedom
import PlatformHealth.Engine.Configured
import PlatformHealth.Engine.Reload
import PlatformHealth.Engine.Announcements
import PlatformHealth.Engine.Supervision
import PlatformHealth.Engine.Restart
import PlatformHealth.Engine.CrashRecovery
import PlatformHealth.Engine.Isolation
import PlatformHealth.Engine.EffectiveConfig
import PlatformHealth.Engine.RunningMetric
import PlatformHealth.Engine.Removal
import PlatformHealth.Engine.Lifecycle
import PlatformHealth.Engine.FailedLoad
import PlatformHealth.Engine.GlobalState
import PlatformHealth.Engine.StartOrder
import PlatformHealth.Config.Parser
import PlatformHealth.Config.EntryPoints
import PlatformHealth.Config.RoundTrip
import PlatformHealth.Config.Schema
import PlatformHealth.Config.Validate
import PlatformHealth.Config.ErrorContract
import PlatformHealth.Config.Numbers
import PlatformHealth.Ipc.IpcServer
import PlatformHealth.Ipc.Requests
import PlatformHealth.Ipc.Answers
import PlatformHealth.Ipc.Framing
import PlatformHealth.Ipc.Responses
import PlatformHealth.Ipc.Reference
import PlatformHealth.Ipc.Dispatch
import PlatformHealth.Reporter.DataReporter
import PlatformHealth.Reporter.Confinement
import PlatformHealth.Reporter.DataFiles
import PlatformHealth.Reporter.ByteCount
import PlatformHealth.Reporter.EnsureDir
import PlatformHealth.Reporter.JsonLines
import PlatformHealth.Daemon.AlertAggregator
import PlatformHealth.Daemon.Alerts
import PlatformHealth.Daemon.Signals
import PlatformHealth.Engine.Samples
import PlatformHealth.Reporter.SampleFiles
import PlatformHealth.Daemon.Requests
import PlatformHealth.Daemon.Shutdown
import PlatformHealth.Ipc.Endpoint
import PlatformHealth.Platform.MemoryUsage
import PlatformHealth.Monitors.PidReuse
import PlatformHealth.Logger
import PlatformHealth.Monitors.Pulse
import PlatformHealth.Daemon.AlertVolume
import PlatformHealth.Daemon.LogFile
import PlatformHealth.Channel.ReporterThreads
import PlatformHealth.Platform.SystemLoad
