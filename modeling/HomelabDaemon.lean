import HomelabDaemon.Concurrency.Program
import HomelabDaemon.Concurrency.Logic
import HomelabDaemon.Concurrency.Pool
import HomelabDaemon.Concurrency.Alone
import HomelabDaemon.Concurrency.CheckThenAct
import HomelabDaemon.Concurrency.Mutex
import HomelabDaemon.Config
import HomelabDaemon.Breaker
import HomelabDaemon.Operations
import HomelabDaemon.Systemctl
import HomelabDaemon.Supervisor
import HomelabDaemon.Scheduler
import HomelabDaemon.ConfigWriter
import HomelabDaemon.Api
import HomelabDaemon.System
import HomelabDaemon.Patch
import HomelabDaemon.PatchAtomic
import HomelabDaemon.Background
import HomelabDaemon.Spelling
import HomelabDaemon.UserStop
import HomelabDaemon.MountGuard
import HomelabDaemon.UnitMutex
import HomelabDaemon.InFlight
import HomelabDaemon.Attempts
import HomelabDaemon.Backoff
import HomelabDaemon.PausedService
import HomelabDaemon.BootOrder
import HomelabDaemon.Strings
import HomelabDaemon.Registry
import HomelabDaemon.Scope
import HomelabDaemon.Cmdrunner.Builder
import HomelabDaemon.Cmdrunner.Execute
import HomelabDaemon.Cmdrunner.Sandbox
import HomelabDaemon.Cmdrunner.Redaction
import HomelabDaemon.Bcachefs.Superblock
import HomelabDaemon.Bcachefs.Pools
import HomelabDaemon.Bcachefs.Cache
import HomelabDaemon.Bcachefs.Unassigned
import HomelabDaemon.AutoMount
import HomelabDaemon.CrashMarker
import HomelabDaemon.KernelSession
import HomelabDaemon.Secrets
import HomelabDaemon.Yaml.Scalar
import HomelabDaemon.Yaml.Lines
import HomelabDaemon.Yaml.Node
import HomelabDaemon.Yaml.Decode
import HomelabDaemon.LoadConfig
import HomelabDaemon.PatchFrame
import HomelabDaemon.RoundTrip
import HomelabDaemon.Merge
import HomelabDaemon.MergeSpec
import HomelabDaemon.Host
import HomelabDaemon.NixOwned
import HomelabDaemon.LostUpdate
import HomelabDaemon.BlockedReason
import HomelabDaemon.OpenBreaker
import HomelabDaemon.Restore
import HomelabDaemon.Outcome
import HomelabDaemon.SafeUnmount
import HomelabDaemon.Iproute.Network
import HomelabDaemon.VpnSetup
import HomelabDaemon.Json.Value
import HomelabDaemon.Json.Machine
import HomelabDaemon.Utf8
import HomelabDaemon.Json.RoundTrip
import HomelabDaemon.Rfc3339
import HomelabDaemon.State
import HomelabDaemon.StateRestarts
import HomelabDaemon.StateCrash
import HomelabDaemon.ActiveStates
import HomelabDaemon.BootComplete
import HomelabDaemon.BreakerHistory
import HomelabDaemon.DependencyGate
import HomelabDaemon.Bcachefs.SuperblockText
import HomelabDaemon.CronEntries
import HomelabDaemon.Utf8.Fields
import HomelabDaemon.Mounts
import HomelabDaemon.Filepath
import HomelabDaemon.Bcachefs.Subvolumes
import HomelabDaemon.FileTree.Follow
import HomelabDaemon.FileTree.Calls
import HomelabDaemon.Bcachefs.InitFolders
import HomelabDaemon.Bcachefs.InitFoldersRun
import HomelabDaemon.Bcachefs.Layout
import HomelabDaemon.Strings.Split
import HomelabDaemon.SystemdProps
import HomelabDaemon.Json.Path
import HomelabDaemon.SopsText
import HomelabDaemon.SecretResolver
import HomelabDaemon.SecretStatus
import HomelabDaemon.Timestamps
import HomelabDaemon.Notifier
import HomelabDaemon.Bufio
import HomelabDaemon.Cmdrunner.Lines
import HomelabDaemon.Cmdrunner.Timeout
import HomelabDaemon.Concurrency.Coalesce
import HomelabDaemon.Triggers
import HomelabDaemon.Qui
import HomelabDaemon.NetRates
import HomelabDaemon.Strings.ParseInt
import HomelabDaemon.Vpn
import HomelabDaemon.VpnPort
import HomelabDaemon.VpnHealth
import HomelabDaemon.Bootstrap
import HomelabDaemon.MergedServices
import HomelabDaemon.ImageUpdates
import HomelabDaemon.Json.Blur
import HomelabDaemon.Json.Commas
import HomelabDaemon.GpuStats
import HomelabDaemon.GpuSamples
import HomelabDaemon.ByteSizes
import HomelabDaemon.PeerCreds
import HomelabDaemon.SharedPoller
import HomelabDaemon.PullDialog
import HomelabDaemon.DiskRates
import HomelabDaemon.AtomicWriters
import HomelabDaemon.CliCommands
import HomelabDaemon.Utf8.TextDecoder
import HomelabDaemon.DeployStream
import HomelabDaemon.Json.Compact
import HomelabDaemon.Json.Fields
import HomelabDaemon.WireTypes
import HomelabDaemon.CliDecoding
import HomelabDaemon.CliColumns
import HomelabDaemon.Deadlock
import HomelabDaemon.Cron.Odometer
import HomelabDaemon.Cron.Calendar
import HomelabDaemon.Cron.Spec
import HomelabDaemon.Cron.Field
import HomelabDaemon.Cron.Parser
import HomelabDaemon.Cron.Run
import HomelabDaemon.Cron.Reload
import HomelabDaemon.Concurrency.Ttl
import HomelabDaemon.ResponseCaches
import HomelabDaemon.BulkActions
import HomelabDaemon.LogsPage
import HomelabDaemon.InPlace
import HomelabDaemon.UpdatesState
import HomelabDaemon.Concurrency.Replay
import HomelabDaemon.SecretsGit
import HomelabDaemon.StatsSnapshot
import HomelabDaemon.Concurrency.Throttle
import HomelabDaemon.Sorting
import HomelabDaemon.CollectorPolls
