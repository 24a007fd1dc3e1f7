import NexusPanel.Foundation.Action
import NexusPanel.Foundation.Fallible
import NexusPanel.Foundation.FileOperations
import NexusPanel.Foundation.FileSystem
import NexusPanel.Foundation.Table
import NexusPanel.Foundation.Text
import NexusPanel.Foundation.Transition
import NexusPanel.Panel.Auth
import NexusPanel.Panel.Entities
import NexusPanel.Panel.Gateway
import NexusPanel.Panel.Jwt
import NexusPanel.Panel.Requests
import NexusPanel.Panel.TwoFactor
import NexusPanel.Wings.Docker
import NexusPanel.Wings.Files
import NexusPanel.Wings.Grpc
import NexusPanel.Wings.Http
import NexusPanel.Wings.Authentication
import NexusPanel.Wings.Containment
import NexusPanel.Panel.GatewayAccess
import NexusPanel.Panel.ServerChildren
import NexusPanel.Panel.ChildConfinement
import NexusPanel.Panel.EggVariables
import NexusPanel.Foundation.Pool
import NexusPanel.Panel.Database
import NexusPanel.Panel.ServersService
import NexusPanel.Panel.ServersSystem
import NexusPanel.Panel.AllocationAgreement
import NexusPanel.Panel.Suspension
import NexusPanel.Panel.PowerGuard
import NexusPanel.Wings.Daemon
import NexusPanel.Wings.Volume
import NexusPanel.Panel.TwoFactorRecord
import NexusPanel.Panel.Logout
import NexusPanel.Panel.Revocation
import NexusPanel.Panel.BackupCodes
import NexusPanel.Panel.Capacity
import NexusPanel.Panel.ExclusiveAllocation
import NexusPanel.Wings.InstallReport
import NexusPanel.Wings.ContainerNames
import NexusPanel.Wings.Effects
import NexusPanel.Joint.System
import NexusPanel.Joint.ConfigAgreement
import NexusPanel.Joint.InstallStatus
import NexusPanel.Wings.Deletion
import NexusPanel.Wings.MutualExclusion
import NexusPanel.Wings.PowerOrder
import NexusPanel.Wings.RegistryOrder
import NexusPanel.Wings.InstallRuns
import NexusPanel.Joint.PortBinding
import NexusPanel.Panel.DaemonCallbacks
import NexusPanel.Wings.Console
import NexusPanel.Foundation.Json
import NexusPanel.Foundation.Resolution
import NexusPanel.Wings.ConfigJson
import NexusPanel.Wings.RegistryFiles
import NexusPanel.Foundation.FileFrames
import NexusPanel.Wings.TenantFiles
import NexusPanel.Panel.FailedOperations
import NexusPanel.Panel.CascadingDeletes
import NexusPanel.Panel.ServerEvents
import NexusPanel.Panel.NodeCredentials
import NexusPanel.Panel.ServerEnvironment
import NexusPanel.Panel.DisabledAccounts
import NexusPanel.Panel.Privileges
import NexusPanel.Wings.Interfaces
import NexusPanel.Foundation.Connection
import NexusPanel.Panel.EggsService
import NexusPanel.Panel.Unsuspending
import NexusPanel.Panel.ChildReplacement
import NexusPanel.Panel.EggExport
import NexusPanel.Panel.JoinedRules
import NexusPanel.Foundation.Rounding
import NexusPanel.Panel.NumberText
import NexusPanel.Panel.IntegerRule
import NexusPanel.Wings.PathValidation
import NexusPanel.Foundation.Removals
import NexusPanel.Wings.BulkDeletion
import NexusPanel.Wings.Archives
import NexusPanel.Wings.ArchiveContents
import NexusPanel.Wings.ArchiveRoundTrip
import NexusPanel.Wings.CredentialChecks
import NexusPanel.Wings.ResourceLimits
import NexusPanel.Wings.Heartbeat
import NexusPanel.Joint.HeartbeatAcceptance
import NexusPanel.Foundation.StampedCache
import NexusPanel.Panel.GrpcClients
import NexusPanel.Joint.PowerActions
import NexusPanel.Panel.ApiKeys
import NexusPanel.Panel.NodeStatus
import NexusPanel.Panel.SocketRooms
import NexusPanel.Foundation.Utf8
import NexusPanel.Joint.FileRequests
import NexusPanel.Joint.FileUploads
import NexusPanel.Joint.FileRenames
import NexusPanel.Foundation.Registers
import NexusPanel.Panel.EventOrder
import NexusPanel.Foundation.BoundedBuffer
import NexusPanel.Wings.EventChannel
import NexusPanel.Wings.SharedBuffers
import NexusPanel.Panel.AllocationRanges
import NexusPanel.Foundation.Paging
import NexusPanel.Panel.AllocationPages
import NexusPanel.Panel.AuditLog
import NexusPanel.Joint.PowerState
import NexusPanel.Foundation.Substitution
import NexusPanel.Panel.StartupRendering
import NexusPanel.Joint.StartupArguments
import NexusPanel.Foundation.PercentEncoding
import NexusPanel.Wings.FileStore
import NexusPanel.Joint.FileReads
import NexusPanel.Panel.ConsolePage
import NexusPanel.Foundation.LikePattern
import NexusPanel.Panel.Isolation
import NexusPanel.Panel.Search
import NexusPanel.Foundation.Tally
import NexusPanel.Joint.ConsoleLines
import NexusPanel.Wings.RequestProgress
import NexusPanel.Wings.GameContainers
import NexusPanel.Joint.PortOwners
