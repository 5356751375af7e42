import PrismFirewall.Admin.Calls
import PrismFirewall.Admin.Concurrency
import PrismFirewall.Admin.Crud
import PrismFirewall.Admin.DesiredState
import PrismFirewall.Admin.Generations
import PrismFirewall.Admin.Integrity
import PrismFirewall.Admin.Store
import PrismFirewall.ApiServer.Cleanup
import PrismFirewall.ApiServer.Phases
import PrismFirewall.ApiServer.StepIndex
import PrismFirewall.ApiServer.TestRunner
import PrismFirewall.Datapath.Acl
import PrismFirewall.Datapath.AclReference
import PrismFirewall.Datapath.Cidr
import PrismFirewall.Datapath.Conntrack
import PrismFirewall.Datapath.FastPath
import PrismFirewall.Datapath.OffloadChannel
import PrismFirewall.Datapath.OffloadClient
import PrismFirewall.Datapath.OffloadOnce
import PrismFirewall.Datapath.OffloadRpc
import PrismFirewall.Datapath.Pipeline
import PrismFirewall.Datapath.Revocation
import PrismFirewall.Datapath.SessionKeys
import PrismFirewall.DocaFirewall.CtOffload
import PrismFirewall.DocaFirewall.DefaultRules
import PrismFirewall.DocaFirewall.HitCounts
import PrismFirewall.DocaFirewall.MainLoop
import PrismFirewall.DocaFirewall.Policy
import PrismFirewall.DocaFirewall.PolicyJson
import PrismFirewall.DocaFirewall.PolicyReference
import PrismFirewall.DocaFirewall.RestApi
import PrismFirewall.DocaFirewall.RestParsing
import PrismFirewall.DocaFirewall.RestServer
import PrismFirewall.DocaFirewall.RuleIds
import PrismFirewall.DocaFirewall.RuleText
import PrismFirewall.DocaFirewall.Startup
import PrismFirewall.Lib.CText
import PrismFirewall.Lib.Cells
import PrismFirewall.Lib.Decimal
import PrismFirewall.Lib.Dict
import PrismFirewall.Lib.Exec
import PrismFirewall.Lib.Handles
import PrismFirewall.Lib.Index
import PrismFirewall.Lib.Inet
import PrismFirewall.Lib.Json
import PrismFirewall.Lib.Loads
import PrismFirewall.Lib.Optimistic
import PrismFirewall.Lib.Pattern
import PrismFirewall.Lib.Precedence
import PrismFirewall.Lib.Retry
import PrismFirewall.Lib.Ring
import PrismFirewall.Lib.Run
import PrismFirewall.Lib.Scanning
import PrismFirewall.Lib.Scope
import PrismFirewall.Lib.Sha256
import PrismFirewall.Lib.StableSort
import PrismFirewall.Lib.Text
import PrismFirewall.Lib.Words
import PrismFirewall.OffloadDaemon.ActiveDirections
import PrismFirewall.OffloadDaemon.Aging
import PrismFirewall.OffloadDaemon.Agreement
import PrismFirewall.OffloadDaemon.DocaFlow
import PrismFirewall.OffloadDaemon.EarlyEviction
import PrismFirewall.OffloadDaemon.Flush
import PrismFirewall.OffloadDaemon.GrpcServer
import PrismFirewall.OffloadDaemon.Interleaving
import PrismFirewall.OffloadDaemon.KeyText
import PrismFirewall.OffloadDaemon.Leaks
import PrismFirewall.OffloadDaemon.Provenance
import PrismFirewall.OffloadDaemon.SessionTable
import PrismFirewall.OffloadDaemon.SweepRaces
import PrismFirewall.OffloadSystem.Admission
import PrismFirewall.OffloadSystem.Capacity
import PrismFirewall.OffloadSystem.Programmings
import PrismFirewall.OffloadSystem.System
import PrismFirewall.TcFirewall.AuditTrail
import PrismFirewall.TcFirewall.Commands
import PrismFirewall.TcFirewall.ConntrackLines
import PrismFirewall.TcFirewall.FailedCreation
import PrismFirewall.TcFirewall.Flower
import PrismFirewall.TcFirewall.Ha
import PrismFirewall.TcFirewall.HaFencing
import PrismFirewall.TcFirewall.HaGeneration
import PrismFirewall.TcFirewall.HaMalformed
import PrismFirewall.TcFirewall.HaRoles
import PrismFirewall.TcFirewall.HaSplitBrain
import PrismFirewall.TcFirewall.HaWiring
import PrismFirewall.TcFirewall.HandleMap
import PrismFirewall.TcFirewall.Handlers
import PrismFirewall.TcFirewall.IdempotencyKey
import PrismFirewall.TcFirewall.Install
import PrismFirewall.TcFirewall.KernelImage
import PrismFirewall.TcFirewall.KernelMirror
import PrismFirewall.TcFirewall.ListedCounters
import PrismFirewall.TcFirewall.ListedOffload
import PrismFirewall.TcFirewall.Main
import PrismFirewall.TcFirewall.MirrorFilters
import PrismFirewall.TcFirewall.Models
import PrismFirewall.TcFirewall.NatAgreement
import PrismFirewall.TcFirewall.NatBand
import PrismFirewall.TcFirewall.NatFaithful
import PrismFirewall.TcFirewall.NatManager
import PrismFirewall.TcFirewall.NatOwnership
import PrismFirewall.TcFirewall.NatRebuild
import PrismFirewall.TcFirewall.NatRepeat
import PrismFirewall.TcFirewall.NatStore
import PrismFirewall.TcFirewall.PacketPolicy
import PrismFirewall.TcFirewall.Quota
import PrismFirewall.TcFirewall.Requests
import PrismFirewall.TcFirewall.RuleIndex
import PrismFirewall.TcFirewall.RuleRemoval
import PrismFirewall.TcFirewall.RuleSignature
import PrismFirewall.TcFirewall.RuleVisibility
import PrismFirewall.TcFirewall.SnatOwnership
import PrismFirewall.TcFirewall.SnatPerIp
import PrismFirewall.TcFirewall.SnatPool
import PrismFirewall.TcFirewall.SnatRoundRobin
import PrismFirewall.TcFirewall.SnatState
import PrismFirewall.TcFirewall.Stores
import PrismFirewall.TcFirewall.TcListing
import PrismFirewall.TcFirewall.TcManager
import PrismFirewall.TcFirewall.TenantDeletion
