import Kadalu.Data.Result
import Kadalu.Data.Total
import Kadalu.Data.InStep
import Kadalu.Data.Canonical
import Kadalu.Data.Fields
import Kadalu.Data.Symlinks
import Kadalu.Data.FileTree
import Kadalu.Data.RowTable
import Kadalu.Data.Base64
import Kadalu.Data.Json
import Kadalu.Durable.Prog
import Kadalu.Durable.Stepwise
import Kadalu.Durable.CrashLogic
import Kadalu.Durable.Returns
import Kadalu.Durable.Beside
import Kadalu.Durable.Focus
import Kadalu.Durable.Ends
import Kadalu.Durable.Interleave
import Kadalu.Durable.RelyGuarantee
import Kadalu.Durable.Trace
import Kadalu.Durable.Simulation
import Kadalu.Calls.Prog
import Kadalu.Calls.Asks
import Kadalu.Volume.Ident
import Kadalu.Volume.Paths
import Kadalu.Volume.PathText
import Kadalu.Volume.Component
import Kadalu.Pool.State
import Kadalu.Pool.Identity
import Kadalu.Pool.Intent
import Kadalu.Pool.Scan
import Kadalu.Pool.Records
import Kadalu.Pool.ScanSpec
import Kadalu.Pool.Accounting
import Kadalu.Pool.Rebuild
import Kadalu.Pool.Reindex
import Kadalu.Pool.Steps
import Kadalu.Pool.StepRules
import Kadalu.Pool.Forms
import Kadalu.Pool.SinglePv
import Kadalu.Pool.OperationLock
import Kadalu.Pool.StatDb
import Kadalu.Volume.Search
import Kadalu.Volume.SearchSpec
import Kadalu.Volume.Slot
import Kadalu.Volume.Stored
import Kadalu.Volume.Archiving
import Kadalu.Volume.Policies
import Kadalu.Volume.Delete
import Kadalu.Volume.Create
import Kadalu.Volume.CreateReserved
import Kadalu.Volume.Committed
import Kadalu.Volume.Reclaim
import Kadalu.Volume.Archives
import Kadalu.Volume.Cleanup
import Kadalu.Volume.Directories
import Kadalu.Volume.Pruning
import Kadalu.Volume.LegacyArchive
import Kadalu.Driver.Rpc
import Kadalu.Driver.Selection
import Kadalu.Driver.CreateVolume
import Kadalu.Driver.VolumePaths
import Kadalu.Driver.CapacityRange
import Kadalu.Driver.Expand
import Kadalu.Driver.Expansion
import Kadalu.Driver.Within
import Kadalu.Driver.Reservations
import Kadalu.Driver.Overcommit
import Kadalu.Driver.Publish
import Kadalu.Driver.Ownership
import Kadalu.Driver.ListVolumes
import Kadalu.Driver.StorageReady
import Kadalu.Node.State
import Kadalu.Node.Mount
import Kadalu.Node.Recovery
import Kadalu.Node.TargetLock
import Kadalu.Node.PathSyntax
import Kadalu.Node.TargetPath
import Kadalu.Node.Mountinfo
import Kadalu.Node.VolumePath
import Kadalu.Node.PinnedSource
import Kadalu.Node.GlusterClient
import Kadalu.Node.GlusterMount
import Kadalu.Node.GlusterLock
import Kadalu.Node.GlusterRemount
import Kadalu.Operator.Api
import Kadalu.Operator.Names
import Kadalu.Operator.Record
import Kadalu.Operator.Metadata
import Kadalu.Operator.Fingerprint
import Kadalu.Operator.Request
import Kadalu.Operator.Tolerations
import Kadalu.Operator.Cluster
import Kadalu.Operator.Policy
import Kadalu.Operator.PolicyOrder
import Kadalu.Operator.Provisioner
import Kadalu.Operator.Deletion
import Kadalu.Operator.DeletionOrder
import Kadalu.Operator.World
import Kadalu.Operator.Agreement
import Kadalu.Operator.Snapshot
import Kadalu.Operator.Settled
import Kadalu.Operator.StorageClass
import Kadalu.Operator.ClassOwner
import Kadalu.Operator.LiveServer
import Kadalu.Operator.MissingRecord
import Kadalu.Operator.Heal
import Kadalu.Operator.Rollout
import Kadalu.Operator.RolloutOrder
import Kadalu.Operator.Runtime
import Kadalu.Operator.Surface
import Kadalu.Operator.Serving
import Kadalu.Operator.Watch
import Kadalu.Operator.Succession
import Kadalu.Operator.Migration
import Kadalu.Operator.Ledger
import Kadalu.Operator.Keeping
import Kadalu.Operator.Lifetimes
import Kadalu.Operator.Foreign
import Kadalu.Operator.Supervisor
import Kadalu.Cli.StorageAdd
import Kadalu.Cli.Layout
import Kadalu.Cli.Termination
import Kadalu.Server.Volgen
import Kadalu.Server.Quotad
