import Eggchaos.Rng
import Eggchaos.Lib.Io
import Eggchaos.Lib.Runs
import Eggchaos.Lib.RateBound
import Eggchaos.TokenBucket
import Eggchaos.Engine
import Eggchaos.EngineLemmas
import Eggchaos.Lib.Draws
import Eggchaos.Lib.Keyed
import Eggchaos.StreamLoss
import Eggchaos.Accept
import Eggchaos.Polls
import Eggchaos.Conservation
import Eggchaos.Limit
import Eggchaos.Policy
import Eggchaos.Stream
import Eggchaos.Health
import Eggchaos.StreamRuns
import Eggchaos.Bidirectional
import Eggchaos.BidirectionalRuns
import Eggchaos.Transition
import Eggchaos.Terminated
import Eggchaos.Blackhole
import Eggchaos.Vectored
import Eggchaos.Delivery
import Eggchaos.Datagram
import Eggchaos.DatagramRuns
import Eggchaos.DatagramImmediate
import Eggchaos.Publishers
import Eggchaos.Schedule
import Eggchaos.Driver
import Eggchaos.DriverLemmas
import Eggchaos.Isolation
import Eggchaos.QuietRuns
import Eggchaos.Lib.Text
import Eggchaos.Fingerprint
import Eggchaos.Proxy
import Eggchaos.Control
import Eggchaos.ControlLemmas
import Eggchaos.FieldUpdates
import Eggchaos.Lib.Workers
import Eggchaos.Supervisors
import Eggchaos.Lib.Accounts
import Eggchaos.Connections
import Eggchaos.ConnectionRuns
import Eggchaos.Lib.Locks
import Eggchaos.RegistryLocks
import Eggchaos.Advance
import Eggchaos.Release
import Eggchaos.FirstTermination
import Eggchaos.Balance
import Eggchaos.DriverEvidence
import Eggchaos.ServerTarget
import Eggchaos.ServerRuns
import Eggchaos.Scenarios
import Eggchaos.ScenarioRuns
import Eggchaos.Association
import Eggchaos.AssociationEvidence
import Eggchaos.AssociationLoss
import Eggchaos.Capacity
import Eggchaos.CapacityRuns
import Eggchaos.Listeners
import Eggchaos.DatagramUpdates
import Eggchaos.Joined
import Eggchaos.Withheld
import Eggchaos.FailedUpdates
import Eggchaos.Resets
import Eggchaos.Registered
import Eggchaos.ScheduleWire
import Eggchaos.ScheduleReference
import Eggchaos.DatagramControl
import Eggchaos.DatagramEdits
import Eggchaos.DatagramIds
import Eggchaos.Governed
import Eggchaos.Lib.Linear
import Eggchaos.Toxics
import Eggchaos.ToxicRuns
import Eggchaos.ToxicTranslation
import Eggchaos.ToxicUpdates
import Eggchaos.Compat
import Eggchaos.CompatUpdates
import Eggchaos.OutcomeRuns
import Eggchaos.Lib.Mixing
import Eggchaos.Seeds
import Eggchaos.Corruption
import Eggchaos.DatagramPacing
import Eggchaos.Lib.PopOrder
import Eggchaos.DatagramOrder
import Eggchaos.ConnectionSeeds
import Eggchaos.Refill
import Eggchaos.CheckedSeeds
import Eggchaos.PathComponents
import Eggchaos.Created
import Eggchaos.ProxyPatchWire
import Eggchaos.ScenarioTrail
import Eggchaos.Shutdown
import Eggchaos.ChunkEvidence
import Eggchaos.Shaping
import Eggchaos.PlanOperations
import Eggchaos.Lib.BoundedTable
import Eggchaos.Lib.Interleave
import Eggchaos.Metrics
import Eggchaos.MetricRuns
import Eggchaos.Lib.Notify
import Eggchaos.Gate
import Eggchaos.Routes
import Eggchaos.Admin
import Eggchaos.StreamTarget
import Eggchaos.Lib.SampleText
import Eggchaos.Exposition
import Eggchaos.ExpositionTotals
import Eggchaos.Period
import Eggchaos.Commands
import Eggchaos.Dialer
import Eggchaos.Lib.Checks
import Eggchaos.DurationText
import Eggchaos.Configuration
import Eggchaos.Lib.Fair
import Eggchaos.ServiceStart
import Eggchaos.StartRuns
