import PushOperator.Controller
import PushOperator.Cluster.Rehearsal
import PushOperator.Http.Recorder
import PushOperator.Main
import PushOperator.Proofs.Interaction.Contract
import PushOperator.Proofs.Pass.Completes
import PushOperator.Proofs.Pass.Contract
import PushOperator.Proofs.Cluster.World
import PushOperator.Proofs.Child.Place
import PushOperator.Proofs.Drift
import PushOperator.Proofs.Pass.Ensure
import PushOperator.Proofs.Pass.Quiet
import PushOperator.Proofs.Pass.Writes
import PushOperator.Proofs.Child.Wanted
import PushOperator.Proofs.Pass.Broker
import PushOperator.Proofs.Pass.Database
import PushOperator.Proofs.Pass.Frontend
import PushOperator.Proofs.Pass.Monitoring
import PushOperator.Proofs.Pass.Legacy
import PushOperator.Proofs.Child.Selector
import PushOperator.Proofs.Pass.Backups
import PushOperator.Proofs.Pass.Converge
import PushOperator.Proofs.Pass.Status
import PushOperator.Proofs.Pass.Run
import PushOperator.Proofs.Convergence
import PushOperator.Proofs.Quiescence
import PushOperator.Proofs.SingleActive.Sequential
import PushOperator.Proofs.Interaction.Interleaved
import PushOperator.Proofs.SingleActive.Concurrent
import PushOperator.Proofs.Registry
import PushOperator.Proofs.Interaction.Invariant
import PushOperator.Proofs.Interaction.Heeds
import PushOperator.Proofs.Child.Explains
import PushOperator.Proofs.Pass.Heeds
import PushOperator.Proofs.Pass.Failures
import PushOperator.Proofs.Pass.Outcome
import PushOperator.Proofs.FailStop
import PushOperator.Proofs.Cluster.Shared
import PushOperator.Proofs.StatusInvariant
import PushOperator.Proofs.Pass.Recorded
import PushOperator.Proofs.Readiness
import PushOperator.Proofs.PublishedRegistry
import PushOperator.Proofs.Interaction.Grounds
import PushOperator.Proofs.Cluster.Versions
import PushOperator.Proofs.Pass.Warrants
import PushOperator.Proofs.Pass.WarrantedSteps
import PushOperator.Proofs.Corrections
import PushOperator.Proofs.NoLostUpdate
import PushOperator.Proofs.OwnedChanges
import PushOperator.Proofs.SingleCorrection
import PushOperator.Proofs.DriftTermination
import PushOperator.Proofs.Pass.BrokerGate
import PushOperator.Proofs.Pass.Settles
import PushOperator.Proofs.Pass.BrokerWaits
import PushOperator.Proofs.BrokerGate
import PushOperator.Proofs.Text.Base64
import PushOperator.Proofs.BrokerCredentials
import PushOperator.Proofs.BrokerHealing
import PushOperator.Proofs.Pass.Ownership
import PushOperator.Proofs.OwnedCreations
import PushOperator.Proofs.Pass.Deletions
import PushOperator.Proofs.Deletions
import PushOperator.Proofs.Pass.Closing
import PushOperator.Proofs.RecordedChildren
import PushOperator.Proofs.Child.Names
import PushOperator.Proofs.Pass.Lookups
import PushOperator.Proofs.SeparateNames
import PushOperator.Proofs.Text.Quoted
import PushOperator.Proofs.Child.Built
import PushOperator.Proofs.Child.Pods
import PushOperator.Proofs.Child.Secrets
import PushOperator.Proofs.Child.Services
import PushOperator.Proofs.References
import PushOperator.Proofs.BackupsFollowSpec
import PushOperator.Proofs.Interaction.Reports
import PushOperator.Proofs.Interaction.Alike
import PushOperator.Proofs.Pass.Reports
import PushOperator.Proofs.Pass.ReportedSteps
import PushOperator.Proofs.Cluster.Circumstances
import PushOperator.Proofs.NamespaceConfinement
import PushOperator.Proofs.Events
import PushOperator.Proofs.Dict
import PushOperator.Proofs.Timestamp
import PushOperator.Proofs.Wire.Fields
import PushOperator.Proofs.Wire.Schema
import PushOperator.Proofs.Wire.Resources
import PushOperator.Proofs.WireRoundTrip
import PushOperator.Proofs.Quantity
import PushOperator.Proofs.ResourceLayers
import PushOperator.Proofs.ValidSettings
import PushOperator.Proofs.DriftConfluence
import PushOperator.Proofs.StorageCorrection
import PushOperator.Proofs.LegacyCleanup
import PushOperator.Proofs.BackupsSettle
import PushOperator.Proofs.BackupsRestored
import PushOperator.Proofs.Alerts
import PushOperator.Proofs.RegistryRefinement
