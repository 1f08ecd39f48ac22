import ExtManager.Attestation.Agree
import ExtManager.Attestation.Equivalence
import ExtManager.Attestation.Go
import ExtManager.Attestation.Profile
import ExtManager.Attestation.RoundTrip
import ExtManager.Attestation.Signed
import ExtManager.Attestation.Verify
import ExtManager.Codec.Ascii
import ExtManager.Codec.Assoc
import ExtManager.Codec.Base64
import ExtManager.Codec.Canonical
import ExtManager.Codec.Dict
import ExtManager.Codec.Dumps
import ExtManager.Codec.Fallible
import ExtManager.Codec.Layout
import ExtManager.Codec.Loads
import ExtManager.Codec.Nested
import ExtManager.Codec.Python
import ExtManager.Codec.Scanner
import ExtManager.Codec.Text
import ExtManager.Codec.Value
import ExtManager.Compiler.Basic
import ExtManager.Compiler.Capabilities
import ExtManager.Compiler.Compile
import ExtManager.Compiler.Decision
import ExtManager.Compiler.Invariance
import ExtManager.Compiler.Obligations
import ExtManager.Compiler.Ownership
import ExtManager.Compiler.Parse
import ExtManager.Compiler.Parsed
import ExtManager.Compiler.Passes
import ExtManager.Contract.Basic
import ExtManager.Contract.Json
import ExtManager.Contract.PlanArtifact
import ExtManager.Contract.PlanCodec
import ExtManager.Coordinator.Agreement
import ExtManager.Coordinator.Basic
import ExtManager.Coordinator.Cas
import ExtManager.Coordinator.Evidence
import ExtManager.Coordinator.Exposure
import ExtManager.Coordinator.Interrupted
import ExtManager.Coordinator.Journal
import ExtManager.Coordinator.OnePlan
import ExtManager.Coordinator.Operations
import ExtManager.Coordinator.Outcomes
import ExtManager.Coordinator.Passing
import ExtManager.Coordinator.Reactivation
import ExtManager.Coordinator.Recovery
import ExtManager.Coordinator.Refinement
import ExtManager.Coordinator.Rules
import ExtManager.Coordinator.Runs
import ExtManager.Coordinator.Steps
import ExtManager.Coordinator.Transfer
import ExtManager.Crash.Basic
import ExtManager.Crash.Paced
import ExtManager.Crash.Theorems
import ExtManager.Experiment.Admissions
import ExtManager.Experiment.Balance
import ExtManager.Experiment.Batch
import ExtManager.Experiment.Explore
import ExtManager.Experiment.Transaction
import ExtManager.Gate.Admission
import ExtManager.Gate.Basic
import ExtManager.Gate.Calls
import ExtManager.Gate.Duplicate
import ExtManager.Gate.FailedSafe
import ExtManager.Gate.FaultFree
import ExtManager.Gate.Honest
import ExtManager.Gate.Invariant
import ExtManager.Gate.Lease
import ExtManager.Gate.Operations
import ExtManager.Gate.Oracle
import ExtManager.Gate.OracleSpec
import ExtManager.Gate.Recovery
import ExtManager.Gate.Refinement
import ExtManager.Gate.Reproduce
import ExtManager.Gate.Route
import ExtManager.Gate.Rules
import ExtManager.Gate.Runs
import ExtManager.Gate.Settled
import ExtManager.Gate.Steps
import ExtManager.Gate.Terminal
import ExtManager.HostEvidence.Append
import ExtManager.HostEvidence.Appended
import ExtManager.HostEvidence.Binding
import ExtManager.HostEvidence.Coverage
import ExtManager.HostEvidence.Event
import ExtManager.HostEvidence.Identity
import ExtManager.HostEvidence.Journal
import ExtManager.HostEvidence.Observer
import ExtManager.HostEvidence.Rejects
import ExtManager.HostEvidence.StartTicks
import ExtManager.HostEvidence.Torn
import ExtManager.Lifecycle.Descriptor
import ExtManager.Manager.Basic
import ExtManager.Manager.Dependencies
import ExtManager.Manager.Enabled
import ExtManager.Manager.Concurrent
import ExtManager.Manager.Store
import ExtManager.Manifest.Basic
import ExtManager.Manifest.Exact
import ExtManager.Order.Bfs
import ExtManager.Order.Dfs
import ExtManager.Order.Kahn
import ExtManager.Order.Seating
import ExtManager.Process.Basic
import ExtManager.Process.Rules
import ExtManager.Process.Shares
import ExtManager.Provider.Additional
import ExtManager.Provider.Basic
import ExtManager.Provider.Command
import ExtManager.Provider.Launch
import ExtManager.Provider.Vllm
import ExtManager.Quarantine.Basic
import ExtManager.Quarantine.Chains
import ExtManager.Quarantine.Decisions
import ExtManager.Quarantine.Exclusive
import ExtManager.Quarantine.Lease
import ExtManager.Quarantine.Publish
import ExtManager.Quarantine.Reconcile
import ExtManager.Quarantine.RecordFile
import ExtManager.Quarantine.Records
import ExtManager.Quarantine.Sink
import ExtManager.Quarantine.Source
import ExtManager.Quarantine.Transaction
import ExtManager.Quarantine.Validation
import ExtManager.Quarantine.WriteOnce
import ExtManager.Reference.Basic
import ExtManager.Reference.Conflicts
import ExtManager.Reference.Keys
import ExtManager.Reference.Refinement
import ExtManager.Reference.Transitions
import ExtManager.Runtime.Events
import ExtManager.Supervisor.Basic
import ExtManager.Supervisor.Ended
import ExtManager.Supervisor.Signals
