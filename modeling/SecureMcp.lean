import SecureMcp.Audit.Writer
import SecureMcp.Decision
import SecureMcp.Drift.Classify
import SecureMcp.Library.Dict
import SecureMcp.Library.Program
import SecureMcp.Library.Sha256
import SecureMcp.Python.CanonicalJson
import SecureMcp.Python.Json
import SecureMcp.Python.Reordering
import SecureMcp.Python.Surrogates
import SecureMcp.Storage.Jsonb
import SecureMcp.Storage.ReadBack
import SecureMcp.Audit.Columns
import SecureMcp.Audit.Verification
import SecureMcp.Audit.Chain
import SecureMcp.Policy.Abac
import SecureMcp.Policy.Engine
import SecureMcp.Drift.Detector
import SecureMcp.Drift.Table
import SecureMcp.Drift.Sweep
import SecureMcp.Drift.Judgement
import SecureMcp.Drift.Outcome
import SecureMcp.Drift.Persistence
import SecureMcp.Drift.FailClosed
import SecureMcp.Interceptor.ParamValidator
import SecureMcp.Interceptor.ReplayGuard
import SecureMcp.Interceptor.Message
import SecureMcp.Interceptor.Authorize
import SecureMcp.Interceptor.Calls
import SecureMcp.Interceptor.Forwarding
import SecureMcp.Interceptor.Recorded
import SecureMcp.Audit.Incremental
import SecureMcp.Audit.Tampering
import SecureMcp.Audit.Ledger
import SecureMcp.Interceptor.ReplayDedup
import SecureMcp.Edge.Auth
import SecureMcp.Edge.Parsed
import SecureMcp.Edge.SignedCalls
import SecureMcp.StepUp.Challenges
import SecureMcp.StepUp.Codes
import SecureMcp.Approvals.Store
import SecureMcp.Approvals.SingleUse
import SecureMcp.Library.Handlers
import SecureMcp.Interceptor.Bands
import SecureMcp.StepUp.Clearing
import SecureMcp.Policy.Loading
import SecureMcp.Policy.Versions
import SecureMcp.Policy.Activations
import SecureMcp.Policy.Rollback
import SecureMcp.Policy.Monotonic
import SecureMcp.Policy.LastAudited
import SecureMcp.Interceptor.Upstream
import SecureMcp.Interceptor.Etag
import SecureMcp.Interceptor.Pruning
import SecureMcp.Drift.Reapproval
import SecureMcp.Interceptor.Injection
import SecureMcp.Drift.Texts
import SecureMcp.Drift.NestedTypes
import SecureMcp.Drift.TwoEdits
import SecureMcp.Interceptor.RepeatedNames
import SecureMcp.Drift.Idempotence
import SecureMcp.Python.Likeness
import SecureMcp.Storage.Survival
import SecureMcp.Drift.Representation
import SecureMcp.Edge.Endpoint
import SecureMcp.Library.Cooperative
import SecureMcp.Sessions.Manager
import SecureMcp.Policy.Conditions
import SecureMcp.Policy.Meaning
import SecureMcp.Policy.Credentials
import SecureMcp.Policy.Grants
import SecureMcp.Risk.Decay
import SecureMcp.Library.WindowCounter
import SecureMcp.Risk.Engine
import SecureMcp.Risk.Frequency
import SecureMcp.Risk.Isolation
import SecureMcp.Edge.FailureCount
import SecureMcp.Interceptor.MetaFrame
import SecureMcp.Interceptor.Refetch
import SecureMcp.Interceptor.LateResponses
import SecureMcp.Decisions.Explainer
import SecureMcp.Decisions.Rows
import SecureMcp.Decisions.Components
import SecureMcp.Decisions.RoundTrip
import SecureMcp.Decisions.Scored
import SecureMcp.Decisions.Simulation
import SecureMcp.Library.Traces
import SecureMcp.Sessions.IdleSweep
import SecureMcp.Python.Extensional
import SecureMcp.Python.Selection
import SecureMcp.Drift.Shape
import SecureMcp.Sessions.Shutdown
import SecureMcp.Drift.NewerDrift
import SecureMcp.Decisions.World
import SecureMcp.Decisions.DryRuns
import SecureMcp.Decisions.Interference
import SecureMcp.Library.Delimited
import SecureMcp.Python.Numerals
import SecureMcp.Python.Unambiguous
import SecureMcp.Audit.Commitment
import SecureMcp.Edge.SignatureScope
import SecureMcp.Decisions.Accounting
import SecureMcp.Interceptor.StageOrder
import SecureMcp.Interceptor.Meanwhile
import SecureMcp.Library.Oracle
import SecureMcp.Interceptor.Precedence
import SecureMcp.Interceptor.FirstFailure
import SecureMcp.Decisions.Foresight
import SecureMcp.Risk.DryRun
import SecureMcp.Decisions.Prediction
import SecureMcp.Approvals.Lifecycle
import SecureMcp.Approvals.Calibration
import SecureMcp.StepUp.InTime
import SecureMcp.Interceptor.LetThrough
import SecureMcp.Risk.Evidence
import SecureMcp.Decisions.OneVersion
import SecureMcp.Decisions.Parity
