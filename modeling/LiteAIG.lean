import LiteAIG.Proofs.Guardrail.Redaction
import LiteAIG.Proofs.Ledger.Sweep
import LiteAIG.Proofs.Ledger.Agreement
import LiteAIG.Proofs.Budget.Rejection
import LiteAIG.Proofs.Budget.Slices
import LiteAIG.Proofs.Budget.Straddle
import LiteAIG.Proofs.Execution.Cooldown
import LiteAIG.Proofs.Execution.HalfOpen
import LiteAIG.Proofs.Execution.Capacity
import LiteAIG.Proofs.Execution.Counts
import LiteAIG.Proofs.Execution.Stream
import LiteAIG.Proofs.Execution.Tenants
import LiteAIG.Proofs.Cache.Freshness
import LiteAIG.Proofs.Pipeline.Limits
import LiteAIG.Observability.AgentGraph
import LiteAIG.Pipeline.RoutingMetrics
import LiteAIG.Pipeline.Streams
import LiteAIG.Proofs.Pipeline.Streams
import LiteAIG.Proofs.Pipeline.Levels
import LiteAIG.Proofs.Spool.Crash
import LiteAIG.Proofs.Spool.Failures
import LiteAIG.Proofs.Spool.Oldest
import LiteAIG.Proofs.Config.Convergence
import LiteAIG.Proofs.Config.Restart
import LiteAIG.Proofs.Bundle.Authentic
import LiteAIG.Proofs.Lkg.Crash
import LiteAIG.Proofs.Federation.Trust
import LiteAIG.Proofs.Federation.Console
import LiteAIG.Proofs.Approval.Decisions
import LiteAIG.Proofs.Identity.PasswordReset
import LiteAIG.Proofs.Coordination.Singleton
import LiteAIG.Proofs.A2A.Completed
import LiteAIG.Proofs.A2A.Crash
import LiteAIG.Proofs.A2A.Replay
import LiteAIG.Proofs.A2A.Reservations
import LiteAIG.Proofs.Cache.Keys
import LiteAIG.Proofs.Connectors.Credentials
import LiteAIG.Proofs.Connectors.Relay
import LiteAIG.Proofs.Files.Isolation
import LiteAIG.Proofs.Guardrail.Inline
import LiteAIG.Proofs.Pipeline.Inspection
import LiteAIG.Proofs.Pipeline.ToolStream
import LiteAIG.Proofs.A2A.PushSig
import LiteAIG.Proofs.Finops.Usage
import LiteAIG.Proofs.Config.Engines
import LiteAIG.Proofs.Egress.Unreachable
import LiteAIG.Proofs.Identity.Administrators
