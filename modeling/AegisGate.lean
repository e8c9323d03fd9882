import AegisGate.Auth.Jwks
import AegisGate.Auth.Sso
import AegisGate.Autonomy.ApprovalSerial
import AegisGate.Autonomy.FailedApply
import AegisGate.Cache.Capacity
import AegisGate.Cache.Feedback
import AegisGate.Cache.Images
import AegisGate.Cache.Migrator
import AegisGate.Cache.OwnWrite
import AegisGate.Cluster.BreakerRefinement
import AegisGate.Cluster.HalfOpenCap
import AegisGate.Cluster.RateScript
import AegisGate.Cluster.RawCommand
import AegisGate.ControlPlane.ConfigListing
import AegisGate.ControlPlane.ConfigRace
import AegisGate.ControlPlane.RolloutMetrics
import AegisGate.ControlPlane.RolloutRecovery
import AegisGate.ControlPlane.Ulid
import AegisGate.Core.License
import AegisGate.Core.Multimodal
import AegisGate.Gateway.AbuseDetector
import AegisGate.Gateway.BucketSweep
import AegisGate.Gateway.CurlClient
import AegisGate.Gateway.FallbackSession
import AegisGate.Gateway.KeyRetry
import AegisGate.Gateway.PromptCompressor
import AegisGate.Guardrail.AuditTrail
import AegisGate.Guardrail.ExternalSafety
import AegisGate.Guardrail.ExtraFields
import AegisGate.Guardrail.Interleaving
import AegisGate.Multimodal.ModalityRate
import AegisGate.Server.CacheAdmission
import AegisGate.Server.ClientIp
import AegisGate.Server.KeyRotation
import AegisGate.Server.Mediation
import AegisGate.Server.ModelPolicy
import AegisGate.Server.OutboundFailure
import AegisGate.Server.Principals
import AegisGate.Workflow.CycleCheck
import AegisGate.Workflow.Driven
import AegisGate.Workflow.DslHash
