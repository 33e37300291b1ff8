import TrustModelEdge.Engine.EvaluatorTheorems
import TrustModelEdge.Engine.ConditionTheorems
import TrustModelEdge.Engine.RedactionTheorems
import TrustModelEdge.Telemetry.FifoTheorems
import TrustModelEdge.Py.DiskRules
import TrustModelEdge.Lib.LastWins
import TrustModelEdge.Policy.Cache
import TrustModelEdge.Policy.PersistTheorems
import TrustModelEdge.Policy.CacheTheorems
import TrustModelEdge.Policy.RestartTheorems
import TrustModelEdge.Config
import TrustModelEdge.Identity
import TrustModelEdge.Policy.Stale
import TrustModelEdge.Py.Crypto
import TrustModelEdge.OAuth
import TrustModelEdge.Routes.OAuth
import TrustModelEdge.Telemetry.Payload
import TrustModelEdge.Routes.Decide
import TrustModelEdge.Routes.DecideTheorems
import TrustModelEdge.Routes.AuditTheorems
import TrustModelEdge.Lib.Signing
import TrustModelEdge.Routes.PrivacyTheorems
import TrustModelEdge.Routes.Process
import TrustModelEdge.Policy.Calls
import TrustModelEdge.Policy.Client
import TrustModelEdge.Policy.Sync
import TrustModelEdge.Routes.ClientTheorems
import TrustModelEdge.Routes.ProcessTheorems
import TrustModelEdge.Telemetry.Drains
import TrustModelEdge.Telemetry.DrainTheorems
import TrustModelEdge.Policy.SyncLoop
import TrustModelEdge.Routes.FailModeTheorems
import TrustModelEdge.Py.FailRules
import TrustModelEdge.Policy.HazardTheorems
import TrustModelEdge.Policy.SyncTheorems
import TrustModelEdge.Policy.WarmTheorems
import TrustModelEdge.IdentityTheorems
import TrustModelEdge.Policy.CrashTheorems
import TrustModelEdge.Routes.Edge
import TrustModelEdge.Routes.FreshnessTheorems
import TrustModelEdge.ControlPlane
import TrustModelEdge.Heartbeat
import TrustModelEdge.HeartbeatTheorems
import TrustModelEdge.Enroll
import TrustModelEdge.EnrollTheorems
import TrustModelEdge.Policy.CallTheorems
import TrustModelEdge.Routes.Health
import TrustModelEdge.Policy.PluralTheorems
import TrustModelEdge.Routes.StateTheorems
import TrustModelEdge.Routes.VerdictTheorems
import TrustModelEdge.Policy.LoadTheorems
import TrustModelEdge.Policy.RepairTheorems
import TrustModelEdge.Py.FrameRules
import TrustModelEdge.Policy.FrameTheorems
import TrustModelEdge.Policy.ManifestTheorems
import TrustModelEdge.Policy.CrashSafetyTheorems
import TrustModelEdge.Telemetry.AccountTheorems
import TrustModelEdge.Telemetry.BackoffTheorems
import TrustModelEdge.RotationTheorems
import TrustModelEdge.SecretTheorems
import TrustModelEdge.Telemetry.FlushTheorems
import TrustModelEdge.Routes.Pod
import TrustModelEdge.Routes.PodTheorems
import TrustModelEdge.Routes.TrailTheorems
import TrustModelEdge.Engine.EditTheorems
import TrustModelEdge.Telemetry.Recovery
import TrustModelEdge.Telemetry.RecoveryTheorems
import TrustModelEdge.App
import TrustModelEdge.AppTheorems
import TrustModelEdge.Lib.Tally
import TrustModelEdge.Routes.Metrics
import TrustModelEdge.Routes.MetricsTheorems
import TrustModelEdge.Routes.Replica
import TrustModelEdge.Routes.OriginTheorems
import TrustModelEdge.Telemetry.ShutdownTheorems
import TrustModelEdge.Py.TornRules
import TrustModelEdge.KeyTheorems
