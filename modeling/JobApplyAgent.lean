import JobApplyAgent.Kernel.Refusals
import JobApplyAgent.Kernel.KillSwitch
import JobApplyAgent.Truth.VerifiedCount
import JobApplyAgent.ControlPlane.Nonces
import JobApplyAgent.Restore.Complete
import JobApplyAgent.Materials.BindingAgreement
import JobApplyAgent.Governor.Cooldown
import JobApplyAgent.Discovery.MailboxDelivery
import JobApplyAgent.Discovery.ClosedPostings
import JobApplyAgent.Discovery.ClosureRuns
import JobApplyAgent.Preparation.Current
import JobApplyAgent.Intake.Stranded
import JobApplyAgent.Intake.OneRow
import JobApplyAgent.Portal.LeaseHolder
import JobApplyAgent.Migration.Downgrade
import JobApplyAgent.ControlPlane.KillTruth
import JobApplyAgent.Discovery.CheckpointRuns
import JobApplyAgent.Profile.WriterRuns
import JobApplyAgent.Kernel.Caps
import JobApplyAgent.Kernel.Exclusive
import JobApplyAgent.Forms.Patterns
import JobApplyAgent.Bridge.Retries
import JobApplyAgent.Match.FitHistory
import JobApplyAgent.Adapters.GreenhouseOneShot
import JobApplyAgent.Forms.PlanRuns
import JobApplyAgent.Ingestion.PostingIdentity
import JobApplyAgent.Adapters.PayloadLaw
import JobApplyAgent.Artifacts.SnapshotRuns
import JobApplyAgent.Portal.Sessions
import JobApplyAgent.Runtime.Capabilities
import JobApplyAgent.Match.TermRouting
import JobApplyAgent.Bridge.ArchiveScans
import JobApplyAgent.Match.RoutingPrompt
import JobApplyAgent.ControlPlane.JsonNesting
