import UwfManager.Core.OverlayWritePlan
import UwfManager.Configuration.StagingDurability
import UwfManager.Configuration.CommandRoundTrip
import UwfManager.Configuration.PlannedSession
import UwfManager.Configuration.ExclusionEditing
import UwfManager.Staging.StagedConflicts
import UwfManager.Configuration.GlobalConfigurationEditor
import UwfManager.Startup.ApplicationCommand
import UwfManager.Staging.FileStagingCoordinator
import UwfManager.Commit.CommitPreparation
import UwfManager.Configuration.JournalCompleteness
import UwfManager.Configuration.WriteEffects
import UwfManager.Enhanced.ControlAcknowledgement
import UwfManager.Enhanced.ServiceInstallation
import UwfManager.Enhanced.ServiceRemoval
import UwfManager.Uwf.ConnectionUse
import UwfManager.Uwf.WriteOutcomes
import UwfManager.Power.PowerGating
import UwfManager.Configuration.ConditionalImport
import UwfManager.Staging.DurableFileStagingStore
import UwfManager.Staging.CommitAccounting
import UwfManager.Overlay.CoordinatorRuns
import UwfManager.Overlay.HostInvalidation
import UwfManager.Commit.DeletionOrder
import UwfManager.Commit.PublishedProgress
import UwfManager.Commit.CommitWorkflow
import UwfManager.Paths.ExclusionCoverage
import UwfManager.Uwf.VolumeSelection
import UwfManager.Staging.ChangeDetection
import UwfManager.Configuration.LastWriter
import UwfManager.Startup.FrameReassembly
import UwfManager.Overlay.WindowRecreation
import UwfManager.Windows.RegistryKeyTree
import UwfManager.Paths.Containment
import UwfManager.Presentation.Pager
import UwfManager.Presentation.LoadingGate
import UwfManager.Uwf.WmiTypes
import UwfManager.Overlay.OverlayFileCatalog
import UwfManager.Uwf.EmbeddedInstance
import UwfManager.Overlay.HubExclusivity
import UwfManager.Power.DialogCalls
import UwfManager.Power.ReservedDialog
import UwfManager.Power.CompletedDialog
