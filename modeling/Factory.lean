import Factory.Coordinator.AttemptBudget
import Factory.Coordinator.EnvironmentLifecycle
import Factory.Runtime.ReviewCrashSafety
import Factory.Runtime.ToolStageAgreement
import Factory.Cli.ResultTransfer
import Factory.Coordinator.Cancellation
import Factory.Runtime.SettledOutput
import Factory.Runtime.ContinuationGrammar
import Factory.Runtime.ReviewCycles
import Factory.Coordinator.EventIdempotence
import Factory.Extension.SubagentRetention
import Factory.Runtime.OutputRoundTrip
import Factory.Runtime.StageProgress
import Factory.Runtime.WorkspaceIdentity
import Factory.Workspace.WorkspaceRemoval
import Factory.Runtime.CycleDetection
import Factory.Runtime.RemediationCoverage
import Factory.Extension.DocumentCodec
import Factory.Runtime.TextCoalescing
import Factory.Extension.ContextBounds
import Factory.Coordinator.PublicationSteps
import Factory.Cli.ProfileGuard
import Factory.Cli.ShellQuoting
import Factory.Runtime.ResourceRequirements
import Factory.Providers.ToolReplay
import Factory.Coordinator.DurableHistory
