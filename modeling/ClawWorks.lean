import ClawWorks.Enterprise.StepBudget
import ClawWorks.Enterprise.OrphanedRuns
import ClawWorks.Enterprise.ResumeLane
import ClawWorks.Enterprise.ResumeChain
import ClawWorks.Enterprise.GovernanceOrder
import ClawWorks.Enterprise.GovernanceSpelling
import ClawWorks.Enterprise.HostedTool
import ClawWorks.Enterprise.WholeServerGrants
import ClawWorks.Enterprise.ExpressionProperties
import ClawWorks.Enterprise.WarningsAgree
import ClawWorks.Enterprise.RouteSelection
import ClawWorks.Enterprise.TreeImports
import ClawWorks.Enterprise.ExpressionPrinting
import ClawWorks.Enterprise.SessionLinks
import ClawWorks.Enterprise.Knowledge
import ClawWorks.Enterprise.NeighborLimit
import ClawWorks.Harness.JsonlStorage
import ClawWorks.Harness.SessionBranch
import ClawWorks.Harness.SplitTurns
import ClawWorks.OcPath.FoundPaths
import ClawWorks.ToolCallRepair.StreamedPromotion
import ClawWorks.ToolCallRepair.Transparent
import ClawWorks.Routing.PlainScan
import ClawWorks.FollowupQueue.DrainEnds
import ClawWorks.FollowupQueue.HandledOnce
import ClawWorks.Exec.ApprovalPreview
import ClawWorks.Exec.Authorization
import ClawWorks.Markdown.ChunksWithinLimit
import ClawWorks.Markdown.LosslessChunks
import ClawWorks.Enterprise.SkillAppendix
import ClawWorks.DevicePairing.Lifetimes
import ClawWorks.Transcript.ToolCallIdsPaired
import ClawWorks.Exec.WindowsRoundTrip
import ClawWorks.Exec.WindowsQuotes
import ClawWorks.Exec.CommandText
import ClawWorks.Exec.ArgPattern
import ClawWorks.Delivery.AcceptedOnce
import ClawWorks.Delivery.NotLost
import ClawWorks.CommandQueue.NoOverrun
import ClawWorks.Workboard.AcceptedInput
import ClawWorks.Workboard.EventLog
import ClawWorks.Config.EnvRefsSurvive
import ClawWorks.Cron.ExactTimes
import ClawWorks.Enterprise.HashSlots
import ClawWorks.NetPolicy.Cidr
import ClawWorks.Infra.JsonUtf8Bytes
import ClawWorks.Infra.Dedupe
import ClawWorks.Config.MergePatch
