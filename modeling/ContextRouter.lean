import ContextRouter.MinimalResolver.Revival
import ContextRouter.MinimalResolver.Malformed
import ContextRouter.MinimalResolver.Cycles
import ContextRouter.MinimalResolver.Scopes
import ContextRouter.MinimalResolver.Order
import ContextRouter.MinimalResolver.Unapproved
import ContextRouter.MinimalResolver.Handover
import ContextRouter.SourceReadGate
import ContextRouter.SourceReadGate.States
import ContextRouter.SourceReadGate.Continuation
import ContextRouter.WorkGate
import ContextRouter.ResyncGate
import ContextRouter.ContextRouterPreflight
import ContextRouter.Python.Json
import ContextRouter.Python.Library
import ContextRouter.SourceReadObservation
import ContextRouter.SourceReadObservation.Decode
import ContextRouter.SourceReadEvidence
import ContextRouter.SourceReadEvidenceBinding
import ContextRouter.SourceReadEvidenceBinding.Exact
import ContextRouter.SourceReadAcquisitionHandoff
import ContextRouter.SourceReadAcquisitionHandoff.Reads
import ContextRouter.SourceReadAcquisitionHandoff.AnyMode
import ContextRouter.GithubPublicPinnedReader
import ContextRouter.PinnedPublicDecisionPreflight
import ContextRouter.PinnedPublicDecisionPreflight.Content
import ContextRouter.MinimalResolver.LiveHead
import ContextRouter.MinimalResolver.OverTime
import ContextRouter.MinimalResolver.Timing
import ContextRouter.MinimalResolver.Timeline
import ContextRouter.Graph.Heads
import ContextRouter.MinimalResolver.Growth
import ContextRouter.MinimalResolver.Admission
import ContextRouter.MinimalResolver.Report
import ContextRouter.ContextSelection
import ContextRouter.Sorting.Buckets
import ContextRouter.ContextSelection.Plan
import ContextRouter.SelectiveRecall
import ContextRouter.SelectiveRecall.Selected
import ContextRouter.SelectiveRecall.Loading
import ContextRouter.SelectiveRecall.Rejected
import ContextRouter.GithubPublicPinnedReader.Address
import ContextRouter.Python.Base64
import ContextRouter.GithubPublicPinnedReader.Limits
import ContextRouter.GithubPublicPinnedReader.Handoff
import ContextRouter.PinnedPublicDecisionPreflight.Exact
import ContextRouter.Python.Isoformat
import ContextRouter.MinimalResolver.Days
import ContextRouter.MinimalResolver.Retirement
import ContextRouter.MinimalResolver.Verification
import ContextRouter.MinimalResolver.Maintenance
import ContextRouter.MinimalResolver.Merge
import ContextRouter.PinnedPublicDecisionPreflight.Dated
import ContextRouter.SelectiveRecall.Candidates
import ContextRouter.ContextRouterPreflight.Proposals
