import CodeResearch.Alignment.Calibrator
import CodeResearch.Alignment.Cuts
import CodeResearch.Alignment.Leases
import CodeResearch.Alignment.RecallSpec
import CodeResearch.Alignment.ReviewLog
import CodeResearch.Alignment.Scorer
import CodeResearch.Alignment.VerifierPayload
import CodeResearch.Analysis.ContributionMatches
import CodeResearch.Analysis.FigureSelection
import CodeResearch.Analysis.ForwardSteps
import CodeResearch.Analysis.LibraryFunctions
import CodeResearch.Analysis.PaperPages
import CodeResearch.Api.Noninterference
import CodeResearch.Artifacts.Agreement
import CodeResearch.Artifacts.Deletion
import CodeResearch.Artifacts.Unzip
import CodeResearch.ControlPlane.HonestRetries
import CodeResearch.ControlPlane.ManualRetry
import CodeResearch.ControlPlane.ProviderReservations
import CodeResearch.ControlPlane.RowsMirror
import CodeResearch.DomainJobs.Outcome
import CodeResearch.Evaluation.Baselines
import CodeResearch.Evaluation.Exclusions
import CodeResearch.Evaluation.FrozenDatasets
import CodeResearch.Evaluation.Normalised
import CodeResearch.Evaluation.Overwrites
import CodeResearch.Evaluation.Requirements
import CodeResearch.Identity.PasswordChange
import CodeResearch.Identity.Throttle
import CodeResearch.Imaging.Isolation
import CodeResearch.Indexing.CallNames
import CodeResearch.Indexing.ExpiredBuilds
import CodeResearch.Indexing.PathNormalizer
import CodeResearch.Indexing.RelativeImports
import CodeResearch.Llm.Routing
import CodeResearch.Llm.TruncationSpec
import CodeResearch.Observability.Deliveries
import CodeResearch.Observability.Integrity
import CodeResearch.Observability.Recovery
import CodeResearch.Observability.TokenMetrics
import CodeResearch.Research.Budget
import CodeResearch.Research.CallPaths
import CodeResearch.Research.Cancelling
import CodeResearch.Research.Discipline
import CodeResearch.Research.PlanResolution
import CodeResearch.Research.PlanVersions
import CodeResearch.Research.RunCreation
import CodeResearch.Research.Timestamps
import CodeResearch.Retrieval.Completeness
import CodeResearch.Retrieval.Fusion
import CodeResearch.Retrieval.VectorTruth
import CodeResearch.Settings.GuardsSpec
import CodeResearch.Settings.SecretAtomicity
import CodeResearch.Team.Cancellation
import CodeResearch.Team.Duplicates
