import LlmStore.Inference.HiddenReasoning
import LlmStore.Inference.AsyncQuestion
import LlmStore.Inference.ForwardedLimits
import LlmStore.Inference.LoadedDefaults
import LlmStore.Inference.RowCollisions
import LlmStore.Usage.Consistency
import LlmStore.Usage.QuotaRace
import LlmStore.Proxy.Accounting
import LlmStore.Proxy.SharedBreaker
import LlmStore.Models.PlanAccess
import LlmStore.Models.DefaultModel
import LlmStore.Models.BackendEdits
import LlmStore.Models.PlanEdits
import LlmStore.Models.ModelList
import LlmStore.Billing.Delinquency
import LlmStore.Billing.ClosedInvoices
import LlmStore.Billing.Periods
import LlmStore.Billing.Settlement
import LlmStore.Billing.SuspensionRule
import LlmStore.Billing.Refresh
import LlmStore.Billing.Reactivation
import LlmStore.Billing.MarginalCosts
import LlmStore.Billing.PaymentRace
import LlmStore.Jobs.Charges
import LlmStore.Jobs.Cancellation
import LlmStore.Jobs.SlotLeak
import LlmStore.Jobs.Requeue
import LlmStore.Jobs.Exclusive
import LlmStore.Jobs.Failover
import LlmStore.Clients.Deletion
import LlmStore.Inference.ExactCache
import LlmStore.Inference.StreamEnd
import LlmStore.Usage.Summary
import LlmStore.Clients.SourceIp
import LlmStore.Clients.RateLimit
import LlmStore.Clients.Metadata
import LlmStore.Clients.Authentication
import LlmStore.Jobs.RequestCosts
import LlmStore.Lib.Words
import LlmStore.Lib.Recurring
import LlmStore.Inference.LoopRules
import LlmStore.Inference.TextLines
import LlmStore.Inference.TextPieces
import LlmStore.Inference.CutAgreement
import LlmStore.Inference.CutPrefix
import LlmStore.Inference.CutRemains
import LlmStore.Inference.LoopAgreement
import LlmStore.Inference.StreamedText
import LlmStore.Inference.CacheConfig
import LlmStore.Proxy.BreakerTrace
import LlmStore.Models.RoutingOrder
import LlmStore.Models.ModelFiles
import LlmStore.Inference.Fallback
import LlmStore.Inference.Attempts
import LlmStore.Inference.ReasoningField
import LlmStore.Inference.PassedOn
import LlmStore.Inference.LeftTags
import LlmStore.Inference.UnclosedReasoning
import LlmStore.Models.ArchivedNames
import LlmStore.Models.RouteSync
import LlmStore.Billing.NewClients
import LlmStore.Models.ModelPaths
import LlmStore.Reporting.MonthlyReport
import LlmStore.Reporting.UsageSummary
