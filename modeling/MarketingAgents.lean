import MarketingAgents.Security.ApprovalMasking
import MarketingAgents.Persistence.ApprovalReadable
import MarketingAgents.Persistence.AtMostOnce
import MarketingAgents.Persistence.CancellationFence
import MarketingAgents.Runtime.ClaimExclusion
import MarketingAgents.Services.ApprovalEffects
import MarketingAgents.Services.ExecutionAccounting
import MarketingAgents.Services.LifecycleEffects
import MarketingAgents.Services.PlanSoundness
import MarketingAgents.Services.ReadEffects
import MarketingAgents.Services.RunWorker
import MarketingAgents.Services.WriteEffects
import MarketingAgents.Persistence.RateAccounting
import MarketingAgents.Services.PlannedBudget
import MarketingAgents.Services.DependencyOrder
import MarketingAgents.Services.CallsInFlight
import MarketingAgents.Services.TerminalRuns
import MarketingAgents.Services.PossibleDeliveries
import MarketingAgents.Persistence.AuditPaging
import MarketingAgents.Services.WebhookExactlyOnce
import MarketingAgents.Services.WorkIdempotency
import MarketingAgents.Persistence.RetentionGuarantees
import MarketingAgents.Services.ActionHistories
import MarketingAgents.Domain.RunHistories
import MarketingAgents.Domain.StepHistories
import MarketingAgents.Domain.CanonicalForm
import MarketingAgents.Domain.CanonicalRecords
import MarketingAgents.Services.RoutingOrder
import MarketingAgents.Domain.Schedules
import MarketingAgents.Persistence.ScheduleRepository
import MarketingAgents.Persistence.ScheduleExclusivity
import MarketingAgents.Services.ConfigurationUpdates
import MarketingAgents.Services.ConfiguredSchedules
import MarketingAgents.Services.InstanceConfigurations
import MarketingAgents.Services.WebhookRateLimit
import MarketingAgents.Domain.RecurrenceSnapshots
import MarketingAgents.Domain.PolicyHash
import MarketingAgents.Domain.PlanHash
import MarketingAgents.Domain.ActionHash
import MarketingAgents.Domain.HashPreimages
import MarketingAgents.Library.JsonSize
import MarketingAgents.Domain.CanonicalWriting
import MarketingAgents.Persistence.ConfigurationCodec
import MarketingAgents.Persistence.ConfigurationReading
import MarketingAgents.Domain.PlainText
import MarketingAgents.Persistence.ConfigurationRoundTrip
import MarketingAgents.Persistence.ConfigurationTexts
import MarketingAgents.Persistence.ConfigurationRows
import MarketingAgents.Persistence.StoredConfigurations
import MarketingAgents.Security.ConfigurationPseudonyms
import MarketingAgents.Security.ConfigurationAudits
import MarketingAgents.Security.AuditedConfigurations
import MarketingAgents.Services.OperationSnapshots
import MarketingAgents.Services.CoverSearch
import MarketingAgents.Services.ScheduleMisfire
import MarketingAgents.Security.RedactionClassification
import MarketingAgents.Security.PointerRedaction
import MarketingAgents.Web.HierarchyLayout
import MarketingAgents.Library.UrlEncoded
import MarketingAgents.Web.FilterUrl
import MarketingAgents.Connectors.DurableMockReceipts
import MarketingAgents.Library.Reachability
import MarketingAgents.Library.TopologicalOrder
import MarketingAgents.Domain.DependencyGraph
import MarketingAgents.Services.InputBindings
import MarketingAgents.Catalog.BoundedSchemas
import MarketingAgents.Services.CursorGuarantees
import MarketingAgents.Services.PageWalks
import MarketingAgents.Security.WebhookEnvelopes
import MarketingAgents.Services.CronTermination
import MarketingAgents.Services.CompletionReplay
