import McpAssistant.BusinessQuery.JoinAgreement
import McpAssistant.BusinessQuery.TenantScope
import McpAssistant.BusinessQuery.VisibilitySoundness
import McpAssistant.BusinessQuery.ScopePreservation
import McpAssistant.BusinessQuery.EntityPaging
import McpAssistant.BusinessQuery.FrozenDate
import McpAssistant.BusinessQuery.OptionalJoins
import McpAssistant.BusinessQuery.JoinedMeasures
import McpAssistant.BusinessQuery.DurableEvidence
import McpAssistant.BusinessQuery.MixedCurrencies
import McpAssistant.Conversation.TurnBounds
import McpAssistant.Services.ConfirmedCancel
import McpAssistant.Conversation.LinearContinuations
import McpAssistant.Conversation.StoreAgreement
import McpAssistant.BusinessQuery.AttemptOutcomes
import McpAssistant.BusinessQuery.AttemptAgreement
import McpAssistant.Services.DisclosureGate
import McpAssistant.Services.WireSequence
import McpAssistant.Panel.PaintOrder
import McpAssistant.Services.StreamedDetails
import McpAssistant.BusinessQuery.ResolvedEvents
import McpAssistant.Auth.JtiReplay
import McpAssistant.Billing.DocumentNumbers
import McpAssistant.Billing.StockBalances
import McpAssistant.Billing.StockSummary
import McpAssistant.Billing.LandedCosts
import McpAssistant.Services.TablePainting
import McpAssistant.Conversation.EvidenceRoundTrip
import McpAssistant.BusinessQuery.ShapeAgreement
import McpAssistant.BusinessQuery.CubeEnforcement
import McpAssistant.Conversation.RebuiltMemory
import McpAssistant.Auth.RecordDigests
import McpAssistant.Services.QueueAccounting
import McpAssistant.Services.EventSequences
import McpAssistant.Conversation.LostRaces
import McpAssistant.Conversation.SourceFocus
import McpAssistant.BusinessQuery.SetReferences
import McpAssistant.BusinessQuery.KeyIdentity
import McpAssistant.BusinessQuery.QualifiedExpressions
import McpAssistant.BusinessQuery.DialectBuckets
import McpAssistant.Conversation.KindBudgets
import McpAssistant.Services.RecordReconciliation
import McpAssistant.BusinessQuery.PlanDifferences
import McpAssistant.BusinessQuery.PlanPatches
import McpAssistant.Services.TokenConsumption
import McpAssistant.Services.CoordinatorThoughts
import McpAssistant.BusinessQuery.CompanionGuard
import McpAssistant.BusinessQuery.FamilyLabels
import McpAssistant.Services.WideTables
import McpAssistant.BusinessQuery.PredicateLowering
import McpAssistant.Panel.ProtocolBodies
import McpAssistant.Policy.RecordSearch
import McpAssistant.BusinessQuery.DetailIndependence
import McpAssistant.BusinessQuery.ExactBinding
import McpAssistant.Rag.Citations
import McpAssistant.Rag.DocumentPassages
import McpAssistant.Billing.AnswerFrames
import McpAssistant.Panel.StepRows
import McpAssistant.BusinessQuery.ThresholdBuckets
import McpAssistant.BusinessQuery.TokenMatching
import McpAssistant.Conversation.FairShares
import McpAssistant.BusinessQuery.AnswerFinalization
