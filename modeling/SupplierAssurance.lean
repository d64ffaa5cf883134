import SupplierAssurance.Lib.Transition
import SupplierAssurance.Lib.Table
import SupplierAssurance.Lib.Sha1
import SupplierAssurance.Python.Uuid
import SupplierAssurance.Python.Json
import SupplierAssurance.Python.JsonLoads
import SupplierAssurance.Schemas
import SupplierAssurance.Governance.Repository
import SupplierAssurance.Governance.Service
import SupplierAssurance.Outbox.Repository
import SupplierAssurance.Outbox.Dispatcher
import SupplierAssurance.System
import SupplierAssurance.Governance.Lifecycle
import SupplierAssurance.Outbox.Delivery
import SupplierAssurance.Outbox.Lease
import SupplierAssurance.Outbox.ExactlyOnce
import SupplierAssurance.Governance.Receipts
import SupplierAssurance.Governance.InMemory
import SupplierAssurance.Governance.Proposals
import SupplierAssurance.Graphs.SupplierReview
import SupplierAssurance.Graphs.Evidence
import SupplierAssurance.Graphs.Workflow
import SupplierAssurance.Graphs.Execution
import SupplierAssurance.Graphs.ConcurrentStarts
import SupplierAssurance.Api.ReviewExecutions
import SupplierAssurance.Api.Decisions
import SupplierAssurance.Lib.Loop
import SupplierAssurance.Python.Text
import SupplierAssurance.Python.Str
import SupplierAssurance.Retrieval.Chunking
import SupplierAssurance.Governance.AuditTrail
import SupplierAssurance.Governance.Agreement
import SupplierAssurance.Governance.Creation
import SupplierAssurance.Api.Recovery
import SupplierAssurance.Api.Redelivery
import SupplierAssurance.Governance.InMemoryService
import SupplierAssurance.Governance.Sequential
import SupplierAssurance.Governance.Double
import SupplierAssurance.Api.Endpoints
import SupplierAssurance.Api.Tenants
import SupplierAssurance.Api.Observations
import SupplierAssurance.Api.States
import SupplierAssurance.Api.Noninterference
import SupplierAssurance.Lib.Infix
import SupplierAssurance.ModelGateway.Deterministic
import SupplierAssurance.Graphs.Offline
import SupplierAssurance.Governance.Proposable
import SupplierAssurance.Persistence.Latest
import SupplierAssurance.Graphs.Storage
import SupplierAssurance.Persistence.ConcurrentSaves
import SupplierAssurance.Outbox.RetrySchedule
import SupplierAssurance.Outbox.Batches
import SupplierAssurance.Retrieval.Sections
import SupplierAssurance.Retrieval.Coverage
import SupplierAssurance.Retrieval.Overlap
import SupplierAssurance.Outbox.Steps
import SupplierAssurance.Retrieval.Service
import SupplierAssurance.Identity.Authentication
import SupplierAssurance.Governance.Atomicity
import SupplierAssurance.Retrieval.Cuts
import SupplierAssurance.Retrieval.Repetition
import SupplierAssurance.Retrieval.Headings
import SupplierAssurance.Persistence.DatabaseUrls
import SupplierAssurance.Persistence.Records
import SupplierAssurance.Persistence.Repository
import SupplierAssurance.Persistence.RoundTrip
import SupplierAssurance.Persistence.Refinement
import SupplierAssurance.Lib.StatesLanguage
import SupplierAssurance.Workflows.ApprovalStatus
import SupplierAssurance.Workflows.ApprovalExecutions
import SupplierAssurance.Outbox.Draining
import SupplierAssurance.Lib.Nearest
import SupplierAssurance.Retrieval.PgVector
import SupplierAssurance.Retrieval.Indexing
import SupplierAssurance.Retrieval.Search
import SupplierAssurance.Retrieval.Agreement
import SupplierAssurance.Api.Server
import SupplierAssurance.Api.History
import SupplierAssurance.Api.Accounting
import SupplierAssurance.Api.Provenance
import SupplierAssurance.Api.Evidence
