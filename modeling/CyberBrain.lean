import CyberBrain.AgentAdapter.Recall
import CyberBrain.Backup.Service
import CyberBrain.Cognition.ConceptEvidence
import CyberBrain.Cognition.Prediction
import CyberBrain.Cognition.Recording
import CyberBrain.Cognition.Retries
import CyberBrain.Cognition.ScopeMarkers
import CyberBrain.Cognition.Truncation
import CyberBrain.Concepts.Discovery
import CyberBrain.Concepts.Groups
import CyberBrain.Concepts.Models
import CyberBrain.Concepts.Registry
import CyberBrain.Core.Content
import CyberBrain.Core.Errors
import CyberBrain.Core.TokenBudget
import CyberBrain.Dreaming.Agreement
import CyberBrain.Dreaming.Assembly
import CyberBrain.Dreaming.Attempts
import CyberBrain.Dreaming.Audit
import CyberBrain.Dreaming.Candidates
import CyberBrain.Dreaming.CompletedRuns
import CyberBrain.Dreaming.EvolutionGroups
import CyberBrain.Dreaming.EvolutionOrder
import CyberBrain.Dreaming.Excerpts
import CyberBrain.Dreaming.FallbackParsing
import CyberBrain.Dreaming.FirstCompletion
import CyberBrain.Dreaming.Gate
import CyberBrain.Dreaming.Grouping
import CyberBrain.Dreaming.InboxChanges
import CyberBrain.Dreaming.KeptResults
import CyberBrain.Dreaming.Leases
import CyberBrain.Dreaming.NearDuplicates
import CyberBrain.Dreaming.Orchestration
import CyberBrain.Dreaming.Ownership
import CyberBrain.Dreaming.Partitions
import CyberBrain.Dreaming.Promotion
import CyberBrain.Dreaming.Queue
import CyberBrain.Dreaming.ReasonTaskInbox
import CyberBrain.Dreaming.Recency
import CyberBrain.Dreaming.RecordedWrites
import CyberBrain.Dreaming.RelationLinking
import CyberBrain.Dreaming.Relevance
import CyberBrain.Dreaming.Retirement
import CyberBrain.Dreaming.ReviewCalls
import CyberBrain.Dreaming.ReviewPages
import CyberBrain.Dreaming.RunCounts
import CyberBrain.Dreaming.RunReasoner
import CyberBrain.Dreaming.Scheduler
import CyberBrain.Dreaming.Sessions
import CyberBrain.Dreaming.StoredTimes
import CyberBrain.Dreaming.Workers
import CyberBrain.Dreaming.Writeback
import CyberBrain.Foundation.Base64
import CyberBrain.Foundation.Binary64
import CyberBrain.Foundation.BoundedReads
import CyberBrain.Foundation.DateTime
import CyberBrain.Foundation.DateTimeReading
import CyberBrain.Foundation.DecimalRounding
import CyberBrain.Foundation.Delimited
import CyberBrain.Foundation.Digests
import CyberBrain.Foundation.Digits
import CyberBrain.Foundation.Double
import CyberBrain.Foundation.Except
import CyberBrain.Foundation.Filter
import CyberBrain.Foundation.FrozenSet
import CyberBrain.Foundation.Grouped
import CyberBrain.Foundation.Json
import CyberBrain.Foundation.JsonGrammar
import CyberBrain.Foundation.JsonNesting
import CyberBrain.Foundation.JsonPrinting
import CyberBrain.Foundation.JsonReading
import CyberBrain.Foundation.KeyedLock
import CyberBrain.Foundation.Lines
import CyberBrain.Foundation.Lists
import CyberBrain.Foundation.Loops
import CyberBrain.Foundation.Paging
import CyberBrain.Foundation.Patterns
import CyberBrain.Foundation.Printing
import CyberBrain.Foundation.Program
import CyberBrain.Foundation.Python
import CyberBrain.Foundation.PythonPrinting
import CyberBrain.Foundation.Run
import CyberBrain.Foundation.Scoring
import CyberBrain.Foundation.SelfMeasuring
import CyberBrain.Foundation.Sql
import CyberBrain.Foundation.Table
import CyberBrain.Foundation.Uuid
import CyberBrain.Knowledge.Chain
import CyberBrain.Knowledge.Conflicts
import CyberBrain.Knowledge.Evolution
import CyberBrain.Knowledge.Heads
import CyberBrain.Knowledge.Histories
import CyberBrain.Knowledge.Locking
import CyberBrain.Knowledge.Lookup
import CyberBrain.Knowledge.Outcomes
import CyberBrain.Knowledge.Projections
import CyberBrain.Knowledge.Reconciliation
import CyberBrain.Knowledge.Recovery
import CyberBrain.Knowledge.Repository
import CyberBrain.Knowledge.Reviews
import CyberBrain.Knowledge.Runs
import CyberBrain.Knowledge.Storing
import CyberBrain.Knowledge.Timeline
import CyberBrain.Lifecycle.Evaluator
import CyberBrain.Lifecycle.Hysteresis
import CyberBrain.Lifecycle.Models
import CyberBrain.Lifecycle.Service
import CyberBrain.Memory.Service
import CyberBrain.Migrations.Legacy
import CyberBrain.Migrations.Repairs
import CyberBrain.ReasonerProvider.Contracts
import CyberBrain.Reasoning.Chains
import CyberBrain.Reasoning.Counterfactual
import CyberBrain.Reasoning.Engine
import CyberBrain.Reasoning.Models
import CyberBrain.Reasoning.Paths
import CyberBrain.Reasoning.Proposals
import CyberBrain.Reasoning.Symmetry
import CyberBrain.Reasoning.Transitivity
import CyberBrain.Relations.Adjacency
import CyberBrain.Relations.Admissible
import CyberBrain.Relations.Admission
import CyberBrain.Relations.Answers
import CyberBrain.Relations.Canonical
import CyberBrain.Relations.Census
import CyberBrain.Relations.Dream
import CyberBrain.Relations.DreamGrounding
import CyberBrain.Relations.Grounding
import CyberBrain.Relations.HeadMap
import CyberBrain.Relations.Index
import CyberBrain.Relations.Levels
import CyberBrain.Relations.Maintenance
import CyberBrain.Relations.Models
import CyberBrain.Relations.Partition
import CyberBrain.Relations.Query
import CyberBrain.Relations.Recall
import CyberBrain.Relations.RecallBudget
import CyberBrain.Relations.Reordering
import CyberBrain.Relations.Review
import CyberBrain.Relations.RoundTrip
import CyberBrain.Relations.Search
import CyberBrain.Relations.Storage
import CyberBrain.Relations.StorageOrder
import CyberBrain.Relations.Traversal
import CyberBrain.Relations.TraversalLimits
import CyberBrain.Retrieval.Fusion
import CyberBrain.Retrieval.Lexical
import CyberBrain.Retrieval.Runtime
import CyberBrain.Retrieval.Searches
import CyberBrain.Salience.Advisor
import CyberBrain.Salience.Scorer
import CyberBrain.Schemas.Models
import CyberBrain.SelfModel.Evidence
import CyberBrain.SelfModel.Resolution
import CyberBrain.Tenancy.Attribution
import CyberBrain.Tenancy.Durable
import CyberBrain.Tenancy.Enforcement
import CyberBrain.Tenancy.Limiter
import CyberBrain.Tenancy.Models
import CyberBrain.Tenancy.Normalization
import CyberBrain.Tenancy.Quota
import CyberBrain.Tenancy.Runtime
import CyberBrain.WorkingMemory.Histories
import CyberBrain.WorkingMemory.Models
import CyberBrain.WorkingMemory.Policy
import CyberBrain.WorkingMemory.Selection
import CyberBrain.WorkingMemory.Service
import CyberBrain.WorkingMemory.Sessions
