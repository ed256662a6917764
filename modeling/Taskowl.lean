import Taskowl.Isolation
import Taskowl.Concurrent
import Taskowl.Periodic
import Taskowl.Redelivery
import Taskowl.Replication
import Taskowl.OrderFree
import Taskowl.RetryFamilies
import Taskowl.AutomationStore
import Taskowl.Maintenance
import Taskowl.OrphanVerdict
import Taskowl.Pruning
import Taskowl.Sequential
import Taskowl.Retention
import Taskowl.Edits
import Taskowl.AuditLog
import Taskowl.Lib.Samples
import Taskowl.Metrics
import Taskowl.Counters
import Taskowl.WorkerMetrics
import Taskowl.Durations
import Taskowl.TaskViews
import Taskowl.ChainParents
import Taskowl.SummaryCounts
import Taskowl.Lib.Interleave
import Taskowl.PrunePasses
import Taskowl.PruneEnds
import Taskowl.RetryLineage
import Taskowl.OfflineSweeps
import Taskowl.Lib.Pages
import Taskowl.Paging
import Taskowl.CircuitStatus
import Taskowl.ConditionTable
import Taskowl.Interpolation
import Taskowl.ActionParams
import Taskowl.Revocation
import Taskowl.Search
import Taskowl.DedupeKeys
import Taskowl.SeedingEnds
import Taskowl.LiveEvents
import Taskowl.Timeline
import Taskowl.Lib.Emit
import Taskowl.RunLog
import Taskowl.Outbox
import Taskowl.Registry
import Taskowl.RoundTrip
import Taskowl.Api
import Taskowl.Gateway
import Taskowl.Doors
import Taskowl.Lib.Upsert
import Taskowl.Ingesting
import Taskowl.IngestEnds
import Taskowl.LivePages
import Taskowl.Flights
import Taskowl.Retired
import Taskowl.Deleted
