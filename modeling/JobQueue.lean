import JobQueue.Backend.Fault
import JobQueue.Contract.Defect
import JobQueue.Database.Backend
import JobQueue.Database.Migration
import JobQueue.Handler.Catalog
import JobQueue.Job.Sequence
import JobQueue.RetryQueue
import JobQueue.Store.Changes
import JobQueue.Worker.Timeline
import JobQueue.Proofs.Store.Batch
import JobQueue.Proofs.Store.Bulk
import JobQueue.Proofs.Store.Diagram
import JobQueue.Proofs.Store.Recovery
import JobQueue.Proofs.Store.Recurrent
import JobQueue.Proofs.Sequence.Stranded
import JobQueue.Proofs.Sequence.Spacing
import JobQueue.Proofs.Fleet.Reclaim
import JobQueue.Proofs.Parameter
import JobQueue.Proofs.Retry.Jitter
import JobQueue.Proofs.Worker.Budget
import JobQueue.Proofs.Worker.LastReplay
import JobQueue.Proofs.Worker.LateClaims
import JobQueue.Proofs.Worker.Observed
import JobQueue.Proofs.Worker.Recurrence
import JobQueue.Proofs.Worker.Sufficient
import JobQueue.Proofs.Worker.Timeline
import JobQueue.Proofs.Database.Successors
import JobQueue.Proofs.Database.Claim
import JobQueue.Proofs.Cron.Occurrence
import JobQueue.Proofs.Store.Reclaim
import JobQueue.Proofs.Store.Claim
import JobQueue.Proofs.Batching.Answers
