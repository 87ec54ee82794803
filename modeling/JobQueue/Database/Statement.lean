import JobQueue.Database.Row

/-!
# Statements

The statements that are sent to a database, as data: each has a text and parameters. Claims skip
what others have locked, so any number of workers can share a table, and every write that ends a
claim names the owner.
-/

namespace JobQueue.Database

inductive Statement
  | begin
  | commit
  | rollback
  | createTables
  | insertJob (job : NewJob)
  | upsertRecurrent (job : NewJob)
  | deleteNotStarted (ids : List JobId)
  | deleteRecurrent (jobType : String)
  | selectJob (id : JobId)
  | claim (owner : WorkerId) (limit : Nat) (now : Instant)
  | finish (jobs : List ProcessingJob) (delete : Bool)
  | unlockJobs (ids : List JobId)
  | promoteMember (sequence : SequenceId)
  | retry (job : ProcessingJob) (scheduledAt : Instant) (error : String)
  | reschedule (job : ProcessingJob) (scheduledAt : Instant) (error : Option String)
  | fail (job : ProcessingJob) (error : String)
  | recordHeartbeat (worker : WorkerId) (now : Instant)
  | deleteDeadWorkers (staleBefore : Instant)
  | restartJobs (dead : List WorkerId)
  | selectAbandoned (dead : List WorkerId)
deriving DecidableEq

/-- Pieces of a text, with a space between them. -/
def words (pieces : List String) : String := " ".intercalate pieces

/-! ## The tables -/

/-- The definitions of the tables and of their indexes. -/
def tableDefinitions : String := words [
  "CREATE TYPE stevedore_job_status AS ENUM ( 'scheduled', 'waiting_prev', 'processing',",
  "'completed', 'failed' );",
  "CREATE TABLE stevedore_jobs ( id uuid PRIMARY KEY, job_type text NOT NULL,",
  "parameter text NOT NULL, cron text, status stevedore_job_status NOT NULL,",
  "attempt integer NOT NULL DEFAULT 0,",
  "created_at timestamptz NOT NULL DEFAULT timezone('UTC'::text, now()),",
  "scheduled_at timestamptz NOT NULL, last_started_at timestamptz, last_finished_at timestamptz,",
  "owner_id uuid, next_job_id uuid, sequence_id uuid,",
  "restart_on_crash boolean NOT NULL DEFAULT true, last_error text,",
  "CHECK (next_job_id IS NULL OR sequence_id IS NULL) );",
  "CREATE INDEX stevedore_jobs_claim_idx ON stevedore_jobs (scheduled_at, created_at)",
  "WHERE status = 'scheduled';",
  "CREATE INDEX stevedore_jobs_owner_idx ON stevedore_jobs (owner_id)",
  "WHERE status = 'processing';",
  "CREATE INDEX stevedore_jobs_sequence_idx ON stevedore_jobs",
  "(sequence_id, scheduled_at, created_at) WHERE status = 'waiting_prev';",
  "CREATE UNIQUE INDEX stevedore_jobs_recurrent_idx ON stevedore_jobs (job_type)",
  "WHERE cron IS NOT NULL;",
  "CREATE TABLE stevedore_workers ( id uuid PRIMARY KEY, heartbeat_at timestamptz NOT NULL );"]

/-! ## Columns that are written -/

/-- The columns that an insertion fills. -/
def insertColumns : List Column :=
  [.id, .jobType, .parameter, .cron, .status, .scheduledAt, .nextJobId, .sequenceId,
    .restartOnCrash]

/-- The columns that an update of a recurrent job has parameters for. -/
def upsertColumns : List Column :=
  [.id, .jobType, .parameter, .cron, .scheduledAt, .restartOnCrash]

/-- The parameters from the first to the `n`th. -/
def placeholders (n : Nat) : String :=
  ", ".intercalate ((List.range n).map fun i => "$" ++ toString (i + 1))

def columnNames (columns : List Column) : String := ", ".intercalate (columns.map (·.name))

/-! ## Texts -/

/-- The guard of a write that ends a claim. -/
def ownedGuard : String := "WHERE id = $1 AND owner_id = $2 AND status = 'processing'"

/-- The current time, as the database tells it. -/
def databaseNow : String := "timezone('UTC'::text, now())"

/-- The listed claims that are still held, and the successors that they unlock. -/
def finishedGuard : String := words [
  "UNNEST($1::uuid[], $2::uuid[]) AS finished(id, owner_id)",
  "WHERE job.id = finished.id AND job.owner_id = finished.owner_id",
  "AND job.status = 'processing' RETURNING job.next_job_id, job.sequence_id"]

namespace Statement

def text : Statement → String
  | .begin => "BEGIN"
  | .commit => "COMMIT"
  | .rollback => "ROLLBACK"
  | .createTables => tableDefinitions
  | .insertJob _ => words [
    "INSERT INTO stevedore_jobs (", columnNames insertColumns, ") VALUES",
    "(" ++ placeholders insertColumns.length ++ ")"]
  | .upsertRecurrent _ => words [
    "INSERT INTO stevedore_jobs ( id, job_type, parameter, cron, status, scheduled_at,",
    "restart_on_crash ) VALUES ($1, $2, $3, $4, 'scheduled', $5, $6)",
    "ON CONFLICT (job_type) WHERE cron IS NOT NULL DO UPDATE SET cron = EXCLUDED.cron,",
    "parameter = EXCLUDED.parameter, scheduled_at = CASE",
    "WHEN stevedore_jobs.status = 'processing' THEN stevedore_jobs.scheduled_at",
    "ELSE EXCLUDED.scheduled_at END RETURNING id"]
  | .deleteNotStarted _ =>
    "DELETE FROM stevedore_jobs WHERE id = ANY($1) AND status IN ('scheduled', 'waiting_prev')"
  | .deleteRecurrent _ => words [
    "DELETE FROM stevedore_jobs WHERE job_type = $1 AND cron IS NOT NULL",
    "AND status <> 'processing'"]
  | .selectJob _ => "SELECT * FROM stevedore_jobs WHERE id = $1"
  | .claim .. => words [
    "UPDATE stevedore_jobs SET status = 'processing', owner_id = $1, attempt = attempt + 1,",
    "last_started_at = $3 WHERE id IN ( SELECT id FROM stevedore_jobs",
    "WHERE status = 'scheduled' AND scheduled_at <= $3 ORDER BY scheduled_at, created_at",
    "LIMIT $2 FOR UPDATE SKIP LOCKED ) RETURNING *"]
  | .finish _ true => words ["DELETE FROM stevedore_jobs AS job USING", finishedGuard]
  | .finish _ false => words [
    "UPDATE stevedore_jobs AS job SET status = 'completed', owner_id = NULL,",
    "last_finished_at =", databaseNow, "FROM", finishedGuard]
  | .unlockJobs _ => words [
    "UPDATE stevedore_jobs SET status = 'scheduled' WHERE id = ANY($1)",
    "AND status = 'waiting_prev'"]
  | .promoteMember _ => words [
    "UPDATE stevedore_jobs SET status = 'scheduled' WHERE id = ( SELECT id FROM stevedore_jobs",
    "WHERE sequence_id = $1 AND status = 'waiting_prev' ORDER BY scheduled_at, created_at",
    "LIMIT 1 FOR UPDATE )"]
  | .retry .. => words [
    "UPDATE stevedore_jobs SET status = 'scheduled', owner_id = NULL, scheduled_at = $3,",
    "last_error = $4, last_finished_at =", databaseNow, ownedGuard]
  | .reschedule .. => words [
    "UPDATE stevedore_jobs SET status = 'scheduled', owner_id = NULL, attempt = 0,",
    "scheduled_at = $3, last_error = $4, last_finished_at =", databaseNow, ownedGuard]
  | .fail .. => words [
    "UPDATE stevedore_jobs SET status = 'failed', owner_id = NULL,",
    "last_finished_at =", databaseNow ++ ",", "last_error = $3", ownedGuard]
  | .recordHeartbeat .. => words [
    "INSERT INTO stevedore_workers (id, heartbeat_at) VALUES ($1, $2)",
    "ON CONFLICT (id) DO UPDATE SET heartbeat_at = EXCLUDED.heartbeat_at"]
  | .deleteDeadWorkers _ => "DELETE FROM stevedore_workers WHERE heartbeat_at < $1 RETURNING id"
  | .restartJobs _ => words [
    "UPDATE stevedore_jobs SET status = 'scheduled', owner_id = NULL,",
    "attempt = GREATEST(attempt - 1, 0) WHERE status = 'processing' AND owner_id = ANY($1)",
    "AND restart_on_crash RETURNING id, job_type"]
  | .selectAbandoned _ => words [
    "SELECT id, job_type FROM stevedore_jobs WHERE status = 'processing'",
    "AND owner_id = ANY($1) AND NOT restart_on_crash"]

/-! ## Parameters -/

def time (t : Instant) : Value := .timestamp (.ofInstant t)

/-- The parameters of the guard of a claim. -/
def claimParams (p : ProcessingJob) : List Value := [.uuid p.id.uuid, .uuid p.owner.uuid]

def params : Statement → List Value
  | .begin => []
  | .commit => []
  | .rollback => []
  | .createTables => []
  | .insertJob job => insertColumns.map (Cells.ofNewJob job).value
  | .upsertRecurrent job => upsertColumns.map (Cells.ofNewJob job).value
  | .deleteNotStarted ids => [.uuids (ids.map (·.uuid))]
  | .deleteRecurrent jobType => [.text jobType]
  | .selectJob id => [.uuid id.uuid]
  | .claim owner limit now => [.uuid owner.uuid, .integer limit, time now]
  | .finish jobs _ => [.uuids (jobs.map (·.id.uuid)), .uuids (jobs.map (·.owner.uuid))]
  | .unlockJobs ids => [.uuids (ids.map (·.uuid))]
  | .promoteMember sequence => [.uuid sequence.uuid]
  | .retry job scheduledAt error => claimParams job ++ [time scheduledAt, .text error]
  | .reschedule job scheduledAt error =>
    claimParams job ++ [time scheduledAt, .ofOption .text error]
  | .fail job error => claimParams job ++ [.text error]
  | .recordHeartbeat worker now => [.uuid worker.uuid, time now]
  | .deleteDeadWorkers staleBefore => [time staleBefore]
  | .restartJobs dead => [.uuids (dead.map (·.uuid))]
  | .selectAbandoned dead => [.uuids (dead.map (·.uuid))]

end Statement

end JobQueue.Database
