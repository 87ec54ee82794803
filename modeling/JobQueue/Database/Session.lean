import JobQueue.Database.Statement

/-!
# Sessions

A session is a conversation with a database: what the database is going to reply, and what has been
sent so far. A query is an operation of which every statement takes a reply; a transaction is a
query between a beginning and an end, of which nothing remains if it fails.
-/

namespace JobQueue.Database

/-- An error that the database replies with. -/
structure DatabaseError where
  code : String
  message : String
deriving DecidableEq

/-- A reply: the records of a result, and how many records were affected. -/
structure Reply where
  records : List Cells := []
  affected : Nat := 0
deriving DecidableEq

/-- A migration that a database has recorded. -/
structure AppliedMigration where
  version : Int
  /-- Whether its text is the one that is known. -/
  unchanged : Bool
deriving DecidableEq

structure Session where
  /-- The error with which the database refuses every connection. -/
  refusal : Option DatabaseError := none
  /-- The replies to come. After the last one all replies are empty. -/
  replies : List (Except DatabaseError Reply) := []
  beginError : Option DatabaseError := none
  commitError : Option DatabaseError := none
  /-- What the database has recorded of migrations. -/
  applied : List AppliedMigration := []
  /-- The migration that the database has begun and not ended. -/
  unfinished : Option Int := none
  /-- The statements in the order in which they were sent. -/
  log : List Statement := []

/-- Why a query fails. -/
inductive Fault
  | database (e : DatabaseError)
  | noRow
  | decode (e : DecodeError)
deriving DecidableEq

namespace Fault

def message : Fault → String
  | .database e => "error returned from database: " ++ e.message
  | .noRow => "no rows returned by a query that expected to return at least one row"
  | .decode e => e.message

def toBackend (f : Fault) : BackendError := .storage f.message

/-- The code of the error for a value that has to be unique and is not. -/
def uniqueViolation : String := "23505"

/-- A fault of the insertion of a job, which may be there already. -/
def toInsert (id : JobId) : Fault → BackendError
  | .database e => if e.code = uniqueViolation then .duplicateJob id else (database e).toBackend
  | f => f.toBackend

end Fault

/-- A query runs in a session and may fail. -/
abbrev Query (ε : Type) : Type → Type := ExceptT ε (StateM Session)

namespace Query

/-- Changes the kind of failure. -/
def failingAs {ε φ α : Type} (q : Query ε α) (f : ε → φ) : Query φ α := ExceptT.adapt f q

def ofExcept {ε α : Type} (r : Except ε α) : Query ε α := ExceptT.mk (pure r)

end Query

namespace Session

def record (s : Session) (st : Statement) : Session := { s with log := s.log ++ [st] }

/-- Sends a statement and takes the next reply. -/
def send (st : Statement) : Query Fault Reply := ExceptT.mk fun s =>
  match s.refusal with
  | some e => (.error (.database e), s)
  | none =>
    let s := s.record st
    match s.replies with
    | [] => (.ok {}, s)
    | .ok reply :: rest => (.ok reply, { s with replies := rest })
    | .error e :: rest => (.error (.database e), { s with replies := rest })

/-- Begins a transaction. One that cannot be begun is rolled back. -/
def begin : Query Fault Unit := ExceptT.mk fun s =>
  match s.refusal with
  | some e => (.error (.database e), s)
  | none =>
    let s := s.record .begin
    match s.beginError with
    | some e => (.error (.database e), { s with beginError := none }.record .rollback)
    | none => (.ok (), s)

/-- Commits a transaction. One that cannot be committed is rolled back. -/
def commit : Query Fault Unit := ExceptT.mk fun s =>
  let s := s.record .commit
  match s.commitError with
  | some e => (.error (.database e), { s with commitError := none }.record .rollback)
  | none => (.ok (), s)

/-- Runs a query as a transaction. -/
def transaction {ε α : Type} (failure : Fault → ε) (body : Query ε α) : Query ε α := do
  begin.failingAs failure
  let a ← ExceptT.mk fun s =>
    match body.run s with
    | (.ok a, s) => (.ok a, s)
    | (.error e, s) => (.error e, s.record .rollback)
  commit.failingAs failure
  return a

/-- Sends a statement and reads all records of the result, up to the first that cannot be read. -/
def fetch {α : Type} (st : Statement) (read : Cells → Except DecodeError α) :
    Query Fault (List α) := do
  let reply ← send st
  .ofExcept ((reply.records.mapM read).mapError .decode)

/-- Sends a statement and reads the first record of the result, if there is one. -/
def fetchFirst? {α : Type} (st : Statement) (read : Cells → Except DecodeError α) :
    Query Fault (Option α) := do
  let reply ← send st
  match reply.records with
  | [] => return none
  | first :: _ => .ofExcept (((read first).map some).mapError .decode)

/-- Sends a statement and reads the first record of the result, which has to be there. -/
def fetchFirst {α : Type} (st : Statement) (read : Cells → Except DecodeError α) :
    Query Fault α := do
  match ← fetchFirst? st read with
  | some a => return a
  | none => throw .noRow

/-- Sends a statement and counts the records that it affected. -/
def execute (st : Statement) : Query Fault Nat := do return (← send st).affected

end Session

end JobQueue.Database
