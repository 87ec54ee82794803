import JobQueue.Database.Session

/-!
# Migrations

Before a database is used its tables are created. The database records what was done, so this
happens once; and what it has recorded must fit what is known here.
-/

namespace JobQueue.Database

/-- Why the tables of a database cannot be brought up to date. -/
inductive MigrationError
  | unfinished (version : Int)
  | unknown (version : Int)
  | changed (version : Int)
  | failed (fault : Fault)
deriving DecidableEq

namespace MigrationError

def message : MigrationError → String
  | .unfinished version => "migration " ++ toString version ++
    " is partially applied; fix and remove row from `_sqlx_migrations` table"
  | .unknown version => "migration " ++ toString version ++
    " was previously applied but is missing in the resolved migrations"
  | .changed version => "migration " ++ toString version ++
    " was previously applied but has been modified"
  | .failed fault => "while executing migrations: " ++ fault.message

def toBackend (e : MigrationError) : BackendError := .storage e.message

end MigrationError

/-- The version of the tables. -/
def tablesVersion : Int := 20240501000000

open Session

/-- Fails if no connection can be made. -/
def connect : Query Fault Unit := ExceptT.mk fun s =>
  match s.refusal with
  | some e => (.error (.database e), s)
  | none => (.ok (), s)

/-- Creates the tables, and lets the database record it. -/
def createTables : Query Fault Unit := do
  let _ ← transaction id (send .createTables)
  modify fun s => { s with applied := s.applied ++ [⟨tablesVersion, true⟩] }

/-- Brings the tables up to date. -/
def migrate : Query MigrationError Unit := do
  connect.failingAs .failed
  let s ← get
  match s.unfinished, s.applied.find? (·.version ≠ tablesVersion), s.applied.getLast? with
  | some version, _, _ => throw (.unfinished version)
  | none, some other, _ => throw (.unknown other.version)
  | none, none, some last => if last.unchanged then return () else throw (.changed last.version)
  | none, none, none => createTables.failingAs .failed

end JobQueue.Database
