import SqlComposer.Connection.Execution
import SqlComposer.Postgres.Decode
import SqlComposer.Settings

/-!
# The Postgres adapter

A SELECT is prepared for the types of its columns and then run for its rows as text. Other
statements of a main kind are prepared and run for the number of rows they concern. Everything
else is sent as it is.
-/

namespace SqlComposer.Postgres

/-- Why a server does not answer. -/
inductive Fault where
  | server (code message : String)
  | closed
deriving DecidableEq, Repr

def Fault.error : Fault → Error
  | .server code message => .execution (some code) message
  | .closed => .connection "connection closed"

/-- What a server can be asked, and how each question changes it. -/
structure Backend (σ : Type) where
  prepare : String → σ → Except Fault (List Column) × σ
  /-- The rows of a statement that is sent as text. -/
  rows : String → σ → Except Fault (List (List (Option String))) × σ
  /-- Runs the statement prepared last, for its command tag. -/
  run : σ → Except Fault String × σ

variable {σ : Type}

/-- The number at the end of a command tag. -/
def tagCount (tag : String) : Nat :=
  match (Text.splitAt ' ' tag.toList).getLast? with
  | some word => (Decimal.readCount? (String.ofList word)).getD 0
  | none => 0

def Backend.select (b : Backend σ) (sql : String) (s : σ) : Except Error Output × σ :=
  match b.prepare sql s with
  | (.error e, s) => (.error e.error, s)
  | (.ok columns, s) =>
    match b.rows sql s with
    | (.error e, s) => (.error e.error, s)
    | (.ok rows, s) => ((rows.mapM (decodeRow columns)).map (.rows ⟨·, 0, false⟩), s)

/-- Runs a statement for the number of rows it concerns. -/
def Backend.modify (b : Backend σ) (sql : String) (s : σ) : Except Error Nat × σ :=
  match b.prepare sql s with
  | (.error e, s) => (.error e.error, s)
  | (.ok _, s) =>
    let (tag, s) := b.run s
    ((tag.map tagCount).mapError (·.error), s)

def Backend.answer (b : Backend σ) (call : DriverCall) (s : σ) : Except Error Output × σ :=
  match call.kind with
  | .select => b.select call.sql s
  | .insert =>
    let (count, s) := b.modify call.sql s
    (count.map (.inserted none), s)
  | .update | .delete =>
    let (count, s) := b.modify call.sql s
    (count.map .affected, s)
  | .other =>
    let (rows, s) := b.rows call.sql s
    ((rows.map fun _ => .affected 0).mapError (·.error), s)

/-- The quoting rules: the standard ones, with the words TRUE and FALSE. -/
def quoting (tablePrefix : String) : Quoting :=
  { Dialect.standard.quoting tablePrefix with boolText := fun b => if b then "TRUE" else "FALSE" }

def connection (b : Backend σ) (settings : Settings) : Connection σ :=
  ⟨settings.name, quoting settings.tablePrefix, b.answer⟩

/-- A session with a server that has been reached, with a cache if the settings want one. -/
def openSession (settings : Settings) (now : Moment) (server : σ) : Session σ where
  server := server
  cache := if settings.caching then some (.empty settings.cacheCapacity) else none
  now := now
  events := []

/-- Opens a session and logs it, or tells why the server cannot be reached. -/
def connect (settings : Settings) (now : Moment) (reached : Except String σ) :
    Except Error (Session σ) :=
  match reached with
  | .ok server => .ok ((openSession settings now server).log (.connected settings.name))
  | .error reason => .error (.connection reason)

end SqlComposer.Postgres
