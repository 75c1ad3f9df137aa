import SqlComposer.Connection.Basic
import SqlComposer.Rows.Record

/-!
# Running a statement

A run has three steps: it looks into the cache, calls the driver, and stores the rows. Each step
is a function of its own, so that the steps of several runs can be looked at in any order.
-/

namespace SqlComposer

variable {σ : Type}

/-- A rendered statement on its way to the driver. -/
structure Job where
  call : DriverCall
  key : String
  /-- How long the rows are kept, if they are. -/
  lifetime : Option Duration
  force : Bool

/-- Only the rows of a SELECT with a positive lifetime are kept. -/
def keptFor (kind : Kind) (lifetime : Option Duration) : Option Duration :=
  lifetime.filter fun l => kind = .select && 0 < l.nanos

def Statement.job (s : Statement) (connection sql : String) : Job where
  call := ⟨s.kind, sql, s.request.options.shape⟩
  key := cacheKey connection sql
  lifetime := keptFor s.kind s.request.options.lifetime
  force := s.request.options.force

namespace Job

/-- The first step: the cached rows, and the cache afterwards. -/
def probe (job : Job) (now : Moment) (cache : Option MemoryCache) :
    Option (List Row) × Option MemoryCache :=
  match job.lifetime, cache with
  | some _, some c =>
    if job.force then (none, some c)
    else
      let (rows, c) := c.get now job.key
      (rows, some c)
  | _, _ => (none, cache)

/-- The third step: the cache with the driver's rows in it. -/
def store (job : Job) (now : Moment) (output : Output) (cache : Option MemoryCache) :
    Outcome (Option MemoryCache) :=
  match job.lifetime, cache, output with
  | some lifetime, some c, .rows r => do return some (← c.set now job.key r.rows lifetime)
  | _, _, _ => .ok cache

def shownSql (job : Job) : String := Text.cut logLimit job.call.sql

/-- All three steps, with their events. -/
def run (job : Job) (conn : Connection σ) : Action σ Output := fun s =>
  match job.probe s.now s.cache with
  | (some rows, cache) =>
    (.ok (.rows ⟨rows, 0, true⟩),
      { s with cache }.log (.served job.call.kind job.shownSql))
  | (none, cache) =>
    let s := { s with cache }.log (.executing job.call.kind job.shownSql)
    match conn.ask job.call s with
    | (.error e, s) =>
      (.error (.error e), s.log (.failed job.call.kind job.shownSql e.message))
    | (.ok output, s) =>
      match job.store s.now output s.cache with
      | .ok cache => (.ok output, { s with cache })
      | .error e => (.error e, s)

end Job

namespace Statement

/-- Renders a statement under the rules of the connection and runs it there. -/
def execute (s : Statement) (cells : Cells) (conn : Connection σ) : Action σ Output :=
  fun session =>
    match s.toSql (cells.context conn.quoting) with
    | .ok sql => (s.job conn.name sql).run conn session
    | .error e => (.error e, session)

def fetch (s : Statement) (cells : Cells) (conn : Connection σ) : Action σ ResultSet :=
  fun session =>
    match s.execute cells conn session with
    | (.ok output, session) => (output.intoRows.mapError .error, session)
    | (.error e, session) => (.error e, session)

/-- Runs a statement and reads its rows as records. -/
def fetchRecords (s : Statement) (fields : List Field) (cells : Cells) (conn : Connection σ) :
    Action σ (List (List (Entry Value))) :=
  fun session =>
    match s.fetch cells conn session with
    | (.ok rows, session) => ((rows.toRecords fields).mapError .error, session)
    | (.error e, session) => (.error e, session)

end Statement

end SqlComposer
