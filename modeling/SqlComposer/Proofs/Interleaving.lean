import Mathlib.Logic.Function.Basic
import SqlComposer.Connection.Execution

/-!
# Executions side by side

Any number of statements are executed on one connection. Each of them takes its steps in order, and
the steps of different ones come in any order. Between two steps time may pass.
-/

namespace SqlComposer

/-- A statement to be executed, with what its cells hold when it is rendered. -/
structure Errand where
  statement : Statement
  cells : Cells

/-- How far an execution has come. -/
inductive Phase where
  | ready
  /-- Nothing was in the cache, so the driver is next. -/
  | asking (job : Job)
  | storing (job : Job) (output : Output)
  | ended (result : Outcome Output)

/-- What an execution does to the cache or to the driver. -/
inductive Act where
  | missed (sql : String)
  | served (sql : String) (rows : List Row)
  | called (call : DriverCall) (answer : Except Error Output)
  | stored (sql : String) (rows : List Row) (lifetime : Duration)
  /-- Nothing is stored, as the clock cannot name the end of the lifetime. -/
  | overflown (lifetime : Duration)

namespace Act

def call? : Act → Option (DriverCall × Except Error Output)
  | .called call answer => some (call, answer)
  | _ => none

def isRead : Act → Bool
  | .missed _ | .served _ _ => true
  | _ => false

end Act

/-! ## One execution -/

variable {σ : Type}

structure Turn (σ : Type) where
  session : Session σ
  phase : Phase
  act : Option Act

namespace Job

def reads (job : Job) : Bool := job.lifetime.isSome && !job.force

def missed (job : Job) : Option Act := if job.reads then some (.missed job.call.sql) else none

def stored (job : Job) (output : Output) : Option Act :=
  match job.lifetime, output with
  | some lifetime, .rows r => some (.stored job.call.sql r.rows lifetime)
  | _, _ => none

def look (job : Job) (s : Session σ) : Turn σ :=
  match job.probe s.now s.cache with
  | (some rows, cache) =>
    ⟨{ s with cache }.log (.served job.call.kind job.shownSql),
      .ended (.ok (.rows ⟨rows, 0, true⟩)), some (.served job.call.sql rows)⟩
  | (none, cache) =>
    ⟨{ s with cache }.log (.executing job.call.kind job.shownSql), .asking job, job.missed⟩

def consult (job : Job) (conn : Connection σ) (s : Session σ) : Turn σ :=
  match conn.ask job.call s with
  | (.error e, s) =>
    ⟨s.log (.failed job.call.kind job.shownSql e.message), .ended (.error (.error e)),
      some (.called job.call (.error e))⟩
  | (.ok output, s) => ⟨s, .storing job output, some (.called job.call (.ok output))⟩

def keep (job : Job) (output : Output) (s : Session σ) : Turn σ :=
  match job.store s.now output s.cache with
  | .ok cache => ⟨{ s with cache }, .ended (.ok output), job.stored output⟩
  | .error e => ⟨s, .ended (.error e), job.lifetime.map .overflown⟩

end Job

namespace Errand

variable (e : Errand) (conn : Connection σ)

def sql : Outcome String := e.statement.toSql (e.cells.context conn.quoting)

def job (sql : String) : Job := e.statement.job conn.name sql

def call (sql : String) : DriverCall :=
  ⟨e.statement.kind, sql, e.statement.request.options.shape⟩

def turn (s : Session σ) : Phase → Turn σ
  | .ready =>
    match e.sql conn with
    | .ok sql => (e.job conn sql).look s
    | .error failure => ⟨s, .ended (.error failure), none⟩
  | .asking job => job.consult conn s
  | .storing job output => job.keep output s
  | .ended result => ⟨s, .ended result, none⟩

/-- The steps of an execution that nothing comes between. -/
def turns : Nat → Turn σ → Turn σ
  | 0, t => t
  | n + 1, t => turns n (e.turn conn t.session t.phase)

/-- Three steps in a row are an execution. -/
theorem turns_eq_execute (s : Session σ) :
    (e.turns conn 3 ⟨s, .ready, none⟩).phase =
        .ended (e.statement.execute e.cells conn s).1 ∧
      (e.turns conn 3 ⟨s, .ready, none⟩).session = (e.statement.execute e.cells conn s).2 := by
  unfold Statement.execute
  simp only [turns, turn]
  cases hsql : e.sql conn with
  | error failure =>
    unfold Errand.sql at hsql
    rw [hsql]
    exact ⟨rfl, rfl⟩
  | ok sql =>
    have hsql' : e.statement.toSql (e.cells.context conn.quoting) = .ok sql := hsql
    rw [hsql']
    simp only [Job.run, Job.look, Errand.job]
    rcases hprobe : (e.statement.job conn.name sql).probe s.now s.cache with ⟨_ | rows, cache⟩
    · simp only [Job.consult]
      rcases conn.ask _ _ with ⟨failure | output, s'⟩
      · exact ⟨rfl, rfl⟩
      · simp only [Job.keep]
        cases (e.statement.job conn.name sql).store s'.now output s'.cache with
        | ok cache => exact ⟨rfl, rfl⟩
        | error failure => exact ⟨rfl, rfl⟩
    · exact ⟨rfl, rfl⟩

end Errand

/-! ## All executions -/

/-- An act with the execution it belongs to. -/
structure Deed (ι : Type) where
  owner : ι
  moment : Moment
  act : Act

structure World (σ ι : Type) where
  session : Session σ
  phase : ι → Phase
  /-- What was done so far, the last deed first. -/
  history : List (Deed ι)

inductive Move (ι : Type) where
  | wait (d : Duration)
  | turn (i : ι)

namespace World

variable {ι : Type} [DecidableEq ι] (conn : Connection σ) (errands : ι → Errand)

def start (server : σ) (capacity : Nat) (now : Moment) : World σ ι :=
  ⟨⟨server, some (.empty capacity), now, []⟩, fun _ => .ready, []⟩

def move (w : World σ ι) : Move ι → World σ ι
  | .wait d => { w with session := { w.session with now := w.session.now + d.nanos } }
  | .turn i =>
    let t := (errands i).turn conn w.session (w.phase i)
    ⟨t.session, Function.update w.phase i t.phase,
      (t.act.map (⟨i, w.session.now, ·⟩)).toList ++ w.history⟩

def run (w : World σ ι) (moves : List (Move ι)) : World σ ι := moves.foldl (move conn errands) w

/-- What an execution has done, the last act first. -/
def acts (w : World σ ι) (i : ι) : List Act :=
  (w.history.filter (·.owner = i)).map (·.act)

end World

end SqlComposer
