import SqlComposer.Cache
import SqlComposer.Rows.ResultSet
import SqlComposer.Statement
import SqlComposer.Text.Cut

/-!
# Connections

A connection has a name, quoting rules, and a driver that answers statements. Everything a run
changes is in its session: the server behind the driver, the result cache, the clock, and the log.
-/

namespace SqlComposer

/-! ## Isolation levels -/

inductive IsolationLevel where
  | readUncommitted
  | readCommitted
  | repeatableRead
  | serializable
deriving DecidableEq, Repr

def IsolationLevel.sql : IsolationLevel → String
  | .readUncommitted => "READ UNCOMMITTED"
  | .readCommitted => "READ COMMITTED"
  | .repeatableRead => "REPEATABLE READ"
  | .serializable => "SERIALIZABLE"

def beginSql : Option IsolationLevel → String
  | some level => "START TRANSACTION ISOLATION LEVEL " ++ level.sql
  | none => "START TRANSACTION"

/-! ## The log -/

/-- How many bytes of a statement an event shows. -/
def logLimit : Nat := 200

inductive Event where
  /-- The driver is about to be called. -/
  | executing (kind : Kind) (sql : String)
  /-- The rows come from the cache. -/
  | served (kind : Kind) (sql : String)
  | failed (kind : Kind) (sql error : String)
  | connected (name : String)
deriving DecidableEq, Repr

/-! ## Sessions -/

structure DriverCall where
  kind : Kind
  sql : String
  shape : Shape
deriving DecidableEq, Repr

structure Connection (σ : Type) where
  name : String
  quoting : Quoting
  /-- The answer to a call, and the server behind it afterwards. -/
  answer : DriverCall → σ → Except Error Output × σ

structure Session (σ : Type) where
  server : σ
  cache : Option MemoryCache
  now : Moment
  /-- What was logged, in order. -/
  events : List Event

/-- Something that runs in a session and may fail half way. -/
abbrev Action (σ α : Type) := Session σ → Outcome α × Session σ

variable {σ α : Type}

def Session.log (s : Session σ) (e : Event) : Session σ := { s with events := s.events ++ [e] }

namespace Connection

def ask (conn : Connection σ) (call : DriverCall) (s : Session σ) :
    Except Error Output × Session σ :=
  let (answer, server) := conn.answer call s.server
  (answer, { s with server })

/-- Sends a statement that no builder made, past the cache and the log. -/
def send (conn : Connection σ) (sql : String) (s : Session σ) : Except Error Unit × Session σ :=
  let (answer, s) := conn.ask ⟨.other, sql, .assoc⟩ s
  (answer.map fun _ => (), s)

def begin (conn : Connection σ) (level : Option IsolationLevel) (s : Session σ) :
    Except Error Unit × Session σ :=
  conn.send (beginSql level) s

def commit (conn : Connection σ) (s : Session σ) : Except Error Unit × Session σ :=
  conn.send "COMMIT" s

def rollback (conn : Connection σ) (s : Session σ) : Except Error Unit × Session σ :=
  conn.send "ROLLBACK" s

end Connection

end SqlComposer
