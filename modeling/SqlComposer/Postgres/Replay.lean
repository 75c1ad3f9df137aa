import SqlComposer.Postgres.Adapter

/-!
# A server that replays answers

Each statement takes the next prepared answer, and every message is remembered. An answer may be
an error, and the server may hang up instead of giving one.
-/

namespace SqlComposer.Postgres

/-- What the adapter sends. -/
inductive Message where
  | prepare (sql : String)
  /-- Runs the statement prepared last. -/
  | execute
  | simple (sql : String)
deriving DecidableEq, Repr

inductive Answer where
  | result (columns : List Column) (rows : List (List (Option String))) (tag : String)
  /-- An error, when the statement is run or already when it is prepared. -/
  | fault (code message : String) (early : Bool)
  | hangUp
deriving DecidableEq, Repr

def Answer.empty : Answer := .result [] [] ""

structure Replay where
  answers : List Answer
  messages : List Message := []
  /-- The answer to the statement that has been prepared and not yet run. -/
  prepared : Option Answer := none
  closed : Bool := false

namespace Replay

def note (r : Replay) (m : Message) : Replay := { r with messages := r.messages ++ [m] }

/-- Takes the answer for a statement that arrives with a message. -/
def arrive (r : Replay) (m : Message) : Except Fault Answer × Replay :=
  if r.closed then (.error .closed, r)
  else
    let r := { r.note m with prepared := none }
    match r.answers with
    | [] => (.ok .empty, r)
    | .hangUp :: rest => (.error .closed, { r with answers := rest, closed := true })
    | a :: rest => (.ok a, { r with answers := rest })

def rowsOf : Answer → Except Fault (List (List (Option String)))
  | .result _ rows _ => .ok rows
  | .fault code message _ => .error (.server code message)
  | .hangUp => .error .closed

def tagOf : Answer → Except Fault String
  | .result _ _ tag => .ok tag
  | .fault code message _ => .error (.server code message)
  | .hangUp => .error .closed

def prepare (sql : String) (r : Replay) : Except Fault (List Column) × Replay :=
  match r.arrive (.prepare sql) with
  | (.error e, r) => (.error e, r)
  | (.ok (.fault code message true), r) => (.error (.server code message), r)
  | (.ok (.result columns rows tag), r) =>
    (.ok columns, { r with prepared := some (.result columns rows tag) })
  | (.ok a, r) => (.ok [], { r with prepared := some a })

/-- The rows of the statement that has been prepared, or of one that arrives now. -/
def rows (sql : String) (r : Replay) : Except Fault (List (List (Option String))) × Replay :=
  match r.prepared with
  | some a => (rowsOf a, { r.note (.simple sql) with prepared := none })
  | none =>
    let (answer, r) := r.arrive (.simple sql)
    (answer.bind rowsOf, r)

def run (r : Replay) : Except Fault String × Replay :=
  (tagOf (r.prepared.getD .empty), { r.note .execute with prepared := none })

def backend : Backend Replay := ⟨prepare, rows, run⟩

end Replay

end SqlComposer.Postgres
