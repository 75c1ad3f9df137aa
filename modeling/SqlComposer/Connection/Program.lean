import SqlComposer.Connection.Execution
import SqlComposer.Connection.Transaction

/-!
# Programs

Code that uses a connection: one request after the other, and what it goes on with depends on the
answers. An error that it does not catch is its result.
-/

namespace SqlComposer

variable {σ α β : Type}

/-- An error becomes a result like any other, a crash does not. -/
def Outcome.attempt : Outcome α → Outcome (Except Error α)
  | .ok a => .ok (.ok a)
  | .error (.error e) => .ok (.error e)
  | .error crash => .error crash

namespace Action

def attempt (action : Action σ α) : Action σ (Except Error α) := fun s =>
  let (outcome, s) := action s
  (Outcome.attempt outcome, s)

def bind (action : Action σ α) (next : α → Action σ β) : Action σ β := fun s =>
  match action s with
  | (.ok a, s) => next a s
  | (.error e, s) => (.error e, s)

end Action

inductive Program : Type → Type 1 where
  | done {α : Type} (result : Except Error α) : Program α
  /-- A call of the driver. -/
  | call {α : Type} (c : DriverCall) (next : Except Error Output → Program α) : Program α
  | execute {α : Type} (statement : Statement) (cells : Cells)
      (next : Except Error Output → Program α) : Program α
  /-- Code whose errors are caught, those of its blocks included. -/
  | attempt {α β : Type} (inner : Program β) (next : Except Error β → Program α) : Program α
  /-- A block around code, and what follows with the value of the block. -/
  | transaction {α β : Type} (level : Option IsolationLevel) (body : Program β)
      (next : Except Error β → Program α) : Program α

namespace Program

def run (conn : Connection σ) {α : Type} : Program α → Action σ α
  | .done result => fun s => (result.mapError .error, s)
  | .call c next => fun s =>
    let (answer, s) := conn.ask c s
    (next answer).run conn s
  | .execute statement cells next =>
    (statement.execute cells conn).attempt.bind fun result => (next result).run conn
  | .attempt inner next => (inner.run conn).attempt.bind fun result => (next result).run conn
  | .transaction level body next =>
    (conn.block level (body.run conn)).bind fun result => (next result).run conn

/-- A function that is nothing but a block. -/
theorem run_transaction_done (conn : Connection σ) (level : Option IsolationLevel)
    (body : Program α) :
    (transaction level body .done).run conn = conn.transaction level (body.run conn) := by
  funext s
  simp only [run, Action.bind, Connection.transaction]
  split
  · next h => rw [h]
  · next h => rw [h]

end Program

end SqlComposer
