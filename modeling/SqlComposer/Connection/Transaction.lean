import SqlComposer.Connection.Basic

/-!
# Transactions

A transaction is a block around an action: COMMIT when the action succeeds, ROLLBACK when it
fails. A crash closes no block.
-/

namespace SqlComposer

variable {σ α : Type}

/-- Rolls back after an error. When that fails too, the error names both. -/
def Connection.undo (conn : Connection σ) (e : Error) (s : Session σ) : Error × Session σ :=
  match conn.rollback s with
  | (.ok (), s) => (e, s)
  | (.error r, s) => (.other (e.message ++ " (rollback failed: " ++ r.message ++ ")"), s)

/-- The end of a block, when its body has come to `outcome`. -/
def Connection.close (conn : Connection σ) (outcome : Outcome α) (s : Session σ) :
    Outcome (Except Error α) × Session σ :=
  match outcome with
  | .ok a =>
    match conn.commit s with
    | (.ok (), s) => (.ok (.ok a), s)
    | (.error e, s) => (.error (.error e), s)
  | .error (.error e) =>
    let (e, s) := conn.undo e s
    (.ok (.error e), s)
  | .error crash => (.error crash, s)

/-- The block in the middle of other code. What the body comes to is the value of the block, but an
error of START TRANSACTION or COMMIT leaves the code around the block as well. -/
def Connection.block (conn : Connection σ) (level : Option IsolationLevel) (body : Action σ α) :
    Action σ (Except Error α) := fun s =>
  match conn.begin level s with
  | (.error e, s) => (.error (.error e), s)
  | (.ok (), s) =>
    let (outcome, s) := body s
    conn.close outcome s

/-- A block with nothing around it. -/
def Connection.transaction (conn : Connection σ) (level : Option IsolationLevel)
    (body : Action σ α) : Action σ α := fun s =>
  match conn.block level body s with
  | (.ok result, s) => (result.mapError .error, s)
  | (.error e, s) => (.error e, s)

end SqlComposer
