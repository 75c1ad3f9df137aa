import SqlComposer.Kind

/-!
# Errors

The causes of a failure, and their wording. Compile errors come from building or rendering a
statement, the others from the outside: the server, the rows it sends, a configuration file.
-/

namespace SqlComposer

inductive Error where
  /-- An ORDER BY direction, in upper case, that is neither ASC nor DESC. -/
  | unknownDirection (direction : String)
  /-- ON and USING on one join. -/
  | mixedJoinConditions
  /-- ON or USING before the first join. -/
  | noJoin
  /-- An INSERT target with an alias. -/
  | aliasedTarget
  /-- Rows and a query as the source of one INSERT. -/
  | mixedRowSources
  /-- A query of another kind than SELECT as the source of an INSERT. -/
  | sourceNotSelect (kind : Kind)
  /-- A statement of this kind without a table. -/
  | noTarget (kind : Kind)
  /-- A query of another kind than SELECT as a branch of a UNION. -/
  | branchNotSelect (kind : Kind)
  | connection (message : String)
  | execution (code : Option String) (message : String)
  | decode (column message : String)
  | config (message : String)
  | other (message : String)
deriving DecidableEq, Repr, Inhabited

namespace Error

def message : Error → String
  | .unknownDirection direction => "Invalid sort direction: " ++ direction
  | .mixedJoinConditions => "JOIN ... ON ... cannot be combined with JOIN ... USING ..."
  | .noJoin => "No JOIN has been added to attach conditions to"
  | .aliasedTarget => "INSERT INTO syntax does not allow table aliasing"
  | .mixedRowSources =>
    "INSERT INTO ... SELECT statements cannot be combined with INSERT INTO ... VALUES"
  | .sourceNotSelect kind =>
    "Only SELECT queries can be combined with INSERT queries, got " ++ kind.name
  | .noTarget kind => kind.name ++ " statement has no target table"
  | .branchNotSelect kind => "UNION requires a table name or a SELECT query, got " ++ kind.name
  | .connection message => "Connection error: " ++ message
  | .execution (some code) message => "Execution error [" ++ code ++ "]: " ++ message
  | .execution none message => "Execution error: " ++ message
  | .decode column message => "Decode error on column '" ++ column ++ "': " ++ message
  | .config message => "Config error: " ++ message
  | .other message => message

/-- Whether an error comes from building or rendering a statement. -/
def isCompile : Error → Bool
  | .unknownDirection _ | .mixedJoinConditions | .noJoin | .aliasedTarget | .mixedRowSources
  | .sourceNotSelect _ | .noTarget _ | .branchNotSelect _ => true
  | _ => false

def code? : Error → Option String
  | .execution code _ => code
  | _ => none

end Error

/-- Why an operation gives no result: an error, or a crash that no error reports. -/
inductive Failure where
  | error (e : Error)
  /-- Shared cells that refer to each other in a circle: rendering them would never end. -/
  | endlessCells
  /-- A lifetime that is too long to be named, or ends after the last moment of the clock. -/
  | clockOverflow
deriving DecidableEq, Repr, Inhabited

/-- A result, or the failure that prevents it. -/
abbrev Outcome := Except Failure

/-- A sequence succeeds when each of its steps does. -/
theorem Except.bind_eq_ok {ε α β : Type} {x : Except ε α} {f : α → Except ε β} {b : β} :
    x >>= f = .ok b ↔ ∃ a, x = .ok a ∧ f a = .ok b := by
  cases x with
  | error e => simp [bind, Except.bind]
  | ok a => simp [bind, Except.bind]

theorem Outcome.bind_eq_ok {α β : Type} {x : Outcome α} {f : α → Outcome β} {b : β} :
    x >>= f = .ok b ↔ ∃ a, x = .ok a ∧ f a = .ok b :=
  Except.bind_eq_ok

end SqlComposer
