import SqlComposer.Builder.Delete
import SqlComposer.Builder.Insert
import SqlComposer.Builder.Select
import SqlComposer.Builder.Update

/-!
# Statements

What all statements have in common: a kind, parameters and options, and the two phases of
rendering.
-/

namespace SqlComposer

inductive Statement where
  | raw (q : RawQuery)
  | select (s : Select)
  | insert (i : Insert)
  | update (u : Update)
  | delete (d : Delete)

instance : Inhabited Statement := ⟨.select .empty⟩

namespace Statement

def kind : Statement → Kind
  | .raw q => q.kind
  | .select _ => .select
  | .insert _ => .insert
  | .update _ => .update
  | .delete _ => .delete

def request : Statement → Request
  | .raw q => q.request
  | .select s => s.request
  | .insert i => i.request
  | .update u => u.request
  | .delete d => d.request

def withRequest (r : Request) : Statement → Statement
  | .raw q => .raw { q with request := r }
  | .select s => .select { s with request := r }
  | .insert i => .insert { i with request := r }
  | .update u => .update { u with request := r }
  | .delete d => .delete { d with request := r }

/-! ## Rendering -/

def template (s : Statement) (ctx : Context) : Outcome Template :=
  match s with
  | .raw q => .ok (q.template ctx)
  | .select s => s.template ctx
  | .insert i => i.template ctx
  | .update u => u.template ctx
  | .delete d => d.template ctx

/-- The SQL with its placeholders left in place. -/
def buildSql (s : Statement) (ctx : Context) : Outcome String := do
  return (← s.template ctx).sql

def toSql (s : Statement) (ctx : Context) : Outcome String := do
  (← s.template ctx).fill

/-- Renders the statement and remembers the SQL. A failure is not remembered. -/
def compile (s : Statement) (ctx : Context) : Outcome String × Statement :=
  match s.toSql ctx with
  | .ok sql => (.ok sql, s.withRequest (s.request.compiled sql))
  | .error e => (.error e, s)

end Statement

end SqlComposer
