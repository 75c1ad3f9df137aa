import SqlComposer.Statement

/-!
# Builders in use

Whatever is built, it is used in the same way: calls change it or are refused, `compile` remembers
the SQL of a statement, and other methods only look at it.
-/

namespace SqlComposer

/-- What can be built. A join is not a statement: it remembers no SQL. -/
inductive Builder where
  | query
  | select
  | insert
  | update
  | delete
  | join
deriving DecidableEq, Repr

namespace Builder

@[reducible] def State : Builder → Type
  | .query => RawQuery
  | .select => Select
  | .insert => Insert
  | .update => Update
  | .delete => Delete
  | .join => Join

@[reducible] def Call : Builder → Type
  | .query => Request.Call
  | .select => Select.Call
  | .insert => Insert.Call
  | .update => Update.Call
  | .delete => Delete.Call
  | .join => Join.Call

def change : (b : Builder) → b.Call → Change b.State Unit
  | .query, c => modify fun q => { q with request := q.request.apply c }
  | .select, c => Select.change c
  | .insert, c => Insert.change c
  | .update, c => modify (·.apply c)
  | .delete, c => modify (·.apply c)
  | .join, c => Join.change c

def toSql : (b : Builder) → b.State → Context → Outcome String
  | .query, q, ctx => (Statement.raw q).toSql ctx
  | .select, s, ctx => (Statement.select s).toSql ctx
  | .insert, i, ctx => (Statement.insert i).toSql ctx
  | .update, u, ctx => (Statement.update u).toSql ctx
  | .delete, d, ctx => (Statement.delete d).toSql ctx
  | .join, j, ctx => j.text ctx

def remember (sql : String) : (b : Builder) → b.State → b.State
  | .query, q => { q with request := q.request.compiled sql }
  | .select, s => { s with request := s.request.compiled sql }
  | .insert, i => { i with request := i.request.compiled sql }
  | .update, u => { u with request := u.request.compiled sql }
  | .delete, d => { d with request := d.request.compiled sql }
  | .join, j => j

def compile (b : Builder) (ctx : Context) (s : b.State) : Outcome String × b.State :=
  match b.toSql s ctx with
  | .ok sql => (.ok sql, b.remember sql s)
  | .error e => (.error e, s)

theorem compile_cases (b : Builder) (ctx : Context) (s : b.State) :
    (∃ sql, b.compile ctx s = (.ok sql, b.remember sql s)) ∨
      ∃ e, b.compile ctx s = (.error e, s) := by
  unfold compile
  cases b.toSql s ctx with
  | ok sql => exact .inl ⟨sql, rfl⟩
  | error e => exact .inr ⟨e, rfl⟩

theorem compile_fst (b : Builder) (ctx : Context) (s : b.State) :
    (b.compile ctx s).1 = b.toSql s ctx := by
  unfold compile
  cases b.toSql s ctx <;> rfl

/-- The statement that is built, if it is one. -/
def statement? : (b : Builder) → b.State → Option Statement
  | .query, q => some (.raw q)
  | .select, s => some (.select s)
  | .insert, i => some (.insert i)
  | .update, u => some (.update u)
  | .delete, d => some (.delete d)
  | .join, _ => none

theorem toSql_eq {b : Builder} {s : b.State} {statement : Statement}
    (h : b.statement? s = some statement) (ctx : Context) :
    b.toSql s ctx = statement.toSql ctx := by
  cases b with
  | join => exact nomatch h
  | _ => rw [← Option.some.inj h]; rfl

theorem statement?_remember {b : Builder} {s : b.State} {statement : Statement}
    (h : b.statement? s = some statement) (sql : String) :
    b.statement? (b.remember sql s) =
      some (statement.withRequest (statement.request.compiled sql)) := by
  cases b with
  | join => exact nomatch h
  | _ => rw [← Option.some.inj h]; rfl

/-- All statements are compiled alike. -/
theorem compile_eq {b : Builder} {s : b.State} {statement : Statement}
    (h : b.statement? s = some statement) (ctx : Context) :
    (b.compile ctx s).1 = (statement.compile ctx).1 ∧
      b.statement? (b.compile ctx s).2 = some (statement.compile ctx).2 := by
  unfold compile Statement.compile
  rw [toSql_eq h]
  cases statement.toSql ctx with
  | ok sql => exact ⟨rfl, statement?_remember h sql⟩
  | error e => exact ⟨rfl, h⟩

end Builder

/-! ## Runs -/

variable {b : Builder} {α : Type}

inductive Method (b : Builder) (α : Type) where
  | call (c : b.Call)
  | compile (ctx : Context)
  /-- A method that leaves the builder as it is, whatever it tells about it. -/
  | read (view : b.State → Outcome α)

inductive Reply (α : Type) where
  | done
  | sql (text : String)
  | told (view : α)

/-- What comes back from a call. -/
def Reply.of : Except Error Unit → Outcome (Reply α)
  | .ok () => .ok .done
  | .error e => .error (.error e)

namespace Method

/-- What a method gives back, and the builder afterwards. -/
def perform : Method b α → b.State → Outcome (Reply α) × b.State
  | .call c, s =>
    let (result, s) := (b.change c).on s
    (Reply.of result, s)
  | .compile ctx, s =>
    let (sql, s) := b.compile ctx s
    (sql.map .sql, s)
  | .read view, s => ((view s).map .told, s)

theorem perform_call (c : b.Call) (s : b.State) :
    (call c : Method b α).perform s =
      (Reply.of ((b.change c).on s).1, ((b.change c).on s).2) := rfl

theorem perform_compile (ctx : Context) (s : b.State) :
    (compile ctx : Method b α).perform s =
      ((b.compile ctx s).1.map .sql, (b.compile ctx s).2) := rfl

end Method

/-- A method that was called, with what it gave back. -/
abbrev Used (b : Builder) (α : Type) := Method b α × Outcome (Reply α)

/-- A builder, and what its methods have given back. -/
structure Usage (b : Builder) (α : Type) where
  state : b.State
  log : List (Used b α)

namespace Usage

def step (u : Usage b α) (m : Method b α) : Usage b α :=
  let (reply, state) := m.perform u.state
  ⟨state, u.log ++ [(m, reply)]⟩

def run (s : b.State) (ms : List (Method b α)) : Usage b α := ms.foldl step ⟨s, []⟩

theorem run_append_singleton (s : b.State) (ms : List (Method b α)) (m : Method b α) :
    run s (ms ++ [m]) = (run s ms).step m := by
  rw [run, List.foldl_append]
  rfl

theorem state_run (s : b.State) (ms : List (Method b α)) :
    (run s ms).state = ms.foldl (fun s m => (m.perform s).2) s :=
  (List.foldl_hom Usage.state fun _ _ => rfl).symm

end Usage

end SqlComposer
