import SqlComposer.Builder.Change
import SqlComposer.Builder.Request
import SqlComposer.Render

/-!
# Building an INSERT

The rows are listed one by one, or come from a query, never both.
-/

namespace SqlComposer

inductive RowQuery where
  | select (s : Select)
  | query (q : RawQuery)

inductive RowSource where
  | values (rows : List (List Value))
  | query (q : RowQuery)

structure Insert where
  table : Option Ident := none
  columns : List Ident := []
  source : RowSource := .values []
  request : Request := .empty

instance : Inhabited Insert := ⟨{}⟩

namespace Insert

inductive Call where
  | request (c : Request.Call)
  /-- Forgets everything but the execution options. -/
  | reset
  | table (t : Ident)
  | columns (columns : List Ident)
  | values (row : List Value)
  | select (q : RowQuery)

def into (table : String) : Insert := { table := some (.name table) }

/-- A raw query may only feed an INSERT when it is a SELECT. -/
def checkSource : RowQuery → Except Error Unit
  | .query q => if q.kind = .select then .ok () else .error (.sourceNotSelect q.kind)
  | .select _ => .ok ()

def setTable (t : Ident) : Change Insert Unit :=
  if t.isAliased then throw .aliasedTarget else modify ({ · with table := some t })

def addRow (row : List Value) : Change Insert Unit := do
  match (← get).source with
  | .values rows => modify ({ · with source := .values (rows ++ [row]) })
  | .query _ => throw .mixedRowSources

def setQuery (q : RowQuery) : Change Insert Unit := do
  Change.check (checkSource q)
  match (← get).source with
  | .values (_ :: _) => throw .mixedRowSources
  | _ => modify ({ · with source := .query q })

def change : Call → Change Insert Unit
  | .request c => modify fun i => { i with request := i.request.apply c }
  | .reset => modify fun i => { request := i.request.reset }
  | .table t => setTable t
  | .columns columns => modify fun i => { i with columns := i.columns ++ columns }
  | .values row => addRow row
  | .select q => setQuery q

def apply (i : Insert) (c : Call) : Except Error Insert := (change c).apply i

/-! ## What a call does -/

theorem on_setTable (t : Ident) (i : Insert) :
    (setTable t).on i =
      if t.isAliased then (.error .aliasedTarget, i) else (.ok (), { i with table := some t }) := by
  unfold setTable
  split <;> simp

theorem on_addRow (row : List Value) (i : Insert) :
    (addRow row).on i =
      match i.source with
      | .values rows => (.ok (), { i with source := .values (rows ++ [row]) })
      | .query _ => (.error .mixedRowSources, i) := by
  unfold addRow
  rw [Change.on_get_bind]
  cases i.source <;> simp

theorem on_setQuery (q : RowQuery) (i : Insert) :
    (setQuery q).on i =
      match checkSource q, i.source with
      | .error e, _ => (.error e, i)
      | .ok (), .values (_ :: _) => (.error .mixedRowSources, i)
      | .ok (), _ => (.ok (), { i with source := .query q }) := by
  unfold setQuery
  rw [Change.on_check_bind]
  cases checkSource q with
  | error e => rfl
  | ok u =>
    simp only [Change.on_get_bind]
    rcases i.source with (_ | ⟨row, rows⟩) | q' <;> simp

/-! ## Rendering -/

def rowText (ctx : Context) (isKey : String → Bool) (row : List Value) : Outcome String := do
  return parenthesized (", ".intercalate (← row.mapM fun v => operand isKey v (v.quote ctx)))

def sourceText (ctx : Context) (isKey : String → Bool) : RowSource → Outcome String
  | .values rows => do return "VALUES " ++ ", ".intercalate (← rows.mapM (rowText ctx isKey))
  | .query (.select s) => do (← s.template ctx).fill
  | .query (.query q) => (q.template ctx).fill

def template (i : Insert) (ctx : Context) : Outcome Template := do
  match i.table with
  | none => .error (.error (.noTarget .insert))
  | some table =>
    let table ← table.text ctx .table
    let columns ← Ident.texts ctx .column i.columns
    let source ← sourceText ctx i.request.params.contains i.source
    let columns := if columns.isEmpty then "" else parenthesized (", ".intercalate columns) ++ " "
    return ⟨"INSERT INTO " ++ table ++ " " ++ columns ++ source, i.request.params.replacements ctx⟩

end Insert

end SqlComposer
