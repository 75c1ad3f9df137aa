import SqlComposer.Postgres.Adapter

/-!
# The catalog

Which tables there are, and which columns a table has, in the current schema. A pattern in the
sense of LIKE restricts the names.
-/

namespace SqlComposer.Postgres

variable {σ : Type}

structure ColumnInfo where
  name : String
  dataType : String
  isNullable : Bool
  default : Option String
  position : Int64
deriving DecidableEq, Repr

def tablesSql : String :=
  "SELECT table_name::text AS table_name FROM information_schema.tables " ++
  "WHERE table_schema = current_schema() AND table_name::text LIKE :like " ++
  "ORDER BY table_name"

def columnsSql : String :=
  "SELECT column_name::text AS name, data_type::text AS data_type, " ++
  "(is_nullable::text = 'YES') AS is_nullable, column_default::text AS column_default, " ++
  "ordinal_position::int8 AS ordinal_position " ++
  "FROM information_schema.columns " ++
  "WHERE table_schema = current_schema() AND table_name::text = :table " ++
  "AND column_name::text LIKE :like ORDER BY ordinal_position"

def catalogQuery (sql : String) (params : List (String × String)) : Statement :=
  let entries := params.map fun (key, text) => Param.value key (.text text)
  .raw { RawQuery.new .select sql with
    request := Request.empty.apply (.params entries) }

def tablesQuery (like : Option String) : Statement :=
  catalogQuery tablesSql [(":like", like.getD "%")]

def columnsQuery (tablePrefix table : String) (like : Option String) : Statement :=
  catalogQuery columnsSql [(":table", tablePrefix ++ table), (":like", like.getD "%")]

/-- A column of a catalog row that has to be text. -/
def textColumn (row : Row) (column : String) : Except Error String :=
  match row.get? column with
  | some (.text s) => .ok s
  | _ => .error (.decode column "expected a text value")

def columnInfo (row : Row) : Except Error ColumnInfo := do
  let name ← textColumn row "name"
  let dataType ← textColumn row "data_type"
  let isNullable := match row.get? "is_nullable" with
    | some (.bool b) => b
    | _ => false
  let default := (row.get? "column_default").bind Value.text?
  let position := ((row.get? "ordinal_position").bind Value.int?).getD 0
  return { name, dataType, isNullable, default, position }

def listTables (conn : Connection σ) (like : Option String) : Action σ (List String) :=
  fun session =>
    match (tablesQuery like).fetch .empty conn session with
    | (.ok rows, session) =>
      ((rows.rows.mapM (textColumn · "table_name")).mapError .error, session)
    | (.error e, session) => (.error e, session)

def listColumns (conn : Connection σ) (table : String) (like : Option String) :
    Action σ (List ColumnInfo) :=
  fun session =>
    match (columnsQuery conn.quoting.tablePrefix table like).fetch .empty conn session with
    | (.ok rows, session) => ((rows.rows.mapM columnInfo).mapError .error, session)
    | (.error e, session) => (.error e, session)

end SqlComposer.Postgres
