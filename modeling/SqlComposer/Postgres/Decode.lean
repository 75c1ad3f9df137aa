import SqlComposer.Decimal.Reader
import SqlComposer.Error
import SqlComposer.Rows.ResultSet
import SqlComposer.Text.Shown

/-!
# Decoding text cells

Every cell arrives as text or as NULL. Booleans, integers and floats are read by the type of
their column; all other types stay text.
-/

namespace SqlComposer.Postgres

/-- A column of a result, as preparing the statement reports it. -/
structure Column where
  name : String
  type : String
deriving DecidableEq, Repr

inductive CellFormat where
  | bool
  | int
  | float
  | text
deriving DecidableEq, Repr

def cellFormat (type : String) : CellFormat :=
  if type = "bool" then .bool
  else if type ∈ ["int2", "int4", "int8", "oid"] then .int
  else if type ∈ ["float4", "float8"] then .float
  else .text

/-- A cell that is no number of its type. -/
def badNumber (type raw : String) (fault : Decimal.Fault) : String :=
  "invalid " ++ type ++ " " ++ Text.shown raw ++ ": " ++ fault.message

/-- Reads the text of a cell, or says what is wrong with it. -/
def readCell (type raw : String) : Except String Value :=
  match cellFormat type with
  | .bool =>
    if raw = "t" then .ok (.bool true)
    else if raw = "f" then .ok (.bool false)
    else .error ("invalid bool " ++ Text.shown raw)
  | .int => (Decimal.readInt raw).map .int |>.mapError (badNumber type raw)
  | .float => (Decimal.readFloat raw).map .float |>.mapError (badNumber type raw)
  | .text => .ok (.text raw)

def decodeCell (column : Column) (cell : Option String) : Except Error Value :=
  match cell with
  | none => .ok .null
  | some raw => (readCell column.type raw).mapError (.decode column.name)

/-- Decodes the cells of a row, from the column with number `index` on. -/
def decodeCells : (index : Nat) → List Column → List (Option String) →
    Except Error (List Value)
  | _, [], _ => .ok []
  | index, column :: _, [] =>
    .error (.decode column.name ("invalid column \x60" ++ toString index ++ "\x60"))
  | index, column :: columns, cell :: cells => do
    return (← decodeCell column cell) :: (← decodeCells (index + 1) columns cells)

def decodeRow (columns : List Column) (cells : List (Option String)) : Except Error Row := do
  return ⟨columns.map (·.name), ← decodeCells 0 columns cells⟩

end SqlComposer.Postgres
