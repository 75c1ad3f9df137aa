import SqlComposer.Rows.ResultSet
import SqlComposer.Text.Shown

/-!
# Rows as records

A record type lists fields with their types. A row is read as a record by the names of its
columns, in the order of the names; columns without a field do not matter.
-/

namespace SqlComposer

inductive FieldType where
  /-- An integer of 64 bits. -/
  | int
  /-- An integer from 0 to 255. -/
  | byte
  | float
  | text
  | bool
  | optional (type : FieldType)
deriving DecidableEq, Repr

structure Field where
  name : String
  type : FieldType
deriving DecidableEq, Repr

namespace FieldType

def expected : FieldType → String
  | .int => "i64"
  | .byte => "u8"
  | .float => "f64"
  | .text => "a string"
  | .bool => "a boolean"
  | .optional type => type.expected

end FieldType

namespace Record

def marked (word content : String) : String := word ++ " \x60" ++ content ++ "\x60"

def found : Json → String
  | .null => "null"
  | .bool b => marked "boolean" (if b then "true" else "false")
  | .int n => marked "integer" (toString n.toInt)
  | .float x => marked "floating point" (Json.floatStyle.text x)
  | .text s => "string " ++ Text.shown s
  | .array _ => "sequence"
  | .object _ => "map"

def mismatch (problem : String) (j : Json) (type : FieldType) : String :=
  "invalid " ++ problem ++ ": " ++ found j ++ ", expected " ++ type.expected

/-- Reads JSON as a field. Integers serve as floats, floats never as integers. -/
def readField : FieldType → Json → Except String Value
  | .optional _, .null => .ok .null
  | .optional type, j => readField type j
  | .int, .int n => .ok (.int n)
  | .byte, .int n =>
    if 0 ≤ n.toInt ∧ n.toInt ≤ 255 then .ok (.int n) else .error (mismatch "value" (.int n) .byte)
  | .float, .int n => .ok (.float n.toFloat)
  | .float, .float x => .ok (.float x)
  | .text, .text s => .ok (.text s)
  | .bool, .bool b => .ok (.bool b)
  | type, j => .error (mismatch "type" j type)

/-- Reads the members that have a field, in their order. -/
def readMembers (fields : List Field) :
    List (Entry Json) → Except Error (List (Entry Value))
  | [] => .ok []
  | ⟨key, j⟩ :: rest =>
    match fields.find? (·.name = key) with
    | none => readMembers fields rest
    | some field =>
      match readField field.type j with
      | .error message => .error (.decode "*" message)
      | .ok v => do return ⟨key, v⟩ :: (← readMembers fields rest)

/-- The value of a field that was read, or the answer to a missing one. -/
def complete (values : List (Entry Value)) (field : Field) : Except Error (Entry Value) :=
  match Keyed.get? field.name values, field.type with
  | some v, _ => .ok ⟨field.name, v⟩
  | none, .optional _ => .ok ⟨field.name, .null⟩
  | none, _ => .error (.decode field.name (marked "missing field" field.name))

end Record

/-- A row as a record with the given fields. A bad value is reported before a missing one. -/
def Row.toRecord (fields : List Field) (row : Row) : Except Error (List (Entry Value)) := do
  let values ← Record.readMembers fields row.members
  fields.mapM (Record.complete values)

def ResultSet.toRecords (fields : List Field) (r : ResultSet) :
    Except Error (List (List (Entry Value))) :=
  r.rows.mapM (·.toRecord fields)

end SqlComposer
