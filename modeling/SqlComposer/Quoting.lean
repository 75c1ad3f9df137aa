import SqlComposer.Text.Literal
import SqlComposer.Text.Replacement
import SqlComposer.Text.Segments
import SqlComposer.Decimal.Fixed

/-!
# Quoting rules

What a database asks of the texts in a statement: how literals are written, which mark stands
around names, and what goes in front of table names. A mark inside a name is dropped.
-/

namespace SqlComposer

structure Quoting where
  literal : String → String
  /-- What stands on either side of a name. -/
  mark : String
  tablePrefix : String
  boolText : Bool → String
  floatText : Float → String

/-- The two dialects that need no connection. -/
inductive Dialect where
  /-- Double quotes around names, quotes doubled in literals. -/
  | standard
  /-- Backticks around names, backslashes in literals. -/
  | mysql
deriving DecidableEq, Repr, Inhabited

def Dialect.literal : Dialect → String → String
  | .standard => Text.doubledLiteral
  | .mysql => Text.backslashLiteral

def Dialect.mark : Dialect → String
  | .standard => "\""
  | .mysql => "\x60"

def Dialect.quoting (d : Dialect) (tablePrefix : String) : Quoting where
  literal := d.literal
  mark := d.mark
  tablePrefix := tablePrefix
  boolText b := if b then "'1'" else "'0'"
  floatText := Decimal.fixed 6

/-- What a name stands for, which decides where the table prefix goes. -/
inductive Role where
  /-- A column: the part before the last names a table, and a star stays as it is. -/
  | column
  /-- A table: the last part is its name. -/
  | table
  /-- A name without any table in it. -/
  | plain
deriving DecidableEq, Repr

namespace Quoting

def wrap (q : Quoting) (name : String) : String := q.mark ++ name ++ q.mark

def strip (q : Quoting) (name : String) : String := Text.strip q.mark name

/-- The table prefix in front of the last part. -/
def prefixLast (q : Quoting) : List String → List String
  | [] => []
  | [last] => [q.tablePrefix ++ last]
  | part :: rest => part :: q.prefixLast rest

/-- The table prefix in front of the part before the last, if there is one. -/
def prefixQualifier (q : Quoting) : List String → List String
  | [] => []
  | [table, column] => [q.tablePrefix ++ table, column]
  | part :: rest => part :: q.prefixQualifier rest

/-- The parts of a name, with the prefix where the role wants it. -/
def parts (q : Quoting) (role : Role) (name : String) : List String :=
  let parts := Text.dotted (q.strip name)
  match role with
  | .column => q.prefixQualifier parts
  | .table => q.prefixLast parts
  | .plain => parts

/-- One part of a name between marks. Only a column keeps its star bare. -/
def partText (q : Quoting) (role : Role) (part : String) : String :=
  if role = .column ∧ part = "*" then part else q.wrap part

def nameText (q : Quoting) (role : Role) (name : String) : String :=
  ".".intercalate ((q.parts role name).map (q.partText role))

/-- The name that an alias pair defines. A table's alias gets the prefix too. -/
def aliasText (q : Quoting) (role : Role) (name : String) : String :=
  q.wrap (if role = .table then q.tablePrefix ++ q.strip name else q.strip name)

/-- The name of an alias that is referred to: a table's is a table name, any other a plain name. -/
def targetText (q : Quoting) (role : Role) (name : String) : String :=
  q.nameText (if role = .table then .table else .plain) name

end Quoting

end SqlComposer
