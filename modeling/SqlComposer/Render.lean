import SqlComposer.Error
import SqlComposer.Params
import SqlComposer.Piece
import SqlComposer.Quoting
import SqlComposer.Text.Upper

/-!
# Rendering

Two phases. The first writes a statement with its placeholders left in place; the second puts the
quoted values of the parameters there. A query inside another one goes through both phases before
its text becomes part of the outer one, so each query sees its own parameters only.
-/

namespace SqlComposer

/-- What rendering looks up: the rules of the database, and the text of a cell. -/
structure Context where
  quoting : Quoting
  cell : CellId → Outcome String

/-- The first phase of a statement: SQL with placeholders, and what belongs in their places. -/
structure Template where
  sql : String
  /-- The texts of the parameters. One without a text is missed only in the second phase. -/
  replacements : Outcome (List Text.Replacement)

def Template.fill (t : Template) : Outcome String := do
  return Text.replaceAll (← t.replacements) t.sql

/-! ## Texts without parts -/

/-- An operand. Text that is a key stays in place, so that the second phase finds it. -/
def operand (isKey : String → Bool) (v : Value) (quoted : Outcome String) : Outcome String :=
  match v with
  | .text key => if isKey key then .ok key else quoted
  | _ => quoted

/-- The operator of a predicate. Equality with NULL is written with IS. -/
def operator (op : String) (v : Value) : String :=
  if v.isNull ∧ op = "=" then "IS"
  else if v.isNull ∧ (op = "!=" ∨ op = "<>") then "IS NOT"
  else Text.upper op

def parenthesized (s : String) : String := "(" ++ s ++ ")"

/-- The word in front of a clause, if the clause has any text. -/
def clause (word body : String) : String := if body = "" then "" else word ++ body

/-- A list behind the word in front of a clause, if the list has any entry. -/
def listClause (word separator : String) (texts : List String) : String :=
  if texts.isEmpty then "" else word ++ separator.intercalate texts

/-- A number behind the word in front of a clause. -/
def countClause (word : String) (n : Option Nat) : String :=
  match n with
  | some n => word ++ toString n
  | none => ""

/-- A sort key with its direction, which has to be ASC or DESC in any case. -/
def directed (column : String) (direction : Option String) : Outcome String :=
  let direction := Text.upper (direction.getD "")
  if direction = "" then .ok column
  else if direction = "ASC" ∨ direction = "DESC" then .ok (column ++ " " ++ direction)
  else .error (.error (.unknownDirection direction))

def joinWord (kind : Option String) : String :=
  match kind with
  | some kind => if kind = "" then "JOIN " else Text.upper kind ++ " JOIN "
  | none => "JOIN "

/-- The operator between the columns of a join, with a blank in front if there is one. -/
def joinOperator (op : String) : String := if op = "" then "" else " " ++ Text.upper op

def united (sql : String) (branches : List String) : String :=
  if branches.isEmpty then sql else parenthesized sql ++ "".intercalate branches

/-! ## Terms -/

mutual
variable (ctx : Context)

def Value.quote : Value → Outcome String
  | .null => .ok "NULL"
  | .bool b => .ok (ctx.quoting.boolText b)
  | .int n => .ok (toString n.toInt)
  | .float x => .ok (ctx.quoting.floatText x)
  | .text s => .ok (ctx.quoting.literal s)
  | .list items => do return parenthesized (", ".intercalate (← Value.quoteAll items))
  | .pair low high => do return (← low.quote) ++ " AND " ++ (← high.quote)
  | .fragment f => f.template.fill
  | .subquery s => do return parenthesized (← (← s.template).fill)

def Value.quoteAll : List Value → Outcome (List String)
  | [] => .ok []
  | v :: rest => do return (← v.quote) :: (← Value.quoteAll rest)

/-- The bounds of a pair or of a list of two, with their placeholders left in place. -/
def Value.bounds (isKey : String → Bool) : Value → Option (Outcome String)
  | .pair low high => some do
    return (← operand isKey low low.quote) ++ " AND " ++ (← operand isKey high high.quote)
  | .list [low, high] => some do
    return (← operand isKey low low.quote) ++ " AND " ++ (← operand isKey high high.quote)
  | _ => none

/-- What belongs in the place of a parameter. An empty key has no place. -/
def Param.replacement : Param → Outcome (Option Text.Replacement)
  | .value key v => do if key = "" then return none else return some ⟨key, ← v.quote⟩
  | .cell key id => do if key = "" then return none else return some ⟨key, ← ctx.cell id⟩

def Param.replacements : List Param → Outcome (List Text.Replacement)
  | [] => .ok []
  | p :: rest => do return (← p.replacement).toList ++ (← Param.replacements rest)

def Params.replacements : Params → Outcome (List Text.Replacement)
  | ⟨entries⟩ => Param.replacements entries

def Fragment.template : Fragment → Template
  | ⟨sql, params⟩ => ⟨sql, params.replacements⟩

def Ident.text (role : Role) : Ident → Outcome String
  | .name s => .ok (ctx.quoting.nameText role s)
  | .aliased inner name => do
    return (← inner.text role) ++ " AS " ++ ctx.quoting.aliasText role name
  | .aliasName s => .ok (ctx.quoting.targetText role s)
  | .fragment f => f.template.fill
  | .subquery s => do return parenthesized (← (← s.template).fill)

def Ident.texts (role : Role) : List Ident → Outcome (List String)
  | [] => .ok []
  | i :: rest => do return (← i.text role) :: (← Ident.texts role rest)

/-- A reference on the left of a predicate: an alias pair stands for what it names, and an empty
name for nothing. -/
def Ident.subject : Ident → Outcome String
  | .name s => .ok (if s = "" then "" else ctx.quoting.nameText .column s)
  | .aliased inner _ => inner.text .plain
  | .aliasName s => .ok (ctx.quoting.targetText .column s)
  | .fragment f => f.template.fill
  | .subquery s => do return parenthesized (← (← s.template).fill)

/-- A reference to sort or group by: an alias pair stands for its alias. -/
def Ident.target : Ident → Outcome String
  | .name s => .ok (ctx.quoting.nameText .column s)
  | .aliased _ name => .ok (ctx.quoting.nameText .plain name)
  | .aliasName s => .ok (ctx.quoting.nameText .plain s)
  | .fragment f => f.template.fill
  | .subquery s => do return parenthesized (← (← s.template).fill)

def Ident.targets : List Ident → Outcome (List String)
  | [] => .ok []
  | i :: rest => do return (← i.target) :: (← Ident.targets rest)

/-- A condition with its text. BETWEEN takes its bounds apart, and IN never has an empty list. -/
def Condition.piece (isKey : String → Bool) : Condition → Outcome Piece
  | .opening logic => .ok (.opening logic)
  | .closing _ => .ok .closing
  | .predicate logic column op value => do
    let op := operator op value
    let right ←
      if op = "BETWEEN" then
        match value.bounds isKey with
        | some bounds => bounds
        | none => operand isKey value value.quote
      else if op = "IN" ∧ value.isEmptyList then
        .ok "(NULL)"
      else
        operand isKey value value.quote
    let left ← column.subject
    return .predicate logic (Text.trim (left ++ " " ++ op ++ " " ++ right))

def Condition.pieces (isKey : String → Bool) : List Condition → Outcome (List Piece)
  | [] => .ok []
  | c :: rest => do return (← c.piece isKey) :: (← Condition.pieces isKey rest)

def Criteria.text (isKey : String → Bool) : Criteria → Outcome String
  | ⟨entries⟩ => do return Piece.layout false false (← Condition.pieces isKey entries)

def OnPair.text : OnPair → Outcome String
  | ⟨left, op, right⟩ => do
    return (← left.text .column) ++ joinOperator op ++ " " ++ (← right.text .column)

def OnPair.texts : List OnPair → Outcome (List String)
  | [] => .ok []
  | p :: rest => do return (← p.text) :: (← OnPair.texts rest)

def JoinCondition.text : JoinCondition → Outcome String
  | .free => .ok ""
  | .on pairs => do return " ON " ++ parenthesized (" AND ".intercalate (← OnPair.texts pairs))
  | .using columns => do
    return " USING " ++ parenthesized (", ".intercalate (← Ident.texts .column columns))

def Join.text : Join → Outcome String
  | ⟨table, kind, condition⟩ => do
    return joinWord kind ++ (← table.text .table) ++ (← condition.text)

def Join.texts : List Join → Outcome (List String)
  | [] => .ok []
  | j :: rest => do return (← j.text) :: (← Join.texts rest)

def SortKey.text : SortKey → Outcome String
  | ⟨column, direction⟩ => do directed (← column.target) direction

def SortKey.texts : List SortKey → Outcome (List String)
  | [] => .ok []
  | k :: rest => do return (← k.text) :: (← SortKey.texts rest)

def RawQuery.template : RawQuery → Template
  | ⟨_, sql, ⟨params, _, _⟩⟩ => ⟨sql, params.replacements⟩

def BranchSource.text : BranchSource → Outcome String
  | .table t => do return "SELECT * FROM " ++ (← t.text .table)
  | .select s => do (← s.template).fill
  | .query q => q.template.fill

def Branch.text : Branch → Outcome String
  | ⟨source, all⟩ => do
    return (if all then " UNION ALL " else " UNION ") ++ parenthesized (← source.text)

def Branch.texts : List Branch → Outcome (List String)
  | [] => .ok []
  | b :: rest => do return (← b.text) :: (← Branch.texts rest)

/-- A SELECT, clause by clause. Columns and tables with the same text are named once. -/
def Select.template : Select → Outcome Template
  | ⟨distinct, columns, tables, joins, ⟨criteria, orderBy, limit⟩, groupBy, having, offset, unions,
      ⟨params, _, _⟩⟩ => do
    let columns ← Ident.texts .column columns
    let tables ← Ident.texts .table tables
    let joins ← Join.texts joins
    let criteria ← criteria.text params.contains
    let groupBy ← Ident.targets groupBy
    let having ← having.text params.contains
    let orderBy ← SortKey.texts orderBy
    let unions ← Branch.texts unions
    let sql :=
      (if distinct then "SELECT DISTINCT " else "SELECT ") ++
      (if columns.isEmpty then "*" else ", ".intercalate columns.eraseDups) ++
      listClause " FROM " ", " tables.eraseDups ++
      listClause " " " " joins ++
      clause " WHERE " criteria ++
      listClause " GROUP BY " ", " groupBy ++
      clause " HAVING " having ++
      listClause " ORDER BY " ", " orderBy ++
      countClause " LIMIT " limit ++
      countClause " OFFSET " offset
    return ⟨united sql unions, params.replacements⟩

end

/-! ## Cells -/

/-- The text of a cell, whose value may name other cells. A chain without a circle meets each cell
once, so `depth` bounds it. -/
def Cells.text (cells : Cells) (q : Quoting) : (depth : Nat) → CellId → Outcome String
  | 0, _ => .error .endlessCells
  | depth + 1, id => (cells.get id).quote ⟨q, cells.text q depth⟩

/-- Rendering under the rules `q`, with what the cells hold now. -/
def Cells.context (cells : Cells) (q : Quoting) : Context := ⟨q, cells.text q (cells.size + 1)⟩

/-! ## Clauses on their own -/

def groupByText (ctx : Context) (columns : List Ident) : Outcome String := do
  return "GROUP BY " ++ ", ".intercalate (← Ident.targets ctx columns)

def orderByText (ctx : Context) (keys : List SortKey) : Outcome String := do
  return "ORDER BY " ++ ", ".intercalate (← SortKey.texts ctx keys)

end SqlComposer
