import SqlComposer.Proofs.Meeting
import SqlComposer.Statement

/-!
# Rendering in one phase

A second way to render a statement. It writes no text but parts, and it keeps apart what the text
runs together: the code around the values, names, literals, and the places of parameters. A query
inside another one has its places filled before its parts become parts of the outer one.
-/

namespace SqlComposer

inductive Part where
  /-- A character of a keyword, an operator, a number or a raw fragment. -/
  | code (c : Char)
  | name (s : String)
  | literal (s : String)
  | flag (b : Bool)
  /-- The place of a registered parameter. -/
  | place (key : String)
deriving DecidableEq, Repr

/-- The parts that belong in the place of a key. -/
structure Filling where
  key : String
  parts : List Part

/-- A statement with its places, and what belongs there. -/
structure Draft where
  parts : List Part
  /-- Every parameter is quoted, whether it has a place or not. -/
  fillings : Outcome (List Filling)

namespace Part

def word (s : String) : List Part := s.toList.map .code

def enclosed (ps : List Part) : List Part := word "(" ++ ps ++ word ")"

def joined (separator : String) (pss : List (List Part)) : List Part :=
  (word separator).intercalate pss

/-- The text of a part, with `texts` in the places. -/
def chars (q : Quoting) (texts : String → List Char) : Part → List Char
  | .code c => [c]
  | .name s => (q.wrap s).toList
  | .literal s => (q.literal s).toList
  | .flag b => (q.boolText b).toList
  | .place key => texts key

/-- The text of a part, with the keys left in their places. -/
def write (q : Quoting) : Part → List Char := chars q String.toList

def sql (q : Quoting) (ps : List Part) : String := String.ofList (ps.flatMap (write q))

def text (q : Quoting) (texts : String → String) (ps : List Part) : String :=
  String.ofList (ps.flatMap (chars q fun key => (texts key).toList))

/-- What the second phase should meet in a part: a key in the place of a parameter, else no key. -/
def met (q : Quoting) : Part → List Text.Met
  | .place key => [.key key]
  | p => (p.write q).map .char

theorem flatMap_write_met (q : Quoting) (texts : String → List Char) (p : Part) :
    (p.met q).flatMap (Text.Met.write texts) = p.chars q texts := by
  cases p <;> simp [met, write, chars, Text.Met.write, List.flatMap_map]

def isBlank : Part → Bool
  | .code c => Text.isBlank c
  | _ => false

def trim (ps : List Part) : List Part :=
  ((ps.dropWhile isBlank).reverse.dropWhile isBlank).reverse

def distinct (q : Quoting) (pss : List (List Part)) : List (List Part) :=
  pss.eraseDupsBy fun a b => a.flatMap (write q) == b.flatMap (write q)

def clause (keyword : String) (body : List Part) : List Part :=
  if body.isEmpty then [] else word keyword ++ body

def listClause (keyword separator : String) (pss : List (List Part)) : List Part :=
  if pss.isEmpty then [] else word keyword ++ joined separator pss

def united (ps : List Part) (branches : List (List Part)) : List Part :=
  if branches.isEmpty then ps else enclosed ps ++ branches.flatten

def directed (column : List Part) (direction : Option String) : Outcome (List Part) :=
  let direction := Text.upper (direction.getD "")
  if direction = "" then .ok column
  else if direction = "ASC" ∨ direction = "DESC" then .ok (column ++ word " " ++ word direction)
  else .error (.error (.unknownDirection direction))

def filling (table : List Filling) (key : String) : List Part :=
  ((table.find? (·.key == key)).map (·.parts)).getD []

def settle (table : List Filling) : Part → List Part
  | .place key => filling table key
  | p => [p]

end Part

def Draft.settled (d : Draft) : Outcome (List Part) := do
  return d.parts.flatMap (Part.settle (← d.fillings))

namespace Quoting

def partParts (role : Role) (part : String) : List Part :=
  if role = .column ∧ part = "*" then Part.word part else [.name part]

def nameParts (q : Quoting) (role : Role) (name : String) : List Part :=
  Part.joined "." ((q.parts role name).map (partParts role))

def aliasParts (q : Quoting) (role : Role) (name : String) : List Part :=
  [.name (if role = .table then q.tablePrefix ++ q.strip name else q.strip name)]

def targetParts (q : Quoting) (role : Role) (name : String) : List Part :=
  q.nameParts (if role = .table then .table else .plain) name

end Quoting

/-- An entry of a condition list, with the parts of a predicate. -/
inductive Stretch where
  | opening (logic : Logic)
  | closing
  | predicate (logic : Logic) (parts : List Part)

/-- The parts of the entries, laid out like texts. -/
def Stretch.layout : (started fresh : Bool) → List Stretch → List Part
  | _, _, [] => []
  | _, _, .closing :: rest => Part.word ")" ++ layout true false rest
  | started, fresh, .opening logic :: rest =>
    Part.word (Piece.connector (started && !fresh) logic) ++ Part.word "(" ++ layout true true rest
  | started, fresh, .predicate logic parts :: rest =>
    Part.word (Piece.connector (started && !fresh) logic) ++ parts ++
      layout (started || !parts.isEmpty) false rest

/-- What stands on the right of an operator: the bounds of BETWEEN, if the value has any, something
in the place of an empty list behind IN, and else the value. -/
def rightSide {α : Type} (op : String) (v : Value) (empty : α) (bounds : Option (Outcome α))
    (whole : Outcome α) : Outcome α :=
  if op = "BETWEEN" then bounds.getD whole
  else if op = "IN" ∧ v.isEmptyList then .ok empty
  else whole

/-! ## Terms -/

open SqlComposer.Part (word enclosed joined trim)

mutual
variable (ctx : Context)

/-- A value. A text in it that is a key has a place of its own, at any depth. -/
def Value.parts (isKey : String → Bool) : Value → Outcome (List Part)
  | .null => .ok (word "NULL")
  | .bool b => .ok [.flag b]
  | .int n => .ok (word (toString n.toInt))
  | .float x => .ok (word (ctx.quoting.floatText x))
  | .text s => .ok [if isKey s then .place s else .literal s]
  | .list items => do return enclosed (joined ", " (← Value.partLists isKey items))
  | .pair low high => do return (← low.parts isKey) ++ word " AND " ++ (← high.parts isKey)
  | .fragment f => do return word (← (f.template ctx).fill)
  | .subquery s => do return enclosed (← (← s.draft).settled)

def Value.partLists (isKey : String → Bool) : List Value → Outcome (List (List Part))
  | [] => .ok []
  | v :: rest => do return (← v.parts isKey) :: (← Value.partLists isKey rest)

def Value.boundParts (isKey : String → Bool) : Value → Option (Outcome (List Part))
  | .pair low high => some do
    return (← low.parts isKey) ++ word " AND " ++ (← high.parts isKey)
  | .list [low, high] => some do
    return (← low.parts isKey) ++ word " AND " ++ (← high.parts isKey)
  | _ => none

/-- A parameter stands for its value, in which no text has a place. -/
def Param.filling : Param → Outcome (Option Filling)
  | .value key v => do
    if key = "" then return none else return some ⟨key, ← v.parts fun _ => false⟩
  | .cell key id => do if key = "" then return none else return some ⟨key, word (← ctx.cell id)⟩

def Param.fillings : List Param → Outcome (List Filling)
  | [] => .ok []
  | p :: rest => do return (← p.filling).toList ++ (← Param.fillings rest)

def Params.fillings : Params → Outcome (List Filling)
  | ⟨entries⟩ => Param.fillings entries

def Ident.parts (role : Role) : Ident → Outcome (List Part)
  | .name s => .ok (ctx.quoting.nameParts role s)
  | .aliased inner name => do
    return (← inner.parts role) ++ word " AS " ++ ctx.quoting.aliasParts role name
  | .aliasName s => .ok (ctx.quoting.targetParts role s)
  | .fragment f => do return word (← (f.template ctx).fill)
  | .subquery s => do return enclosed (← (← s.draft).settled)

def Ident.partLists (role : Role) : List Ident → Outcome (List (List Part))
  | [] => .ok []
  | i :: rest => do return (← i.parts role) :: (← Ident.partLists role rest)

def Ident.subjectParts : Ident → Outcome (List Part)
  | .name s => .ok (if s = "" then [] else ctx.quoting.nameParts .column s)
  | .aliased inner _ => inner.parts .plain
  | .aliasName s => .ok (ctx.quoting.targetParts .column s)
  | .fragment f => do return word (← (f.template ctx).fill)
  | .subquery s => do return enclosed (← (← s.draft).settled)

def Ident.targetParts : Ident → Outcome (List Part)
  | .name s => .ok (ctx.quoting.nameParts .column s)
  | .aliased _ name => .ok (ctx.quoting.nameParts .plain name)
  | .aliasName s => .ok (ctx.quoting.nameParts .plain s)
  | .fragment f => do return word (← (f.template ctx).fill)
  | .subquery s => do return enclosed (← (← s.draft).settled)

def Ident.targetPartLists : List Ident → Outcome (List (List Part))
  | [] => .ok []
  | i :: rest => do return (← i.targetParts) :: (← Ident.targetPartLists rest)

def Condition.stretch (isKey : String → Bool) : Condition → Outcome Stretch
  | .opening logic => .ok (.opening logic)
  | .closing _ => .ok .closing
  | .predicate logic column op value => do
    let op := operator op value
    let right ← rightSide op value (word "(NULL)") (value.boundParts isKey) (value.parts isKey)
    let left ← column.subjectParts
    return .predicate logic (trim (left ++ word " " ++ word op ++ word " " ++ right))

def Condition.stretches (isKey : String → Bool) : List Condition → Outcome (List Stretch)
  | [] => .ok []
  | c :: rest => do return (← c.stretch isKey) :: (← Condition.stretches isKey rest)

def Criteria.parts (isKey : String → Bool) : Criteria → Outcome (List Part)
  | ⟨entries⟩ => do return Stretch.layout false false (← Condition.stretches isKey entries)

def OnPair.parts : OnPair → Outcome (List Part)
  | ⟨left, op, right⟩ => do
    return (← left.parts .column) ++ word (joinOperator op) ++ word " " ++ (← right.parts .column)

def OnPair.partLists : List OnPair → Outcome (List (List Part))
  | [] => .ok []
  | p :: rest => do return (← p.parts) :: (← OnPair.partLists rest)

def JoinCondition.parts : JoinCondition → Outcome (List Part)
  | .free => .ok []
  | .on pairs => do return word " ON " ++ enclosed (joined " AND " (← OnPair.partLists pairs))
  | .using columns => do
    return word " USING " ++ enclosed (joined ", " (← Ident.partLists .column columns))

def Join.parts : Join → Outcome (List Part)
  | ⟨table, kind, condition⟩ => do
    return word (joinWord kind) ++ (← table.parts .table) ++ (← condition.parts)

def Join.partLists : List Join → Outcome (List (List Part))
  | [] => .ok []
  | j :: rest => do return (← j.parts) :: (← Join.partLists rest)

def SortKey.parts : SortKey → Outcome (List Part)
  | ⟨column, direction⟩ => do Part.directed (← column.targetParts) direction

def SortKey.partLists : List SortKey → Outcome (List (List Part))
  | [] => .ok []
  | k :: rest => do return (← k.parts) :: (← SortKey.partLists rest)

def BranchSource.parts : BranchSource → Outcome (List Part)
  | .table t => do return word "SELECT * FROM " ++ (← t.parts .table)
  | .select s => do (← s.draft).settled
  | .query q => do return word (← (q.template ctx).fill)

def Branch.parts : Branch → Outcome (List Part)
  | ⟨source, all⟩ => do
    return word (if all then " UNION ALL " else " UNION ") ++ enclosed (← source.parts)

def Branch.partLists : List Branch → Outcome (List (List Part))
  | [] => .ok []
  | b :: rest => do return (← b.parts) :: (← Branch.partLists rest)

def Select.draft : Select → Outcome Draft
  | ⟨distinct, columns, tables, joins, ⟨criteria, orderBy, limit⟩, groupBy, having, offset, unions,
      ⟨params, _, _⟩⟩ => do
    let columns ← Ident.partLists .column columns
    let tables ← Ident.partLists .table tables
    let joins ← Join.partLists joins
    let criteria ← criteria.parts params.contains
    let groupBy ← Ident.targetPartLists groupBy
    let having ← having.parts params.contains
    let orderBy ← SortKey.partLists orderBy
    let unions ← Branch.partLists unions
    let parts :=
      word (if distinct then "SELECT DISTINCT " else "SELECT ") ++
      (if columns.isEmpty then word "*" else joined ", " (Part.distinct ctx.quoting columns)) ++
      Part.listClause " FROM " ", " (Part.distinct ctx.quoting tables) ++
      Part.listClause " " " " joins ++
      Part.clause " WHERE " criteria ++
      Part.listClause " GROUP BY " ", " groupBy ++
      Part.clause " HAVING " having ++
      Part.listClause " ORDER BY " ", " orderBy ++
      word (countClause " LIMIT " limit) ++
      word (countClause " OFFSET " offset)
    return ⟨Part.united parts unions, params.fillings⟩

end

theorem Condition.piece_predicate (ctx : Context) (isKey : String → Bool) (logic : Logic)
    (column : Ident) (op : String) (value : Value) :
    (Condition.predicate logic column op value).piece ctx isKey = (do
      let right ← rightSide (operator op value) value "(NULL)" (value.bounds ctx isKey)
        (operand isKey value (value.quote ctx))
      let left ← column.subject ctx
      return .predicate logic (Text.trim (left ++ " " ++ operator op value ++ " " ++ right))) := by
  simp only [Condition.piece, rightSide]
  split
  · cases value.bounds ctx isKey <;> rfl
  · split <;> rfl

/-! ## Statements -/

def Scope.parts (s : Scope) (ctx : Context) (isKey : String → Bool) : Outcome (List Part) := do
  let criteria ← s.criteria.parts ctx isKey
  let orderBy ← SortKey.partLists ctx s.orderBy
  return Part.clause " WHERE " criteria ++ Part.listClause " ORDER BY " ", " orderBy ++
    word (countClause " LIMIT " s.limit)

namespace Insert

def rowParts (ctx : Context) (isKey : String → Bool) (row : List Value) : Outcome (List Part) := do
  return enclosed (joined ", " (← row.mapM fun v => v.parts ctx isKey))

def sourceParts (ctx : Context) (isKey : String → Bool) : RowSource → Outcome (List Part)
  | .values rows => do return word "VALUES " ++ joined ", " (← rows.mapM (rowParts ctx isKey))
  | .query (.select s) => do (← s.draft ctx).settled
  | .query (.query q) => do return word (← (q.template ctx).fill)

def draft (i : Insert) (ctx : Context) : Outcome Draft := do
  match i.table with
  | none => .error (.error (.noTarget .insert))
  | some table =>
    let table ← table.parts ctx .table
    let columns ← Ident.partLists ctx .column i.columns
    let source ← sourceParts ctx i.request.params.contains i.source
    let columns := if columns.isEmpty then [] else enclosed (joined ", " columns) ++ word " "
    return ⟨word "INSERT INTO " ++ table ++ word " " ++ columns ++ source,
      i.request.params.fillings ctx⟩

end Insert

/-- The text of a column, and the parts of its whole assignment. -/
structure AssignmentParts where
  column : List Char
  parts : List Part

namespace AssignmentParts

def put (a : AssignmentParts) : List AssignmentParts → List AssignmentParts
  | [] => [a]
  | b :: rest => if b.column = a.column then a :: rest else b :: put a rest

/-- One assignment per column. -/
def merge (list : List AssignmentParts) : List AssignmentParts :=
  list.foldl (fun merged a => put a merged) []

end AssignmentParts

def Assignment.parts (ctx : Context) (isKey : String → Bool) (a : Assignment) :
    Outcome AssignmentParts := do
  let column ← a.column.parts ctx .column
  return ⟨column.flatMap (Part.write ctx.quoting), column ++ word " = " ++ (← a.value.parts ctx isKey)⟩

def Assignment.listParts (ctx : Context) (isKey : String → Bool) (as : List Assignment) :
    Outcome (List Part) := do
  return joined ", " ((AssignmentParts.merge (← as.mapM (·.parts ctx isKey))).map (·.parts))

def Update.draft (u : Update) (ctx : Context) : Outcome Draft := do
  match u.table with
  | none => .error (.error (.noTarget .update))
  | some table =>
    let table ← table.parts ctx .table
    let assignments ← Assignment.listParts ctx u.request.params.contains u.assignments
    let scope ← u.scope.parts ctx u.request.params.contains
    return ⟨word "UPDATE " ++ table ++ word " SET " ++ assignments ++ scope,
      u.request.params.fillings ctx⟩

def Delete.draft (d : Delete) (ctx : Context) : Outcome Draft := do
  match d.table with
  | none => .error (.error (.noTarget .delete))
  | some table =>
    let table ← table.parts ctx .table
    let scope ← d.scope.parts ctx d.request.params.contains
    return ⟨word "DELETE FROM " ++ table ++ scope, d.request.params.fillings ctx⟩

namespace Statement

/-- A statement with its places. SQL written by hand is all code. -/
def draft (s : Statement) (ctx : Context) : Outcome Draft :=
  match s with
  | .raw q => .ok ⟨word q.sql, q.request.params.fillings ctx⟩
  | .select s => s.draft ctx
  | .insert i => i.draft ctx
  | .update u => u.draft ctx
  | .delete d => d.draft ctx

def direct (s : Statement) (ctx : Context) : Outcome (List Part) := do
  (← s.draft ctx).settled

end Statement

end SqlComposer
