import SqlComposer.Builder.Request
import SqlComposer.Builder.Scope

/-!
# Building an UPDATE

Columns with the same text are assigned once: in the place of the first assignment, with the
value of the last.
-/

namespace SqlComposer

structure Assignment where
  column : Ident
  value : Value

structure Update where
  table : Option Ident := none
  assignments : List Assignment := []
  scope : Scope := .empty
  request : Request := .empty

instance : Inhabited Update := ⟨{}⟩

/-- A column between marks, and its whole assignment. -/
structure AssignmentText where
  column : String
  text : String
deriving DecidableEq, Repr

namespace AssignmentText

/-- Puts an assignment in the place of the one that has its column, or at the end. -/
def put (a : AssignmentText) : List AssignmentText → List AssignmentText
  | [] => [a]
  | b :: rest => if b.column = a.column then a :: rest else b :: put a rest

def merge (texts : List AssignmentText) : List AssignmentText :=
  texts.foldl (fun merged a => put a merged) []

end AssignmentText

/-- An assignment, column first. -/
def Assignment.text (ctx : Context) (isKey : String → Bool) (a : Assignment) :
    Outcome AssignmentText := do
  let column ← a.column.text ctx .column
  return ⟨column, column ++ " = " ++ (← operand isKey a.value (a.value.quote ctx))⟩

def Assignment.listText (ctx : Context) (isKey : String → Bool) (as : List Assignment) :
    Outcome String := do
  return ", ".intercalate ((AssignmentText.merge (← as.mapM (·.text ctx isKey))).map (·.text))

namespace Update

inductive Call where
  | request (c : Request.Call)
  | scope (c : Scope.Call)
  /-- Forgets everything but the execution options. -/
  | reset
  | table (t : Ident)
  | set (assignments : List Assignment)

def of (table : Ident) : Update := { table := some table }

def apply (u : Update) : Call → Update
  | .request c => { u with request := u.request.apply c }
  | .scope c => { u with scope := u.scope.apply c }
  | .reset => { request := u.request.reset }
  | .table t => { u with table := some t }
  | .set assignments => { u with assignments := u.assignments ++ assignments }

def template (u : Update) (ctx : Context) : Outcome Template := do
  match u.table with
  | none => .error (.error (.noTarget .update))
  | some table =>
    let table ← table.text ctx .table
    let assignments ← Assignment.listText ctx u.request.params.contains u.assignments
    let scope ← u.scope.text ctx u.request.params.contains
    return ⟨"UPDATE " ++ table ++ " SET " ++ assignments ++ scope,
      u.request.params.replacements ctx⟩

end Update

end SqlComposer
