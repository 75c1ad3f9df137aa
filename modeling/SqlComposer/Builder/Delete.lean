import SqlComposer.Builder.Request
import SqlComposer.Builder.Scope

/-!
# Building a DELETE
-/

namespace SqlComposer

structure Delete where
  table : Option Ident := none
  scope : Scope := .empty
  request : Request := .empty

instance : Inhabited Delete := ⟨{}⟩

namespace Delete

inductive Call where
  | request (c : Request.Call)
  | scope (c : Scope.Call)
  /-- Forgets everything but the execution options. -/
  | reset
  | table (t : Ident)

def of (table : Ident) : Delete := { table := some table }

def apply (d : Delete) : Call → Delete
  | .request c => { d with request := d.request.apply c }
  | .scope c => { d with scope := d.scope.apply c }
  | .reset => { request := d.request.reset }
  | .table t => { d with table := some t }

def template (d : Delete) (ctx : Context) : Outcome Template := do
  match d.table with
  | none => .error (.error (.noTarget .delete))
  | some table =>
    let table ← table.text ctx .table
    let scope ← d.scope.text ctx d.request.params.contains
    return ⟨"DELETE FROM " ++ table ++ scope, d.request.params.replacements ctx⟩

end Delete

end SqlComposer
