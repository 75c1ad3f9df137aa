import SqlComposer.Builder.Change
import SqlComposer.Render

/-!
# Building joins

A join compares columns with ON, or names common columns with USING. The first of the two calls
decides which.
-/

namespace SqlComposer

namespace Join

inductive Call where
  | on (pair : OnPair)
  | using (columns : List Ident)

def new (table : Ident) (kind : Option String) : Join := ⟨table, kind, .free⟩

def addOn (pair : OnPair) : Change Join Unit := do
  match (← get).condition with
  | .using _ => throw .mixedJoinConditions
  | .on pairs => modify ({ · with condition := .on (pairs ++ [pair]) })
  | .free => modify ({ · with condition := .on [pair] })

def addUsing (columns : List Ident) : Change Join Unit := do
  match (← get).condition with
  | .on _ => throw .mixedJoinConditions
  | .using earlier => modify ({ · with condition := .using (earlier ++ columns) })
  | .free => modify ({ · with condition := .using columns })

def change : Call → Change Join Unit
  | .on pair => addOn pair
  | .using columns => addUsing columns

def apply (j : Join) (c : Call) : Except Error Join := (change c).apply j

/-! ## What a call does -/

theorem on_addOn (pair : OnPair) (j : Join) :
    (addOn pair).on j =
      match j.condition with
      | .using _ => (.error .mixedJoinConditions, j)
      | .on pairs => (.ok (), { j with condition := .on (pairs ++ [pair]) })
      | .free => (.ok (), { j with condition := .on [pair] }) := by
  unfold addOn
  rw [Change.on_get_bind]
  cases j.condition <;> simp

theorem on_addUsing (columns : List Ident) (j : Join) :
    (addUsing columns).on j =
      match j.condition with
      | .on _ => (.error .mixedJoinConditions, j)
      | .using earlier => (.ok (), { j with condition := .using (earlier ++ columns) })
      | .free => (.ok (), { j with condition := .using columns }) := by
  unfold addUsing
  rw [Change.on_get_bind]
  cases j.condition <;> simp

end Join

end SqlComposer
