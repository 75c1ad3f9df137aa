import SqlComposer.Builder.Criteria

/-!
# Which rows a statement is about

Conditions, order and limit, which SELECT, UPDATE and DELETE share.
-/

namespace SqlComposer

namespace Scope

inductive Call where
  | filter (c : Criteria.Call)
  | orderBy (column : Ident) (direction : Option String)
  | limit (n : Nat)

def apply (s : Scope) : Call → Scope
  | .filter c => { s with criteria := s.criteria.apply c }
  | .orderBy column direction => { s with orderBy := s.orderBy ++ [⟨column, direction⟩] }
  | .limit n => { s with limit := some n }

/-- The methods of WHERE. -/
def whereCall (m : ConditionMethod) : Call :=
  .filter <| match m with
    | .plain column op value => .add .and column op value
    | .and column op value => .add .and column op value
    | .or column op value => .add .or column op value
    | .plainOpen => .opening .and
    | .andOpen => .opening .and
    | .orOpen => .opening .or
    | .plainClose => .closing .and
    | .andClose => .closing .and
    | .orClose => .closing .or
    | .closeEmpty => .closingEmpty .and

/-- The clauses of the scope, as UPDATE and DELETE end with them. -/
def text (s : Scope) (ctx : Context) (isKey : String → Bool) : Outcome String := do
  let criteria ← s.criteria.text ctx isKey
  let orderBy ← SortKey.texts ctx s.orderBy
  return clause " WHERE " criteria ++ listClause " ORDER BY " ", " orderBy ++
    countClause " LIMIT " s.limit

end Scope

end SqlComposer
