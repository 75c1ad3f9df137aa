import SqlComposer.Builder.Join
import SqlComposer.Builder.Request
import SqlComposer.Builder.Scope

/-!
# Building a SELECT
-/

namespace SqlComposer

namespace Select

inductive Call where
  | request (c : Request.Call)
  | scope (c : Scope.Call)
  /-- Forgets everything but the execution options. -/
  | reset
  | distinct (yes : Bool)
  | addColumns (columns : List Ident)
  | setColumns (columns : List Ident)
  | from (table : Ident)
  | join (table : Ident) (kind : Option String)
  /-- Goes to the last join, as USING does. -/
  | on (pair : OnPair)
  | using (columns : List Ident)
  | groupBy (columns : List Ident)
  | having (c : Criteria.Call)
  | offset (n : Nat)
  | union (source : BranchSource) (all : Bool)

/-- Changes the last join, if there is one. -/
def onLastJoin (change : Change Join Unit) : Change Select Unit := do
  match (← get).joins.getLast? with
  | none => throw .noJoin
  | some last =>
    let (result, last) := change.on last
    modify fun s => { s with joins := s.joins.dropLast ++ [last] }
    Change.check result

/-- A raw query may only be a branch when it is a SELECT. -/
def checkBranch : BranchSource → Except Error Unit
  | .query q => if q.kind = .select then .ok () else .error (.branchNotSelect q.kind)
  | _ => .ok ()

def addBranch (source : BranchSource) (all : Bool) : Change Select Unit := do
  Change.check (checkBranch source)
  modify fun s => { s with unions := s.unions ++ [⟨source, all⟩] }

def change : Call → Change Select Unit
  | .request c => modify fun s => { s with request := s.request.apply c }
  | .scope c => modify fun s => { s with scope := s.scope.apply c }
  | .reset => modify fun s => { Select.empty with request := s.request.reset }
  | .distinct yes => modify ({ · with distinct := yes })
  | .addColumns columns => modify fun s => { s with columns := s.columns ++ columns }
  | .setColumns columns => modify ({ · with columns })
  | .from table => modify fun s => { s with tables := s.tables ++ [table] }
  | .join table kind => modify fun s => { s with joins := s.joins ++ [.new table kind] }
  | .on pair => onLastJoin (Join.addOn pair)
  | .using columns => onLastJoin (Join.addUsing columns)
  | .groupBy columns => modify fun s => { s with groupBy := s.groupBy ++ columns }
  | .having c => modify fun s => { s with having := s.having.apply c }
  | .offset n => modify ({ · with offset := some n })
  | .union source all => addBranch source all

/-- The methods of HAVING. -/
def havingCall (m : ConditionMethod) : Call :=
  .having <| match m with
    | .plain column op value => .add .and column op value
    | .and column op value => .add .and column op value
    | .or column op value => .add .or column op value
    | .plainOpen => .opening .and
    | .andOpen => .opening .and
    | .orOpen => .opening .or
    | .plainClose => .closing .and
    | .andClose => .closing .and
    | .orClose => .closing .or
    | .closeEmpty => .closingEmpty .and

/-! Two kinds of joins have methods of their own. -/

def leftJoin (table : Ident) : Call := .join table (some "LEFT")

def innerJoin (table : Ident) : Call := .join table (some "INNER")

def apply (s : Select) (c : Call) : Except Error Select := (change c).apply s

/-! ## What a call does -/

theorem on_onLastJoin (change : Change Join Unit) (s : Select) :
    (onLastJoin change).on s =
      match s.joins.getLast? with
      | none => (.error .noJoin, s)
      | some last =>
        ((change.on last).1, { s with joins := s.joins.dropLast ++ [(change.on last).2] }) := by
  unfold onLastJoin
  rw [Change.on_get_bind]
  cases s.joins.getLast? <;> simp

theorem on_addBranch (source : BranchSource) (all : Bool) (s : Select) :
    (addBranch source all).on s =
      match checkBranch source with
      | .ok () => (.ok (), { s with unions := s.unions ++ [⟨source, all⟩] })
      | .error e => (.error e, s) := by
  unfold addBranch
  rw [Change.on_check_bind]
  cases checkBranch source <;> simp

end Select

end SqlComposer
