import SqlComposer.Render

/-!
# Building conditions

Conditions are added one by one, and groups are opened and closed in between. Nobody checks that
they match: what is opened and never closed is rendered that way.
-/

namespace SqlComposer

/-- The methods for conditions, which WHERE and HAVING name alike. -/
inductive ConditionMethod where
  | plain (column : Ident) (op : String) (value : Value)
  | and (column : Ident) (op : String) (value : Value)
  | or (column : Ident) (op : String) (value : Value)
  | plainOpen
  | andOpen
  | orOpen
  | plainClose
  | andClose
  | orClose
  | closeEmpty

namespace Criteria

inductive Call where
  | add (logic : Logic) (column : Ident) (op : String) (value : Value)
  | opening (logic : Logic)
  | closing (logic : Logic)
  /-- Closes the group, or takes the opening back when nothing follows it. -/
  | closingEmpty (logic : Logic)
  | clear

def size (c : Criteria) : Nat := c.entries.length

def isEmpty (c : Criteria) : Bool := c.entries.isEmpty

def push (c : Criteria) (entry : Condition) : Criteria := ⟨c.entries ++ [entry]⟩

/-- Whether the last entry opens a group. -/
def endsOpen (c : Criteria) : Bool :=
  match c.entries.getLast? with
  | some (.opening _) => true
  | _ => false

def apply (c : Criteria) : Call → Criteria
  | .add logic column op value => c.push (.predicate logic column op value)
  | .opening logic => c.push (.opening logic)
  | .closing logic => c.push (.closing logic)
  | .closingEmpty logic => if c.endsOpen then ⟨c.entries.dropLast⟩ else c.push (.closing logic)
  | .clear => .empty

def run (calls : List Call) : Criteria := calls.foldl apply .empty

/-- The conditions as SQL, with the placeholders of `params` left in place. -/
def compile (c : Criteria) (ctx : Context) (params : Params) : Outcome String :=
  c.text ctx params.contains

end Criteria

end SqlComposer
