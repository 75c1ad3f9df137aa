import SqlComposer.Kind
import SqlComposer.Options

/-!
# Values, names and queries

A value may be a query, a query holds names, conditions and values, and each of them may hold a
raw fragment with parameters of its own. So they are defined together.
-/

namespace SqlComposer

inductive Logic where
  | and
  | or
deriving DecidableEq, Repr, Inhabited

def Logic.keyword : Logic → String
  | .and => "AND"
  | .or => "OR"

/-- The name of a shared cell. What it holds is looked up when a statement is rendered. -/
abbrev CellId := Nat

mutual

inductive Value where
  | null
  | bool (b : Bool)
  | int (n : Int64)
  | float (x : Float)
  /-- Text. When it is a registered key it stands for the parameter. -/
  | text (s : String)
  | list (items : List Value)
  | pair (low high : Value)
  | fragment (f : Fragment)
  | subquery (s : Select)

/-- A registered parameter: its key, and a value or a cell. -/
inductive Param where
  | value (key : String) (v : Value)
  | cell (key : String) (id : CellId)

/-- Parameters in the order in which their keys were first registered. -/
structure Params where
  entries : List Param

/-- SQL that is written as it is, with placeholders. -/
structure Fragment where
  sql : String
  params : Params

inductive Ident where
  /-- A name, whose parts stand between dots. -/
  | name (s : String)
  /-- A reference that gets an alias. -/
  | aliased (inner : Ident) (name : String)
  /-- An alias that is defined elsewhere. -/
  | aliasName (s : String)
  | fragment (f : Fragment)
  | subquery (s : Select)

/-- One entry of a condition list. Groups are a matter of rendering: an entry opens or closes. -/
inductive Condition where
  | opening (logic : Logic)
  | closing (logic : Logic)
  | predicate (logic : Logic) (column : Ident) (op : String) (value : Value)

structure Criteria where
  entries : List Condition

structure OnPair where
  left : Ident
  op : String
  right : Ident

inductive JoinCondition where
  | free
  | on (pairs : List OnPair)
  | using (columns : List Ident)

structure Join where
  table : Ident
  kind : Option String
  condition : JoinCondition

structure SortKey where
  column : Ident
  direction : Option String

/-- The rows a statement is about: which, in which order, and how many. -/
structure Scope where
  criteria : Criteria
  orderBy : List SortKey
  limit : Option Nat

/-- What a statement carries beside its clauses. -/
structure Request where
  params : Params
  options : Options
  /-- The SQL of the last successful compilation. -/
  lastSql : Option String

structure RawQuery where
  kind : Kind
  sql : String
  request : Request

/-- What a UNION adds: all rows of a table, or the rows of a query. -/
inductive BranchSource where
  | table (t : Ident)
  | select (s : Select)
  | query (q : RawQuery)

structure Branch where
  source : BranchSource
  all : Bool

structure Select where
  distinct : Bool
  columns : List Ident
  tables : List Ident
  joins : List Join
  scope : Scope
  groupBy : List Ident
  having : Criteria
  offset : Option Nat
  unions : List Branch
  request : Request

end

instance : Inhabited Value := ⟨.null⟩
instance : Inhabited Ident := ⟨.name ""⟩

/-! ## Empty terms -/

def Params.empty : Params := ⟨[]⟩
def Criteria.empty : Criteria := ⟨[]⟩
def Scope.empty : Scope := ⟨.empty, [], none⟩
def Request.empty : Request := ⟨.empty, {}, none⟩

/-- A SELECT without clauses: all columns. -/
def Select.empty : Select := ⟨false, [], [], [], .empty, [], .empty, none, [], .empty⟩

def RawQuery.new (kind : Kind) (sql : String) : RawQuery := ⟨kind, sql, .empty⟩

/-- A query whose kind is read off its text. -/
def RawQuery.ofSql (sql : String) : RawQuery := .new (.ofSql sql) sql

instance : Inhabited Select := ⟨.empty⟩

/-! ## Asking a value what it is -/

namespace Value

def isNull : Value → Bool
  | .null => true
  | _ => false

def text? : Value → Option String
  | .text s => some s
  | _ => none

def int? : Value → Option Int64
  | .int n => some n
  | _ => none

def isEmptyList : Value → Bool
  | .list [] => true
  | _ => false

end Value

namespace Ident

def isAliased : Ident → Bool
  | .aliased _ _ => true
  | _ => false

end Ident

end SqlComposer
