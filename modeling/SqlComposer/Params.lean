import SqlComposer.Term

/-!
# Parameters and cells

Parameters are a map that keeps the order of first registration. A parameter is bound to a value,
or to a cell that several statements may share and that may be written at any time.
-/

namespace SqlComposer

/-! ## Cells -/

/-- What the cells hold, by their number. -/
structure Cells where
  contents : List Value

namespace Cells

def empty : Cells := ⟨[]⟩

def size (cells : Cells) : Nat := cells.contents.length

/-- What a cell holds. A cell that was never made holds NULL. -/
def get (cells : Cells) (id : CellId) : Value := cells.contents[id]?.getD .null

def alloc (cells : Cells) (v : Value) : CellId × Cells :=
  (cells.size, ⟨cells.contents ++ [v]⟩)

def set (cells : Cells) (id : CellId) (v : Value) : Cells := ⟨cells.contents.set id v⟩

end Cells

/-! ## Parameters -/

namespace Param

def key : Param → String
  | .value key _ => key
  | .cell key _ => key

/-- What the parameter stands for now. -/
def current (cells : Cells) : Param → Value
  | .value _ v => v
  | .cell _ id => cells.get id

end Param

namespace Params

def keys (params : Params) : List String := params.entries.map Param.key

def size (params : Params) : Nat := params.entries.length

def isEmpty (params : Params) : Bool := params.entries.isEmpty

def contains (params : Params) (key : String) : Bool := params.entries.any (·.key == key)

theorem contains_eq (params : Params) (key : String) :
    params.contains key = params.keys.contains key := by
  simp only [contains, keys, List.contains_eq_any_beq, List.any_map]
  congr 1
  funext p
  exact Bool.beq_comm

/-- Registers a parameter in a list of entries, in the place of the one that has its key. -/
def register (entries : List Param) (p : Param) : List Param :=
  match entries with
  | [] => [p]
  | q :: rest => if q.key == p.key then p :: rest else q :: register rest p

/-- Registers a parameter. A key keeps its place when it is registered again. -/
def insert (params : Params) (p : Param) : Params := ⟨register params.entries p⟩

def set (params : Params) (key : String) (v : Value) : Params := params.insert (.value key v)

def bind (params : Params) (key : String) (id : CellId) : Params := params.insert (.cell key id)

/-- Registers what is registered in another set of parameters, in the order that it has there. -/
def extend (params other : Params) : Params := other.entries.foldl insert params

def clear (_ : Params) : Params := .empty

def get? (params : Params) (cells : Cells) (key : String) : Option Value :=
  (params.entries.find? (·.key == key)).map (·.current cells)

def bindings (params : Params) (cells : Cells) : List (String × Value) :=
  params.entries.map fun p => (p.key, p.current cells)

end Params

/-- Whether a value is text that names a parameter. -/
def Value.isPlaceholder (params : Params) : Value → Bool
  | .text key => params.contains key
  | _ => false

namespace Fragment

def new (sql : String) : Fragment := ⟨sql, .empty⟩

def param (f : Fragment) (key : String) (v : Value) : Fragment := ⟨f.sql, f.params.set key v⟩

def bind (f : Fragment) (key : String) (id : CellId) : Fragment := ⟨f.sql, f.params.bind key id⟩

end Fragment

end SqlComposer
