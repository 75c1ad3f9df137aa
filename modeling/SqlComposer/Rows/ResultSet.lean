import SqlComposer.Error
import SqlComposer.Rows.Row

/-!
# Result sets

The rows of a query, with a cursor that starts on the first one. The cursor may stand behind the
last row, never further.
-/

namespace SqlComposer

structure ResultSet where
  rows : List Row
  position : Nat := 0
  /-- Whether the rows come from the cache. -/
  cached : Bool := false

instance : Inhabited ResultSet := ⟨⟨[], 0, false⟩⟩

namespace ResultSet

def size (r : ResultSet) : Nat := r.rows.length

def isEmpty (r : ResultSet) : Bool := r.rows.isEmpty

/-! ## Cursor -/

def current? (r : ResultSet) : Option Row := r.rows[r.position]?

/-- The current row, and the result with the cursor on the next one. -/
def next (r : ResultSet) : Option Row × ResultSet :=
  match r.current? with
  | some row => (some row, { r with position := r.position + 1 })
  | none => (none, r)

/-- Moves the cursor to a row. Fails, and moves nothing, when there is no such row. -/
def seek (r : ResultSet) (position : Nat) : Bool × ResultSet :=
  if position < r.size then (true, { r with position }) else (false, r)

def rewind (r : ResultSet) : ResultSet := { r with position := 0 }

def get? (r : ResultSet) (column : String) : Option Value := r.current?.bind (·.get? column)

/-! ## All rows -/

/-- The values of a column. A row without it counts as NULL. -/
def column (r : ResultSet) (column : String) : List Value :=
  r.rows.map fun row => (row.get? column).getD .null

/-- The key that a value stands for: text itself, nothing for NULL, else JSON. -/
def keyOf : Value → String
  | .text s => s
  | .null => ""
  | v => v.toJson.compact

/-- Maps one column to another, in the order of the keys. The last row with a key counts. -/
def asMap (r : ResultSet) (key value : String) : List (Entry Value) :=
  Keyed.ofList (r.rows.filterMap fun row =>
    (row.get? key).map fun k => ⟨keyOf k, (row.get? value).getD .null⟩)

end ResultSet

/-! ## What a statement gives -/

inductive Output where
  | rows (r : ResultSet)
  /-- An INSERT, with the new key if the database tells it. -/
  | inserted (id : Option Int64) (affected : Nat)
  | affected (n : Nat)

instance : Inhabited Output := ⟨.affected 0⟩

namespace Output

def affectedRows : Output → Nat
  | .rows r => r.size
  | .inserted _ n => n
  | .affected n => n

def insertId? : Output → Option Int64
  | .inserted id _ => id
  | _ => none

/-- The rows of a query. Other statements have none. -/
def intoRows : Output → Except Error ResultSet
  | .rows r => .ok r
  | o => .error (.other ("statement returned no rows (" ++ toString o.affectedRows ++ " affected)"))

end Output

end SqlComposer
