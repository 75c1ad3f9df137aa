import SqlComposer.Json

/-!
# Rows

A row has the columns of its result and values of its own, which may be fewer or more.
-/

namespace SqlComposer

structure Row where
  columns : List String
  values : List Value

instance : Inhabited Row := ⟨⟨[], []⟩⟩

namespace Row

/-- The value of the first column with a name. -/
def get? (row : Row) (column : String) : Option Value :=
  (row.columns.idxOf? column).bind fun i => row.values[i]?

/-- The members of the row as a JSON object. Of columns with one name the last counts. -/
def members (row : Row) : List (Entry Json) :=
  Keyed.ofList (row.columns.zipWith (fun column v => ⟨column, v.toJson⟩) row.values)

def toJson (row : Row) : Json := .object row.members

end Row

end SqlComposer
