import SqlComposer.Term

/-!
# Laying out conditions

A condition list whose predicates already have texts. A connector stands in front of an entry
unless nothing has been written yet or the entry is the first of its group.
-/

namespace SqlComposer

/-- An entry of a condition list, with the text of a predicate. -/
inductive Piece where
  | opening (logic : Logic)
  | closing
  | predicate (logic : Logic) (text : String)
deriving DecidableEq, Repr

namespace Piece

def connector (connects : Bool) (logic : Logic) : String :=
  if connects then " " ++ logic.keyword ++ " " else ""

/-- The text of the entries. `started` says that something has been written, `fresh` that the
entry before opened a group. -/
def layout : (started fresh : Bool) → List Piece → String
  | _, _, [] => ""
  | _, _, .closing :: rest => ")" ++ layout true false rest
  | started, fresh, .opening logic :: rest =>
    connector (started && !fresh) logic ++ "(" ++ layout true true rest
  | started, fresh, .predicate logic text :: rest =>
    connector (started && !fresh) logic ++ text ++ layout (started || text != "") false rest

end Piece

end SqlComposer
