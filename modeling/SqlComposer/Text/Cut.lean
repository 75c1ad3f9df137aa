/-!
# Cutting a text to a number of bytes

A cut never splits a character.
-/

namespace SqlComposer.Text

/-- The characters from the start that fit into `room` bytes of UTF-8. -/
def takeBytes : Nat → List Char → List Char
  | _, [] => []
  | room, c :: s => if c.utf8Size ≤ room then c :: takeBytes (room - c.utf8Size) s else []

/-- The longest start of a text that has at most `room` bytes. -/
def cut (room : Nat) (s : String) : String := String.ofList (takeBytes room s.toList)

end SqlComposer.Text
