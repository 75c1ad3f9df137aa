/-!
# The parts of a dotted name
-/

namespace SqlComposer.Text

/-- The pieces of a text between the occurrences of `mark`: always one more than those. -/
def splitAt (mark : Char) : List Char → List (List Char)
  | [] => [[]]
  | c :: s =>
    if c = mark then [] :: splitAt mark s
    else
      match splitAt mark s with
      | [] => [[c]]
      | piece :: rest => (c :: piece) :: rest

def dotted (s : String) : List String := (splitAt '.' s.toList).map String.ofList

theorem splitAt_ne_nil (mark : Char) (s : List Char) : splitAt mark s ≠ [] := by
  cases s with
  | nil => simp [splitAt]
  | cons c s =>
    simp only [splitAt]
    split
    · simp
    · split <;> simp

end SqlComposer.Text
