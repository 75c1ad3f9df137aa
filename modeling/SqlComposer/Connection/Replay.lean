import SqlComposer.Connection.Basic

/-!
# A driver that replays answers

It gives prepared answers one after the other, whatever it is asked, and remembers the calls.
-/

namespace SqlComposer

structure Replay where
  answers : List (Except Error Output)
  calls : List DriverCall := []

/-- The next answer. When there is none left, a statement concerns no rows. -/
def Replay.answer (call : DriverCall) (r : Replay) : Except Error Output × Replay :=
  (r.answers.headD (.ok (.affected 0)), ⟨r.answers.drop 1, r.calls ++ [call]⟩)

end SqlComposer
