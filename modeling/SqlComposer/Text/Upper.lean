import SqlComposer.Text.UpperTable

/-!
# Upper case

The full mapping, character by character: one character may become several, as the sharp s does.
-/

namespace SqlComposer.Text

/-- A character of a run, moved by its shift. -/
def CaseRun.shifted? (r : CaseRun) (n : Nat) : Option Nat :=
  if r.first ≤ n ∧ n ≤ r.last ∧ (n - r.first) % r.step = 0 then some (n + r.shift).toNat else none

/-- The code points of the upper case of a character beyond ASCII. -/
def upperCodes (n : Nat) : List Nat :=
  match caseExpansions.find? (·.code == n) with
  | some e => e.upper
  | none => [(caseRuns.findSome? (·.shifted? n)).getD n]

def upperChar (c : Char) : List Char :=
  if c.toNat < 128 then [c.toUpper] else (upperCodes c.toNat).map Char.ofNat

def upper (s : String) : String := String.ofList (s.toList.flatMap upperChar)

end SqlComposer.Text
