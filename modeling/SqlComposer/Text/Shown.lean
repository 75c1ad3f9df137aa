import SqlComposer.Text.Hidden

/-!
# Showing a text in a message

Double quotes around it, and an escape for every character that the quotes, the line or the eye
would lose.
-/

namespace SqlComposer.Text

/-- A character by its code point, in lower-case hexadecimal digits without zeros in front. -/
def codeEscape (c : Char) : List Char :=
  ['\\', 'u', '\x7b'] ++ Nat.toDigits 16 c.toNat ++ ['\x7d']

def shownChar (c : Char) : List Char :=
  if c = '\x00' then ['\\', '0']
  else if c = '\t' then ['\\', 't']
  else if c = '\r' then ['\\', 'r']
  else if c = '\n' then ['\\', 'n']
  else if c = '"' ∨ c = '\\' then ['\\', c]
  else if isHidden c then codeEscape c
  else [c]

def shown (s : String) : String := String.ofList ('"' :: s.toList.flatMap shownChar ++ ['"'])

end SqlComposer.Text
