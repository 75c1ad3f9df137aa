/-!
# String literals

The two ways in which a dialect writes text between single quotes: with the quote doubled, or
with a backslash before every character that could be taken for something else.
-/

namespace SqlComposer.Text

/-- A quote is written twice, all else once. -/
def doubleQuotes : List Char → List Char
  | [] => []
  | c :: s => if c = '\'' then '\'' :: '\'' :: doubleQuotes s else c :: doubleQuotes s

/-- The letter that stands for a character behind a backslash, if it has one. -/
def backslashLetter? (c : Char) : Option Char :=
  if c = '\x00' then some '0'
  else if c = '\n' then some 'n'
  else if c = '\r' then some 'r'
  else if c = '\\' ∨ c = '\'' ∨ c = '"' then some c
  else if c = '\x1a' then some 'Z'
  else none

/-- A character with a letter is written as a backslash and the letter. -/
def backslashed : List Char → List Char
  | [] => []
  | c :: s =>
    match backslashLetter? c with
    | some letter => '\\' :: letter :: backslashed s
    | none => c :: backslashed s

def doubledLiteral (s : String) : String :=
  String.ofList ('\'' :: doubleQuotes s.toList ++ ['\''])

def backslashLiteral (s : String) : String :=
  String.ofList ('\'' :: backslashed s.toList ++ ['\''])

end SqlComposer.Text
