import SqlComposer.Toml.Scalar

/-!
# Strings of a TOML document

Four forms: between double quotes with escapes or between single quotes without, on one line or
between tripled quotes on several. Each reader starts behind the opening quotes.
-/

namespace SqlComposer.Toml

/-- Characters that may stand in a document as they are. -/
def isPlain (c : Char) : Bool := c == '\t' || (0x20 ≤ c.toNat && c.toNat != 0x7F)

/-- The character of a short escape. -/
def shortEscape? (c : Char) : Option Char :=
  if c = 'b' then some '\x08'
  else if c = 't' then some '\t'
  else if c = 'n' then some '\n'
  else if c = 'f' then some '\x0c'
  else if c = 'r' then some '\r'
  else if c = 'e' then some '\x1b'
  else if c = '"' ∨ c = '\\' then some c
  else none

/-- The character of a code point in hexadecimal digits, if there is one. -/
def codeChar? (digits : List Char) : Option Char :=
  let n := baseValue 16 digits
  if digits.all isHexDigit ∧ (n < 0xD800 ∨ (0xDFFF < n ∧ n < 0x110000)) then some (Char.ofNat n)
  else none

/-- Puts a character in front of what a reader has read. -/
def consRead (c : Char) (r : Option (List Char × List Char)) : Option (List Char × List Char) :=
  r.map fun (s, rest) => (c :: s, rest)

/-- Puts a character in front of what a reader has read, if both are there. -/
def consRead? (c : Option Char) (r : Option (List Char × List Char)) :
    Option (List Char × List Char) :=
  c.bind (consRead · r)

/-- A string with escapes, on one line. -/
def readBasic : List Char → Option (List Char × List Char)
  | '"' :: s => some ([], s)
  | '\\' :: 'x' :: a :: b :: s => consRead? (codeChar? [a, b]) (readBasic s)
  | '\\' :: 'u' :: a :: b :: c :: d :: s => consRead? (codeChar? [a, b, c, d]) (readBasic s)
  | '\\' :: 'U' :: a :: b :: c :: d :: e :: f :: g :: h :: s =>
    consRead? (codeChar? [a, b, c, d, e, f, g, h]) (readBasic s)
  | '\\' :: c :: s => consRead? (shortEscape? c) (readBasic s)
  | c :: s => if isPlain c then consRead c (readBasic s) else none
  | [] => none

/-- A string without escapes, on one line. -/
def readLiteral : List Char → Option (List Char × List Char)
  | '\'' :: s => some ([], s)
  | c :: s => if isPlain c then consRead c (readLiteral s) else none
  | [] => none

/-- Whether a line that ends in a backslash holds only blanks behind it. -/
def endsLine (s : List Char) : Bool :=
  match s.dropWhile fun c => c == ' ' || c == '\t' with
  | '\n' :: _ => true
  | '\r' :: '\n' :: _ => true
  | _ => false

/-- A string with escapes, on several lines. `joining` says that a backslash at the end of a line
has begun a gap, which lasts as long as blanks and line ends follow. -/
def readLines : (joining : Bool) → List Char → Option (List Char × List Char)
  | true, ' ' :: s | true, '\t' :: s | true, '\n' :: s | true, '\r' :: '\n' :: s =>
    readLines true s
  | _, '"' :: '"' :: '"' :: '"' :: '"' :: s => some (['"', '"'], s)
  | _, '"' :: '"' :: '"' :: '"' :: s => some (['"'], s)
  | _, '"' :: '"' :: '"' :: s => some ([], s)
  | _, '\\' :: 'x' :: a :: b :: s => consRead? (codeChar? [a, b]) (readLines false s)
  | _, '\\' :: 'u' :: a :: b :: c :: d :: s =>
    consRead? (codeChar? [a, b, c, d]) (readLines false s)
  | _, '\\' :: 'U' :: a :: b :: c :: d :: e :: f :: g :: h :: s =>
    consRead? (codeChar? [a, b, c, d, e, f, g, h]) (readLines false s)
  | _, '\\' :: c :: s =>
    if endsLine (c :: s) then readLines true (c :: s)
    else consRead? (shortEscape? c) (readLines false s)
  | _, '\r' :: '\n' :: s => consRead '\r' (consRead '\n' (readLines false s))
  | _, c :: s => if isPlain c ∨ c = '\n' then consRead c (readLines false s) else none
  | _, [] => none

/-- A string without escapes, on several lines. -/
def readRawLines : List Char → Option (List Char × List Char)
  | '\'' :: '\'' :: '\'' :: '\'' :: '\'' :: s => some (['\'', '\''], s)
  | '\'' :: '\'' :: '\'' :: '\'' :: s => some (['\''], s)
  | '\'' :: '\'' :: '\'' :: s => some ([], s)
  | '\r' :: '\n' :: s => consRead '\r' (consRead '\n' (readRawLines s))
  | c :: s => if isPlain c ∨ c = '\n' then consRead c (readRawLines s) else none
  | [] => none

/-- A text without the line end it starts with. -/
def dropLineEnd : List Char → List Char
  | '\n' :: s => s
  | '\r' :: '\n' :: s => s
  | s => s

/-- A string in any of the forms, with its opening quotes. -/
def readString : List Char → Option (String × List Char)
  | '"' :: '"' :: '"' :: s => (readLines false (dropLineEnd s)).map (Prod.map .ofList id)
  | '\'' :: '\'' :: '\'' :: s => (readRawLines (dropLineEnd s)).map (Prod.map .ofList id)
  | '"' :: s => (readBasic s).map (Prod.map .ofList id)
  | '\'' :: s => (readLiteral s).map (Prod.map .ofList id)
  | _ => none

end SqlComposer.Toml
