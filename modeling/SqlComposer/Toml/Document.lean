import SqlComposer.Toml.Quoted

/-!
# Reading a TOML document

Line by line: a header, a key with a value, or nothing. A reader takes characters from the front
and gives what is left. The readers of values carry a bound on the steps to come; each step takes
at least one character, and the length of the text is enough.
-/

namespace SqlComposer.Toml

/-! ## Between the words -/

def skipBlanks (s : List Char) : List Char := s.dropWhile fun c => c == ' ' || c == '\t'

/-- The rest behind a comment, which ends in front of the line end. -/
def skipComment (s : List Char) : List Char := s.dropWhile isPlain

/-- Skips blanks, line ends and comments. -/
def skipLines : (comment : Bool) → List Char → List Char
  | _, '\n' :: s => skipLines false s
  | _, '\r' :: '\n' :: s => skipLines false s
  | true, c :: s => if isPlain c then skipLines true s else c :: s
  | false, c :: s =>
    if c == ' ' || c == '\t' then skipLines false s
    else if c == '#' then skipLines true s
    else c :: s
  | _, [] => []

/-! ## Keys -/

def isBareChar (c : Char) : Bool := c.isAlphanum || c == '_' || c == '-'

def readKeyPart (s : List Char) : Option (String × List Char) :=
  match s with
  | '"' :: s => (readBasic s).map (Prod.map .ofList id)
  | '\'' :: s => (readLiteral s).map (Prod.map .ofList id)
  | s =>
    let (word, rest) := s.span isBareChar
    if word.isEmpty then none else some (String.ofList word, rest)

/-- A dotted key: the parts in front of the last one, the last one, and the rest. -/
def readParts : (limit : Nat) → List Char → Option (List String × String × List Char)
  | 0, _ => none
  | limit + 1, s => do
    let (part, rest) ← readKeyPart s
    match skipBlanks rest with
    | '.' :: more =>
      let (path, last, rest) ← readParts limit (skipBlanks more)
      return (part :: path, last, rest)
    | rest => return ([], part, rest)

/-- How many parts a key may have. -/
def partLimit : Nat := 80

def readKey (s : List Char) : Option (List String × String × List Char) := readParts partLimit s

/-! ## Values -/

/-- How many arrays and tables between braces may stand inside one another. -/
def levelLimit : Nat := 80

mutual

/-- A value, in which arrays and tables go at most so many `levels` deep. -/
def readValue : (steps levels : Nat) → List Char → Option (Value × List Char)
  | 0, _, _ => none
  | steps + 1, levels, s =>
    match s, levels with
    | '"' :: _, _ | '\'' :: _, _ => do
      let (text, rest) ← readString s
      return (.text text, rest)
    | '[' :: _, 0 | '\x7b' :: _, 0 => none
    | '[' :: s, levels + 1 => do
      let (items, rest) ← readItems steps levels (skipLines false s)
      return (.array items, rest)
    | '\x7b' :: s, levels + 1 => do
      let (members, rest) ← readMembers steps levels [] (skipLines false s)
      return (.table .inline members, rest)
    | s, _ => do
      let (word, rest) := splitWord s
      return (← scalar? word, rest)

/-- The items of an array and its closing bracket. -/
def readItems : (steps levels : Nat) → List Char → Option (List Value × List Char)
  | 0, _, _ => none
  | steps + 1, levels, s =>
    match s with
    | ']' :: rest => some ([], rest)
    | s => do
      let (item, rest) ← readValue steps levels s
      match skipLines false rest with
      | ',' :: rest =>
        let (items, rest) ← readItems steps levels (skipLines false rest)
        return (item :: items, rest)
      | ']' :: rest => return ([item], rest)
      | _ => none

/-- The members of a table between braces and its closing brace, added to those before. -/
def readMembers : (steps levels : Nat) → Members → List Char → Option (Members × List Char)
  | 0, _, _, _ => none
  | steps + 1, levels, members, s =>
    match s with
    | '\x7d' :: rest => some (members, rest)
    | s => do
      let (path, key, rest) ← readKey s
      let '=' :: rest := skipLines false rest | none
      let (v, rest) ← readValue steps levels (skipLines false rest)
      let members ← addDotted path key v .header members
      match skipLines false rest with
      | ',' :: rest => readMembers steps levels members (skipLines false rest)
      | '\x7d' :: rest => return (members, rest)
      | _ => none

end

/-! ## Lines -/

/-- What has been read: the document, and the path of the table that is open. -/
structure Reading where
  root : Members := []
  path : List String := []

/-- Adds a value to the open table. -/
def Reading.add (r : Reading) (path : List String) (key : String) (v : Value) :
    Option Reading := do
  return { r with root := ← change .implied (addDotted path key v) r.path .header r.root }

/-- Reads the key of a header, with the brackets behind it. -/
def readHeader (closing : List Char) (s : List Char) :
    Option (List String × String × List Char) := do
  let (path, key, rest) ← readKey (skipBlanks s)
  if closing.isPrefixOf rest then return (path, key, rest.drop closing.length) else none

def Reading.line (r : Reading) (s : List Char) : Option (Reading × List Char) :=
  match skipBlanks s with
  | [] => some (r, [])
  | '[' :: '[' :: s => do
    let (path, key, rest) ← readHeader [']', ']'] s
    return (⟨← openElement path key r.root, path ++ [key]⟩, rest)
  | '[' :: s => do
    let (path, key, rest) ← readHeader [']'] s
    return (⟨← openTable path key r.root, path ++ [key]⟩, rest)
  | c :: s =>
    if c == '#' || c == '\n' || c == '\r' then some (r, c :: s)
    else do
      let (path, key, rest) ← readKey (c :: s)
      let '=' :: rest := rest | none
      let rest := skipBlanks rest
      let (v, rest) ← readValue (rest.length + 1) levelLimit rest
      return (← r.add path key v, rest)

def Reading.lines : (steps : Nat) → Reading → List Char → Option Reading
  | 0, _, _ => none
  | steps + 1, r, s => do
    let (r, rest) ← r.line s
    let rest := skipBlanks rest
    let rest := if rest.head? = some '#' then skipComment rest else rest
    match rest with
    | [] => return r
    | '\n' :: rest => lines steps r rest
    | '\r' :: '\n' :: rest => lines steps r rest
    | _ => none

/-- Reads a document. A byte order mark in front of it does not count. -/
def read? (text : String) : Option Members := do
  let s := match text.toList with
    | '\uFEFF' :: s => s
    | s => s
  return (← Reading.lines (s.length + 1) {} s).root

end SqlComposer.Toml
