import SqlComposer.Text.Blank

/-!
# The kind of a statement

What a statement does to the database, read off the start of its text. Blanks, comments and
opening parentheses in front do not count. A `WITH` statement has the kind of the first main
keyword behind its definitions.
-/

namespace SqlComposer

inductive Kind where
  | select
  | insert
  | update
  | delete
  /-- Everything else: schema changes, transaction control. -/
  | other
deriving DecidableEq, Repr, Inhabited

namespace Kind

/-- The keyword in upper case, as log events name the kind. -/
def keyword : Kind → String
  | .select => "SELECT"
  | .insert => "INSERT"
  | .update => "UPDATE"
  | .delete => "DELETE"
  | .other => "OTHER"

/-- The name of the kind inside a sentence. -/
def name : Kind → String
  | .select => "Select"
  | .insert => "Insert"
  | .update => "Update"
  | .delete => "Delete"
  | .other => "Other"

/-- The kinds that have a keyword of their own. -/
def main : List Kind := [.select, .insert, .update, .delete]

/-- The kind whose keyword a word in upper case is. -/
def ofWord? (word : List Char) : Option Kind := main.find? (·.keyword.toList == word)

/-! ## What stands in front -/

/-- Where a reader of leading noise is. -/
inductive Noise where
  | code
  | lineComment
  /-- Inside a block comment; `star` says that the last character was an asterisk. -/
  | blockComment (star : Bool)
deriving DecidableEq, Repr

/-- Drops blanks, comments and opening parentheses. A comment that never ends drops everything. -/
def skipNoise : Noise → List Char → List Char
  | _, [] => []
  | .lineComment, c :: s => skipNoise (if c = '\n' then .code else .lineComment) s
  | .blockComment star, c :: s =>
    skipNoise (if star && c == '/' then .code else .blockComment (c == '*')) s
  | .code, c :: s =>
    if Text.isBlank c || c == '(' then skipNoise .code s
    else if c == '-' && s.head? == some '-' then skipNoise .lineComment s
    else if c == '/' && s.head? == some '*' then skipNoise (.blockComment false) s
    else c :: s

/-- Whether a text starts with a word, in any case of its ASCII letters. -/
def startsWith (word : String) (s : List Char) : Bool :=
  (s.take word.length).map Char.toUpper == word.toList

/-! ## Behind the definitions of a WITH statement -/

/-- Where a reader of a WITH statement is. -/
inductive Place where
  | code
  | lineComment
  /-- Inside quotes; a doubled quote closes them and opens them again. -/
  | quoted (mark : Char)
  /-- Inside a word, whose letters so far stand in upper case, the last one first. -/
  | word (letters : List Char)
deriving DecidableEq, Repr

def startsWord (c : Char) : Bool := c.isAlpha || c == '_'

def continuesWord (c : Char) : Bool := c.isAlphanum || c == '_'

/-- The place and the depth of parentheses behind a character of code; `next` follows it. -/
def enter (depth : Nat) (c : Char) (next : Option Char) : Place × Nat :=
  if c = '(' then (.code, depth + 1)
  else if c = ')' then (.code, depth - 1)
  else if c = '\'' ∨ c = '"' then (.quoted c, depth)
  else if c = '-' ∧ next = some '-' then (.lineComment, depth)
  else if depth = 0 ∧ startsWord c then (.word [c.toUpper], depth)
  else (.code, depth)

/-- The kind of the first main keyword outside parentheses, quotes and line comments. -/
def firstMain? : Place → Nat → List Char → Option Kind
  | .word letters, _, [] => ofWord? letters.reverse
  | _, _, [] => none
  | .lineComment, depth, c :: s => firstMain? (if c = '\n' then .code else .lineComment) depth s
  | .quoted mark, depth, c :: s => firstMain? (if c = mark then .code else .quoted mark) depth s
  | .word letters, depth, c :: s =>
    if continuesWord c then firstMain? (.word (c.toUpper :: letters)) depth s
    else
      match ofWord? letters.reverse with
      | some kind => some kind
      | none => firstMain? (enter depth c s.head?).1 (enter depth c s.head?).2 s
  | .code, depth, c :: s => firstMain? (enter depth c s.head?).1 (enter depth c s.head?).2 s

def ofSql (sql : String) : Kind :=
  let s := skipNoise .code sql.toList
  if startsWith "SELECT" s then .select
  else if startsWith "WITH" s then (firstMain? .code 0 s).getD .select
  else if startsWith "INSERT" s then .insert
  else if startsWith "UPDATE" s then .update
  else if startsWith "DELETE" s then .delete
  else .other

end Kind

end SqlComposer
