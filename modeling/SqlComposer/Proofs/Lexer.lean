import SqlComposer.Quoting

/-!
# Reading SQL text

How a database takes SQL text apart: what stands between marks, parentheses, and every other
character on its own. A text that ends inside a literal, a name or a comment cannot be read.
-/

namespace SqlComposer

inductive Token where
  /-- A character outside of literals and names. -/
  | sign (c : Char)
  | opening
  | closing
  | name (s : String)
  | string (s : String)
deriving DecidableEq, Repr

namespace Token

/-- How many parentheses are open behind a token, if it closes none that is not open. -/
def step (n : Nat) : Token → Option Nat
  | .opening => some (n + 1)
  | .closing => if n = 0 then none else some (n - 1)
  | _ => some n

/-- Every parenthesis is closed, and none before it is open. -/
def Balanced (ts : List Token) : Prop := ts.foldlM step 0 = some 0

end Token

/-! ## Dialects -/

namespace Dialect

def nameMark : Dialect → Char
  | .standard => '"'
  | .mysql => '\x60'

def isMark : Dialect → Char → Bool
  | .standard, c => c == '\'' || c == '"'
  | .mysql, c => c == '\'' || c == '"' || c == '\x60'

/-- Whether a backslash between two such marks changes what follows. -/
def escapes : Dialect → Char → Bool
  | .standard, _ => false
  | .mysql, mark => mark != '\x60'

def startsComment : Dialect → Char → Bool
  | .standard, _ => false
  | .mysql, c => c == '#'

end Dialect

/-- What a character behind a backslash stands for, in reverse. Only the signs of patterns keep the
backslash. -/
def Text.unescaped (c : Char) : List Char :=
  if c = '0' then ['\x00']
  else if c = 'n' then ['\n']
  else if c = 'r' then ['\r']
  else if c = 't' then ['\t']
  else if c = 'b' then ['\x08']
  else if c = 'Z' then ['\x1a']
  else if c = '%' ∨ c = '_' then [c, '\\']
  else [c]

/-! ## The machine -/

namespace Lexer

inductive State where
  | code
  /-- Behind a character that starts a comment together with another one. -/
  | pending (c : Char)
  /-- Behind a mark. What has been read is in reverse. -/
  | quoted (mark : Char) (read : List Char)
  | escaped (mark : Char) (read : List Char)
  /-- Behind a second mark, which is the last one unless a third follows at once. -/
  | closing (mark : Char) (read : List Char)
  | lineComment
  | blockComment
  | blockStar
deriving DecidableEq, Repr

variable (d : Dialect)

def token (mark : Char) (read : List Char) : Token :=
  if mark = d.nameMark then .name (String.ofList read.reverse)
  else .string (String.ofList read.reverse)

def start (c : Char) : State × List Token :=
  if d.isMark c then (.quoted c [], [])
  else if d.startsComment c then (.lineComment, [])
  else if c = '-' ∨ c = '/' then (.pending c, [])
  else if c = '(' then (.code, [.opening])
  else if c = ')' then (.code, [.closing])
  else (.code, [.sign c])

def step : State → Char → State × List Token
  | .code, c => start d c
  | .pending p, c =>
    if p = '-' ∧ c = '-' then (.lineComment, [])
    else if p = '/' ∧ c = '*' then (.blockComment, [])
    else ((start d c).1, .sign p :: (start d c).2)
  | .quoted mark read, c =>
    if c = mark then (.closing mark read, [])
    else if c = '\\' ∧ d.escapes mark then (.escaped mark read, [])
    else (.quoted mark (c :: read), [])
  | .escaped mark read, c => (.quoted mark (Text.unescaped c ++ read), [])
  | .closing mark read, c =>
    if c = mark then (.quoted mark (mark :: read), [])
    else ((start d c).1, token d mark read :: (start d c).2)
  | .lineComment, c => (if c = '\n' then .code else .lineComment, [])
  | .blockComment, c => (if c = '*' then .blockStar else .blockComment, [])
  | .blockStar, c =>
    (if c = '/' then .code else if c = '*' then .blockStar else .blockComment, [])

/-- What is left at the end of a text that may end here. -/
def finish : State → Option (List Token)
  | .code => some []
  | .pending c => some [.sign c]
  | .closing mark read => some [token d mark read]
  | .lineComment => some []
  | _ => none

def run : State → List Char → Option (List Token)
  | st, [] => finish d st
  | st, c :: s => (run (step d st c).1 s).map ((step d st c).2 ++ ·)

end Lexer

/-- The tokens of a text, if all that it opens is closed. -/
def Dialect.lex (d : Dialect) (sql : String) : Option (List Token) := Lexer.run d .code sql.toList

example : Dialect.mysql.lex "a='it\\'s' -- '" =
    some [.sign 'a', .sign '=', .string "it's", .sign ' '] := by decide

example : Dialect.standard.lex "a='it\\'s'" = none := by decide

/-! ## Between marks -/

namespace Lexer

variable {d : Dialect}

theorem run_cons (st : State) (c : Char) (s : List Char) :
    run d st (c :: s) = (run d (step d st c).1 s).map ((step d st c).2 ++ ·) := rfl

theorem run_quoted_cons {mark c : Char} (hc : c ≠ mark) (hesc : ¬ (c = '\\' ∧ d.escapes mark))
    (read s : List Char) : run d (.quoted mark read) (c :: s) = run d (.quoted mark (c :: read)) s := by
  rw [run_cons, step, if_neg hc, if_neg hesc]
  simp

theorem run_quoted_mark (mark : Char) (read s : List Char) :
    run d (.quoted mark read) (mark :: s) = run d (.closing mark read) s := by
  rw [run_cons, step, if_pos rfl]
  simp

/-- Text without the mark and without escapes is read as it is. -/
theorem run_quoted_plain {mark : Char} (hesc : d.escapes mark = false) {t : List Char}
    (ht : mark ∉ t) (read s : List Char) :
    run d (.quoted mark read) (t ++ mark :: s) = run d (.closing mark (t.reverse ++ read)) s := by
  induction t generalizing read with
  | nil => exact run_quoted_mark mark read s
  | cons c t ih =>
    have hc : c ≠ mark := fun h => ht (h ▸ List.mem_cons_self)
    rw [List.cons_append, run_quoted_cons hc (by simp [hesc]),
      ih fun h => ht (List.mem_cons_of_mem _ h)]
    simp

/-- A doubled quote is read as one. -/
theorem run_doubled (t read s : List Char) :
    run .standard (.quoted '\'' read) (Text.doubleQuotes t ++ '\'' :: s) =
      run .standard (.closing '\'' (t.reverse ++ read)) s := by
  induction t generalizing read with
  | nil => exact run_quoted_mark '\'' read s
  | cons c t ih =>
    rw [Text.doubleQuotes]
    split
    · next hc =>
      rw [List.cons_append, List.cons_append, run_quoted_mark, run_cons, step, if_pos rfl]
      simp [ih, hc]
    · next hc =>
      rw [List.cons_append, run_quoted_cons hc (by simp [Dialect.escapes]), ih]
      simp

theorem unescaped_letter {c letter : Char} (h : Text.backslashLetter? c = some letter) :
    Text.unescaped letter = [c] := by
  unfold Text.backslashLetter? at h
  split at h
  · next hc => rw [← Option.some.inj h, hc]; decide
  split at h
  · next hc => rw [← Option.some.inj h, hc]; decide
  split at h
  · next hc => rw [← Option.some.inj h, hc]; decide
  split at h
  · next hc => rw [← Option.some.inj h]; rcases hc with rfl | rfl | rfl <;> decide
  split at h
  · next hc => rw [← Option.some.inj h, hc]; decide
  · exact nomatch h

/-- An escaped character is read as the character. -/
theorem run_backslashed (t read s : List Char) :
    run .mysql (.quoted '\'' read) (Text.backslashed t ++ '\'' :: s) =
      run .mysql (.closing '\'' (t.reverse ++ read)) s := by
  induction t generalizing read with
  | nil => exact run_quoted_mark '\'' read s
  | cons c t ih =>
    rw [Text.backslashed]
    split
    · next letter hletter =>
      rw [List.cons_append, List.cons_append, run_cons, step, if_neg (by decide),
        if_pos (by decide), run_cons, step, unescaped_letter hletter]
      simp [ih]
    · next hnone =>
      have hc : c ≠ '\'' ∧ c ≠ '\\' := by
        simp only [Text.backslashLetter?] at hnone
        grind
      rw [List.cons_append, run_quoted_cons hc.1 (by simp [hc.2]), ih]
      simp

end Lexer

end SqlComposer
