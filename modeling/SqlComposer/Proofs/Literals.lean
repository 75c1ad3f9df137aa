import SqlComposer.Proofs.Lexing

/-!
# Reading one literal

A dialect's reader takes a literal off the front of a text. It gives back the text the literal was
written for and leaves what stands behind it alone, unless that starts with a quote.
-/

namespace SqlComposer

/-- What a reader gives when it has read `t` before. -/
def Text.behind (t : List Char) (read : Option (List Char × List Char)) :
    Option (List Char × List Char) :=
  read.map fun x => (t ++ x.1, x.2)

namespace Text

@[simp] theorem behind_none (t : List Char) : behind t none = none := rfl

@[simp] theorem behind_nil (read : Option (List Char × List Char)) : behind [] read = read := by
  cases read <;> rfl

theorem behind_behind (t u : List Char) (read : Option (List Char × List Char)) :
    behind t (behind u read) = behind (t ++ u) read := by
  cases read <;> simp [behind]

theorem bind_behind {α : Type} (t : List Char) (read : Option (List Char × List Char))
    (f : List Char × List Char → Option α) :
    (behind t read).bind f = read.bind fun x => f (t ++ x.1, x.2) := by
  cases read <;> rfl

end Text

namespace Dialect

/-- The text up to the quote that ends it, and what stands behind that quote. -/
def readText (d : Dialect) : List Char → Option (List Char × List Char)
  | [] => none
  | [c] => if c = '\'' then some ([], []) else none
  | c :: e :: s =>
    if c = '\'' then
      if e = '\'' then Text.behind ['\''] (d.readText s) else some ([], e :: s)
    else if c = '\\' ∧ d.escapes '\'' then
      Text.behind (Text.unescaped e).reverse (d.readText s)
    else Text.behind [c] (d.readText (e :: s))

/-- One literal and what stands behind it. -/
def readLiteral (d : Dialect) : List Char → Option (String × List Char)
  | [] => none
  | c :: s => if c = '\'' then (d.readText s).map fun x => (String.ofList x.1, x.2) else none

/-- What a dialect writes between the quotes. -/
def inside : Dialect → List Char → List Char
  | .standard => Text.doubleQuotes
  | .mysql => Text.backslashed

variable {d : Dialect}

theorem literal_toList (d : Dialect) (s : String) :
    (d.literal s).toList = '\'' :: (d.inside s.toList ++ ['\'']) := by
  cases d <;> simp [literal, Text.doubledLiteral, Text.backslashLiteral, inside]

/-! ## Between the quotes -/

theorem readText_plain {c : Char} (hc : c ≠ '\'') (hesc : ¬ (c = '\\' ∧ d.escapes '\''))
    (s : List Char) : d.readText (c :: s) = Text.behind [c] (d.readText s) := by
  cases s with
  | nil => simp [readText, hc]
  | cons e s => rw [readText, if_neg hc, if_neg hesc]

theorem readText_doubled (s : List Char) :
    d.readText ('\'' :: '\'' :: s) = Text.behind ['\''] (d.readText s) := by
  rw [readText, if_pos rfl, if_pos rfl]

theorem readText_escaped {c letter : Char} (h : Text.backslashLetter? c = some letter)
    (s : List Char) :
    mysql.readText ('\\' :: letter :: s) = Text.behind [c] (mysql.readText s) := by
  rw [readText, if_neg (by decide), if_pos (by decide), Lexer.unescaped_letter h,
    List.reverse_singleton]

theorem readText_quote {r : List Char} (h : r.head? ≠ some '\'') :
    d.readText ('\'' :: r) = some ([], r) := by
  cases r with
  | nil => rfl
  | cons e s =>
    have he : e ≠ '\'' := by simpa using h
    rw [readText, if_pos rfl, if_neg he]

theorem readText_doubleQuotes (t s : List Char) :
    standard.readText (Text.doubleQuotes t ++ s) = Text.behind t (standard.readText s) := by
  induction t with
  | nil => simp [Text.doubleQuotes]
  | cons c t ih =>
    rw [Text.doubleQuotes]
    split
    · next hc =>
      rw [List.cons_append, List.cons_append, readText_doubled, ih, Text.behind_behind, hc]
      rfl
    · next hc =>
      rw [List.cons_append, readText_plain hc (by simp [escapes]), ih, Text.behind_behind]
      rfl

theorem readText_backslashed (t s : List Char) :
    mysql.readText (Text.backslashed t ++ s) = Text.behind t (mysql.readText s) := by
  induction t with
  | nil => simp [Text.backslashed]
  | cons c t ih =>
    rw [Text.backslashed]
    split
    · next letter hletter =>
      rw [List.cons_append, List.cons_append, readText_escaped hletter, ih, Text.behind_behind]
      rfl
    · next hnone =>
      have hc : c ≠ '\'' ∧ c ≠ '\\' := by
        simp only [Text.backslashLetter?] at hnone
        grind
      rw [List.cons_append, readText_plain hc.1 (by simp [hc.2]), ih, Text.behind_behind]
      rfl

/-- What is written between the quotes never ends the reading, whatever comes behind it. -/
theorem readText_inside (d : Dialect) (t s : List Char) :
    d.readText (d.inside t ++ s) = Text.behind t (d.readText s) := by
  cases d with
  | standard => exact readText_doubleQuotes t s
  | mysql => exact readText_backslashed t s

/-! ## A literal and what is behind it -/

theorem readLiteral_append (d : Dialect) (s : String) (r : List Char) :
    d.readLiteral ((d.literal s).toList ++ r) =
      (d.readText ('\'' :: r)).map fun x => (String.ofList (s.toList ++ x.1), x.2) := by
  rw [literal_toList, List.cons_append, List.append_assoc, List.singleton_append, readLiteral,
    if_pos rfl, readText_inside, Text.behind, Option.map_map]
  rfl

theorem readLiteral_of_head {r : List Char} (h : r.head? ≠ some '\'') (s : String) :
    d.readLiteral ((d.literal s).toList ++ r) = some (s, r) := by
  rw [readLiteral_append, readText_quote h]
  simp

/-- A quote behind a literal is taken for a part of it. -/
theorem readLiteral_ne_of_head {r : List Char} (h : r.head? = some '\'') (s : String) :
    d.readLiteral ((d.literal s).toList ++ r) ≠ some (s, r) := by
  cases r with
  | nil => exact nomatch h
  | cons e r =>
    obtain rfl : e = '\'' := by simpa using h
    rw [readLiteral_append, readText_doubled]
    intro heq
    obtain ⟨x, hx, hpair⟩ := Option.map_eq_some_iff.mp heq
    obtain ⟨y, -, rfl⟩ := Option.map_eq_some_iff.mp hx
    have hlength := congrArg (fun p : String × List Char => p.1.toList.length) hpair
    simp at hlength

/-- Two literals in front of such texts differ wherever their texts do. -/
theorem literal_append_inj {r r' : List Char} (h : r.head? ≠ some '\'') (h' : r'.head? ≠ some '\'')
    {s s' : String} (heq : (d.literal s).toList ++ r = (d.literal s').toList ++ r') :
    s = s' ∧ r = r' := by
  have hread : some (s, r) = some (s', r') := by
    rw [← readLiteral_of_head h s, heq, readLiteral_of_head h' s']
  simpa using hread

theorem literal_injective (d : Dialect) : Function.Injective d.literal := by
  intro s s' heq
  have hnil : ([] : List Char).head? ≠ some '\'' := by simp
  have happend : (d.literal s).toList ++ [] = (d.literal s').toList ++ [] := by rw [heq]
  exact (literal_append_inj hnil hnil happend).1

end Dialect

/-! ## The reader of whole statements -/

namespace Lexer

variable {d : Dialect}

theorem token_quote (read : List Char) :
    token d '\'' read = .string (String.ofList read.reverse) := by
  cases d <;> simp [token, Dialect.nameMark]

theorem run_quoted_doubled (read s : List Char) :
    run d (.quoted '\'' read) ('\'' :: '\'' :: s) = run d (.quoted '\'' ('\'' :: read)) s := by
  rw [run_quoted_mark, run_cons, step, if_pos rfl]
  exact Option.map_id'

theorem run_quoted_escape (hesc : d.escapes '\'' = true) (read s : List Char) (letter : Char) :
    run d (.quoted '\'' read) ('\\' :: letter :: s) =
      run d (.quoted '\'' (Text.unescaped letter ++ read)) s := by
  rw [run_cons, step, if_neg (by decide), if_pos ⟨rfl, hesc⟩, run_cons, step]
  exact Option.map_id'.trans Option.map_id'

/-- Inside of a literal, a statement is read as that literal is. -/
theorem run_quoted (read s : List Char) :
    run d (.quoted '\'' read) s =
      (d.readText s).bind fun x =>
        (run d .code x.2).map (.string (String.ofList (read.reverse ++ x.1)) :: ·) := by
  fun_induction Dialect.readText d s generalizing read with
  | case1 => rfl
  | case2 =>
    have hfinish : run d (.closing '\'' read) [] = some [token d '\'' read] := rfl
    rw [run_quoted_mark, hfinish, token_quote, Option.bind_some, List.append_nil]
    rfl
  | case3 c hc =>
    rw [run_cons, step, if_neg hc]
    split <;> rfl
  | case4 s ih =>
    rw [run_quoted_doubled, ih, Text.bind_behind]
    simp only [List.reverse_cons, List.append_assoc]
  | case5 e s he =>
    rw [run_quoted_mark, run_closing he, token_quote, Option.bind_some, List.append_nil]
    rfl
  | case6 c e s hc hesc ih =>
    rw [hesc.1, run_quoted_escape hesc.2, ih, Text.bind_behind]
    simp only [List.reverse_append, List.append_assoc]
  | case7 c e s hc hesc ih =>
    rw [run_quoted_cons hc hesc, ih, Text.bind_behind]
    simp only [List.reverse_cons, List.append_assoc]

theorem run_readLiteral {s : List Char} (h : s.head? = some '\'') :
    run d .code s =
      (d.readLiteral s).bind fun x => (run d .code x.2).map (.string x.1 :: ·) := by
  cases s with
  | nil => exact nomatch h
  | cons c s =>
    obtain rfl : c = '\'' := by simpa using h
    have hstart : start d '\'' = (.quoted '\'' [], []) := by cases d <;> rfl
    rw [run_cons, step, hstart, Dialect.readLiteral, if_pos rfl, run_quoted, Option.bind_map]
    exact Option.map_id'

end Lexer

/-- Behind a literal everything is read as if the literal were not there, in exactly the texts where
no quote follows it. No literal is a beginning of another one there. -/
theorem Dialect.literal_delimited (d : Dialect) (s : String) (r : List Char) :
    (d.readLiteral ((d.literal s).toList ++ r) = some (s, r) ↔ r.head? ≠ some '\'') ∧
      (r.head? ≠ some '\'' →
        Lexer.run d .code ((d.literal s).toList ++ r) =
            (Lexer.run d .code r).map (.string s :: ·) ∧
          ∀ s' r', r'.head? ≠ some '\'' → (d.literal s).toList ++ r = (d.literal s').toList ++ r' →
            s = s' ∧ r = r') ∧
      Function.Injective d.literal := by
  refine ⟨⟨fun hread hr => readLiteral_ne_of_head hr s hread, fun hr => readLiteral_of_head hr s⟩,
    fun hr => ⟨?_, fun s' r' hr' heq => literal_append_inj hr hr' heq⟩, d.literal_injective⟩
  have hhead : ((d.literal s).toList ++ r).head? = some '\'' := by
    rw [literal_toList]
    rfl
  rw [Lexer.run_readLiteral hhead, readLiteral_of_head hr, Option.bind_some]

/-- A text that ends in a backslash and a quote, in front of a text that has a quote of its own. -/
theorem Dialect.literal_delimited_hostile :
    mysql.readLiteral "'\\0 -- \\\\\\'' OR '".toList = some ("\x00 -- \\'", " OR '".toList) ∧
      Lexer.run .mysql .code "'\\0 -- \\\\\\'')".toList =
        some [.string "\x00 -- \\'", .closing] := by
  obtain ⟨hread, -⟩ := mysql.literal_delimited "\x00 -- \\'" " OR '".toList
  obtain ⟨-, hrun, -⟩ := mysql.literal_delimited "\x00 -- \\'" ")".toList
  exact ⟨hread.mpr (by decide), (hrun (by decide)).1.trans (by decide)⟩

end SqlComposer
