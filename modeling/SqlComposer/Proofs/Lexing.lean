import SqlComposer.Proofs.Agree
import SqlComposer.Proofs.Grammar
import SqlComposer.Proofs.Lexer

/-!
# Parts are tokens

Where no two quoted parts touch and no comment starts, a database reads the text of the parts as
one token for each of them, whatever the literals hold.
-/

namespace SqlComposer

/-- A character that opens nothing and escapes nothing on its own. -/
def Dialect.isQuiet (d : Dialect) (c : Char) : Bool :=
  !(['\'', '"', '\x60', '\\'].contains c || d.startsComment c)

def Text.Apart (c e : Char) : Prop := ¬ (c = '-' ∧ e = '-') ∧ ¬ (c = '/' ∧ e = '*')

instance (c e : Char) : Decidable (Text.Apart c e) := inferInstanceAs (Decidable (_ ∧ _))

/-- What a dialect reads part by part. -/
def Grammar.lexical (d : Dialect) : Grammar where
  good
    | .code c => d.isQuiet c = true
    | .name s => d.nameMark ∉ s.toList
    | .literal _ => True
    | .flag _ => True
    | .place _ => False
  fits
    | .code c, .code e => Text.Apart c e
    | .code _, _ => True
    | _, .code _ => True
    | _, _ => False
  nested := True

namespace Part

def flagText (b : Bool) : String := if b then "1" else "0"

def codeToken (c : Char) : Token :=
  if c = '(' then .opening else if c = ')' then .closing else .sign c

def tokens : Part → List Token
  | .code c => [codeToken c]
  | .name s => [.name s]
  | .literal s => [.string s]
  | .flag b => [.string (flagText b)]
  | .place _ => []

def leaves (d : Dialect) : Part → Lexer.State
  | .code c => if c = '-' ∨ c = '/' then .pending c else .code
  | .name s => .closing d.nameMark s.toList.reverse
  | .literal s => .closing '\'' s.toList.reverse
  | .flag b => .closing '\'' (flagText b).toList.reverse
  | .place _ => .code

/-- The tokens of a part that come with the character behind it. -/
def owed : Part → List Token
  | .code c => if c = '-' ∨ c = '/' then [.sign c] else []
  | p => p.tokens

/-- The tokens of a part that come at once. -/
def given : Part → List Token
  | .code c => if c = '-' ∨ c = '/' then [] else [codeToken c]
  | _ => []

theorem given_append_owed (p : Part) : p.given ++ p.owed = p.tokens := by
  cases p with
  | code c =>
    simp only [given, owed, tokens]
    split
    · next hc => rcases hc with rfl | rfl <;> rfl
    · simp
  | _ => rfl

end Part

theorem Dialect.wrap_eq (d : Dialect) (tablePrefix s : String) :
    ∃ t, ((d.quoting tablePrefix).wrap s).toList = d.nameMark :: t := by
  have hmark : d.mark.toList = [d.nameMark] := by cases d <;> rfl
  exact ⟨s.toList ++ [d.nameMark], by simp [Quoting.wrap, Dialect.quoting, hmark]⟩

namespace Lexer

variable {d : Dialect} {tablePrefix : String}

theorem token_string (s : String) : token d '\'' s.toList.reverse = .string s := by
  cases d <;> simp [token, Dialect.nameMark]

theorem token_name (s : String) : token d d.nameMark s.toList.reverse = .name s := by
  simp [token]

theorem isMark_of_isQuiet {c : Char} (h : d.isQuiet c = true) : d.isMark c = false := by
  simp only [Dialect.isQuiet, Bool.not_eq_true', Bool.or_eq_false_iff, List.contains_eq_mem,
    List.mem_cons, List.not_mem_nil, or_false, decide_eq_false_iff_not, not_or] at h
  cases d <;> simp [Dialect.isMark, h]

theorem start_quiet {c : Char} (h : d.isQuiet c = true) :
    start d c = if c = '-' ∨ c = '/' then (.pending c, []) else (.code, [Part.codeToken c]) := by
  have hcomment : d.startsComment c = false := by
    simp only [Dialect.isQuiet, Bool.not_eq_true', Bool.or_eq_false_iff] at h
    exact h.2
  simp only [start, isMark_of_isQuiet h, hcomment, Part.codeToken, Bool.false_eq_true, if_false]
  grind

theorem run_literal (s : String) (rest : List Char) :
    run d .code ((d.literal s).toList ++ rest) = run d (.closing '\'' s.toList.reverse) rest := by
  have hstart : start d '\'' = (.quoted '\'' [], []) := by cases d <;> rfl
  have hquote : ∀ t : List Char, run d .code ('\'' :: t) = run d (.quoted '\'' []) t := by
    intro t
    rw [run_cons, step, hstart]
    simp
  cases d with
  | standard =>
    have := run_doubled s.toList [] rest
    simpa [Dialect.literal, Text.doubledLiteral, hquote] using this
  | mysql =>
    have := run_backslashed s.toList [] rest
    simpa [Dialect.literal, Text.backslashLiteral, hquote] using this

theorem run_name {s : String} (h : d.nameMark ∉ s.toList) (rest : List Char) :
    run d .code (((d.quoting tablePrefix).wrap s).toList ++ rest) =
      run d (.closing d.nameMark s.toList.reverse) rest := by
  have hstart : start d d.nameMark = (.quoted d.nameMark [], []) := by cases d <;> rfl
  have hesc : d.escapes d.nameMark = false := by cases d <;> rfl
  have hmark : d.mark.toList = [d.nameMark] := by cases d <;> rfl
  have := run_quoted_plain hesc h [] rest
  simp only [Quoting.wrap, Dialect.quoting, String.toList_append, hmark, List.cons_append,
    List.nil_append, List.append_assoc]
  rw [run_cons, step, hstart]
  simpa using this

theorem boolText_eq (b : Bool) :
    (d.quoting tablePrefix).boolText b = d.literal (Part.flagText b) := by
  cases d <;> cases b <;> rfl

theorem run_part {p : Part} (h : (Grammar.lexical d).good p) (rest : List Char) :
    run d .code (p.write (d.quoting tablePrefix) ++ rest) =
      (run d (p.leaves d) rest).map (p.given ++ ·) := by
  cases p with
  | code c =>
    simp only [Part.write, Part.chars, List.singleton_append, run_cons, step, start_quiet h,
      Part.leaves, Part.given]
    split <;> rfl
  | name s => simpa [Part.write, Part.chars, Part.leaves, Part.given] using run_name h rest
  | literal s =>
    simpa [Part.write, Part.chars, Dialect.quoting, Part.leaves, Part.given] using
      run_literal s rest
  | flag b =>
    rw [Part.write, Part.chars, boolText_eq]
    simpa [Part.leaves, Part.given] using run_literal (Part.flagText b) rest
  | place key => exact h.elim

theorem run_pending {c e : Char} (h : Text.Apart c e) (rest : List Char) :
    run d (.pending c) (e :: rest) = (run d .code (e :: rest)).map ([.sign c] ++ ·) := by
  have hstep : step d (.pending c) e = ((start d e).1, .sign c :: (start d e).2) := by
    rw [step, if_neg h.1, if_neg h.2]
  rw [run_cons, run_cons, hstep, step, Option.map_map]
  rfl

theorem run_closing {mark e : Char} (h : e ≠ mark) (read rest : List Char) :
    run d (.closing mark read) (e :: rest) =
      (run d .code (e :: rest)).map ([token d mark read] ++ ·) := by
  have hstep : step d (.closing mark read) e =
      ((start d e).1, token d mark read :: (start d e).2) := by
    rw [step, if_neg h]
  rw [run_cons, run_cons, hstep, step, Option.map_map]
  rfl

/-- A quoted part is followed by code only, so its second mark is the last one. -/
theorem run_closing_code {mark e : Char} (hmark : mark = '\'' ∨ mark = d.nameMark)
    (he : d.isQuiet e = true) (read rest : List Char) :
    run d (.closing mark read) (e :: rest) =
      (run d .code (e :: rest)).map ([token d mark read] ++ ·) := by
  refine run_closing ?_ read rest
  rintro rfl
  have hquiet := isMark_of_isQuiet he
  rcases hmark with rfl | hmark
  · cases d <;> simp [Dialect.isMark] at hquiet
  · cases d <;> simp [Dialect.isMark, hmark, Dialect.nameMark] at hquiet

/-- Whatever follows a character, the two start no comment. -/
theorem exists_write_apart {c : Char} {r : Part} (hr : (Grammar.lexical d).good r)
    (h : (Grammar.lexical d).fits (.code c) r) :
    ∃ e t, r.write (d.quoting tablePrefix) = e :: t ∧ Text.Apart c e := by
  cases r with
  | code e => exact ⟨e, [], rfl, h⟩
  | name s =>
    obtain ⟨t, ht⟩ := d.wrap_eq tablePrefix s
    exact ⟨_, t, ht, by cases d <;> simp [Text.Apart, Dialect.nameMark]⟩
  | literal s =>
    obtain ⟨t, ht⟩ := d.literal_eq s
    exact ⟨'\'', _, ht, by simp [Text.Apart]⟩
  | flag b =>
    obtain ⟨t, ht⟩ := d.literal_eq (Part.flagText b)
    refine ⟨'\'', t ++ ['\''], ?_, by simp [Text.Apart]⟩
    rw [Part.write, Part.chars, boolText_eq, ht, List.cons_append]
  | place key => exact hr.elim

/-- What a part owes is settled by whatever may follow it. -/
theorem run_leaves {p r : Part} (hp : (Grammar.lexical d).good p) (hr : (Grammar.lexical d).good r)
    (h : (Grammar.lexical d).fits p r) (rest : List Char) :
    run d (p.leaves d) (r.write (d.quoting tablePrefix) ++ rest) =
      (run d .code (r.write (d.quoting tablePrefix) ++ rest)).map (p.owed ++ ·) := by
  -- Behind a quoted part, `fits` leaves nothing but code.
  have hcode : (∀ c, p ≠ .code c) → ∃ e, r = .code e ∧ d.isQuiet e = true := by
    intro hp'
    cases r with
    | code e => exact ⟨e, rfl, hr⟩
    | _ =>
      cases p with
      | code c => exact (hp' c rfl).elim
      | _ => exact h.elim
  cases p with
  | code c =>
    simp only [Part.leaves, Part.owed]
    split
    · obtain ⟨e, t, hwrite, hapart⟩ := @exists_write_apart d tablePrefix c r hr h
      rw [hwrite, List.cons_append]
      exact run_pending hapart _
    · simp
  | place key => exact hp.elim
  | name s =>
    obtain ⟨e, rfl, he⟩ := hcode (by simp)
    have hrun := run_closing_code (Or.inr rfl) he s.toList.reverse rest
    rwa [token_name] at hrun
  | literal s =>
    obtain ⟨e, rfl, he⟩ := hcode (by simp)
    have hrun := run_closing_code (d := d) (Or.inl rfl) he s.toList.reverse rest
    rwa [token_string] at hrun
  | flag b =>
    obtain ⟨e, rfl, he⟩ := hcode (by simp)
    have hrun := run_closing_code (d := d) (Or.inl rfl) he (Part.flagText b).toList.reverse rest
    rwa [token_string] at hrun

theorem finish_closing (mark : Char) (read : List Char) :
    finish d (.closing mark read) = some [token d mark read] := rfl

theorem finish_leaves {p : Part} (h : (Grammar.lexical d).good p) :
    finish d (p.leaves d) = some p.owed := by
  cases p with
  | code c =>
    simp only [Part.leaves, Part.owed]
    split <;> rfl
  | name s =>
    rw [Part.leaves, finish_closing, token_name]
    rfl
  | literal s =>
    rw [Part.leaves, finish_closing, token_string]
    rfl
  | flag b =>
    rw [Part.leaves, finish_closing, token_string]
    rfl
  | place key => exact h.elim

theorem run_behind {p : Part} {ps : List Part} (hgood : ∀ r ∈ p :: ps, (Grammar.lexical d).good r)
    (hfits : (p :: ps).IsChain (Grammar.lexical d).fits) :
    run d (p.leaves d) (ps.flatMap (Part.write (d.quoting tablePrefix))) =
      some (p.owed ++ ps.flatMap Part.tokens) := by
  induction ps generalizing p with
  | nil => rw [List.flatMap_nil, run, finish_leaves (hgood p (by simp)), List.flatMap_nil,
      List.append_nil]
  | cons r ps ih =>
    have hr : (Grammar.lexical d).good r := hgood r (by simp)
    have ih := ih (fun a ha => hgood a (List.mem_cons_of_mem _ ha)) hfits.tail
    rw [List.flatMap_cons, run_leaves (hgood p (by simp)) hr (List.isChain_cons_cons.mp hfits).1,
      run_part hr, ih]
    simp [← r.given_append_owed]

end Lexer

/-- The text of fine parts is read part by part. -/
theorem Dialect.lex_sql {d : Dialect} {tablePrefix : String} {isKey : String → Bool}
    {ps : List Part} (h : (Grammar.lexical d).Fine isKey ps) :
    d.lex (Part.sql (d.quoting tablePrefix) ps) = some (ps.flatMap Part.tokens) := by
  rw [Dialect.lex, Part.sql, String.toList_ofList]
  cases ps with
  | nil => rfl
  | cons p ps =>
    rw [List.flatMap_cons, Lexer.run_part (h.good p (by simp)), Lexer.run_behind h.good h.fits]
    simp [← p.given_append_owed]

/-! ## Parentheses -/

theorem Part.step_tokens (n : Nat) (p : Part) : p.tokens.foldlM Token.step n = p.step n := by
  cases p with
  | code c =>
    simp only [tokens, codeToken, step]
    split
    · rfl
    · split
      · simp [Token.step]
      · rfl
  | _ => rfl

theorem Part.climb_tokens (n : Nat) (ps : List Part) :
    (ps.flatMap tokens).foldlM Token.step n = climb n ps := by
  induction ps generalizing n with
  | nil => rfl
  | cons p ps ih =>
    rw [List.flatMap_cons, List.foldlM_append, step_tokens, climb_cons]
    exact bind_congr fun m => ih m

theorem Token.balanced_of_fine {d : Dialect} {isKey : String → Bool} {ps : List Part}
    (h : (Grammar.lexical d).Fine isKey ps) : Balanced (ps.flatMap Part.tokens) := by
  rw [Balanced, Part.climb_tokens]
  exact h.level trivial 0

end SqlComposer
