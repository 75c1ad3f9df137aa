import SqlComposer.Proofs.Lexical
import SqlComposer.Proofs.Positions
import SqlComposer.Proofs.Slots

/-!
# Texts stay inside their literals

A rendered statement is read without anything left open, and each text value is read back as the
text it is. No other text at its path changes any other token.
-/

namespace SqlComposer

/-- A token of a statement, or the token of the text value at a path. -/
inductive Reading where
  | fixed (t : Token)
  | text (path : Path) (old : String)

def Reading.token (g : Retexting) : Reading → Token
  | .fixed t => t
  | .text path old => .string (g path old)

def Slot.readings : Slot → List Reading
  | .fixed p => p.tokens.map .fixed
  | .text path old => [.text path old]

theorem Slot.tokens_part (g : Retexting) (s : Slot) :
    (s.part g).tokens = s.readings.map (Reading.token g) := by
  cases s with
  | fixed p =>
    rw [readings, List.map_map]
    exact (List.map_id _).symm
  | text path old => rfl

theorem Slot.mem_flatMap_readings {slots : List Slot} {path : Path} {old : String} :
    .text path old ∈ slots.flatMap readings ↔ .text path old ∈ slots := by
  rw [List.mem_flatMap]
  constructor
  · rintro ⟨s, hs, hread⟩
    cases s with
    | fixed p => simp [readings] at hread
    | text path' old' =>
      obtain ⟨rfl, rfl⟩ := Reading.text.inj (List.mem_singleton.mp hread)
      exact hs
  · exact fun hs => ⟨_, hs, List.mem_singleton_self _⟩

theorem Policy.lexical_keyless (d : Dialect) : (Policy.lexical d).Keyless where
  text _ := trivial
  groups g path entries h := by
    change Condition.climb 0 _ = some 0
    rw [Condition.climb_retextAll]
    exact h
  raw := id
  key _ := id

theorem Statement.exists_parts {d : Dialect} {tablePrefix : String}
    {cell : CellId → Outcome String} (hpre : d.nameMark ∉ tablePrefix.toList) {s : Statement}
    (hs : s.Obeys (.lexical d)) {sql : String}
    (hsql : s.toSql ⟨d.quoting tablePrefix, cell⟩ = .ok sql) :
    ∃ ps, s.direct ⟨d.quoting tablePrefix, cell⟩ = .ok ps := by
  rw [Statement.toSql_eq_parts d hpre s hs] at hsql
  cases hps : s.direct ⟨d.quoting tablePrefix, cell⟩ with
  | error e =>
    rw [hps] at hsql
    exact nomatch hsql
  | ok ps => exact ⟨ps, rfl⟩

theorem Statement.lex_of_parts {d : Dialect} {tablePrefix : String}
    {cell : CellId → Outcome String} (hpre : d.nameMark ∉ tablePrefix.toList) {s : Statement}
    (hs : s.Obeys (.lexical d)) {ps : List Part}
    (hps : s.direct ⟨d.quoting tablePrefix, cell⟩ = .ok ps) :
    s.toSql ⟨d.quoting tablePrefix, cell⟩ = .ok (Part.sql (d.quoting tablePrefix) ps) ∧
      d.lex (Part.sql (d.quoting tablePrefix) ps) = some (ps.flatMap Part.tokens) ∧
      Token.Balanced (ps.flatMap Part.tokens) := by
  have hfine := Statement.fine_direct d hpre s hs ps hps
  refine ⟨?_, Dialect.lex_sql hfine, Token.balanced_of_fine hfine⟩
  rw [Statement.toSql_eq_parts d hpre s hs, hps]
  rfl

/-- Whatever the texts, the SQL is read as the same tokens, but for what the literals hold: each
holds the text at its path, and every text that is written has one. So it is for all statements that
differ in no more than their texts. -/
theorem Statement.lex_retext (d : Dialect) (tablePrefix : String) (cell : CellId → Outcome String)
    (s : Statement) (sql : String) (hpre : d.nameMark ∉ tablePrefix.toList)
    (hs : s.Obeys (.lexical d)) (hsql : s.toSql ⟨d.quoting tablePrefix, cell⟩ = .ok sql) :
    ∃ read : List Reading,
      d.lex sql = some (read.map (Reading.token .keep)) ∧
      (∀ path old, .text path old ∈ read ↔
        (path, old) ∈ s.written ⟨d.quoting tablePrefix, cell⟩) ∧
      (∀ g : Retexting, ∃ sql', (s.retext g).toSql ⟨d.quoting tablePrefix, cell⟩ = .ok sql' ∧
        d.lex sql' = some (read.map (Reading.token g)) ∧
        Token.Balanced (read.map (Reading.token g))) ∧
      ∀ s' : Statement, s.retext .blank = s'.retext .blank → ∃ g, s.retext g = s' := by
  have hkeyless := Policy.lexical_keyless d
  have hgrounds : (Policy.lexical d).Grounds ⟨d.quoting tablePrefix, cell⟩ :=
    Policy.lexical_grounds d hpre
  obtain ⟨ps, hps⟩ := Statement.exists_parts hpre hs hsql
  rw [← s.retext_keep] at hps
  obtain ⟨family, ⟨slots, htexts, hslots⟩, hfamily⟩ :=
    (Statement.slots hkeyless (Policy.lexical_clear d) hgrounds s hs).of_ok hps
  have htokens : ∀ g, (family g).flatMap Part.tokens =
      (slots.flatMap Slot.readings).map (Reading.token g) := by
    intro g
    rw [hslots, List.flatMap_map, List.map_flatMap]
    exact List.flatMap_congr fun s _ => s.tokens_part g
  have hall : ∀ g, ∃ sql', (s.retext g).toSql ⟨d.quoting tablePrefix, cell⟩ = .ok sql' ∧
      d.lex sql' = some ((slots.flatMap Slot.readings).map (Reading.token g)) ∧
      Token.Balanced ((slots.flatMap Slot.readings).map (Reading.token g)) := by
    intro g
    have hobeys := Statement.retext_obeys (g := g) hkeyless.toAnyText s hs
    rw [← htokens g]
    exact ⟨_, Statement.lex_of_parts hpre hobeys (hfamily g)⟩
  refine ⟨slots.flatMap Slot.readings, ?_, fun path old => ?_, hall, fun s' h =>
    Statement.exists_retext h⟩
  · obtain ⟨sql', hsql', hlex, -⟩ := hall .keep
    rw [s.retext_keep, hsql] at hsql'
    rw [Except.ok.inj hsql', hlex]
  · rw [Slot.mem_flatMap_readings, htexts]

/-- A query whose texts and names would like to end early. -/
def Select.hostile : Select :=
  { Select.empty with
    tables := [.name "t\x60; --"]
    scope := { Scope.empty with
      criteria := ⟨[
        .predicate .and (.name "a") "=" (.text "' OR 1=1 -- "),
        .opening .or,
        .predicate .and (.name "b") "IN" (.subquery { Select.empty with
          tables := [.name "u"]
          scope := { Scope.empty with
            criteria := ⟨[.predicate .and (.name "c") "<>" (.text "\\")]⟩ } }),
        .closing .and]⟩ } }

/-- The texts of the query, by their paths. -/
theorem Select.written_hostile (path : Path) (old : String) :
    (path, old) ∈ Select.hostile.written [] ↔
      (path, old) = ([0, 0], "' OR 1=1 -- ") ∨ (path, old) = ([0, 0, 2, 0], "\\") := by
  rw [or_comm]
  simp [hostile, written, Criteria.written, Condition.writtenAll, Condition.written, Value.written,
    Branch.writtenAll, empty, Scope.empty, Criteria.empty]

/-- It is read as it was meant, with these texts and with any others. -/
theorem Statement.lex_hostile :
    Dialect.mysql.nameMark ∉ "p_".toList ∧ (Statement.select .hostile).Obeys (.lexical .mysql) ∧
      ∃ read : List Reading,
        Dialect.mysql.lex ("SELECT * FROM \x60p_t; --\x60 WHERE \x60a\x60 = '\\' OR 1=1 -- ' OR " ++
            "(\x60b\x60 IN (SELECT * FROM \x60p_u\x60 WHERE \x60c\x60 <> '\\\\'))") =
          some (read.map (Reading.token .keep)) ∧
        (∀ path old, .text path old ∈ read ↔
          (path, old) = ([0, 0], "' OR 1=1 -- ") ∨ (path, old) = ([0, 0, 2, 0], "\\")) ∧
        (∀ g : Retexting, ∃ sql', ((Statement.select .hostile).retext g).toSql
            ⟨Dialect.mysql.quoting "p_", fun _ => .ok ""⟩ = .ok sql' ∧
          Dialect.mysql.lex sql' = some (read.map (Reading.token g)) ∧
          Token.Balanced (read.map (Reading.token g))) ∧
        ∀ s' : Statement, (Statement.select .hostile).retext .blank = s'.retext .blank →
          ∃ g, (Statement.select .hostile).retext g = s' := by
  have hpre : Dialect.mysql.nameMark ∉ "p_".toList := by decide
  have hkeyless := (Policy.lexical_keyless .mysql).toAnyText
  have hs : (Statement.select .hostile).Obeys (.lexical .mysql) := by
    simp only [Select.hostile, Select.empty, Scope.empty, Request.empty, Params.empty,
      Criteria.empty, Statement.Obeys, Select.Obeys, Criteria.Obeys, Condition.AllObey,
      predicate_iff hkeyless, Condition.Obeys.eq_1, Condition.Obeys.eq_2, Ident.AllObey,
      Ident.Obeys, Join.AllObey, SortKey.AllObey, Branch.AllObey, Params.Obeys, Param.AllObey,
      Value.Obeys]
    simp only [Policy.lexical, Condition.climb]
    decide
  simp only [← Select.written_hostile]
  refine ⟨hpre, hs, Statement.lex_retext .mysql "p_" _ _ _ hpre hs ?_⟩
  rw [Statement.toSql_eq_parts .mysql hpre _ hs]
  rfl

end SqlComposer
