import SqlComposer.Proofs.Agree
import SqlComposer.Proofs.Breaks
import SqlComposer.Proofs.Clauses
import SqlComposer.Proofs.Lookups
import SqlComposer.Proofs.Scoping
import SqlComposer.Proofs.Segmentation

/-!
# A value or a placeholder for it

In the place of an operand, a placeholder comes to the same as its value, unless the operator asks
what the value is. NULL, an empty list and a list of two have a text of their own behind some
operators. Behind a placeholder nobody sees them, so the operator stays as it is there.
-/

namespace SqlComposer

open Text (BreaksBefore BreaksBehind Swap)

/-! ## Operands -/

/-- Whether a predicate has the operator and the quoted text of the value in it as they are: the
value is no placeholder itself, and the operator does not take it apart or ask for NULL. -/
def Value.Verbatim (params : Params) (op : String) : Value → Prop
  | .null => op ≠ "=" ∧ op ≠ "!=" ∧ op ≠ "<>"
  | .list [] => Text.upper op ≠ "IN"
  | .list [_, _] => Text.upper op ≠ "BETWEEN"
  | .pair low high => Text.upper op = "BETWEEN" →
      low.isPlaceholder params = false ∧ high.isPlaceholder params = false
  | v => v.isPlaceholder params = false

variable {ctx : Context} {params : Params}

theorem operand_of_not_placeholder {v : Value} (h : v.isPlaceholder params = false)
    (quoted : Outcome String) : operand params.contains v quoted = quoted := by
  unfold operand
  split
  · next key =>
    rw [Value.isPlaceholder] at h
    rw [if_neg (by simp [h])]
  · rfl

theorem rightSide_whole {v : Value} (h : v.isEmptyList = false) (op empty : String)
    (whole : Outcome String) : rightSide op v empty none whole = whole := by
  unfold rightSide
  split
  · rfl
  · rw [h, if_neg (by simp)]

theorem Value.Verbatim.operator_eq {op : String} {v : Value} (h : v.Verbatim params op) :
    operator op v = Text.upper op := by
  unfold operator
  cases v with
  | null =>
    obtain ⟨heq, hne, hother⟩ := h
    rw [if_neg (by simp [heq]), if_neg (by simp [hne, hother])]
  | _ => simp [isNull]

theorem Value.Verbatim.rightSide_eq {op : String} {v : Value} (h : v.Verbatim params op) :
    rightSide (Text.upper op) v "(NULL)" (v.bounds ctx params.contains)
      (operand params.contains v (v.quote ctx)) = v.quote ctx := by
  match v, h with
  | .null, _ | .bool _, _ | .int _, _ | .float _, _ | .fragment _, _ | .subquery _, _
  | .list [_], _ | .list (_ :: _ :: _ :: _), _ => exact rightSide_whole rfl _ _ _
  | .text s, h =>
    rw [operand_of_not_placeholder h]
    exact rightSide_whole rfl _ _ _
  | .list [], h =>
    unfold rightSide
    rw [Verbatim] at h
    split
    · rfl
    · rw [if_neg fun hin => h hin.1]
      rfl
  | .list [_, _], h =>
    unfold rightSide
    rw [Verbatim] at h
    rw [if_neg h, if_neg (by simp [isEmptyList])]
    rfl
  | .pair low high, h =>
    unfold rightSide
    split
    · next hbetween =>
      obtain ⟨hlow, hhigh⟩ := h hbetween
      simp only [bounds, Option.getD_some, quote, operand_of_not_placeholder hlow,
        operand_of_not_placeholder hhigh]
    · rw [if_neg (by simp [isEmptyList])]
      rfl

theorem Predicate.text_eq {isKey : String → Bool} {op right : String} {v : Value}
    (hop : operator op v = Text.upper op)
    (hright : rightSide (Text.upper op) v "(NULL)" (v.bounds ctx isKey)
      (operand isKey v (v.quote ctx)) = .ok right) (column : Ident) :
    (Predicate.mk column op v).text ctx isKey = (do
      return Text.trim ((← column.subject ctx) ++ " " ++ Text.upper op ++ " " ++ right)) := by
  simp only [Predicate.text, hop, hright]
  rfl

theorem Value.verbatim_fragment (op : String) (f : Fragment) :
    (Value.fragment f).Verbatim params op := by
  rw [Verbatim]
  · rfl
  all_goals exact nofun

/-- Raw SQL is written as it is. -/
theorem Value.quote_raw (sql : String) : (Value.fragment (.new sql)).quote ctx = .ok sql := by
  have hfill : (Value.fragment (.new sql)).quote ctx = .ok (Text.replaceAll [] sql) := by
    rw [quote]
    rfl
  rw [hfill, Text.replaceAll_nil]

/-- A value with its operator as it is could be raw SQL as well. -/
theorem Predicate.text_raw {column : Ident} {op text : String} {v : Value}
    (h : v.Verbatim params op) (htext : v.quote ctx = .ok text) :
    (Predicate.mk column op v).text ctx params.contains =
      (Predicate.mk column op (.fragment (.new text))).text ctx params.contains := by
  have hraw : (Value.fragment (.new text)).Verbatim params op := Value.verbatim_fragment op _
  rw [text_eq h.operator_eq (h.rightSide_eq.trans htext),
    text_eq hraw.operator_eq (hraw.rightSide_eq.trans (Value.quote_raw text))]

/-- In the text of the predicate, its placeholder stands where raw SQL would stand. -/
theorem Predicate.text_placeholder {column : Ident} {op k text : String}
    (hk : params.contains k = true)
    (hstays : ∀ left, column.subject ctx = .ok left →
      Text.Stays (left ++ " " ++ Text.upper op ++ " ") k ∧
        Text.Stays (left ++ " " ++ Text.upper op ++ " ") text) :
    Agree (Swap k text) ((Predicate.mk column op (.text k)).text ctx params.contains)
      ((Predicate.mk column op (.fragment (.new text))).text ctx params.contains) := by
  have hraw : (Value.fragment (.new text)).Verbatim params op := Value.verbatim_fragment op _
  have hop : operator op (.text k) = Text.upper op := by simp [operator, Value.isNull]
  have hright : rightSide (Text.upper op) (.text k) "(NULL)"
      ((Value.text k).bounds ctx params.contains)
      (operand params.contains (.text k) ((Value.text k).quote ctx)) = .ok k := by
    refine (rightSide_whole rfl _ _ _).trans ?_
    rw [operand, if_pos hk]
  rw [text_eq hop hright,
    text_eq hraw.operator_eq (hraw.rightSide_eq.trans (Value.quote_raw text))]
  cases hleft : column.subject ctx with
  | error e => exact rfl
  | ok left =>
    obtain ⟨hstaysk, hstaystext⟩ := hstays left hleft
    have hlead : BreaksBefore (left ++ " " ++ Text.upper op ++ " ") :=
      Text.breaksBefore_word _ ⟨' ', rfl, rfl⟩
    change Swap k text (Text.trim _) (Text.trim _)
    rw [hstaysk.trim_eq, hstaystext.trim_eq]
    refine ⟨?_, ?_, _, "", hlead.trimStart, Text.breaksBehind_empty, ?_, ?_⟩
    · simp [hstaysk.ne_empty]
    · simp [hstaystext.ne_empty]
    · rw [String.append_empty]
    · rw [String.append_empty]

/-! ## Conditions -/

/-- What stands behind a predicate that has a text. -/
theorem Piece.breaksBehind_layout (pieces : List Piece) :
    BreaksBehind (layout true false pieces) := by
  cases pieces with
  | nil => exact Text.breaksBehind_empty
  | cons piece rest =>
    cases piece <;> simp [layout, connector, BreaksBehind, Text.isBreak]

theorem Piece.breaksBefore_connector (connects : Bool) (logic : Logic) :
    BreaksBefore (connector connects logic) := by
  unfold connector
  split
  · exact Text.breaksBefore_word _ ⟨' ', rfl, rfl⟩
  · exact Text.breaksBefore_empty

/-- The predicate is written in one place, whatever its text is. If anything has been written and
no group has just been opened, something stands in front of it. -/
theorem Piece.layout_predicate (before : List Piece) (logic : Logic) (after : List Piece)
    (started fresh : Bool) :
    ∃ pre, BreaksBefore pre ∧ (pre = "" → (started && !fresh) = false) ∧
      ∀ text ≠ "", layout started fresh (before ++ .predicate logic text :: after) =
        pre ++ text ++ layout true false after := by
  induction before generalizing started fresh with
  | nil =>
    refine ⟨connector (started && !fresh) logic, breaksBefore_connector _ _, ?_, ?_⟩
    · cases started && !fresh <;> simp [connector]
    · intro text hne
      have hstarted : (started || text != "") = true := by simp [hne]
      rw [List.nil_append, layout, hstarted]
  | cons piece before ih =>
    cases piece with
    | opening l =>
      obtain ⟨pre, hpre, -, hlayout⟩ := ih true true
      have hopening : BreaksBefore (connector (started && !fresh) l ++ "(") :=
        Text.breaksBefore_word _ ⟨'(', rfl, rfl⟩
      refine ⟨connector (started && !fresh) l ++ "(" ++ pre, hopening.append hpre, ?_, ?_⟩
      · simp
      · intro text hne
        rw [List.cons_append, layout, hlayout text hne]
        simp only [String.append_assoc]
    | closing =>
      obtain ⟨pre, hpre, -, hlayout⟩ := ih true false
      have hclosing : BreaksBefore ("" ++ ")") := Text.breaksBefore_word _ ⟨')', rfl, rfl⟩
      refine ⟨")" ++ pre, hclosing.append hpre, ?_, ?_⟩
      · simp
      · intro text hne
        rw [List.cons_append, layout, hlayout text hne]
        simp only [String.append_assoc]
    | predicate l other =>
      obtain ⟨pre, hpre, hempty, hlayout⟩ := ih (started || other != "") false
      refine ⟨connector (started && !fresh) l ++ other ++ pre, ?_, ?_, ?_⟩
      · -- Without anything behind it, the other text is empty and starts nothing.
        by_cases hnone : pre = ""
        · have hother : other = "" := by
            have := hempty hnone
            simp_all
          rw [hnone, hother, String.append_empty, String.append_empty]
          exact breaksBefore_connector _ _
        · exact hpre.of_ne_empty hnone _
      · intro hnone
        have hconnector : connector (started && !fresh) l = "" := by
          simp only [String.append_eq_empty_iff] at hnone
          exact hnone.1.1
        cases hstarted : started && !fresh
        · rfl
        · simp [connector, hstarted] at hconnector
      · intro text hne
        rw [List.cons_append, layout, hlayout text hne]
        simp only [String.append_assoc]

theorem Criteria.text_predicate {isKey : String → Bool} (before : List Condition) (logic : Logic)
    (p : Predicate) (after : List Condition) :
    Criteria.text ctx isKey ⟨before ++ .predicate logic p.column p.op p.value :: after⟩ = (do
      let front ← Condition.pieces ctx isKey before
      let text ← p.text ctx isKey
      let behind ← Condition.pieces ctx isKey after
      return Piece.layout false false (front ++ .predicate logic text :: behind)) := by
  simp only [Criteria.text, Condition.pieces_append, Condition.pieces, Condition.piece_eq,
    bind_assoc, pure_bind, map_eq_pure_bind]

/-- Conditions that differ in an operand differ in one place between breaks. -/
theorem Criteria.text_swap {isKey : String → Bool} {s t : String} {p p' : Predicate}
    (h : Agree (Swap s t) (p.text ctx isKey) (p'.text ctx isKey)) (before : List Condition)
    (logic : Logic) (after : List Condition) :
    Agree (Swap s t)
      (Criteria.text ctx isKey ⟨before ++ .predicate logic p.column p.op p.value :: after⟩)
      (Criteria.text ctx isKey ⟨before ++ .predicate logic p'.column p'.op p'.value :: after⟩) := by
  rw [text_predicate, text_predicate]
  refine Agree.after _ fun front => h.bind fun a b hab => Agree.after _ fun behind => ?_
  obtain ⟨pre, hpre, -, hlayout⟩ := Piece.layout_predicate front logic behind false false
  change Swap s t (Piece.layout _ _ _) (Piece.layout _ _ _)
  rw [hlayout a hab.left, hlayout b hab.right]
  exact hab.within hpre (Piece.breaksBehind_layout behind)

/-! ## Statements -/

/-- Which conditions of a statement are meant: those on rows or those on groups. -/
inductive Filter where
  | rows
  | groups

namespace Statement

/-- The statement with these conditions in its WHERE or HAVING clause, if it has such a clause. -/
def filtered (s : Statement) (f : Filter) (c : Criteria) : Statement :=
  match f, s with
  | .rows, .select s => .select { s with scope := { s.scope with criteria := c } }
  | .rows, .update u => .update { u with scope := { u.scope with criteria := c } }
  | .rows, .delete d => .delete { d with scope := { d.scope with criteria := c } }
  | .groups, .select s => .select { s with having := c }
  | _, s => s

theorem request_filtered (s : Statement) (f : Filter) (c : Criteria) :
    (s.filtered f c).request = s.request := by
  cases f <;> cases s <;> rfl

/-- Two texts of a statement whose conditions are related. -/
inductive Around (R : String → String → Prop) : String → String → Prop where
  | same (sql : String) : Around R sql sql
  | clause (front word behind : String) {a b : String} (h : R a b)
      (hword : ∃ c ∈ word.toList.getLast?, Text.isBreak c = true) (hbehind : BreaksBehind behind) :
      Around R (front ++ clause word a ++ behind) (front ++ clause word b ++ behind)

end Statement

section

variable {word : String} (h : ∃ c ∈ word.toList.head?, Text.isBreak c = true)

include h

theorem breaksBehind_clause (body : String) : BreaksBehind (clause word body) := by
  unfold clause
  split
  · exact Text.breaksBehind_empty
  · exact Text.breaksBehind_word h body

theorem breaksBehind_listClause (separator : String) (texts : List String) :
    BreaksBehind (listClause word separator texts) := by
  unfold listClause
  split
  · exact Text.breaksBehind_empty
  · exact Text.breaksBehind_word h _

theorem breaksBehind_countClause (n : Option Nat) : BreaksBehind (countClause word n) := by
  unfold countClause
  split
  · exact Text.breaksBehind_word h _
  · exact Text.breaksBehind_empty

end

section

variable {R : String → String → Prop} {isKey : String → Bool} {c c' : Criteria}

namespace Clauses

variable {front criteria middle behind a b : String} {orderBy : List String}

theorem breaksBehind_orderBy (hbehind : BreaksBehind behind) :
    BreaksBehind (listClause " ORDER BY " ", " orderBy ++ behind) :=
  (breaksBehind_listClause ⟨' ', rfl, rfl⟩ _ _).append hbehind

theorem around_criteria (hab : R a b) (hmiddle : BreaksBehind middle)
    (hbehind : BreaksBehind behind) :
    Statement.Around R (sql ⟨front, a, middle, orderBy, behind⟩)
      (sql ⟨front, b, middle, orderBy, behind⟩) := by
  simpa only [sql, String.append_assoc] using Statement.Around.clause front " WHERE " _ hab
    ⟨' ', rfl, rfl⟩ (hmiddle.append (breaksBehind_orderBy hbehind))

theorem around_middle (hab : R a b) (hbehind : BreaksBehind behind) :
    Statement.Around R (sql ⟨front, criteria, middle ++ clause " HAVING " a, orderBy, behind⟩)
      (sql ⟨front, criteria, middle ++ clause " HAVING " b, orderBy, behind⟩) := by
  simpa only [sql, String.append_assoc] using Statement.Around.clause
    (front ++ clause " WHERE " criteria ++ middle) " HAVING " _ hab ⟨' ', rfl, rfl⟩
    (breaksBehind_orderBy hbehind)

end Clauses

theorem Scope.clauses_around (s : Scope) (front : String)
    (h : Agree R (c.text ctx isKey) (c'.text ctx isKey)) :
    Agree (Statement.Around R)
      (Clauses.sql <$> Scope.clauses { s with criteria := c } front ctx isKey)
      (Clauses.sql <$> Scope.clauses { s with criteria := c' } front ctx isKey) := by
  simp only [clauses, map_eq_pure_bind, bind_assoc, pure_bind]
  refine h.bind fun a b hab => Agree.after _ fun orderBy => ?_
  exact Clauses.around_criteria hab Text.breaksBehind_empty
    (breaksBehind_countClause ⟨' ', rfl, rfl⟩ s.limit)

/-- What stands behind the sort keys of a SELECT. -/
theorem Select.breaksBehind_end (limit offset : Option Nat) (unions : List String) :
    BreaksBehind (countClause " LIMIT " limit ++ countClause " OFFSET " offset ++
      (if unions.isEmpty then "" else ")" ++ "".intercalate unions)) := by
  have hlimit : BreaksBehind (countClause " LIMIT " limit) :=
    breaksBehind_countClause ⟨' ', rfl, rfl⟩ _
  have hoffset : BreaksBehind (countClause " OFFSET " offset) :=
    breaksBehind_countClause ⟨' ', rfl, rfl⟩ _
  refine (hlimit.append hoffset).append ?_
  split
  · exact Text.breaksBehind_empty
  · exact Text.breaksBehind_word ⟨')', rfl, rfl⟩ _

theorem Select.rows_around (s : Select)
    (h : Agree R (c.text ctx s.request.params.contains) (c'.text ctx s.request.params.contains)) :
    Agree (Statement.Around R)
      (Clauses.sql <$> Select.clauses { s with scope := { s.scope with criteria := c } } ctx)
      (Clauses.sql <$> Select.clauses { s with scope := { s.scope with criteria := c' } } ctx) := by
  simp only [clauses, map_eq_pure_bind, bind_assoc, pure_bind]
  refine Agree.after _ fun columns => Agree.after _ fun tables => Agree.after _ fun joins => ?_
  refine h.bind fun a b hab => Agree.after _ fun groupBy => Agree.after _ fun having => ?_
  refine Agree.after _ fun orderBy => Agree.after _ fun unions => ?_
  have hgroupBy : BreaksBehind (listClause " GROUP BY " ", " groupBy) :=
    breaksBehind_listClause ⟨' ', rfl, rfl⟩ _ _
  exact Clauses.around_criteria hab (hgroupBy.append (breaksBehind_clause ⟨' ', rfl, rfl⟩ having))
    (breaksBehind_end _ _ _)

theorem Select.groups_around (s : Select)
    (h : Agree R (c.text ctx s.request.params.contains) (c'.text ctx s.request.params.contains)) :
    Agree (Statement.Around R)
      (Clauses.sql <$> Select.clauses { s with having := c } ctx)
      (Clauses.sql <$> Select.clauses { s with having := c' } ctx) := by
  simp only [clauses, map_eq_pure_bind, bind_assoc, pure_bind]
  refine Agree.after _ fun columns => Agree.after _ fun tables => Agree.after _ fun joins => ?_
  refine Agree.after _ fun criteria => Agree.after _ fun groupBy => h.bind fun a b hab => ?_
  refine Agree.after _ fun orderBy => Agree.after _ fun unions => ?_
  exact Clauses.around_middle hab (breaksBehind_end _ _ _)

/-- Nothing of a statement depends on its conditions but the text in their place. -/
theorem Statement.buildSql_around (s : Statement) (f : Filter)
    (h : Agree R (c.text ctx s.request.params.contains) (c'.text ctx s.request.params.contains)) :
    Agree (Around R) ((s.filtered f c).buildSql ctx) ((s.filtered f c').buildSql ctx) := by
  have hsame (t : Statement) : Agree (Around R) (t.buildSql ctx) (t.buildSql ctx) := by
    cases t.buildSql ctx with
    | error e => exact rfl
    | ok sql => exact .same sql
  cases f with
  | rows =>
    cases s with
    | select s =>
      rw [buildSql_eq, buildSql_eq]
      exact s.rows_around h
    | update u =>
      rw [buildSql_eq, buildSql_eq]
      simp only [filtered, clauses, Update.clauses]
      cases u.table with
      | none => exact rfl
      | some table =>
        simp only [map_bind]
        refine Agree.after _ fun _ => Agree.after _ fun _ => ?_
        exact Scope.clauses_around u.scope _ h
    | delete d =>
      rw [buildSql_eq, buildSql_eq]
      simp only [filtered, clauses, Delete.clauses]
      cases d.table with
      | none => exact rfl
      | some table =>
        simp only [map_bind]
        exact Agree.after _ fun _ => Scope.clauses_around d.scope _ h
    | raw q => exact hsame _
    | insert i => exact hsame _
  | groups =>
    cases s with
    | select s =>
      rw [buildSql_eq, buildSql_eq]
      exact s.groups_around h
    | raw q => exact hsame _
    | insert i => exact hsame _
    | update u => exact hsame _
    | delete d => exact hsame _

end

/-! ## The second phase -/

/-- A key gives way to the text of its value, be that in a cell or not. -/
theorem Params.quote_of_replacements {cells : Cells} {q : Quoting} {table : List Text.Replacement}
    (h : params.replacements (cells.context q) = .ok table) {k : String} (hk : k ≠ "") {v : Value}
    (hv : params.get? cells k = some v) :
    ∃ text, v.quote (cells.context q) = .ok text ∧
      table.find? (·.key == k) = some ⟨k, text⟩ := by
  obtain ⟨p, hp, rfl⟩ := Option.map_eq_some_iff.mp hv
  obtain ⟨⟨key, text⟩, hr, hkey, htext⟩ := Param.find?_of_yields (yields_of_replacements h)
    ((Param.find?_filter_key params.entries hk).trans hp)
  obtain rfl : key = k := by simpa using List.find?_some hr
  refine ⟨text, ?_, hr⟩
  cases p with
  | value key v => exact htext
  | cell key id => exact Cells.quote_of_cell cells q htext

namespace Statement

theorem toSql_eq_replaceAll (s : Statement) (ctx : Context) :
    s.toSql ctx = (do
      let sql ← s.buildSql ctx
      let table ← s.request.params.replacements ctx
      return Text.replaceAll table sql) := by
  rw [toSql, buildSql_eq, template_eq]
  simp only [Template.fill, map_eq_pure_bind, bind_assoc, pure_bind]

theorem Around.eq {a b : String} (h : Around Eq a b) : a = b := by
  cases h with
  | same sql => rfl
  | clause front word behind h => rw [h]

theorem Around.replaceAll_eq {s t : String} {table : List Text.Replacement}
    (htable : ∀ r ∈ table, ∀ c ∈ r.key.toList, Text.isBreak c = false)
    (hst : Text.replaceAll table s = Text.replaceAll table t) {a b : String}
    (h : Around (Swap s t) a b) : Text.replaceAll table a = Text.replaceAll table b := by
  cases h with
  | same sql => rfl
  | clause front word behind h hword hbehind =>
    rw [SqlComposer.clause, SqlComposer.clause, if_neg h.left, if_neg h.right,
      ← String.append_assoc, ← String.append_assoc]
    exact Swap.replaceAll_eq htable (h.within (Text.breaksBefore_word front hword) hbehind) hst

end Statement

theorem Text.stays_placeholder {k : String} {word : List Char} (hk : k.toList = ':' :: word)
    (hword : ∀ c ∈ word, isWordChar c = true) (lead : String) : Stays lead k := by
  have hne : k.toList ≠ [] := by simp [hk]
  obtain ⟨c, hc⟩ := Option.ne_none_iff_exists'.mp (mt List.getLast?_eq_none_iff.mp hne)
  refine ⟨⟨c, hc, ?_⟩, .inr ⟨':', by simp [hk], by decide⟩⟩
  have hmem := List.mem_of_getLast? hc
  rw [hk] at hmem
  rcases List.mem_cons.mp hmem with rfl | hmem
  · decide
  · exact isBlank_of_isWordChar (hword c hmem)

theorem Params.contains_of_get? {cells : Cells} {k : String} {v : Value}
    (h : params.get? cells k = some v) : params.contains k = true := by
  obtain ⟨p, hp, -⟩ := Option.map_eq_some_iff.mp h
  rw [Params.contains, List.any_eq_true]
  exact ⟨p, List.mem_of_find?_eq_some hp, by simpa using List.find?_some hp⟩

namespace Statement

/-- A placeholder comes to the same as the text of its value would as raw SQL. -/
theorem toSql_placeholder_raw (s : Statement) (f : Filter) (before after : List Condition)
    (logic : Logic) (column : Ident) (op : String) {k : String} {word : List Char}
    (hk : k.toList = ':' :: word) (hword : ∀ c ∈ word, Text.isWordChar c = true) {cells : Cells}
    {q : Quoting} {v : Value} (hv : s.request.params.get? cells k = some v)
    (hkeys : ∀ key ∈ s.request.params.keys, ∀ c ∈ key.toList, Text.isBreak c = false)
    {text : String} (htext : v.quote (cells.context q) = .ok text)
    (hfree : ∀ key ∈ s.request.params.keys, key ≠ "" → ¬ key.toList <:+: text.toList)
    (hstays : ∀ left, column.subject (cells.context q) = .ok left →
      Text.Stays (left ++ " " ++ Text.upper op ++ " ") text) :
    (s.filtered f ⟨before ++ .predicate logic column op (.text k) :: after⟩).toSql
        (cells.context q) =
      (s.filtered f ⟨before ++ .predicate logic column op (.fragment (.new text)) :: after⟩).toSql
        (cells.context q) := by
  have hne : k ≠ "" := by
    rintro rfl
    simp at hk
  have hpredicates := Predicate.text_placeholder (Params.contains_of_get? hv) fun left hleft =>
    ⟨Text.stays_placeholder hk hword (left ++ " " ++ Text.upper op ++ " "), hstays left hleft⟩
  have hbuild := s.buildSql_around f (Criteria.text_swap hpredicates before logic after)
  rw [toSql_eq_replaceAll, toSql_eq_replaceAll, request_filtered, request_filtered]
  refine hbuild.bind_eq fun a b hab => ?_
  cases htable : s.request.params.replacements (cells.context q) with
  | error e => rfl
  | ok table =>
    obtain ⟨text', htext', hfind⟩ := Params.quote_of_replacements htable hne hv
    obtain rfl : text = text' := Except.ok.inj (htext.symm.trans htext')
    have hmem {r : Text.Replacement} (hr : r ∈ table) : r.key ∈ s.request.params.keys :=
      Params.mem_keys_of_replacements htable hr
    have hplain : Text.replaceAll table text = text := by
      rw [Text.replaceAll, Text.replaceFrom_of_not_infix fun r hr => hfree r.key (hmem hr),
        String.ofList_toList]
    have hsame := (Text.replaceAll_key hne hfind).trans hplain.symm
    exact congrArg Except.ok (hab.replaceAll_eq (fun r hr => hkeys r.key (hmem hr)) hsame)

/-- A value that is written as it is could be raw SQL as well. -/
theorem toSql_raw (s : Statement) (f : Filter) (before after : List Condition) (logic : Logic)
    (column : Ident) {op text : String} {v : Value} (h : v.Verbatim s.request.params op)
    (htext : v.quote ctx = .ok text) :
    (s.filtered f ⟨before ++ .predicate logic column op v :: after⟩).toSql ctx =
      (s.filtered f ⟨before ++ .predicate logic column op (.fragment (.new text)) :: after⟩).toSql
        ctx := by
  have hcriteria :
      Criteria.text ctx s.request.params.contains
          ⟨before ++ .predicate logic column op v :: after⟩ =
        Criteria.text ctx s.request.params.contains
          ⟨before ++ .predicate logic column op (.fragment (.new text)) :: after⟩ := by
    refine (Criteria.text_predicate before logic ⟨column, op, v⟩ after).trans ?_
    rw [Predicate.text_raw h htext]
    exact (Criteria.text_predicate before logic _ after).symm
  have hbuild := s.buildSql_around f (Agree.of_eq hcriteria)
  rw [toSql_eq_replaceAll, toSql_eq_replaceAll, request_filtered, request_filtered]
  exact hbuild.bind_eq fun a b hab => by rw [hab.eq]

theorem exists_quote_of_toSql {s : Statement} {cells : Cells} {q : Quoting} {k sql : String}
    (hk : k ≠ "") {v : Value} (hv : s.request.params.get? cells k = some v)
    (h : s.toSql (cells.context q) = .ok sql) : ∃ text, v.quote (cells.context q) = .ok text := by
  rw [toSql_eq_replaceAll] at h
  obtain ⟨build, -, h⟩ := Outcome.bind_eq_ok.mp h
  obtain ⟨table, htable, -⟩ := Outcome.bind_eq_ok.mp h
  obtain ⟨text, htext, -⟩ := Params.quote_of_replacements htable hk hv
  exact ⟨text, htext⟩

/-- A placeholder in a condition comes to the operator as it is with the quoted text of its value.
So it comes to the same as the value, unless that is written in a way of its own. -/
theorem toSql_placeholder (s : Statement) (f : Filter) (before after : List Condition)
    (logic : Logic) (column : Ident) (op : String) {k : String} {word : List Char}
    (hk : k.toList = ':' :: word) (hword : ∀ c ∈ word, Text.isWordChar c = true) (cells : Cells)
    (q : Quoting) {v : Value} (hv : s.request.params.get? cells k = some v)
    (hkeys : ∀ key ∈ s.request.params.keys, ∀ c ∈ key.toList, Text.isBreak c = false)
    (hfree : ∀ text, v.quote (cells.context q) = .ok text →
      ∀ key ∈ s.request.params.keys, key ≠ "" → ¬ key.toList <:+: text.toList)
    (hstays : ∀ text left, v.quote (cells.context q) = .ok text →
      column.subject (cells.context q) = .ok left →
        Text.Stays (left ++ " " ++ Text.upper op ++ " ") text) :
    (∀ text, v.quote (cells.context q) = .ok text →
      (s.filtered f ⟨before ++ .predicate logic column op (.text k) :: after⟩).toSql
          (cells.context q) =
        (s.filtered f ⟨before ++ .predicate logic column op (.fragment (.new text)) :: after⟩).toSql
          (cells.context q)) ∧
      (v.Verbatim s.request.params op → ∀ sql,
        (s.filtered f ⟨before ++ .predicate logic column op (.text k) :: after⟩).toSql
            (cells.context q) = .ok sql ↔
          (s.filtered f ⟨before ++ .predicate logic column op v :: after⟩).toSql
            (cells.context q) = .ok sql) := by
  have hraw {text : String} (htext : v.quote (cells.context q) = .ok text) :=
    toSql_placeholder_raw s f before after logic column op hk hword hv hkeys htext
      (hfree text htext) fun left hleft => hstays text left htext hleft
  have hne : k ≠ "" := by
    rintro rfl
    simp at hk
  refine ⟨fun text htext => hraw htext, fun hverbatim sql => ?_⟩
  -- Either statement needs the text of the value, for the parameter if not for the operand.
  have hquoted (c : Criteria) (h : (s.filtered f c).toSql (cells.context q) = .ok sql) :
      ∃ text, v.quote (cells.context q) = .ok text := by
    refine exists_quote_of_toSql hne ?_ h
    rwa [request_filtered]
  constructor
  · intro h
    obtain ⟨text, htext⟩ := hquoted _ h
    rw [toSql_raw s f before after logic column hverbatim htext, ← hraw htext, h]
  · intro h
    obtain ⟨text, htext⟩ := hquoted _ h
    rw [hraw htext, ← toSql_raw s f before after logic column hverbatim htext, h]

/-- A cell with the bounds of a range in it. -/
def ranged : Cells := ⟨[.pair (.int 1) (.text "it's")]⟩

/-- A SELECT with two keys, the shorter of which is bound to a cell. -/
def spanned : Statement :=
  .select { Select.empty with
    tables := [.name "t"]
    request := ⟨⟨[.value ":id2" (.int 7), .cell ":id" 0]⟩, {}, none⟩ }

/-- A group with a range as its second member. -/
def spanning (v : Value) : Criteria :=
  ⟨[.opening .and, .predicate .and (.name "b") ">" (.text ":id2")] ++
    .predicate .or (.name "a") "between" v :: [.closing .or]⟩

theorem toSql_placeholder_spanned :
    (spanned.filtered .rows (spanning (.pair (.int 1) (.text "it's")))).toSql
        (ranged.context (Dialect.standard.quoting "")) =
          .ok "SELECT * FROM \"t\" WHERE (\"b\" > 7 OR \"a\" BETWEEN 1 AND 'it''s')" ∧
      (spanned.filtered .rows (spanning (.text ":id"))).toSql
        (ranged.context (Dialect.standard.quoting "")) =
          .ok "SELECT * FROM \"t\" WHERE (\"b\" > 7 OR \"a\" BETWEEN 1 AND 'it''s')" := by
  have hdirect : (spanned.filtered .rows (spanning (.pair (.int 1) (.text "it's")))).toSql
      (ranged.context (Dialect.standard.quoting "")) =
        .ok "SELECT * FROM \"t\" WHERE (\"b\" > 7 OR \"a\" BETWEEN 1 AND 'it''s')" := rfl
  have hquote : (Value.pair (.int 1) (.text "it's")).quote
      (ranged.context (Dialect.standard.quoting "")) = .ok "1 AND 'it''s'" := rfl
  have hquoted {text : String} (h : (Value.pair (.int 1) (.text "it's")).quote
      (ranged.context (Dialect.standard.quoting "")) = .ok text) : text = "1 AND 'it''s'" :=
    Except.ok.inj (h.symm.trans hquote)
  have hkeys : ∀ key ∈ [":id2", ":id"], ∀ c ∈ key.toList, Text.isBreak c = false := by
    simp [Text.isBreak]
  have hcolons : ∀ key ∈ [":id2", ":id"], ':' ∈ key.toList := by simp
  have hfree : ∀ key ∈ [":id2", ":id"], key ≠ "" → ¬ key.toList <:+: "1 AND 'it''s'".toList :=
    fun key hkey _ hin => absurd (hin.subset (hcolons key hkey)) (by decide)
  have hstays (lead : String) : Text.Stays lead "1 AND 'it''s'" :=
    ⟨⟨'\'', rfl, rfl⟩, .inr ⟨'1', rfl, rfl⟩⟩
  have hword : ∀ c ∈ ['i', 'd'], Text.isWordChar c = true := by simp [Text.isWordChar]
  have hv : spanned.request.params.get? ranged ":id" = some (.pair (.int 1) (.text "it's")) := rfl
  have hk : ":id".toList = ':' :: ['i', 'd'] := rfl
  obtain ⟨-, hiff⟩ := toSql_placeholder spanned .rows
    [.opening .and, .predicate .and (.name "b") ">" (.text ":id2")] [.closing .or] .or (.name "a")
    "between" hk hword ranged (Dialect.standard.quoting "") hv hkeys
    (fun text h => by rw [hquoted h]; exact hfree) (fun text left h _ => by
      rw [hquoted h]
      exact hstays _)
  have hverbatim : (Value.pair (.int 1) (.text "it's")).Verbatim spanned.request.params "between" :=
    fun _ => ⟨rfl, rfl⟩
  exact ⟨hdirect, (hiff hverbatim _).mpr hdirect⟩

/-- The SQL of a statement that compares a column with an operand. -/
def comparedSql (entries : List Param) (op : String) (operand : Value) : Outcome String :=
  (filtered (.select { Select.empty with
    tables := [.name "t"]
    request := ⟨⟨entries⟩, {}, none⟩ }) .rows
      ⟨[.predicate .and (.name "a") op operand]⟩).toSql
    (Cells.empty.context (Dialect.standard.quoting ""))

/-- Behind a placeholder, no operator sees NULL, an empty list or a list of two. The second phase
puts in the text of the value untrimmed, does not look for other keys there, and may take a key with
a blank in it for the operator and the placeholder. -/
theorem placeholder_unlike_value :
    comparedSql [.value ":id" .null] "=" (.text ":id") =
        .ok "SELECT * FROM \"t\" WHERE \"a\" = NULL" ∧
      comparedSql [.value ":id" .null] "=" .null =
        .ok "SELECT * FROM \"t\" WHERE \"a\" IS NULL" ∧
      comparedSql [.value ":id" (.list [])] "IN" (.text ":id") =
        .ok "SELECT * FROM \"t\" WHERE \"a\" IN ()" ∧
      comparedSql [.value ":id" (.list [])] "IN" (.list []) =
        .ok "SELECT * FROM \"t\" WHERE \"a\" IN (NULL)" ∧
      comparedSql [.value ":id" (.list [.int 1, .int 2])] "BETWEEN" (.text ":id") =
        .ok "SELECT * FROM \"t\" WHERE \"a\" BETWEEN (1, 2)" ∧
      comparedSql [.value ":id" (.list [.int 1, .int 2])] "BETWEEN" (.list [.int 1, .int 2]) =
        .ok "SELECT * FROM \"t\" WHERE \"a\" BETWEEN 1 AND 2" ∧
      comparedSql [.value ":id" (.fragment (.new "x "))] "=" (.text ":id") =
        .ok "SELECT * FROM \"t\" WHERE \"a\" = x " ∧
      comparedSql [.value ":id" (.fragment (.new "x "))] "=" (.fragment (.new "x ")) =
        .ok "SELECT * FROM \"t\" WHERE \"a\" = x" ∧
      comparedSql [.value ":id" (.text "at :n"), .value ":n" (.int 1)] "=" (.text ":id") =
        .ok "SELECT * FROM \"t\" WHERE \"a\" = 'at :n'" ∧
      comparedSql [.value ":id" (.text "at :n"), .value ":n" (.int 1)] "=" (.text "at :n") =
        .ok "SELECT * FROM \"t\" WHERE \"a\" = 'at 1'" ∧
      comparedSql [.value ":id" (.int 1), .value "= :id" (.int 2)] "=" (.text ":id") =
        .ok "SELECT * FROM \"t\" WHERE \"a\" 2" ∧
      comparedSql [.value ":id" (.int 1), .value "= :id" (.int 2)] "=" (.int 1) =
        .ok "SELECT * FROM \"t\" WHERE \"a\" = 1" :=
  ⟨rfl, rfl, rfl, rfl, rfl, rfl, rfl, rfl, rfl, rfl, rfl, rfl⟩

end Statement

end SqlComposer
