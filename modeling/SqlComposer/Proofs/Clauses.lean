import SqlComposer.Statement

/-!
# The clauses of a statement

The text of a statement cut in five: what stands in front of the WHERE clause, the conditions, what
stands between them and the ORDER BY clause, the sort keys one by one, and what stands behind.
-/

namespace SqlComposer

structure Clauses where
  /-- The table, the SET clause, or the columns with the FROM and JOIN clauses. -/
  front : String
  criteria : String
  /-- GROUP BY and HAVING. -/
  middle : String
  orderBy : List String
  /-- LIMIT and OFFSET, and the branches of a UNION. -/
  behind : String

def Clauses.sql (c : Clauses) : String :=
  c.front ++ clause " WHERE " c.criteria ++ c.middle ++ listClause " ORDER BY " ", " c.orderBy ++
    c.behind

/-- A SELECT that is united with others stands between parentheses. -/
def Select.clauses (s : Select) (ctx : Context) : Outcome Clauses := do
  let columns ← Ident.texts ctx .column s.columns
  let tables ← Ident.texts ctx .table s.tables
  let joins ← Join.texts ctx s.joins
  let criteria ← s.scope.criteria.text ctx s.request.params.contains
  let groupBy ← Ident.targets ctx s.groupBy
  let having ← s.having.text ctx s.request.params.contains
  let orderBy ← SortKey.texts ctx s.scope.orderBy
  let unions ← Branch.texts ctx s.unions
  return {
    front :=
      (if unions.isEmpty then "" else "(") ++
      (if s.distinct then "SELECT DISTINCT " else "SELECT ") ++
      (if columns.isEmpty then "*" else ", ".intercalate columns.eraseDups) ++
      listClause " FROM " ", " tables.eraseDups ++
      listClause " " " " joins
    criteria
    middle := listClause " GROUP BY " ", " groupBy ++ clause " HAVING " having
    orderBy
    behind :=
      countClause " LIMIT " s.scope.limit ++
      countClause " OFFSET " s.offset ++
      (if unions.isEmpty then "" else ")" ++ "".intercalate unions) }

/-- A scope behind the text of what it belongs to. -/
def Scope.clauses (s : Scope) (front : String) (ctx : Context) (isKey : String → Bool) :
    Outcome Clauses := do
  let criteria ← s.criteria.text ctx isKey
  let orderBy ← SortKey.texts ctx s.orderBy
  return { front, criteria, middle := "", orderBy, behind := countClause " LIMIT " s.limit }

def Update.clauses (u : Update) (ctx : Context) : Outcome Clauses := do
  match u.table with
  | none => .error (.error (.noTarget .update))
  | some table =>
    let table ← table.text ctx .table
    let assignments ← Assignment.listText ctx u.request.params.contains u.assignments
    u.scope.clauses ("UPDATE " ++ table ++ " SET " ++ assignments) ctx u.request.params.contains

def Delete.clauses (d : Delete) (ctx : Context) : Outcome Clauses := do
  match d.table with
  | none => .error (.error (.noTarget .delete))
  | some table =>
    let table ← table.text ctx .table
    d.scope.clauses ("DELETE FROM " ++ table) ctx d.request.params.contains

namespace Statement

/-- Raw queries and INSERT statements have neither conditions nor sort keys of their own. -/
def clauses (s : Statement) (ctx : Context) : Outcome Clauses :=
  match s with
  | .select s => s.clauses ctx
  | .update u => u.clauses ctx
  | .delete d => d.clauses ctx
  | .raw _ | .insert _ => do
    let front ← s.buildSql ctx
    return { front, criteria := "", middle := "", orderBy := [], behind := "" }

end Statement

/-! ## The cut text is the text -/

theorem Select.template_eq (s : Select) (ctx : Context) :
    s.template ctx = do
      return ⟨(← s.clauses ctx).sql, s.request.params.replacements ctx⟩ := by
  obtain ⟨distinct, columns, tables, joins, ⟨criteria, orderBy, limit⟩, groupBy, having, offset,
    unions, ⟨params, options, lastSql⟩⟩ := s
  simp only [Select.template, Select.clauses, bind_assoc, pure_bind]
  refine bind_congr fun columns => bind_congr fun tables => bind_congr fun joins =>
    bind_congr fun criteria => bind_congr fun groupBy => bind_congr fun having =>
    bind_congr fun orderBy => bind_congr fun unions => ?_
  have hsql (sql : String) : united sql unions =
      (if unions.isEmpty then "" else "(") ++ sql ++
        (if unions.isEmpty then "" else ")" ++ "".intercalate unions) := by
    unfold united parenthesized
    split <;> simp [String.append_assoc]
  rw [hsql]
  simp only [Clauses.sql, String.append_assoc]

theorem Scope.template_eq (s : Scope) (front : String) (ctx : Context) (isKey : String → Bool)
    (replacements : Outcome (List Text.Replacement)) :
    (do return (⟨front ++ (← s.text ctx isKey), replacements⟩ : Template)) = do
      return ⟨(← s.clauses front ctx isKey).sql, replacements⟩ := by
  simp only [Scope.text, Scope.clauses, bind_assoc, pure_bind]
  refine bind_congr fun criteria => bind_congr fun orderBy => ?_
  simp only [Clauses.sql, String.append_assoc, String.empty_append]

theorem Update.template_eq (u : Update) (ctx : Context) :
    u.template ctx = do
      return ⟨(← u.clauses ctx).sql, u.request.params.replacements ctx⟩ := by
  simp only [Update.template, Update.clauses]
  cases u.table with
  | none => rfl
  | some table =>
    simp only [bind_assoc]
    exact bind_congr fun table => bind_congr fun assignments => Scope.template_eq ..

theorem Delete.template_eq (d : Delete) (ctx : Context) :
    d.template ctx = do
      return ⟨(← d.clauses ctx).sql, d.request.params.replacements ctx⟩ := by
  simp only [Delete.template, Delete.clauses]
  cases d.table with
  | none => rfl
  | some table =>
    simp only [bind_assoc]
    exact bind_congr fun table => Scope.template_eq ..

theorem Clauses.sql_front (front : String) : Clauses.sql ⟨front, "", "", [], ""⟩ = front := by
  simp [sql, clause, listClause]

theorem Statement.template_eq (s : Statement) (ctx : Context) :
    s.template ctx = do
      return ⟨(← s.clauses ctx).sql, s.request.params.replacements ctx⟩ := by
  cases s with
  | select s => exact s.template_eq ctx
  | update u => exact u.template_eq ctx
  | delete d => exact d.template_eq ctx
  | raw q =>
    obtain ⟨kind, sql, ⟨params, options, lastSql⟩⟩ := q
    exact congrArg (fun sql => Except.ok (Template.mk sql (params.replacements ctx)))
      (Clauses.sql_front sql).symm
  | insert i =>
    simp only [clauses, buildSql, template, Insert.template, request]
    cases i.table with
    | none => rfl
    | some table => simp [Clauses.sql_front]

theorem Statement.buildSql_eq (s : Statement) (ctx : Context) :
    s.buildSql ctx = Clauses.sql <$> s.clauses ctx := by
  rw [buildSql, template_eq]
  simp

/-! ## What the clauses show -/

namespace Statement

/-- The rows that the statement is about. A raw query and an INSERT have no such clauses. -/
def scope : Statement → Scope
  | .select s => s.scope
  | .update u => u.scope
  | .delete d => d.scope
  | .raw _ | .insert _ => .empty

/-- The statement without its sort keys. -/
def unordered : Statement → Statement
  | .select s => .select { s with scope := { s.scope with orderBy := [] } }
  | .update u => .update { u with scope := { u.scope with orderBy := [] } }
  | .delete d => .delete { d with scope := { d.scope with orderBy := [] } }
  | s => s

end Statement

variable {ctx : Context} {c : Clauses}

theorem Scope.of_clauses {s : Scope} {front : String} {isKey : String → Bool}
    (h : s.clauses front ctx isKey = .ok c) :
    s.criteria.text ctx isKey = .ok c.criteria ∧ SortKey.texts ctx s.orderBy = .ok c.orderBy ∧
      Scope.clauses { s with orderBy := [] } front ctx isKey = .ok { c with orderBy := [] } := by
  obtain ⟨criteria, hcriteria, h⟩ := Outcome.bind_eq_ok.mp h
  obtain ⟨orderBy, horderBy, h⟩ := Outcome.bind_eq_ok.mp h
  obtain rfl := Except.ok.inj h
  refine ⟨hcriteria, horderBy, ?_⟩
  rw [Scope.clauses, hcriteria]
  rfl

theorem Select.of_clauses {s : Select} (h : s.clauses ctx = .ok c) :
    s.scope.criteria.text ctx s.request.params.contains = .ok c.criteria ∧
      SortKey.texts ctx s.scope.orderBy = .ok c.orderBy ∧
      Select.clauses { s with scope := { s.scope with orderBy := [] } } ctx =
        .ok { c with orderBy := [] } := by
  obtain ⟨columns, hcolumns, h⟩ := Outcome.bind_eq_ok.mp h
  obtain ⟨tables, htables, h⟩ := Outcome.bind_eq_ok.mp h
  obtain ⟨joins, hjoins, h⟩ := Outcome.bind_eq_ok.mp h
  obtain ⟨criteria, hcriteria, h⟩ := Outcome.bind_eq_ok.mp h
  obtain ⟨groupBy, hgroupBy, h⟩ := Outcome.bind_eq_ok.mp h
  obtain ⟨having, hhaving, h⟩ := Outcome.bind_eq_ok.mp h
  obtain ⟨orderBy, horderBy, h⟩ := Outcome.bind_eq_ok.mp h
  obtain ⟨unions, hunions, h⟩ := Outcome.bind_eq_ok.mp h
  obtain rfl := Except.ok.inj h
  refine ⟨hcriteria, horderBy, ?_⟩
  rw [Select.clauses, hcolumns, htables, hjoins, hcriteria, hgroupBy, hhaving, hunions]
  rfl

/-- The conditions and the sort keys stand in their clauses. Sort keys show nowhere else. -/
theorem Statement.of_clauses {s : Statement} (h : s.clauses ctx = .ok c) :
    s.scope.criteria.text ctx s.request.params.contains = .ok c.criteria ∧
      SortKey.texts ctx s.scope.orderBy = .ok c.orderBy ∧
      s.unordered.clauses ctx = .ok { c with orderBy := [] } := by
  cases s with
  | select s => exact Select.of_clauses h
  | update u =>
    simp only [clauses, Update.clauses] at h
    cases htable : u.table with
    | none => simp [htable] at h
    | some table =>
      rw [htable] at h
      obtain ⟨target, htarget, h⟩ := Outcome.bind_eq_ok.mp h
      obtain ⟨assignments, hassignments, h⟩ := Outcome.bind_eq_ok.mp h
      obtain ⟨hcriteria, horderBy, hscope⟩ := Scope.of_clauses h
      refine ⟨hcriteria, horderBy, ?_⟩
      simp only [unordered, clauses, Update.clauses, htable]
      exact Outcome.bind_eq_ok.mpr ⟨target, htarget,
        Outcome.bind_eq_ok.mpr ⟨assignments, hassignments, hscope⟩⟩
  | delete d =>
    simp only [clauses, Delete.clauses] at h
    cases htable : d.table with
    | none => simp [htable] at h
    | some table =>
      rw [htable] at h
      obtain ⟨target, htarget, h⟩ := Outcome.bind_eq_ok.mp h
      obtain ⟨hcriteria, horderBy, hscope⟩ := Scope.of_clauses h
      refine ⟨hcriteria, horderBy, ?_⟩
      simp only [unordered, clauses, Delete.clauses, htable]
      exact Outcome.bind_eq_ok.mpr ⟨target, htarget, hscope⟩
  | raw q =>
    obtain ⟨sql, hsql, hc⟩ := Outcome.bind_eq_ok.mp h
    obtain rfl := Except.ok.inj hc
    exact ⟨rfl, rfl, h⟩
  | insert i =>
    obtain ⟨sql, hsql, hc⟩ := Outcome.bind_eq_ok.mp h
    obtain rfl := Except.ok.inj hc
    exact ⟨rfl, rfl, h⟩

end SqlComposer
