import SqlComposer.Statement

/-!
# Statements in passages

The text of a statement is the text of its passages, one behind the other, and it fails as the first
of them that fails. So whatever one passage is about, all else stands around it as before.
-/

namespace SqlComposer

/-! ## Texts with a gap -/

/-- Texts one behind the other. The first failure counts. -/
def Outcome.concat : List (Outcome String) → Outcome String
  | [] => pure ""
  | text :: rest => do return (← text) ++ (← Outcome.concat rest)

/-- What stands around a gap. -/
structure Frame where
  front : Outcome String
  behind : Outcome String

namespace Frame

def fill (f : Frame) (gap : Outcome String) : Outcome String := do
  return (← f.front) ++ (← gap) ++ (← f.behind)

/-- What stands around one of several texts. -/
def around (texts : List (Outcome String)) (i : Nat) : Frame :=
  ⟨Outcome.concat (texts.take i), Outcome.concat (texts.drop (i + 1))⟩

theorem fill_eq_ok {f : Frame} {gap : Outcome String} {sql : String} :
    f.fill gap = .ok sql ↔ ∃ front text behind, f.front = .ok front ∧ gap = .ok text ∧
      f.behind = .ok behind ∧ sql = front ++ text ++ behind := by
  simp only [fill, Outcome.bind_eq_ok]
  constructor
  · rintro ⟨front, hfront, text, htext, behind, hbehind, h⟩
    exact ⟨front, text, behind, hfront, htext, hbehind, (Except.ok.inj h).symm⟩
  · rintro ⟨front, text, behind, hfront, htext, hbehind, rfl⟩
    exact ⟨front, hfront, text, htext, behind, hbehind, rfl⟩

variable {f : Frame} {gap : Outcome String} {bare : String}

theorem fill_eq_bare (h : f.fill (.ok "") = .ok bare) : f.fill gap = .ok bare ↔ gap = .ok "" := by
  refine ⟨fun hgap => ?_, fun hgap => hgap ▸ h⟩
  obtain ⟨front, _, behind, hfront, ⟨⟩, hbehind, rfl⟩ := fill_eq_ok.mp h
  obtain ⟨front', text, behind', hfront', rfl, hbehind', htext⟩ := fill_eq_ok.mp hgap
  obtain rfl : front = front' := Except.ok.inj (hfront.symm.trans hfront')
  obtain rfl : behind = behind' := Except.ok.inj (hbehind.symm.trans hbehind')
  have hlength := congrArg String.length htext
  simp only [String.length_append, String.length_empty] at hlength
  rw [String.length_eq_zero_iff.mp (by omega : text.length = 0)]

theorem fill_eq_error (h : f.fill (.ok "") = .ok bare) {e : Failure} :
    f.fill gap = .error e ↔ gap = .error e := by
  obtain ⟨front, _, behind, hfront, -, hbehind, -⟩ := fill_eq_ok.mp h
  rw [fill, hfront, hbehind]
  cases gap <;> simp [bind, Except.bind, pure, Except.pure]

end Frame

namespace Outcome

theorem concat_append (texts rest : List (Outcome String)) :
    concat (texts ++ rest) = do return (← concat texts) ++ (← concat rest) := by
  induction texts with
  | nil =>
    rw [List.nil_append, concat, pure_bind]
    exact (bind_pure _).symm.trans (bind_congr fun text => by simp)
  | cons text texts ih =>
    simp only [List.cons_append, concat, ih, bind_assoc, pure_bind, String.append_assoc]

theorem concat_set {texts : List (Outcome String)} {i : Nat} (h : i < texts.length)
    (gap : Outcome String) : concat (texts.set i gap) = (Frame.around texts i).fill gap := by
  rw [List.set_eq_take_append_cons_drop, if_pos h]
  simp only [concat_append, concat, Frame.fill, Frame.around, bind_assoc, pure_bind,
    String.append_assoc]

end Outcome

/-! ## Lists of references -/

theorem Ident.texts_eq_mapM (ctx : Context) (role : Role) (is : List Ident) :
    Ident.texts ctx role is = is.mapM (Ident.text ctx role) := by
  induction is with
  | nil => rfl
  | cons i is ih => simp only [Ident.texts, ih, List.mapM_cons]

/-! ## The passages of a statement -/

variable (ctx : Context)

namespace Select

def opening (s : Select) : String :=
  (if s.unions.isEmpty then "" else "(") ++ if s.distinct then "SELECT DISTINCT " else "SELECT "

/-- The select list and the FROM list. -/
def listsText (columns tables : List Ident) : Outcome String := do
  let columns ← Ident.texts ctx .column columns
  let tables ← Ident.texts ctx .table tables
  return (if columns.isEmpty then "*" else ", ".intercalate columns.eraseDups) ++
    listClause " FROM " ", " tables.eraseDups

/-- The others that a SELECT is united with, behind the end of its parentheses. -/
def branchesText (branches : List Branch) : Outcome String := do
  let branches ← Branch.texts ctx branches
  return if branches.isEmpty then "" else ")" ++ "".intercalate branches

def passages (s : Select) : List (Outcome String) :=
  [pure s.opening,
    listsText ctx s.columns s.tables,
    listClause " " " " <$> Join.texts ctx s.joins,
    clause " WHERE " <$> s.scope.criteria.compile ctx s.request.params,
    listClause " GROUP BY " ", " <$> Ident.targets ctx s.groupBy,
    clause " HAVING " <$> s.having.compile ctx s.request.params,
    listClause " ORDER BY " ", " <$> SortKey.texts ctx s.scope.orderBy,
    pure (countClause " LIMIT " s.scope.limit ++ countClause " OFFSET " s.offset),
    branchesText ctx s.unions]

theorem buildSql_passages (s : Select) :
    (Statement.select s).buildSql ctx = Outcome.concat (s.passages ctx) := by
  obtain ⟨distinct, columns, tables, joins, ⟨criteria, orderBy, limit⟩, groupBy, having, offset,
    unions, ⟨params, options, lastSql⟩⟩ := s
  simp only [Statement.buildSql, Statement.template, Select.template, passages, listsText,
    branchesText, Outcome.concat, Criteria.compile, bind_assoc, pure_bind, map_eq_pure_bind]
  refine bind_congr fun columns => bind_congr fun tables => bind_congr fun joins =>
    bind_congr fun criteria => bind_congr fun groupBy => bind_congr fun having =>
    bind_congr fun orderBy => ?_
  -- Whether parentheses are opened is seen from the branches, not from their texts.
  cases unions with
  | nil =>
    refine congrArg Except.ok ?_
    simp [united, opening, String.append_assoc]
  | cons branch branches =>
    simp only [Branch.texts, bind_assoc, pure_bind]
    refine bind_congr fun union => bind_congr fun unions => congrArg Except.ok ?_
    simp [united, parenthesized, opening, String.append_assoc]

end Select

def Scope.passages (s : Scope) (params : Params) : List (Outcome String) :=
  [clause " WHERE " <$> s.criteria.compile ctx params,
    listClause " ORDER BY " ", " <$> SortKey.texts ctx s.orderBy,
    pure (countClause " LIMIT " s.limit)]

def targetText (kind : Kind) (word : String) (table : Option Ident) : Outcome String := do
  match table with
  | none => .error (.error (.noTarget kind))
  | some table => return word ++ (← table.text ctx .table)

def Update.passages (u : Update) : List (Outcome String) :=
  targetText ctx .update "UPDATE " u.table ::
    (do return " SET " ++ (← Assignment.listText ctx u.request.params.contains u.assignments)) ::
    u.scope.passages ctx u.request.params

def Delete.passages (d : Delete) : List (Outcome String) :=
  targetText ctx .delete "DELETE FROM " d.table :: d.scope.passages ctx d.request.params

theorem Scope.text_passages (s : Scope) (params : Params) :
    s.text ctx params.contains = Outcome.concat (s.passages ctx params) := by
  simp [Scope.text, Scope.passages, Outcome.concat, Criteria.compile, String.append_assoc]

theorem Update.buildSql_passages (u : Update) :
    (Statement.update u).buildSql ctx = Outcome.concat (u.passages ctx) := by
  simp only [Statement.buildSql, Statement.template, Update.template, passages, Outcome.concat,
    targetText, Scope.text_passages]
  cases u.table with
  | none => rfl
  | some table => simp only [bind_assoc, pure_bind, String.append_assoc]

theorem Delete.buildSql_passages (d : Delete) :
    (Statement.delete d).buildSql ctx = Outcome.concat (d.passages ctx) := by
  simp only [Statement.buildSql, Statement.template, Delete.template, passages, Outcome.concat,
    targetText, Scope.text_passages]
  cases d.table with
  | none => rfl
  | some table => simp only [bind_assoc, pure_bind, String.append_assoc]

/-- Statements without conditions are not divided. -/
def Statement.passages : Statement → List (Outcome String)
  | .select s => s.passages ctx
  | .update u => u.passages ctx
  | .delete d => d.passages ctx
  | s => [s.buildSql ctx]

theorem Statement.buildSql_passages (s : Statement) :
    s.buildSql ctx = Outcome.concat (s.passages ctx) := by
  cases s with
  | select s => exact s.buildSql_passages ctx
  | update u => exact u.buildSql_passages ctx
  | delete d => exact d.buildSql_passages ctx
  | _ => simp [passages, Outcome.concat]

/-! ## What stands around a clause -/

variable {ctx}

/-- If statements differ in one passage, their texts differ in what fills one gap. -/
theorem Statement.buildSql_set {s s' : Statement} {i : Nat} {gap : Outcome String}
    (h : s'.passages ctx = (s.passages ctx).set i gap) (hi : i < (s.passages ctx).length) :
    s'.buildSql ctx = (Frame.around (s.passages ctx) i).fill gap := by
  rw [buildSql_passages, h, Outcome.concat_set hi]

theorem Select.buildSql_lists (s : Select) (columns tables : List Ident) :
    (Statement.select { s with columns, tables }).buildSql ctx =
      (Frame.around (s.passages ctx) 1).fill (listsText ctx columns tables) :=
  Statement.buildSql_set (s := .select s) rfl (by simp [Statement.passages, passages])

theorem Select.buildSql_joins (s : Select) (joins : List Join) :
    (Statement.select { s with joins }).buildSql ctx =
      (Frame.around (s.passages ctx) 2).fill (listClause " " " " <$> Join.texts ctx joins) :=
  Statement.buildSql_set (s := .select s) rfl (by simp [Statement.passages, passages])

end SqlComposer
