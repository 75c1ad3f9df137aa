import SqlComposer.Proofs.Columns
import SqlComposer.Proofs.Filters
import SqlComposer.Proofs.Occurrences
import SqlComposer.Proofs.Passages
import SqlComposer.Proofs.Placeholders

/-!
# What is named more than once

Columns and tables count by the texts they are written as. Of those with one text the first decides
on the place, and the others add nothing, except that a column is assigned its last value.
-/

namespace SqlComposer

/-! ## Assignments -/

namespace AssignmentText

/-- The last assignment to its column. -/
def Final (texts : List AssignmentText) (a : AssignmentText) : Prop :=
  ∃ before after, texts = before ++ a :: after ∧ ∀ later ∈ after, later.column ≠ a.column

theorem put_eq_settle (a : AssignmentText) (merged : List AssignmentText) :
    put a merged = settle (·.column) a merged := by
  induction merged with
  | nil => rfl
  | cons b merged ih => rw [put, settle, ih]

/-- Each column is assigned once: in the place of its first assignment, and as in its last. -/
theorem merge_settled (texts : List AssignmentText) :
    FirstOccurrences (texts.map (·.column)) ((merge texts).map (·.column)) ∧
      ∀ a ∈ merge texts, Final texts a := by
  have harranged : Arranged (·.column) texts (merge texts) := by
    simpa only [merge, put_eq_settle, List.nil_append] using Arranged.nil.append texts
  exact ⟨harranged.keys, fun a ha => harranged.lastOf ha⟩

end AssignmentText

theorem Except.exists_mapM_error {ε α β : Type} {f : α → Except ε β} {as : List α} :
    (∃ e, as.mapM f = .error e) ↔ ∃ a ∈ as, ∃ e, f a = .error e := by
  induction as with
  | nil => simp [pure, Except.pure]
  | cons a as ih =>
    rw [List.mapM_cons, List.exists_mem_cons_iff, ← ih]
    cases f a with
    | error e => simp [bind, Except.bind]
    | ok b => cases as.mapM f <;> simp [bind, Except.bind, pure, Except.pure]

namespace Assignment

variable (ctx : Context) (params : Params)

/-- An assignment with its text: the column, and behind it the value. -/
def Renders (a : Assignment) (t : AssignmentText) : Prop :=
  ∃ value, a.column.text ctx .column = .ok t.column ∧
    operand params.contains a.value (a.value.quote ctx) = .ok value ∧
    t.text = t.column ++ " = " ++ value

variable {ctx params} {a : Assignment} {t : AssignmentText}

theorem text_eq_ok : a.text ctx params.contains = .ok t ↔ a.Renders ctx params t := by
  obtain ⟨column, text⟩ := t
  simp only [Assignment.text, Renders, Outcome.bind_eq_ok]
  constructor
  · rintro ⟨column', hcolumn, value, hvalue, h⟩
    obtain ⟨rfl, rfl⟩ := AssignmentText.mk.inj (Except.ok.inj h)
    exact ⟨value, hcolumn, hvalue, rfl⟩
  · rintro ⟨value, hcolumn, hvalue, rfl⟩
    exact ⟨column, hcolumn, value, hvalue, rfl⟩

theorem exists_text_error : (∃ e, a.text ctx params.contains = .error e) ↔
    (∃ e, a.column.text ctx .column = .error e) ∨
      ∃ e, operand params.contains a.value (a.value.quote ctx) = .error e := by
  unfold Assignment.text
  cases a.column.text ctx .column with
  | error e => simp [bind, Except.bind]
  | ok column =>
    cases operand params.contains a.value (a.value.quote ctx) <;>
      simp [bind, Except.bind, pure, Except.pure]

/-- Assignments are listed column by column, in the order in which the columns come up first, each
with the last value that it is assigned. They fail if anything in them does, whether it would have
been listed or not. -/
theorem listText_settled (ctx : Context) (params : Params) (as : List Assignment) :
    (∀ texts, List.Forall₂ (Renders ctx params) as texts →
      ∃ kept : List AssignmentText,
        listText ctx params.contains as = .ok (", ".intercalate (kept.map (·.text))) ∧
          FirstOccurrences (texts.map (·.column)) (kept.map (·.column)) ∧
          ∀ t ∈ kept, AssignmentText.Final texts t) ∧
      ((∃ e, listText ctx params.contains as = .error e) ↔
        ∃ a ∈ as, (∃ e, a.column.text ctx .column = .error e) ∨
          ∃ e, operand params.contains a.value (a.value.quote ctx) = .error e) := by
  constructor
  · intro texts htexts
    have hmapM : as.mapM (·.text ctx params.contains) = .ok texts :=
      Except.mapM_eq_ok.mpr (htexts.imp fun a t h => text_eq_ok.mpr h)
    obtain ⟨hfirsts, hfinal⟩ := AssignmentText.merge_settled texts
    refine ⟨AssignmentText.merge texts, ?_, hfirsts, hfinal⟩
    rw [listText, hmapM]
    rfl
  · simp only [← exists_text_error, ← Except.exists_mapM_error, listText]
    cases as.mapM (·.text ctx params.contains) <;> simp [bind, Except.bind, pure, Except.pure]

/-- A mark inside a name is dropped, so the first column and the last are the same. -/
def remarked : List Assignment :=
  [⟨.name "a", .text ":v"⟩, ⟨.name "b", .int 2⟩, ⟨.name "\"a", .int 3⟩]

def remarkedTexts : List AssignmentText :=
  [⟨"\"a\"", "\"a\" = :v"⟩, ⟨"\"b\"", "\"b\" = 2"⟩, ⟨"\"a\"", "\"a\" = 3"⟩]

theorem listText_remarked : ∃ kept : List AssignmentText,
    "\"a\" = 3, \"b\" = 2" = ", ".intercalate (kept.map (·.text)) ∧
      FirstOccurrences (remarkedTexts.map (·.column)) (kept.map (·.column)) ∧
      ∀ t ∈ kept, AssignmentText.Final remarkedTexts t := by
  have hsql : listText ⟨Dialect.standard.quoting "", fun _ => .ok "NULL"⟩
      (Params.contains ⟨[.value ":v" .null]⟩) remarked = .ok "\"a\" = 3, \"b\" = 2" := rfl
  obtain ⟨hkept, -⟩ := listText_settled ⟨Dialect.standard.quoting "", fun _ => .ok "NULL"⟩
    ⟨[.value ":v" .null]⟩ remarked
  obtain ⟨kept, htext, hrest⟩ := hkept remarkedTexts
    (.cons ⟨":v", rfl, rfl, rfl⟩ (.cons ⟨"2", rfl, rfl, rfl⟩ (.cons ⟨"3", rfl, rfl, rfl⟩ .nil)))
  rw [hsql] at htext
  exact ⟨kept, Except.ok.inj htext, hrest⟩

end Assignment

/-! ## Lists of references -/

namespace Ident

variable (ctx : Context) (role : Role)

/-- Two references with one text. -/
def Alike (i j : Ident) : Prop := ∃ text, i.text ctx role = .ok text ∧ j.text ctx role = .ok text

/-- The texts of references, each once. -/
def distinct (is : List Ident) : Outcome (List String) :=
  List.eraseDups <$> is.mapM (Ident.text ctx role)

variable {ctx role} {is is' js : List Ident}

theorem distinct_append (is js : List Ident) :
    distinct ctx role (is ++ js) = do
      let texts ← distinct ctx role is
      let others ← js.mapM (Ident.text ctx role)
      return texts ++ (others.removeAll texts).eraseDups := by
  have hremove (others texts : List String) :
      others.removeAll texts.eraseDups = others.removeAll texts := by
    simp [List.removeAll]
  simp [distinct, List.eraseDups_append, hremove]

theorem distinct_congr (h : distinct ctx role is = distinct ctx role is') (js : List Ident) :
    distinct ctx role (is ++ js) = distinct ctx role (is' ++ js) := by
  rw [distinct_append, distinct_append, h]

theorem distinct_concat_again {i j : Ident} (hi : i ∈ is) (h : Alike ctx role i j) :
    distinct ctx role (is ++ [j]) = distinct ctx role is := by
  obtain ⟨text, htext, hj⟩ := h
  rw [distinct_append, distinct]
  cases his : is.mapM (Ident.text ctx role) with
  | error e => rfl
  | ok texts =>
    obtain ⟨text', hmem, htext'⟩ := Outcome.mem_of_mapM his hi
    obtain rfl : text = text' := Except.ok.inj (htext.symm.trans htext')
    have hone : [j].mapM (Ident.text ctx role) = .ok [text] := by
      rw [List.mapM_cons, hj]
      rfl
    have hnone : [text].removeAll texts.eraseDups = [] := by simp [List.removeAll, hmem]
    simp [hone, hnone, Functor.map, Except.map, bind, Except.bind, pure, Except.pure]

/-- References that add no text of their own add nothing. -/
theorem distinct_again (h : ∀ j ∈ js, ∃ i ∈ is, Alike ctx role i j) :
    distinct ctx role (is ++ js) = distinct ctx role is := by
  induction js generalizing is with
  | nil => rw [List.append_nil]
  | cons j js ih =>
    obtain ⟨⟨i, hi, hij⟩, hjs⟩ := List.forall_mem_cons.mp h
    rw [List.append_cons, ih fun k hk => ?_, distinct_concat_again hi hij]
    obtain ⟨i', hi', hik⟩ := hjs k hk
    exact ⟨i', List.mem_append_left _ hi', hik⟩

end Ident

namespace Select

variable {α : Type} {ctx : Context}

theorem listsText_eq (columns tables : List Ident) :
    listsText ctx columns tables = do
      let columns ← Ident.distinct ctx .column columns
      let tables ← Ident.distinct ctx .table tables
      return (if columns.isEmpty then "*" else ", ".intercalate columns) ++
        listClause " FROM " ", " tables := by
  have hempty (texts : List String) : texts.eraseDups = [] ↔ texts = [] := by
    cases texts <;> simp [List.eraseDups_cons]
  simp [listsText, Ident.distinct, Ident.texts_eq_mapM, hempty]

/-- A SELECT that differs at most in what is remembered of it, and in references that add nothing
to the list they are in. -/
inductive Same (ctx : Context) (s : Select) : Select → Prop where
  | intro {columns tables : List Ident} (lastSql : Option String)
      (hcolumns : Ident.distinct ctx .column columns = Ident.distinct ctx .column s.columns)
      (htables : Ident.distinct ctx .table tables = Ident.distinct ctx .table s.tables) :
      Same ctx s { s with columns, tables, request := { s.request with lastSql } }

theorem with_lastSql (s : Select) :
    { s with request := { s.request with lastSql := s.request.lastSql } } = s := by
  obtain ⟨_, _, _, _, _, _, _, _, _, ⟨_, _, _⟩⟩ := s
  rfl

namespace Same

variable {s s' : Select}

theorem refl (s : Select) : Same ctx s s := by
  have hsame : Same ctx s { s with request := { s.request with lastSql := s.request.lastSql } } :=
    .intro s.request.lastSql rfl rfl
  rwa [with_lastSql] at hsame

theorem toSql (h : Same ctx s s') :
    (Statement.select s').toSql ctx = (Statement.select s).toSql ctx := by
  obtain ⟨lastSql, hcolumns, htables⟩ := h
  have hlists := (listsText_eq _ _).trans (hcolumns ▸ htables ▸ (listsText_eq _ _).symm)
  rw [Statement.toSql_eq_replaceAll, Statement.toSql_eq_replaceAll, buildSql_passages,
    buildSql_passages]
  simp only [passages, hlists]
  rfl

theorem onLastJoin (h : Same ctx s s') (change : Change Join Unit) :
    Same ctx ((Select.onLastJoin change).on s).2 ((Select.onLastJoin change).on s').2 := by
  obtain ⟨lastSql, hcolumns, htables⟩ := h
  rw [on_onLastJoin, on_onLastJoin]
  cases s.joins.getLast? with
  | none => exact .intro lastSql hcolumns htables
  | some last => exact .intro lastSql hcolumns htables

/-- One call does the same to both. -/
theorem change (h : Same ctx s s') (c : Call) :
    Same ctx ((Select.change c).on s).2 ((Select.change c).on s').2 := by
  have hsame := h
  obtain ⟨lastSql, hcolumns, htables⟩ := h
  cases c with
  | request c => cases c <;> exact .intro lastSql hcolumns htables
  | reset => exact .refl _
  | addColumns columns => exact .intro lastSql (Ident.distinct_congr hcolumns columns) htables
  | setColumns columns => exact .intro lastSql rfl htables
  | «from» table => exact .intro lastSql hcolumns (Ident.distinct_congr htables [table])
  | on pair => exact hsame.onLastJoin _
  | «using» columns => exact hsame.onLastJoin _
  | union source all =>
    rw [Select.change, on_addBranch, on_addBranch]
    cases checkBranch source <;> exact .intro lastSql hcolumns htables
  | _ => exact .intro lastSql hcolumns htables

theorem compile (h : Same ctx s s') (ctx' : Context) :
    Same ctx (Builder.select.compile ctx' s).2 (Builder.select.compile ctx' s').2 := by
  have hremember (s : Select) : ∃ lastSql,
      (Builder.select.compile ctx' s).2 = { s with request := { s.request with lastSql } } := by
    rcases Builder.select.compile_cases ctx' s with ⟨sql, hcompile⟩ | ⟨e, hcompile⟩
    · exact ⟨some sql, by rw [hcompile]; rfl⟩
    · exact ⟨s.request.lastSql, by rw [hcompile, with_lastSql]⟩
  obtain ⟨lastSql, hs⟩ := hremember s
  obtain ⟨lastSql', hs'⟩ := hremember s'
  rw [hs, hs']
  obtain ⟨-, hcolumns, htables⟩ := h
  exact .intro lastSql' hcolumns htables

theorem perform (h : Same ctx s s') (m : Method .select α) :
    Same ctx (m.perform s).2 (m.perform s').2 := by
  cases m with
  | call c => exact h.change c
  | compile ctx' => exact h.compile ctx'
  | read view => exact h

end Same

/-- A call that adds references to a list in which there are others like them. -/
inductive AddsAgain (ctx : Context) (s : Select) : Call → Prop where
  | columns {columns : List Ident}
      (h : ∀ j ∈ columns, ∃ i ∈ s.columns, Ident.Alike ctx .column i j) :
      AddsAgain ctx s (.addColumns columns)
  | table {table i : Ident} (hi : i ∈ s.tables) (h : Ident.Alike ctx .table i table) :
      AddsAgain ctx s (.from table)

/-- Methods, and the same methods without some of those that add nothing new. -/
inductive Repeats (ctx : Context) :
    Select → List (Method .select α) → List (Method .select α) → Prop where
  | done (s : Select) : Repeats ctx s [] []
  | both {s : Select} {ms ms' : List (Method .select α)} (m : Method .select α)
      (h : Repeats ctx (m.perform s).2 ms ms') : Repeats ctx s (m :: ms) (m :: ms')
  | again {s : Select} {ms ms' : List (Method .select α)} {c : Call} (hc : AddsAgain ctx s c)
      (h : Repeats ctx ((change c).on s).2 ms ms') : Repeats ctx s (.call c :: ms) ms'

theorem Same.again {s s' : Select} (h : Same ctx s s') {c : Call} (hc : AddsAgain ctx s c) :
    Same ctx ((Select.change c).on s).2 s' := by
  obtain ⟨lastSql, hcolumns, htables⟩ := h
  cases hc with
  | columns hagain =>
    exact .intro lastSql (hcolumns.trans (Ident.distinct_again hagain).symm) htables
  | table hi halike =>
    exact .intro lastSql hcolumns (htables.trans (Ident.distinct_concat_again hi halike).symm)

theorem Repeats.same {s s' : Select} {ms ms' : List (Method .select α)}
    (hms : Repeats ctx s ms ms') (h : Same ctx s s') :
    Same ctx (Usage.run s ms).state (Usage.run s' ms').state := by
  simp only [Usage.state_run]
  -- `Same` is kept when both go on, and also when only the longer run does.
  induction hms generalizing s' with
  | done s => exact h
  | both m hms ih => exact ih (h.perform m)
  | again hc hms ih => exact ih (h.again hc)

theorem listsText_eq_ok {columns tables : List Ident} {text : String} :
    listsText ctx columns tables = .ok text ↔ ∃ named listed selected sources,
      columns.mapM (Ident.text ctx .column) = .ok named ∧ FirstOccurrences named selected ∧
      tables.mapM (Ident.text ctx .table) = .ok listed ∧ FirstOccurrences listed sources ∧
      text = (if columns.isEmpty then "*" else ", ".intercalate selected) ++
        listClause " FROM " ", " sources := by
  have hempty {named : List String} (h : columns.mapM (Ident.text ctx .column) = .ok named) :
      columns.isEmpty = named.isEmpty := by
    have hlength := (Except.mapM_eq_ok.mp h).length_eq
    cases columns <;> cases named <;> simp_all
  simp only [listsText, Ident.texts_eq_mapM, Outcome.bind_eq_ok, FirstOccurrences.iff_eq_eraseDups]
  constructor
  · rintro ⟨named, hnamed, listed, hlisted, h⟩
    refine ⟨named, listed, _, _, hnamed, rfl, hlisted, rfl, ?_⟩
    rw [hempty hnamed]
    exact (Except.ok.inj h).symm
  · rintro ⟨named, listed, _, _, hnamed, rfl, hlisted, rfl, rfl⟩
    rw [hempty hnamed]
    exact ⟨named, hnamed, listed, hlisted, rfl⟩

/-- The select list and the FROM list name every text once, in the order in which the texts come up
first, and nothing else in the statement depends on them. So whoever names something again, in the
same words or in others, gets the same SQL. -/
theorem named_once (s : Select) (ctx : Context) :
    (∃ rest : Outcome String, ∀ columns tables sql,
      (Statement.select { s with columns, tables }).buildSql ctx = .ok sql ↔
        ∃ named listed selected sources behind,
          columns.mapM (Ident.text ctx .column) = .ok named ∧ FirstOccurrences named selected ∧
          tables.mapM (Ident.text ctx .table) = .ok listed ∧ FirstOccurrences listed sources ∧
          rest = .ok behind ∧
          sql = s.opening ++ (if columns.isEmpty then "*" else ", ".intercalate selected) ++
            listClause " FROM " ", " sources ++ behind) ∧
      ∀ ms ms' : List (Method .select α), Repeats ctx s ms ms' →
        (Statement.select (Usage.run s ms).state).toSql ctx =
          (Statement.select (Usage.run s ms').state).toSql ctx := by
  constructor
  · refine ⟨(Frame.around (s.passages ctx) 1).behind, fun columns tables sql => ?_⟩
    have hfront : (Frame.around (s.passages ctx) 1).front = pure s.opening := by
      simp [Frame.around, passages, Outcome.concat]
    rw [buildSql_lists, Frame.fill_eq_ok, hfront]
    simp only [listsText_eq_ok]
    constructor
    · rintro ⟨_, _, behind, ⟨⟩, ⟨named, listed, selected, sources, hnamed, hselected, hlisted,
        hsources, rfl⟩, hbehind, rfl⟩
      exact ⟨named, listed, selected, sources, behind, hnamed, hselected, hlisted, hsources,
        hbehind, by simp only [String.append_assoc]⟩
    · rintro ⟨named, listed, selected, sources, behind, hnamed, hselected, hlisted, hsources,
        hbehind, rfl⟩
      exact ⟨_, _, behind, rfl, ⟨named, listed, selected, sources, hnamed, hselected, hlisted,
        hsources, rfl⟩, hbehind, by simp only [String.append_assoc]⟩
  · intro ms ms' hms
    exact (hms.same (.refl s)).toSql.symm

def twoColumns : Select :=
  { Select.empty with columns := [.name "a", .name "b"], tables := [.name "t"] }

/-- Methods that name a column and a table in other words, before and after a grouping. -/
def otherWords : List (Method .select Unit) :=
  [.call (.addColumns [.name "\"a"]), .call (.groupBy [.name "a"]), .call (.from (.name "t\""))]

theorem named_once_otherWords :
    (Statement.select (Usage.run twoColumns otherWords).state).toSql
        ⟨Dialect.standard.quoting "", fun _ => .ok "NULL"⟩ =
      .ok "SELECT \"a\", \"b\" FROM \"t\" GROUP BY \"a\"" := by
  have hrepeats : Repeats ⟨Dialect.standard.quoting "", fun _ => .ok "NULL"⟩ twoColumns
      otherWords [.call (.groupBy [.name "a"])] := by
    refine .again (.columns ?_) (.both _ (.again (.table List.mem_cons_self ⟨"\"t\"", rfl, rfl⟩)
      (.done _)))
    rintro j hj
    obtain rfl := List.mem_singleton.mp hj
    exact ⟨.name "a", List.mem_cons_self, "\"a\"", rfl, rfl⟩
  obtain ⟨-, hsame⟩ := named_once twoColumns ⟨Dialect.standard.quoting "", fun _ => .ok "NULL"⟩
  rw [hsame _ _ hrepeats]
  rfl

end Select

end SqlComposer
