import SqlComposer.Proofs.Agreement

/-!
# When text values keep their meaning

The second phase looks for keys in the whole text of a statement. So a text value is safe only if
the pass meets a key in it nowhere but where the value is a key itself. That condition is exact: if
the pass meets anything else, there are parameters under which the statement changes.
-/

namespace SqlComposer

open Text (Met meets)

namespace Text

variable (d : Dialect)

def writeLiterals (g : String → String) (ms : List Met) : List Char :=
  ms.flatMap (Met.write fun key => (d.literal (g key)).toList)

variable {d} {c : Char} {k : String} {as bs : List Met}

@[simp] theorem writeLiterals_nil (g : String → String) : writeLiterals d g [] = [] := rfl

@[simp] theorem writeLiterals_char (g : String → String) :
    writeLiterals d g (.char c :: as) = c :: writeLiterals d g as := rfl

@[simp] theorem writeLiterals_key (g : String → String) :
    writeLiterals d g (.key k :: as) = (d.literal (g k)).toList ++ writeLiterals d g as := rfl

theorem literal_x : (d.literal "x").toList = ['\'', 'x', '\''] := by cases d <;> rfl

theorem literal_y : (d.literal "y").toList = ['\'', 'y', '\''] := by cases d <;> rfl

/-- No character always looks like a literal. -/
theorem not_char_key (h : ∀ g, writeLiterals d g (.char c :: as) = writeLiterals d g (.key k :: bs)) :
    False := by
  have hx := h fun _ => "x"
  have hy := h fun _ => "y"
  simp only [writeLiterals_char, writeLiterals_key, literal_x, literal_y, List.cons_append,
    List.cons.injEq] at hx hy
  rcases as with _ | ⟨m, as⟩
  · simp at hx
  · cases m with
    | char e =>
      simp only [writeLiterals_char, List.cons.injEq] at hx hy
      exact absurd (hx.2.1.symm.trans hy.2.1) (by decide)
    | key e =>
      simp only [writeLiterals_key, literal_x, List.cons_append, List.cons.injEq] at hx
      exact absurd hx.2.1 (by decide)

/-- What always reads the same has been met in the same order. -/
theorem eq_of_writeLiterals_eq (d : Dialect) {as bs : List Met}
    (h : ∀ g, writeLiterals d g as = writeLiterals d g bs) : as = bs := by
  induction as generalizing bs with
  | nil =>
    rcases bs with _ | ⟨m, bs⟩
    · rfl
    · have := h fun _ => "x"
      cases m <;> simp [literal_x] at this
  | cons m as ih =>
    rcases bs with _ | ⟨m', bs⟩
    · have := h fun _ => "x"
      cases m <;> simp [literal_x] at this
    · cases m with
      | char c =>
        cases m' with
        | char c' =>
          obtain rfl : c = c' := (List.cons.inj (h id)).1
          rw [ih fun g => (List.cons.inj (h g)).2]
        | key k => exact (not_char_key h).elim
      | key k =>
        cases m' with
        | char c => exact (not_char_key fun g => (h g).symm).elim
        | key k' =>
          by_cases hk : k = k'
          · subst hk
            rw [ih fun g => List.append_cancel_left (h g)]
          -- Texts that differ at one of the keys tell them apart.
          · have := h fun key => if key = k then "x" else "y"
            simp [literal_x, literal_y, Ne.symm hk] at this

end Text

/-! ## Filling a template -/

def Param.text (ctx : Context) : Param → Outcome String
  | .value _ v => v.quote ctx
  | .cell _ id => ctx.cell id

variable {ctx : Context}

theorem Param.replacement_eq {p : Param} {s : String} (h : p.text ctx = .ok s) :
    p.replacement ctx = .ok (if p.key = "" then none else some ⟨p.key, s⟩) := by
  have hquoted : ∀ key : String,
      (do if key = "" then return none else return some ⟨key, ← p.text ctx⟩ :
        Outcome (Option Text.Replacement)) = .ok (if key = "" then none else some ⟨key, s⟩) := by
    intro key
    rw [h]
    by_cases hkey : key = ""
    · rw [if_pos hkey, if_pos hkey]
      rfl
    · rw [if_neg hkey, if_neg hkey]
      rfl
  cases p with
  | value key v => exact hquoted key
  | cell key id => exact hquoted key

/-- Parameters with texts are replacements, the empty key apart. -/
theorem Params.exists_replacements {params : Params} {quoted : String → String}
    (h : ∀ p ∈ params.entries, p.text ctx = .ok (quoted p.key)) :
    ∃ table, params.replacements ctx = .ok table ∧ (∀ r ∈ table, r.text = quoted r.key) ∧
      ∀ k ≠ "", k ∈ table.map (·.key) ↔ k ∈ params.keys := by
  obtain ⟨entries⟩ := params
  induction entries with
  | nil => exact ⟨[], rfl, by simp, by simp [Params.keys]⟩
  | cons p rest ih =>
    obtain ⟨table, htable, htext, hkeys⟩ := ih fun q hq => h q (List.mem_cons_of_mem _ hq)
    have hp := Param.replacement_eq (h p List.mem_cons_self)
    simp only [Params.replacements, Params.keys] at htable hkeys ⊢
    refine ⟨(if p.key = "" then none else some ⟨p.key, quoted p.key⟩).toList ++ table, ?_, ?_, ?_⟩
    · simp only [Param.replacements, hp, htable]
      rfl
    · intro r hr
      rcases List.mem_append.mp hr with hr | hr
      · split at hr
        · simp at hr
        · simp only [Option.toList_some, List.mem_singleton] at hr
          rw [hr]
      · exact htext r hr
    · intro k hk
      split
      · next hkey => simp [hkeys k hk, hkey, hk]
      · simp [hkeys k hk]

theorem fill_eq {params : Params} {quoted : String → String} (sql : String)
    (h : ∀ p ∈ params.entries, p.text ctx = .ok (quoted p.key)) :
    Template.fill ⟨sql, params.replacements ctx⟩ = .ok (String.ofList
      ((meets params.keys 0 sql.toList).flatMap (Met.write fun key => (quoted key).toList))) := by
  obtain ⟨table, htable, htext, hkeys⟩ := Params.exists_replacements h
  simp only [Template.fill, htable, Text.replaceAll]
  change Except.ok (String.ofList _) = _
  rw [Text.replaceFrom_eq table (fun key => (quoted key).toList) fun r hr => by
    rw [htext r (List.mem_of_find?_eq_some hr)], Text.meets_congr hkeys]

/-! ## Statements with other parameters -/

/-- The first phase asks of the parameters no more than which keys there are. -/
theorem Statement.template_withRequest (s : Statement) {r : Request}
    (h : r.params.keys = s.request.params.keys) :
    (s.withRequest r).template ctx =
      (fun t => ⟨t.sql, r.params.replacements ctx⟩) <$> s.template ctx := by
  have hcontains : r.params.contains = s.request.params.contains := by
    funext key
    rw [Params.contains_eq, Params.contains_eq, h]
  obtain ⟨params, options, lastSql⟩ := r
  cases s with
  | raw q =>
    obtain ⟨_, _, ⟨_, _, _⟩⟩ := q
    rfl
  | select s =>
    obtain ⟨_, _, _, _, ⟨_, _, _⟩, _, _, _, _, ⟨_, _, _⟩⟩ := s
    simp only [request] at hcontains
    simp only [withRequest, template, Select.template, hcontains, map_bind, map_pure]
  | insert i =>
    simp only [request] at hcontains
    simp only [withRequest, template, Insert.template, hcontains]
    cases i.table with
    | none => rfl
    | some table => simp only [map_bind, map_pure]
  | update u =>
    simp only [request] at hcontains
    simp only [withRequest, template, Update.template, hcontains]
    cases u.table with
    | none => rfl
    | some table => simp only [map_bind, map_pure]
  | delete d =>
    simp only [request] at hcontains
    simp only [withRequest, template, Delete.template, hcontains]
    cases d.table with
    | none => rfl
    | some table => simp only [map_bind, map_pure]

theorem Statement.exists_template {s : Statement} {sql : String} (h : s.buildSql ctx = .ok sql) :
    ∃ t, s.template ctx = .ok t ∧ t.sql = sql := by
  cases ht : s.template ctx with
  | error e => simp [buildSql, ht, bind, Except.bind] at h
  | ok t => exact ⟨t, rfl, by simpa [buildSql, ht, bind, Except.bind, pure, Except.pure] using h⟩

theorem Statement.toSql_withRequest (s : Statement) {sql : String} (hsql : s.buildSql ctx = .ok sql)
    {r : Request} (hkeys : r.params.keys = s.request.params.keys) (quoted : String → String)
    (hquoted : ∀ p ∈ r.params.entries, p.text ctx = .ok (quoted p.key)) :
    (s.withRequest r).toSql ctx = .ok (String.ofList
      ((meets s.request.params.keys 0 sql.toList).flatMap
        (Met.write fun key => (quoted key).toList))) := by
  obtain ⟨t, ht, rfl⟩ := Statement.exists_template hsql
  rw [toSql, s.template_withRequest hkeys, ← hkeys, ← fill_eq t.sql hquoted, ht]
  rfl

/-! ## The exact condition -/

/-- Everything may occur but raw SQL and queries inside a statement. -/
def Policy.flat : Policy where
  name _ := True
  operator _ := True
  joinKind _ := True
  text _ := True
  key _ := True
  cell _ := True
  groups _ := True
  raw := False
  asName := False
  asRows := False
  values := False

theorem Policy.flat_grounds (hq : ctx.quoting.Solid) : Policy.flat.Grounds ctx :=
  ⟨hq, fun _ _ h => (or_self False ▸ h : False).elim⟩

/-- A statement that renders has parts, in which every text value is a literal or the place of a
parameter. These parts are what any parameters make of the statement, exactly if the pass meets the
keys in the places and nowhere else. -/
theorem Statement.text_values_kept_iff (d : Dialect) (tablePrefix : String)
    (cell : CellId → Outcome String) (s : Statement) (hs : s.Obeys .flat) {sql : String}
    (hsql : s.buildSql ⟨d.quoting tablePrefix, cell⟩ = .ok sql) :
    ∃ draft, s.draft ⟨d.quoting tablePrefix, cell⟩ = .ok draft ∧
      ((∀ (r : Request) (quoted : String → String),
          r.params.keys = s.request.params.keys →
          (∀ p ∈ r.params.entries,
            p.text ⟨d.quoting tablePrefix, cell⟩ = .ok (quoted p.key)) →
          (s.withRequest r).toSql ⟨d.quoting tablePrefix, cell⟩ =
            .ok (Part.text (d.quoting tablePrefix) quoted draft.parts)) ↔
        meets s.request.params.keys 0 sql.toList =
          draft.parts.flatMap (Part.met (d.quoting tablePrefix))) := by
  have hg : Policy.flat.Grounds ⟨d.quoting tablePrefix, cell⟩ :=
    Policy.flat_grounds (d.quoting_solid tablePrefix)
  obtain ⟨t, ht, -⟩ := Statement.exists_template hsql
  obtain ⟨draft, hdraft, -⟩ := (Statement.agree hg s hs).exists_ok ht
  have hparts : ∀ quoted : String → String,
      draft.parts.flatMap (Part.chars (d.quoting tablePrefix) fun key => (quoted key).toList) =
        (draft.parts.flatMap (Part.met (d.quoting tablePrefix))).flatMap
          (Met.write fun key => (quoted key).toList) := by
    intro quoted
    simp only [List.flatMap_assoc, Part.flatMap_write_met]
  refine ⟨draft, hdraft, fun h => ?_, fun h r quoted hkeys hquoted => ?_⟩
  -- Parameters may have any texts, so what is written for all of them shows what was met.
  · refine Text.eq_of_writeLiterals_eq d fun g => ?_
    have hkeys : (Params.mk (s.request.params.keys.map fun key => .value key (.text (g key)))).keys =
        s.request.params.keys := by simp [Params.keys, Function.comp_def, Param.key]
    have hquoted : ∀ p ∈ s.request.params.keys.map fun key => Param.value key (.text (g key)),
        p.text ⟨d.quoting tablePrefix, cell⟩ = .ok (d.literal (g p.key)) := by
      simp only [List.forall_mem_map]
      exact fun _ _ => rfl
    have h := h ⟨⟨_⟩, {}, none⟩ (fun key => d.literal (g key)) hkeys hquoted
    rw [s.toSql_withRequest hsql hkeys (fun key => d.literal (g key)) hquoted, Part.text,
      hparts] at h
    exact String.ofList_injective (Except.ok.inj h)
  · rw [s.toSql_withRequest hsql hkeys quoted hquoted, Part.text, hparts, h]

/-- The rows of a table whose column `a` has a text, in a query with a parameter `:id`. -/
def Select.finding (t : String) : Select :=
  { Select.empty with
    tables := [.name "t"]
    scope := { Scope.empty with criteria := ⟨[.predicate .and (.name "a") "=" (.text t)]⟩ }
    request := { Request.empty with params := Params.empty.set ":id" (.text "x") } }

theorem Select.finding_obeys (t : String) : (Select.finding t).Obeys .flat := by
  simp [finding, empty, Scope.empty, Request.empty, Params.empty, Params.set, Params.insert,
    Params.register, Obeys, Criteria.empty, Criteria.Obeys, Condition.AllObey, Condition.Obeys,
    Ident.AllObey, Ident.Obeys, Join.AllObey, SortKey.AllObey, Branch.AllObey, Params.Obeys,
    Param.AllObey, Param.Obeys, Policy.operand, Policy.flat, Value.BoundsObey]

/-- Where the text is the key, the query keeps its meaning under all parameters. -/
theorem Statement.text_value_kept :
    (Statement.select (.finding ":id")).Obeys .flat ∧
      ∃ draft, (Statement.select (.finding ":id")).draft
          ⟨Dialect.standard.quoting "", fun _ => .ok "NULL"⟩ = .ok draft ∧
        ∀ (r : Request) (quoted : String → String), r.params.keys = [":id"] →
          (∀ p ∈ r.params.entries,
            p.text ⟨Dialect.standard.quoting "", fun _ => .ok "NULL"⟩ = .ok (quoted p.key)) →
          ((Statement.select (.finding ":id")).withRequest r).toSql
              ⟨Dialect.standard.quoting "", fun _ => .ok "NULL"⟩ =
            .ok (Part.text (Dialect.standard.quoting "") quoted draft.parts) := by
  have hsql : (Statement.select (.finding ":id")).buildSql
      ⟨Dialect.standard.quoting "", fun _ => .ok "NULL"⟩ =
        .ok "SELECT * FROM \"t\" WHERE \"a\" = :id" := rfl
  have hobeys : (Statement.select (.finding ":id")).Obeys .flat := Select.finding_obeys ":id"
  obtain ⟨draft, hdraft, hiff⟩ := Statement.text_values_kept_iff .standard "" _ _ hobeys hsql
  refine ⟨hobeys, draft, hdraft, hiff.mpr ?_⟩
  obtain rfl := Except.ok.inj (hdraft.symm.trans rfl)
  decide

/-- A text that mentions the key is torn open, though nothing else in the statement does. -/
theorem Statement.text_value_torn :
    ∃ draft, (Statement.select (.finding "say :id now")).draft
        ⟨Dialect.standard.quoting "", fun _ => .ok "NULL"⟩ = .ok draft ∧
      draft.parts = Part.word "SELECT * FROM " ++ [.name "t"] ++ Part.word " WHERE " ++
        [.name "a"] ++ Part.word " = " ++ [.literal "say :id now"] ∧
      Part.text (Dialect.standard.quoting "") (fun _ => "'x'") draft.parts =
        "SELECT * FROM \"t\" WHERE \"a\" = 'say :id now'" ∧
      (Statement.select (.finding "say :id now")).toSql
          ⟨Dialect.standard.quoting "", fun _ => .ok "NULL"⟩ =
        .ok "SELECT * FROM \"t\" WHERE \"a\" = 'say 'x' now'" := by
  refine ⟨_, rfl, ?_, ?_, ?_⟩
  · decide
  · decide
  · rfl

end SqlComposer
