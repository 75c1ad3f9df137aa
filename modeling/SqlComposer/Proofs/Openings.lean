import SqlComposer.Proofs.Families
import SqlComposer.Proofs.Noise
import SqlComposer.Proofs.Passages
import SqlComposer.Proofs.Placeholders

/-!
# How statements open

A statement opens with the keyword of its kind. Only the parenthesis of a union may stand in front
of it, and keys that begin with a colon do not meet it. So the text tells the kind again, whatever
the statement is made of.
-/

namespace SqlComposer

/-! ## Openings -/

namespace Kind

/-- The keyword of a kind, alone or behind a parenthesis. -/
inductive Opening (kind : Kind) : List Char → Prop
  | bare : Opening kind kind.keyword.toList
  | parenthesized : Opening kind ('(' :: kind.keyword.toList)

variable {kind : Kind} {front : List Char}

theorem ofSql_keyword (h : kind ∈ main) (s : List Char) :
    ofSql (String.ofList (kind.keyword.toList ++ s)) = kind := by
  have hmain : IsMain kind.keyword.toList kind := ⟨h, by cases kind <;> decide⟩
  rw [ofSql_eq_ofStart, skipNoise_word hmain.isWord]
  cases kind with
  | other => exact absurd h (by decide)
  | _ => rfl

theorem Opening.ofSql_append (h : kind.Opening front) (hkind : kind ∈ main) (s : List Char) :
    ofSql (String.ofList (front ++ s)) = kind := by
  cases h with
  | bare => exact ofSql_keyword hkind s
  | parenthesized =>
    have hnoise : IsNoise ['('] := .blank (.inr rfl) .nil
    exact (hnoise.ofSql_append _).trans (ofSql_keyword hkind s)

theorem Opening.ne_colon (h : kind.Opening front) {c : Char} (hc : c ∈ front) : c ≠ ':' := by
  have hkeyword : ':' ∉ kind.keyword.toList := by cases kind <;> decide
  rintro rfl
  cases h with
  | bare => exact hkeyword hc
  | parenthesized => exact hkeyword ((List.mem_cons.mp hc).resolve_left (by decide))

end Kind

/-- The text begins as a statement of the kind does. -/
def Kind.Opens (kind : Kind) (sql : String) : Prop :=
  ∃ front behind, kind.Opening front ∧ sql.toList = front ++ behind

theorem Kind.Opens.append {kind : Kind} {sql : String} (h : kind.Opens sql) (behind : String) :
    kind.Opens (sql ++ behind) := by
  obtain ⟨front, rest, hfront, hsql⟩ := h
  refine ⟨front, rest ++ behind.toList, hfront, ?_⟩
  rw [String.toList_append, hsql, List.append_assoc]

theorem Kind.Opens.ofSql_eq {kind : Kind} {sql : String} (h : kind.Opens sql)
    (hkind : kind ∈ main) : ofSql sql = kind := by
  obtain ⟨front, behind, hfront, hsql⟩ := h
  rw [← String.ofList_toList (s := sql), hsql, hfront.ofSql_append hkind]

/-! ## Keys elsewhere -/

/-- What no key begins in stays in front of the rest. -/
theorem Text.replaceFrom_front {table : List Replacement} {front : List Char}
    (h : ∀ r ∈ table, ∀ c ∈ front, r.key.toList.head? ≠ some c) (s : List Char) :
    replaceFrom table 0 (front ++ s) = front ++ replaceFrom table 0 s := by
  induction front with
  | nil => rfl
  | cons c front ih =>
    have hnone : longestAt table (c :: (front ++ s)) = none := by
      rw [longestAt_eq_none_iff]
      intro r hr
      rw [Bool.eq_false_iff, ne_eq, starts_iff]
      rintro ⟨hne, hprefix⟩
      apply h r hr c List.mem_cons_self
      obtain ⟨d, key, hkey⟩ := List.exists_cons_of_ne_nil (mt String.toList_eq_nil_iff.mp hne)
      rw [hkey, List.cons_prefix_cons] at hprefix
      rw [hkey, hprefix.1]
      rfl
    rw [List.cons_append, replaceFrom, hnone]
    exact congrArg (c :: ·) (ih fun r hr a ha => h r hr a (List.mem_cons_of_mem c ha))

theorem Kind.Opens.replaceAll {kind : Kind} {sql : String} (h : kind.Opens sql)
    {table : List Text.Replacement} (hkeys : ∀ r ∈ table, r.key.toList.head? = some ':') :
    kind.Opens (Text.replaceAll table sql) := by
  obtain ⟨front, behind, hfront, hsql⟩ := h
  refine ⟨front, Text.replaceFrom table 0 behind, hfront, ?_⟩
  rw [Text.replaceAll, String.toList_ofList, hsql, Text.replaceFrom_front]
  intro r hr c hc hhead
  rw [hkeys r hr] at hhead
  exact hfront.ne_colon hc (Option.some.inj hhead).symm

/-! ## What is built -/

variable {ctx : Context} {sql : String}

theorem Outcome.concat_cons_eq_ok {text : Outcome String} {rest : List (Outcome String)}
    (h : concat (text :: rest) = .ok sql) :
    ∃ front behind, text = .ok front ∧ sql = front ++ behind := by
  obtain ⟨front, hfront, h⟩ := Outcome.bind_eq_ok.mp h
  obtain ⟨behind, -, h⟩ := Outcome.bind_eq_ok.mp h
  exact ⟨front, behind, hfront, (Except.ok.inj h).symm⟩

theorem Select.opens_opening (s : Select) : Kind.select.Opens s.opening := by
  unfold opening
  split
  · split
    · exact ⟨_, " DISTINCT ".toList, .bare, rfl⟩
    · exact ⟨_, " ".toList, .bare, rfl⟩
  · split
    · exact ⟨_, " DISTINCT ".toList, .parenthesized, rfl⟩
    · exact ⟨_, " ".toList, .parenthesized, rfl⟩

theorem opens_targetText {kind : Kind} {word text : String} (hword : kind.Opens word)
    {table : Option Ident} (h : targetText ctx kind word table = .ok text) : kind.Opens text := by
  cases table with
  | none => exact nomatch h
  | some table =>
    obtain ⟨name, -, h⟩ := Outcome.bind_eq_ok.mp h
    obtain rfl := Except.ok.inj h
    exact hword.append name

theorem Insert.opens_template {i : Insert} {t : Template} (h : i.template ctx = .ok t) :
    Kind.insert.Opens t.sql := by
  unfold template at h
  cases htable : i.table with
  | none =>
    rw [htable] at h
    exact nomatch h
  | some table =>
    rw [htable] at h
    obtain ⟨name, -, h⟩ := Outcome.bind_eq_ok.mp h
    obtain ⟨columns, -, h⟩ := Outcome.bind_eq_ok.mp h
    obtain ⟨source, -, h⟩ := Outcome.bind_eq_ok.mp h
    obtain rfl := Except.ok.inj h
    have hinto : Kind.insert.Opens "INSERT INTO " := ⟨_, " INTO ".toList, .bare, rfl⟩
    exact (((hinto.append name).append " ").append _).append source

namespace Composed

variable {k : Composed} {s : k.builder.State}

theorem kind_mem_main (k : Composed) (s : k.builder.State) :
    (k.statement s).kind ∈ Kind.main := by
  cases k <;> simp [statement, Statement.kind, Kind.main]

theorem kind_eq_select_iff (k : Composed) (s : k.builder.State) :
    (k.statement s).kind = .select ↔ k = .select := by
  cases k <;> simp [statement, Statement.kind]

theorem toSql_statement (s : k.builder.State) (ctx : Context) :
    k.builder.toSql s ctx = (k.statement s).toSql ctx :=
  Builder.toSql_eq (by cases k <;> rfl) ctx

theorem opens_buildSql (h : (k.statement s).buildSql ctx = .ok sql) :
    (k.statement s).kind.Opens sql := by
  cases k with
  | select =>
    rw [statement, Select.buildSql_passages] at h
    obtain ⟨front, behind, hfront, rfl⟩ := Outcome.concat_cons_eq_ok h
    obtain rfl := Except.ok.inj hfront
    exact (Select.opens_opening s).append behind
  | insert =>
    obtain ⟨t, ht, h⟩ := Outcome.bind_eq_ok.mp h
    obtain rfl := Except.ok.inj h
    exact Insert.opens_template ht
  | update =>
    rw [statement, Update.buildSql_passages] at h
    obtain ⟨front, behind, hfront, rfl⟩ := Outcome.concat_cons_eq_ok h
    exact (opens_targetText ⟨_, " ".toList, .bare, rfl⟩ hfront).append behind
  | delete =>
    rw [statement, Delete.buildSql_passages] at h
    obtain ⟨front, behind, hfront, rfl⟩ := Outcome.concat_cons_eq_ok h
    exact (opens_targetText ⟨_, " FROM ".toList, .bare, rfl⟩ hfront).append behind

/-- Keys that begin with a colon do not meet the opening. -/
theorem opens_toSql
    (hkeys : ∀ key ∈ (k.statement s).request.params.keys, key.toList.head? = some ':')
    (h : k.builder.toSql s ctx = .ok sql) : (k.statement s).kind.Opens sql := by
  rw [toSql_statement, Statement.toSql_eq_replaceAll] at h
  obtain ⟨built, hbuilt, h⟩ := Outcome.bind_eq_ok.mp h
  obtain ⟨table, htable, h⟩ := Outcome.bind_eq_ok.mp h
  obtain rfl := Except.ok.inj h
  exact (opens_buildSql hbuilt).replaceAll fun r hr =>
    hkeys r.key (Params.mem_keys_of_replacements htable hr)

end Composed

/-! ## The text in other statements -/

theorem Select.on_union (q : RawQuery) (all : Bool) (s : Select) :
    (change (.union (.query q) all)).on s =
      if q.kind = .select then (.ok (), { s with unions := s.unions ++ [⟨.query q, all⟩] })
      else (.error (.branchNotSelect q.kind), s) := by
  rw [change, on_addBranch, checkBranch]
  by_cases h : q.kind = .select
  · rw [if_pos h, if_pos h]
  · rw [if_neg h, if_neg h]

namespace Insert

/-- No rows were listed. There may be a query that they come from. -/
def WithoutRows (i : Insert) : Prop := ∀ rows, i.source = .values rows → rows = []

theorem on_select {q : RawQuery} (hq : q.kind = .select) {i : Insert} (hi : i.WithoutRows) :
    (change (.select (.query q))).on i = (.ok (), { i with source := .query (.query q) }) := by
  rw [change, on_setQuery, checkSource, if_pos hq]
  rcases hsource : i.source with (_ | ⟨row, rows⟩) | source
  · rfl
  · exact absurd (hi _ hsource) (List.cons_ne_nil _ _)
  · rfl

theorem on_select_refused {q : RawQuery} (hq : q.kind ≠ .select) (i : Insert) :
    (change (.select (.query q))).on i = (.error (.sourceNotSelect q.kind), i) := by
  rw [change, on_setQuery, checkSource, if_neg hq]

end Insert

namespace Composed

/-- Text that was built has the kind of the statement that it was built from. So the text of a
SELECT, and of nothing else, can be united with other statements and can give rows to an INSERT. -/
theorem kind_recognized {k : Composed} {s : k.builder.State}
    (hkeys : ∀ key ∈ (k.statement s).request.params.keys, key.toList.head? = some ':')
    {ctx : Context} {sql : String} (h : k.builder.toSql s ctx = .ok sql) :
    let q := RawQuery.ofSql sql
    let kind := (k.statement s).kind
    Kind.ofSql sql = kind ∧
      (∀ all other, (Select.change (.union (.query q) all)).on other =
        if k = .select then (.ok (), { other with unions := other.unions ++ [⟨.query q, all⟩] })
        else (.error (.branchNotSelect kind), other)) ∧
      (k = .select → ∀ i : Insert, i.WithoutRows → (Insert.change (.select (.query q))).on i =
        (.ok (), { i with source := .query (.query q) })) ∧
      (k ≠ .select → ∀ i, (Insert.change (.select (.query q))).on i =
        (.error (.sourceNotSelect kind), i)) := by
  intro q kind
  have hkind : q.kind = kind := (opens_toSql hkeys h).ofSql_eq (kind_mem_main k s)
  have hselect : q.kind = .select ↔ k = .select := hkind ▸ kind_eq_select_iff k s
  refine ⟨hkind, fun all other => ?_, fun hk i hi => Insert.on_select (hselect.mpr hk) hi,
    fun hk i => ?_⟩
  · rw [Select.on_union, hkind]
    exact if_congr (hkind ▸ hselect) rfl rfl
  · rw [Insert.on_select_refused (mt hselect.mp hk), hkind]

/-- A union with a table, and a condition on a value that looks like a statement. -/
def united : Select :=
  { Select.empty with
    columns := [.name "delete"], tables := [.name "t"],
    scope := { Scope.empty with criteria := ⟨[.predicate .and (.name "a") "=" (.text ":v")]⟩ },
    unions := [⟨.table (.name "u"), true⟩],
    request := Request.empty.apply (.param ":v" (.text "; DELETE FROM t")) }

theorem kind_recognized_united :
    let sql := "(SELECT \"delete\" FROM \"t\" WHERE \"a\" = '; DELETE FROM t') " ++
      "UNION ALL (SELECT * FROM \"u\")"
    Builder.select.toSql united Usage.plain = .ok sql ∧ Kind.ofSql sql = .select ∧
      (Insert.change (.select (.query (.ofSql sql)))).on (.into "w") =
        (.ok (), { Insert.into "w" with source := .query (.query (.ofSql sql)) }) := by
  intro sql
  have hsql : Builder.select.toSql united Usage.plain = .ok sql := by decide +kernel
  obtain ⟨hkind, -, hrows, -⟩ := kind_recognized (k := .select) (s := united) (by decide) hsql
  exact ⟨hsql, hkind, hrows rfl (.into "w") fun rows h => by cases h; rfl⟩

end Composed

end SqlComposer
