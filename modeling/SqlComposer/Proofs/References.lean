import SqlComposer.Proofs.Names
import SqlComposer.Render

/-!
# References that meet

A column names its table as the table itself is written, whatever the prefix. The clauses that
group and sort name the alias of a pair as the pair defines it, unless the alias has a dot in it.
-/

namespace SqlComposer

open Text

/-! ## Parts on either side of a dot -/

theorem Text.strip_append_dot {mark : String} (h : '.' ∉ mark.toList) (s t : String) :
    strip mark (s ++ "." ++ t) = strip mark s ++ "." ++ strip mark t := by
  have hkeys : ∀ r ∈ [Replacement.mk mark ""], '.' ∉ r.key.toList := by simpa using h
  have htext : (s ++ "." ++ t).toList = s.toList ++ '.' :: t.toList := by simp
  unfold strip replaceAll
  rw [htext, replaceFrom_append_cons hkeys, ← String.toList_inj]
  simp

theorem Text.intercalate_dotted (s : String) : ".".intercalate (dotted s) = s := by
  unfold dotted
  rw [← String.toList_inj, String.toList_intercalate, List.map_map, splitAt_eq_splitOn]
  simp [Function.comp_def]

namespace Quoting

variable {q : Quoting}

theorem dot_not_mem_strip {s : String} (h : '.' ∉ s.toList) : '.' ∉ (q.strip s).toList :=
  fun hs => h (mem_of_mem_strip hs)

theorem prefixQualifier_concat {parts : List String} (h : parts ≠ []) (last : String) :
    q.prefixQualifier (parts ++ [last]) = q.prefixLast parts ++ [last] := by
  fun_induction prefixLast with
  | case1 => exact absurd rfl h
  | case2 table => rfl
  | case3 part rest hne ih =>
    obtain ⟨next, rest, rfl⟩ := List.exists_cons_of_ne_nil hne
    have ih := ih hne
    cases rest <;> simp_all [prefixQualifier]

/-- The part in front of the last one of a column is the last part of its table. -/
theorem parts_qualified (hmark : '.' ∉ q.mark.toList) (t : String) {c : String}
    (hc : '.' ∉ c.toList) : q.parts .column (t ++ "." ++ c) = q.parts .table t ++ [q.strip c] := by
  have hne : dotted (q.strip t) ≠ [] := q.parts_ne_nil .plain t
  have hparts : dotted (q.strip (t ++ "." ++ c)) = dotted (q.strip t) ++ [q.strip c] := by
    rw [← dotted_eq_singleton (dot_not_mem_strip hc), ← dotted_append_dot]
    exact congrArg dotted (strip_append_dot hmark t c)
  unfold parts
  rw [hparts]
  exact prefixQualifier_concat hne _

theorem nameText_column {c : String} (hc : '.' ∉ c.toList) :
    q.nameText .column c = q.partText .column (q.strip c) := by
  unfold nameText parts
  rw [dotted_eq_singleton (dot_not_mem_strip hc)]
  simp [prefixQualifier]

theorem nameText_qualified (hmark : '.' ∉ q.mark.toList) {t : String}
    (ht : ∀ part ∈ q.parts .table t, part ≠ "*") {c : String} (hc : '.' ∉ c.toList) :
    q.nameText .column (t ++ "." ++ c) = q.nameText .table t ++ "." ++ q.nameText .column c := by
  have hmap : (q.parts .table t).map (q.partText .column) =
      (q.parts .table t).map (q.partText .table) := by
    apply List.map_congr_left
    intro part hpart
    simp [partText, ht part hpart]
  have hne : (q.parts .table t).map (q.partText .table) ≠ [] := by
    simpa using q.parts_ne_nil .table t
  rw [nameText_column hc, nameText, parts_qualified hmark t hc, List.map_append, hmap,
    String.intercalate_append_of_ne_nil hne (by simp)]
  simp [nameText]

/-- Without a dot in it, the alias of a table is written like the name of one. -/
theorem parts_alias {a : String} (ha : '.' ∉ a.toList) :
    q.parts .table a = [q.tablePrefix ++ q.strip a] := by
  unfold parts
  rw [dotted_eq_singleton (dot_not_mem_strip ha)]
  rfl

theorem aliasText_table {a : String} (ha : '.' ∉ a.toList) :
    q.aliasText .table a = q.nameText .table a := by
  simp [nameText, parts_alias ha, aliasText, partText]

end Quoting

/-- The rules of a dialect, where no cell was ever made. -/
def Dialect.context (d : Dialect) (tablePrefix : String) : Context :=
  ⟨d.quoting tablePrefix, fun _ => .ok "NULL"⟩

namespace Ident

variable {ctx : Context}

theorem eq_aliasText {role : Role} {x : Ident} {a X A : String} (hx : x.text ctx role = .ok X)
    (hpair : (aliased x a).text ctx role = .ok (X ++ " AS " ++ A)) :
    A = ctx.quoting.aliasText role a := by
  have htext : (aliased x a).text ctx role =
      .ok (X ++ " AS " ++ ctx.quoting.aliasText role a) := by
    rw [text, hx]
    rfl
  rw [htext] at hpair
  exact (String.append_right_inj _).mp (Except.ok.inj hpair).symm

/-- A column behind the name of a table, or behind the alias of one, names that table as it is
written itself. -/
theorem text_qualified (ctx : Context) (hmark : '.' ∉ ctx.quoting.mark.toList) (c : String)
    (hc : '.' ∉ c.toList) :
    ∃ C, (name c).text ctx .column = .ok C ∧
      (∀ t, (∀ part ∈ ctx.quoting.parts .table t, part ≠ "*") →
        ∃ T, (name t).text ctx .table = .ok T ∧
          (name (t ++ "." ++ c)).text ctx .column = .ok (T ++ "." ++ C)) ∧
      ∀ x a X A, '.' ∉ a.toList → ctx.quoting.tablePrefix ++ ctx.quoting.strip a ≠ "*" →
        x.text ctx .table = .ok X → (aliased x a).text ctx .table = .ok (X ++ " AS " ++ A) →
        (name (a ++ "." ++ c)).text ctx .column = .ok (A ++ "." ++ C) := by
  refine ⟨ctx.quoting.nameText .column c, by rw [text], ?_, ?_⟩
  · intro t ht
    refine ⟨ctx.quoting.nameText .table t, by rw [text], ?_⟩
    rw [text, Quoting.nameText_qualified hmark ht hc]
  · intro x a X A ha hstar hx hpair
    have hparts : ∀ part ∈ ctx.quoting.parts .table a, part ≠ "*" := by
      rw [Quoting.parts_alias ha]
      simpa using hstar
    rw [text, Quoting.nameText_qualified hmark hparts hc, eq_aliasText hx hpair,
      Quoting.aliasText_table ha]

/-- A table whose schema has a mark in its name, and an alias with one. -/
theorem text_qualified_marked :
    (name "s\".t").text (Dialect.standard.context "p_") .table = .ok "\"s\".\"p_t\"" ∧
      (name "s\".t.*").text (Dialect.standard.context "p_") .column = .ok "\"s\".\"p_t\".*" ∧
      (name "u\".*").text (Dialect.standard.context "p_") .column = .ok "\"p_u\".*" := by
  obtain ⟨C, hC, htable, halias⟩ :=
    text_qualified (Dialect.standard.context "p_") (by decide) "*" (by decide)
  obtain ⟨T, hT, hqualified⟩ := htable "s\".t" (by decide)
  obtain rfl : "*" = C := Except.ok.inj hC
  obtain rfl : "\"s\".\"p_t\"" = T := Except.ok.inj hT
  exact ⟨hT, hqualified,
    halias (name "t") "u\"" "\"p_t\"" "\"p_u\"" (by decide) (by decide) rfl rfl⟩

end Ident

/-! ## An alias that is sorted or grouped by -/

namespace Quoting

variable {q : Quoting}

theorem length_wrapped (parts : List String) :
    (".".intercalate (parts.map q.wrap)).length =
      (".".intercalate parts).length + 2 * (parts.length * q.mark.length) := by
  induction parts with
  | nil => simp
  | cons part parts ih =>
    cases parts with
    | nil =>
      simp [wrap]
      omega
    | cons next parts =>
      simp only [List.map_cons, String.intercalate_cons_cons, String.length_append,
        List.length_cons, wrap] at ih ⊢
      rw [ih, Nat.succ_mul (parts.length + 1)]
      omega

theorem nameText_plain (a : String) :
    q.nameText .plain a = ".".intercalate ((dotted (q.strip a)).map q.wrap) := by
  have hpart : q.partText .plain = q.wrap := by
    funext part
    simp [partText]
  rw [nameText, hpart]
  rfl

/-- The parts of an alias are wrapped one by one where it is referred to, and as one where it is
defined. -/
theorem nameText_eq_aliasText_iff (a : String) :
    q.nameText .plain a = q.aliasText .column a ↔ q.mark = "" ∨ '.' ∉ (q.strip a).toList := by
  have halias : q.aliasText .column a = q.wrap (q.strip a) := by simp [aliasText]
  rw [nameText_plain, halias]
  constructor
  · intro h
    have hlength := congrArg String.length h
    simp only [length_wrapped, intercalate_dotted, wrap, String.length_append] at hlength
    refine Decidable.or_iff_not_imp_left.mpr fun hmark hdot => ?_
    have hpos : 0 < q.mark.length := by
      rw [Nat.pos_iff_ne_zero, ne_eq, String.length_eq_zero_iff]
      exact hmark
    have hparts := two_le_length_dotted hdot
    have := Nat.mul_le_mul_right q.mark.length hparts
    omega
  · rintro (hmark | hdot)
    · have hwrap : q.wrap = id := by
        funext part
        simp [wrap, hmark]
      rw [hwrap, List.map_id, intercalate_dotted]
      rfl
    · rw [dotted_eq_singleton hdot]
      simp

end Quoting

theorem Ident.targets_eq_mapM (ctx : Context) (is : List Ident) :
    Ident.targets ctx is = is.mapM (Ident.target ctx) := by
  induction is with
  | nil => rfl
  | cons i is ih => simp only [Ident.targets, ih, List.mapM_cons]

theorem SortKey.texts_eq_mapM (ctx : Context) (keys : List SortKey) :
    SortKey.texts ctx keys = keys.mapM (SortKey.text ctx) := by
  induction keys with
  | nil => rfl
  | cons key keys ih => simp only [SortKey.texts, ih, List.mapM_cons]

namespace Ident

/-- In a GROUP BY, whatever stands around it, the reference is written as `A`. -/
def GroupsAs (ctx : Context) (i : Ident) (A : String) : Prop :=
  ∀ before after, groupByText ctx (before ++ i :: after) = do
    let front ← targets ctx before
    let behind ← targets ctx after
    return "GROUP BY " ++ ", ".intercalate (front ++ A :: behind)

/-- In an ORDER BY, whatever stands around it, the reference is written as `A`, with its
direction behind it. -/
def SortsAs (ctx : Context) (i : Ident) (A : String) : Prop :=
  ∀ before direction after, orderByText ctx (before ++ ⟨i, direction⟩ :: after) = do
    let front ← SortKey.texts ctx before
    let key ← directed A direction
    let behind ← SortKey.texts ctx after
    return "ORDER BY " ++ ", ".intercalate (front ++ key :: behind)

variable {ctx : Context} {i : Ident} {A : String}

theorem groupsAs_iff : i.GroupsAs ctx A ↔ i.target ctx = .ok A := by
  unfold GroupsAs groupByText
  simp only [targets_eq_mapM, List.mapM_append, List.mapM_cons, bind_assoc, pure_bind]
  constructor
  · intro h
    have halone := h [] []
    cases htarget : i.target ctx with
    | error e => simp [htarget, bind, Except.bind, pure, Except.pure] at halone
    | ok text => simpa [htarget, bind, Except.bind, pure, Except.pure] using halone
  · intro h before after
    rw [h]
    rfl

theorem sortsAs_iff : i.SortsAs ctx A ↔ i.target ctx = .ok A := by
  unfold SortsAs orderByText
  simp only [SortKey.texts_eq_mapM, List.mapM_append, List.mapM_cons, bind_assoc, pure_bind,
    SortKey.text]
  constructor
  · intro h
    have halone := h [] none []
    have hdirected (text : String) : directed text none = .ok text := rfl
    cases htarget : i.target ctx with
    | error e => simp [htarget, hdirected, bind, Except.bind, pure, Except.pure] at halone
    | ok text => simpa [htarget, hdirected, bind, Except.bind, pure, Except.pure] using halone
  · intro h before direction after
    rw [h]
    rfl

/-- GROUP BY and ORDER BY write the alias of a pair as the list of columns defines it, exactly if
there is no dot in it (or no mark around names). -/
theorem named_by_clauses_iff {x : Ident} {a X A : String} (hx : x.text ctx .column = .ok X)
    (hpair : (aliased x a).text ctx .column = .ok (X ++ " AS " ++ A)) :
    ((aliased x a).GroupsAs ctx A ↔
        ctx.quoting.mark = "" ∨ '.' ∉ (ctx.quoting.strip a).toList) ∧
      ((aliased x a).SortsAs ctx A ↔
        ctx.quoting.mark = "" ∨ '.' ∉ (ctx.quoting.strip a).toList) := by
  have htarget : (aliased x a).target ctx = .ok A ↔
      ctx.quoting.mark = "" ∨ '.' ∉ (ctx.quoting.strip a).toList := by
    rw [target, eq_aliasText hx hpair, ← Quoting.nameText_eq_aliasText_iff, Except.ok.injEq]
  exact ⟨groupsAs_iff.trans htarget, sortsAs_iff.trans htarget⟩

/-- An alias with a mark in it, which is a star without that. -/
theorem star_named_by_clauses :
    (aliased (name "u.n") "\"*").GroupsAs (Dialect.standard.context "p_") "\"*\"" ∧
      (aliased (name "u.n") "\"*").SortsAs (Dialect.standard.context "p_") "\"*\"" := by
  have hx : (name "u.n").text (Dialect.standard.context "p_") .column = .ok "\"p_u\".\"n\"" := rfl
  have hpair : (aliased (name "u.n") "\"*").text (Dialect.standard.context "p_") .column =
      .ok ("\"p_u\".\"n\"" ++ " AS " ++ "\"*\"") := rfl
  obtain ⟨hgroups, hsorts⟩ := named_by_clauses_iff hx hpair
  exact ⟨hgroups.mpr (.inr (by decide)), hsorts.mpr (.inr (by decide))⟩

/-- An alias with a dot in it is one name where it is defined, and two behind that. -/
theorem dotted_alias_split :
    (name "x").text (Dialect.standard.context "") .column = .ok "\"x\"" ∧
      (aliased (name "x") "a.b").text (Dialect.standard.context "") .column =
        .ok ("\"x\"" ++ " AS " ++ "\"a.b\"") ∧
      groupByText (Dialect.standard.context "") [aliased (name "x") "a.b"] =
        .ok "GROUP BY \"a\".\"b\"" ∧
      orderByText (Dialect.standard.context "") [⟨aliased (name "x") "a.b", some "desc"⟩] =
        .ok "ORDER BY \"a\".\"b\" DESC" ∧
      ¬ (aliased (name "x") "a.b").GroupsAs (Dialect.standard.context "") "\"a.b\"" ∧
      ¬ (aliased (name "x") "a.b").SortsAs (Dialect.standard.context "") "\"a.b\"" := by
  have htarget : (aliased (name "x") "a.b").target (Dialect.standard.context "") ≠
      .ok "\"a.b\"" := by
    intro h
    exact absurd (Except.ok.inj h) (by decide)
  exact ⟨rfl, rfl, rfl, rfl, mt groupsAs_iff.mp htarget, mt sortsAs_iff.mp htarget⟩

end Ident

end SqlComposer
