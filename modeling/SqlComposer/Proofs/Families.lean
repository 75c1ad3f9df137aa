import Mathlib.Data.List.Induction
import SqlComposer.Builder.Usage

/-!
# Families of calls

A call is about one clause, about the parameters or about the options: that is its family. It writes
what the builder holds for its family, and what it does and gives back depends on nothing else. So
the SQL depends on the calls of each family, and not on what comes between them.
-/

namespace SqlComposer

/-- What a call is about. -/
inductive Family where
  | distinct
  | columns
  | tables
  | joins
  | criteria
  | groupBy
  | having
  | orderBy
  | limit
  | offset
  | unions
  /-- The table that a statement writes to. -/
  | target
  /-- The rows that are inserted, or the query that they come from. -/
  | source
  | assignments
  | params
  | options
deriving DecidableEq, Repr

namespace Family

@[reducible] def Content : Family → Type
  | distinct => Bool
  | columns | tables | groupBy => List Ident
  | joins => List Join
  | criteria | having => Criteria
  | orderBy => List SortKey
  | limit | offset => Option Nat
  | unions => List Branch
  | target => Option Ident
  | source => RowSource
  | assignments => List Assignment
  | params => Params
  | options => Options

/-- What a builder holds for a family of which it has no calls. -/
def nothing : (f : Family) → f.Content
  | distinct => false
  | columns | tables | groupBy => []
  | joins => []
  | criteria | having => .empty
  | orderBy => []
  | limit | offset => none
  | unions => []
  | target => none
  | source => .values []
  | assignments => []
  | params => .empty
  | options => {}

end Family

/-! ## What a call is about -/

def Request.Call.family : Request.Call → Family
  | .param .. | .bind .. | .params _ => .params
  | .cached _ | .force _ | .shape _ => .options

def Scope.Call.family : Scope.Call → Family
  | .filter _ => .criteria
  | .orderBy .. => .orderBy
  | .limit _ => .limit

def Select.Call.family? : Select.Call → Option Family
  | .request c => some c.family
  | .scope c => some c.family
  | .reset => none
  | .distinct _ => some .distinct
  | .addColumns _ | .setColumns _ => some .columns
  | .from _ => some .tables
  | .join .. | .on _ | .using _ => some .joins
  | .groupBy _ => some .groupBy
  | .having _ => some .having
  | .offset _ => some .offset
  | .union .. => some .unions

def Insert.Call.family? : Insert.Call → Option Family
  | .request c => some c.family
  | .reset => none
  | .table _ => some .target
  | .columns _ => some .columns
  | .values _ | .select _ => some .source

def Update.Call.family? : Update.Call → Option Family
  | .request c => some c.family
  | .scope c => some c.family
  | .reset => none
  | .table _ => some .target
  | .set _ => some .assignments

def Delete.Call.family? : Delete.Call → Option Family
  | .request c => some c.family
  | .scope c => some c.family
  | .reset => none
  | .table _ => some .target

/-- The statements that are built clause by clause. -/
inductive Composed where
  | select
  | insert
  | update
  | delete
deriving DecidableEq, Repr

namespace Composed

@[reducible] def builder : Composed → Builder
  | select => .select
  | insert => .insert
  | update => .update
  | delete => .delete

def statement : (k : Composed) → k.builder.State → Statement
  | select, s => .select s
  | insert, i => .insert i
  | update, u => .update u
  | delete, d => .delete d

/-- The family of a call. A reset has none: it is about everything. -/
def family? : (k : Composed) → k.builder.Call → Option Family
  | select, c => c.family?
  | insert, c => c.family?
  | update, c => c.family?
  | delete, c => c.family?

end Composed

/-! ## What a builder holds -/

def Select.content (s : Select) : (f : Family) → f.Content
  | .distinct => s.distinct
  | .columns => s.columns
  | .tables => s.tables
  | .joins => s.joins
  | .criteria => s.scope.criteria
  | .groupBy => s.groupBy
  | .having => s.having
  | .orderBy => s.scope.orderBy
  | .limit => s.scope.limit
  | .offset => s.offset
  | .unions => s.unions
  | .params => s.request.params
  | .options => s.request.options
  | f => f.nothing

def Insert.content (i : Insert) : (f : Family) → f.Content
  | .target => i.table
  | .columns => i.columns
  | .source => i.source
  | .params => i.request.params
  | .options => i.request.options
  | f => f.nothing

def Update.content (u : Update) : (f : Family) → f.Content
  | .target => u.table
  | .assignments => u.assignments
  | .criteria => u.scope.criteria
  | .orderBy => u.scope.orderBy
  | .limit => u.scope.limit
  | .params => u.request.params
  | .options => u.request.options
  | f => f.nothing

def Delete.content (d : Delete) : (f : Family) → f.Content
  | .target => d.table
  | .criteria => d.scope.criteria
  | .orderBy => d.scope.orderBy
  | .limit => d.scope.limit
  | .params => d.request.params
  | .options => d.request.options
  | f => f.nothing

def Composed.content : (k : Composed) → k.builder.State → (f : Family) → f.Content
  | select, s => s.content
  | insert, i => i.content
  | update, u => u.content
  | delete, d => d.content

/-- A statement that holds this for the families, and remembers no SQL. -/
def Composed.holding (held : (f : Family) → f.Content) : (k : Composed) → k.builder.State
  | select =>
    ⟨held .distinct, held .columns, held .tables, held .joins,
      ⟨held .criteria, held .orderBy, held .limit⟩, held .groupBy, held .having, held .offset,
      held .unions, ⟨held .params, held .options, none⟩⟩
  | insert => ⟨held .target, held .columns, held .source, ⟨held .params, held .options, none⟩⟩
  | update =>
    ⟨held .target, held .assignments, ⟨held .criteria, held .orderBy, held .limit⟩,
      ⟨held .params, held .options, none⟩⟩
  | delete =>
    ⟨held .target, ⟨held .criteria, held .orderBy, held .limit⟩,
      ⟨held .params, held .options, none⟩⟩

variable {f g : Family}

/-!
## One call

It leaves alone what the builder holds for other families, and does to its own what that asks for.
-/

section

attribute [local simp] Request.Call.family Request.apply Request.mapParams Request.mapOptions
  Scope.Call.family Scope.apply

namespace Select

variable {c : Call} {s s' : Select}

theorem content_onLastJoin (change : Change Join Unit) (s : Select) (hg : g ≠ .joins) :
    ((onLastJoin change).on s).2.content g = s.content g := by
  rw [on_onLastJoin]
  cases s.joins.getLast? with
  | none => rfl
  | some last => cases g <;> first | rfl | exact absurd rfl hg

theorem onLastJoin_congr (change : Change Join Unit) (h : s.joins = s'.joins) :
    ((onLastJoin change).on s).1 = ((onLastJoin change).on s').1 ∧
      ((onLastJoin change).on s).2.joins = ((onLastJoin change).on s').2.joins := by
  rw [on_onLastJoin, on_onLastJoin, ← h]
  cases s.joins.getLast? with
  | none => exact ⟨rfl, h⟩
  | some last => exact ⟨rfl, rfl⟩

theorem content_change (s : Select) (hc : c.family? = some f) (hg : g ≠ f) :
    ((change c).on s).2.content g = s.content g := by
  cases c with
  | reset => exact nomatch hc
  | on pair => cases hc; exact content_onLastJoin _ s hg
  | «using» columns => cases hc; exact content_onLastJoin _ s hg
  | union source all =>
    cases hc
    rw [change, on_addBranch]
    cases checkBranch source with
    | error e => rfl
    | ok u => cases g <;> first | rfl | exact absurd rfl hg
  | request c => cases c <;> cases hc <;> cases g <;> first | rfl | exact absurd rfl hg
  | scope c => cases c <;> cases hc <;> cases g <;> first | rfl | exact absurd rfl hg
  | _ => cases hc; cases g <;> first | rfl | exact absurd rfl hg

theorem change_congr (hc : c.family? = some f) (h : s.content f = s'.content f) :
    ((change c).on s).1 = ((change c).on s').1 ∧
      ((change c).on s).2.content f = ((change c).on s').2.content f := by
  cases c with
  | reset => exact nomatch hc
  | on pair => cases hc; exact onLastJoin_congr _ h
  | «using» columns => cases hc; exact onLastJoin_congr _ h
  | union source all =>
    cases hc
    rw [change, on_addBranch, on_addBranch]
    cases checkBranch source <;> simp_all [content]
  | request c => cases c <;> cases hc <;> simp_all [change, content]
  | scope c => cases c <;> cases hc <;> simp_all [change, content]
  | _ => cases hc; simp_all [change, content]

end Select

namespace Insert

variable {c : Call} {i i' : Insert}

theorem content_change (i : Insert) (hc : c.family? = some f) (hg : g ≠ f) :
    ((change c).on i).2.content g = i.content g := by
  cases c with
  | reset => exact nomatch hc
  | table t =>
    cases hc
    rw [change, on_setTable]
    split
    · rfl
    · cases g <;> first | rfl | exact absurd rfl hg
  | values row =>
    cases hc
    rw [change, on_addRow]
    split
    · cases g <;> first | rfl | exact absurd rfl hg
    · rfl
  | select q =>
    cases hc
    rw [change, on_setQuery]
    split
    · rfl
    · rfl
    · cases g <;> first | rfl | exact absurd rfl hg
  | request c => cases c <;> cases hc <;> cases g <;> first | rfl | exact absurd rfl hg
  | columns columns => cases hc; cases g <;> first | rfl | exact absurd rfl hg

theorem change_congr (hc : c.family? = some f) (h : i.content f = i'.content f) :
    ((change c).on i).1 = ((change c).on i').1 ∧
      ((change c).on i).2.content f = ((change c).on i').2.content f := by
  cases c with
  | reset => exact nomatch hc
  | table t =>
    cases hc
    rw [change, on_setTable, on_setTable]
    split
    · exact ⟨rfl, h⟩
    · exact ⟨rfl, rfl⟩
  | values row =>
    cases hc
    have hsource : i.source = i'.source := h
    rw [change, on_addRow, on_addRow, ← hsource]
    split
    · exact ⟨rfl, rfl⟩
    · exact ⟨rfl, hsource⟩
  | select q =>
    cases hc
    have hsource : i.source = i'.source := h
    rw [change, on_setQuery, on_setQuery, ← hsource]
    split
    · exact ⟨rfl, hsource⟩
    · exact ⟨rfl, hsource⟩
    · exact ⟨rfl, rfl⟩
  | request c => cases c <;> cases hc <;> simp_all [change, content]
  | columns columns => cases hc; simp_all [change, content]

end Insert

namespace Update

variable {c : Call} {u u' : Update}

theorem content_apply (u : Update) (hc : c.family? = some f) (hg : g ≠ f) :
    (u.apply c).content g = u.content g := by
  cases c with
  | reset => exact nomatch hc
  | request c => cases c <;> cases hc <;> cases g <;> first | rfl | exact absurd rfl hg
  | scope c => cases c <;> cases hc <;> cases g <;> first | rfl | exact absurd rfl hg
  | _ => cases hc; cases g <;> first | rfl | exact absurd rfl hg

theorem apply_congr (hc : c.family? = some f) (h : u.content f = u'.content f) :
    (u.apply c).content f = (u'.apply c).content f := by
  cases c with
  | reset => exact nomatch hc
  | request c => cases c <;> cases hc <;> simp_all [apply, content]
  | scope c => cases c <;> cases hc <;> simp_all [apply, content]
  | _ => cases hc; simp_all [apply, content]

end Update

namespace Delete

variable {c : Call} {d d' : Delete}

theorem content_apply (d : Delete) (hc : c.family? = some f) (hg : g ≠ f) :
    (d.apply c).content g = d.content g := by
  cases c with
  | reset => exact nomatch hc
  | request c => cases c <;> cases hc <;> cases g <;> first | rfl | exact absurd rfl hg
  | scope c => cases c <;> cases hc <;> cases g <;> first | rfl | exact absurd rfl hg
  | table t => cases hc; cases g <;> first | rfl | exact absurd rfl hg

theorem apply_congr (hc : c.family? = some f) (h : d.content f = d'.content f) :
    (d.apply c).content f = (d'.apply c).content f := by
  cases c with
  | reset => exact nomatch hc
  | request c => cases c <;> cases hc <;> simp_all [apply, content]
  | scope c => cases c <;> cases hc <;> simp_all [apply, content]
  | table t => cases hc; rfl

end Delete

end

namespace Composed

variable {k : Composed} {c : k.builder.Call}

theorem content_change (s : k.builder.State) (hc : k.family? c = some f) (hg : g ≠ f) :
    k.content ((k.builder.change c).on s).2 g = k.content s g := by
  cases k with
  | select => exact s.content_change hc hg
  | insert => exact s.content_change hc hg
  | update => exact s.content_apply hc hg
  | delete => exact s.content_apply hc hg

theorem change_congr {s s' : k.builder.State} (hc : k.family? c = some f)
    (h : k.content s f = k.content s' f) :
    ((k.builder.change c).on s).1 = ((k.builder.change c).on s').1 ∧
      k.content ((k.builder.change c).on s).2 f = k.content ((k.builder.change c).on s').2 f := by
  cases k with
  | select => exact Select.change_congr hc h
  | insert => exact Insert.change_congr hc h
  | update => exact ⟨rfl, Update.apply_congr hc h⟩
  | delete => exact ⟨rfl, Delete.apply_congr hc h⟩

/-! ## Rendering -/

theorem content_compile (ctx : Context) (s : k.builder.State) :
    k.content (k.builder.compile ctx s).2 = k.content s := by
  rcases k.builder.compile_cases ctx s with ⟨sql, hcompile⟩ | ⟨e, hcompile⟩
  · rw [hcompile]
    funext f
    cases k <;> cases f <;> rfl
  · rw [hcompile]

theorem toSql_holding (s : k.builder.State) (ctx : Context) :
    k.builder.toSql (k.holding (k.content s)) ctx = k.builder.toSql s ctx := by
  cases k with
  | select =>
    obtain ⟨_, _, _, _, ⟨_, _, _⟩, _, _, _, _, ⟨_, _, _⟩⟩ := s
    rfl
  | insert => rfl
  | update => rfl
  | delete => rfl

/-- The SQL depends on what is held for the families, and on nothing else. -/
theorem toSql_congr {s s' : k.builder.State} (h : k.content s = k.content s') (ctx : Context) :
    k.builder.toSql s ctx = k.builder.toSql s' ctx := by
  rw [← toSql_holding s, h, toSql_holding]

end Composed

/-! ## Runs -/

variable {k : Composed} {α : Type}

namespace Method

def family? : Method k.builder α → Option Family
  | call c => k.family? c
  | _ => none

def isReset : Method k.builder α → Bool
  | call c => (k.family? c).isNone
  | _ => false

/-- What is held for a family changes with its own calls only. -/
theorem content_perform {m : Method k.builder α} (s : k.builder.State) (hm : m.isReset = false)
    (hf : m.family? ≠ some f) : k.content (m.perform s).2 f = k.content s f := by
  cases m with
  | call c =>
    obtain ⟨g, hg⟩ := Option.isSome_iff_exists.mp (Option.isNone_eq_false_iff.mp hm)
    refine Composed.content_change s hg fun heq => hf ?_
    rw [heq]
    exact hg
  | compile ctx => exact congrFun (Composed.content_compile ctx s) f
  | read view => rfl

theorem perform_congr {m : Method k.builder α} {s s' : k.builder.State} (hf : m.family? = some f)
    (h : k.content s f = k.content s' f) :
    (m.perform s).1 = (m.perform s').1 ∧
      k.content (m.perform s).2 f = k.content (m.perform s').2 f := by
  cases m with
  | call c =>
    obtain ⟨hreply, hcontent⟩ := Composed.change_congr hf h
    exact ⟨congrArg Reply.of hreply, hcontent⟩
  | _ => exact nomatch hf

end Method

namespace Usage

/-- The calls of a family. -/
def calls (f : Family) (ms : List (Method k.builder α)) : List (Method k.builder α) :=
  ms.filter (·.family? = some f)

/-- The calls of a family, with what they gave back. -/
def told (f : Family) (u : Usage k.builder α) : List (Used k.builder α) :=
  u.log.filter (·.1.family? = some f)

/-- A family sees nothing but its own calls. -/
theorem run_calls (f : Family) (s : k.builder.State) {ms : List (Method k.builder α)}
    (hms : ∀ m ∈ ms, m.isReset = false) :
    k.content (run s ms).state f = k.content (run s (calls f ms)).state f ∧
      (run s ms).told f = (run s (calls f ms)).log := by
  -- The calls of the family alone are at the same point as the whole run, as far as it is concerned.
  induction ms using List.reverseRecOn with
  | nil => exact ⟨rfl, rfl⟩
  | append_singleton ms m ih =>
    obtain ⟨hcontent, htold⟩ := ih fun m hm => hms m (List.mem_append_left _ hm)
    have hm : m.isReset = false := hms m (by simp)
    rw [run_append_singleton]
    by_cases hf : m.family? = some f
    · obtain ⟨hreply, hown⟩ := m.perform_congr hf hcontent
      have hcalls : calls f (ms ++ [m]) = calls f ms ++ [m] := by simp [calls, hf]
      rw [hcalls, run_append_singleton]
      refine ⟨hown, ?_⟩
      simp only [told] at htold ⊢
      simp [step, hf, htold, hreply]
    · have hcalls : calls f (ms ++ [m]) = calls f ms := by simp [calls, hf]
      rw [hcalls]
      refine ⟨(m.content_perform _ hm hf).trans hcontent, ?_⟩
      simp only [told] at htold ⊢
      simp [step, hf, htold]

/-- Only the order of calls within a family counts: not what calls of other families come between
them, and not whether the statement is compiled or looked at on the way. -/
theorem families_commute (s : k.builder.State) {ms ms' : List (Method k.builder α)}
    (hms : ∀ m ∈ ms, m.isReset = false) (hms' : ∀ m ∈ ms', m.isReset = false)
    (h : ∀ f, calls f ms = calls f ms') :
    (∀ ctx, k.builder.toSql (run s ms).state ctx = k.builder.toSql (run s ms').state ctx) ∧
      ∀ f, (run s ms).told f = (run s ms').told f := by
  have hcontent : k.content (run s ms).state = k.content (run s ms').state := by
    funext f
    rw [(run_calls f s hms).1, h, (run_calls f s hms').1]
  refine ⟨Composed.toSql_congr hcontent, fun f => ?_⟩
  rw [(run_calls f s hms).2, h, (run_calls f s hms').2]

def plain : Context := Cells.empty.context (Dialect.standard.quoting "")

/-- Calls in the order of the clauses. The first one on a join comes too early. -/
def inClauseOrder : List (Method Composed.select.builder Unit) :=
  [.call (.from (.name "t")), .call (.on ⟨.name "a", "=", .name "b"⟩),
    .call (.join (.name "u") none), .call (.using [.name "id"]),
    .call (.scope (.filter (.add .and (.name "a") "=" (.text ":v")))),
    .call (.request (.param ":v" (.int 1))), .call (.scope (.limit 3))]

/-- The same calls in another order. In between, the statement is compiled and looked at. -/
def outOfOrder : List (Method Composed.select.builder Unit) :=
  [.call (.scope (.limit 3)), .call (.on ⟨.name "a", "=", .name "b"⟩), .compile plain,
    .call (.request (.param ":v" (.int 1))), .call (.join (.name "u") none),
    .read fun s => do let _ ← Builder.select.toSql s plain, .call (.from (.name "t")),
    .call (.scope (.filter (.add .and (.name "a") "=" (.text ":v")))), .call (.using [.name "id"])]

theorem families_commute_outOfOrder :
    Builder.select.toSql (run Select.empty outOfOrder).state plain =
        .ok "SELECT * FROM \"t\" JOIN \"u\" USING (\"id\") WHERE \"a\" = 1 LIMIT 3" ∧
      ((run Select.empty outOfOrder).told .joins).map Prod.snd =
        [.error (.error .noJoin), .ok .done, .ok .done] := by
  have hcalls : ∀ f, calls f outOfOrder = calls f inClauseOrder := fun f => by cases f <;> rfl
  obtain ⟨hsql, htold⟩ := families_commute (k := .select) Select.empty (by decide) (by decide) hcalls
  rw [hsql, htold]
  exact ⟨by decide +kernel, rfl⟩

end Usage

end SqlComposer
