import SqlComposer.Proofs.Passages
import SqlComposer.Proofs.Placeholders

/-!
# Conditions mean the same everywhere

Four clauses take conditions: WHERE in three kinds of statements, and HAVING. Each has its own
methods, and all that distinguishes the clauses in the end is the word in front.
-/

namespace SqlComposer

/-! ## The methods -/

namespace ConditionMethod

/-- Without a word for it, conditions are connected by AND. -/
def logic : ConditionMethod → Logic
  | .or .. => .or
  | .orOpen => .or
  | .orClose => .or
  | _ => .and

def call (m : ConditionMethod) : Criteria.Call :=
  match m with
  | .plain column op value => .add m.logic column op value
  | .and column op value => .add m.logic column op value
  | .or column op value => .add m.logic column op value
  | .plainOpen => .opening m.logic
  | .andOpen => .opening m.logic
  | .orOpen => .opening m.logic
  | .plainClose => .closing m.logic
  | .andClose => .closing m.logic
  | .orClose => .closing m.logic
  | .closeEmpty => .closingEmpty m.logic

end ConditionMethod

/-- The conditions after methods for them. -/
def Criteria.told (c : Criteria) (ms : List ConditionMethod) : Criteria :=
  ms.foldl (fun c m => c.apply m.call) c

theorem Scope.whereCall_eq (m : ConditionMethod) : whereCall m = .filter m.call := by
  cases m <;> rfl

theorem Select.havingCall_eq (m : ConditionMethod) : havingCall m = .having m.call := by
  cases m <;> rfl

/-! ## Calls -/

namespace Builder

variable {b : Builder}

def after (b : Builder) (s : b.State) (calls : List b.Call) : b.State :=
  (Usage.run s (calls.map .call : List (Method b Unit))).state

/-- If one call of a method does to the builder what the method does to conditions, so do many. -/
theorem after_told {s : b.State} {given : Criteria} (put : Criteria → b.State)
    (hs : put given = s) {call : ConditionMethod → b.Call}
    (h : ∀ c m, ((b.change (call m)).on (put c)).2 = put (c.apply m.call))
    (ms : List ConditionMethod) : b.after s (ms.map call) = put (given.told ms) := by
  subst hs
  rw [after, Usage.state_run, List.map_map, List.foldl_map]
  exact List.foldl_hom put h

end Builder

/-! ## The clauses -/

def Filter.word : Filter → String
  | .rows => " WHERE "
  | .groups => " HAVING "

/-- A statement, seen from one of its clauses for conditions. -/
inductive Filterable where
  | select (s : Select)
  | groups (s : Select)
  | update (u : Update)
  | delete (d : Delete)

namespace Filterable

def statement : Filterable → Statement
  | select s => .select s
  | groups s => .select s
  | update u => .update u
  | delete d => .delete d

def filter : Filterable → Filter
  | groups _ => .groups
  | _ => .rows

def params (t : Filterable) : Params := t.statement.request.params

/-- The conditions that are there already. -/
def given : Filterable → Criteria
  | select s => s.scope.criteria
  | groups s => s.having
  | update u => u.scope.criteria
  | delete d => d.scope.criteria

def gap : Filterable → Nat
  | select _ => 3
  | groups _ => 5
  | update _ => 2
  | delete _ => 1

/-- The statement after calls of the methods of the clause. -/
def told (t : Filterable) (ms : List ConditionMethod) : Statement :=
  match t with
  | select s => .select (Builder.select.after s (ms.map fun m => .scope (Scope.whereCall m)))
  | groups s => .select (Builder.select.after s (ms.map Select.havingCall))
  | update u => .update (Builder.update.after u (ms.map fun m => .scope (Scope.whereCall m)))
  | delete d => .delete (Builder.delete.after d (ms.map fun m => .scope (Scope.whereCall m)))

/-- The statement without the clause. -/
def bare (t : Filterable) : Statement := t.statement.filtered t.filter .empty

variable {t t' : Filterable} {ctx : Context} {ms : List ConditionMethod}

theorem filtered_given (t : Filterable) : t.statement.filtered t.filter t.given = t.statement := by
  rcases t with ⟨_, _, _, _, ⟨_, _, _⟩, _⟩ | ⟨_, _⟩ | ⟨_, _, ⟨_, _, _⟩, _⟩ | ⟨_, ⟨_, _, _⟩, _⟩
  all_goals rfl

theorem told_eq (t : Filterable) (ms : List ConditionMethod) :
    t.told ms = t.statement.filtered t.filter (t.given.told ms) := by
  have ht := t.filtered_given
  cases t with
  | select s =>
    refine congrArg Statement.select (Builder.after_told (b := .select)
      (fun c => { s with scope := { s.scope with criteria := c } }) (Statement.select.inj ht)
      (fun c m => ?_) ms)
    rw [Scope.whereCall_eq]
    rfl
  | groups s =>
    refine congrArg Statement.select (Builder.after_told (b := .select)
      (fun c => { s with having := c }) (Statement.select.inj ht) (fun c m => ?_) ms)
    rw [Select.havingCall_eq]
    rfl
  | update u =>
    refine congrArg Statement.update (Builder.after_told (b := .update)
      (fun c => { u with scope := { u.scope with criteria := c } }) (Statement.update.inj ht)
      (fun c m => ?_) ms)
    rw [Scope.whereCall_eq]
    rfl
  | delete d =>
    refine congrArg Statement.delete (Builder.after_told (b := .delete)
      (fun c => { d with scope := { d.scope with criteria := c } }) (Statement.delete.inj ht)
      (fun c m => ?_) ms)
    rw [Scope.whereCall_eq]
    rfl

theorem gap_lt (t : Filterable) (ctx : Context) : t.gap < (t.statement.passages ctx).length := by
  cases t <;>
    simp [gap, statement, Statement.passages, Select.passages, Update.passages, Delete.passages,
      Scope.passages]

theorem passages_filtered (t : Filterable) (ctx : Context) (c : Criteria) :
    (t.statement.filtered t.filter c).passages ctx =
      (t.statement.passages ctx).set t.gap (clause t.filter.word <$> c.compile ctx t.params) := by
  cases t <;> rfl

/-- Whatever the conditions are, the rest of the statement is the same. -/
theorem buildSql_filtered (t : Filterable) (ctx : Context) (c : Criteria) :
    (t.statement.filtered t.filter c).buildSql ctx =
      (Frame.around (t.statement.passages ctx) t.gap).fill
        (clause t.filter.word <$> c.compile ctx t.params) :=
  Statement.buildSql_set (t.passages_filtered ctx c) (t.gap_lt ctx)

theorem buildSql_told (t : Filterable) (ctx : Context) (ms : List ConditionMethod) :
    (t.told ms).buildSql ctx = (Frame.around (t.statement.passages ctx) t.gap).fill
      (clause t.filter.word <$> (t.given.told ms).compile ctx t.params) := by
  rw [told_eq, buildSql_filtered]

theorem clause_eq_empty {f : Filter} {body : Outcome String} :
    clause f.word <$> body = .ok "" ↔ body = .ok "" := by
  cases body with
  | error e => simp
  | ok body => cases f <;> simp [clause, Filter.word]

/-- There is no clause if there is nothing to say in it. -/
theorem told_eq_bare {sql : String} (h : t.bare.buildSql ctx = .ok sql) :
    (t.told ms).buildSql ctx = .ok sql ↔ (t.given.told ms).compile ctx t.params = .ok "" := by
  rw [bare, buildSql_filtered] at h
  rw [buildSql_told, Frame.fill_eq_bare h, clause_eq_empty]

theorem told_eq_error {sql : String} (h : t.bare.buildSql ctx = .ok sql) {e : Failure} :
    (t.told ms).buildSql ctx = .error e ↔ (t.given.told ms).compile ctx t.params = .error e := by
  rw [bare, buildSql_filtered] at h
  rw [buildSql_told, Frame.fill_eq_error h]
  cases (t.given.told ms).compile ctx t.params <;> simp

/-- The same calls make the same conditions in every clause: with one body behind the word for the
clause, without a clause in the same cases, and with the same errors. -/
theorem told_alike (ctx : Context) {t t' : Filterable} (hgiven : t'.given = t.given)
    (hparams : t'.params = t.params) : ∃ frame frame' : Frame,
      frame.fill (.ok "") = t.bare.buildSql ctx ∧ frame'.fill (.ok "") = t'.bare.buildSql ctx ∧
      ∀ ms : List ConditionMethod,
        (let body := (t.given.told ms).compile ctx t.params
        (t.told ms).buildSql ctx = frame.fill (clause t.filter.word <$> body) ∧
          (t'.told ms).buildSql ctx = frame'.fill (clause t'.filter.word <$> body)) ∧
        ∀ sql sql', t.bare.buildSql ctx = .ok sql → t'.bare.buildSql ctx = .ok sql' →
          ((t.told ms).buildSql ctx = .ok sql ↔ (t'.told ms).buildSql ctx = .ok sql') ∧
          ∀ e, (t.told ms).buildSql ctx = .error e ↔ (t'.told ms).buildSql ctx = .error e := by
  refine ⟨.around (t.statement.passages ctx) t.gap, .around (t'.statement.passages ctx) t'.gap,
    (t.buildSql_filtered ctx .empty).symm, (t'.buildSql_filtered ctx .empty).symm, fun ms => ?_⟩
  refine ⟨⟨t.buildSql_told ctx ms, ?_⟩, fun sql sql' h h' => ⟨?_, fun e => ?_⟩⟩
  · rw [buildSql_told, hgiven, hparams]
  · rw [told_eq_bare h, told_eq_bare h', hgiven, hparams]
  · rw [told_eq_error h, told_eq_error h', hgiven, hparams]

/-- A group that is closed while it is empty, and one that is not closed. -/
def groupings : List ConditionMethod :=
  [.plain (.name "a") "=" (.int 1), .andOpen, .closeEmpty, .orOpen, .and (.name "b") "<" (.int 2)]

/-- As HAVING of a query and as WHERE of a deletion they have one body. -/
theorem told_alike_groupings :
    let ctx : Context := ⟨Dialect.standard.quoting "", fun _ => .ok "NULL"⟩
    let query := groups .empty
    let deletion := delete (.of (.name "t"))
    deletion.given = query.given ∧ deletion.params = query.params ∧ ∃ frame frame' : Frame,
      frame.fill (.ok "") = query.bare.buildSql ctx ∧
      frame'.fill (.ok "") = deletion.bare.buildSql ctx ∧
      (query.told groupings).buildSql ctx = frame.fill (.ok " HAVING \"a\" = 1 OR (\"b\" < 2") ∧
      (query.told groupings).buildSql ctx = .ok "SELECT * HAVING \"a\" = 1 OR (\"b\" < 2" ∧
      (deletion.told groupings).buildSql ctx = frame'.fill (.ok " WHERE \"a\" = 1 OR (\"b\" < 2") ∧
      (deletion.told groupings).buildSql ctx =
        .ok "DELETE FROM \"t\" WHERE \"a\" = 1 OR (\"b\" < 2" := by
  have hgiven : (delete (.of (.name "t"))).given = (groups .empty).given := rfl
  obtain ⟨frame, frame', hframe, hframe', htold⟩ :=
    told_alike ⟨Dialect.standard.quoting "", fun _ => .ok "NULL"⟩ hgiven rfl
  obtain ⟨hquery, hdeletion⟩ := (htold groupings).1
  exact ⟨hgiven, rfl, frame, frame', hframe, hframe', hquery, rfl, hdeletion, rfl⟩

end Filterable

end SqlComposer
