import Mathlib.Data.List.DropRight
import SqlComposer.Proofs.Families
import SqlComposer.Proofs.Sources
import SqlComposer.Proofs.Untouched

/-!
# Resets and compilations

A reset leaves nothing of a statement but its options: it goes on like a new one. The SQL that it
remembers is that of the last compilation since then, if one of them did not fail.
-/

namespace SqlComposer

/-! ## Statements that are made and reset -/

namespace Composed

def options (k : Composed) (s : k.builder.State) : Options := (k.statement s).request.options

def lastSql (k : Composed) (s : k.builder.State) : Option String := (k.statement s).request.lastSql

def reset : (k : Composed) → k.builder.Call
  | select => Select.Call.reset
  | insert => Insert.Call.reset
  | update => Update.Call.reset
  | delete => Delete.Call.reset

/-- What the default constructor gives, with options. -/
def blank (options : Options) : (k : Composed) → k.builder.State
  | select => { Select.empty with request := { Request.empty with options } }
  | insert => { request := { Request.empty with options } }
  | update => { request := { Request.empty with options } }
  | delete => { request := { Request.empty with options } }

/-- What the other constructors are given: a select list, or a table, and the columns of an
INSERT. -/
@[reducible] def Arguments : Composed → Type
  | select => List Ident
  | insert => Option String × List Ident
  | update | delete => Option Ident

def make : (k : Composed) → k.Arguments → k.builder.State
  | select, columns => { Select.empty with columns }
  | insert, (table, columns) => Insert.start table columns
  | update, table => { table }
  | delete, table => { table }

variable {k : Composed}

theorem lastSql_make (given : k.Arguments) : k.lastSql (k.make given) = none := by
  cases k <;> rfl

theorem lastSql_blank (options : Options) : k.lastSql (k.blank options) = none := by
  cases k <;> rfl

theorem eq_reset {c : k.builder.Call} (hc : k.family? c = none) : c = k.reset := by
  cases k <;> cases c <;> first | rfl | exact nomatch hc

theorem change_reset (s : k.builder.State) :
    (k.builder.change k.reset).on s = (.ok (), k.blank (k.options s)) := by
  cases k <;> rfl

end Composed

theorem Request.lastSql_apply (r : Request) (c : Call) : (r.apply c).lastSql = r.lastSql := by
  cases c <;> rfl

theorem Select.lastSql_onLastJoin (change : Change Join Unit) (s : Select) :
    ((onLastJoin change).on s).2.request.lastSql = s.request.lastSql := by
  rw [on_onLastJoin]
  cases s.joins.getLast? <;> rfl

namespace Composed

variable {k : Composed}

/-- No call but a reset has an influence on the SQL that is remembered. -/
theorem lastSql_change {c : k.builder.Call} {f : Family} (hc : k.family? c = some f)
    (s : k.builder.State) : k.lastSql ((k.builder.change c).on s).2 = k.lastSql s := by
  cases k with
  | select =>
    cases c with
    | reset => exact nomatch hc
    | request c => exact s.request.lastSql_apply c
    | on pair => exact s.lastSql_onLastJoin _
    | «using» columns => exact s.lastSql_onLastJoin _
    | union source all =>
      have hon : (Builder.select.change (.union source all)).on s = _ :=
        Select.on_addBranch source all s
      rw [hon]
      cases Select.checkBranch source <;> rfl
    | _ => rfl
  | insert =>
    cases c with
    | reset => exact nomatch hc
    | request c => exact s.request.lastSql_apply c
    | columns columns => rfl
    | table t =>
      have hon : (Builder.insert.change (.table t)).on s = _ := Insert.on_setTable t s
      rw [hon]
      split <;> rfl
    | values row =>
      have hon : (Builder.insert.change (.values row)).on s = _ := Insert.on_addRow row s
      rw [hon]
      split <;> rfl
    | select q =>
      have hon : (Builder.insert.change (.select q)).on s = _ := Insert.on_setQuery q s
      rw [hon]
      split <;> rfl
  | update =>
    cases c with
    | reset => exact nomatch hc
    | request c => exact s.request.lastSql_apply c
    | _ => rfl
  | delete =>
    cases c with
    | reset => exact nomatch hc
    | request c => exact s.request.lastSql_apply c
    | _ => rfl

theorem lastSql_remember (sql : String) (s : k.builder.State) :
    k.lastSql (k.builder.remember sql s) = some sql := by
  cases k <;> rfl

end Composed

/-! ## Runs -/

namespace Usage

section

variable {b : Builder} {α : Type}

theorem run_append (s : b.State) (ms ms' : List (Method b α)) :
    run s (ms ++ ms') = ⟨(run (run s ms).state ms').state,
      (run s ms).log ++ (run (run s ms).state ms').log⟩ := by
  induction ms' using List.reverseRecOn with
  | nil => simp [run]
  | append_singleton ms' m ih =>
    rw [← List.append_assoc, run_append_singleton, ih, run_append_singleton]
    simp [step]

end

variable {k : Composed} {α : Type}

/-- Behind a reset a statement goes on like a new one with the same options. -/
theorem run_reset (s : k.builder.State) (ms ms' : List (Method k.builder α)) :
    let u := run s ms
    let new := run (k.blank (k.options u.state)) ms'
    run s (ms ++ .call k.reset :: ms') =
      ⟨new.state, u.log ++ (.call k.reset, .ok .done) :: new.log⟩ := by
  intro u new
  have hreset : u.step (.call k.reset) =
      ⟨k.blank (k.options u.state), u.log ++ [(.call k.reset, .ok .done)]⟩ := by
    rw [step, Method.perform_call, Composed.change_reset]
    rfl
  rw [← List.singleton_append, ← List.append_assoc, run_append, run_append_singleton]
  change (⟨(run (u.step _).state ms').state, (u.step _).log ++ (run (u.step _).state ms').log⟩ :
    Usage k.builder α) = _
  rw [hreset, List.append_assoc]
  rfl

/-! ## What is remembered -/

def sinceReset (log : List (Used k.builder α)) : List (Used k.builder α) :=
  log.rtakeWhile fun used => !used.1.isReset

/-- The SQL of the compilations that did not fail. -/
def compiled (log : List (Used k.builder α)) : List String :=
  log.filterMap fun
    | (.compile _, .ok (.sql sql)) => some sql
    | _ => none

/-- The SQL of the last compilation since the last reset, of those that did not fail. -/
def toldLast (log : List (Used k.builder α)) : Option String := (compiled (sinceReset log)).getLast?

variable {log : List (Used k.builder α)} {used : Used k.builder α}

theorem toldLast_concat (h : used.1.isReset = false) :
    toldLast (log ++ [used]) = (compiled [used]).getLast?.or (toldLast log) := by
  have hlog : sinceReset (log ++ [used]) = sinceReset log ++ [used] :=
    List.rtakeWhile_concat_pos _ _ _ (by simp [h])
  rw [toldLast, hlog, compiled, List.filterMap_append, List.getLast?_append]
  rfl

theorem toldLast_reset (h : used.1.isReset = true) : toldLast (log ++ [used]) = none := by
  have hlog : sinceReset (log ++ [used]) = [] := List.rtakeWhile_concat_neg _ _ _ (by simp [h])
  rw [toldLast, hlog]
  rfl

theorem lastSql_step {u : Usage k.builder α} (h : k.lastSql u.state = toldLast u.log)
    (m : Method k.builder α) : k.lastSql (u.step m).state = toldLast (u.step m).log := by
  change k.lastSql (m.perform u.state).2 = toldLast (u.log ++ [(m, (m.perform u.state).1)])
  cases m with
  | call c =>
    rw [Method.perform_call]
    cases hc : k.family? c with
    | none =>
      have hreset : (Method.call c : Method k.builder α).isReset = true := by
        simp [Method.isReset, hc]
      obtain rfl := Composed.eq_reset hc
      rw [toldLast_reset hreset, Composed.change_reset, Composed.lastSql_blank]
    | some f =>
      have hreset : (Method.call c : Method k.builder α).isReset = false := by
        simp [Method.isReset, hc]
      rw [toldLast_concat hreset, Composed.lastSql_change hc, h]
      rfl
  | compile ctx =>
    rw [Method.perform_compile, toldLast_concat rfl]
    rcases k.builder.compile_cases ctx u.state with ⟨sql, hcompile⟩ | ⟨e, hcompile⟩
    · rw [hcompile, Composed.lastSql_remember]
      rfl
    · rw [hcompile, h]
      rfl
  | read view =>
    rw [toldLast_concat rfl, Method.perform, h]
    cases view u.state <;> rfl

theorem lastSql_run {s : k.builder.State} (hs : k.lastSql s = none)
    (ms : List (Method k.builder α)) : k.lastSql (run s ms).state = toldLast (run s ms).log := by
  induction ms using List.reverseRecOn with
  | nil => exact hs
  | append_singleton ms m ih =>
    rw [run_append_singleton]
    exact lastSql_step ih m

end Usage

/-- A compilation gives back what the statement is at that moment. -/
theorem Usage.compile_run {b : Builder} {α : Type} (s : b.State) (ms : List (Method b α)) :
    Throughout (fun earlier used => ∀ ctx, used.1 = .compile ctx →
      used.2 = (b.toSql (run s (earlier.map Prod.fst)).state ctx).map .sql) (run s ms).log := by
  induction ms using List.reverseRecOn with
  | nil => exact throughout_nil _
  | append_singleton ms m ih =>
    rw [run_append_singleton]
    refine ih.concat ?_
    rintro ctx rfl
    rw [map_log_run]
    exact congrArg (Except.map Reply.sql) (b.compile_fst ctx (run s ms).state)

/-- After a reset, everything that a statement gives back, and the statement itself, is what a new
one with the same options gives. And what it remembers at any point is the SQL of the last
compilation since it was made or reset, if there was one that did not fail: the SQL that it had at
that moment. -/
theorem Usage.reset_forgets {α : Type} (k : Composed) (given : k.Arguments)
    (ms : List (Method k.builder α)) :
    let u := run (k.make given) ms
    (∀ ms', let new := run (k.blank (k.options u.state)) ms'
      run (k.make given) (ms ++ .call k.reset :: ms') =
        ⟨new.state, u.log ++ (.call k.reset, .ok .done) :: new.log⟩) ∧
      k.lastSql u.state = toldLast u.log ∧
      Throughout (fun earlier used => ∀ ctx, used.1 = .compile ctx →
        used.2 = (k.builder.toSql (run (k.make given) (earlier.map Prod.fst)).state ctx).map .sql)
        u.log :=
  ⟨run_reset (k.make given) ms, lastSql_run (Composed.lastSql_make given) ms,
    compile_run (k.make given) ms⟩

end SqlComposer
