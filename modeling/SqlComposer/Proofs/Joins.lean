import Mathlib.Data.List.DropRight
import Mathlib.Data.List.Induction
import SqlComposer.Proofs.Passages
import SqlComposer.Proofs.Sources

/-!
# Every join has its own conditions

What comes between one join and the next goes to the first of the two, and to no other. There the
first call decides between ON and USING: calls of the other form are refused, and all others add up.
-/

namespace SqlComposer

/-! ## One join -/

namespace Join

def Call.pair? : Call → Option OnPair
  | .on pair => some pair
  | .using _ => none

def Call.columns : Call → List Ident
  | .on _ => []
  | .using columns => columns

/-- What calls make of a join: the first one decides on the form, and the other form is left out. -/
def settled : List Call → JoinCondition
  | [] => .free
  | .on pair :: rest => .on (pair :: rest.filterMap Call.pair?)
  | .using columns :: rest => .using (columns ++ rest.flatMap Call.columns)

/-- What a call gives back behind others on the same join. -/
def answer : List Call → Call → Except Error Unit
  | .on _ :: _, .using _ => .error .mixedJoinConditions
  | .using _ :: _, .on _ => .error .mixedJoinConditions
  | _, _ => .ok ()

theorem on_settled (table : Ident) (kind : Option String) (earlier : List Call) (c : Call) :
    (change c).on ⟨table, kind, settled earlier⟩ =
      (answer earlier c, ⟨table, kind, settled (earlier ++ [c])⟩) := by
  cases c with
  | on pair =>
    rw [change, on_addOn]
    rcases earlier with _ | ⟨_ | _, rest⟩ <;> simp [settled, answer, Call.pair?, Call.columns]
  | «using» columns =>
    rw [change, on_addUsing]
    rcases earlier with _ | ⟨_ | _, rest⟩ <;> simp [settled, answer, Call.pair?, Call.columns]

end Join

/-! ## The joins of a SELECT -/

/-- A call that adds a join, or one on the last join. -/
inductive JoinCall where
  | join (table : Ident) (kind : Option String)
  | last (c : Join.Call)

/-- A join, with the calls on it. -/
structure Joining where
  table : Ident
  kind : Option String
  calls : List Join.Call

namespace Joining

def join (j : Joining) : Join := ⟨j.table, j.kind, Join.settled j.calls⟩

def add (j : Joining) (c : Join.Call) : Joining := { j with calls := j.calls ++ [c] }

end Joining

/-- The calls that come before the next join. -/
def ownCalls : List JoinCall → List Join.Call
  | .last c :: rest => c :: ownCalls rest
  | _ => []

def joinings : List JoinCall → List Joining
  | [] => []
  | .join table kind :: rest => ⟨table, kind, ownCalls rest⟩ :: joinings rest
  | .last _ :: rest => joinings rest

theorem ownCalls_join (calls : List JoinCall) (table : Ident) (kind : Option String) :
    ownCalls (calls ++ [.join table kind]) = ownCalls calls := by
  induction calls with
  | nil => rfl
  | cons call rest ih =>
    cases call with
    | join table kind => rfl
    | last c => exact congrArg (c :: ·) ih

theorem joinings_join (calls : List JoinCall) (table : Ident) (kind : Option String) :
    joinings (calls ++ [.join table kind]) = joinings calls ++ [⟨table, kind, []⟩] := by
  induction calls with
  | nil => rfl
  | cons call rest ih =>
    cases call with
    | join table' kind' => simp [joinings, ih, ownCalls_join]
    | last c => exact ih

theorem ownCalls_last (calls : List JoinCall) (c : Join.Call) :
    ownCalls (calls ++ [.last c]) =
      if joinings calls = [] then ownCalls calls ++ [c] else ownCalls calls := by
  induction calls with
  | nil => rfl
  | cons call rest ih =>
    cases call with
    | join table kind => simp [ownCalls, joinings]
    | last c' =>
      simp only [List.cons_append, ownCalls, joinings, ih]
      exact apply_ite (c' :: ·) _ _ _

/-- A call on the last join says nothing about the others. -/
theorem joinings_last (calls : List JoinCall) (c : Join.Call) :
    joinings (calls ++ [.last c]) =
      (joinings calls).dropLast ++ ((joinings calls).getLast?.map (·.add c)).toList := by
  induction calls with
  | nil => rfl
  | cons call rest ih =>
    cases call with
    | join table kind =>
      simp only [List.cons_append, joinings, ownCalls_last, ih]
      cases joinings rest with
      | nil => rfl
      | cons j js => simp
    | last c' => exact ih

/-! ## What a SELECT was told -/

namespace Select

variable {α : Type}

def Call.join? : Call → Option JoinCall
  | .join table kind => some (.join table kind)
  | .on pair => some (.last (.on pair))
  | .using columns => some (.last (.using columns))
  | _ => none

def Call.ofJoin : Join.Call → Call
  | .on pair => .on pair
  | .using columns => .using columns

def isReset : Used .select α → Bool
  | (.call .reset, _) => true
  | _ => false

def joinCall? : Used .select α → Option JoinCall
  | (.call c, _) => c.join?
  | _ => none

/-- What was said about joins since the last reset, refused or not. -/
def toldJoins (log : List (Used .select α)) : List JoinCall :=
  (log.rtakeWhile fun used => !isReset used).filterMap joinCall?

/-- What a call on the last join gives back. -/
def joinAnswer (js : List Joining) (c : Join.Call) : Except Error Unit :=
  match js.getLast? with
  | none => .error .noJoin
  | some j => Join.answer j.calls c

variable {log : List (Used .select α)} {used : Used .select α}

theorem toldJoins_concat (h : isReset used = false) :
    toldJoins (log ++ [used]) = toldJoins log ++ (joinCall? used).toList := by
  have hlog := List.rtakeWhile_concat_pos (fun used : Used .select α => !isReset used) log used
    (by simp [h])
  rw [toldJoins, hlog, List.filterMap_append, toldJoins]
  cases h : joinCall? used <;> simp [h]

theorem toldJoins_reset (h : isReset used = true) : toldJoins (log ++ [used]) = [] := by
  rw [toldJoins, List.rtakeWhile_concat_neg _ _ _ (by simp [h])]
  rfl

theorem change_last {call : Call} {c : Join.Call} (h : call.join? = some (.last c)) :
    change call = onLastJoin (Join.change c) := by
  cases call with
  | on pair =>
    cases h
    rfl
  | «using» columns =>
    cases h
    rfl
  | _ => exact nomatch h

theorem with_joins {s : Select} {joins : List Join} (h : s.joins = joins) :
    { s with joins } = s := by
  cases s
  subst h
  rfl

theorem on_last {s : Select} {js : List Joining} (h : s.joins = js.map Joining.join)
    (c : Join.Call) :
    (onLastJoin (Join.change c)).on s =
      (joinAnswer js c, { s with
        joins := (js.dropLast ++ (js.getLast?.map (·.add c)).toList).map Joining.join }) := by
  rw [on_onLastJoin, h, List.getLast?_map]
  rcases List.eq_nil_or_concat js with rfl | ⟨earlier, j, rfl⟩
  · have hnil : s.joins = [] := h
    exact congrArg _ (with_joins hnil).symm
  · have hj : (Join.change c).on j.join = (Join.answer j.calls c, (j.add c).join) :=
      Join.on_settled ..
    simp [joinAnswer, hj]

/-! ## A SELECT does what it was told -/

/-- The joins are those that it was told of, with what it was told about each of them. -/
structure Joined (u : Usage .select α) : Prop where
  joins : u.state.joins = (joinings (toldJoins u.log)).map Joining.join
  answers : Throughout (fun earlier used => ∀ c, joinCall? used = some (.last c) →
    used.2 = Reply.of (joinAnswer (joinings (toldJoins earlier)) c)) u.log

namespace Joined

variable {u : Usage .select α}

/-- Methods that say nothing about joins leave them alone. -/
theorem quiet (h : Joined u) {m : Method .select α}
    (hcall : joinCall? (m, (m.perform u.state).1) = none)
    (hreset : isReset (m, (m.perform u.state).1) = false)
    (hjoins : ((m.perform u.state).2 : Select).joins = u.state.joins) : Joined (u.step m) where
  joins := by
    have htold : toldJoins (u.log ++ [(m, (m.perform u.state).1)]) = toldJoins u.log := by
      rw [toldJoins_concat hreset, hcall]
      exact List.append_nil _
    exact (hjoins.trans h.joins).trans (congrArg (fun told => (joinings told).map _) htold.symm)
  answers := h.answers.concat fun c hc => nomatch hcall.symm.trans hc

theorem reset (h : Joined u) : Joined (u.step (.call .reset)) where
  joins := by
    have htold : toldJoins (u.log ++ [(.call .reset, .ok .done)]) = [] := toldJoins_reset rfl
    exact (congrArg (fun told => (joinings told).map Joining.join) htold).symm
  answers := h.answers.concat fun c hc => nomatch hc

theorem join (h : Joined u) (table : Ident) (kind : Option String) :
    Joined (u.step (.call (.join table kind))) where
  joins := by
    have htold : toldJoins (u.log ++ [(.call (.join table kind), .ok .done)]) =
        toldJoins u.log ++ [.join table kind] := toldJoins_concat rfl
    have hjoins : ((u.step (.call (.join table kind))).state : Select).joins =
        u.state.joins ++ [.new table kind] := rfl
    rw [hjoins, h.joins]
    change _ = (joinings (toldJoins (u.log ++ [(.call (.join table kind), .ok .done)]))).map _
    rw [htold, joinings_join, List.map_append]
    rfl
  answers := h.answers.concat fun c hc => nomatch hc

theorem last (h : Joined u) {call : Call} {c : Join.Call} (hcall : call.join? = some (.last c)) :
    Joined (u.step (.call call)) := by
  have hon : (Builder.select.change call).on u.state = _ :=
    (congrArg (Change.on · u.state) (change_last hcall)).trans (on_last h.joins c)
  have hreset (reply : Outcome (Reply α)) : isReset (.call call, reply) = false := by
    cases call with
    | reset => exact nomatch hcall
    | _ => rfl
  rw [Usage.step, Method.perform_call, hon]
  refine ⟨?_, h.answers.concat fun c' hc' => ?_⟩
  · rw [toldJoins_concat (hreset _), joinCall?, hcall, Option.toList_some, joinings_last]
  · obtain rfl : c = c' := by simpa [joinCall?, hcall] using hc'
    rfl

theorem step (h : Joined u) (m : Method .select α) : Joined (u.step m) := by
  cases m with
  | call c =>
    cases c with
    | reset => exact h.reset
    | join table kind => exact h.join table kind
    | on pair => exact h.last rfl
    | «using» columns => exact h.last rfl
    | union source all =>
      refine h.quiet rfl rfl ?_
      change ((addBranch source all).on u.state).2.joins = _
      rw [on_addBranch]
      split <;> rfl
    | _ => exact h.quiet rfl rfl rfl
  | compile ctx =>
    refine h.quiet rfl rfl ?_
    rw [Method.perform_compile]
    rcases Builder.select.compile_cases ctx u.state with ⟨sql, hcompile⟩ | ⟨e, hcompile⟩
    · rw [hcompile]
      rfl
    · rw [hcompile]
  | read view => exact h.quiet rfl rfl rfl

end Joined

theorem joined_run (columns : List Ident) (ms : List (Method .select α)) :
    Joined (Usage.run { Select.empty with columns } ms) := by
  induction ms using List.reverseRecOn with
  | nil => exact ⟨rfl, throughout_nil _⟩
  | append_singleton ms m ih =>
    rw [Usage.run_append_singleton]
    exact ih.step m

end Select

/-! ## The text of a join -/

theorem OnPair.texts_eq_mapM (ctx : Context) (pairs : List OnPair) :
    OnPair.texts ctx pairs = pairs.mapM (OnPair.text ctx) := by
  induction pairs with
  | nil => rfl
  | cons pair pairs ih => simp only [OnPair.texts, ih, List.mapM_cons]

namespace Joining

variable (ctx : Context)

/-- The conditions that the calls add up to, in parentheses behind the word for their form. -/
def conditionText (calls : List Join.Call) : Outcome String := do
  match calls with
  | [] => return ""
  | .on _ :: _ =>
    let pairs ← (calls.filterMap Join.Call.pair?).mapM (OnPair.text ctx)
    return " ON (" ++ " AND ".intercalate pairs ++ ")"
  | .using _ :: _ =>
    let columns ← (calls.flatMap Join.Call.columns).mapM (Ident.text ctx .column)
    return " USING (" ++ ", ".intercalate columns ++ ")"

def text (j : Joining) : Outcome String := do
  return joinWord j.kind ++ (← j.table.text ctx .table) ++ (← conditionText ctx j.calls)

theorem text_settled (calls : List Join.Call) :
    (Join.settled calls).text ctx = conditionText ctx calls := by
  have hon : " ON " ++ "(" = " ON (" := rfl
  have husing : " USING " ++ "(" = " USING (" := rfl
  rcases calls with _ | ⟨pair | columns, rest⟩
  · rfl
  · rw [Join.settled, JoinCondition.text, OnPair.texts_eq_mapM]
    simp only [parenthesized, ← String.append_assoc, hon]
    rfl
  · rw [Join.settled, JoinCondition.text, Ident.texts_eq_mapM]
    simp only [parenthesized, ← String.append_assoc, husing]
    rfl

theorem text_join (j : Joining) : j.join.text ctx = j.text ctx := by
  rw [join, Join.text, text, text_settled]

theorem texts_joins (js : List Joining) : Join.texts ctx (js.map join) = js.mapM (text ctx) := by
  induction js with
  | nil => rfl
  | cons j js ih => simp only [List.map_cons, Join.texts, ih, List.mapM_cons, text_join]

end Joining

open Select in
/-- Every join is written in its turn, with the conditions that it was given and no others. A call
on the last join changes nothing else, and is refused if there is none, or if the first call on that
join was of the other form. -/
theorem Usage.joins_accounted {α : Type} (columns : List Ident) (ms : List (Method .select α)) :
    let u : Usage .select α := run { Select.empty with columns } ms
    let s : Select := u.state
    Joined u ∧
      (∀ c : Join.Call, ∃ joins, ((Select.change (.ofJoin c)).on s).2 = { s with joins }) ∧
      ∀ ctx : Context, ∃ frame : Frame,
        (Statement.select { s with joins := [] }).buildSql ctx = frame.fill (.ok "") ∧
        (Statement.select s).buildSql ctx = frame.fill
          (listClause " " " " <$> (joinings (toldJoins u.log)).mapM (Joining.text ctx)) := by
  intro u s
  have hjoined : Joined u := joined_run columns ms
  refine ⟨hjoined, fun c => ?_, fun ctx => ⟨.around (s.passages ctx) 2, ?_, ?_⟩⟩
  · have hchange : Select.change (.ofJoin c) = onLastJoin (Join.change c) :=
      change_last (by cases c <;> rfl)
    rw [hchange, on_last hjoined.joins]
    exact ⟨_, rfl⟩
  · exact s.buildSql_joins []
  · rw [← Joining.texts_joins, ← hjoined.joins, ← s.buildSql_joins, Select.with_joins rfl]

example :
    let u : Usage .select Unit := .run { Select.empty with tables := [.name "t"] } [
      .call (Select.leftJoin (.name "u")), .call (.on ⟨.name "t.id", "=", .name "u.id"⟩),
      .call (Select.innerJoin (.name "v")), .call (.using [.name "id"])]
    (Statement.select u.state).buildSql ⟨Dialect.standard.quoting "", fun _ => .ok ""⟩ =
      .ok ("SELECT * FROM \"t\" LEFT JOIN \"u\" ON (\"t\".\"id\" = \"u\".\"id\") " ++
        "INNER JOIN \"v\" USING (\"id\")") := rfl

end SqlComposer
