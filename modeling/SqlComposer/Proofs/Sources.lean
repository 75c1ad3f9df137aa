import Mathlib.Data.List.DropRight
import Mathlib.Data.List.Induction
import SqlComposer.Builder.Usage

/-!
# Where rows and branches come from

What an INSERT has been told since its last reset decides where its rows come from, and which of
its calls are refused. Raw queries are only ever let in as SELECTs.
-/

namespace SqlComposer

variable {b : Builder} {α : Type}

/-- Each use goes with what was used before it. -/
def Throughout (fits : List (Used b α) → Used b α → Prop) (log : List (Used b α)) : Prop :=
  ∀ earlier used later, log = earlier ++ used :: later → fits earlier used

theorem throughout_nil (fits : List (Used b α) → Used b α → Prop) : Throughout fits [] := by
  intro earlier used later h
  exact absurd h (by simp)

theorem Throughout.concat {fits : List (Used b α) → Used b α → Prop} {log : List (Used b α)}
    {last : Used b α} (h : Throughout fits log) (hlast : fits log last) :
    Throughout fits (log ++ [last]) := by
  intro earlier used later heq
  rcases List.eq_nil_or_concat later with rfl | ⟨rest, final, rfl⟩
  · obtain ⟨rfl, hused⟩ := List.append_inj' heq rfl
    obtain rfl : last = used := List.singleton_inj.mp hused
    exact hlast
  · rw [List.concat_eq_append, ← List.cons_append, ← List.append_assoc] at heq
    obtain ⟨hlog, -⟩ := List.append_inj' heq rfl
    exact h earlier used rest hlog

/-! ## What an INSERT was told -/

def RowQuery.kind : RowQuery → Kind
  | .select _ => .select
  | .query q => q.kind

namespace Insert

def isReset : Method .insert α → Bool
  | .call .reset => true
  | _ => false

def sinceReset (log : List (Used .insert α)) : List (Used .insert α) :=
  log.rtakeWhile fun used => !isReset used.1

/-- The rows that were given, taken or not. -/
def given (log : List (Used .insert α)) : List (List Value) :=
  log.filterMap fun
    | (.call (.values row), _) => some row
    | _ => none

/-- The queries that were taken. -/
def taken (log : List (Used .insert α)) : List RowQuery :=
  log.filterMap fun
    | (.call (.select q), .ok _) => some q
    | _ => none

/-- The last query that was taken, or all rows that were given. -/
def toldSource (log : List (Used .insert α)) : RowSource :=
  match (taken log).getLast? with
  | some q => .query q
  | none => .values (given log)

/-- What a call gives back, after all that was told before. -/
def answer (told : List (Used .insert α)) : Call → Outcome (Reply α)
  | .table t => if t.isAliased then .error (.error .aliasedTarget) else .ok .done
  | .values _ => if taken told = [] then .ok .done else .error (.error .mixedRowSources)
  | .select q =>
    if q.kind ≠ .select then .error (.error (.sourceNotSelect q.kind))
    else if taken told = [] ∧ given told ≠ [] then .error (.error .mixedRowSources)
    else .ok .done
  | _ => .ok .done

variable {log told : List (Used .insert α)} {used : Used .insert α}

theorem sinceReset_concat (h : isReset used.1 = false) :
    sinceReset (log ++ [used]) = sinceReset log ++ [used] :=
  List.rtakeWhile_concat_pos _ _ _ (by simp [h])

theorem sinceReset_concat_reset (h : isReset used.1 = true) : sinceReset (log ++ [used]) = [] :=
  List.rtakeWhile_concat_neg _ _ _ (by simp [h])

theorem given_concat (used : Used .insert α) :
    given (told ++ [used]) = given told ++ given [used] :=
  List.filterMap_append

theorem taken_concat (used : Used .insert α) :
    taken (told ++ [used]) = taken told ++ taken [used] :=
  List.filterMap_append

theorem toldSource_of_taken_nil (h : taken told = []) : toldSource told = .values (given told) := by
  rw [toldSource, h]
  rfl

theorem exists_toldSource (h : taken told ≠ []) : ∃ q, toldSource told = .query q := by
  rw [toldSource, List.getLast?_eq_some_getLast h]
  exact ⟨_, rfl⟩

theorem toldSource_quiet (hgiven : given [used] = []) (htaken : taken [used] = []) :
    toldSource (told ++ [used]) = toldSource told := by
  rw [toldSource, toldSource, given_concat, taken_concat, hgiven, htaken, List.append_nil,
    List.append_nil]

theorem toldSource_values {row : List Value} {reply : Outcome (Reply α)} (h : taken told = []) :
    toldSource (told ++ [(.call (.values row), reply)]) = .values (given told ++ [row]) := by
  have htaken : taken (told ++ [(.call (.values row), reply)]) = [] := by
    rw [taken_concat, h]
    rfl
  rw [toldSource_of_taken_nil htaken, given_concat]
  rfl

theorem toldSource_values_late {row : List Value} {reply : Outcome (Reply α)}
    (h : taken told ≠ []) :
    toldSource (told ++ [(.call (.values row), reply)]) = toldSource told := by
  have htaken : taken (told ++ [(.call (.values row), reply)]) = taken told := by
    rw [taken_concat]
    exact List.append_nil _
  rw [toldSource, toldSource, htaken, List.getLast?_eq_some_getLast h]

theorem toldSource_select (q : RowQuery) (reply : Reply α) :
    toldSource (told ++ [(.call (.select q), .ok reply)]) = .query q := by
  have htaken : taken (told ++ [(.call (.select q), .ok reply)]) = taken told ++ [q] :=
    taken_concat _
  rw [toldSource, htaken, List.getLast?_concat]

theorem checkSource_eq (q : RowQuery) :
    checkSource q = if q.kind = .select then .ok () else .error (.sourceNotSelect q.kind) := by
  cases q <;> rfl

theorem answer_select {q : RowQuery} (hkind : q.kind = .select) :
    (answer told (.select q) : Outcome (Reply α)) =
      if taken told = [] ∧ given told ≠ [] then .error (.error .mixedRowSources)
      else .ok .done := by
  rw [answer, if_neg (not_not.mpr hkind)]

/-! ## An INSERT does what it was told -/

/-- The builder is what it was told to be, and so are the answers to calls. -/
structure Accounted (u : Usage .insert α) : Prop where
  target : ∀ t, u.state.table = some t → t.isAliased = false
  source : u.state.source = toldSource (sinceReset u.log)
  raw : ∀ q, u.state.source = .query (.query q) → q.kind = .select
  answers : Throughout (fun earlier used =>
    ∀ c, used.1 = .call c → used.2 = answer (sinceReset earlier) c) u.log

namespace Accounted

variable {u : Usage .insert α}

/-- Methods that say nothing about the source leave it alone. -/
theorem quiet (h : Accounted u) {m : Method .insert α} (hm : isReset m = false)
    (hgiven : given [(m, (m.perform u.state).1)] = [])
    (htaken : taken [(m, (m.perform u.state).1)] = [])
    (htarget : ∀ t, ((m.perform u.state).2 : Insert).table = some t → t.isAliased = false)
    (hsource : ((m.perform u.state).2 : Insert).source = u.state.source)
    (hanswer : ∀ c, m = .call c → (m.perform u.state).1 = answer (sinceReset u.log) c) :
    Accounted (u.step m) where
  target := htarget
  source := by
    have htold : toldSource (sinceReset (u.log ++ [(m, (m.perform u.state).1)])) =
        toldSource (sinceReset u.log) := by
      rw [sinceReset_concat hm, toldSource_quiet hgiven htaken]
    exact (hsource.trans h.source).trans htold.symm
  raw q hq := h.raw q (hsource ▸ hq)
  answers := h.answers.concat hanswer

theorem call (h : Accounted u) {c : Call} {result : Except Error Unit} {s : Insert}
    (hon : (change c).on u.state = (result, s)) (hc : isReset (.call c : Method .insert α) = false)
    (htable : s.table = u.state.table)
    (hsource : s.source = toldSource (sinceReset u.log ++ [(.call c, Reply.of result)]))
    (hraw : ∀ q, s.source = .query (.query q) → q.kind = .select)
    (hanswer : Reply.of result = answer (sinceReset u.log) c) : Accounted (u.step (.call c)) := by
  have hstep : u.step (.call c) = ⟨s, u.log ++ [(.call c, Reply.of result)]⟩ := by
    rw [Usage.step, Method.perform_call, show (Builder.insert.change c).on u.state = _ from hon]
  rw [hstep]
  refine ⟨fun t ht => h.target t (htable ▸ ht), ?_, hraw, h.answers.concat fun c' hc' => ?_⟩
  · rw [sinceReset_concat hc]
    exact hsource
  · cases hc'
    exact hanswer

theorem compile (h : Accounted u) (ctx : Context) : Accounted (u.step (.compile ctx)) := by
  refine h.quiet rfl rfl rfl ?_ ?_ fun c hc => nomatch hc
  · rw [Method.perform_compile]
    rcases Builder.insert.compile_cases ctx u.state with ⟨sql, hcompile⟩ | ⟨e, hcompile⟩
    · rw [hcompile]
      exact h.target
    · rw [hcompile]
      exact h.target
  · rw [Method.perform_compile]
    rcases Builder.insert.compile_cases ctx u.state with ⟨sql, hcompile⟩ | ⟨e, hcompile⟩
    · rw [hcompile]
      rfl
    · rw [hcompile]

theorem reset (h : Accounted u) : Accounted (u.step (.call .reset)) where
  target t ht := nomatch ht
  source := by
    have hnil : sinceReset (u.log ++ [(.call .reset, .ok .done)]) = [] :=
      sinceReset_concat_reset rfl
    exact (congrArg toldSource hnil).symm
  raw q hq := nomatch hq
  answers := h.answers.concat fun c hc => by
    cases hc
    rfl

theorem table (h : Accounted u) (t : Ident) : Accounted (u.step (.call (.table t))) := by
  have hon := on_setTable t u.state
  have hperform : (Method.call (.table t) : Method .insert α).perform u.state =
      (Reply.of ((setTable t).on u.state).1, ((setTable t).on u.state).2) := rfl
  refine h.quiet rfl rfl rfl ?_ ?_ ?_
  · rw [hperform, hon]
    intro t' ht'
    split at ht'
    · exact h.target t' ht'
    · next ht =>
      obtain rfl : t = t' := Option.some.inj ht'
      simpa using ht
  · rw [hperform, hon]
    split <;> rfl
  · intro c hc
    cases hc
    rw [hperform, hon, answer]
    split <;> rfl

theorem values (h : Accounted u) (row : List Value) : Accounted (u.step (.call (.values row))) := by
  have hon : (change (.values row)).on u.state = _ := on_addRow row u.state
  by_cases htaken : taken (sinceReset u.log) = []
  · have hsource := h.source.trans (toldSource_of_taken_nil htaken)
    rw [hsource] at hon
    refine h.call hon rfl rfl (toldSource_values htaken).symm (fun q hq => nomatch hq) ?_
    rw [answer, if_pos htaken]
    rfl
  · obtain ⟨q, hq⟩ := exists_toldSource htaken
    have hsource := h.source.trans hq
    rw [hsource] at hon
    refine h.call hon rfl rfl ?_ h.raw ?_
    · rw [h.source, toldSource_values_late htaken]
    · rw [answer, if_neg htaken]
      rfl

theorem select (h : Accounted u) (q : RowQuery) : Accounted (u.step (.call (.select q))) := by
  have hon : (change (.select q)).on u.state = _ := on_setQuery q u.state
  rw [checkSource_eq] at hon
  have hrefused {e : Error} (hon : (change (.select q)).on u.state = (.error e, u.state))
      (hanswer : Reply.of (.error e) = answer (sinceReset u.log) (.select q)) :
      Accounted (u.step (.call (.select q))) :=
    h.call hon rfl rfl (h.source.trans (toldSource_quiet rfl rfl).symm) h.raw hanswer
  have hkept (hkind : q.kind = .select)
      (hon : (change (.select q)).on u.state = (.ok (), { u.state with source := .query q }))
      (hpresent : ¬ (taken (sinceReset u.log) = [] ∧ given (sinceReset u.log) ≠ [])) :
      Accounted (u.step (.call (.select q))) := by
    refine h.call hon rfl rfl (toldSource_select q .done).symm ?_ ?_
    · rintro raw hraw
      cases hraw
      exact hkind
    · rw [answer_select hkind, if_neg hpresent]
      rfl
  by_cases hkind : q.kind = .select
  · rw [if_pos hkind] at hon
    by_cases htaken : taken (sinceReset u.log) = []
    · rw [h.source.trans (toldSource_of_taken_nil htaken)] at hon
      cases hgiven : given (sinceReset u.log) with
      | nil =>
        rw [hgiven] at hon
        exact hkept hkind hon fun hpresent => hpresent.2 hgiven
      | cons row rows =>
        rw [hgiven] at hon
        refine hrefused hon ?_
        rw [answer_select hkind, if_pos ⟨htaken, by simp [hgiven]⟩]
        rfl
    · obtain ⟨earlier, hearlier⟩ := exists_toldSource htaken
      rw [h.source.trans hearlier] at hon
      exact hkept hkind hon fun hpresent => htaken hpresent.1
  · rw [if_neg hkind] at hon
    refine hrefused hon ?_
    rw [answer, if_pos hkind]
    rfl

theorem step (h : Accounted u) (m : Method .insert α) : Accounted (u.step m) := by
  cases m with
  | call c =>
    cases c with
    | request c => exact h.quiet rfl rfl rfl h.target rfl fun c hc => by cases hc; rfl
    | reset => exact h.reset
    | table t => exact h.table t
    | columns columns => exact h.quiet rfl rfl rfl h.target rfl fun c hc => by cases hc; rfl
    | values row => exact h.values row
    | select q => exact h.select q
  | compile ctx => exact h.compile ctx
  | read view => exact h.quiet rfl rfl rfl h.target rfl fun c hc => nomatch hc

end Accounted

/-- What the constructors give. -/
def start (table : Option String) (columns : List Ident) : Insert :=
  { table := table.map .name, columns }

theorem accounted_run (table : Option String) (columns : List Ident)
    (ms : List (Method .insert α)) : Accounted (Usage.run (start table columns) ms) := by
  induction ms using List.reverseRecOn with
  | nil =>
    refine ⟨fun t ht => ?_, rfl, fun q hq => (nomatch hq), throughout_nil _⟩
    obtain ⟨name, -, rfl⟩ := Option.map_eq_some_iff.mp ht
    rfl
  | append_singleton ms m ih =>
    rw [Usage.run_append_singleton]
    exact ih.step m

end Insert

/-! ## The branches of a SELECT -/

namespace Select

/-- What `union` gives back. -/
def branchAnswer : BranchSource → Outcome (Reply α)
  | .query q => if q.kind = .select then .ok .done else .error (.error (.branchNotSelect q.kind))
  | _ => .ok .done

theorem of_checkBranch (source : BranchSource) :
    (Reply.of (checkBranch source) : Outcome (Reply α)) = branchAnswer source := by
  cases source with
  | query q =>
    simp only [checkBranch, branchAnswer]
    split <;> rfl
  | _ => rfl

theorem kind_of_checkBranch {q : RawQuery} (h : checkBranch (.query q) = .ok ()) :
    q.kind = .select := by
  by_contra hkind
  rw [checkBranch, if_neg hkind] at h
  exact nomatch h

/-- Only SELECTs are branches, and everything else was refused with its kind. -/
structure Branched (u : Usage .select α) : Prop where
  raw : ∀ branch ∈ u.state.unions, ∀ q, branch.source = .query q → q.kind = .select
  answers : ∀ source all reply, (.call (.union source all), reply) ∈ u.log →
    reply = branchAnswer source

/-- No other call adds a branch. -/
theorem unions_change {c : Call} (hc : ∀ source all, c ≠ .union source all) (s : Select) :
    ∀ branch ∈ ((change c).on s).2.unions, branch ∈ s.unions := by
  intro branch h
  have hjoin (change : Change Join Unit) : ((onLastJoin change).on s).2.unions = s.unions := by
    rw [on_onLastJoin]
    cases s.joins.getLast? <;> rfl
  cases c with
  | union source all => exact absurd rfl (hc source all)
  | reset => exact nomatch h
  | on pair => exact hjoin _ ▸ h
  | «using» columns => exact hjoin _ ▸ h
  | _ => exact h

namespace Branched

variable {u : Usage .select α}

theorem other (h : Branched u) {m : Method .select α}
    (hm : ∀ source all, m ≠ .call (.union source all))
    (hunions : ∀ branch ∈ ((m.perform u.state).2 : Select).unions, branch ∈ u.state.unions) :
    Branched (u.step m) where
  raw branch hbranch := h.raw branch (hunions branch hbranch)
  answers source all reply hmem := by
    rcases List.mem_append.mp hmem with hmem | hlast
    · exact h.answers source all reply hmem
    · exact absurd (congrArg Prod.fst (List.mem_singleton.mp hlast)).symm (hm source all)

theorem call (h : Branched u) {c : Call} (hc : ∀ source all, c ≠ .union source all) :
    Branched (u.step (.call c)) := by
  refine h.other (fun source all heq => ?_) (unions_change hc u.state)
  cases heq
  exact hc source all rfl

theorem union (h : Branched u) (source : BranchSource) (all : Bool) :
    Branched (u.step (.call (.union source all))) := by
  have hon := on_addBranch source all u.state
  have hanswers : ∀ reply source' all' reply', reply = branchAnswer source →
      (.call (.union source' all'), reply') ∈ u.log ++ [(.call (.union source all), reply)] →
      reply' = branchAnswer source' := by
    intro reply source' all' reply' hreply hmem
    rcases List.mem_append.mp hmem with hmem | hlast
    · exact h.answers source' all' reply' hmem
    · cases List.mem_singleton.mp hlast
      exact hreply
  have hstep : u.step (.call (.union source all)) = ⟨((addBranch source all).on u.state).2,
      u.log ++ [(.call (.union source all), Reply.of ((addBranch source all).on u.state).1)]⟩ := rfl
  rw [hstep, hon]
  cases hcheck : checkBranch source with
  | error e =>
    have hreply : (Reply.of (.error e) : Outcome (Reply α)) = branchAnswer source := by
      rw [← hcheck, of_checkBranch]
    exact ⟨h.raw, fun source' all' reply' => hanswers _ source' all' reply' hreply⟩
  | ok _ =>
    have hreply : (Reply.of (.ok ()) : Outcome (Reply α)) = branchAnswer source := by
      rw [← of_checkBranch, hcheck]
    refine ⟨fun branch hbranch q hq => ?_,
      fun source' all' reply' => hanswers _ source' all' reply' hreply⟩
    rcases List.mem_append.mp hbranch with hbranch | hlast
    · exact h.raw branch hbranch q hq
    · obtain rfl := List.mem_singleton.mp hlast
      obtain rfl : source = .query q := hq
      exact kind_of_checkBranch hcheck

theorem compile (h : Branched u) (ctx : Context) : Branched (u.step (.compile ctx)) := by
  refine h.other (fun _ _ => nofun) fun branch hbranch => ?_
  rw [Method.perform_compile] at hbranch
  rcases Builder.select.compile_cases ctx u.state with ⟨sql, hcompile⟩ | ⟨e, hcompile⟩
  · rw [hcompile] at hbranch
    exact hbranch
  · rw [hcompile] at hbranch
    exact hbranch

theorem step (h : Branched u) (m : Method .select α) : Branched (u.step m) := by
  cases m with
  | call c =>
    cases c with
    | union source all => exact h.union source all
    | _ => exact h.call fun _ _ => nofun
  | compile ctx => exact h.compile ctx
  | read view => exact h.other (fun _ _ => nofun) fun branch hbranch => hbranch

end Branched

theorem branched_run (columns : List Ident) (ms : List (Method .select α)) :
    Branched (Usage.run { Select.empty with columns } ms) := by
  induction ms using List.reverseRecOn with
  | nil => exact ⟨fun _ h => (nomatch h), fun _ _ _ h => (nomatch h)⟩
  | append_singleton ms m ih =>
    rw [Usage.run_append_singleton]
    exact ih.step m

end Select

/-- What any run of calls has made of an INSERT and of a SELECT, and what the calls gave back. -/
theorem Usage.sources_accounted (table : Option String) (columns selected : List Ident)
    (ms : List (Method .insert α)) (ms' : List (Method .select α)) :
    Insert.Accounted (run (Insert.start table columns) ms) ∧
      Select.Branched (run { Select.empty with columns := selected } ms') :=
  ⟨Insert.accounted_run table columns ms, Select.branched_run selected ms'⟩

end SqlComposer
