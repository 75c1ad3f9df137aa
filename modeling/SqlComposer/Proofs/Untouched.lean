import Mathlib.Data.List.Basic
import Mathlib.Data.List.Induction
import SqlComposer.Builder.Usage

/-!
# Refused calls leave no trace

A call that returns an error has changed nothing, wherever its checks stand. So a run comes to the
same builder without the calls that were refused in it, and all others return what they returned.
-/

namespace SqlComposer

/-! ## Changes -/

namespace Change

variable {τ : Type}

/-- What fails has not written anything. -/
def Untouching (change : Change τ Unit) : Prop :=
  ∀ t e, (change.on t).1 = .error e → (change.on t).2 = t

theorem untouching_modify (f : τ → τ) : Untouching (modify f) := by
  intro t e h
  rw [on_modify] at h
  exact nomatch h

end Change

/-! ## Calls -/

namespace Join

theorem untouching_addOn (pair : OnPair) : (addOn pair).Untouching := by
  intro j e h
  rw [on_addOn] at h ⊢
  split at h
  · rfl
  · exact nomatch h
  · exact nomatch h

theorem untouching_addUsing (columns : List Ident) : (addUsing columns).Untouching := by
  intro j e h
  rw [on_addUsing] at h ⊢
  split at h
  · rfl
  · exact nomatch h
  · exact nomatch h

theorem untouching_change (c : Call) : (change c).Untouching := by
  rcases c with pair | columns
  · exact untouching_addOn pair
  · exact untouching_addUsing columns

end Join

namespace Select

/-- The last join is written back in any case, so it is the join that must be left alone. -/
theorem untouching_onLastJoin {change : Change Join Unit} (h : change.Untouching) :
    (onLastJoin change).Untouching := by
  intro s e hfail
  rw [on_onLastJoin] at hfail ⊢
  cases hlast : s.joins.getLast? with
  | none => rfl
  | some last =>
    rw [hlast] at hfail
    have hsame : (change.on last).2 = last := h last e hfail
    have hjoins : s.joins.dropLast ++ [last] = s.joins :=
      List.dropLast_append_getLast? last hlast
    simp only [hsame]
    rw [hjoins]
    cases s
    rfl

theorem untouching_addBranch (source : BranchSource) (all : Bool) :
    (addBranch source all).Untouching := by
  intro s e h
  rw [on_addBranch] at h ⊢
  split at h
  · exact nomatch h
  · rfl

theorem untouching_change (c : Call) : (change c).Untouching := by
  cases c with
  | on pair => exact untouching_onLastJoin (Join.untouching_addOn pair)
  | «using» columns => exact untouching_onLastJoin (Join.untouching_addUsing columns)
  | union source all => exact untouching_addBranch source all
  | _ => exact Change.untouching_modify _

end Select

namespace Insert

theorem untouching_setTable (t : Ident) : (setTable t).Untouching := by
  intro i e h
  rw [on_setTable] at h ⊢
  split at h
  · next haliased => rw [if_pos haliased]
  · exact nomatch h

theorem untouching_addRow (row : List Value) : (addRow row).Untouching := by
  intro i e h
  rw [on_addRow] at h ⊢
  split at h
  · exact nomatch h
  · rfl

theorem untouching_setQuery (q : RowQuery) : (setQuery q).Untouching := by
  intro i e h
  rw [on_setQuery] at h ⊢
  split at h
  · rfl
  · rfl
  · exact nomatch h

theorem untouching_change (c : Call) : (change c).Untouching := by
  cases c with
  | table t => exact untouching_setTable t
  | values row => exact untouching_addRow row
  | select q => exact untouching_setQuery q
  | _ => exact Change.untouching_modify _

end Insert

theorem Builder.untouching_change (b : Builder) (c : b.Call) : (b.change c).Untouching := by
  cases b with
  | select => exact Select.untouching_change c
  | insert => exact Insert.untouching_change c
  | join => exact Join.untouching_change c
  | _ => exact Change.untouching_modify _

/-- The calls that check something. -/
def Builder.checks : (b : Builder) → b.Call → Bool
  | .select, .on _ | .select, .using _ | .select, .union _ _ => true
  | .insert, .table _ | .insert, .values _ | .insert, .select _ => true
  | .join, _ => true
  | _, _ => false

theorem Builder.checks_of_error {b : Builder} {c : b.Call} {s : b.State} {e : Error}
    (h : ((b.change c).on s).1 = .error e) : b.checks c = true := by
  cases b with
  | select => cases c <;> first | rfl | exact nomatch h
  | insert => cases c <;> first | rfl | exact nomatch h
  | join => rfl
  | _ => exact nomatch h

/-! ## Runs -/

variable {b : Builder} {α : Type}

/-- An error came back. A crash gives nothing back. -/
def Outcome.refused {α : Type} : Outcome α → Bool
  | .error (.error _) => true
  | _ => false

namespace Method

theorem perform_of_refused {m : Method b α} {s : b.State}
    (h : (m.perform s).1.refused = true) : (m.perform s).2 = s := by
  cases m with
  | call c =>
    rw [perform_call] at h ⊢
    cases hresult : ((b.change c).on s).1 with
    | error e => exact b.untouching_change c s e hresult
    | ok u =>
      rw [hresult] at h
      exact nomatch h
  | compile ctx =>
    rw [perform_compile] at h ⊢
    rcases b.compile_cases ctx s with ⟨sql, hcompile⟩ | ⟨e, hcompile⟩
    · rw [hcompile] at h
      exact nomatch h
    · rw [hcompile]
  | read view => rfl

/-- The methods that can be refused: those that check something, and those that render. -/
def mayFail : Method b α → Bool
  | call c => b.checks c
  | _ => true

theorem mayFail_of_refused {m : Method b α} {s : b.State}
    (h : (m.perform s).1.refused = true) : m.mayFail = true := by
  cases m with
  | call c =>
    rw [perform_call] at h
    cases hresult : ((b.change c).on s).1 with
    | error e => exact Builder.checks_of_error hresult
    | ok u =>
      rw [hresult] at h
      exact nomatch h
  | _ => rfl

end Method

namespace Usage

/-- What was not refused. -/
def accepted (u : Usage b α) : List (Used b α) :=
  u.log.filter fun used => !used.2.refused

theorem accepted_step (u : Usage b α) (m : Method b α) :
    (u.step m).accepted =
      u.accepted ++ if (m.perform u.state).1.refused then [] else [(m, (m.perform u.state).1)] := by
  simp only [accepted, step, List.filter_append, List.filter_cons, List.filter_nil]
  cases (m.perform u.state).1.refused <;> rfl

theorem map_log_run (s : b.State) (ms : List (Method b α)) : (run s ms).log.map Prod.fst = ms := by
  induction ms using List.reverseRecOn with
  | nil => rfl
  | append_singleton ms m ih =>
    rw [run_append_singleton, step, List.map_append, ih]
    rfl

/-- Nothing of a refused method is left in the builder when the next one comes. -/
theorem run_accepted (s : b.State) (ms : List (Method b α)) :
    run s ((run s ms).accepted.map Prod.fst) = ⟨(run s ms).state, (run s ms).accepted⟩ := by
  induction ms using List.reverseRecOn with
  | nil => rfl
  | append_singleton ms m ih =>
    rw [run_append_singleton, accepted_step]
    cases hrefused : (m.perform (run s ms).state).1.refused with
    | true =>
      have hstate : ((run s ms).step m).state = (run s ms).state :=
        Method.perform_of_refused hrefused
      rw [if_pos rfl, List.append_nil, ih, hstate]
    | false =>
      rw [if_neg (by simp), List.map_append, List.map_singleton, run_append_singleton, ih]
      rfl

theorem mayFail_of_mem_log {s : b.State} {ms : List (Method b α)} {used : Used b α}
    (h : used ∈ (run s ms).log) (hrefused : used.2.refused = true) : used.1.mayFail = true := by
  induction ms using List.reverseRecOn with
  | nil => exact nomatch h
  | append_singleton ms m ih =>
    rw [run_append_singleton, step, List.mem_append, List.mem_singleton] at h
    rcases h with h | rfl
    · exact ih h
    · exact Method.mayFail_of_refused hrefused

/-- Whatever was refused might as well not have been called: the others alone come to the same
builder, and give back the same. -/
theorem refused_untraced (s : b.State) (ms : List (Method b α)) :
    (run s ms).log.map Prod.fst = ms ∧
      run s ((run s ms).accepted.map Prod.fst) = ⟨(run s ms).state, (run s ms).accepted⟩ ∧
      ∀ used ∈ (run s ms).log, used.2.refused = true → used.1.mayFail = true :=
  ⟨map_log_run s ms, run_accepted s ms, fun _ hmem hrefused => mayFail_of_mem_log hmem hrefused⟩

end Usage

end SqlComposer
