import Mathlib.Data.List.Forall2
import SqlComposer.Builder.Usage
import SqlComposer.Proofs.Clauses
import SqlComposer.Proofs.Mentions

/-!
# Why rendering fails

A cell is rendered with what it holds, so it fails on what is mentioned there. Unless cells go round
in a circle, following them comes to an end, and what is left to fail on are sort directions.
-/

namespace SqlComposer

namespace Cells

variable (cells : Cells)

/-- What is mentioned in a term, or in the contents of a cell that is. -/
inductive Within (ms : List Mention) : Mention → Prop where
  | here {m : Mention} (hm : m ∈ ms) : Within ms m
  | inside {id : CellId} {m : Mention} (hcell : Within ms (.cell id))
      (hm : m ∈ (cells.get id).mentions) : Within ms m

/-- None of the cells within leads back to itself. -/
def Acyclic (ms : List Mention) : Prop :=
  ∀ id, cells.Within ms (.cell id) → ¬ cells.Within (cells.get id).mentions (.cell id)

variable {cells} {ms : List Mention}

/-- Cells that only refer to earlier ones go round in no circle. -/
theorem acyclic_of_lt (h : ∀ id next, .cell next ∈ (cells.get id).mentions → next < id)
    (ms : List Mention) : cells.Acyclic ms := by
  intro id _ hcircle
  have hlt : ∀ m, cells.Within (cells.get id).mentions m → ∀ next, m = .cell next → next < id := by
    intro m hm
    induction hm with
    | here hm =>
      rintro next rfl
      exact h id next hm
    | inside hcell hm ih =>
      rintro next rfl
      exact Nat.lt_trans (h _ next hm) (ih _ rfl)
  exact Nat.lt_irrefl id (hlt _ hcircle id rfl)

theorem lt_size_of_mentions {id : CellId} (h : (cells.get id).mentions ≠ []) : id < cells.size := by
  rcases Nat.lt_or_ge id cells.size with hlt | hge
  · exact hlt
  · have hnull : cells.get id = .null := by
      unfold get
      rw [List.getElem?_eq_none hge]
      rfl
    rw [hnull] at h
    exact absurd rfl h

/-- No chain of cells is longer than there are cells. -/
theorem length_le_size {seen : List CellId} (hnodup : seen.Nodup)
    (hseen : ∀ id ∈ seen, id < cells.size) : seen.length ≤ cells.size := by
  have hsubset : seen ⊆ List.range cells.size := fun id hid => List.mem_range.mpr (hseen id hid)
  have hle := hnodup.length_le_of_subset hsubset
  rwa [List.length_range] at hle

/-- A cell fails on a direction. `seen` is the chain of cells that led to it. -/
theorem blames_text (hacyclic : cells.Acyclic ms) (q : Quoting) (depth : Nat) {id : CellId}
    {seen : List CellId} {f : Failure} (hid : cells.Within ms (.cell id)) (hnodup : seen.Nodup)
    (hseen : ∀ earlier ∈ seen, earlier < cells.size ∧
      cells.Within (cells.get earlier).mentions (.cell id))
    (hdepth : seen.length + depth = cells.size + 1) (hf : cells.text q depth id = .error f) :
    ∃ d, cells.Within ms (.direction d) ∧ ¬ IsDirection d ∧
      f = .error (.unknownDirection (Text.upper (d.getD ""))) := by
  induction depth generalizing id seen with
  | zero =>
    have hle := length_le_size hnodup fun earlier h => (hseen earlier h).1
    omega
  | succ depth ih =>
    rw [text] at hf
    obtain ⟨m, hm, hcauses⟩ := Value.blames ⟨q, cells.text q depth⟩ (cells.get id) f hf
    cases m with
    | direction d => exact ⟨d, .inside hid hm, hcauses⟩
    | cell next =>
      have hfresh : id ∉ seen := fun h => hacyclic id hid (hseen id h).2
      have hsize : id < cells.size := lt_size_of_mentions (List.ne_nil_of_mem hm)
      refine ih (.inside hid hm) (List.nodup_cons.mpr ⟨hfresh, hnodup⟩) ?_ ?_ hcauses
      · intro earlier h
        rcases List.mem_cons.mp h with rfl | h
        · exact ⟨hsize, .here hm⟩
        · exact ⟨(hseen earlier h).1, .inside (hseen earlier h).2 hm⟩
      · rw [List.length_cons]
        omega

end Cells

/-! ## Errors of calls -/

namespace Change

variable {τ : Type}

/-- What fails, fails with a compile error. -/
def Explains (change : Change τ Unit) : Prop :=
  ∀ t e, (change.on t).1 = .error e → e.isCompile = true

theorem explains_modify (f : τ → τ) : Explains (modify f) := by
  intro t e h
  rw [on_modify] at h
  exact nomatch h

end Change

namespace Join

theorem explains_change (c : Call) : (change c).Explains := by
  intro j e h
  cases c with
  | on pair =>
    rw [change, on_addOn] at h
    split at h
    · obtain rfl := Except.error.inj h
      rfl
    · exact nomatch h
    · exact nomatch h
  | «using» columns =>
    rw [change, on_addUsing] at h
    split at h
    · obtain rfl := Except.error.inj h
      rfl
    · exact nomatch h
    · exact nomatch h

end Join

namespace Select

theorem explains_onLastJoin {change : Change Join Unit} (hjoin : change.Explains) :
    (onLastJoin change).Explains := by
  intro s e h
  rw [on_onLastJoin] at h
  split at h
  · obtain rfl := Except.error.inj h
    rfl
  · exact hjoin _ e h

theorem explains_addBranch (source : BranchSource) (all : Bool) :
    (addBranch source all).Explains := by
  intro s e h
  rw [on_addBranch] at h
  split at h
  · exact nomatch h
  · next hcheck =>
    obtain rfl := Except.error.inj h
    unfold checkBranch at hcheck
    split at hcheck
    · split at hcheck
      · exact nomatch hcheck
      · obtain rfl := Except.error.inj hcheck
        rfl
    · exact nomatch hcheck

theorem explains_change (c : Call) : (change c).Explains := by
  cases c with
  | on pair => exact explains_onLastJoin (Join.explains_change (.on pair))
  | «using» columns => exact explains_onLastJoin (Join.explains_change (.using columns))
  | union source all => exact explains_addBranch source all
  | _ => exact Change.explains_modify _

end Select

namespace Insert

theorem explains_setQuery (q : RowQuery) : (setQuery q).Explains := by
  intro i e h
  rw [on_setQuery] at h
  split at h
  · next hcheck =>
    obtain rfl := Except.error.inj h
    unfold checkSource at hcheck
    split at hcheck
    · split at hcheck
      · exact nomatch hcheck
      · obtain rfl := Except.error.inj hcheck
        rfl
    · exact nomatch hcheck
  · obtain rfl := Except.error.inj h
    rfl
  · exact nomatch h

theorem explains_change (c : Call) : (change c).Explains := by
  cases c with
  | table t =>
    intro i e h
    rw [change, on_setTable] at h
    split at h
    · obtain rfl := Except.error.inj h
      rfl
    · exact nomatch h
  | values row =>
    intro i e h
    rw [change, on_addRow] at h
    split at h
    · exact nomatch h
    · obtain rfl := Except.error.inj h
      rfl
  | select q => exact explains_setQuery q
  | _ => exact Change.explains_modify _

end Insert

theorem Builder.explains_change (b : Builder) (c : b.Call) : (b.change c).Explains := by
  cases b with
  | select => exact Select.explains_change c
  | insert => exact Insert.explains_change c
  | join => exact Join.explains_change c
  | _ => exact Change.explains_modify _

/-! ## Sort keys -/

/-- A sort key reads as its column with nothing, ASC or DESC behind it. -/
def SortKey.Reads (ctx : Context) (k : SortKey) (entry : String) : Prop :=
  IsDirection k.direction ∧ ∃ column, ∃ ending ∈ ["", " ASC", " DESC"],
    k.column.target ctx = .ok column ∧ entry = column ++ ending

theorem SortKey.reads_texts {ctx : Context} {keys : List SortKey} {entries : List String}
    (h : SortKey.texts ctx keys = .ok entries) : List.Forall₂ (SortKey.Reads ctx) keys entries := by
  induction keys generalizing entries with
  | nil =>
    obtain rfl : [] = entries := Except.ok.inj h
    exact .nil
  | cons k keys ih =>
    obtain ⟨entry, hentry, h⟩ := Outcome.bind_eq_ok.mp h
    obtain ⟨rest, hrest, h⟩ := Outcome.bind_eq_ok.mp h
    obtain rfl : entry :: rest = entries := Except.ok.inj h
    refine .cons ?_ (ih hrest)
    obtain ⟨column, direction⟩ := k
    obtain ⟨text, htext, hentry⟩ := Outcome.bind_eq_ok.mp hentry
    rcases directed_cases text direction with ⟨hd, ending, hending, hok⟩ | ⟨-, herror⟩
    · rw [hok] at hentry
      exact ⟨hd, text, ending, hending, htext, (Except.ok.inj hentry).symm⟩
    · rw [herror] at hentry
      exact nomatch hentry

/-! ## Statements -/

namespace Statement

variable {s : Statement} {ctx : Context}

theorem toSql_noTarget (h : s.hasTarget = false) (ctx : Context) :
    s.toSql ctx = .error (.error (.noTarget s.kind)) := by
  cases s with
  | raw q => exact nomatch h
  | select s => exact nomatch h
  | insert i =>
    have htable : i.table = none := Option.isNone_iff_eq_none.mp (Option.isSome_eq_false_iff.mp h)
    simp only [toSql, template, Insert.template, htable]
    rfl
  | update u =>
    have htable : u.table = none := Option.isNone_iff_eq_none.mp (Option.isSome_eq_false_iff.mp h)
    simp only [toSql, template, Update.template, htable]
    rfl
  | delete d =>
    have htable : d.table = none := Option.isNone_iff_eq_none.mp (Option.isSome_eq_false_iff.mp h)
    simp only [toSql, template, Delete.template, htable]
    rfl

/-- With a target, and without a circle of cells, rendering fails on a direction. -/
theorem toSql_blames {cells : Cells} (hacyclic : cells.Acyclic s.mentions) (q : Quoting)
    (htarget : s.hasTarget = true) {f : Failure} (hf : s.toSql (cells.context q) = .error f) :
    ∃ d, cells.Within s.mentions (.direction d) ∧ ¬ IsDirection d ∧
      f = .error (.unknownDirection (Text.upper (d.getD ""))) := by
  obtain ⟨m, hm, hcauses⟩ := Statement.blames (cells.context q) htarget f hf
  cases m with
  | direction d => exact ⟨d, .here hm, hcauses⟩
  | cell id =>
    exact Cells.blames_text hacyclic q (cells.size + 1) (.here hm) List.nodup_nil (by simp)
      (by simp) hcauses

theorem toSql_compileError {cells : Cells} (hacyclic : cells.Acyclic s.mentions) (q : Quoting)
    {f : Failure} (hf : s.toSql (cells.context q) = .error f) :
    ∃ e, f = .error e ∧ e.isCompile = true := by
  cases htarget : s.hasTarget with
  | false =>
    rw [toSql_noTarget htarget] at hf
    exact ⟨_, (Except.error.inj hf).symm, rfl⟩
  | true =>
    obtain ⟨d, -, -, rfl⟩ := toSql_blames hacyclic q htarget hf
    exact ⟨_, rfl, rfl⟩

/-- What is rendered is the text of the clauses with the parameters in their places. Each sort key
stands in its clause, and none shows anywhere else. -/
theorem toSql_reads {sql : String} (h : s.toSql ctx = .ok sql) :
    ∃ c table, s.clauses ctx = .ok c ∧ s.buildSql ctx = .ok c.sql ∧
      s.request.params.replacements ctx = .ok table ∧ sql = Text.replaceAll table c.sql ∧
      List.Forall₂ (SortKey.Reads ctx) s.scope.orderBy c.orderBy ∧
      s.unordered.clauses ctx = .ok { c with orderBy := [] } := by
  simp only [toSql, template_eq, bind_assoc, pure_bind] at h
  obtain ⟨c, hc, h⟩ := Outcome.bind_eq_ok.mp h
  obtain ⟨table, htable, h⟩ := Outcome.bind_eq_ok.mp h
  obtain ⟨-, horderBy, hunordered⟩ := of_clauses hc
  refine ⟨c, table, hc, ?_, htable, (Except.ok.inj h).symm, SortKey.reads_texts horderBy,
    hunordered⟩
  rw [buildSql_eq, hc]
  rfl

theorem isDirection_of_toSql {sql : String} (h : s.toSql ctx = .ok sql) {k : SortKey}
    (hk : k ∈ s.scope.orderBy) : IsDirection k.direction := by
  obtain ⟨c, table, -, -, -, -, hkeys, -⟩ := toSql_reads h
  have hall : (∀ k ∈ s.scope.orderBy, IsDirection k.direction) ∧ _ :=
    (List.forall₂_and_left _ _).mp hkeys
  exact hall.1 k hk

/-- Without a circle of cells, a statement that has its target and only good directions is rendered,
and every failure is a compile error. The SQL is that of the clauses with the parameters put in, and
a direction is nothing there but ASC or DESC behind its column. -/
theorem toSql_accounted (s : Statement) (cells : Cells) (q : Quoting)
    (hacyclic : cells.Acyclic s.mentions) :
    (s.hasTarget = true → (∀ d, cells.Within s.mentions (.direction d) → IsDirection d) →
      ∃ sql, s.toSql (cells.context q) = .ok sql) ∧
    (s.hasTarget = false → s.toSql (cells.context q) = .error (.error (.noTarget s.kind))) ∧
    (∀ k ∈ s.scope.orderBy, ¬ IsDirection k.direction →
      ∃ e, s.toSql (cells.context q) = .error (.error e)) ∧
    (∀ f, s.toSql (cells.context q) = .error f → ∃ e, f = .error e ∧ e.isCompile = true) ∧
    (∀ (b : Builder) (c : b.Call) (state : b.State) (e : Error),
      ((b.change c).on state).1 = .error e → e.isCompile = true) ∧
    ∀ sql, s.toSql (cells.context q) = .ok sql →
      ∃ c table, s.clauses (cells.context q) = .ok c ∧ s.buildSql (cells.context q) = .ok c.sql ∧
        s.request.params.replacements (cells.context q) = .ok table ∧
        sql = Text.replaceAll table c.sql ∧
        List.Forall₂ (SortKey.Reads (cells.context q)) s.scope.orderBy c.orderBy ∧
        s.unordered.clauses (cells.context q) = .ok { c with orderBy := [] } := by
  refine ⟨?_, fun h => toSql_noTarget h _, ?_, fun f hf => toSql_compileError hacyclic q hf,
    fun b c state e h => b.explains_change c state e h, fun sql h => toSql_reads h⟩
  · intro htarget hdirections
    cases hsql : s.toSql (cells.context q) with
    | ok sql => exact ⟨sql, rfl⟩
    | error f =>
      obtain ⟨d, hwithin, hd, -⟩ := toSql_blames hacyclic q htarget hsql
      exact absurd (hdirections d hwithin) hd
  · intro k hk hd
    cases hsql : s.toSql (cells.context q) with
    | ok sql => exact absurd (isDirection_of_toSql hsql hk) hd
    | error f =>
      obtain ⟨e, rfl, -⟩ := toSql_compileError hacyclic q hsql
      exact ⟨e, rfl⟩

/-- Two cells. A parameter of the fragment in the second is bound to the first. -/
def chained : Cells := ⟨[.text "x", .fragment ⟨"f(:n)", ⟨[.cell ":n" 0]⟩⟩]⟩

def sorted : Statement :=
  .select { Select.empty with
    tables := [.name "t"]
    scope := ⟨⟨[.predicate .and (.name "a") "<" (.text ":m")]⟩, [⟨.name "a", some "desc"⟩], none⟩
    request := ⟨⟨[.cell ":m" 1]⟩, {}, none⟩ }

theorem mentions_chained (id : CellId) {m : Mention} (h : m ∈ (chained.get id).mentions) :
    id = 1 ∧ m = .cell 0 := by
  match id with
  | 0 => exact nomatch h
  | 1 => exact ⟨rfl, List.mem_singleton.mp h⟩
  | n + 2 => exact nomatch h

theorem toSql_sorted :
    chained.Acyclic sorted.mentions ∧
      ∃ sql, sorted.toSql (chained.context (Dialect.standard.quoting "")) = .ok sql := by
  have hacyclic : chained.Acyclic sorted.mentions := by
    refine Cells.acyclic_of_lt (fun id next h => ?_) _
    obtain ⟨rfl, hnext⟩ := mentions_chained id h
    cases hnext
    decide
  obtain ⟨hrenders, -⟩ := toSql_accounted sorted chained (Dialect.standard.quoting "") hacyclic
  refine ⟨hacyclic, hrenders rfl fun d hd => ?_⟩
  cases hd with
  | here hm =>
    have hmentions : sorted.mentions = [.direction (some "desc"), .cell 1] := rfl
    obtain rfl : d = some "desc" := by simpa [hmentions] using hm
    exact .inr (.inr ⟨"desc", rfl, .inr rfl⟩)
  | inside hcell hm => exact nomatch (mentions_chained _ hm).2

/-- A parameter whose key occurs in a direction. -/
def keyed : Statement :=
  .select { Select.empty with
    tables := [.name "t"]
    scope := ⟨.empty, [⟨.name "a", some "asc"⟩], none⟩
    request := ⟨⟨[.value "ASC" (.text "x")]⟩, {}, none⟩ }

/-- A key is replaced wherever it occurs, behind a column as well. -/
theorem toSql_keyed :
    Cells.empty.Acyclic keyed.mentions ∧
      keyed.toSql (Cells.empty.context (Dialect.standard.quoting "")) =
        .ok "SELECT * FROM \"t\" ORDER BY \"a\" 'x'" ∧
      ¬ ∃ front entry, "SELECT * FROM \"t\" ORDER BY \"a\" 'x'" = front ++ " ORDER BY " ++ entry ∧
        SortKey.Reads (Cells.empty.context (Dialect.standard.quoting "")) ⟨.name "a", some "asc"⟩
          entry := by
  have hempty (id : CellId) : Cells.empty.get id = .null := by simp [Cells.get, Cells.empty]
  refine ⟨Cells.acyclic_of_lt (fun id next h => ?_) _, rfl, ?_⟩
  · rw [hempty] at h
    exact nomatch h
  · rintro ⟨front, entry, hsql, -, column, ending, hending, hcolumn, rfl⟩
    obtain rfl : "\"a\"" = column := Except.ok.inj hcolumn
    have hlast := congrArg (fun s : String => s.toList.getLast?) hsql
    simp only [List.mem_cons, List.not_mem_nil, or_false] at hending
    rcases hending with rfl | rfl | rfl <;> simp at hlast

end Statement

end SqlComposer
