import Mathlib.Data.List.DropRight
import Mathlib.Data.List.Induction
import SqlComposer.Builder.Usage
import SqlComposer.Postgres.Adapter
import SqlComposer.Proofs.Clauses
import SqlComposer.Proofs.Names
import SqlComposer.Proofs.Predicates

/-!
# Filters stay

Groups may be opened, closed and dropped around a predicate in any order: it stays until the
conditions are cleared as a whole. A predicate on a named column always has a text, so a statement
that was given one has a WHERE clause.
-/

namespace SqlComposer

/-! ## What conditions keep -/

namespace Criteria

def Call.predicate? : Call → Option Predicate
  | .add _ column op value => some ⟨column, op, value⟩
  | _ => none

def Call.clears : Call → Bool
  | .clear => true
  | _ => false

/-- The predicates that were added since the conditions were last cleared. -/
def added (calls : List Call) : List Predicate :=
  (calls.rtakeWhile fun call => !call.clears).filterMap Call.predicate?

theorem added_concat (calls : List Call) (call : Call) :
    added (calls ++ [call]) =
      if call.clears then [] else added calls ++ call.predicate?.toList := by
  unfold added
  rw [List.rtakeWhile_concat]
  cases call.clears with
  | true => rfl
  | false =>
    simp only [Bool.not_false, if_true, List.filterMap_append]
    cases call <;> rfl

theorem endsOpen_iff (c : Criteria) :
    c.endsOpen = true ↔ ∃ earlier logic, c.entries = earlier ++ [.opening logic] := by
  obtain ⟨entries⟩ := c
  unfold endsOpen
  rcases List.eq_nil_or_concat entries with rfl | ⟨earlier, last, rfl⟩
  · simp
  · cases last <;> simp

/-- An opening that is taken back is no predicate. -/
theorem predicates_apply (c : Criteria) (call : Call) :
    (c.apply call).predicates =
      if call.clears then [] else c.predicates ++ call.predicate?.toList := by
  cases call with
  | closingEmpty logic =>
    rw [apply]
    split
    · next hopen =>
      obtain ⟨earlier, logic', hentries⟩ := c.endsOpen_iff.mp hopen
      simp [predicates, hentries, Condition.predicate?, Call.clears, Call.predicate?]
    · simp [predicates, push, Condition.predicate?, Call.clears, Call.predicate?]
  | clear => rfl
  | _ => simp [apply, predicates, push, Condition.predicate?, Call.clears, Call.predicate?]

theorem predicates_run (calls : List Call) : (run calls).predicates = added calls := by
  induction calls using List.reverseRecOn with
  | nil => rfl
  | append_singleton calls call ih =>
    rw [added_concat, run, List.foldl_append, ← ih]
    exact predicates_apply _ call

end Criteria

/-! ## What a builder keeps -/

namespace Builder

/-- The conditions of the WHERE clause. What has no such clause has none. -/
def criteria (b : Builder) (s : b.State) : Criteria :=
  (b.statement? s).elim .empty fun statement => statement.scope.criteria

def scopeFilter? : Scope.Call → Option Criteria.Call
  | .filter c => some c
  | _ => none

/-- What a call does to the conditions, if anything. A reset clears them. -/
def filter? : (b : Builder) → b.Call → Option Criteria.Call
  | .select, .scope c => scopeFilter? c
  | .select, .reset => some .clear
  | .update, .scope c => scopeFilter? c
  | .update, .reset => some .clear
  | .delete, .scope c => scopeFilter? c
  | .delete, .reset => some .clear
  | _, _ => none

theorem criteria_scope (s : Scope) (c : Scope.Call) :
    (s.apply c).criteria = (scopeFilter? c).elim s.criteria s.criteria.apply := by
  cases c <;> rfl

theorem scope_onLastJoin (change : Change Join Unit) (s : Select) :
    ((Select.onLastJoin change).on s).2.scope = s.scope := by
  rw [Select.on_onLastJoin]
  split <;> rfl

theorem scope_addBranch (source : BranchSource) (all : Bool) (s : Select) :
    ((Select.addBranch source all).on s).2.scope = s.scope := by
  rw [Select.on_addBranch]
  split <;> rfl

theorem criteria_change (b : Builder) (c : b.Call) (s : b.State) :
    b.criteria ((b.change c).on s).2 = (b.filter? c).elim (b.criteria s) (b.criteria s).apply := by
  cases b with
  | select =>
    cases c with
    | scope c => exact criteria_scope s.scope c
    | on pair => exact congrArg Scope.criteria (scope_onLastJoin (Join.addOn pair) s)
    | «using» columns => exact congrArg Scope.criteria (scope_onLastJoin (Join.addUsing columns) s)
    | union source all => exact congrArg Scope.criteria (scope_addBranch source all s)
    | _ => rfl
  | update =>
    cases c with
    | scope c => exact criteria_scope s.scope c
    | _ => rfl
  | delete =>
    cases c with
    | scope c => exact criteria_scope s.scope c
    | _ => rfl
  | query => rfl
  | insert => rfl
  | join => rfl

theorem criteria_remember (b : Builder) (sql : String) (s : b.State) :
    b.criteria (b.remember sql s) = b.criteria s := by
  cases b <;> rfl

end Builder

namespace Usage

variable {b : Builder} {α : Type}

/-- What methods do to the conditions. -/
def filters (ms : List (Method b α)) : List Criteria.Call :=
  ms.filterMap fun
    | .call c => b.filter? c
    | _ => none

theorem criteria_step (u : Usage b α) (m : Method b α) :
    b.criteria (u.step m).state = (filters [m]).foldl Criteria.apply (b.criteria u.state) := by
  cases m with
  | call c =>
    have hchange := b.criteria_change c u.state
    cases hfilter : b.filter? c with
    | none => simpa [filters, step, Method.perform, hfilter] using hchange
    | some f => simpa [filters, step, Method.perform, hfilter] using hchange
  | compile ctx =>
    rcases b.compile_cases ctx u.state with ⟨sql, h⟩ | ⟨e, h⟩
    · simp [filters, step, Method.perform_compile, h, b.criteria_remember]
    · simp [filters, step, Method.perform_compile, h]
  | read view => rfl

theorem criteria_run (start : b.State) (ms : List (Method b α)) :
    b.criteria (run start ms).state = (filters ms).foldl Criteria.apply (b.criteria start) := by
  induction ms using List.reverseRecOn with
  | nil => rfl
  | append_singleton ms m ih =>
    have hfilters : filters (ms ++ [m]) = filters ms ++ filters [m] := List.filterMap_append
    rw [run_append_singleton, criteria_step, ih, hfilters, List.foldl_append]

end Usage

/-! ## What conditions show -/

/-- Each of the texts stands in the conditions, once and in this order, with nothing else but
parentheses and connectors. -/
inductive Criteria.Shows : List String → String → Prop where
  | done : Shows [] ""
  | glue {texts : List String} {rest : String} (glue : String)
      (h : glue ∈ ["(", ")", " AND ", " OR "]) (hrest : Shows texts rest) :
      Shows texts (glue ++ rest)
  | text {texts : List String} {rest : String} (text : String) (hrest : Shows texts rest) :
      Shows (text :: texts) (text ++ rest)

def Piece.text? : Piece → Option String
  | .predicate _ text => some text
  | _ => none

theorem Criteria.Shows.connector {texts : List String} {rest : String} (h : Shows texts rest)
    (connects : Bool) (logic : Logic) : Shows texts (Piece.connector connects logic ++ rest) := by
  unfold Piece.connector
  split
  · refine .glue _ ?_ h
    cases logic <;> decide
  · rwa [String.empty_append]

theorem Piece.shows_layout (pieces : List Piece) (started fresh : Bool) :
    Criteria.Shows (pieces.filterMap text?) (layout started fresh pieces) := by
  induction pieces generalizing started fresh with
  | nil => exact .done
  | cons p rest ih =>
    cases p with
    | opening logic =>
      rw [layout, String.append_assoc]
      exact ((ih true true).glue "(" (by decide)).connector _ logic
    | closing => exact (ih true false).glue ")" (by decide)
    | predicate logic text =>
      rw [layout, String.append_assoc]
      exact ((ih (started || text != "") false).text text).connector _ logic

theorem Condition.texts_pieces {ctx : Context} {isKey : String → Bool} {entries : List Condition}
    {pieces : List Piece} (h : Condition.pieces ctx isKey entries = .ok pieces) :
    (Criteria.mk entries).predicates.mapM (Predicate.text ctx isKey) =
      .ok (pieces.filterMap Piece.text?) := by
  induction entries generalizing pieces with
  | nil =>
    obtain rfl : [] = pieces := Except.ok.inj h
    rfl
  | cons entry entries ih =>
    obtain ⟨piece, hpiece, h⟩ := Outcome.bind_eq_ok.mp h
    obtain ⟨rest, hrest, h⟩ := Outcome.bind_eq_ok.mp h
    obtain rfl : piece :: rest = pieces := Except.ok.inj h
    have htexts := ih hrest
    cases entry with
    | predicate logic column op value =>
      rw [Condition.piece_eq logic ⟨column, op, value⟩] at hpiece
      obtain ⟨text, htext, hpiece⟩ := Outcome.bind_eq_ok.mp hpiece
      obtain rfl : Piece.predicate logic text = piece := Except.ok.inj hpiece
      simp only [Criteria.predicates, List.filterMap_cons, Condition.predicate?, Piece.text?,
        List.mapM_cons] at htexts ⊢
      rw [htext, htexts]
      rfl
    | opening logic =>
      obtain rfl : Piece.opening logic = piece := Except.ok.inj hpiece
      exact htexts
    | closing logic =>
      obtain rfl : Piece.closing = piece := Except.ok.inj hpiece
      exact htexts

theorem Outcome.mem_of_mapM {α β : Type} {f : α → Outcome β} {as : List α} {bs : List β}
    (h : as.mapM f = .ok bs) {a : α} (ha : a ∈ as) : ∃ b ∈ bs, f a = .ok b := by
  induction as generalizing bs with
  | nil => simp at ha
  | cons first as ih =>
    rw [List.mapM_cons] at h
    obtain ⟨b, hb, h⟩ := Outcome.bind_eq_ok.mp h
    obtain ⟨rest, hrest, h⟩ := Outcome.bind_eq_ok.mp h
    obtain rfl : b :: rest = bs := Except.ok.inj h
    rcases List.mem_cons.mp ha with rfl | ha
    · exact ⟨b, List.mem_cons_self, hb⟩
    · obtain ⟨b', hb', hf⟩ := ih hrest ha
      exact ⟨b', List.mem_cons_of_mem _ hb', hf⟩

theorem Criteria.shows_text {c : Criteria} {ctx : Context} {isKey : String → Bool} {s : String}
    (h : c.text ctx isKey = .ok s) :
    ∃ texts, c.predicates.mapM (Predicate.text ctx isKey) = .ok texts ∧ Shows texts s := by
  obtain ⟨entries⟩ := c
  obtain ⟨pieces, hpieces, h⟩ := Outcome.bind_eq_ok.mp h
  obtain rfl := Except.ok.inj h
  exact ⟨_, Condition.texts_pieces hpieces, Piece.shows_layout pieces false false⟩

/-! ## Predicates that show -/

namespace Text

def Visible (s : String) : Prop := ∃ c ∈ s.toList, isBlank c = false

theorem Visible.append_left {s : String} (h : Visible s) (t : String) : Visible (s ++ t) := by
  obtain ⟨c, hc, hvisible⟩ := h
  refine ⟨c, ?_, hvisible⟩
  rw [String.toList_append]
  exact List.mem_append_left _ hc

theorem Visible.append_right {s : String} (h : Visible s) (t : String) : Visible (t ++ s) := by
  obtain ⟨c, hc, hvisible⟩ := h
  refine ⟨c, ?_, hvisible⟩
  rw [String.toList_append]
  exact List.mem_append_right _ hc

theorem mem_trimStart {s : List Char} {c : Char} (hc : c ∈ s) (hvisible : isBlank c = false) :
    c ∈ trimStart s := by
  rw [← List.takeWhile_append_dropWhile (p := isBlank) (l := s)] at hc
  rcases List.mem_append.mp hc with hc | hc
  · exact absurd (List.mem_takeWhile_imp hc) (by simp [hvisible])
  · exact hc

theorem Visible.trim_ne {s : String} (h : Visible s) : trim s ≠ "" := by
  obtain ⟨c, hc, hvisible⟩ := h
  have hmem : c ∈ (trim s).toList := by
    rw [trim, String.toList_ofList, List.mem_reverse]
    exact mem_trimStart (List.mem_reverse.mpr (mem_trimStart hc hvisible)) hvisible
  intro hempty
  rw [hempty] at hmem
  simp at hmem

end Text

/-- The rules that come with the library: those of a dialect, and those of the Postgres adapter. -/
def Quoting.Provided (q : Quoting) : Prop :=
  (∃ (d : Dialect) (tablePrefix : String), q = d.quoting tablePrefix) ∨
    ∃ tablePrefix, q = Postgres.quoting tablePrefix

namespace Quoting

open Text (Visible)

variable {q : Quoting}

theorem Provided.visible_mark (h : q.Provided) : Visible q.mark := by
  have hmark (d : Dialect) : Visible d.mark := by
    cases d
    · exact ⟨'"', by decide, by decide⟩
    · exact ⟨'\x60', by decide, by decide⟩
  rcases h with ⟨d, tablePrefix, rfl⟩ | ⟨tablePrefix, rfl⟩
  · exact hmark d
  · exact hmark .standard

theorem visible_partText (h : Visible q.mark) (role : Role) (part : String) :
    Visible (q.partText role part) := by
  unfold partText wrap
  split
  · next hstar =>
    rw [hstar.2]
    exact ⟨'*', by decide, by decide⟩
  · exact h.append_right _

theorem visible_nameText (h : Visible q.mark) (role : Role) (name : String) :
    Visible (q.nameText role name) := by
  obtain ⟨part, parts, hparts⟩ := List.exists_cons_of_ne_nil (q.parts_ne_nil role name)
  have hpart := visible_partText h role part
  rw [nameText, hparts, List.map_cons]
  cases parts with
  | nil => simpa using hpart
  | cons next parts =>
    rw [List.map_cons, String.intercalate_cons_cons]
    exact (hpart.append_left _).append_left _

end Quoting

/-- A name that is not empty, with any aliases. -/
def Ident.Named : Ident → Prop
  | .name s => s ≠ ""
  | .aliased inner _ => inner.Named
  | .aliasName s => s ≠ ""
  | .fragment _ | .subquery _ => False

theorem Ident.visible_text {ctx : Context} (h : Text.Visible ctx.quoting.mark) {i : Ident}
    (hnamed : i.Named) {role : Role} {s : String} (hs : i.text ctx role = .ok s) :
    Text.Visible s := by
  cases i with
  | name n =>
    obtain rfl := Except.ok.inj hs
    exact Quoting.visible_nameText h role n
  | aliased inner name =>
    rw [Ident.text] at hs
    obtain ⟨text, -, hs⟩ := Outcome.bind_eq_ok.mp hs
    obtain rfl := Except.ok.inj hs
    have has : Text.Visible " AS " := ⟨'A', by decide, by decide⟩
    exact (has.append_right _).append_left _
  | aliasName n =>
    obtain rfl := Except.ok.inj hs
    exact Quoting.visible_nameText h _ n
  | fragment f => exact hnamed.elim
  | subquery q => exact hnamed.elim

theorem Ident.visible_subject {ctx : Context} (h : Text.Visible ctx.quoting.mark) {i : Ident}
    (hnamed : i.Named) {s : String} (hs : i.subject ctx = .ok s) : Text.Visible s := by
  cases i with
  | name n =>
    rw [Ident.subject, if_neg hnamed] at hs
    obtain rfl := Except.ok.inj hs
    exact Quoting.visible_nameText h .column n
  | aliased inner name =>
    rw [Ident.subject] at hs
    rw [Ident.Named] at hnamed
    exact visible_text h hnamed hs
  | aliasName n =>
    obtain rfl := Except.ok.inj hs
    exact Quoting.visible_nameText h _ n
  | fragment f => exact hnamed.elim
  | subquery q => exact hnamed.elim

theorem Predicate.text_ne_empty {ctx : Context} (h : Text.Visible ctx.quoting.mark) {p : Predicate}
    (hnamed : p.column.Named) {isKey : String → Bool} {s : String} (hs : p.text ctx isKey = .ok s) :
    s ≠ "" := by
  obtain ⟨right, -, hs⟩ := Outcome.bind_eq_ok.mp hs
  obtain ⟨left, hleft, hs⟩ := Outcome.bind_eq_ok.mp hs
  obtain rfl := Except.ok.inj hs
  have hvisible := Ident.visible_subject h hnamed hleft
  exact (((hvisible.append_left " ").append_left _).append_left " " |>.append_left right).trim_ne

theorem Criteria.Shows.ne_empty {texts : List String} {s : String} (h : Shows texts s)
    {t : String} (ht : t ∈ texts) (hne : t ≠ "") : s ≠ "" := by
  induction h with
  | done => simp at ht
  | glue glue hglue hrest ih =>
    have := ih ht
    simp [this]
  | text text hrest ih =>
    rcases List.mem_cons.mp ht with rfl | ht
    · simp [hne]
    · have := ih ht
      simp [this]

/-! ## The WHERE clause -/

namespace Usage

variable {b : Builder} {α : Type}

/-- A statement that was given a filter on a named column has a WHERE clause, and all filters that
it was given since its last reset stand there. -/
theorem where_kept {start : b.State} {ms : List (Method b α)} {s : Statement} {ctx : Context}
    {sql : String} (hstart : b.criteria start = .empty)
    (hstatement : b.statement? (run start ms).state = some s)
    (hnamed : ∃ p ∈ Criteria.added (filters ms), p.column.Named)
    (hquoting : ctx.quoting.Provided) (hsql : s.buildSql ctx = .ok sql) :
    ∃ (c : Clauses) (texts : List String),
      s.clauses ctx = .ok c ∧
        sql = c.front ++ " WHERE " ++ c.criteria ++ c.middle ++
          listClause " ORDER BY " ", " c.orderBy ++ c.behind ∧
        s.scope.criteria.compile ctx s.request.params = .ok c.criteria ∧
        (Criteria.added (filters ms)).mapM (Predicate.text ctx s.request.params.contains) =
          .ok texts ∧
        Criteria.Shows texts c.criteria := by
  rw [Statement.buildSql_eq] at hsql
  obtain ⟨c, hc, hsql⟩ := Outcome.bind_eq_ok.mp hsql
  obtain rfl : c.sql = sql := Except.ok.inj hsql
  obtain ⟨hcriteria, -, -⟩ := Statement.of_clauses hc
  have hadded : s.scope.criteria.predicates = Criteria.added (filters ms) := by
    have hrun := criteria_run start ms
    rw [hstart, Builder.criteria, hstatement] at hrun
    rw [← Criteria.predicates_run]
    exact congrArg Criteria.predicates hrun
  obtain ⟨texts, htexts, hshows⟩ := Criteria.shows_text hcriteria
  rw [hadded] at htexts
  have hne : c.criteria ≠ "" := by
    obtain ⟨p, hp, hcolumn⟩ := hnamed
    obtain ⟨text, hmem, htext⟩ := Outcome.mem_of_mapM htexts hp
    exact hshows.ne_empty hmem (Predicate.text_ne_empty hquoting.visible_mark hcolumn htext)
  refine ⟨c, texts, hc, ?_, hcriteria, htexts, hshows⟩
  simp only [Clauses.sql, clause, if_neg hne, String.append_assoc]

/-- One filter is forgotten. Then another stands between groups that do not match, and two groups
come to nothing. -/
def unmatched : List (Method .delete Unit) :=
  [.call (.scope (.filter (.add .and (.name "a") "=" .null))), .call .reset,
    .call (.table (.name "t")), .call (.scope (.filter (.closing .and))),
    .call (.scope (.filter (.opening .or))), .call (.scope (.filter (.opening .and))),
    .call (.scope (.filter (.closingEmpty .or))),
    .call (.scope (.filter (.add .and (.name "b") "!=" .null))),
    .call (.scope (.filter (.opening .or))), .call (.scope (.filter (.closingEmpty .and)))]

theorem where_kept_unmatched :
    ∃ (c : Clauses) (texts : List String),
      "DELETE FROM \"t\" WHERE ) OR (\"b\" IS NOT NULL" =
          c.front ++ " WHERE " ++ c.criteria ++ c.middle ++
            listClause " ORDER BY " ", " c.orderBy ++ c.behind ∧
        texts = ["\"b\" IS NOT NULL"] ∧ Criteria.Shows texts c.criteria := by
  have hstart : Builder.delete.criteria ({} : Delete) = .empty := rfl
  have hadded : Criteria.added (filters unmatched) = [⟨.name "b", "!=", .null⟩] := rfl
  have hnamed : ∃ p ∈ Criteria.added (filters unmatched), p.column.Named := by
    rw [hadded]
    exact ⟨_, List.mem_singleton_self _, by simp [Ident.Named]⟩
  have hquoting : (Dialect.standard.quoting "").Provided := .inl ⟨.standard, "", rfl⟩
  have hsql : (Statement.delete (run ({} : Delete) unmatched).state).buildSql
      ⟨Dialect.standard.quoting "", fun _ => .ok "NULL"⟩ =
        .ok "DELETE FROM \"t\" WHERE ) OR (\"b\" IS NOT NULL" := rfl
  obtain ⟨c, texts, -, hclauses, -, htexts, hshows⟩ :=
    where_kept hstart rfl hnamed hquoting hsql
  exact ⟨c, texts, hclauses, (Except.ok.inj htexts).symm, hshows⟩

end Usage

end SqlComposer
