import Mathlib.Data.Set.Insert
import SqlComposer.Proofs.Grammar
import SqlComposer.Proofs.Policy

/-!
# Other texts in a statement

Every text value of a statement has a path. Retexting puts another text at each path and leaves the
rest alone. All texts are written, except those for a column that is assigned again.
-/

namespace SqlComposer

/-- The steps that lead to a text value, the last one first. -/
abbrev Path := List Nat

/-- Another text for the one at a path. -/
abbrev Retexting := Path → String → String

mutual
variable (g : Retexting)

def Value.retext (path : Path) : Value → Value
  | .null => .null
  | .bool b => .bool b
  | .int n => .int n
  | .float x => .float x
  | .text s => .text (g path s)
  | .list items => .list (Value.retextAll path 0 items)
  | .pair low high => .pair (low.retext (0 :: path)) (high.retext (1 :: path))
  | .fragment f => .fragment f
  | .subquery s => .subquery (s.retext path)

def Value.retextAll (path : Path) : Nat → List Value → List Value
  | _, [] => []
  | i, v :: rest => v.retext (i :: path) :: Value.retextAll path (i + 1) rest

def Condition.retext (path : Path) : Condition → Condition
  | .opening logic => .opening logic
  | .closing logic => .closing logic
  | .predicate logic column op value => .predicate logic column op (value.retext path)

def Condition.retextAll (path : Path) : Nat → List Condition → List Condition
  | _, [] => []
  | i, c :: rest => c.retext (i :: path) :: Condition.retextAll path (i + 1) rest

def Criteria.retext (path : Path) : Criteria → Criteria
  | ⟨entries⟩ => ⟨Condition.retextAll path 0 entries⟩

def BranchSource.retext (path : Path) : BranchSource → BranchSource
  | .table t => .table t
  | .select s => .select (s.retext path)
  | .query q => .query q

def Branch.retext (path : Path) : Branch → Branch
  | ⟨source, all⟩ => ⟨source.retext path, all⟩

def Branch.retextAll (path : Path) : Nat → List Branch → List Branch
  | _, [] => []
  | i, b :: rest => b.retext (i :: path) :: Branch.retextAll path (i + 1) rest

def Select.retext (path : Path) : Select → Select
  | ⟨distinct, columns, tables, joins, ⟨criteria, orderBy, limit⟩, groupBy, having, offset, unions,
      request⟩ =>
    ⟨distinct, columns, tables, joins, ⟨criteria.retext (0 :: path), orderBy, limit⟩, groupBy,
      having.retext (1 :: path), offset, Branch.retextAll (2 :: path) 0 unions, request⟩

end

variable (g : Retexting)

def RowSource.retextRows : Nat → List (List Value) → List (List Value)
  | _, [] => []
  | i, row :: rest => Value.retextAll g [i] 0 row :: retextRows (i + 1) rest

def RowSource.retext : RowSource → RowSource
  | .values rows => .values (retextRows g 0 rows)
  | .query (.select s) => .query (.select (s.retext g []))
  | .query (.query q) => .query (.query q)

def Assignment.retextAll : Nat → List Assignment → List Assignment
  | _, [] => []
  | i, a :: rest => ⟨a.column, a.value.retext g [i, 0]⟩ :: retextAll (i + 1) rest

def Scope.retext (s : Scope) : Scope := { s with criteria := s.criteria.retext g [1] }

def Statement.retext : Statement → Statement
  | .raw q => .raw q
  | .select s => .select (s.retext g [])
  | .insert i => .insert { i with source := i.source.retext g }
  | .update u =>
    .update { u with
      assignments := Assignment.retextAll g 0 u.assignments
      scope := u.scope.retext g }
  | .delete d => .delete { d with scope := d.scope.retext g }

def Retexting.keep : Retexting := fun _ s => s

/-! ## The texts that are written -/

/-- Text values by their paths. -/
abbrev Texts := Set (Path × String)

mutual

def Value.written (path : Path) : Value → Texts
  | .text s => {(path, s)}
  | .list items => Value.writtenAll path 0 items
  | .pair low high => low.written (0 :: path) ∪ high.written (1 :: path)
  | .subquery s => s.written path
  | .null | .bool _ | .int _ | .float _ | .fragment _ => ∅

def Value.writtenAll (path : Path) : Nat → List Value → Texts
  | _, [] => ∅
  | i, v :: rest => v.written (i :: path) ∪ Value.writtenAll path (i + 1) rest

def Condition.written (path : Path) : Condition → Texts
  | .opening _ | .closing _ => ∅
  | .predicate _ _ _ value => value.written path

def Condition.writtenAll (path : Path) : Nat → List Condition → Texts
  | _, [] => ∅
  | i, c :: rest => c.written (i :: path) ∪ Condition.writtenAll path (i + 1) rest

def Criteria.written (path : Path) : Criteria → Texts
  | ⟨entries⟩ => Condition.writtenAll path 0 entries

def BranchSource.written (path : Path) : BranchSource → Texts
  | .table _ | .query _ => ∅
  | .select s => s.written path

def Branch.written (path : Path) : Branch → Texts
  | ⟨source, _⟩ => source.written path

def Branch.writtenAll (path : Path) : Nat → List Branch → Texts
  | _, [] => ∅
  | i, b :: rest => b.written (i :: path) ∪ Branch.writtenAll path (i + 1) rest

def Select.written (path : Path) : Select → Texts
  | ⟨_, _, _, _, ⟨criteria, _, _⟩, _, having, _, unions, _⟩ =>
    criteria.written (0 :: path) ∪ having.written (1 :: path) ∪
      Branch.writtenAll (2 :: path) 0 unions

end

def RowSource.writtenRows : Nat → List (List Value) → Texts
  | _, [] => ∅
  | i, row :: rest => Value.writtenAll [i] 0 row ∪ writtenRows (i + 1) rest

def RowSource.written : RowSource → Texts
  | .values rows => writtenRows 0 rows
  | .query (.select s) => s.written []
  | .query (.query _) => ∅

/-- No text of an assignment is written if the column is assigned again. -/
def Assignment.writtenAll (ctx : Context) : Nat → List Assignment → Texts
  | _, [] => ∅
  | i, a :: rest =>
    let column := a.column.text ctx .column
    {t ∈ a.value.written [i, 0] | ∀ b ∈ rest, b.column.text ctx .column ≠ column} ∪
      writtenAll ctx (i + 1) rest

def Scope.written (s : Scope) : Texts := s.criteria.written [1]

def Statement.written (ctx : Context) : Statement → Texts
  | .raw _ => ∅
  | .select s => s.written []
  | .insert i => i.source.written
  | .update u => Assignment.writtenAll ctx 0 u.assignments ∪ u.scope.written
  | .delete d => d.scope.written

/-! ## Texts that stay -/

mutual

theorem Value.retext_keep (path : Path) : (v : Value) → v.retext .keep path = v
  | .null | .bool _ | .int _ | .float _ | .text _ | .fragment _ => rfl
  | .list items => congrArg Value.list (Value.retextAll_keep path 0 items)
  | .pair low high =>
    congrArg₂ Value.pair (Value.retext_keep (0 :: path) low) (Value.retext_keep (1 :: path) high)
  | .subquery s => congrArg Value.subquery (Select.retext_keep path s)

theorem Value.retextAll_keep (path : Path) (i : Nat) :
    (vs : List Value) → Value.retextAll .keep path i vs = vs
  | [] => rfl
  | v :: rest =>
    congrArg₂ List.cons (Value.retext_keep (i :: path) v) (Value.retextAll_keep path (i + 1) rest)

theorem Condition.retext_keep (path : Path) : (c : Condition) → c.retext .keep path = c
  | .opening _ | .closing _ => rfl
  | .predicate logic column op value =>
    congrArg (Condition.predicate logic column op) (Value.retext_keep path value)

theorem Condition.retextAll_keep (path : Path) (i : Nat) :
    (cs : List Condition) → Condition.retextAll .keep path i cs = cs
  | [] => rfl
  | c :: rest => congrArg₂ List.cons (Condition.retext_keep (i :: path) c)
      (Condition.retextAll_keep path (i + 1) rest)

theorem Criteria.retext_keep (path : Path) : (c : Criteria) → c.retext .keep path = c
  | ⟨entries⟩ => congrArg Criteria.mk (Condition.retextAll_keep path 0 entries)

theorem BranchSource.retext_keep (path : Path) : (b : BranchSource) → b.retext .keep path = b
  | .table _ | .query _ => rfl
  | .select s => congrArg BranchSource.select (Select.retext_keep path s)

theorem Branch.retext_keep (path : Path) : (b : Branch) → b.retext .keep path = b
  | ⟨source, all⟩ => congrArg (Branch.mk · all) (BranchSource.retext_keep path source)

theorem Branch.retextAll_keep (path : Path) (i : Nat) :
    (bs : List Branch) → Branch.retextAll .keep path i bs = bs
  | [] => rfl
  | b :: rest => congrArg₂ List.cons (Branch.retext_keep (i :: path) b)
      (Branch.retextAll_keep path (i + 1) rest)

theorem Select.retext_keep (path : Path) : (s : Select) → s.retext .keep path = s
  | ⟨_, _, _, _, ⟨criteria, _, _⟩, _, having, _, unions, _⟩ => by
    rw [Select.retext, Criteria.retext_keep (0 :: path) criteria,
      Criteria.retext_keep (1 :: path) having, Branch.retextAll_keep (2 :: path) 0 unions]

end

theorem RowSource.retext_keep (source : RowSource) : source.retext .keep = source := by
  have hrows : ∀ i rows, retextRows .keep i rows = rows := by
    intro i rows
    induction rows generalizing i with
    | nil => rfl
    | cons row rest ih => rw [retextRows, Value.retextAll_keep, ih]
  cases source with
  | values rows => rw [retext, hrows]
  | query q =>
    cases q with
    | select s => rw [retext, Select.retext_keep]
    | query q => rfl

theorem Assignment.retextAll_keep (i : Nat) (as : List Assignment) :
    Assignment.retextAll .keep i as = as := by
  induction as generalizing i with
  | nil => rfl
  | cons a rest ih => rw [retextAll, Value.retext_keep, ih]

theorem Scope.retext_keep (s : Scope) : s.retext .keep = s := by
  cases s
  rw [retext, Criteria.retext_keep]

theorem Statement.retext_keep (s : Statement) : s.retext .keep = s := by
  cases s with
  | raw q => rfl
  | select s => rw [retext, Select.retext_keep]
  | insert i => rw [retext, RowSource.retext_keep]
  | update u => rw [retext, Assignment.retextAll_keep, Scope.retext_keep]
  | delete d => rw [retext, Scope.retext_keep]

/-! ## What retexting keeps -/

theorem Value.isNull_retext (path : Path) (v : Value) : (v.retext g path).isNull = v.isNull := by
  cases v <;> rfl

theorem Value.isEmptyList_retext (path : Path) (v : Value) :
    (v.retext g path).isEmptyList = v.isEmptyList := by
  cases v with
  | list items => cases items <;> rfl
  | _ => rfl

theorem Value.written_of_isEmptyList {path : Path} {v : Value} (h : v.isEmptyList = true) :
    v.written path = ∅ := by
  cases v with
  | list items =>
    cases items with
    | nil => rfl
    | cons => exact nomatch h
  | _ => exact nomatch h

theorem operator_retext (path : Path) (op : String) (v : Value) :
    operator op (v.retext g path) = operator op v := by
  unfold operator
  rw [v.isNull_retext]

theorem Condition.climb_retextAll (path : Path) (i n : Nat) (entries : List Condition) :
    Condition.climb n (Condition.retextAll g path i entries) = Condition.climb n entries := by
  induction entries generalizing i n with
  | nil => cases n <;> rfl
  | cons c rest ih =>
    cases c with
    | closing logic =>
      cases n with
      | zero => rfl
      | succ n => exact ih (i + 1) n
    | opening logic => exact ih (i + 1) (n + 1)
    | predicate logic column op value => cases n <;> exact ih (i + 1) _

/-! ## Policies that let any text occur -/

/-- Texts may be anything, and groups are judged without them. -/
structure Policy.AnyText (p : Policy) : Prop where
  text : ∀ s, p.text s
  groups : ∀ (g : Retexting) path entries, p.groups entries →
    p.groups (Condition.retextAll g path 0 entries)

variable {p : Policy} {g}

theorem operand_iff (ht : p.AnyText) {isKey : String → Bool} (v : Value) :
    p.operand isKey v (v.Obeys p) ↔ v.Obeys p := by
  cases v with
  | text s => exact ⟨fun _ => ht.text s, fun _ => Or.inr (ht.text s)⟩
  | _ => exact Iff.rfl

theorem bounds_iff (ht : p.AnyText) {isKey : String → Bool} (v : Value) :
    (v.BoundsObey p isKey).getD (p.operand isKey v (v.Obeys p)) ↔ v.Obeys p := by
  unfold Value.BoundsObey
  split
  · next low high =>
    rw [Option.getD_some, operand_iff ht, operand_iff ht]
    rfl
  · next low high =>
    rw [Option.getD_some, operand_iff ht, operand_iff ht]
    simp [Value.Obeys, Value.AllObey]
  · exact operand_iff ht v

theorem predicate_iff (ht : p.AnyText) {isKey : String → Bool} (logic : Logic) (column : Ident)
    (op : String) (v : Value) : (Condition.predicate logic column op v).Obeys p isKey ↔
      column.Obeys p ∧ p.operator op ∧ v.Obeys p := by
  unfold Condition.Obeys
  split
  · rw [bounds_iff ht]
  · rw [operand_iff ht]

mutual

theorem Value.retext_obeys (ht : p.AnyText) (path : Path) :
    (v : Value) → v.Obeys p → (v.retext g path).Obeys p
  | .null, _ | .bool _, _ | .int _, _ | .float _, _ => trivial
  | .text _, _ => ht.text _
  | .list items, h => Value.retextAll_obey ht path 0 items h
  | .pair low high, h =>
    ⟨Value.retext_obeys ht (0 :: path) low h.1, Value.retext_obeys ht (1 :: path) high h.2⟩
  | .fragment _, h => h
  | .subquery s, h => ⟨h.1, Select.retext_obeys ht path s h.2⟩

theorem Value.retextAll_obey (ht : p.AnyText) (path : Path) (i : Nat) :
    (vs : List Value) → Value.AllObey p vs → Value.AllObey p (Value.retextAll g path i vs)
  | [], _ => trivial
  | v :: rest, h =>
    ⟨Value.retext_obeys ht (i :: path) v h.1, Value.retextAll_obey ht path (i + 1) rest h.2⟩

theorem Condition.retext_obeys (ht : p.AnyText) (isKey : String → Bool) (path : Path) :
    (c : Condition) → c.Obeys p isKey → (c.retext g path).Obeys p isKey
  | .opening _, _ | .closing _, _ => trivial
  | .predicate logic column op value, h => by
    rw [predicate_iff ht] at h
    rw [Condition.retext, predicate_iff ht]
    exact ⟨h.1, h.2.1, Value.retext_obeys ht path value h.2.2⟩

theorem Condition.retextAll_obey (ht : p.AnyText) (isKey : String → Bool) (path : Path) (i : Nat) :
    (cs : List Condition) → Condition.AllObey p isKey cs →
      Condition.AllObey p isKey (Condition.retextAll g path i cs)
  | [], _ => trivial
  | c :: rest, h => ⟨Condition.retext_obeys ht isKey (i :: path) c h.1,
      Condition.retextAll_obey ht isKey path (i + 1) rest h.2⟩

theorem Criteria.retext_obeys (ht : p.AnyText) (isKey : String → Bool) (path : Path) :
    (c : Criteria) → c.Obeys p isKey → (c.retext g path).Obeys p isKey
  | ⟨entries⟩, h =>
    ⟨ht.groups g path entries h.1, Condition.retextAll_obey ht isKey path 0 entries h.2⟩

theorem BranchSource.retext_obeys (ht : p.AnyText) (path : Path) :
    (b : BranchSource) → b.Obeys p → (b.retext g path).Obeys p
  | .table _, h => h
  | .select s, h => ⟨h.1, Select.retext_obeys ht path s h.2⟩
  | .query _, h => h

theorem Branch.retext_obeys (ht : p.AnyText) (path : Path) :
    (b : Branch) → b.Obeys p → (b.retext g path).Obeys p
  | ⟨source, _⟩, h => BranchSource.retext_obeys ht path source h

theorem Branch.retextAll_obey (ht : p.AnyText) (path : Path) (i : Nat) :
    (bs : List Branch) → Branch.AllObey p bs → Branch.AllObey p (Branch.retextAll g path i bs)
  | [], _ => trivial
  | b :: rest, h =>
    ⟨Branch.retext_obeys ht (i :: path) b h.1, Branch.retextAll_obey ht path (i + 1) rest h.2⟩

theorem Select.retext_obeys (ht : p.AnyText) (path : Path) :
    (s : Select) → s.Obeys p → (s.retext g path).Obeys p
  | ⟨_, _, _, _, ⟨criteria, _, _⟩, _, having, _, unions, ⟨params, _, _⟩⟩, h => by
    obtain ⟨hcolumns, htables, hjoins, hcriteria, hgroup, hhaving, horder, hunions, hparams⟩ := h
    exact ⟨hcolumns, htables, hjoins,
      Criteria.retext_obeys ht params.contains (0 :: path) criteria hcriteria, hgroup,
      Criteria.retext_obeys ht params.contains (1 :: path) having hhaving, horder,
      Branch.retextAll_obey ht (2 :: path) 0 unions hunions, hparams⟩

end

theorem values_iff (ht : p.AnyText) {isKey : String → Bool} (rows : List (List Value)) :
    (RowSource.values rows).Obeys p isKey ↔ ∀ row ∈ rows, Value.AllObey p row := by
  have hrow : ∀ row : List Value,
      (∀ v ∈ row, p.operand isKey v (v.Obeys p)) ↔ Value.AllObey p row := by
    intro row
    induction row with
    | nil => simp [Value.AllObey]
    | cons v row ih => rw [List.forall_mem_cons, ih, operand_iff ht, Value.AllObey]
  exact forall₂_congr fun row _ => hrow row

theorem RowSource.retextRows_obey (ht : p.AnyText) (i : Nat) (rows : List (List Value))
    (h : ∀ row ∈ rows, Value.AllObey p row) :
    ∀ row ∈ retextRows g i rows, Value.AllObey p row := by
  induction rows generalizing i with
  | nil => simp [retextRows]
  | cons row rest ih =>
    rw [List.forall_mem_cons] at h
    rw [retextRows, List.forall_mem_cons]
    exact ⟨Value.retextAll_obey ht [i] 0 row h.1, ih (i + 1) h.2⟩

theorem RowSource.retext_obeys (ht : p.AnyText) (isKey : String → Bool) (source : RowSource)
    (h : source.Obeys p isKey) : (source.retext g).Obeys p isKey := by
  cases source with
  | values rows =>
    rw [values_iff ht] at h
    rw [retext, values_iff ht]
    exact retextRows_obey ht 0 rows h
  | query q =>
    cases q with
    | select s => exact ⟨h.1, Select.retext_obeys ht [] s h.2⟩
    | query q => exact h

theorem Assignment.retextAll_obey (ht : p.AnyText) (isKey : String → Bool) (i : Nat)
    (as : List Assignment) (h : ∀ a ∈ as, a.Obeys p isKey) :
    ∀ a ∈ Assignment.retextAll g i as, a.Obeys p isKey := by
  induction as generalizing i with
  | nil => simp [retextAll]
  | cons a rest ih =>
    rw [List.forall_mem_cons] at h
    rw [retextAll, List.forall_mem_cons]
    refine ⟨⟨h.1.1, ?_⟩, ih (i + 1) h.2⟩
    rw [operand_iff ht]
    exact Value.retext_obeys ht _ a.value ((operand_iff ht _).mp h.1.2)

theorem Scope.retext_obeys (ht : p.AnyText) (isKey : String → Bool) (s : Scope)
    (h : s.Obeys p isKey) : (s.retext g).Obeys p isKey :=
  ⟨Criteria.retext_obeys ht isKey [1] s.criteria h.1, h.2⟩

theorem Statement.retext_obeys (ht : p.AnyText) (s : Statement) (h : s.Obeys p) :
    (s.retext g).Obeys p := by
  cases s with
  | raw q => exact h
  | select s => exact Select.retext_obeys ht [] s h
  | insert i =>
    obtain ⟨htable, hcolumns, hsource, hparams⟩ := h
    exact ⟨htable, hcolumns, RowSource.retext_obeys ht _ i.source hsource, hparams⟩
  | update u =>
    obtain ⟨htable, hassignments, hscope, hparams⟩ := h
    exact ⟨htable, Assignment.retextAll_obey ht _ 0 u.assignments hassignments,
      Scope.retext_obeys ht _ u.scope hscope, hparams⟩
  | delete d =>
    obtain ⟨htable, hscope, hparams⟩ := h
    exact ⟨htable, Scope.retext_obeys ht _ d.scope hscope, hparams⟩

end SqlComposer
