import SqlComposer.Statement

/-!
# What may occur in a statement

A policy says what may occur in a statement: which names, operators, texts and keys, and whether
raw SQL and queries may. A statement obeys it when everything in it does, at any depth. A query
has parameters of its own, so the texts that stand for them are judged query by query.
-/

namespace SqlComposer

structure Policy where
  name : String → Prop
  operator : String → Prop
  joinKind : String → Prop
  /-- Text values that stand for no parameter. -/
  text : String → Prop
  key : String → Prop
  /-- The cells that parameters are bound to. -/
  cell : CellId → Prop
  /-- The entries of a condition list, taken together. -/
  groups : List Condition → Prop
  raw : Prop
  /-- Queries in the place of a name. -/
  asName : Prop
  /-- Queries as values, as branches of a UNION and as the rows of an INSERT. -/
  asRows : Prop
  /-- Whether the values of parameters are judged, too. -/
  values : Prop

/-- An operand may be text that is a key. All else is judged `within`. -/
def Policy.operand (p : Policy) (isKey : String → Bool) (v : Value) (within : Prop) : Prop :=
  match v with
  | .text s => isKey s = true ∨ p.text s
  | _ => within

mutual
variable (p : Policy)

def Value.Obeys : Value → Prop
  | .null => True
  | .bool _ => True
  | .int _ => True
  | .float _ => True
  | .text s => p.text s
  | .list items => Value.AllObey items
  | .pair low high => low.Obeys ∧ high.Obeys
  | .fragment _ => p.raw
  | .subquery s => p.asRows ∧ s.Obeys

def Value.AllObey : List Value → Prop
  | [] => True
  | v :: rest => v.Obeys ∧ Value.AllObey rest

def Value.BoundsObey (isKey : String → Bool) : Value → Option Prop
  | .pair low high => some (p.operand isKey low low.Obeys ∧ p.operand isKey high high.Obeys)
  | .list [low, high] => some (p.operand isKey low low.Obeys ∧ p.operand isKey high high.Obeys)
  | _ => none

def Param.Obeys : Param → Prop
  | .value key v => p.key key ∧ (p.values → v.Obeys)
  | .cell key id => p.key key ∧ (p.values → p.cell id)

def Param.AllObey : List Param → Prop
  | [] => True
  | q :: rest => q.Obeys ∧ Param.AllObey rest

def Params.Obeys : Params → Prop
  | ⟨entries⟩ => Param.AllObey entries

def Ident.Obeys : Ident → Prop
  | .name s => p.name s
  | .aliased inner name => inner.Obeys ∧ p.name name
  | .aliasName s => p.name s
  | .fragment _ => p.raw
  | .subquery s => p.asName ∧ s.Obeys

def Ident.AllObey : List Ident → Prop
  | [] => True
  | i :: rest => i.Obeys ∧ Ident.AllObey rest

def Condition.Obeys (isKey : String → Bool) : Condition → Prop
  | .opening _ => True
  | .closing _ => True
  | .predicate _ column op value =>
    column.Obeys ∧ p.operator op ∧
      if SqlComposer.operator op value = "BETWEEN" then
        (value.BoundsObey isKey).getD (p.operand isKey value value.Obeys)
      else
        p.operand isKey value value.Obeys

def Condition.AllObey (isKey : String → Bool) : List Condition → Prop
  | [] => True
  | c :: rest => c.Obeys isKey ∧ Condition.AllObey isKey rest

def Criteria.Obeys (isKey : String → Bool) : Criteria → Prop
  | ⟨entries⟩ => p.groups entries ∧ Condition.AllObey isKey entries

def OnPair.Obeys : OnPair → Prop
  | ⟨left, op, right⟩ => left.Obeys ∧ p.operator op ∧ right.Obeys

def OnPair.AllObey : List OnPair → Prop
  | [] => True
  | q :: rest => q.Obeys ∧ OnPair.AllObey rest

def JoinCondition.Obeys : JoinCondition → Prop
  | .free => True
  | .on pairs => OnPair.AllObey pairs
  | .using columns => Ident.AllObey columns

def Join.Obeys : Join → Prop
  | ⟨table, kind, condition⟩ => table.Obeys ∧ (∀ k, kind = some k → p.joinKind k) ∧ condition.Obeys

def Join.AllObey : List Join → Prop
  | [] => True
  | j :: rest => j.Obeys ∧ Join.AllObey rest

def SortKey.Obeys : SortKey → Prop
  | ⟨column, _⟩ => column.Obeys

def SortKey.AllObey : List SortKey → Prop
  | [] => True
  | k :: rest => k.Obeys ∧ SortKey.AllObey rest

def BranchSource.Obeys : BranchSource → Prop
  | .table t => t.Obeys
  | .select s => p.asRows ∧ s.Obeys
  | .query _ => p.raw

def Branch.Obeys : Branch → Prop
  | ⟨source, _⟩ => source.Obeys

def Branch.AllObey : List Branch → Prop
  | [] => True
  | b :: rest => b.Obeys ∧ Branch.AllObey rest

def Select.Obeys : Select → Prop
  | ⟨_, columns, tables, joins, ⟨criteria, orderBy, _⟩, groupBy, having, _, unions,
      ⟨params, _, _⟩⟩ =>
    Ident.AllObey columns ∧ Ident.AllObey tables ∧ Join.AllObey joins ∧
      criteria.Obeys params.contains ∧ Ident.AllObey groupBy ∧ having.Obeys params.contains ∧
      SortKey.AllObey orderBy ∧ Branch.AllObey unions ∧ params.Obeys

end

variable {p : Policy}

theorem Params.Obeys.key {params : Params} (h : params.Obeys p) {key : String}
    (hkey : params.contains key = true) : p.key key := by
  obtain ⟨entries⟩ := params
  induction entries with
  | nil => simp [Params.contains] at hkey
  | cons q rest ih =>
    simp only [Params.Obeys, Param.AllObey] at h ih
    simp only [Params.contains, List.any_cons, Bool.or_eq_true] at hkey ih
    rcases hkey with hq | hrest
    · cases q <;> exact beq_iff_eq.mp hq ▸ h.1.1
    · exact ih h.2 hrest

theorem operand_of_obeys {isKey : String → Bool} {v : Value} (h : v.Obeys p) :
    p.operand isKey v (v.Obeys p) := by
  cases v with
  | text s => exact Or.inr h
  | _ => exact h

/-! ## Statements -/

variable (p)

def Scope.Obeys (isKey : String → Bool) (s : Scope) : Prop :=
  s.criteria.Obeys p isKey ∧ SortKey.AllObey p s.orderBy

def RowSource.Obeys (isKey : String → Bool) : RowSource → Prop
  | .values rows => ∀ row ∈ rows, ∀ v ∈ row, p.operand isKey v (v.Obeys p)
  | .query (.select s) => p.asRows ∧ s.Obeys p
  | .query (.query _) => p.raw

def Insert.Obeys (i : Insert) : Prop :=
  (∀ t, i.table = some t → t.Obeys p) ∧ Ident.AllObey p i.columns ∧
    i.source.Obeys p i.request.params.contains ∧ i.request.params.Obeys p

def Assignment.Obeys (isKey : String → Bool) (a : Assignment) : Prop :=
  a.column.Obeys p ∧ p.operand isKey a.value (a.value.Obeys p)

def Update.Obeys (u : Update) : Prop :=
  (∀ t, u.table = some t → t.Obeys p) ∧
    (∀ a ∈ u.assignments, a.Obeys p u.request.params.contains) ∧
    u.scope.Obeys p u.request.params.contains ∧ u.request.params.Obeys p

def Delete.Obeys (d : Delete) : Prop :=
  (∀ t, d.table = some t → t.Obeys p) ∧ d.scope.Obeys p d.request.params.contains ∧
    d.request.params.Obeys p

/-- A statement that a builder made obeys a policy when everything in it does. No statement
written by hand does. -/
def Statement.Obeys : Statement → Prop
  | .raw _ => False
  | .select s => s.Obeys p
  | .insert i => i.Obeys p
  | .update u => u.Obeys p
  | .delete d => d.Obeys p

end SqlComposer
