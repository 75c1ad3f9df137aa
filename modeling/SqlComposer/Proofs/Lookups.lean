import SqlComposer.Proofs.Direct

/-!
# What is looked up

Rendering looks up the cells one by one, and goes on with the text of each until one of them has
none. So it takes nothing from the cells but the answers to these look-ups, and what it gives stays
as it is when cells that it could do without get a text.
-/

namespace SqlComposer

/-- The answers to the look-ups: the text of each cell, or why it has none. -/
abbrev Lookup := CellId → Outcome String

/-- A result that comes from look-ups, one after the other. The first one without a text decides. -/
inductive Asks {α : Type} : (Lookup → Outcome α) → Prop where
  | ok (a : α) : Asks fun _ => .ok a
  | fails (e : Error) : Asks fun _ => .error (.error e)
  | ask (id : CellId) {next : String → Lookup → Outcome α} (h : ∀ s, Asks (next s)) :
      Asks fun cell => cell id >>= fun s => next s cell

namespace Asks

variable {α β : Type} {f : Lookup → Outcome α}

theorem cell (id : CellId) : Asks fun cell => cell id := by
  have hask : Asks fun cell => cell id >>= fun s => pure s := .ask id fun s => .ok s
  simpa only [bind_pure] using hask

theorem bind {g : α → Lookup → Outcome β} (hf : Asks f) (hg : ∀ a, Asks (g a)) :
    Asks fun cell => f cell >>= fun a => g a cell := by
  induction hf with
  | ok a => exact hg a
  | fails e => exact .fails e
  | ask id _ ih =>
    have hask := Asks.ask id ih
    simpa only [bind_assoc] using hask

theorem map (hf : Asks f) (g : α → β) : Asks fun cell => f cell >>= fun a => pure (g a) :=
  hf.bind fun a => .ok (g a)

theorem consM {g : Lookup → Outcome (List α)} (hf : Asks f) (hg : Asks g) :
    Asks fun cell => f cell >>= fun a => g cell >>= fun as => pure (a :: as) :=
  hf.bind fun a => hg.map (a :: ·)

theorem mapM {f : β → Lookup → Outcome α} (h : ∀ b, Asks (f b)) (bs : List β) :
    Asks fun cell => bs.mapM fun b => f b cell := by
  induction bs with
  | nil => exact .ok []
  | cons b bs ih =>
    simp only [List.mapM_cons]
    exact (h b).consM ih

theorem operand {f : Lookup → Outcome String} (hf : Asks f) (isKey : String → Bool) (v : Value) :
    Asks fun cell => operand isKey v (f cell) := by
  unfold SqlComposer.operand
  split
  · split
    · exact .ok _
    · exact hf
  · exact hf

theorem pair {f g : Lookup → Outcome String} (hf : Asks f) (hg : Asks g) :
    Asks fun cell => f cell >>= fun s => g cell >>= fun t => pure (s ++ " AND " ++ t) :=
  hf.bind fun s => hg.map (s ++ " AND " ++ ·)

theorem enclosed {f : Lookup → Outcome Template}
    (hf : Asks fun cell => f cell >>= Template.fill) :
    Asks fun cell => do return parenthesized (← (← f cell).fill) := by
  have henclosed := hf.map parenthesized
  simpa only [bind_assoc] using henclosed

theorem directed (column : String) (d : Option String) : Asks fun _ => directed column d := by
  simp only [SqlComposer.directed]
  split
  · exact .ok _
  · split
    · exact .ok _
    · exact .fails _

end Asks

/-- Bounds that are there or not, whatever the look-ups give. -/
inductive AsksBounds {α : Type} : (Lookup → Option (Outcome α)) → Prop where
  | none : AsksBounds fun _ => none
  | some {f : Lookup → Outcome α} (h : Asks f) : AsksBounds fun cell => some (f cell)

theorem AsksBounds.rightSide {α : Type} {bounds : Lookup → Option (Outcome α)}
    {whole : Lookup → Outcome α} (hbounds : AsksBounds bounds) (hwhole : Asks whole) (op : String)
    (v : Value) (empty : α) :
    Asks fun cell => rightSide op v empty (bounds cell) (whole cell) := by
  unfold SqlComposer.rightSide
  split
  · cases hbounds with
    | none => exact hwhole
    | some h => exact h
  · split
    · exact .ok _
    · exact hwhole

/-! ## Terms -/

mutual
variable (q : Quoting)

theorem Value.asks : (v : Value) → Asks fun cell => v.quote ⟨q, cell⟩
  | .null => .ok _
  | .bool b => .ok (q.boolText b)
  | .int _ => .ok _
  | .float x => .ok (q.floatText x)
  | .text s => .ok (q.literal s)
  | .list items => by
    unfold Value.quote
    exact (Value.asksAll items).map _
  | .pair low high => by
    unfold Value.quote
    exact (Value.asks low).pair (Value.asks high)
  | .fragment f => by
    unfold Value.quote
    exact Fragment.asks f
  | .subquery s => by
    unfold Value.quote
    exact (Select.asks s).enclosed

theorem Value.asksAll : (vs : List Value) → Asks fun cell => Value.quoteAll ⟨q, cell⟩ vs
  | [] => .ok _
  | v :: rest => by
    unfold Value.quoteAll
    exact (Value.asks v).consM (Value.asksAll rest)

theorem Value.asksBounds (isKey : String → Bool) : (v : Value) →
    AsksBounds fun cell => v.bounds ⟨q, cell⟩ isKey
  | .pair low high => by
    unfold Value.bounds
    exact .some (((Value.asks low).operand isKey low).pair
      ((Value.asks high).operand isKey high))
  | .list [low, high] => by
    unfold Value.bounds
    exact .some (((Value.asks low).operand isKey low).pair
      ((Value.asks high).operand isKey high))
  | .null | .bool _ | .int _ | .float _ | .text _ | .fragment _ | .subquery _ | .list []
  | .list [_] | .list (_ :: _ :: _ :: _) => .none

theorem Param.asks : (p : Param) → Asks fun cell => p.replacement ⟨q, cell⟩
  | .value key v => by
    unfold Param.replacement
    split
    · exact .ok _
    · exact (Value.asks v).map _
  | .cell key id => by
    unfold Param.replacement
    split
    · exact .ok _
    · exact (Asks.cell id).map _

theorem Param.asksAll : (ps : List Param) → Asks fun cell => Param.replacements ⟨q, cell⟩ ps
  | [] => .ok _
  | p :: rest => by
    unfold Param.replacements
    exact (Param.asks p).bind fun a => (Param.asksAll rest).map (a.toList ++ ·)

theorem Params.asks : (params : Params) → Asks fun cell => params.replacements ⟨q, cell⟩
  | ⟨entries⟩ => Param.asksAll entries

theorem Fragment.asks : (f : Fragment) → Asks fun cell => (f.template ⟨q, cell⟩).fill
  | ⟨sql, params⟩ => (Params.asks params).map fun table => Text.replaceAll table sql

theorem Ident.asks (role : Role) : (i : Ident) → Asks fun cell => i.text ⟨q, cell⟩ role
  | .name s => .ok (q.nameText role s)
  | .aliased inner name => by
    unfold Ident.text
    exact (Ident.asks role inner).map (· ++ " AS " ++ q.aliasText role name)
  | .aliasName s => .ok (q.targetText role s)
  | .fragment f => by
    unfold Ident.text
    exact Fragment.asks f
  | .subquery s => by
    unfold Ident.text
    exact (Select.asks s).enclosed

theorem Ident.asksAll (role : Role) : (is : List Ident) →
    Asks fun cell => Ident.texts ⟨q, cell⟩ role is
  | [] => .ok _
  | i :: rest => by
    unfold Ident.texts
    exact (Ident.asks role i).consM (Ident.asksAll role rest)

theorem Ident.asksSubject : (i : Ident) → Asks fun cell => i.subject ⟨q, cell⟩
  | .name s => .ok (if s = "" then "" else q.nameText .column s)
  | .aliased inner _ => by
    unfold Ident.subject
    exact Ident.asks .plain inner
  | .aliasName s => .ok (q.targetText .column s)
  | .fragment f => by
    unfold Ident.subject
    exact Fragment.asks f
  | .subquery s => by
    unfold Ident.subject
    exact (Select.asks s).enclosed

theorem Ident.asksTarget : (i : Ident) → Asks fun cell => i.target ⟨q, cell⟩
  | .name s => .ok (q.nameText .column s)
  | .aliased _ name => .ok (q.nameText .plain name)
  | .aliasName s => .ok (q.nameText .plain s)
  | .fragment f => by
    unfold Ident.target
    exact Fragment.asks f
  | .subquery s => by
    unfold Ident.target
    exact (Select.asks s).enclosed

theorem Ident.asksTargets : (is : List Ident) → Asks fun cell => Ident.targets ⟨q, cell⟩ is
  | [] => .ok _
  | i :: rest => by
    unfold Ident.targets
    exact (Ident.asksTarget i).consM (Ident.asksTargets rest)

theorem Condition.asks (isKey : String → Bool) : (c : Condition) →
    Asks fun cell => c.piece ⟨q, cell⟩ isKey
  | .opening _ => .ok _
  | .closing _ => .ok _
  | .predicate logic column op value => by
    simp only [Condition.piece_predicate]
    have hwhole := (Value.asks value).operand isKey value
    exact ((Value.asksBounds isKey value).rightSide hwhole (operator op value) value "(NULL)").bind
      fun _ => (Ident.asksSubject column).map _

theorem Condition.asksAll (isKey : String → Bool) : (cs : List Condition) →
    Asks fun cell => Condition.pieces ⟨q, cell⟩ isKey cs
  | [] => .ok _
  | c :: rest => by
    unfold Condition.pieces
    exact (Condition.asks isKey c).consM (Condition.asksAll isKey rest)

theorem Criteria.asks (isKey : String → Bool) : (c : Criteria) →
    Asks fun cell => c.text ⟨q, cell⟩ isKey
  | ⟨entries⟩ => by
    unfold Criteria.text
    exact (Condition.asksAll isKey entries).map _

theorem OnPair.asks : (p : OnPair) → Asks fun cell => p.text ⟨q, cell⟩
  | ⟨left, op, right⟩ => by
    unfold OnPair.text
    exact (Ident.asks .column left).bind fun _ => (Ident.asks .column right).map _

theorem OnPair.asksAll : (ps : List OnPair) → Asks fun cell => OnPair.texts ⟨q, cell⟩ ps
  | [] => .ok _
  | p :: rest => by
    unfold OnPair.texts
    exact (OnPair.asks p).consM (OnPair.asksAll rest)

theorem JoinCondition.asks : (c : JoinCondition) → Asks fun cell => c.text ⟨q, cell⟩
  | .free => .ok _
  | .on pairs => by
    unfold JoinCondition.text
    exact (OnPair.asksAll pairs).map _
  | .using columns => by
    unfold JoinCondition.text
    exact (Ident.asksAll .column columns).map _

theorem Join.asks : (j : Join) → Asks fun cell => j.text ⟨q, cell⟩
  | ⟨table, kind, condition⟩ => by
    unfold Join.text
    exact (Ident.asks .table table).bind fun _ => (JoinCondition.asks condition).map _

theorem Join.asksAll : (js : List Join) → Asks fun cell => Join.texts ⟨q, cell⟩ js
  | [] => .ok _
  | j :: rest => by
    unfold Join.texts
    exact (Join.asks j).consM (Join.asksAll rest)

theorem SortKey.asks : (k : SortKey) → Asks fun cell => k.text ⟨q, cell⟩
  | ⟨column, direction⟩ => by
    unfold SortKey.text
    exact (Ident.asksTarget column).bind fun c => .directed c direction

theorem SortKey.asksAll : (ks : List SortKey) → Asks fun cell => SortKey.texts ⟨q, cell⟩ ks
  | [] => .ok _
  | k :: rest => by
    unfold SortKey.texts
    exact (SortKey.asks k).consM (SortKey.asksAll rest)

theorem RawQuery.asks : (r : RawQuery) → Asks fun cell => (r.template ⟨q, cell⟩).fill
  | ⟨_, sql, ⟨params, _, _⟩⟩ =>
    (Params.asks params).map fun table => Text.replaceAll table sql

theorem BranchSource.asks : (b : BranchSource) → Asks fun cell => b.text ⟨q, cell⟩
  | .table t => by
    unfold BranchSource.text
    exact (Ident.asks .table t).map _
  | .select s => by
    unfold BranchSource.text
    exact Select.asks s
  | .query r => by
    unfold BranchSource.text
    exact RawQuery.asks r

theorem Branch.asks : (b : Branch) → Asks fun cell => b.text ⟨q, cell⟩
  | ⟨source, all⟩ => by
    unfold Branch.text
    exact (BranchSource.asks source).map _

theorem Branch.asksAll : (bs : List Branch) → Asks fun cell => Branch.texts ⟨q, cell⟩ bs
  | [] => .ok _
  | b :: rest => by
    unfold Branch.texts
    exact (Branch.asks b).consM (Branch.asksAll rest)

theorem Select.asks : (s : Select) → Asks fun cell => s.template ⟨q, cell⟩ >>= Template.fill
  | ⟨distinct, columns, tables, joins, ⟨criteria, orderBy, limit⟩, groupBy, having, offset, unions,
      ⟨params, options, lastSql⟩⟩ => by
    simp only [Select.template, bind_assoc, pure_bind]
    refine (Ident.asksAll .column columns).bind fun _ => ?_
    refine (Ident.asksAll .table tables).bind fun _ => ?_
    refine (Join.asksAll joins).bind fun _ => ?_
    refine (Criteria.asks _ criteria).bind fun _ => ?_
    refine (Ident.asksTargets groupBy).bind fun _ => ?_
    refine (Criteria.asks _ having).bind fun _ => ?_
    refine (SortKey.asksAll orderBy).bind fun _ => ?_
    refine (Branch.asksAll unions).bind fun _ => ?_
    exact (Params.asks params).map fun table => Text.replaceAll table _

end

/-! ## Statements -/

variable (q : Quoting) (isKey : String → Bool)

theorem Scope.asks (s : Scope) : Asks fun cell => s.text ⟨q, cell⟩ isKey :=
  (Criteria.asks q isKey s.criteria).bind fun _ => (SortKey.asksAll q s.orderBy).map _

theorem RowSource.asks (r : RowSource) :
    Asks fun cell => Insert.sourceText ⟨q, cell⟩ isKey r := by
  cases r with
  | values rows =>
    have hrow (row : List Value) : Asks fun cell => Insert.rowText ⟨q, cell⟩ isKey row :=
      (Asks.mapM (fun v => (Value.asks q v).operand isKey v) row).map _
    exact (Asks.mapM hrow rows).map _
  | query r =>
    cases r with
    | select s => exact Select.asks q s
    | query r => exact RawQuery.asks q r

theorem Assignment.asks (a : Assignment) : Asks fun cell => a.text ⟨q, cell⟩ isKey :=
  (Ident.asks q .column a.column).bind fun _ => ((Value.asks q a.value).operand isKey a.value).map _

theorem Params.asksFill (params : Params) (sql : String) :
    Asks fun cell => Template.fill ⟨sql, params.replacements ⟨q, cell⟩⟩ :=
  (Params.asks q params).map fun table => Text.replaceAll table sql

theorem Insert.asks (i : Insert) : Asks fun cell => i.template ⟨q, cell⟩ >>= Template.fill := by
  cases htable : i.table with
  | none =>
    simp only [template, htable]
    exact .fails _
  | some table =>
    simp only [template, htable, bind_assoc, pure_bind]
    refine (Ident.asks q .table table).bind fun _ => ?_
    refine (Ident.asksAll q .column i.columns).bind fun _ => ?_
    refine (RowSource.asks q _ i.source).bind fun _ => ?_
    exact Params.asksFill q i.request.params _

theorem Update.asks (u : Update) : Asks fun cell => u.template ⟨q, cell⟩ >>= Template.fill := by
  cases htable : u.table with
  | none =>
    simp only [template, htable]
    exact .fails _
  | some table =>
    simp only [template, htable, Assignment.listText, bind_assoc, pure_bind]
    refine (Ident.asks q .table table).bind fun _ => ?_
    refine (Asks.mapM (Assignment.asks q _) u.assignments).bind fun _ => ?_
    refine (Scope.asks q _ u.scope).bind fun _ => ?_
    exact Params.asksFill q u.request.params _

theorem Delete.asks (d : Delete) : Asks fun cell => d.template ⟨q, cell⟩ >>= Template.fill := by
  cases htable : d.table with
  | none =>
    simp only [template, htable]
    exact .fails _
  | some table =>
    simp only [template, htable, bind_assoc, pure_bind]
    refine (Ident.asks q .table table).bind fun _ => ?_
    refine (Scope.asks q _ d.scope).bind fun _ => ?_
    exact Params.asksFill q d.request.params _

theorem Statement.asks (s : Statement) : Asks fun cell => s.toSql ⟨q, cell⟩ := by
  cases s with
  | raw r => exact RawQuery.asks q r
  | select s => exact Select.asks q s
  | insert i => exact Insert.asks q i
  | update u => exact Update.asks q u
  | delete d => exact Delete.asks q d

/-! ## Crashes -/

/-- What is rendered has errors of its own, but it crashes only as one of the look-ups does. -/
theorem Asks.exists_crash {α : Type} {f : Lookup → Outcome α} (hf : Asks f) {cell : Lookup}
    {failure : Failure} (hcrash : ∀ e, failure ≠ .error e) (h : f cell = .error failure) :
    ∃ id, cell id = .error failure := by
  induction hf with
  | ok a => cases h
  | fails e => exact absurd (Except.error.inj h).symm (hcrash e)
  | @ask id next _ ih =>
    simp only at h
    cases hcell : cell id with
    | error answer =>
      rw [hcell] at h
      obtain rfl : answer = failure := Except.error.inj h
      exact ⟨id, hcell⟩
    | ok s =>
      rw [hcell] at h
      exact ih s h

/-! ## More answers -/

/-- What could do without the cells that never end stays as it is, whatever is answered for them. -/
theorem Asks.stable {α : Type} {f : Lookup → Outcome α} (hf : Asks f) {cell cell' : Lookup}
    (h : ∀ id, cell id = .error .endlessCells ∨ cell' id = cell id)
    (hends : f cell ≠ .error .endlessCells) : f cell' = f cell := by
  induction hf with
  | ok a => rfl
  | fails e => rfl
  | ask id _ ih =>
    simp only at hends ⊢
    rcases h id with hnone | hsame
    · rw [hnone] at hends
      exact absurd rfl hends
    · rw [hsame]
      cases hcell : cell id with
      | error failure => rfl
      | ok s =>
        rw [hcell] at hends
        exact ih s hends

namespace Cells

variable (cells : Cells) (q : Quoting)

theorem text_succ (depth : Nat) (id : CellId) : cells.text q depth id = .error .endlessCells ∨
    cells.text q (depth + 1) id = cells.text q depth id := by
  induction depth generalizing id with
  | zero => exact .inl rfl
  | succ depth ih =>
    by_cases hnone : cells.text q (depth + 1) id = .error .endlessCells
    · exact .inl hnone
    · exact .inr ((Value.asks q (cells.get id)).stable ih hnone)

/-- The text of a cell is the text of its value. -/
theorem quote_of_cell {id : CellId} {text : String} (h : (cells.context q).cell id = .ok text) :
    (cells.get id).quote (cells.context q) = .ok text := by
  rcases cells.text_succ q (cells.size + 1) id with hnone | hsame
  · exact nomatch hnone.symm.trans h
  · exact hsame.trans h

end Cells

end SqlComposer
