import SqlComposer.Proofs.Direct

/-!
# What a statement may fail on

Rendering a term looks up nothing but cells and checks nothing but sort directions. So whatever it
fails on is mentioned in the term: at any depth, and in parameters that have no place as well.
-/

namespace SqlComposer

inductive Mention where
  | direction (d : Option String)
  | cell (id : CellId)

/-! ## The mentions of a term -/

mutual

def Value.mentions : Value → List Mention
  | .null | .bool _ | .int _ | .float _ | .text _ => []
  | .list items => Value.mentionsAll items
  | .pair low high => low.mentions ++ high.mentions
  | .fragment f => f.mentions
  | .subquery s => s.mentions

def Value.mentionsAll : List Value → List Mention
  | [] => []
  | v :: rest => v.mentions ++ Value.mentionsAll rest

def Param.mentions : Param → List Mention
  | .value _ v => v.mentions
  | .cell _ id => [.cell id]

def Param.mentionsAll : List Param → List Mention
  | [] => []
  | p :: rest => p.mentions ++ Param.mentionsAll rest

def Params.mentions : Params → List Mention
  | ⟨entries⟩ => Param.mentionsAll entries

def Fragment.mentions : Fragment → List Mention
  | ⟨_, params⟩ => params.mentions

def Ident.mentions : Ident → List Mention
  | .name _ | .aliasName _ => []
  | .aliased inner _ => inner.mentions
  | .fragment f => f.mentions
  | .subquery s => s.mentions

def Ident.mentionsAll : List Ident → List Mention
  | [] => []
  | i :: rest => i.mentions ++ Ident.mentionsAll rest

def Condition.mentions : Condition → List Mention
  | .opening _ | .closing _ => []
  | .predicate _ column _ value => value.mentions ++ column.mentions

def Condition.mentionsAll : List Condition → List Mention
  | [] => []
  | c :: rest => c.mentions ++ Condition.mentionsAll rest

def Criteria.mentions : Criteria → List Mention
  | ⟨entries⟩ => Condition.mentionsAll entries

def OnPair.mentions : OnPair → List Mention
  | ⟨left, _, right⟩ => left.mentions ++ right.mentions

def OnPair.mentionsAll : List OnPair → List Mention
  | [] => []
  | p :: rest => p.mentions ++ OnPair.mentionsAll rest

def JoinCondition.mentions : JoinCondition → List Mention
  | .free => []
  | .on pairs => OnPair.mentionsAll pairs
  | .using columns => Ident.mentionsAll columns

def Join.mentions : Join → List Mention
  | ⟨table, _, condition⟩ => table.mentions ++ condition.mentions

def Join.mentionsAll : List Join → List Mention
  | [] => []
  | j :: rest => j.mentions ++ Join.mentionsAll rest

def SortKey.mentions : SortKey → List Mention
  | ⟨column, direction⟩ => column.mentions ++ [.direction direction]

def SortKey.mentionsAll : List SortKey → List Mention
  | [] => []
  | k :: rest => k.mentions ++ SortKey.mentionsAll rest

def RawQuery.mentions : RawQuery → List Mention
  | ⟨_, _, ⟨params, _, _⟩⟩ => params.mentions

def BranchSource.mentions : BranchSource → List Mention
  | .table t => t.mentions
  | .select s => s.mentions
  | .query q => q.mentions

def Branch.mentions : Branch → List Mention
  | ⟨source, _⟩ => source.mentions

def Branch.mentionsAll : List Branch → List Mention
  | [] => []
  | b :: rest => b.mentions ++ Branch.mentionsAll rest

def Select.mentions : Select → List Mention
  | ⟨_, columns, tables, joins, ⟨criteria, orderBy, _⟩, groupBy, having, _, unions,
      ⟨params, _, _⟩⟩ =>
    Ident.mentionsAll columns ++ (Ident.mentionsAll tables ++ (Join.mentionsAll joins ++
      (criteria.mentions ++ (Ident.mentionsAll groupBy ++ (having.mentions ++
        (SortKey.mentionsAll orderBy ++ (Branch.mentionsAll unions ++ params.mentions)))))))

end

/-! ## The mentions of a statement -/

def Scope.mentions (s : Scope) : List Mention :=
  s.criteria.mentions ++ SortKey.mentionsAll s.orderBy

def RowSource.mentions : RowSource → List Mention
  | .values rows => rows.flatMap Value.mentionsAll
  | .query (.select s) => s.mentions
  | .query (.query q) => q.mentions

def Insert.mentions (i : Insert) : List Mention :=
  (i.table.elim [] Ident.mentions) ++ (Ident.mentionsAll i.columns ++
    (i.source.mentions ++ i.request.params.mentions))

def Assignment.mentions (a : Assignment) : List Mention := a.column.mentions ++ a.value.mentions

def Update.mentions (u : Update) : List Mention :=
  (u.table.elim [] Ident.mentions) ++ (u.assignments.flatMap Assignment.mentions ++
    (u.scope.mentions ++ u.request.params.mentions))

def Delete.mentions (d : Delete) : List Mention :=
  (d.table.elim [] Ident.mentions) ++ (d.scope.mentions ++ d.request.params.mentions)

def Statement.mentions : Statement → List Mention
  | .raw q => q.mentions
  | .select s => s.mentions
  | .insert i => i.mentions
  | .update u => u.mentions
  | .delete d => d.mentions

/-! ## Directions -/

/-- A direction that a sort key may have: none, an empty one, or ASC or DESC in any case. -/
def IsDirection (d : Option String) : Prop :=
  d = none ∨ d = some "" ∨ ∃ s, d = some s ∧ (Text.upper s = "ASC" ∨ Text.upper s = "DESC")

theorem Text.upperChar_ne_nil (c : Char) : upperChar c ≠ [] := by
  unfold upperChar
  split
  · simp
  · rw [Ne, List.map_eq_nil_iff]
    unfold upperCodes
    split
    · next e he =>
      have hall : ∀ e ∈ caseExpansions, e.upper ≠ [] := by decide
      exact hall e (List.mem_of_find?_eq_some he)
    · simp

theorem Text.upper_eq_empty {s : String} : upper s = "" ↔ s = "" := by
  constructor
  · intro h
    have hflat : s.toList.flatMap upperChar = [] := by
      have hlist := congrArg String.toList h
      rwa [upper, String.toList_ofList] at hlist
    rw [List.flatMap_eq_nil_iff] at hflat
    rw [← String.toList_eq_nil_iff]
    exact List.eq_nil_iff_forall_not_mem.mpr fun c hc => upperChar_ne_nil c (hflat c hc)
  · rintro rfl
    rfl

/-- A sort key is its column with nothing, ASC or DESC behind it, or it is refused. -/
theorem directed_cases (column : String) (d : Option String) :
    (IsDirection d ∧ ∃ ending ∈ ["", " ASC", " DESC"], directed column d = .ok (column ++ ending)) ∨
      (¬ IsDirection d ∧
        directed column d = .error (.error (.unknownDirection (Text.upper (d.getD ""))))) := by
  have hd : IsDirection d ↔ Text.upper (d.getD "") = "" ∨ Text.upper (d.getD "") = "ASC" ∨
      Text.upper (d.getD "") = "DESC" := by
    cases d with
    | none =>
      have hempty : Text.upper "" = "" := rfl
      simp [IsDirection, hempty]
    | some s => simp [IsDirection, Text.upper_eq_empty]
  rw [hd]
  by_cases hempty : Text.upper (d.getD "") = ""
  · exact .inl ⟨.inl hempty, "", by simp, by simp [directed, hempty]⟩
  · by_cases hword : Text.upper (d.getD "") = "ASC" ∨ Text.upper (d.getD "") = "DESC"
    · refine .inl ⟨.inr hword, " " ++ Text.upper (d.getD ""), ?_, ?_⟩
      · rcases hword with hword | hword <;> simp [hword]
      · simp only [directed, if_neg hempty, if_pos hword, String.append_assoc]
    · exact .inr ⟨not_or.mpr ⟨hempty, hword⟩, by simp only [directed, if_neg hempty, if_neg hword]⟩

/-! ## Failures and their causes -/

/-- A mention is the cause of a failure: a direction that is none, or a cell without a text. -/
def Mention.Causes (ctx : Context) (f : Failure) : Mention → Prop
  | .direction d => ¬ IsDirection d ∧ f = .error (.unknownDirection (Text.upper (d.getD "")))
  | .cell id => ctx.cell id = .error f

/-- Whatever fails, one of the mentions is the cause. -/
def Blames {α : Type} (ctx : Context) (ms : List Mention) (x : Outcome α) : Prop :=
  ∀ f, x = .error f → ∃ m ∈ ms, m.Causes ctx f

namespace Blames

variable {α β : Type} {ctx : Context} {ms ns : List Mention} {x : Outcome α}

theorem ok (a : α) : Blames ctx ms (.ok a) := nofun

theorem mono (h : Blames ctx ms x) (hsub : ∀ m ∈ ms, m ∈ ns) : Blames ctx ns x := by
  intro f hf
  obtain ⟨m, hm, hcauses⟩ := h f hf
  exact ⟨m, hsub m hm, hcauses⟩

theorem bind {g : α → Outcome β} (h : Blames ctx ms x) (hg : ∀ a, Blames ctx ns (g a)) :
    Blames ctx (ms ++ ns) (x >>= g) := by
  cases x with
  | error e =>
    intro f hf
    obtain ⟨m, hm, hcauses⟩ := h f (by simpa [Bind.bind, Except.bind] using hf)
    exact ⟨m, List.mem_append_left _ hm, hcauses⟩
  | ok a => exact (hg a).mono fun m hm => List.mem_append_right _ hm

theorem map (h : Blames ctx ms x) (g : α → β) : Blames ctx ms (x >>= fun a => pure (g a)) := by
  have hg : ∀ a, Blames ctx [] (pure (g a) : Outcome β) := fun a => ok (g a)
  have hbind := h.bind hg
  rwa [List.append_nil] at hbind

theorem consM {xs : Outcome (List α)} (h : Blames ctx ms x) (hs : Blames ctx ns xs) :
    Blames ctx (ms ++ ns) (x >>= fun a => xs >>= fun as => pure (a :: as)) :=
  h.bind fun a => hs.map (a :: ·)

end Blames

theorem Blames.operand {ctx : Context} {v : Value} (h : Blames ctx v.mentions (v.quote ctx))
    (isKey : String → Bool) : Blames ctx v.mentions (operand isKey v (v.quote ctx)) := by
  unfold SqlComposer.operand
  split
  · split
    · exact .ok _
    · exact h
  · exact h

theorem Blames.pair {ctx : Context} {ms ns : List Mention} {x y : Outcome String}
    (hx : Blames ctx ms x) (hy : Blames ctx ns y) :
    Blames ctx (ms ++ ns) (x >>= fun s => y >>= fun t => pure (s ++ " AND " ++ t)) :=
  hx.bind fun s => hy.map (s ++ " AND " ++ ·)

theorem Blames.fill {ctx : Context} {ms : List Mention} {t : Template}
    (h : Blames ctx ms t.replacements) : Blames ctx ms t.fill :=
  h.map fun table => Text.replaceAll table t.sql

theorem Blames.enclosed {ctx : Context} {ms : List Mention} {x : Outcome Template}
    (h : Blames ctx ms (x >>= Template.fill)) :
    Blames ctx ms (do return parenthesized (← (← x).fill)) := by
  have henclosed := h.map parenthesized
  rwa [bind_assoc] at henclosed

theorem Blames.directed (ctx : Context) (column : String) (d : Option String) :
    Blames ctx [.direction d] (directed column d) := by
  rcases directed_cases column d with ⟨-, ending, -, h⟩ | ⟨hd, h⟩
  · rw [h]
    exact .ok _
  · intro f hf
    rw [h] at hf
    exact ⟨_, List.mem_singleton_self _, hd, (Except.error.inj hf).symm⟩

/-! ## Terms -/

mutual
variable (ctx : Context)

theorem Value.blames : (v : Value) → Blames ctx v.mentions (v.quote ctx)
  | .null => .ok _
  | .bool b => .ok _
  | .int n => .ok _
  | .float x => .ok _
  | .text s => .ok _
  | .list items => by
    unfold Value.mentions Value.quote
    exact (Value.blamesAll items).map _
  | .pair low high => by
    unfold Value.mentions Value.quote
    exact (Value.blames low).pair (Value.blames high)
  | .fragment f => by
    unfold Value.mentions Value.quote
    exact Fragment.blames f
  | .subquery s => by
    unfold Value.mentions Value.quote
    exact (Select.blames s).enclosed

theorem Value.blamesAll : (vs : List Value) →
    Blames ctx (Value.mentionsAll vs) (Value.quoteAll ctx vs)
  | [] => .ok _
  | v :: rest => by
    unfold Value.mentionsAll Value.quoteAll
    exact (Value.blames v).consM (Value.blamesAll rest)

theorem Value.blamesBounds (isKey : String → Bool) : (v : Value) → (x : Outcome String) →
    v.bounds ctx isKey = some x → Blames ctx v.mentions x
  | .pair low high, x, h => by
    unfold Value.bounds at h
    unfold Value.mentions
    obtain rfl := Option.some.inj h
    exact ((Value.blames low).operand isKey).pair ((Value.blames high).operand isKey)
  | .list [low, high], x, h => by
    unfold Value.bounds at h
    obtain rfl := Option.some.inj h
    refine (((Value.blames low).operand isKey).pair ((Value.blames high).operand isKey)).mono ?_
    simp [Value.mentions, Value.mentionsAll]
  | .null, _, h | .bool _, _, h | .int _, _, h | .float _, _, h | .text _, _, h
  | .fragment _, _, h | .subquery _, _, h | .list [], _, h | .list [_], _, h
  | .list (_ :: _ :: _ :: _), _, h => nomatch h

theorem Param.blames : (p : Param) → Blames ctx p.mentions (p.replacement ctx)
  | .value key v => by
    unfold Param.mentions Param.replacement
    split
    · exact .ok _
    · exact (Value.blames v).map _
  | .cell key id => by
    unfold Param.mentions Param.replacement
    split
    · exact .ok _
    · have hcell : Blames ctx [.cell id] (ctx.cell id) :=
        fun f hf => ⟨_, List.mem_singleton_self _, hf⟩
      exact hcell.map _

theorem Param.blamesAll : (ps : List Param) →
    Blames ctx (Param.mentionsAll ps) (Param.replacements ctx ps)
  | [] => .ok _
  | p :: rest => by
    unfold Param.mentionsAll Param.replacements
    exact (Param.blames p).bind fun a => (Param.blamesAll rest).map (a.toList ++ ·)

theorem Params.blames : (params : Params) → Blames ctx params.mentions (params.replacements ctx)
  | ⟨entries⟩ => Param.blamesAll entries

theorem Fragment.blames : (f : Fragment) → Blames ctx f.mentions (f.template ctx).fill
  | ⟨_, params⟩ => Blames.fill (Params.blames params)

theorem Ident.blames (role : Role) : (i : Ident) → Blames ctx i.mentions (i.text ctx role)
  | .name s => .ok _
  | .aliased inner name => by
    unfold Ident.mentions Ident.text
    exact (Ident.blames role inner).map _
  | .aliasName s => .ok _
  | .fragment f => by
    unfold Ident.mentions Ident.text
    exact Fragment.blames f
  | .subquery s => by
    unfold Ident.mentions Ident.text
    exact (Select.blames s).enclosed

theorem Ident.blamesAll (role : Role) : (is : List Ident) →
    Blames ctx (Ident.mentionsAll is) (Ident.texts ctx role is)
  | [] => .ok _
  | i :: rest => by
    unfold Ident.mentionsAll Ident.texts
    exact (Ident.blames role i).consM (Ident.blamesAll role rest)

theorem Ident.blamesSubject : (i : Ident) → Blames ctx i.mentions (i.subject ctx)
  | .name s => .ok _
  | .aliased inner _ => by
    unfold Ident.mentions Ident.subject
    exact Ident.blames .plain inner
  | .aliasName s => .ok _
  | .fragment f => by
    unfold Ident.mentions Ident.subject
    exact Fragment.blames f
  | .subquery s => by
    unfold Ident.mentions Ident.subject
    exact (Select.blames s).enclosed

theorem Ident.blamesTarget : (i : Ident) → Blames ctx i.mentions (i.target ctx)
  | .name s => .ok _
  | .aliased _ name => .ok _
  | .aliasName s => .ok _
  | .fragment f => by
    unfold Ident.mentions Ident.target
    exact Fragment.blames f
  | .subquery s => by
    unfold Ident.mentions Ident.target
    exact (Select.blames s).enclosed

theorem Ident.blamesTargets : (is : List Ident) →
    Blames ctx (Ident.mentionsAll is) (Ident.targets ctx is)
  | [] => .ok _
  | i :: rest => by
    unfold Ident.mentionsAll Ident.targets
    exact (Ident.blamesTarget i).consM (Ident.blamesTargets rest)

theorem Condition.blames (isKey : String → Bool) : (c : Condition) →
    Blames ctx c.mentions (c.piece ctx isKey)
  | .opening _ => .ok _
  | .closing _ => .ok _
  | .predicate logic column op value => by
    rw [Condition.piece_predicate, Condition.mentions]
    refine Blames.bind ?_ fun right => (Ident.blamesSubject column).map _
    have hwhole := (Value.blames value).operand isKey
    unfold rightSide
    split
    · cases hbounds : value.bounds ctx isKey with
      | none => exact hwhole
      | some bounds => exact Value.blamesBounds isKey value bounds hbounds
    · split
      · exact .ok _
      · exact hwhole

theorem Condition.blamesAll (isKey : String → Bool) : (cs : List Condition) →
    Blames ctx (Condition.mentionsAll cs) (Condition.pieces ctx isKey cs)
  | [] => .ok _
  | c :: rest => by
    unfold Condition.mentionsAll Condition.pieces
    exact (Condition.blames isKey c).consM (Condition.blamesAll isKey rest)

theorem Criteria.blames (isKey : String → Bool) : (c : Criteria) →
    Blames ctx c.mentions (c.text ctx isKey)
  | ⟨entries⟩ => by
    unfold Criteria.mentions Criteria.text
    exact (Condition.blamesAll isKey entries).map _

theorem OnPair.blames : (p : OnPair) → Blames ctx p.mentions (p.text ctx)
  | ⟨left, op, right⟩ => by
    unfold OnPair.mentions OnPair.text
    exact (Ident.blames .column left).bind fun s => (Ident.blames .column right).map _

theorem OnPair.blamesAll : (ps : List OnPair) →
    Blames ctx (OnPair.mentionsAll ps) (OnPair.texts ctx ps)
  | [] => .ok _
  | p :: rest => by
    unfold OnPair.mentionsAll OnPair.texts
    exact (OnPair.blames p).consM (OnPair.blamesAll rest)

theorem JoinCondition.blames : (c : JoinCondition) → Blames ctx c.mentions (c.text ctx)
  | .free => .ok _
  | .on pairs => by
    unfold JoinCondition.mentions JoinCondition.text
    exact (OnPair.blamesAll pairs).map _
  | .using columns => by
    unfold JoinCondition.mentions JoinCondition.text
    exact (Ident.blamesAll .column columns).map _

theorem Join.blames : (j : Join) → Blames ctx j.mentions (j.text ctx)
  | ⟨table, kind, condition⟩ => by
    unfold Join.mentions Join.text
    exact (Ident.blames .table table).bind fun s => (JoinCondition.blames condition).map _

theorem Join.blamesAll : (js : List Join) → Blames ctx (Join.mentionsAll js) (Join.texts ctx js)
  | [] => .ok _
  | j :: rest => by
    unfold Join.mentionsAll Join.texts
    exact (Join.blames j).consM (Join.blamesAll rest)

theorem SortKey.blames : (k : SortKey) → Blames ctx k.mentions (k.text ctx)
  | ⟨column, direction⟩ => by
    unfold SortKey.mentions SortKey.text
    exact (Ident.blamesTarget column).bind fun s => Blames.directed ctx s direction

theorem SortKey.blamesAll : (ks : List SortKey) →
    Blames ctx (SortKey.mentionsAll ks) (SortKey.texts ctx ks)
  | [] => .ok _
  | k :: rest => by
    unfold SortKey.mentionsAll SortKey.texts
    exact (SortKey.blames k).consM (SortKey.blamesAll rest)

theorem RawQuery.blames : (q : RawQuery) → Blames ctx q.mentions (q.template ctx).fill
  | ⟨_, _, ⟨params, _, _⟩⟩ => Blames.fill (Params.blames params)

theorem BranchSource.blames : (b : BranchSource) → Blames ctx b.mentions (b.text ctx)
  | .table t => by
    unfold BranchSource.mentions BranchSource.text
    exact (Ident.blames .table t).map _
  | .select s => by
    unfold BranchSource.mentions BranchSource.text
    exact Select.blames s
  | .query q => by
    unfold BranchSource.mentions BranchSource.text
    exact RawQuery.blames q

theorem Branch.blames : (b : Branch) → Blames ctx b.mentions (b.text ctx)
  | ⟨source, all⟩ => by
    unfold Branch.mentions Branch.text
    exact (BranchSource.blames source).map _

theorem Branch.blamesAll : (bs : List Branch) →
    Blames ctx (Branch.mentionsAll bs) (Branch.texts ctx bs)
  | [] => .ok _
  | b :: rest => by
    unfold Branch.mentionsAll Branch.texts
    exact (Branch.blames b).consM (Branch.blamesAll rest)

theorem Select.blames : (s : Select) → Blames ctx s.mentions (s.template ctx >>= Template.fill)
  | ⟨distinct, columns, tables, joins, ⟨criteria, orderBy, limit⟩, groupBy, having, offset, unions,
      ⟨params, options, lastSql⟩⟩ => by
    simp only [Select.mentions, Select.template, bind_assoc, pure_bind]
    refine (Ident.blamesAll .column columns).bind fun _ => ?_
    refine (Ident.blamesAll .table tables).bind fun _ => ?_
    refine (Join.blamesAll joins).bind fun _ => ?_
    refine (Criteria.blames _ criteria).bind fun _ => ?_
    refine (Ident.blamesTargets groupBy).bind fun _ => ?_
    refine (Criteria.blames _ having).bind fun _ => ?_
    refine (SortKey.blamesAll orderBy).bind fun _ => ?_
    refine (Branch.blamesAll unions).bind fun _ => ?_
    exact Blames.fill (Params.blames params)

end

/-! ## Statements -/

/-- Whether a statement has the table that it needs. -/
def Statement.hasTarget : Statement → Bool
  | .raw _ | .select _ => true
  | .insert i => i.table.isSome
  | .update u => u.table.isSome
  | .delete d => d.table.isSome

variable (ctx : Context) (isKey : String → Bool)

theorem Value.mentionsAll_eq (vs : List Value) :
    Value.mentionsAll vs = vs.flatMap Value.mentions := by
  induction vs with
  | nil => rfl
  | cons v vs ih => rw [Value.mentionsAll, List.flatMap_cons, ih]

variable {ctx} in
theorem Blames.mapM {α β : Type} {mentions : α → List Mention} {f : α → Outcome β}
    (h : ∀ a, Blames ctx (mentions a) (f a)) (as : List α) :
    Blames ctx (as.flatMap mentions) (as.mapM f) := by
  induction as with
  | nil => exact .ok _
  | cons a as ih =>
    rw [List.flatMap_cons, List.mapM_cons]
    exact (h a).consM ih

theorem Scope.blames (s : Scope) : Blames ctx s.mentions (s.text ctx isKey) :=
  (Criteria.blames ctx isKey s.criteria).bind fun _ => (SortKey.blamesAll ctx s.orderBy).map _

theorem RowSource.blames (r : RowSource) :
    Blames ctx r.mentions (Insert.sourceText ctx isKey r) := by
  cases r with
  | values rows =>
    have hrow (row : List Value) :
        Blames ctx (Value.mentionsAll row) (Insert.rowText ctx isKey row) := by
      rw [Value.mentionsAll_eq]
      exact (Blames.mapM (fun v => (Value.blames ctx v).operand isKey) row).map _
    exact (Blames.mapM hrow rows).map _
  | query q =>
    cases q with
    | select s => exact Select.blames ctx s
    | query q => exact RawQuery.blames ctx q

theorem Insert.blames {i : Insert} (h : i.table.isSome) :
    Blames ctx i.mentions (i.template ctx >>= Template.fill) := by
  obtain ⟨table, htable⟩ := Option.isSome_iff_exists.mp h
  simp only [mentions, template, htable, Option.elim_some, bind_assoc, pure_bind]
  refine (Ident.blames ctx .table table).bind fun _ => ?_
  refine (Ident.blamesAll ctx .column i.columns).bind fun _ => ?_
  refine (RowSource.blames ctx _ i.source).bind fun _ => ?_
  exact Blames.fill (Params.blames ctx i.request.params)

theorem Assignment.blames (a : Assignment) : Blames ctx a.mentions (a.text ctx isKey) :=
  (Ident.blames ctx .column a.column).bind fun _ => ((Value.blames ctx a.value).operand isKey).map _

theorem Update.blames {u : Update} (h : u.table.isSome) :
    Blames ctx u.mentions (u.template ctx >>= Template.fill) := by
  obtain ⟨table, htable⟩ := Option.isSome_iff_exists.mp h
  simp only [mentions, template, htable, Option.elim_some, Assignment.listText, bind_assoc,
    pure_bind]
  refine (Ident.blames ctx .table table).bind fun _ => ?_
  refine (Blames.mapM (Assignment.blames ctx _) u.assignments).bind fun _ => ?_
  refine (Scope.blames ctx _ u.scope).bind fun _ => ?_
  exact Blames.fill (Params.blames ctx u.request.params)

theorem Delete.blames {d : Delete} (h : d.table.isSome) :
    Blames ctx d.mentions (d.template ctx >>= Template.fill) := by
  obtain ⟨table, htable⟩ := Option.isSome_iff_exists.mp h
  simp only [mentions, template, htable, Option.elim_some, bind_assoc, pure_bind]
  refine (Ident.blames ctx .table table).bind fun _ => ?_
  refine (Scope.blames ctx _ d.scope).bind fun _ => ?_
  exact Blames.fill (Params.blames ctx d.request.params)

/-- A statement with a target fails on what is mentioned in it, and on nothing else. -/
theorem Statement.blames {s : Statement} (h : s.hasTarget = true) :
    Blames ctx s.mentions (s.toSql ctx) := by
  cases s with
  | raw q => exact RawQuery.blames ctx q
  | select s => exact Select.blames ctx s
  | insert i => exact Insert.blames ctx h
  | update u => exact Update.blames ctx h
  | delete d => exact Delete.blames ctx h

end SqlComposer
