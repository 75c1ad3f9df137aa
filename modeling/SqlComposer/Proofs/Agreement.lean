import SqlComposer.Proofs.Agree
import SqlComposer.Proofs.Policy

/-!
# Both renderings agree

The first phase and the direct rendering succeed together, and the parts show the text. A query
inside another one is an exception: it agrees only if the second phase does what it should, which
is left as a hypothesis here.
-/

namespace SqlComposer

/-- Under the policy, no text value is a key, and no key could be trimmed. -/
structure Policy.Clear (p : Policy) : Prop where
  apart : ∀ s, p.key s → ¬ p.text s
  solid : ∀ key, p.key key → Part.Starts key.toList ∧ Part.Starts key.toList.reverse

/-! ## Conditions -/

def Stretch.Shown (q : Quoting) (clear : Prop) : Piece → Stretch → Prop
  | .opening logic, .opening logic' => logic = logic'
  | .closing, .closing => True
  | .predicate logic s, .predicate logic' ps => logic = logic' ∧ Shows q clear s ps
  | _, _ => False

theorem Shows.layout {q : Quoting} {clear : Prop} {pieces : List Piece} {stretches : List Stretch}
    (h : List.Forall₂ (Stretch.Shown q clear) pieces stretches) (started fresh : Bool) :
    Shows q clear (Piece.layout started fresh pieces) (Stretch.layout started fresh stretches) := by
  intro hc
  induction h generalizing started fresh with
  | nil => exact Shows.nil hc
  | @cons piece stretch pieces stretches hshown _ ih =>
    cases piece <;> cases stretch <;> try exact hshown.elim
    · obtain rfl := hshown
      exact ((word _).append (word "(")).append (fun _ => ih true true) hc
    · exact (word ")").append (fun _ => ih true false) hc
    · obtain ⟨rfl, hs⟩ := hshown
      next text ps =>
      have hempty : (text != "") = !ps.isEmpty := by
        rw [Bool.eq_iff_iff]
        simp [hs.eq_empty_iff hc]
      rw [Piece.layout, Stretch.layout, hempty]
      exact ((word _).append hs).append (fun _ => ih (started || !ps.isEmpty) false) hc

/-! ## Operands and drafts -/

section

variable (p : Policy) (ctx : Context)

/-- A replacement and a filling of one key, with the text that the parts show. -/
def Filling.Shown (r : Text.Replacement) (f : Filling) : Prop :=
  r.key = f.key ∧ Shows ctx.quoting p.Clear r.text f.parts

structure Draft.Shown (t : Template) (d : Draft) : Prop where
  parts : Shows ctx.quoting p.Clear t.sql d.parts
  fillings : p.values → Agree (List.Forall₂ (Filling.Shown p ctx)) t.replacements d.fillings

/-- On which grounds both renderings agree. -/
structure Policy.Grounds : Prop where
  solid : ctx.quoting.Solid
  /-- Where a query may stand inside another one, both ways to fill its places agree. -/
  nests : ∀ s : Select, s.Obeys p → p.asRows ∨ p.asName →
    Agree (Draft.Shown p ctx) (s.template ctx) (s.draft ctx) →
      Agree (Shows ctx.quoting p.Clear) (s.template ctx >>= Template.fill)
        (s.draft ctx >>= Draft.settled)

end

variable {p : Policy} {ctx : Context} {isKey : String → Bool}

theorem Policy.Grounds.bind (hg : p.Grounds ctx) {s : Select} (h : s.Obeys p)
    (hp : p.asRows ∨ p.asName) (hs : Agree (Draft.Shown p ctx) (s.template ctx) (s.draft ctx))
    {α β : Type} {R : α → β → Prop} {f : String → Outcome α} {g : List Part → Outcome β}
    (hfg : ∀ t ps, Shows ctx.quoting p.Clear t ps → Agree R (f t) (g ps)) :
    Agree R (s.template ctx >>= fun t => t.fill >>= f) (s.draft ctx >>= fun d => d.settled >>= g) := by
  have := (hg.nests s h hp hs).bind hfg
  rwa [bind_assoc, bind_assoc] at this

theorem operand_agree (hk : ∀ key, isKey key = true → p.key key) (v : Value)
    (h : p.operand isKey v (v.Obeys p))
    (hv : v.Obeys p → Agree (Shows ctx.quoting p.Clear) (v.quote ctx) (v.parts ctx isKey)) :
    Agree (Shows ctx.quoting p.Clear) (operand isKey v (v.quote ctx)) (v.parts ctx isKey) := by
  cases v with
  | text s =>
    by_cases hs : isKey s = true
    · have hplace : Shows ctx.quoting p.Clear s [.place s] := fun hc => by
        refine ⟨by simp [Part.write, Part.chars], fun r hr => ?_⟩
        obtain rfl := List.mem_singleton.mp hr
        exact fun _ => hc.solid s (hk s hs)
      simp only [operand, Value.parts, hs, if_true]
      exact hplace
    · simpa [operand, hs] using hv (h.resolve_left hs)
  | _ => exact hv h

theorem Agree.pair {q : Quoting} {clear : Prop} {x y : Outcome String}
    {x' y' : Outcome (List Part)} (h : Agree (Shows q clear) x x')
    (h' : Agree (Shows q clear) y y') :
    Agree (Shows q clear) (x >>= fun s => y >>= fun t => pure (s ++ " AND " ++ t))
      (x' >>= fun ps => y' >>= fun rs => pure (ps ++ Part.word " AND " ++ rs)) :=
  h.bind fun _ _ hs => h'.bind fun _ _ ht => (hs.append (Shows.word " AND ")).append ht

/-! ## Terms -/

mutual

theorem Value.agree (hg : p.Grounds ctx) {isKey : String → Bool}
    (hk : ∀ key, isKey key = true → p.key key) :
    (v : Value) → v.Obeys p →
      Agree (Shows ctx.quoting p.Clear) (v.quote ctx) (v.parts ctx isKey)
  | .null, _ => Shows.word "NULL"
  | .bool b, _ => by
    have h : Shows ctx.quoting p.Clear _ [.flag b] := Shows.single hg.solid (.flag b) (by simp)
    rw [Part.write, Part.chars, String.ofList_toList] at h
    exact h
  | .int n, _ => Shows.word _
  | .float x, _ => Shows.word _
  | .text s, h => by
    refine fun hc => ?_
    have hs : isKey s = false := Bool.eq_false_iff.mpr fun hs => hc.apart s (hk s hs) h
    simpa [Value.quote, Value.parts, hs, Part.write, Part.chars] using
      Shows.single hg.solid (.literal s) (by simp) hc
  | .list items, h => by
    unfold Value.quote Value.parts
    exact (Value.agreeAll hg hk items h).bind fun ss pss hs => (Shows.joined ", " hs).enclosed
  | .pair low high, h => by
    unfold Value.quote Value.parts
    exact (Value.agree hg hk low h.1).pair (Value.agree hg hk high h.2)
  | .fragment f, _ => by
    unfold Value.quote Value.parts
    exact Shows.wordOf _
  | .subquery s, h => by
    unfold Value.quote Value.parts
    exact hg.bind h.2 (.inl h.1) (Select.agree hg s h.2) fun t ps hs => hs.enclosed

theorem Value.agreeAll (hg : p.Grounds ctx) {isKey : String → Bool}
    (hk : ∀ key, isKey key = true → p.key key) :
    (vs : List Value) → Value.AllObey p vs →
      Agree (List.Forall₂ (Shows ctx.quoting p.Clear)) (Value.quoteAll ctx vs)
        (Value.partLists ctx isKey vs)
  | [], _ => .nil
  | v :: rest, h => by
    unfold Value.quoteAll Value.partLists
    exact (Value.agree hg hk v h.1).consM (Value.agreeAll hg hk rest h.2)

theorem Value.agreeBounds (hg : p.Grounds ctx) {isKey : String → Bool}
    (hk : ∀ key, isKey key = true → p.key key) :
    (v : Value) → (v.BoundsObey p isKey).getD (p.operand isKey v (v.Obeys p)) →
      (p.operand isKey v (v.Obeys p) → Agree (Shows ctx.quoting p.Clear)
        (operand isKey v (v.quote ctx)) (v.parts ctx isKey)) →
      Agree (Shows ctx.quoting p.Clear)
        ((v.bounds ctx isKey).getD (operand isKey v (v.quote ctx)))
        ((v.boundParts ctx isKey).getD (v.parts ctx isKey))
  | .pair low high, h, _ => by
    unfold Value.bounds Value.boundParts
    exact (operand_agree hk low h.1 (Value.agree hg hk low)).pair
      (operand_agree hk high h.2 (Value.agree hg hk high))
  | .list [low, high], h, _ => by
    unfold Value.bounds Value.boundParts
    exact (operand_agree hk low h.1 (Value.agree hg hk low)).pair
      (operand_agree hk high h.2 (Value.agree hg hk high))
  -- Nothing else has bounds, so the operand stays whole.
  | .null, h, hwhole | .bool _, h, hwhole | .int _, h, hwhole | .float _, h, hwhole
  | .text _, h, hwhole | .fragment _, h, hwhole | .subquery _, h, hwhole
  | .list [], h, hwhole | .list [_], h, hwhole | .list (_ :: _ :: _ :: _), h, hwhole => hwhole h

theorem Param.agree (hg : p.Grounds ctx) : (r : Param) → r.Obeys p → p.values →
    Agree (fun a b => List.Forall₂ (Filling.Shown p ctx) a.toList b.toList) (r.replacement ctx)
      (r.filling ctx)
  | .value key v, h, hp => by
    unfold Param.replacement Param.filling
    split
    · exact .nil
    · have hk : ∀ key, (fun _ : String => false) key = true → p.key key := by simp
      exact (Value.agree hg hk v (h.2 hp)).bind fun s ps hs => .cons ⟨rfl, hs⟩ .nil
  | .cell key id, _, _ => by
    unfold Param.replacement Param.filling
    split
    · exact .nil
    · cases ctx.cell id with
      | error e => rfl
      | ok s => exact .cons ⟨rfl, Shows.word s⟩ .nil

theorem Param.agreeAll (hg : p.Grounds ctx) : (rs : List Param) → Param.AllObey p rs → p.values →
    Agree (List.Forall₂ (Filling.Shown p ctx)) (Param.replacements ctx rs) (Param.fillings ctx rs)
  | [], _, _ => .nil
  | r :: rest, h, hp => by
    unfold Param.replacements Param.fillings
    refine (Param.agree hg r h.1 hp).bind fun a b hab => ?_
    exact (Param.agreeAll hg rest h.2 hp).bind fun as bs habs => List.rel_append hab habs

theorem Params.agree (hg : p.Grounds ctx) : (params : Params) → params.Obeys p → p.values →
    Agree (List.Forall₂ (Filling.Shown p ctx)) (params.replacements ctx) (params.fillings ctx)
  | ⟨entries⟩, h, hp => Param.agreeAll hg entries h hp

theorem Ident.agree (hg : p.Grounds ctx) (role : Role) : (i : Ident) → i.Obeys p →
    Agree (Shows ctx.quoting p.Clear) (i.text ctx role) (i.parts ctx role)
  | .name s, _ => Shows.nameText hg.solid role s
  | .aliased inner name, h => by
    unfold Ident.text Ident.parts
    exact (Ident.agree hg role inner h.1).bind fun s ps hs =>
      (hs.append (Shows.word " AS ")).append (Shows.aliasText hg.solid role name)
  | .aliasName s, _ => Shows.targetText hg.solid role s
  | .fragment f, _ => by
    unfold Ident.text Ident.parts
    exact Shows.wordOf _
  | .subquery s, h => by
    unfold Ident.text Ident.parts
    exact hg.bind h.2 (.inr h.1) (Select.agree hg s h.2) fun t ps hs => hs.enclosed

theorem Ident.agreeAll (hg : p.Grounds ctx) (role : Role) : (is : List Ident) →
    Ident.AllObey p is →
      Agree (List.Forall₂ (Shows ctx.quoting p.Clear)) (Ident.texts ctx role is)
        (Ident.partLists ctx role is)
  | [], _ => .nil
  | i :: rest, h => by
    unfold Ident.texts Ident.partLists
    exact (Ident.agree hg role i h.1).consM (Ident.agreeAll hg role rest h.2)

theorem Ident.agreeSubject (hg : p.Grounds ctx) : (i : Ident) → i.Obeys p →
    Agree (Shows ctx.quoting p.Clear) (i.subject ctx) (i.subjectParts ctx)
  | .name s, _ => by
    unfold Ident.subject Ident.subjectParts
    split
    · exact Shows.nil
    · exact Shows.nameText hg.solid .column s
  | .aliased inner _, h => by
    unfold Ident.subject Ident.subjectParts
    exact Ident.agree hg .plain inner h.1
  | .aliasName s, _ => Shows.targetText hg.solid .column s
  | .fragment f, _ => by
    unfold Ident.subject Ident.subjectParts
    exact Shows.wordOf _
  | .subquery s, h => by
    unfold Ident.subject Ident.subjectParts
    exact hg.bind h.2 (.inr h.1) (Select.agree hg s h.2) fun t ps hs => hs.enclosed

theorem Ident.agreeTarget (hg : p.Grounds ctx) : (i : Ident) → i.Obeys p →
    Agree (Shows ctx.quoting p.Clear) (i.target ctx) (i.targetParts ctx)
  | .name s, _ => Shows.nameText hg.solid .column s
  | .aliased _ name, _ => Shows.nameText hg.solid .plain name
  | .aliasName s, _ => Shows.nameText hg.solid .plain s
  | .fragment f, _ => by
    unfold Ident.target Ident.targetParts
    exact Shows.wordOf _
  | .subquery s, h => by
    unfold Ident.target Ident.targetParts
    exact hg.bind h.2 (.inr h.1) (Select.agree hg s h.2) fun t ps hs => hs.enclosed

theorem Ident.agreeTargets (hg : p.Grounds ctx) : (is : List Ident) → Ident.AllObey p is →
    Agree (List.Forall₂ (Shows ctx.quoting p.Clear)) (Ident.targets ctx is)
      (Ident.targetPartLists ctx is)
  | [], _ => .nil
  | i :: rest, h => by
    unfold Ident.targets Ident.targetPartLists
    exact (Ident.agreeTarget hg i h.1).consM (Ident.agreeTargets hg rest h.2)

theorem Condition.agree (hg : p.Grounds ctx) {isKey : String → Bool}
    (hk : ∀ key, isKey key = true → p.key key) :
    (c : Condition) → c.Obeys p isKey →
      Agree (Stretch.Shown ctx.quoting p.Clear) (c.piece ctx isKey) (c.stretch ctx isKey)
  | .opening _, _ => rfl
  | .closing _, _ => trivial
  | .predicate logic column op value, h => by
    obtain ⟨hcolumn, -, hvalue⟩ := h
    have hwhole := fun h => operand_agree hk value h (Value.agree hg hk value)
    rw [Condition.piece_predicate, Condition.stretch]
    refine Agree.bind (R := Shows ctx.quoting p.Clear) ?_ fun right ps hright => ?_
    · simp only [rightSide]
      split
      · next hop => exact Value.agreeBounds hg hk value (by simpa [hop] using hvalue) hwhole
      · next hop =>
        split
        · exact Shows.word "(NULL)"
        · exact hwhole (by simpa [hop] using hvalue)
    · refine (Ident.agreeSubject hg column hcolumn).bind fun left rs hleft => ⟨rfl, ?_⟩
      have hop := (hleft.append (Shows.word " ")).append (Shows.word (operator op value))
      exact ((hop.append (Shows.word " ")).append hright).trim

theorem Condition.agreeAll (hg : p.Grounds ctx) {isKey : String → Bool}
    (hk : ∀ key, isKey key = true → p.key key) :
    (cs : List Condition) → Condition.AllObey p isKey cs →
      Agree (List.Forall₂ (Stretch.Shown ctx.quoting p.Clear)) (Condition.pieces ctx isKey cs)
        (Condition.stretches ctx isKey cs)
  | [], _ => .nil
  | c :: rest, h => by
    unfold Condition.pieces Condition.stretches
    exact (Condition.agree hg hk c h.1).consM (Condition.agreeAll hg hk rest h.2)

theorem Criteria.agree (hg : p.Grounds ctx) {isKey : String → Bool}
    (hk : ∀ key, isKey key = true → p.key key) :
    (c : Criteria) → c.Obeys p isKey →
      Agree (Shows ctx.quoting p.Clear) (c.text ctx isKey) (c.parts ctx isKey)
  | ⟨entries⟩, h => by
    unfold Criteria.text Criteria.parts
    exact (Condition.agreeAll hg hk entries h.2).bind fun ss pss hs => Shows.layout hs false false

theorem OnPair.agree (hg : p.Grounds ctx) : (o : OnPair) → o.Obeys p →
    Agree (Shows ctx.quoting p.Clear) (o.text ctx) (o.parts ctx)
  | ⟨left, op, right⟩, h => by
    unfold OnPair.text OnPair.parts
    refine (Ident.agree hg .column left h.1).bind fun s ps hs => ?_
    refine (Ident.agree hg .column right h.2.2).bind fun t rs ht => ?_
    exact ((hs.append (Shows.word _)).append (Shows.word " ")).append ht

theorem OnPair.agreeAll (hg : p.Grounds ctx) : (os : List OnPair) → OnPair.AllObey p os →
    Agree (List.Forall₂ (Shows ctx.quoting p.Clear)) (OnPair.texts ctx os) (OnPair.partLists ctx os)
  | [], _ => .nil
  | o :: rest, h => by
    unfold OnPair.texts OnPair.partLists
    exact (OnPair.agree hg o h.1).consM (OnPair.agreeAll hg rest h.2)

theorem JoinCondition.agree (hg : p.Grounds ctx) : (c : JoinCondition) → c.Obeys p →
    Agree (Shows ctx.quoting p.Clear) (c.text ctx) (c.parts ctx)
  | .free, _ => Shows.nil
  | .on pairs, h => by
    unfold JoinCondition.text JoinCondition.parts
    exact (OnPair.agreeAll hg pairs h).bind fun ss pss hs =>
      (Shows.word " ON ").append (Shows.joined " AND " hs).enclosed
  | .using columns, h => by
    unfold JoinCondition.text JoinCondition.parts
    exact (Ident.agreeAll hg .column columns h).bind fun ss pss hs =>
      (Shows.word " USING ").append (Shows.joined ", " hs).enclosed

theorem Join.agree (hg : p.Grounds ctx) : (j : Join) → j.Obeys p →
    Agree (Shows ctx.quoting p.Clear) (j.text ctx) (j.parts ctx)
  | ⟨table, kind, condition⟩, h => by
    unfold Join.text Join.parts
    refine (Ident.agree hg .table table h.1).bind fun s ps hs => ?_
    exact (JoinCondition.agree hg condition h.2.2).bind fun t rs ht =>
      ((Shows.word _).append hs).append ht

theorem Join.agreeAll (hg : p.Grounds ctx) : (js : List Join) → Join.AllObey p js →
    Agree (List.Forall₂ (Shows ctx.quoting p.Clear)) (Join.texts ctx js) (Join.partLists ctx js)
  | [], _ => .nil
  | j :: rest, h => by
    unfold Join.texts Join.partLists
    exact (Join.agree hg j h.1).consM (Join.agreeAll hg rest h.2)

theorem SortKey.agree (hg : p.Grounds ctx) : (k : SortKey) → k.Obeys p →
    Agree (Shows ctx.quoting p.Clear) (k.text ctx) (k.parts ctx)
  | ⟨column, direction⟩, h => by
    unfold SortKey.text SortKey.parts
    exact (Ident.agreeTarget hg column h).bind fun s ps hs => hs.directed direction

theorem SortKey.agreeAll (hg : p.Grounds ctx) : (ks : List SortKey) → SortKey.AllObey p ks →
    Agree (List.Forall₂ (Shows ctx.quoting p.Clear)) (SortKey.texts ctx ks)
      (SortKey.partLists ctx ks)
  | [], _ => .nil
  | k :: rest, h => by
    unfold SortKey.texts SortKey.partLists
    exact (SortKey.agree hg k h.1).consM (SortKey.agreeAll hg rest h.2)

theorem BranchSource.agree (hg : p.Grounds ctx) : (b : BranchSource) → b.Obeys p →
    Agree (Shows ctx.quoting p.Clear) (b.text ctx) (b.parts ctx)
  | .table t, h => by
    unfold BranchSource.text BranchSource.parts
    exact (Ident.agree hg .table t h).bind fun s ps hs => (Shows.word "SELECT * FROM ").append hs
  | .select s, h => by
    unfold BranchSource.text BranchSource.parts
    exact hg.nests s h.2 (.inl h.1) (Select.agree hg s h.2)
  | .query q, _ => by
    unfold BranchSource.text BranchSource.parts
    exact Shows.wordOf _

theorem Branch.agree (hg : p.Grounds ctx) : (b : Branch) → b.Obeys p →
    Agree (Shows ctx.quoting p.Clear) (b.text ctx) (b.parts ctx)
  | ⟨source, all⟩, h => by
    unfold Branch.text Branch.parts
    exact (BranchSource.agree hg source h).bind fun s ps hs => (Shows.word _).append hs.enclosed

theorem Branch.agreeAll (hg : p.Grounds ctx) : (bs : List Branch) → Branch.AllObey p bs →
    Agree (List.Forall₂ (Shows ctx.quoting p.Clear)) (Branch.texts ctx bs) (Branch.partLists ctx bs)
  | [], _ => .nil
  | b :: rest, h => by
    unfold Branch.texts Branch.partLists
    exact (Branch.agree hg b h.1).consM (Branch.agreeAll hg rest h.2)

theorem Select.agree (hg : p.Grounds ctx) : (s : Select) → s.Obeys p →
    Agree (Draft.Shown p ctx) (s.template ctx) (s.draft ctx)
  | ⟨distinct, columns, tables, joins, ⟨criteria, orderBy, limit⟩, groupBy, having, offset, unions,
      ⟨params, _, _⟩⟩, h => by
    obtain ⟨hcolumns, htables, hjoins, hcriteria, hgroup, hhaving, horder, hunions, hparams⟩ := h
    have hk : ∀ key, params.contains key = true → p.key key := fun _ => hparams.key
    unfold Select.template Select.draft
    refine (Ident.agreeAll hg .column columns hcolumns).bind fun columns columns' hcolumns => ?_
    refine (Ident.agreeAll hg .table tables htables).bind fun tables tables' htables => ?_
    refine (Join.agreeAll hg joins hjoins).bind fun joins joins' hjoins => ?_
    refine (Criteria.agree hg hk criteria hcriteria).bind fun criteria criteria' hcriteria => ?_
    refine (Ident.agreeTargets hg groupBy hgroup).bind fun groupBy groupBy' hgroup => ?_
    refine (Criteria.agree hg hk having hhaving).bind fun having having' hhaving => ?_
    refine (SortKey.agreeAll hg orderBy horder).bind fun orderBy orderBy' horder => ?_
    refine (Branch.agreeAll hg unions hunions).bind fun unions unions' hunions => ?_
    refine ⟨fun hc => ?_, Params.agree hg params hparams⟩
    -- Tables are told apart by their text, so the parts have to show it.
    have hfrom := Shows.listClause " FROM " ", " (Shows.distinct htables hc)
    have hsql := (Shows.word (if distinct then "SELECT DISTINCT " else "SELECT ")).append
      (Shows.columns hcolumns) |>.append hfrom |>.append (Shows.listClause " " " " hjoins)
      |>.append (hcriteria.clause " WHERE ") |>.append (Shows.listClause " GROUP BY " ", " hgroup)
      |>.append (hhaving.clause " HAVING ") |>.append (Shows.listClause " ORDER BY " ", " horder)
      |>.append (Shows.word (countClause " LIMIT " limit))
      |>.append (Shows.word (countClause " OFFSET " offset))
    exact hsql.united hunions hc

end

/-! ## Statements -/

theorem Scope.agree (hg : p.Grounds ctx) (hk : ∀ key, isKey key = true → p.key key) (s : Scope)
    (h : s.Obeys p isKey) :
    Agree (Shows ctx.quoting p.Clear) (s.text ctx isKey) (s.parts ctx isKey) := by
  refine (Criteria.agree hg hk s.criteria h.1).bind fun criteria criteria' hcriteria => ?_
  refine (SortKey.agreeAll hg s.orderBy h.2).bind fun orderBy orderBy' horder => ?_
  exact ((hcriteria.clause " WHERE ").append (Shows.listClause " ORDER BY " ", " horder)).append
    (Shows.word (countClause " LIMIT " s.limit))

namespace Insert

theorem agree_row (hg : p.Grounds ctx) (hk : ∀ key, isKey key = true → p.key key)
    (row : List Value) (h : ∀ v ∈ row, p.operand isKey v (v.Obeys p)) :
    Agree (Shows ctx.quoting p.Clear) (rowText ctx isKey row) (rowParts ctx isKey row) := by
  have hrow := Agree.mapM row fun v hv => operand_agree hk v (h v hv) (Value.agree hg hk v)
  exact hrow.bind fun ss pss hs => (Shows.joined ", " hs).enclosed

theorem agree_source (hg : p.Grounds ctx) (hk : ∀ key, isKey key = true → p.key key) :
    (source : RowSource) → source.Obeys p isKey →
      Agree (Shows ctx.quoting p.Clear) (sourceText ctx isKey source) (sourceParts ctx isKey source)
  | .values rows, h => by
    have hrows := Agree.mapM rows fun row hrow => agree_row hg hk row (h row hrow)
    exact hrows.bind fun ss pss hs => (Shows.word "VALUES ").append (Shows.joined ", " hs)
  | .query (.select s), h => hg.nests s h.2 (.inl h.1) (Select.agree hg s h.2)
  | .query (.query q), _ => Shows.wordOf _

theorem agree (hg : p.Grounds ctx) (i : Insert) (h : i.Obeys p) :
    Agree (Draft.Shown p ctx) (i.template ctx) (i.draft ctx) := by
  obtain ⟨htable, hcolumns, hsource, hparams⟩ := h
  have hk : ∀ key, i.request.params.contains key = true → p.key key := fun _ => hparams.key
  unfold template draft
  cases htab : i.table with
  | none => rfl
  | some table =>
    refine (Ident.agree hg .table table (htable table htab)).bind fun table table' htable => ?_
    refine (Ident.agreeAll hg .column i.columns hcolumns).bind fun columns columns' hcolumns => ?_
    refine (agree_source hg hk i.source hsource).bind fun source source' hsource => ?_
    refine ⟨?_, Params.agree hg _ hparams⟩
    have hlist : Shows ctx.quoting p.Clear _ _ := Shows.columnList hcolumns
    exact (((Shows.word "INSERT INTO ").append htable).append (Shows.word " ")).append
      hlist |>.append hsource

end Insert

def AssignmentParts.Shown (p : Policy) (ctx : Context) (a : AssignmentText) (b : AssignmentParts) :
    Prop :=
  (p.Clear → a.column.toList = b.column) ∧ Shows ctx.quoting p.Clear a.text b.parts

namespace Assignment

theorem agree_put {a : AssignmentText} {b : AssignmentParts} (h : AssignmentParts.Shown p ctx a b)
    (hc : p.Clear) {as : List AssignmentText} {bs : List AssignmentParts}
    (hs : List.Forall₂ (AssignmentParts.Shown p ctx) as bs) :
    List.Forall₂ (AssignmentParts.Shown p ctx) (a.put as) (b.put bs) := by
  induction hs with
  | nil => exact .cons h .nil
  | @cons a' b' as bs h' hs ih =>
    have hcolumn : a'.column = a.column ↔ b'.column = b.column := by
      rw [← h.1 hc, ← h'.1 hc, String.toList_inj]
    simp only [AssignmentText.put, AssignmentParts.put, hcolumn]
    split
    · exact .cons h hs
    · exact .cons h' ih

theorem agree_merge (hc : p.Clear) {as : List AssignmentText} {bs : List AssignmentParts}
    (hs : List.Forall₂ (AssignmentParts.Shown p ctx) as bs) :
    List.Forall₂ (AssignmentParts.Shown p ctx) (AssignmentText.merge as)
      (AssignmentParts.merge bs) := by
  suffices h : ∀ {as' bs'}, List.Forall₂ (AssignmentParts.Shown p ctx) as' bs' →
      List.Forall₂ (AssignmentParts.Shown p ctx) (as.foldl (fun merged a => a.put merged) as')
        (bs.foldl (fun merged b => b.put merged) bs') from h .nil
  induction hs with
  | nil => exact id
  | cons h _ ih => exact fun h' => ih (agree_put h hc h')

theorem agree (hg : p.Grounds ctx) (hk : ∀ key, isKey key = true → p.key key) (a : Assignment)
    (h : a.Obeys p isKey) :
    Agree (AssignmentParts.Shown p ctx) (a.text ctx isKey) (a.parts ctx isKey) := by
  refine (Ident.agree hg .column a.column h.1).bind fun column column' hcolumn => ?_
  refine (operand_agree hk a.value h.2 (Value.agree hg hk a.value)).bind fun value value' hvalue => ?_
  exact ⟨fun hc => (hcolumn hc).1, (hcolumn.append (Shows.word " = ")).append hvalue⟩

theorem agree_list (hg : p.Grounds ctx) (hk : ∀ key, isKey key = true → p.key key)
    (as : List Assignment) (h : ∀ a ∈ as, a.Obeys p isKey) :
    Agree (Shows ctx.quoting p.Clear) (listText ctx isKey as) (listParts ctx isKey as) := by
  refine (Agree.mapM as fun a ha => agree hg hk a (h a ha)).bind fun ts ps hs => fun hc => ?_
  refine Shows.joined ", " ?_ hc
  rw [List.forall₂_map_left_iff, List.forall₂_map_right_iff]
  exact (agree_merge hc hs).imp fun _ _ h => h.2

end Assignment

theorem Update.agree (hg : p.Grounds ctx) (u : Update) (h : u.Obeys p) :
    Agree (Draft.Shown p ctx) (u.template ctx) (u.draft ctx) := by
  obtain ⟨htable, hassignments, hscope, hparams⟩ := h
  have hk : ∀ key, u.request.params.contains key = true → p.key key := fun _ => hparams.key
  unfold Update.template Update.draft
  cases htab : u.table with
  | none => rfl
  | some table =>
    refine (Ident.agree hg .table table (htable table htab)).bind fun table table' htable => ?_
    refine (Assignment.agree_list hg hk u.assignments hassignments).bind fun set set' hset => ?_
    refine (Scope.agree hg hk u.scope hscope).bind fun scope scope' hscope => ?_
    refine ⟨?_, Params.agree hg _ hparams⟩
    exact (((Shows.word "UPDATE ").append htable).append (Shows.word " SET ")).append hset
      |>.append hscope

theorem Delete.agree (hg : p.Grounds ctx) (d : Delete) (h : d.Obeys p) :
    Agree (Draft.Shown p ctx) (d.template ctx) (d.draft ctx) := by
  obtain ⟨htable, hscope, hparams⟩ := h
  have hk : ∀ key, d.request.params.contains key = true → p.key key := fun _ => hparams.key
  unfold Delete.template Delete.draft
  cases htab : d.table with
  | none => rfl
  | some table =>
    refine (Ident.agree hg .table table (htable table htab)).bind fun table table' htable => ?_
    refine (Scope.agree hg hk d.scope hscope).bind fun scope scope' hscope => ?_
    refine ⟨?_, Params.agree hg _ hparams⟩
    exact ((Shows.word "DELETE FROM ").append htable).append hscope

/-- The two renderings of a statement agree. -/
theorem Statement.agree (hg : p.Grounds ctx) :
    (s : Statement) → s.Obeys p → Agree (Draft.Shown p ctx) (s.template ctx) (s.draft ctx)
  | .raw _, h => h.elim
  | .select s, h => Select.agree hg s h
  | .insert i, h => i.agree hg h
  | .update u, h => u.agree hg h
  | .delete d, h => d.agree hg h

end SqlComposer
