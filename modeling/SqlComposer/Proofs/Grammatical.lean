import SqlComposer.Proofs.Agree
import SqlComposer.Proofs.Grammar
import SqlComposer.Proofs.Policy

/-!
# Statements that follow a grammar

If a grammar admits what a policy lets occur, every statement that obeys the policy has fine parts:
whatever opens something closes it, and something soft stands between any two things.
-/

namespace SqlComposer

/-! ## What a grammar has to admit -/

structure Grammar.FineDraft (g : Grammar) (p : Policy) (isKey : String → Bool) (d : Draft) :
    Prop where
  parts : g.Fine isKey d.parts
  keys : ∀ key, isKey key = true → p.key key
  fillings : p.values → Yields (fun table =>
    (∀ f ∈ table, p.key f.key ∧ g.Fine (fun _ => false) f.parts) ∧
      ∀ key, isKey key = true → key ≠ "" → ∃ f ∈ table, f.key = key) d.fillings

/-- The grammar admits what the policy lets occur. -/
structure Grammar.Admits (g : Grammar) (p : Policy) (ctx : Context) : Prop where
  lawful : g.Lawful
  raw : ¬ p.raw
  float : ∀ x, Text.IsNumeral (ctx.quoting.floatText x)
  text : ∀ s, p.text s → g.good (.literal s)
  key : ∀ key, p.key key → g.good (.place key)
  name : ∀ s, p.name s → ∀ role, ∀ part ∈ ctx.quoting.parts role s, g.good (.name part)
  aliasName : ∀ s, p.name s → g.good (.name (ctx.quoting.strip s)) ∧
    g.good (.name (ctx.quoting.tablePrefix ++ ctx.quoting.strip s))
  operator : ∀ op, p.operator op → ∀ isKey, g.Fine isKey (Part.word (Text.upper op))
  joinKind : ∀ kind, p.joinKind kind → ∀ isKey, g.Fine isKey (Part.word (Text.upper kind))
  groups : ∀ entries, p.groups entries → g.nested → Condition.climb 0 entries = some 0
  cell : ∀ id s, p.cell id → ctx.cell id = .ok s → g.Fine (fun _ => false) (Part.word s)
  /-- A query inside a statement, once its places are filled. -/
  nests : p.asRows ∨ p.asName → ∀ isKey d, g.FineDraft p isKey d →
    ∀ isKey', Yields (g.Fine isKey') d.settled

variable {g : Grammar} {p : Policy} {ctx : Context} {isKey : String → Bool}

namespace Grammar.Admits

variable (ha : g.Admits p ctx)
include ha

theorem nameParts {s : String} (h : p.name s) (role : Role) :
    g.Fine isKey (ctx.quoting.nameParts role s) := by
  refine Fine.joined ha.lawful "." (by decide) (by decide) fun ps hps => ?_
  obtain ⟨part, hpart, rfl⟩ := List.mem_map.mp hps
  unfold Quoting.partParts
  split
  · next hstar =>
    rw [hstar.2]
    exact Fine.word ha.lawful "*" (by decide)
  · exact Fine.single (ha.name s h role part hpart) (fun _ => rfl) (by simp)

theorem aliasParts {s : String} (h : p.name s) (role : Role) :
    g.Fine isKey (ctx.quoting.aliasParts role s) := by
  refine Fine.single ?_ (fun _ => rfl) (by simp)
  split
  · exact (ha.aliasName s h).2
  · exact (ha.aliasName s h).1

theorem operatorText {op : String} (h : p.operator op) (v : Value) :
    g.Fine isKey (Part.word (SqlComposer.operator op v)) := by
  unfold SqlComposer.operator
  split
  · exact Fine.word ha.lawful "IS" (by decide)
  · split
    · exact Fine.word ha.lawful "IS NOT" (by decide)
    · exact ha.operator op h isKey

theorem joinOperatorText {op : String} (h : p.operator op) {ps rs : List Part}
    (hp : g.Fine isKey ps) (hr : g.Fine isKey rs) :
    g.Fine isKey (ps ++ Part.word (joinOperator op) ++ Part.word " " ++ rs) := by
  have hblank : g.Fine isKey (Part.word " ") := Fine.word ha.lawful " " (by decide)
  unfold joinOperator
  split
  · simpa [Part.word] using hp.spaced ha.lawful hblank (by decide) hr
  · have hleft := hp.spaced ha.lawful hblank (by decide) (ha.operator op h isKey)
    rw [Part.word_append, ← List.append_assoc]
    exact hleft.spaced ha.lawful hblank (by decide) hr

theorem joinWordText {kind : Option String} (h : ∀ k, kind = some k → p.joinKind k)
    {ps : List Part} (hp : g.Fine isKey ps) : g.Fine isKey (Part.word (joinWord kind) ++ ps) := by
  have hjoin : g.Fine isKey (Part.word "JOIN " ++ ps) :=
    (Fine.word ha.lawful "JOIN " (by decide)).append_ends ha.lawful hp
      (Part.endsSoft_word (by decide))
  unfold joinWord
  split
  · next k =>
    split
    · exact hjoin
    · rw [Part.word_append]
      exact (ha.joinKind k (h k rfl) isKey).spaced ha.lawful
        (Fine.word ha.lawful " JOIN " (by decide)) (by decide) hp
  · exact hjoin

theorem pair {x y : Outcome (List Part)} (hx : Yields (g.Fine isKey) x)
    (hy : Yields (g.Fine isKey) y) :
    Yields (g.Fine isKey) (x >>= fun ps => y >>= fun rs => pure (ps ++ Part.word " AND " ++ rs)) := by
  refine hx.bind fun ps hps => hy.bind fun rs hrs => .ok ?_
  exact hps.spaced ha.lawful (.word ha.lawful " AND " (by decide)) (by decide) hrs

theorem nested (hp : p.asRows ∨ p.asName) {inside : String → Bool} {x : Outcome Draft}
    (hx : Yields (g.FineDraft p inside) x) :
    Yields (g.Fine isKey) (x >>= fun d => d.settled >>= fun ps => pure (Part.enclosed ps)) := by
  refine hx.bind fun d hd => (ha.nests hp _ d hd isKey).bind fun ps hps => .ok ?_
  exact hps.enclosed ha.lawful

end Grammar.Admits

/-! ## Terms -/

mutual

theorem Value.fine (ha : g.Admits p ctx) {isKey : String → Bool}
    (hk : ∀ key, isKey key = true → p.key key) :
    (v : Value) → p.operand isKey v (v.Obeys p) → Yields (g.Fine isKey) (v.parts ctx isKey)
  | .null, _ => .ok (.word ha.lawful "NULL" (by decide))
  | .bool b, _ => .ok (.single (ha.lawful.flag b) (fun _ => rfl) (by simp))
  | .int n, _ => .ok (.numeral ha.lawful (Text.isNumeral_toString _))
  | .float x, _ => .ok (.numeral ha.lawful (ha.float x))
  | .text s, h => by
    refine .ok ?_
    by_cases hs : isKey s = true
    · rw [if_pos hs]
      exact .single (ha.key s (hk s hs)) (fun _ => rfl) (by simpa using hs)
    · rw [if_neg hs]
      exact .single (ha.text s (h.resolve_left hs)) (fun _ => rfl) (by simp)
  | .list items, h => by
    unfold Value.parts
    refine (Value.fineAll ha hk items h).bind fun pss hps => .ok ?_
    exact (Grammar.Fine.joined ha.lawful ", " (by decide) (by decide) hps).enclosed ha.lawful
  | .pair low high, h => by
    unfold Value.parts
    exact ha.pair (Value.fine ha hk low (operand_of_obeys h.1))
      (Value.fine ha hk high (operand_of_obeys h.2))
  | .fragment _, h => (ha.raw h).elim
  | .subquery s, h => by
    unfold Value.parts
    exact ha.nested (.inl h.1) (Select.fine ha s h.2)

theorem Value.fineAll (ha : g.Admits p ctx) {isKey : String → Bool}
    (hk : ∀ key, isKey key = true → p.key key) : (vs : List Value) → Value.AllObey p vs →
      Yields (fun pss => ∀ ps ∈ pss, g.Fine isKey ps) (Value.partLists ctx isKey vs)
  | [], _ => .ok (by simp)
  | v :: rest, h => by
    unfold Value.partLists
    exact (Value.fine ha hk v (operand_of_obeys h.1)).consM (Value.fineAll ha hk rest h.2)

theorem Value.fineBounds (ha : g.Admits p ctx) {isKey : String → Bool}
    (hk : ∀ key, isKey key = true → p.key key) :
    (v : Value) → (v.BoundsObey p isKey).getD (p.operand isKey v (v.Obeys p)) →
      (p.operand isKey v (v.Obeys p) → Yields (g.Fine isKey) (v.parts ctx isKey)) →
      Yields (g.Fine isKey) ((v.boundParts ctx isKey).getD (v.parts ctx isKey))
  | .pair low high, h, _ => by
    unfold Value.boundParts
    exact ha.pair (Value.fine ha hk low h.1) (Value.fine ha hk high h.2)
  | .list [low, high], h, _ => by
    unfold Value.boundParts
    exact ha.pair (Value.fine ha hk low h.1) (Value.fine ha hk high h.2)
  | .null, h, hwhole | .bool _, h, hwhole | .int _, h, hwhole | .float _, h, hwhole
  | .text _, h, hwhole | .fragment _, h, hwhole | .subquery _, h, hwhole
  | .list [], h, hwhole | .list [_], h, hwhole | .list (_ :: _ :: _ :: _), h, hwhole => hwhole h

theorem Param.fine (ha : g.Admits p ctx) : (r : Param) → r.Obeys p → p.values →
    Yields (fun f => (∀ a ∈ f, p.key a.key ∧ g.Fine (fun _ => false) a.parts) ∧
      (r.key ≠ "" → ∃ a ∈ f, a.key = r.key)) (r.filling ctx)
  | .value key v, h, hp => by
    unfold Param.filling
    split
    · next hkey => exact .ok ⟨by simp, fun hne => absurd hkey hne⟩
    · have hk : ∀ key, (fun _ : String => false) key = true → p.key key := by simp
      refine (Value.fine ha hk v (operand_of_obeys (h.2 hp))).bind fun ps hps => .ok ⟨?_, ?_⟩
      · intro a hmem
        obtain rfl := Option.mem_some_iff.mp hmem
        exact ⟨h.1, hps⟩
      · exact fun _ => ⟨_, rfl, rfl⟩
  | .cell key id, h, hp => by
    unfold Param.filling
    split
    · next hkey => exact .ok ⟨by simp, fun hne => absurd hkey hne⟩
    · have hcell : Yields (fun s => g.Fine (fun _ => false) (Part.word s)) (ctx.cell id) :=
        fun s hs => ha.cell id s (h.2 hp) hs
      refine hcell.bind fun s hs => .ok ⟨?_, ?_⟩
      · intro a hmem
        obtain rfl := Option.mem_some_iff.mp hmem
        exact ⟨h.1, hs⟩
      · exact fun _ => ⟨_, rfl, rfl⟩

theorem Param.fineAll (ha : g.Admits p ctx) : (rs : List Param) → Param.AllObey p rs → p.values →
    Yields (fun table => (∀ f ∈ table, p.key f.key ∧ g.Fine (fun _ => false) f.parts) ∧
      ∀ r ∈ rs, r.key ≠ "" → ∃ f ∈ table, f.key = r.key) (Param.fillings ctx rs)
  | [], _, _ => .ok (by simp)
  | r :: rest, h, hp => by
    unfold Param.fillings
    refine (Param.fine ha r h.1 hp).bind fun f hf => ?_
    refine (Param.fineAll ha rest h.2 hp).bind fun table htable => .ok ⟨fun a hmem => ?_, ?_⟩
    · rcases List.mem_append.mp hmem with hmem | hmem
      · exact hf.1 a (Option.mem_toList.mp hmem)
      · exact htable.1 a hmem
    · intro q hq hne
      rcases List.mem_cons.mp hq with rfl | hq
      · obtain ⟨a, hmem, hkey⟩ := hf.2 hne
        exact ⟨a, List.mem_append_left _ (Option.mem_toList.mpr hmem), hkey⟩
      · obtain ⟨a, hmem, hkey⟩ := htable.2 q hq hne
        exact ⟨a, List.mem_append_right _ hmem, hkey⟩

theorem Params.fine (ha : g.Admits p ctx) : (params : Params) → params.Obeys p → p.values →
    Yields (fun table => (∀ f ∈ table, p.key f.key ∧ g.Fine (fun _ => false) f.parts) ∧
      ∀ key, params.contains key = true → key ≠ "" → ∃ f ∈ table, f.key = key)
      (params.fillings ctx)
  | ⟨entries⟩, h, hp => by
    unfold Params.fillings
    refine (Param.fineAll ha entries h hp).mono fun table htable => ⟨htable.1, ?_⟩
    intro key hkey hne
    obtain ⟨r, hr, hrkey⟩ := List.any_eq_true.mp hkey
    obtain rfl := beq_iff_eq.mp hrkey
    exact htable.2 r hr hne

theorem Ident.fine (ha : g.Admits p ctx) (role : Role) (isKey : String → Bool) :
    (i : Ident) → i.Obeys p → Yields (g.Fine isKey) (i.parts ctx role)
  | .name _, h => .ok (ha.nameParts h role)
  | .aliased inner _, h => by
    unfold Ident.parts
    refine (Ident.fine ha role isKey inner h.1).bind fun ps hps => .ok ?_
    exact hps.spaced ha.lawful (.word ha.lawful " AS " (by decide)) (by decide)
      (ha.aliasParts h.2 role)
  | .aliasName _, h => .ok (ha.nameParts h _)
  | .fragment _, h => (ha.raw h).elim
  | .subquery s, h => by
    unfold Ident.parts
    exact ha.nested (.inr h.1) (Select.fine ha s h.2)

theorem Ident.fineAll (ha : g.Admits p ctx) (role : Role) (isKey : String → Bool) :
    (is : List Ident) → Ident.AllObey p is →
      Yields (fun pss => ∀ ps ∈ pss, g.Fine isKey ps) (Ident.partLists ctx role is)
  | [], _ => .ok (by simp)
  | i :: rest, h => by
    unfold Ident.partLists
    exact (Ident.fine ha role isKey i h.1).consM (Ident.fineAll ha role isKey rest h.2)

theorem Ident.fineSubject (ha : g.Admits p ctx) (isKey : String → Bool) :
    (i : Ident) → i.Obeys p → Yields (g.Fine isKey) (i.subjectParts ctx)
  | .name s, h => by
    unfold Ident.subjectParts
    split
    · exact .ok .nil
    · exact .ok (ha.nameParts h _)
  | .aliased inner _, h => by
    unfold Ident.subjectParts
    exact Ident.fine ha .plain isKey inner h.1
  | .aliasName _, h => .ok (ha.nameParts h _)
  | .fragment _, h => (ha.raw h).elim
  | .subquery s, h => by
    unfold Ident.subjectParts
    exact ha.nested (.inr h.1) (Select.fine ha s h.2)

theorem Ident.fineTarget (ha : g.Admits p ctx) (isKey : String → Bool) :
    (i : Ident) → i.Obeys p → Yields (g.Fine isKey) (i.targetParts ctx)
  | .name _, h => .ok (ha.nameParts h _)
  | .aliased _ _, h => .ok (ha.nameParts h.2 _)
  | .aliasName _, h => .ok (ha.nameParts h _)
  | .fragment _, h => (ha.raw h).elim
  | .subquery s, h => by
    unfold Ident.targetParts
    exact ha.nested (.inr h.1) (Select.fine ha s h.2)

theorem Ident.fineTargets (ha : g.Admits p ctx) (isKey : String → Bool) :
    (is : List Ident) → Ident.AllObey p is →
      Yields (fun pss => ∀ ps ∈ pss, g.Fine isKey ps) (Ident.targetPartLists ctx is)
  | [], _ => .ok (by simp)
  | i :: rest, h => by
    unfold Ident.targetPartLists
    exact (Ident.fineTarget ha isKey i h.1).consM (Ident.fineTargets ha isKey rest h.2)

theorem Condition.fine (ha : g.Admits p ctx) {isKey : String → Bool}
    (hk : ∀ key, isKey key = true → p.key key) :
    (c : Condition) → c.Obeys p isKey → Yields (fun e => e.Fine g isKey ∧ Stretch.Like c e) (c.stretch ctx isKey)
  | .opening _, _ => .ok ⟨trivial, trivial⟩
  | .closing _, _ => .ok ⟨trivial, trivial⟩
  | .predicate logic column op value, h => by
    obtain ⟨hcolumn, hop, hvalue⟩ := h
    have hblank : g.Fine isKey (Part.word " ") := .word ha.lawful " " (by decide)
    have hwhole := Value.fine ha hk value
    rw [Condition.stretch]
    refine Yields.bind (P := g.Fine isKey) ?_ fun right hright => ?_
    · simp only [rightSide]
      split
      · next hbetween =>
        exact Value.fineBounds ha hk value (by simpa [hbetween] using hvalue) hwhole
      · next hbetween =>
        split
        · exact .ok ((Grammar.Fine.word ha.lawful "NULL" (by decide)).enclosed ha.lawful)
        · exact hwhole (by simpa [hbetween] using hvalue)
    · refine (Ident.fineSubject ha isKey column hcolumn).bind fun left hleft => .ok ?_
      have hoperator := hleft.spaced ha.lawful hblank (by decide) (ha.operatorText hop value)
      exact ⟨(hoperator.spaced ha.lawful hblank (by decide) hright).trim, trivial⟩

theorem Condition.fineAll (ha : g.Admits p ctx) {isKey : String → Bool}
    (hk : ∀ key, isKey key = true → p.key key) :
    (cs : List Condition) → Condition.AllObey p isKey cs →
      Yields (fun es => (∀ e ∈ es, e.Fine g isKey) ∧ List.Forall₂ Stretch.Like cs es)
        (Condition.stretches ctx isKey cs)
  | [], _ => .ok ⟨by simp, .nil⟩
  | c :: rest, h => by
    unfold Condition.stretches
    refine (Condition.fine ha hk c h.1).bind fun e he => ?_
    refine (Condition.fineAll ha hk rest h.2).bind fun es hes => .ok ?_
    exact ⟨List.forall_mem_cons.mpr ⟨he.1, hes.1⟩, .cons he.2 hes.2⟩

theorem Criteria.fine (ha : g.Admits p ctx) {isKey : String → Bool}
    (hk : ∀ key, isKey key = true → p.key key) :
    (c : Criteria) → c.Obeys p isKey → Yields (g.Fine isKey) (c.parts ctx isKey)
  | ⟨entries⟩, h => by
    unfold Criteria.parts
    refine (Condition.fineAll ha hk entries h.2).bind fun es hes => .ok ?_
    refine Stretch.fine_layout ha.lawful hes.1 fun hn => ?_
    rw [Stretch.climb_eq_of_like hes.2]
    exact ha.groups entries h.1 hn

theorem OnPair.fine (ha : g.Admits p ctx) (isKey : String → Bool) :
    (o : OnPair) → o.Obeys p → Yields (g.Fine isKey) (o.parts ctx)
  | ⟨left, op, right⟩, h => by
    unfold OnPair.parts
    refine (Ident.fine ha .column isKey left h.1).bind fun ps hps => ?_
    refine (Ident.fine ha .column isKey right h.2.2).bind fun rs hrs => .ok ?_
    exact ha.joinOperatorText h.2.1 hps hrs

theorem OnPair.fineAll (ha : g.Admits p ctx) (isKey : String → Bool) :
    (os : List OnPair) → OnPair.AllObey p os →
      Yields (fun pss => ∀ ps ∈ pss, g.Fine isKey ps) (OnPair.partLists ctx os)
  | [], _ => .ok (by simp)
  | o :: rest, h => by
    unfold OnPair.partLists
    exact (OnPair.fine ha isKey o h.1).consM (OnPair.fineAll ha isKey rest h.2)

theorem JoinCondition.fine (ha : g.Admits p ctx) (isKey : String → Bool) :
    (c : JoinCondition) → c.Obeys p → Yields (g.Tail isKey) (c.parts ctx)
  | .free, _ => .ok .nil
  | .on pairs, h => by
    unfold JoinCondition.parts
    refine (OnPair.fineAll ha isKey pairs h).bind fun pss hpss => .ok ?_
    have hlist := Grammar.Fine.joined ha.lawful " AND " (by decide) (by decide) hpss
    exact .behind ha.lawful " ON " (by decide) (by decide) (hlist.enclosed ha.lawful)
  | .using columns, h => by
    unfold JoinCondition.parts
    refine (Ident.fineAll ha .column isKey columns h).bind fun pss hpss => .ok ?_
    have hlist := Grammar.Fine.joined ha.lawful ", " (by decide) (by decide) hpss
    exact .behind ha.lawful " USING " (by decide) (by decide) (hlist.enclosed ha.lawful)

theorem Join.fine (ha : g.Admits p ctx) (isKey : String → Bool) :
    (j : Join) → j.Obeys p → Yields (g.Fine isKey) (j.parts ctx)
  | ⟨table, kind, condition⟩, h => by
    unfold Join.parts
    refine (Ident.fine ha .table isKey table h.1).bind fun ps hps => ?_
    refine (JoinCondition.fine ha isKey condition h.2.2).bind fun rs hrs => .ok ?_
    exact hrs.after ha.lawful (ha.joinWordText h.2.1 hps)

theorem Join.fineAll (ha : g.Admits p ctx) (isKey : String → Bool) :
    (js : List Join) → Join.AllObey p js →
      Yields (fun pss => ∀ ps ∈ pss, g.Fine isKey ps) (Join.partLists ctx js)
  | [], _ => .ok (by simp)
  | j :: rest, h => by
    unfold Join.partLists
    exact (Join.fine ha isKey j h.1).consM (Join.fineAll ha isKey rest h.2)

theorem SortKey.fine (ha : g.Admits p ctx) (isKey : String → Bool) :
    (k : SortKey) → k.Obeys p → Yields (g.Fine isKey) (k.parts ctx)
  | ⟨column, direction⟩, h => by
    unfold SortKey.parts
    refine (Ident.fineTarget ha isKey column h).bind fun ps hps => fun rs hrs => ?_
    exact hps.directed ha.lawful hrs

theorem SortKey.fineAll (ha : g.Admits p ctx) (isKey : String → Bool) :
    (ks : List SortKey) → SortKey.AllObey p ks →
      Yields (fun pss => ∀ ps ∈ pss, g.Fine isKey ps) (SortKey.partLists ctx ks)
  | [], _ => .ok (by simp)
  | k :: rest, h => by
    unfold SortKey.partLists
    exact (SortKey.fine ha isKey k h.1).consM (SortKey.fineAll ha isKey rest h.2)

theorem BranchSource.fine (ha : g.Admits p ctx) (isKey : String → Bool) :
    (b : BranchSource) → b.Obeys p → Yields (g.Fine isKey) (b.parts ctx)
  | .table t, h => by
    unfold BranchSource.parts
    refine (Ident.fine ha .table isKey t h).bind fun ps hps => .ok ?_
    exact (Grammar.Fine.word ha.lawful "SELECT * FROM " (by decide)).append_ends ha.lawful hps
      (Part.endsSoft_word (by decide))
  | .select s, h => by
    unfold BranchSource.parts
    exact (Select.fine ha s h.2).bind fun d hd => ha.nests (.inl h.1) _ d hd isKey
  | .query _, h => (ha.raw h).elim

theorem Branch.fine (ha : g.Admits p ctx) (isKey : String → Bool) :
    (b : Branch) → b.Obeys p → Yields (g.Tail isKey) (b.parts ctx)
  | ⟨source, all⟩, h => by
    unfold Branch.parts
    refine (BranchSource.fine ha isKey source h).bind fun ps hps => .ok ?_
    cases all with
    | true =>
      exact .behind ha.lawful " UNION ALL " (by decide) (by decide) (hps.enclosed ha.lawful)
    | false =>
      exact .behind ha.lawful " UNION " (by decide) (by decide) (hps.enclosed ha.lawful)

theorem Branch.fineAll (ha : g.Admits p ctx) (isKey : String → Bool) :
    (bs : List Branch) → Branch.AllObey p bs →
      Yields (fun pss => ∀ ps ∈ pss, g.Tail isKey ps) (Branch.partLists ctx bs)
  | [], _ => .ok (by simp)
  | b :: rest, h => by
    unfold Branch.partLists
    exact (Branch.fine ha isKey b h.1).consM (Branch.fineAll ha isKey rest h.2)

theorem Select.fine (ha : g.Admits p ctx) : (s : Select) → s.Obeys p →
    Yields (g.FineDraft p s.request.params.contains) (s.draft ctx)
  | ⟨distinct, columns, tables, joins, ⟨criteria, orderBy, limit⟩, groupBy, having, offset, unions,
      ⟨params, _, _⟩⟩, h => by
    obtain ⟨hcolumns, htables, hjoins, hcriteria, hgroup, hhaving, horder, hunions, hparams⟩ := h
    have hk : ∀ key, params.contains key = true → p.key key := fun _ => hparams.key
    unfold Select.draft
    refine (Ident.fineAll ha .column params.contains columns hcolumns).bind fun columns hcolumns => ?_
    refine (Ident.fineAll ha .table params.contains tables htables).bind fun tables htables => ?_
    refine (Join.fineAll ha params.contains joins hjoins).bind fun joins hjoins => ?_
    refine (Criteria.fine ha hk criteria hcriteria).bind fun criteria hcriteria => ?_
    refine (Ident.fineTargets ha params.contains groupBy hgroup).bind fun groupBy hgroup => ?_
    refine (Criteria.fine ha hk having hhaving).bind fun having hhaving => ?_
    refine (SortKey.fineAll ha params.contains orderBy horder).bind fun orderBy horder => ?_
    refine (Branch.fineAll ha params.contains unions hunions).bind fun unions hunions => .ok ?_
    refine ⟨Grammar.Fine.united ha.lawful ?_ hunions, hk, Params.fine ha params hparams⟩
    have hl := ha.lawful
    -- Every clause starts with something soft, so it may follow whatever was written before it.
    have hselect : g.Fine params.contains
        (Part.word (if distinct then "SELECT DISTINCT " else "SELECT ")) ∧
          Part.EndsSoft (Part.word (if distinct then "SELECT DISTINCT " else "SELECT ")) := by
      cases distinct
      · exact ⟨.word hl "SELECT " (by decide), Part.endsSoft_word (by decide)⟩
      · exact ⟨.word hl "SELECT DISTINCT " (by decide), Part.endsSoft_word (by decide)⟩
    have hcolumns := hselect.1.append_ends hl (Grammar.Fine.columns (q := ctx.quoting) hl hcolumns)
      hselect.2
    have hfrom := Grammar.Tail.listClause hl " FROM " ", " (by decide) (by decide) (by decide)
      (by decide) fun ps hps => htables ps (Part.mem_of_mem_distinct (q := ctx.quoting) hps)
    have hjoin := Grammar.Tail.listClause hl " " " " (by decide) (by decide) (by decide)
      (by decide) hjoins
    have hwhere := Grammar.Tail.clause hl " WHERE " (by decide) (by decide) hcriteria
    have hgroupBy := Grammar.Tail.listClause hl " GROUP BY " ", " (by decide) (by decide)
      (by decide) (by decide) hgroup
    have hhaving := Grammar.Tail.clause hl " HAVING " (by decide) (by decide) hhaving
    have horderBy := Grammar.Tail.listClause hl " ORDER BY " ", " (by decide) (by decide)
      (by decide) (by decide) horder
    have hlimit : g.Tail params.contains _ :=
      .countClause hl " LIMIT " (by decide) (by decide) limit
    have hoffset : g.Tail params.contains _ :=
      .countClause hl " OFFSET " (by decide) (by decide) offset
    exact hoffset.after hl (hlimit.after hl (horderBy.after hl (hhaving.after hl
      (hgroupBy.after hl (hwhere.after hl (hjoin.after hl (hfrom.after hl hcolumns)))))))

end

/-! ## Statements -/

theorem Scope.fine (ha : g.Admits p ctx) (hk : ∀ key, isKey key = true → p.key key) (s : Scope)
    (h : s.Obeys p isKey) : Yields (g.Tail isKey) (s.parts ctx isKey) := by
  have hl := ha.lawful
  refine (Criteria.fine ha hk s.criteria h.1).bind fun criteria hcriteria => ?_
  refine (SortKey.fineAll ha isKey s.orderBy h.2).bind fun orderBy horder => .ok ?_
  have hwhere := Grammar.Tail.clause hl " WHERE " (by decide) (by decide) hcriteria
  have horderBy := Grammar.Tail.listClause hl " ORDER BY " ", " (by decide) (by decide)
    (by decide) (by decide) horder
  have hlimit : g.Tail isKey _ := .countClause hl " LIMIT " (by decide) (by decide) s.limit
  exact (hwhere.append hl horderBy).append hl hlimit

namespace Insert

theorem fine_row (ha : g.Admits p ctx) (hk : ∀ key, isKey key = true → p.key key)
    (row : List Value) (h : ∀ v ∈ row, p.operand isKey v (v.Obeys p)) :
    Yields (g.Fine isKey) (rowParts ctx isKey row) := by
  have hrow := Yields.mapM row fun v hv => Value.fine ha hk v (h v hv)
  refine hrow.bind fun pss hpss => .ok ?_
  exact (Grammar.Fine.joined ha.lawful ", " (by decide) (by decide) hpss).enclosed ha.lawful

theorem fine_source (ha : g.Admits p ctx) (hk : ∀ key, isKey key = true → p.key key) :
    (source : RowSource) → source.Obeys p isKey →
      Yields (g.Fine isKey) (sourceParts ctx isKey source)
  | .values rows, h => by
    have hrows := Yields.mapM rows fun row hrow => fine_row ha hk row (h row hrow)
    refine hrows.bind fun pss hpss => .ok ?_
    exact (Grammar.Fine.word ha.lawful "VALUES " (by decide)).append_ends ha.lawful
      (.joined ha.lawful ", " (by decide) (by decide) hpss) (Part.endsSoft_word (by decide))
  | .query (.select s), h =>
    (Select.fine ha s h.2).bind fun d hd => ha.nests (.inl h.1) _ d hd isKey
  | .query (.query _), h => (ha.raw h).elim

theorem fine (ha : g.Admits p ctx) (i : Insert) (h : i.Obeys p) :
    Yields (g.FineDraft p i.request.params.contains) (i.draft ctx) := by
  have hl := ha.lawful
  obtain ⟨htable, hcolumns, hsource, hparams⟩ := h
  have hk : ∀ key, i.request.params.contains key = true → p.key key := fun _ => hparams.key
  unfold draft
  cases htab : i.table with
  | none => exact fun _ h => nomatch h
  | some table =>
    refine (Ident.fine ha .table i.request.params.contains table (htable table htab)).bind
      fun table htable => ?_
    refine (Ident.fineAll ha .column i.request.params.contains i.columns hcolumns).bind
      fun columns hcolumns => ?_
    refine (fine_source ha hk i.source hsource).bind fun source hsource => .ok ?_
    refine ⟨?_, hk, Params.fine ha _ hparams⟩
    have hinto := (Grammar.Fine.word hl "INSERT INTO " (by decide)).append_ends hl htable
      (Part.endsSoft_word (by decide))
    obtain ⟨hleft, hends⟩ := hinto.columnList hl hcolumns
    exact hleft.append_ends hl hsource hends

end Insert

namespace Assignment

theorem fine (ha : g.Admits p ctx) (hk : ∀ key, isKey key = true → p.key key) (a : Assignment)
    (h : a.Obeys p isKey) : Yields (fun b => g.Fine isKey b.parts) (a.parts ctx isKey) := by
  refine (Ident.fine ha .column isKey a.column h.1).bind fun column hcolumn => ?_
  refine (Value.fine ha hk a.value h.2).bind fun value hvalue => .ok ?_
  exact hcolumn.spaced ha.lawful (.word ha.lawful " = " (by decide)) (by decide) hvalue

theorem mem_put {a b : AssignmentParts} {list : List AssignmentParts} (h : b ∈ a.put list) :
    b = a ∨ b ∈ list := by
  induction list with
  | nil => exact Or.inl (List.mem_singleton.mp h)
  | cons c list ih =>
    rw [AssignmentParts.put] at h
    split at h
    · rcases List.mem_cons.mp h with rfl | h
      · exact Or.inl rfl
      · exact Or.inr (List.mem_cons_of_mem _ h)
    · rcases List.mem_cons.mp h with rfl | h
      · exact Or.inr List.mem_cons_self
      · exact (ih h).imp_right (List.mem_cons_of_mem _)

theorem mem_of_mem_merge {b : AssignmentParts} {list : List AssignmentParts}
    (h : b ∈ AssignmentParts.merge list) : b ∈ list := by
  suffices hfold : ∀ merged, b ∈ list.foldl (fun merged a => a.put merged) merged →
      b ∈ list ∨ b ∈ merged by simpa using hfold [] h
  clear h
  induction list with
  | nil => exact fun merged => Or.inr
  | cons a list ih =>
    intro merged h
    rcases ih _ h with h | h
    · exact Or.inl (List.mem_cons_of_mem _ h)
    · rcases mem_put h with rfl | h
      · exact Or.inl List.mem_cons_self
      · exact Or.inr h

theorem fine_list (ha : g.Admits p ctx) (hk : ∀ key, isKey key = true → p.key key)
    (as : List Assignment) (h : ∀ a ∈ as, a.Obeys p isKey) :
    Yields (g.Fine isKey) (listParts ctx isKey as) := by
  refine (Yields.mapM as fun a hmem => fine ha hk a (h a hmem)).bind fun list hlist => .ok ?_
  refine Grammar.Fine.joined ha.lawful ", " (by decide) (by decide) fun ps hps => ?_
  obtain ⟨b, hb, rfl⟩ := List.mem_map.mp hps
  exact hlist b (mem_of_mem_merge hb)

end Assignment

theorem Update.fine (ha : g.Admits p ctx) (u : Update) (h : u.Obeys p) :
    Yields (g.FineDraft p u.request.params.contains) (u.draft ctx) := by
  have hl := ha.lawful
  obtain ⟨htable, hassignments, hscope, hparams⟩ := h
  have hk : ∀ key, u.request.params.contains key = true → p.key key := fun _ => hparams.key
  unfold Update.draft
  cases htab : u.table with
  | none => exact fun _ h => nomatch h
  | some table =>
    refine (Ident.fine ha .table u.request.params.contains table (htable table htab)).bind
      fun table htable => ?_
    refine (Assignment.fine_list ha hk u.assignments hassignments).bind fun set hset => ?_
    refine (Scope.fine ha hk u.scope hscope).bind fun scope hscope => .ok ?_
    refine ⟨hscope.after hl ?_, hk, Params.fine ha _ hparams⟩
    have hupdate := (Grammar.Fine.word hl "UPDATE " (by decide)).append_ends hl htable
      (Part.endsSoft_word (by decide))
    exact hupdate.spaced hl (.word hl " SET " (by decide)) (by decide) hset

theorem Delete.fine (ha : g.Admits p ctx) (d : Delete) (h : d.Obeys p) :
    Yields (g.FineDraft p d.request.params.contains) (d.draft ctx) := by
  have hl := ha.lawful
  obtain ⟨htable, hscope, hparams⟩ := h
  have hk : ∀ key, d.request.params.contains key = true → p.key key := fun _ => hparams.key
  unfold Delete.draft
  cases htab : d.table with
  | none => exact fun _ h => nomatch h
  | some table =>
    refine (Ident.fine ha .table d.request.params.contains table (htable table htab)).bind
      fun table htable => ?_
    refine (Scope.fine ha hk d.scope hscope).bind fun scope hscope => .ok ?_
    refine ⟨hscope.after hl ?_, hk, Params.fine ha _ hparams⟩
    exact (Grammar.Fine.word hl "DELETE FROM " (by decide)).append_ends hl htable
      (Part.endsSoft_word (by decide))

/-- What a grammar admits is fine in every statement. -/
theorem Statement.fine (ha : g.Admits p ctx) : (s : Statement) → s.Obeys p →
    Yields (g.FineDraft p s.request.params.contains) (s.draft ctx)
  | .raw _, h => h.elim
  | .select s, h => Select.fine ha s h
  | .insert i, h => i.fine ha h
  | .update u, h => u.fine ha h
  | .delete d, h => d.fine ha h

end SqlComposer
