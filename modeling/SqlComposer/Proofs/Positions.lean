import SqlComposer.Proofs.Retext

/-!
# Texts by position

No two text values of a statement have the same path. So whatever texts another statement of the
same shape has, a retexting puts them there.
-/

namespace SqlComposer

/-- No text at all, which leaves the shape. -/
def Retexting.blank : Retexting := fun _ _ => ""

/-! ## Texts for a place -/

variable {α β γ δ : Type}

/-- There are texts that make `x` of what is retexted, wherever it stands. Their paths start
there. -/
def Reaches (r : Retexting → Path → α) (x : α) : Prop :=
  ∃ texts : Path → String, ∀ (g : Retexting) (path : Path),
    (∀ rest old, g (rest ++ path) old = texts rest) → r g path = x

/-- The same for a list. Its members have one more step in front of their paths. -/
def ReachesAll (r : Retexting → Path → Nat → List α) (xs : List α) : Prop :=
  ∃ texts : Nat → Path → String, ∀ (g : Retexting) (path : Path) (i : Nat),
    (∀ k rest old, g (rest ++ (i + k) :: path) old = texts k rest) → r g path i = xs

/-- Texts behind each step, by their paths. -/
def Path.behind (texts : Nat → Path → String) (path : Path) : String :=
  texts (path.getLastD 0) path.dropLast

theorem Path.behind_concat (texts : Nat → Path → String) (rest : Path) (k : Nat) :
    behind texts (rest ++ [k]) = texts k rest := by
  rw [behind, List.getLastD_concat, List.dropLast_concat]

theorem Path.of_behind {texts : Nat → Path → String} {g : Retexting} {path : Path}
    (h : ∀ rest old, g (rest ++ path) old = behind texts rest) (k : Nat) (rest : Path)
    (old : String) : g (rest ++ k :: path) old = texts k rest := by
  have hstep := h (rest ++ [k]) old
  rw [behind_concat, List.append_assoc] at hstep
  exact hstep

namespace Reaches

theorem const (x : α) : Reaches (fun _ _ => x) x := ⟨fun _ => "", fun _ _ _ => rfl⟩

theorem map {r : Retexting → Path → α} {x : α} (h : Reaches r x) (f : α → β) :
    Reaches (fun g path => f (r g path)) (f x) := by
  obtain ⟨texts, h⟩ := h
  exact ⟨texts, fun g path hg => congrArg f (h g path hg)⟩

theorem pair {r : Retexting → Path → α} {s : Retexting → Path → β} {x : α} {y : β}
    (hr : Reaches r x) (hs : Reaches s y) (f : α → β → γ) :
    Reaches (fun g path => f (r g (0 :: path)) (s g (1 :: path))) (f x y) := by
  obtain ⟨left, hr⟩ := hr
  obtain ⟨right, hs⟩ := hs
  refine ⟨Path.behind fun k => if k = 0 then left else right, fun g path hg => ?_⟩
  have hg := Path.of_behind hg
  exact congrArg₂ f (hr g _ (hg 0)) (hs g _ (hg 1))

theorem triple {r : Retexting → Path → α} {s : Retexting → Path → β} {t : Retexting → Path → γ}
    {x : α} {y : β} {z : γ} (hr : Reaches r x) (hs : Reaches s y) (ht : Reaches t z)
    (f : α → β → γ → δ) :
    Reaches (fun g path => f (r g (0 :: path)) (s g (1 :: path)) (t g (2 :: path))) (f x y z) := by
  obtain ⟨first, hr⟩ := hr
  obtain ⟨second, hs⟩ := hs
  obtain ⟨third, ht⟩ := ht
  refine ⟨Path.behind fun k => if k = 0 then first else if k = 1 then second else third,
    fun g path hg => ?_⟩
  have hg := Path.of_behind hg
  change f (r g (0 :: path)) (s g (1 :: path)) (t g (2 :: path)) = f x y z
  rw [hr g _ (hg 0), hs g _ (hg 1), ht g _ (hg 2)]

theorem exists_retexting {r : Retexting → Path → α} {x : α} (h : Reaches r x) :
    ∃ g, r g [] = x := by
  obtain ⟨texts, h⟩ := h
  exact ⟨fun path _ => texts path, h _ [] fun rest _ => congrArg texts (List.append_nil rest)⟩

end Reaches

namespace ReachesAll

theorem nil : ReachesAll (fun _ _ _ => ([] : List α)) [] := ⟨fun _ _ => "", fun _ _ _ _ => rfl⟩

theorem cons {r : Retexting → Path → α} {rs : Retexting → Path → Nat → List α} {x : α}
    {xs : List α} (hr : Reaches r x) (hrs : ReachesAll rs xs) :
    ReachesAll (fun g path i => r g (i :: path) :: rs g path (i + 1)) (x :: xs) := by
  obtain ⟨first, hr⟩ := hr
  obtain ⟨others, hrs⟩ := hrs
  refine ⟨fun k => k.casesOn first others, fun g path i hg => ?_⟩
  refine congrArg₂ List.cons (hr g _ (hg 0)) (hrs g path (i + 1) fun k rest old => ?_)
  rw [Nat.add_right_comm]
  exact hg (k + 1) rest old

theorem reaches {rs : Retexting → Path → Nat → List α} {xs : List α} (h : ReachesAll rs xs) :
    Reaches (fun g path => rs g path 0) xs := by
  obtain ⟨texts, h⟩ := h
  refine ⟨Path.behind texts, fun g path hg => h g path 0 fun k rest old => ?_⟩
  rw [Nat.zero_add]
  exact Path.of_behind hg k rest old

end ReachesAll

/-! ## Terms -/

mutual

theorem Value.reaches (p : Path) : (v v' : Value) → v.retext .blank p = v'.retext .blank p →
    Reaches (fun g path => v.retext g path) v'
  | .text s, v', h => by
    cases v' with
    | text s' => exact ⟨fun _ => s', fun g path hg => congrArg Value.text (hg [] s)⟩
    | _ => simp [Value.retext] at h
  | .list items, v', h => by
    cases v' with
    | list items' =>
      simp only [Value.retext, Value.list.injEq] at h
      exact (Value.reachesAll p 0 items items' h).reaches.map Value.list
    | _ => simp [Value.retext] at h
  | .pair low high, v', h => by
    cases v' with
    | pair low' high' =>
      simp only [Value.retext, Value.pair.injEq] at h
      exact (Value.reaches _ low low' h.1).pair (Value.reaches _ high high' h.2) Value.pair
    | _ => simp [Value.retext] at h
  | .subquery s, v', h => by
    cases v' with
    | subquery s' =>
      simp only [Value.retext, Value.subquery.injEq] at h
      exact (Select.reaches p s s' h).map Value.subquery
    | _ => simp [Value.retext] at h
  | .null, v', h | .bool _, v', h | .int _, v', h | .float _, v', h | .fragment _, v', h => by
    cases v' <;> simp [Value.retext] at h
    all_goals
      subst_vars
      exact .const _
termination_by structural v => v

theorem Value.reachesAll (p : Path) (i : Nat) : (vs vs' : List Value) →
    Value.retextAll .blank p i vs = Value.retextAll .blank p i vs' →
      ReachesAll (fun g path i => Value.retextAll g path i vs) vs'
  | [], [], _ => .nil
  | v :: rest, v' :: rest', h => by
    simp only [Value.retextAll, List.cons.injEq] at h
    exact .cons (Value.reaches _ v v' h.1) (Value.reachesAll p (i + 1) rest rest' h.2)
  | [], _ :: _, h | _ :: _, [], h => by simp [Value.retextAll] at h
termination_by structural vs => vs

theorem Condition.reaches (p : Path) : (c c' : Condition) →
    c.retext .blank p = c'.retext .blank p → Reaches (fun g path => c.retext g path) c'
  | .predicate logic column op value, c', h => by
    cases c' with
    | predicate logic' column' op' value' =>
      simp only [Condition.retext, Condition.predicate.injEq] at h
      obtain ⟨rfl, rfl, rfl, h⟩ := h
      exact (Value.reaches p value value' h).map (Condition.predicate logic column op)
    | _ => simp [Condition.retext] at h
  | .opening _, c', h | .closing _, c', h => by
    cases c' <;> simp [Condition.retext] at h
    subst_vars
    exact .const _
termination_by structural c => c

theorem Condition.reachesAll (p : Path) (i : Nat) : (cs cs' : List Condition) →
    Condition.retextAll .blank p i cs = Condition.retextAll .blank p i cs' →
      ReachesAll (fun g path i => Condition.retextAll g path i cs) cs'
  | [], [], _ => .nil
  | c :: rest, c' :: rest', h => by
    simp only [Condition.retextAll, List.cons.injEq] at h
    exact .cons (Condition.reaches _ c c' h.1) (Condition.reachesAll p (i + 1) rest rest' h.2)
  | [], _ :: _, h | _ :: _, [], h => by simp [Condition.retextAll] at h
termination_by structural cs => cs

theorem Criteria.reaches (p : Path) : (c c' : Criteria) →
    c.retext .blank p = c'.retext .blank p → Reaches (fun g path => c.retext g path) c'
  | ⟨entries⟩, ⟨entries'⟩, h => by
    simp only [Criteria.retext, Criteria.mk.injEq] at h
    exact (Condition.reachesAll p 0 entries entries' h).reaches.map Criteria.mk
termination_by structural c => c

theorem BranchSource.reaches (p : Path) : (b b' : BranchSource) →
    b.retext .blank p = b'.retext .blank p → Reaches (fun g path => b.retext g path) b'
  | .select s, b', h => by
    cases b' with
    | select s' =>
      simp only [BranchSource.retext, BranchSource.select.injEq] at h
      exact (Select.reaches p s s' h).map BranchSource.select
    | _ => simp [BranchSource.retext] at h
  | .table _, b', h | .query _, b', h => by
    cases b' <;> simp [BranchSource.retext] at h
    subst_vars
    exact .const _
termination_by structural b => b

theorem Branch.reaches (p : Path) : (b b' : Branch) →
    b.retext .blank p = b'.retext .blank p → Reaches (fun g path => b.retext g path) b'
  | ⟨source, all⟩, ⟨source', all'⟩, h => by
    simp only [Branch.retext, Branch.mk.injEq] at h
    obtain ⟨h, rfl⟩ := h
    exact (BranchSource.reaches p source source' h).map (Branch.mk · all)
termination_by structural b => b

theorem Branch.reachesAll (p : Path) (i : Nat) : (bs bs' : List Branch) →
    Branch.retextAll .blank p i bs = Branch.retextAll .blank p i bs' →
      ReachesAll (fun g path i => Branch.retextAll g path i bs) bs'
  | [], [], _ => .nil
  | b :: rest, b' :: rest', h => by
    simp only [Branch.retextAll, List.cons.injEq] at h
    exact .cons (Branch.reaches _ b b' h.1) (Branch.reachesAll p (i + 1) rest rest' h.2)
  | [], _ :: _, h | _ :: _, [], h => by simp [Branch.retextAll] at h
termination_by structural bs => bs

theorem Select.reaches (p : Path) : (s s' : Select) →
    s.retext .blank p = s'.retext .blank p → Reaches (fun g path => s.retext g path) s'
  | ⟨distinct, columns, tables, joins, ⟨criteria, orderBy, limit⟩, groupBy, having, offset, unions,
      request⟩, ⟨_, _, _, _, ⟨criteria', _, _⟩, _, having', _, unions', _⟩, h => by
    simp only [Select.retext, Select.mk.injEq, Scope.mk.injEq] at h
    obtain ⟨rfl, rfl, rfl, rfl, ⟨hcriteria, rfl, rfl⟩, rfl, hhaving, rfl, hunions, rfl⟩ := h
    exact (Criteria.reaches _ criteria criteria' hcriteria).triple
      (Criteria.reaches _ having having' hhaving)
      (Branch.reachesAll _ 0 unions unions' hunions).reaches
      fun criteria having unions => Select.mk distinct columns tables joins
        ⟨criteria, orderBy, limit⟩ groupBy having offset unions request
termination_by structural s => s

end

/-! ## Statements -/

theorem RowSource.exists_rows (i : Nat) : (rows rows' : List (List Value)) →
    retextRows .blank i rows = retextRows .blank i rows' →
      ∃ texts : Nat → Path → String, ∀ (g : Retexting) (i : Nat),
        (∀ k rest old, g (rest ++ [i + k]) old = texts k rest) → retextRows g i rows = rows'
  | [], [], _ => ⟨fun _ _ => "", fun _ _ _ => rfl⟩
  | row :: rest, row' :: rest', h => by
    simp only [retextRows, List.cons.injEq] at h
    obtain ⟨first, hfirst⟩ := (Value.reachesAll _ 0 row row' h.1).reaches
    obtain ⟨others, hothers⟩ := exists_rows (i + 1) rest rest' h.2
    refine ⟨fun k => k.casesOn first others, fun g i hg => ?_⟩
    refine congrArg₂ List.cons (hfirst g _ (hg 0)) (hothers g (i + 1) fun k rest old => ?_)
    rw [Nat.add_right_comm]
    exact hg (k + 1) rest old
  | [], _ :: _, h | _ :: _, [], h => by simp [retextRows] at h

theorem Assignment.exists_texts (i : Nat) : (as as' : List Assignment) →
    Assignment.retextAll .blank i as = Assignment.retextAll .blank i as' →
      ∃ texts : Nat → Path → String, ∀ (g : Retexting) (i : Nat),
        (∀ k rest old, g (rest ++ [i + k, 0]) old = texts k rest) →
          Assignment.retextAll g i as = as'
  | [], [], _ => ⟨fun _ _ => "", fun _ _ _ => rfl⟩
  | ⟨column, value⟩ :: rest, ⟨column', value'⟩ :: rest', h => by
    simp only [retextAll, List.cons.injEq, Assignment.mk.injEq] at h
    obtain ⟨⟨rfl, hvalue⟩, h⟩ := h
    obtain ⟨first, hfirst⟩ := Value.reaches _ value value' hvalue
    obtain ⟨others, hothers⟩ := exists_texts (i + 1) rest rest' h
    refine ⟨fun k => k.casesOn first others, fun g i hg => ?_⟩
    refine congrArg₂ List.cons (congrArg (Assignment.mk column) (hfirst g _ (hg 0)))
      (hothers g (i + 1) fun k rest old => ?_)
    rw [Nat.add_right_comm]
    exact hg (k + 1) rest old
  | [], _ :: _, h | _ :: _, [], h => by simp [retextAll] at h

theorem RowSource.exists_retext {source source' : RowSource}
    (h : source.retext .blank = source'.retext .blank) : ∃ g, source.retext g = source' := by
  cases source with
  | values rows =>
    cases source' with
    | values rows' =>
      obtain ⟨texts, hrows⟩ := exists_rows 0 rows rows' (RowSource.values.inj h)
      refine ⟨fun path _ => Path.behind texts path, congrArg RowSource.values ?_⟩
      refine hrows _ 0 fun k rest _ => ?_
      rw [Nat.zero_add]
      exact Path.behind_concat texts rest k
    | query q => cases q <;> simp [retext] at h
  | query q =>
    cases q with
    | select s =>
      cases source' with
      | values rows' => simp [retext] at h
      | query q' =>
        cases q' with
        | select s' =>
          simp only [retext, RowSource.query.injEq, RowQuery.select.injEq] at h
          obtain ⟨g, hg⟩ := (Select.reaches [] s s' h).exists_retexting
          exact ⟨g, congrArg (fun s => RowSource.query (.select s)) hg⟩
        | query q' => simp [retext] at h
    | query q =>
      cases source' with
      | values rows' => simp [retext] at h
      | query q' =>
        cases q' with
        | select s' => simp [retext] at h
        | query q' => exact ⟨.blank, h⟩

theorem Scope.exists_texts {s s' : Scope} (h : s.retext .blank = s'.retext .blank) :
    ∃ texts : Path → String, ∀ g : Retexting, (∀ rest old, g (rest ++ [1]) old = texts rest) →
      s.retext g = s' := by
  obtain ⟨criteria, orderBy, limit⟩ := s
  obtain ⟨criteria', orderBy', limit'⟩ := s'
  simp only [retext, Scope.mk.injEq] at h
  obtain ⟨hcriteria, rfl, rfl⟩ := h
  obtain ⟨texts, hcriteria⟩ := Criteria.reaches _ criteria criteria' hcriteria
  exact ⟨texts, fun g hg => congrArg (Scope.mk · orderBy limit) (hcriteria g [1] hg)⟩

theorem Update.exists_retext {u u' : Update}
    (h : (Statement.update u).retext .blank = (Statement.update u').retext .blank) :
    ∃ g, (Statement.update u).retext g = .update u' := by
  obtain ⟨table, assignments, scope, request⟩ := u
  obtain ⟨table', assignments', scope', request'⟩ := u'
  simp only [Statement.retext, Statement.update.injEq, Update.mk.injEq] at h
  obtain ⟨rfl, hassignments, hscope, rfl⟩ := h
  obtain ⟨set, hset⟩ := Assignment.exists_texts 0 assignments assignments' hassignments
  obtain ⟨conditions, hscope⟩ := Scope.exists_texts hscope
  -- The first step tells the values that are set from those in the conditions.
  refine ⟨fun path _ =>
    Path.behind (fun k => if k = 0 then Path.behind set else conditions) path, ?_⟩
  rw [Statement.retext, hset _ 0 fun k rest _ => ?_, hscope _ fun rest _ => ?_]
  · rw [Path.behind_concat]
    rfl
  · rw [Nat.zero_add, List.append_cons, Path.behind_concat, if_pos rfl, Path.behind_concat]

/-- A statement that differs in no more than its texts is what some retexting makes. -/
theorem Statement.exists_retext {s s' : Statement} (h : s.retext .blank = s'.retext .blank) :
    ∃ g, s.retext g = s' := by
  cases s with
  | raw q => exact ⟨.blank, by cases s' <;> simp_all [retext]⟩
  | select s =>
    cases s' with
    | select s' =>
      obtain ⟨g, hg⟩ := (Select.reaches [] s s' (Statement.select.inj h)).exists_retexting
      exact ⟨g, congrArg Statement.select hg⟩
    | _ => simp [retext] at h
  | insert i =>
    cases s' with
    | insert i' =>
      obtain ⟨table, columns, source, request⟩ := i
      obtain ⟨table', columns', source', request'⟩ := i'
      simp only [retext, Statement.insert.injEq, Insert.mk.injEq] at h
      obtain ⟨rfl, rfl, hsource, rfl⟩ := h
      obtain ⟨g, rfl⟩ := RowSource.exists_retext hsource
      exact ⟨g, rfl⟩
    | _ => simp [retext] at h
  | update u =>
    cases s' with
    | update u' => exact Update.exists_retext h
    | _ => simp [retext] at h
  | delete d =>
    cases s' with
    | delete d' =>
      obtain ⟨table, scope, request⟩ := d
      obtain ⟨table', scope', request'⟩ := d'
      simp only [retext, Statement.delete.injEq, Delete.mk.injEq] at h
      obtain ⟨rfl, hscope, rfl⟩ := h
      obtain ⟨texts, hscope⟩ := Scope.exists_texts hscope
      refine ⟨fun path _ => Path.behind (fun _ => texts) path, ?_⟩
      rw [retext, hscope _ fun rest _ => Path.behind_concat _ rest 1]
    | _ => simp [retext] at h

end SqlComposer
