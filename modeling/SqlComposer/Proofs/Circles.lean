import Mathlib.Data.Finset.Card
import Mathlib.Data.Fintype.Pigeonhole
import Mathlib.Logic.Function.Basic
import Mathlib.Logic.Relation
import Mathlib.Tactic.TFAE
import SqlComposer.Proofs.Failures
import SqlComposer.Proofs.Lookups

/-!
# Circles of cells

A cell may hold what is bound to other cells, and be written after it was bound itself. So the text
of a cell may depend on its own, and then following the cells never ends. It ends if rendering comes
to no such cell, and only then.
-/

namespace SqlComposer

/-! ## What a result depends on -/

/-- Another answer for the cell would give another result. -/
def Depends {α : Type} (f : Lookup → Outcome α) (cell : Lookup) (id : CellId) : Prop :=
  ∃ answer, f (Function.update cell id answer) ≠ f cell

namespace Asks

variable {α : Type} {f : Lookup → Outcome α} {cell : Lookup}

/-- The first cell without a text makes the result what it is. -/
theorem update_first (hf : Asks f) (h : f cell = .error .endlessCells) :
    ∃ id, cell id = .error .endlessCells ∧
      f (Function.update cell id (.error .clockOverflow)) = .error .clockOverflow := by
  induction hf with
  | ok a => exact nomatch h
  | fails e => exact nomatch h
  | @ask id next _ ih =>
    simp only at h ⊢
    cases hcell : cell id with
    | error failure =>
      rw [hcell] at h
      obtain rfl : failure = .endlessCells := Except.error.inj h
      exact ⟨id, hcell, by rw [Function.update_self]; rfl⟩
    | ok s =>
      rw [hcell] at h
      obtain ⟨first, hfirst, hupdate⟩ := ih s h
      have hne : id ≠ first := by
        rintro rfl
        exact nomatch hcell.symm.trans hfirst
      exact ⟨first, hfirst, by rw [Function.update_of_ne hne, hcell]; exact hupdate⟩

theorem exists_depends (hf : Asks f) (h : f cell = .error .endlessCells) :
    ∃ id, cell id = .error .endlessCells ∧ Depends f cell id := by
  obtain ⟨id, hcell, hupdate⟩ := hf.update_first h
  refine ⟨id, hcell, .error .clockOverflow, ?_⟩
  rw [hupdate, h]
  simp

/-- A result that ends depends on cells that end, where the look-ups give all that there is. -/
theorem ends_of_depends (hf : Asks f) {cell' : Lookup} (hends : f cell' ≠ .error .endlessCells)
    (h : ∀ id, cell' id = .error .endlessCells ∨ cell id = cell' id) {id : CellId}
    (hdepends : Depends f cell id) : cell' id ≠ .error .endlessCells := by
  intro hnone
  obtain ⟨answer, hanswer⟩ := hdepends
  apply hanswer
  rw [hf.stable h hends]
  refine hf.stable (fun other => ?_) hends
  by_cases hother : other = id
  · exact .inl (hother ▸ hnone)
  · rw [Function.update_of_ne hother]
    exact h other

end Asks

/-! ## As deep as need be -/

namespace Cells

variable {cells : Cells} {q : Quoting}

theorem text_of_le {depth more : Nat} (h : depth ≤ more) (id : CellId) :
    cells.text q depth id = .error .endlessCells ∨
      cells.text q more id = cells.text q depth id := by
  induction h with
  | refl => exact .inr rfl
  | @step more _ ih =>
    rcases ih with hnone | hsame
    · exact .inl hnone
    · rcases cells.text_succ q more id with hnone | hmore
      · exact .inl (hsame.symm.trans hnone)
      · exact .inr (hmore.trans hsame)

theorem text_of_size_le {id : CellId} (h : cells.size ≤ id) (depth : Nat) :
    cells.text q (depth + 1) id = .ok "NULL" := by
  have hnull : cells.get id = .null := by
    unfold get
    rw [List.getElem?_eq_none h]
    rfl
  rw [text, hnull]
  rfl

theorem text_saturated {depth : Nat} (h : cells.text q (depth + 1) = cells.text q depth)
    {more : Nat} (hmore : depth ≤ more) : cells.text q more = cells.text q depth := by
  induction hmore with
  | refl => rfl
  | @step more _ ih =>
    funext id
    rw [← congrFun h id, text, text, ih]

/-- The cells that have no text when they are followed only that deep. -/
def endless (cells : Cells) (q : Quoting) (depth : Nat) : Finset CellId :=
  (Finset.range cells.size).filter (cells.text q depth · = .error .endlessCells)

theorem mem_endless {depth : Nat} {id : CellId} :
    id ∈ cells.endless q (depth + 1) ↔ cells.text q (depth + 1) id = .error .endlessCells := by
  unfold endless
  rw [Finset.mem_filter, Finset.mem_range, and_iff_right_iff_imp]
  intro hnone
  by_contra hsize
  rw [text_of_size_le (Nat.le_of_not_lt hsize)] at hnone
  exact nomatch hnone

theorem endless_subset (depth : Nat) :
    cells.endless q (depth + 2) ⊆ cells.endless q (depth + 1) := by
  intro id hid
  rw [mem_endless] at hid ⊢
  rcases cells.text_succ q (depth + 1) id with hnone | hsame
  · exact hnone
  · exact hsame.symm.trans hid

theorem text_eq_of_endless_eq {depth : Nat}
    (h : cells.endless q (depth + 2) = cells.endless q (depth + 1)) :
    cells.text q (depth + 2) = cells.text q (depth + 1) := by
  funext id
  rcases cells.text_succ q (depth + 1) id with hnone | hsame
  · rw [hnone, ← mem_endless, h, mem_endless]
    exact hnone
  · exact hsame

/-- Each depth gives a text to one more cell, until none changes any more. -/
theorem saturated_or_card_le (depth : Nat) :
    (∃ d ≤ depth, cells.text q (d + 1) = cells.text q d) ∨
      (cells.endless q (depth + 1)).card + depth ≤ cells.size := by
  induction depth with
  | zero =>
    right
    exact (Finset.card_filter_le _ _).trans_eq (Finset.card_range _)
  | succ depth ih =>
    rcases ih with ⟨d, hd, hsame⟩ | hcard
    · exact .inl ⟨d, Nat.le_succ_of_le hd, hsame⟩
    · by_cases hsame : cells.endless q (depth + 2) = cells.endless q (depth + 1)
      · exact .inl ⟨depth + 1, Nat.le_refl _, text_eq_of_endless_eq hsame⟩
      · right
        have hlt : (cells.endless q (depth + 1 + 1)).card < (cells.endless q (depth + 1)).card :=
          Finset.card_lt_card ((endless_subset depth).ssubset_of_ne hsame)
        omega

/-- It is enough to follow the cells as deep as rendering does. -/
theorem text_of_size_lt {depth : Nat} (h : cells.size < depth) :
    cells.text q depth = (cells.context q).cell := by
  obtain ⟨d, hd, hsame⟩ : ∃ d ≤ cells.size + 1, cells.text q (d + 1) = cells.text q d := by
    rcases saturated_or_card_le cells.size with ⟨d, hd, hsame⟩ | hcard
    · exact ⟨d, Nat.le_succ_of_le hd, hsame⟩
    · have hempty : cells.endless q (cells.size + 1) = ∅ := by
        rw [← Finset.card_eq_zero]
        omega
      refine ⟨cells.size + 1, Nat.le_refl _, text_eq_of_endless_eq ?_⟩
      rw [hempty, ← Finset.subset_empty, ← hempty]
      exact endless_subset _
  exact (text_saturated hsame (hd.trans h)).trans (text_saturated hsame hd).symm

theorem text_context (depth : Nat) (id : CellId) :
    cells.text q depth id = .error .endlessCells ∨
      (cells.context q).cell id = cells.text q depth id := by
  rcases Nat.lt_or_ge cells.size depth with hlt | hle
  · exact .inr (congrFun (text_of_size_lt hlt) id).symm
  · exact text_of_le (Nat.le_succ_of_le hle) id

/-- The text of a cell is that of its value, and ends as that does. -/
theorem context_cell (id : CellId) :
    (cells.context q).cell id = (cells.get id).quote (cells.context q) :=
  (congrFun (text_of_size_lt (Nat.lt_succ_of_lt (Nat.lt_succ_self _))) id).symm

/-! ## Circles -/

variable (cells q)

/-- From some depth on, rendering has one and the same result, however deep cells are followed. -/
def Ends {α : Type} (render : Context → Outcome α) : Prop :=
  ∃ depth result, result ≠ .error .endlessCells ∧
    ∀ more ≥ depth, render ⟨q, cells.text q more⟩ = result

/-- The text of the one cell depends on the text of the other. -/
def Needs (id next : CellId) : Prop :=
  Depends (fun cell => (cells.get id).quote ⟨q, cell⟩) (cells.context q).cell next

/-- Rendering depends on a cell from which there is a way to one whose text depends on its own. -/
def Circles {α : Type} (render : Context → Outcome α) : Prop :=
  ∃ id circle, Depends (fun cell => render ⟨q, cell⟩) (cells.context q).cell id ∧
    Relation.ReflTransGen (cells.Needs q) id circle ∧
    Relation.TransGen (cells.Needs q) circle circle

variable {cells q}

theorem ends_iff_context {α : Type} {render : Context → Outcome α} :
    cells.Ends q render ↔ render (cells.context q) ≠ .error .endlessCells := by
  have hdeep : ∀ more > cells.size, render ⟨q, cells.text q more⟩ = render (cells.context q) := by
    intro more hmore
    rw [text_of_size_lt hmore]
    rfl
  constructor
  · rintro ⟨depth, result, hends, hresult⟩
    have hmore := hresult (max depth (cells.size + 1)) (le_max_left _ _)
    rwa [← hdeep _ (Nat.lt_of_succ_le (le_max_right depth _)), hmore]
  · intro hends
    exact ⟨cells.size + 1, _, hends, fun more hmore => hdeep more (Nat.lt_of_succ_le hmore)⟩

theorem Needs.text_ne {id next : CellId} (h : cells.Needs q id next) {depth : Nat}
    (hends : cells.text q (depth + 1) id ≠ .error .endlessCells) :
    cells.text q depth next ≠ .error .endlessCells :=
  (Value.asks q (cells.get id)).ends_of_depends hends (text_context depth) h

/-- From a cell that ends there is no way to a circle: each step needs one depth less. -/
theorem not_circle_of_text_ne {depth : Nat} {id circle : CellId}
    (hends : cells.text q depth id ≠ .error .endlessCells)
    (hway : Relation.ReflTransGen (cells.Needs q) id circle) :
    ¬ Relation.TransGen (cells.Needs q) circle circle := by
  induction depth generalizing id with
  | zero => exact absurd rfl hends
  | succ depth ih =>
    intro hcircle
    rcases hway.cases_head with rfl | ⟨next, hnext, hway⟩
    · obtain ⟨next, hnext, hway⟩ := Relation.TransGen.head'_iff.mp hcircle
      exact ih (hnext.text_ne hends) hway hcircle
    · exact ih (hnext.text_ne hends) hway hcircle

theorem exists_needs {id : CellId} (h : (cells.context q).cell id = .error .endlessCells) :
    ∃ next, cells.Needs q id next ∧ (cells.context q).cell next = .error .endlessCells := by
  rw [context_cell] at h
  obtain ⟨next, hnone, hneeds⟩ := (Value.asks q (cells.get id)).exists_depends h
  exact ⟨next, hneeds, hnone⟩

theorem lt_size_of_endless {id : CellId} (h : (cells.context q).cell id = .error .endlessCells) :
    id < cells.size := by
  by_contra hsize
  exact nomatch h.symm.trans (text_of_size_le (Nat.le_of_not_lt hsize) cells.size)

/-- From a cell that never ends there is always a next one, and there are only so many. -/
theorem exists_circle {id : CellId} (h : (cells.context q).cell id = .error .endlessCells) :
    ∃ circle, Relation.ReflTransGen (cells.Needs q) id circle ∧
      Relation.TransGen (cells.Needs q) circle circle := by
  choose! next hneeds hnone using fun id => @exists_needs cells q id
  have hends (n : Nat) : (cells.context q).cell (next^[n] id) = .error .endlessCells := by
    induction n with
    | zero => exact h
    | succ n ih =>
      rw [Function.iterate_succ_apply']
      exact hnone _ ih
  have hstep (n : Nat) : cells.Needs q (next^[n] id) (next^[n + 1] id) := by
    rw [Function.iterate_succ_apply']
    exact hneeds _ (hends n)
  have hway (i n : Nat) :
      Relation.ReflTransGen (cells.Needs q) (next^[i] id) (next^[i + n] id) := by
    induction n with
    | zero => exact .refl
    | succ n ih => exact ih.tail (hstep (i + n))
  let visit (n : Nat) : Fin cells.size := ⟨next^[n] id, lt_size_of_endless (hends n)⟩
  obtain ⟨i, j, hne, hsame⟩ := Finite.exists_ne_map_eq_of_infinite visit
  wlog hlt : i < j generalizing i j
  · exact this j i hne.symm hsame.symm (Nat.lt_of_le_of_ne (Nat.le_of_not_lt hlt) hne.symm)
  obtain ⟨n, rfl⟩ := Nat.exists_eq_add_of_lt hlt
  have hagain : next^[i] id = next^[i + n + 1] id := congrArg Fin.val hsame
  have hcircle := Relation.TransGen.tail' (hway i n) (hstep (i + n))
  rw [← hagain] at hcircle
  have hfirst := hway 0 i
  rw [Nat.zero_add] at hfirst
  exact ⟨next^[i] id, hfirst, hcircle⟩

theorem ends_iff_no_circle {α : Type} {render : Context → Outcome α}
    (h : Asks fun cell => render ⟨q, cell⟩) : List.TFAE [
      cells.Ends q render,
      render (cells.context q) ≠ .error .endlessCells,
      ¬ cells.Circles q render] := by
  tfae_have 1 ↔ 2 := ends_iff_context
  tfae_have 2 → 3 := by
    rintro hends ⟨id, circle, hdepends, hway, hcircle⟩
    have hid := h.ends_of_depends hends (fun _ => .inr rfl) hdepends
    exact not_circle_of_text_ne hid hway hcircle
  tfae_have 3 → 2 := by
    intro hcircles hnone
    obtain ⟨id, hid, hdepends⟩ := h.exists_depends hnone
    obtain ⟨circle, hway, hcircle⟩ := exists_circle hid
    exact hcircles ⟨id, circle, hdepends, hway, hcircle⟩
  tfae_finish

end Cells

/-! ## Runs without a circle -/

/-- What a program does with cells: it makes one, or writes one. -/
inductive CellCall where
  | new (v : Value)
  | set (id : CellId) (v : Value)

namespace CellCall

/-- What is written refers to cells that there are. -/
def Knows (cells : Cells) : CellCall → Prop
  | .new v => ∀ next, .cell next ∈ v.mentions → next < cells.size
  | .set id v => id < cells.size ∧ ∀ next, .cell next ∈ v.mentions → next < cells.size

/-- What is written into a cell leads back to the cell. -/
def Closes (cells : Cells) : CellCall → Prop
  | .new _ => False
  | .set id v => (cells.set id v).Within v.mentions (.cell id)

end CellCall

namespace Cells

def perform (cells : Cells) : CellCall → Cells
  | .new v => (cells.alloc v).2
  | .set id v => cells.set id v

def run (cells : Cells) (calls : List CellCall) : Cells := calls.foldl perform cells

/-- None of the calls closes a circle. -/
def Orderly : Cells → List CellCall → Prop
  | _, [] => True
  | cells, c :: rest => c.Knows cells ∧ ¬ c.Closes cells ∧ (cells.perform c).Orderly rest

/-- Cells refer to cells that there are, and none of them leads back to itself. -/
structure Tame (cells : Cells) : Prop where
  known : ∀ id next, .cell next ∈ (cells.get id).mentions → next < cells.size
  acyclic : ∀ id, ¬ cells.Within (cells.get id).mentions (.cell id)

variable {cells : Cells} {ms : List Mention} {m : Mention} {id : CellId} {v : Value}

theorem size_alloc (cells : Cells) (v : Value) : (cells.alloc v).2.size = cells.size + 1 :=
  List.length_append

theorem size_set (cells : Cells) (id : CellId) (v : Value) : (cells.set id v).size = cells.size :=
  List.length_set

theorem get_alloc_self (cells : Cells) (v : Value) : (cells.alloc v).2.get cells.size = v := by
  simp [get, alloc, size]

theorem get_alloc_of_ne (h : id ≠ cells.size) (v : Value) :
    (cells.alloc v).2.get id = cells.get id := by
  unfold get alloc
  rcases Nat.lt_or_gt_of_ne h with hlt | hgt
  · rw [List.getElem?_append_left hlt]
  · rw [List.getElem?_eq_none (Nat.le_of_lt hgt), List.getElem?_eq_none]
    rw [List.length_append]
    exact hgt

theorem get_set_self (h : id < cells.size) (v : Value) : (cells.set id v).get id = v := by
  unfold size at h
  simp [get, set, h]

theorem get_set_of_ne {other : CellId} (h : other ≠ id) (v : Value) :
    (cells.set id v).get other = cells.get other := by
  simp only [get, set, List.getElem?_set_ne h.symm]

theorem Within.trans (hcell : cells.Within ms (.cell id))
    (h : cells.Within (cells.get id).mentions m) : cells.Within ms m := by
  induction h with
  | here hm => exact .inside hcell hm
  | inside _ hm ih => exact .inside ih hm

/-- Until a way comes to a cell that was written, it leads where it led before. -/
theorem Within.of_set (h : (cells.set id v).Within ms m) (hid : id < cells.size) :
    cells.Within ms m ∨
      (cells.set id v).Within ms (.cell id) ∧ (cells.set id v).Within v.mentions m := by
  induction h with
  | here hm => exact .inl (.here hm)
  | @inside next m hcell hm ih =>
    by_cases hnext : next = id
    · subst hnext
      rw [get_set_self hid] at hm
      exact .inr ⟨hcell, .here hm⟩
    · rw [get_set_of_ne hnext] at hm
      rcases ih with hbefore | ⟨hway, hback⟩
      · exact .inl (.inside hbefore hm)
      · refine .inr ⟨hway, .inside hback ?_⟩
        rwa [get_set_of_ne hnext]

/-- A new cell is nowhere on a way from what refers to earlier ones. -/
theorem Within.of_alloc (h : (cells.alloc v).2.Within ms m) (hknown : cells.Tame)
    (hms : ∀ next, .cell next ∈ ms → next < cells.size) :
    cells.Within ms m ∧ ∀ next, m = .cell next → next < cells.size := by
  induction h with
  | here hm => exact ⟨.here hm, fun next hnext => hms next (hnext ▸ hm)⟩
  | @inside id m _ hm ih =>
    obtain ⟨hcell, hlt⟩ := ih
    rw [get_alloc_of_ne (hlt id rfl).ne] at hm
    exact ⟨.inside hcell hm, fun next hnext => hknown.known id next (hnext ▸ hm)⟩

theorem not_within_nil : ¬ cells.Within [] m := by
  intro h
  induction h with
  | here hm => exact absurd hm List.not_mem_nil
  | inside _ _ ih => exact ih

theorem tame_empty : Tame .empty := by
  have hempty (id : CellId) : (Cells.get .empty id).mentions = [] := by
    simp [get, empty, Value.mentions]
  constructor
  · intro id next hnext
    rw [hempty] at hnext
    exact absurd hnext List.not_mem_nil
  · intro id hcircle
    rw [hempty] at hcircle
    exact not_within_nil hcircle

theorem Tame.alloc (h : cells.Tame)
    (hknown : ∀ next, .cell next ∈ v.mentions → next < cells.size) :
    (cells.alloc v).2.Tame := by
  constructor
  · intro id next hnext
    rw [size_alloc]
    by_cases hid : id = cells.size
    · subst hid
      rw [get_alloc_self] at hnext
      exact Nat.lt_succ_of_lt (hknown next hnext)
    · rw [get_alloc_of_ne hid] at hnext
      exact Nat.lt_succ_of_lt (h.known id next hnext)
  · intro id hcircle
    by_cases hid : id = cells.size
    · subst hid
      rw [get_alloc_self] at hcircle
      exact Nat.lt_irrefl _ ((hcircle.of_alloc h hknown).2 _ rfl)
    · rw [get_alloc_of_ne hid] at hcircle
      exact h.acyclic id (hcircle.of_alloc h (h.known id)).1

theorem Tame.set (h : cells.Tame) (hid : id < cells.size)
    (hknown : ∀ next, .cell next ∈ v.mentions → next < cells.size)
    (hopen : ¬ (cells.set id v).Within v.mentions (.cell id)) : (cells.set id v).Tame := by
  constructor
  · intro other next hnext
    rw [size_set]
    by_cases hother : other = id
    · subst hother
      rw [get_set_self hid] at hnext
      exact hknown next hnext
    · rw [get_set_of_ne hother] at hnext
      exact h.known other next hnext
  · intro other hcircle
    by_cases hother : other = id
    · subst hother
      rw [get_set_self hid] at hcircle
      exact hopen hcircle
    · rcases hcircle.of_set hid with hbefore | ⟨hway, hback⟩
      · rw [get_set_of_ne hother] at hbefore
        exact h.acyclic other hbefore
      · exact hopen (hback.trans hway)

/-- A call that closes no circle keeps the cells tame. -/
theorem Tame.perform (h : cells.Tame) {c : CellCall} (hknows : c.Knows cells)
    (hcloses : ¬ c.Closes cells) : (cells.perform c).Tame := by
  cases c with
  | new v => exact h.alloc hknows
  | set id v => exact h.set hknows.1 hknows.2 hcloses

theorem Tame.run (h : cells.Tame) {calls : List CellCall} (hcalls : cells.Orderly calls) :
    (cells.run calls).Tame := by
  induction calls generalizing cells with
  | nil => exact h
  | cons c calls ih =>
    obtain ⟨hknows, hcloses, hrest⟩ := hcalls
    exact ih (h.perform hknows hcloses) hrest

theorem Tame.ends {q : Quoting} {α : Type} {render : Context → Outcome α} (h : cells.Tame)
    (hblames : Blames (cells.context q) ms (render (cells.context q))) : cells.Ends q render := by
  rw [ends_iff_context]
  intro hnone
  obtain ⟨m, hm, hcauses⟩ := hblames _ hnone
  cases m with
  | direction d => exact nomatch hcauses.2
  | cell id =>
    obtain ⟨d, -, -, hfailure⟩ := blames_text (fun id _ => h.acyclic id) q (cells.size + 1)
      (.here hm) List.nodup_nil (by simp) (by simp) hcauses
    exact nomatch hfailure

/-- Rendering a statement or a fragment ends exactly if it depends on no cell from which there is a
way to one whose text depends on its own. In a run of calls that write no cell back to itself, there
is no such cell. -/
theorem rendering_ends :
    (∀ (cells : Cells) (q : Quoting),
      (∀ s : Statement, List.TFAE [cells.Ends q s.toSql,
        s.toSql (cells.context q) ≠ .error .endlessCells, ¬ cells.Circles q s.toSql]) ∧
      ∀ f : Fragment, List.TFAE [cells.Ends q fun ctx => (f.template ctx).fill,
        (f.template (cells.context q)).fill ≠ .error .endlessCells,
        ¬ cells.Circles q fun ctx => (f.template ctx).fill]) ∧
    ∀ calls : List CellCall, Cells.empty.Orderly calls → ∀ q : Quoting,
      (∀ s : Statement, (Cells.empty.run calls).Ends q s.toSql) ∧
      ∀ f : Fragment, (Cells.empty.run calls).Ends q fun ctx => (f.template ctx).fill := by
  refine ⟨fun cells q => ⟨fun s => ends_iff_no_circle (Statement.asks q s),
    fun f => ends_iff_no_circle (Fragment.asks q f)⟩, fun calls hcalls q =>
    ⟨fun s => ?_, fun f => ?_⟩⟩
  · cases htarget : s.hasTarget with
    | true => exact (tame_empty.run hcalls).ends (Statement.blames _ htarget)
    | false =>
      rw [ends_iff_context, Statement.toSql_noTarget htarget]
      exact fun h => nomatch h
  · exact (tame_empty.run hcalls).ends (Fragment.blames _ f)

/-- A cell that is written with a fragment bound to it. However deep it is followed, a query that is
bound to it has no result. -/
theorem written_into_itself :
    let v : Value := .fragment ((Fragment.new "1").bind ":n" 0)
    let cells := Cells.empty.run [.new (.int 1), .set 0 v]
    let s : Statement := .raw ⟨.select, "SELECT :v", ⟨Params.empty.bind ":v" 0, {}, none⟩⟩
    (CellCall.set 0 v).Knows (Cells.empty.run [.new (.int 1)]) ∧
      ∀ q, (∀ depth, s.toSql ⟨q, cells.text q depth⟩ = .error .endlessCells) ∧
        ¬ cells.Ends q s.toSql := by
  intro v cells s
  have hfill (sql key : String) (hkey : key ≠ "") (ctx : Context)
      (h : ctx.cell 0 = .error .endlessCells) :
      ((Fragment.mk sql ⟨[.cell key 0]⟩).template ctx).fill = .error .endlessCells := by
    simp [Template.fill, Fragment.template, Params.replacements, Param.replacements,
      Param.replacement, hkey, h, bind, Except.bind]
  have htext (q : Quoting) (depth : Nat) : cells.text q depth 0 = .error .endlessCells := by
    induction depth with
    | zero => rfl
    | succ depth ih => exact hfill "1" ":n" (by decide) ⟨q, cells.text q depth⟩ ih
  have hsql (q : Quoting) (depth : Nat) :
      s.toSql ⟨q, cells.text q depth⟩ = .error .endlessCells :=
    hfill "SELECT :v" ":v" (by decide) ⟨q, cells.text q depth⟩ (htext q depth)
  refine ⟨⟨Nat.one_pos, fun next hnext => ?_⟩, fun q => ⟨hsql q, ?_⟩⟩
  · have hmentions : v.mentions = [.cell 0] := rfl
    rw [hmentions, List.mem_singleton] at hnext
    cases hnext
    exact Nat.one_pos
  · rintro ⟨depth, result, hends, hresult⟩
    exact hends ((hresult depth (Nat.le_refl depth)).symm.trans (hsql q depth))

end Cells

end SqlComposer
