import SqlComposer.Builder.Criteria
import SqlComposer.Proofs.Direct

/-!
# Predicates and their texts

Of the entries of a condition list only the predicates have texts of their own. Entry by entry, the
list renders in the order in which it was written.
-/

namespace SqlComposer

/-- A predicate without the logic that connects it. -/
structure Predicate where
  column : Ident
  op : String
  value : Value

variable (ctx : Context) (isKey : String → Bool)

def Predicate.text (p : Predicate) : Outcome String := do
  let right ← rightSide (operator p.op p.value) p.value "(NULL)" (p.value.bounds ctx isKey)
    (operand isKey p.value (p.value.quote ctx))
  let left ← p.column.subject ctx
  return Text.trim (left ++ " " ++ operator p.op p.value ++ " " ++ right)

def Condition.predicate? : Condition → Option Predicate
  | .predicate _ column op value => some ⟨column, op, value⟩
  | _ => none

/-- The predicates of a condition list, in their order. -/
def Criteria.predicates (c : Criteria) : List Predicate := c.entries.filterMap Condition.predicate?

variable {ctx isKey}

theorem Condition.piece_eq (logic : Logic) (p : Predicate) :
    (Condition.predicate logic p.column p.op p.value).piece ctx isKey =
      Piece.predicate logic <$> p.text ctx isKey := by
  rw [Condition.piece_predicate, Predicate.text]
  simp only [map_bind, map_pure]

theorem Condition.pieces_append (as bs : List Condition) :
    Condition.pieces ctx isKey (as ++ bs) = (do
      return (← Condition.pieces ctx isKey as) ++ (← Condition.pieces ctx isKey bs)) := by
  induction as with
  | nil =>
    simp only [List.nil_append, Condition.pieces]
    exact (bind_pure _).symm
  | cons c as ih =>
    simp only [List.cons_append, Condition.pieces, ih, bind_assoc, pure_bind]

end SqlComposer
