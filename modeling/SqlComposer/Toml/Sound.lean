import SqlComposer.Toml.Scalar

/-!
# Which values a document may hold

Integers have 64 bits with a sign. A table inside the document may spell a date or a time: under a
reserved key, which must then come first in the order of the keys. Nothing else in it is looked at.
-/

namespace SqlComposer.Toml

def isInt64 (n : Int) : Bool := -(Nat.pow 2 63 : Int) ≤ n && n < (Nat.pow 2 63 : Int)

/-- The key under which a table spells a date or a time. -/
def momentKey : String := "$__toml_private_datetime"

/-- The value under the reserved key, if no key comes before it. -/
def spelled? (members : Members) : Option Value :=
  if members.all fun e => ¬ e.key < momentKey then Keyed.get? momentKey members else none

def spellsMoment : Value → Bool
  | .text s => isMoment s.toList
  | _ => false

mutual

/-- Whether a document may hold a value. -/
def Value.isSound : Value → Bool
  | .int n => isInt64 n
  | .array items => itemsSound items
  | .table _ members =>
    match spelled? members with
    | some v => spellsMoment v
    | none => membersSound members
  | .tables elements => elementsSound elements
  | .text _ | .float _ | .bool _ | .moment _ => true

def itemsSound : List Value → Bool
  | [] => true
  | v :: rest => v.isSound && itemsSound rest

/-- Whether a document may have these members. Its own keys are all alike. -/
def membersSound : List (Entry Value) → Bool
  | [] => true
  | ⟨_, v⟩ :: rest => v.isSound && membersSound rest

def elementsSound : List (List (Entry Value)) → Bool
  | [] => true
  | members :: rest =>
    (match spelled? members with
      | some v => spellsMoment v
      | none => membersSound members) && elementsSound rest

end

end SqlComposer.Toml
