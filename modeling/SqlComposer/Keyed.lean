/-!
# Entries in the order of their keys

A map as a list of entries, in strictly ascending order of their keys. Texts are ordered by code
points, which is also the order of their bytes in UTF-8.
-/

namespace SqlComposer

structure Entry (α : Type) where
  key : String
  value : α
deriving DecidableEq, Repr, Inhabited

namespace Keyed

variable {α : Type}

/-- Puts a value under a key, in the place of an earlier one. -/
def put (key : String) (value : α) : List (Entry α) → List (Entry α)
  | [] => [⟨key, value⟩]
  | e :: rest =>
    if e.key = key then ⟨key, value⟩ :: rest
    else if key < e.key then ⟨key, value⟩ :: e :: rest
    else e :: put key value rest

def get? (key : String) (entries : List (Entry α)) : Option α :=
  (entries.find? (·.key = key)).map (·.value)

def erase (key : String) (entries : List (Entry α)) : List (Entry α) :=
  entries.filter (·.key ≠ key)

/-- The map that arises when the entries of a list are put one after the other. -/
def ofList (entries : List (Entry α)) : List (Entry α) :=
  entries.foldl (fun map e => put e.key e.value map) []

@[simp] theorem get?_nil (key : String) : get? key ([] : List (Entry α)) = none := rfl

theorem get?_cons (key : String) (e : Entry α) (rest : List (Entry α)) :
    get? key (e :: rest) = if e.key = key then some e.value else get? key rest := by
  by_cases h : e.key = key <;> simp [get?, h]

theorem get?_put (key wanted : String) (value : α) (entries : List (Entry α)) :
    get? wanted (put key value entries) = if key = wanted then some value
      else get? wanted entries := by
  induction entries with
  | nil => simp [put, get?_cons]
  | cons e rest ih =>
    simp only [put]
    split
    · next h =>
      subst h
      by_cases hw : e.key = wanted <;> simp [get?_cons, hw]
    · split
      · simp [get?_cons]
      · next h _ =>
        rw [get?_cons, get?_cons, ih]
        by_cases hw : e.key = wanted
        · have : key ≠ wanted := fun hk => h (hw.trans hk.symm)
          simp [hw, this]
        · simp [hw]

end Keyed

end SqlComposer
