import SqlComposer.Keyed

/-!
# TOML documents

Tables keep how they came about, because a document may not define the same table twice: by a
header, by the header of a table inside it, by a dotted key, or between braces.
-/

namespace SqlComposer.Toml

/-- How a table came about. -/
inductive Origin where
  /-- By its own header. -/
  | header
  /-- By the header of a table inside it. -/
  | implied
  /-- By a dotted key. -/
  | dotted
  /-- Between braces. Nothing can be added to it. -/
  | inline
deriving DecidableEq, Repr

inductive Value where
  | text (s : String)
  | int (n : Int)
  | float (x : Float)
  | bool (b : Bool)
  /-- A date, a time, or both, as written. -/
  | moment (s : String)
  | array (items : List Value)
  | table (origin : Origin) (members : List (Entry Value))
  /-- Tables that share a doubled header. -/
  | tables (elements : List (List (Entry Value)))

instance : Inhabited Value := ⟨.bool false⟩

/-- The members of a table, in the order in which they were added. -/
abbrev Members := List (Entry Value)

/-! ## Adding to a document -/

/-- Puts a value under a key that is already there, or at the end. -/
def replace (key : String) (v : Value) : Members → Members
  | [] => [⟨key, v⟩]
  | e :: rest => if e.key = key then ⟨key, v⟩ :: rest else e :: replace key v rest

/-- Changes the last of several. -/
def changeLast (f : Members → Option Members) : List Members → Option (List Members)
  | [] => none
  | [m] => do return [← f m]
  | m :: rest => do return m :: (← changeLast f rest)

/-- Changes the table at the end of a path, which begins inside a table of the given origin.
Tables on the way are made where they are missing. Dotted keys go only through tables that have
no header, headers through the last of several tables too, and neither through braces. -/
def change (made : Origin) (f : Origin → Members → Option Members) :
    (path : List String) → Origin → Members → Option Members
  | [], origin, members => f origin members
  | key :: path, _, members =>
    match Keyed.get? key members with
    | none => do return replace key (.table made (← change made f path made [])) members
    | some (.table origin inner) =>
      if origin = .inline ∨ (made = .dotted ∧ origin = .header) then none
      else do return replace key (.table origin (← change made f path origin inner)) members
    | some (.tables elements) => do
      return replace key (.tables (← changeLast (change made f path .header) elements)) members
    | some _ => none

/-- Adds a value under a new key. -/
def addMember (key : String) (v : Value) (members : Members) : Option Members :=
  match Keyed.get? key members with
  | none => some (members ++ [⟨key, v⟩])
  | some _ => none

/-- Adds a value under a dotted key, whose tables must all come from dotted keys. -/
def addDotted (path : List String) (key : String) (v : Value) (origin : Origin)
    (members : Members) : Option Members :=
  let add (origin : Origin) (members : Members) : Option Members :=
    if path.isEmpty ∨ origin = .dotted then addMember key v members else none
  change .dotted add path origin members

/-- Makes the table of a header, which must not have been made but by headers inside it. -/
def openTable (path : List String) (key : String) (root : Members) : Option Members :=
  let make (_ : Origin) (members : Members) : Option Members :=
    match Keyed.get? key members with
    | none => some (members ++ [⟨key, .table .header []⟩])
    | some (.table .implied inner) => some (replace key (.table .header inner) members)
    | some _ => none
  change .implied make path .header root

/-- Makes one more table of a doubled header. -/
def openElement (path : List String) (key : String) (root : Members) : Option Members :=
  let make (_ : Origin) (members : Members) : Option Members :=
    match Keyed.get? key members with
    | none => some (members ++ [⟨key, .tables [[]]⟩])
    | some (.tables elements) => some (replace key (.tables (elements ++ [[]])) members)
    | some _ => none
  change .implied make path .header root

end SqlComposer.Toml
