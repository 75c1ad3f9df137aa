import SqlComposer.Decimal.Shortest
import SqlComposer.Keyed
import SqlComposer.Term

/-!
# JSON

Values as JSON, and the compact text of JSON. Objects list their members in the order of the
keys.
-/

namespace SqlComposer

inductive Json where
  | null
  | bool (b : Bool)
  | int (n : Int64)
  | float (x : Float)
  | text (s : String)
  | array (items : List Json)
  | object (members : List (Entry Json))

instance : Inhabited Json := ⟨.null⟩

namespace Json

/-! ## Text -/

/-- Floats: plain notation from a hundred-thousandth to ten quadrillions. -/
def floatStyle : Decimal.Style := ⟨-5, 16⟩

/-- A character between the quotes of a JSON string. -/
def escaped (c : Char) : List Char :=
  if c = '"' ∨ c = '\\' then ['\\', c]
  else if c = '\x08' then ['\\', 'b']
  else if c = '\t' then ['\\', 't']
  else if c = '\n' then ['\\', 'n']
  else if c = '\x0c' then ['\\', 'f']
  else if c = '\r' then ['\\', 'r']
  else if c.toNat < 0x20 then
    ['\\', 'u', '0', '0', Nat.digitChar (c.toNat / 16), Nat.digitChar (c.toNat % 16)]
  else [c]

def quoted (s : String) : String :=
  String.ofList ('"' :: s.toList.flatMap escaped ++ ['"'])

mutual

/-- Compact text, without any blanks. -/
def compact : Json → String
  | .null => "null"
  | .bool b => if b then "true" else "false"
  | .int n => toString n.toInt
  | .float x => floatStyle.text x
  | .text s => quoted s
  | .array items => "[" ++ ",".intercalate (compactItems items) ++ "]"
  | .object members => "\x7b" ++ ",".intercalate (compactMembers members) ++ "\x7d"

def compactItems : List Json → List String
  | [] => []
  | j :: rest => j.compact :: compactItems rest

def compactMembers : List (Entry Json) → List String
  | [] => []
  | ⟨key, j⟩ :: rest => (quoted key ++ ":" ++ j.compact) :: compactMembers rest

end

end Json

/-! ## Values -/

/-- A float as JSON, which has no infinities and no NaN. -/
def floatJson (x : Float) : Json :=
  match Decimal.parts x with
  | .finite _ _ _ => .float x
  | _ => .null

mutual

/-- A value as JSON. Fragments and queries are no data. -/
def Value.toJson : Value → Json
  | .null | .fragment _ | .subquery _ => .null
  | .bool b => .bool b
  | .int n => .int n
  | .float x => floatJson x
  | .text s => .text s
  | .list items => .array (Value.toJsons items)
  | .pair low high => .array [low.toJson, high.toJson]

def Value.toJsons : List Value → List Json
  | [] => []
  | v :: rest => v.toJson :: Value.toJsons rest

end

end SqlComposer
