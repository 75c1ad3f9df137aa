import SqlComposer.Error
import SqlComposer.Options
import SqlComposer.Quoting
import SqlComposer.Toml.Document
import SqlComposer.Toml.Sound

/-!
# Connection settings

Settings come from a TOML document: from its table `database` if there is one, else from its top
level. What is not given has a default, and keys without a meaning do not matter.
-/

namespace SqlComposer

structure Settings where
  /-- The name of the connection, part of its cache keys. -/
  name : String := "default"
  url : String := ""
  tablePrefix : String := ""
  dialect : Dialect := .standard
  caching : Bool := false
  lifetimeSeconds : Nat := 60
  cacheCapacity : Nat := 256
deriving DecidableEq, Repr, Inhabited

namespace Settings

/-- The lifetime for statements that want to be cached. -/
def lifetime (s : Settings) : Duration := .ofParts s.lifetimeSeconds 0

def quoting (s : Settings) : Quoting := s.dialect.quoting s.tablePrefix

/-! ## Reading -/

def text? : Toml.Value → Option String
  | .text s => some s
  | _ => none

def bool? : Toml.Value → Option Bool
  | .bool b => some b
  | _ => none

def count? : Toml.Value → Option Nat
  | .int n => if 0 ≤ n ∧ n < (Nat.pow 2 64 : Int) then some n.toNat else none
  | _ => none

def dialectNamed? (name : String) : Option Dialect :=
  if name = "standard" then some .standard else if name = "mysql" then some .mysql else none

/-- A dialect: its name, or a table with its name as the only key and nothing in it. -/
def dialect? : Toml.Value → Option Dialect
  | .text name => dialectNamed? name
  | .table _ [⟨name, .table _ []⟩] => dialectNamed? name
  | .table _ [⟨name, .array []⟩] => dialectNamed? name
  | _ => none

/-- The settings in the order in which a list gives them. -/
def keys : List String :=
  ["name", "url", "table_prefix", "dialect", "caching", "cache_lifetime_secs", "cache_capacity"]

/-- Sets what a key means, if the value is of its type. -/
def setKey? (s : Settings) (key : String) (v : Toml.Value) : Option Settings :=
  match key with
  | "name" => (text? v).map ({ s with name := · })
  | "url" => (text? v).map ({ s with url := · })
  | "table_prefix" => (text? v).map ({ s with tablePrefix := · })
  | "dialect" => (dialect? v).map ({ s with dialect := · })
  | "caching" => (bool? v).map ({ s with caching := · })
  | "cache_lifetime_secs" => (count? v).map ({ s with lifetimeSeconds := · })
  | "cache_capacity" => (count? v).map ({ s with cacheCapacity := · })
  | _ => some s

def ofMembers? (members : Toml.Members) : Option Settings :=
  members.foldlM (fun s e => s.setKey? e.key e.value) {}

/-- The settings that a value holds: a table by its keys, a list by the order. -/
def ofValue? : Toml.Value → Option Settings
  | .table _ members => ofMembers? members
  | .array items => ofMembers? (keys.zipWith (fun key v => ⟨key, v⟩) items)
  | .moment _ => some {}
  | _ => none

def ofDocument? (root : Toml.Members) : Option Settings :=
  match Keyed.get? "database" root with
  | some v => ofValue? v
  | none => ofMembers? root

/-- Reads settings from the text of a document, all of which must be sound. -/
def parse (text : String) : Except Error Settings :=
  match ((Toml.read? text).filter Toml.membersSound).bind ofDocument? with
  | some s => .ok s
  | none => .error (.config "failed to parse config")

/-! ## Files -/

/-- Why a file has no text. -/
inductive FileFault where
  | notFound
  /-- The path, or a name in it, has too many bytes. -/
  | tooLong
  /-- The path has a zero character, which no name can hold. -/
  | zeroInName
deriving DecidableEq, Repr

namespace FileFault

def message : FileFault → String
  | .notFound => "No such file or directory (os error 2)"
  | .tooLong => "File name too long (os error 36)"
  | .zeroInName => "file name contained an unexpected NUL byte"

/-- The first name in a path. One point and two points are directories that are always there. -/
def firstName (path : String) : String :=
  let names := (Text.splitAt '/' path.toList).map String.ofList
  (names.find? fun name => name ∉ ["", ".", ".."]).getD ""

/-- Why a path leads to no file. The names after the first one are not looked at. -/
def ofPath (path : String) : FileFault :=
  if path.toList.contains '\x00' then .zeroInName
  else if 4096 ≤ path.utf8ByteSize ∨ 255 < (firstName path).utf8ByteSize then .tooLong
  else .notFound

end FileFault

/-- Reads settings from a file, given what reading the file gave. -/
def load (path : String) (contents : Except FileFault String) : Except Error Settings :=
  match contents with
  | .ok text => parse text
  | .error fault =>
    .error (.config ("failed to read config file " ++ path ++ ": " ++ fault.message))

end Settings

end SqlComposer
