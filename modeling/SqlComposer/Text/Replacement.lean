/-!
# Replacing keys in a text

One pass from left to right. At each place the longest key that starts there gives way to its
text, and the pass goes on behind the key: what was put in is never read again.
-/

namespace SqlComposer.Text

/-- A key, and the text to put in its place. -/
structure Replacement where
  key : String
  text : String
deriving DecidableEq, Repr, Inhabited

/-- A replacement whose key is not empty and starts the text. -/
def Replacement.starts (r : Replacement) (s : List Char) : Bool :=
  r.key ≠ "" && r.key.toList.isPrefixOf s

/-- The longer of two keys, the first when they are equally long. -/
def Replacement.longer (a : Replacement) (b : Option Replacement) : Replacement :=
  match b with
  | some b => if a.key.length < b.key.length then b else a
  | none => a

/-- The replacement with the longest key among those that start the text. -/
def longestAt (table : List Replacement) (s : List Char) : Option Replacement :=
  table.foldr (fun r best => if r.starts s then some (r.longer best) else best) none

/-- Skips the rest of a key that has been replaced, then goes on with the pass. -/
def replaceFrom (table : List Replacement) : Nat → List Char → List Char
  | _, [] => []
  | skip + 1, _ :: s => replaceFrom table skip s
  | 0, c :: s =>
    match longestAt table (c :: s) with
    | some r => r.text.toList ++ replaceFrom table (r.key.length - 1) s
    | none => c :: replaceFrom table 0 s

def replaceAll (table : List Replacement) (s : String) : String :=
  String.ofList (replaceFrom table 0 s.toList)

/-- A text without any occurrence of `mark`. -/
def strip (mark s : String) : String := replaceAll [⟨mark, ""⟩] s

theorem replaceFrom_nil (skip : Nat) (s : List Char) : replaceFrom [] skip s = s.drop skip := by
  induction s generalizing skip with
  | nil => simp [replaceFrom]
  | cons c s ih => cases skip <;> simp [replaceFrom, longestAt, ih]

@[simp] theorem replaceAll_nil (s : String) : replaceAll [] s = s := by
  simp [replaceAll, replaceFrom_nil]

theorem replaceFrom_drop (table : List Replacement) (skip : Nat) (s : List Char) :
    replaceFrom table skip s = replaceFrom table 0 (s.drop skip) := by
  induction s generalizing skip with
  | nil => simp [replaceFrom]
  | cons c s ih =>
    cases skip with
    | zero => rfl
    | succ n => simpa [replaceFrom] using ih n

end SqlComposer.Text
