import SqlComposer.Decimal.Reader
import SqlComposer.Toml.Value

/-!
# Words of a TOML document

Numbers, dates and the words true and false: everything that is written without quotes.
-/

namespace SqlComposer.Toml

/-! ## Numbers -/

/-- Digits that pass a test, with single underscores between them, which are dropped. -/
def underscored? (isDigit : Char → Bool) : List Char → Option (List Char)
  | [] => none
  | [c] => if isDigit c then some [c] else none
  | c :: '_' :: s => if isDigit c then (underscored? isDigit s).map (c :: ·) else none
  | c :: s => if isDigit c then (underscored? isDigit s).map (c :: ·) else none

def digitValue (c : Char) : Nat :=
  if c.isDigit then c.toNat - '0'.toNat else c.toLower.toNat - 'a'.toNat + 10

def isHexDigit (c : Char) : Bool := c.isDigit || ('a' ≤ c.toLower && c.toLower ≤ 'f')

def isOctalDigit (c : Char) : Bool := '0' ≤ c && c ≤ '7'

def isBinaryDigit (c : Char) : Bool := c == '0' || c == '1'

/-- The number that digits of a base spell. -/
def baseValue (base : Nat) (digits : List Char) : Nat :=
  digits.foldl (fun acc c => acc * base + digitValue c) 0

/-- An integer of 128 bits, with or without a sign. -/
def wideInt? (n : Int) : Option Value :=
  if -(Nat.pow 2 127 : Int) ≤ n ∧ n < (Nat.pow 2 128 : Int) then some (.int n) else none

/-- Decimal digits without a zero in front of others. -/
def plainDigits? (s : List Char) : Option (List Char) := do
  let digits ← underscored? Char.isDigit s
  if digits.head? = some '0' ∧ 1 < digits.length then none else some digits

/-- An integer: decimal with a sign, or behind the letter of its base. -/
def integer? : List Char → Option Value
  | '0' :: 'x' :: s => do wideInt? (baseValue 16 (← underscored? isHexDigit s) : Nat)
  | '0' :: 'o' :: s => do wideInt? (baseValue 8 (← underscored? isOctalDigit s) : Nat)
  | '0' :: 'b' :: s => do wideInt? (baseValue 2 (← underscored? isBinaryDigit s) : Nat)
  | s => do
    let (negative, digits) := Decimal.splitSign s
    let n := baseValue 10 (← plainDigits? digits)
    wideInt? (if negative then -(n : Int) else n)

/-- The digits behind the exponent letter, with their sign. -/
def exponent? (s : List Char) : Option (List Char) := do
  let (negative, digits) := Decimal.splitSign s
  return 'e' :: (if negative then ['-'] else []) ++ (← underscored? Char.isDigit digits)

/-- The digits in front of the point or the exponent, and the rest. -/
def splitWhole (s : List Char) : List Char × List Char :=
  s.span fun c => c.isDigit || c == '_'

/-- The digits of an unsigned float, without underscores: a whole part, and a fraction or an
exponent or both. -/
def floatDigits? (s : List Char) : Option (List Char) := do
  let (whole, rest) := splitWhole s
  let whole ← plainDigits? whole
  match rest with
  | '.' :: rest =>
    let (fraction, rest) := splitWhole rest
    let fraction ← underscored? Char.isDigit fraction
    match rest with
    | [] => return whole ++ '.' :: fraction
    | c :: rest =>
      if c.toLower = 'e' then return whole ++ '.' :: fraction ++ (← exponent? rest) else none
  | c :: rest => if c.toLower = 'e' then return whole ++ (← exponent? rest) else none
  | [] => none

/-- A float. Digits may not stand for a number out of range. -/
def float? (s : List Char) : Option Value := do
  let (negative, rest) := Decimal.splitSign s
  let special := rest = "inf".toList ∨ rest = "nan".toList
  let digits ← if special then some rest else floatDigits? rest
  let bits ← Decimal.readMagnitude? digits
  if ¬ special ∧ bits = Decimal.infinityBits then none
  else some (.float (Decimal.ofSignedBits negative bits))

/-! ## Dates and times -/

/-- Exactly `count` digits, and the rest. -/
def fixedDigits? (count : Nat) (s : List Char) : Option (Nat × List Char) :=
  let digits := s.take count
  if digits.length = count ∧ digits.all Char.isDigit then
    some (Decimal.digitsValue digits, s.drop count)
  else none

def daysInMonth (year month : Nat) : Nat :=
  if month = 2 then
    if year % 4 = 0 ∧ (year % 100 ≠ 0 ∨ year % 400 = 0) then 29 else 28
  else if month ∈ [4, 6, 9, 11] then 30
  else 31

/-- The rest behind a date that the calendar has. -/
def afterDate? (s : List Char) : Option (List Char) := do
  let (year, s) ← fixedDigits? 4 s
  let '-' :: s := s | none
  let (month, s) ← fixedDigits? 2 s
  let '-' :: s := s | none
  let (day, s) ← fixedDigits? 2 s
  if 1 ≤ month ∧ month ≤ 12 ∧ 1 ≤ day ∧ day ≤ daysInMonth year month then some s else none

/-- The rest behind a fraction of a second, if there is one. -/
def afterFraction? : List Char → Option (List Char)
  | '.' :: s =>
    if (s.takeWhile Char.isDigit).isEmpty then none else some (s.dropWhile Char.isDigit)
  | s => some s

/-- The rest behind a time of the day. The seconds may be missing. -/
def afterTime? (s : List Char) : Option (List Char) := do
  let (hour, s) ← fixedDigits? 2 s
  let ':' :: s := s | none
  let (minute, s) ← fixedDigits? 2 s
  if 24 ≤ hour ∨ 60 ≤ minute then none
  match s with
  | ':' :: s =>
    let (second, s) ← fixedDigits? 2 s
    if second ≤ 60 then afterFraction? s else none
  | s => return s

/-- Whether a text is an offset from universal time, or nothing. -/
def isOffset (s : List Char) : Bool :=
  match s with
  | [] => true
  | ['z'] | ['Z'] => true
  | mark :: s =>
    (mark == '+' || mark == '-') &&
      match fixedDigits? 2 s with
      | some (hour, ':' :: s) =>
        match fixedDigits? 2 s with
        | some (minute, []) => hour < 24 && minute < 60
        | _ => false
      | _ => false

/-- A date, a time, or a date and a time with or without an offset. -/
def isMoment (s : List Char) : Bool :=
  match afterDate? s with
  | some [] => true
  | some (mark :: rest) =>
    (mark == 'T' || mark == 't' || mark == ' ') &&
      match afterTime? rest with
      | some rest => isOffset rest
      | none => false
  | none => afterTime? s == some []

/-! ## Words -/

/-- What a word without quotes stands for. -/
def scalar? (word : List Char) : Option Value :=
  if word = "true".toList then some (.bool true)
  else if word = "false".toList then some (.bool false)
  else if isMoment word then some (.moment (String.ofList word))
  else (integer? word).or (float? word)

def isWordChar (c : Char) : Bool :=
  c.isAlphanum || c == '+' || c == '-' || c == '_' || c == '.' || c == ':'

/-- The word at the start of a text. A blank between a date and a time belongs to it. -/
def splitWord (s : List Char) : List Char × List Char :=
  let (word, rest) := s.span isWordChar
  match rest with
  | ' ' :: c :: more =>
    if c.isDigit ∧ afterDate? word = some [] then
      let (time, rest) := (c :: more).span isWordChar
      (word ++ ' ' :: time, rest)
    else (word, rest)
  | _ => (word, rest)

end SqlComposer.Toml
