import SqlComposer.Decimal.Parts

/-!
# Reading decimal numbers

Integers of 64 bits and floats, as a database writes them in text. ASCII digits only, no blanks.
-/

namespace SqlComposer.Decimal

inductive Fault where
  | emptyInteger
  | invalidDigit
  | tooLarge
  | tooSmall
  | emptyFloat
  | invalidFloat
deriving DecidableEq, Repr

def Fault.message : Fault → String
  | .emptyInteger => "cannot parse integer from empty string"
  | .invalidDigit => "invalid digit found in string"
  | .tooLarge => "number too large to fit in target type"
  | .tooSmall => "number too small to fit in target type"
  | .emptyFloat => "cannot parse float from empty string"
  | .invalidFloat => "invalid float literal"

def digit? (c : Char) : Option Nat := if c.isDigit then some (c.toNat - '0'.toNat) else none

/-- Reads digits into a number that must not pass `limit`. The first fault from the left counts. -/
def readDigits (limit : Nat) (overflow : Fault) : Nat → List Char → Except Fault Nat
  | acc, [] => .ok acc
  | acc, c :: s =>
    match digit? c with
    | none => .error .invalidDigit
    | some d =>
      if limit < acc * 10 + d then .error overflow
      else readDigits limit overflow (acc * 10 + d) s

/-- A sign, if the text starts with one, and the rest. -/
def splitSign : List Char → Bool × List Char
  | '-' :: s => (true, s)
  | '+' :: s => (false, s)
  | s => (false, s)

/-- An integer of 64 bits: an optional sign and digits. -/
def readInt (text : String) : Except Fault Int64 :=
  match text.toList with
  | [] => .error .emptyInteger
  | s =>
    match splitSign s with
    | (_, []) => .error .invalidDigit
    | (true, digits) => do
      return Int64.ofInt (-((← readDigits (Nat.pow 2 63) .tooSmall 0 digits : Nat) : Int))
    | (false, digits) => do
      return Int64.ofNat (← readDigits (Nat.pow 2 63 - 1) .tooLarge 0 digits)

/-- A whole number below `2 ^ 64`: an optional plus sign and digits. -/
def readCount? (text : String) : Option Nat :=
  match text.toList with
  | '+' :: c :: s => (readDigits (Nat.pow 2 64 - 1) .tooLarge 0 (c :: s)).toOption
  | c :: s => (readDigits (Nat.pow 2 64 - 1) .tooLarge 0 (c :: s)).toOption
  | [] => none

/-! ## Floats -/

def digitsValue (digits : List Char) : Nat :=
  digits.foldl (fun acc c => acc * 10 + (c.toNat - '0'.toNat)) 0

/-- Bits of `digits * 10 ^ exponent`. Exponents out of reach are settled without computing. -/
def decimalBits (digits : Nat) (exponent : Int) : Nat :=
  let size : Int := (Nat.toDigits 10 digits).length
  if digits = 0 then 0
  else if 400 < size + exponent then infinityBits
  else if size + exponent < -400 then 0
  else nearestBits (digits * Nat.pow 10 exponent.toNat) (Nat.pow 10 (-exponent).toNat)

/-- The exponent part of a float: nothing, or a letter, an optional sign and digits. -/
def readExponent? : List Char → Option Int
  | [] => some 0
  | c :: s =>
    if c = 'e' ∨ c = 'E' then
      let (negative, digits) := splitSign s
      if digits.isEmpty || !digits.all Char.isDigit then none
      else some (if negative then -(digitsValue digits : Int) else digitsValue digits)
    else none

/-- The bits of an unsigned float: a name, or digits with a point and an exponent. -/
def readMagnitude? (s : List Char) : Option Nat :=
  let name := s.map Char.toLower
  if name = "inf".toList ∨ name = "infinity".toList then some infinityBits
  else if name = "nan".toList then some (infinityBits + leadBit / 2)
  else
    let whole := s.takeWhile Char.isDigit
    let rest := s.dropWhile Char.isDigit
    let (fraction, rest) :=
      match rest with
      | '.' :: rest => (rest.takeWhile Char.isDigit, rest.dropWhile Char.isDigit)
      | _ => ([], rest)
    if whole.isEmpty && fraction.isEmpty then none
    else do
      let exponent ← readExponent? rest
      return decimalBits (digitsValue (whole ++ fraction)) (exponent - fraction.length)

/-- A float: an optional sign, then a name or a decimal number, rounded to nearest. -/
def readFloat (text : String) : Except Fault Float :=
  match text.toList with
  | [] => .error .emptyFloat
  | s =>
    let (negative, rest) := splitSign s
    match readMagnitude? rest with
    | some bits => .ok (ofSignedBits negative bits)
    | none => .error .invalidFloat

end SqlComposer.Decimal
