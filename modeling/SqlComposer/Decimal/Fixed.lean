import SqlComposer.Decimal.Parts

/-!
# A fixed number of decimal places
-/

namespace SqlComposer.Decimal

/-- Decimal digits, with zeros in front up to `width`. -/
def padded (width n : Nat) : String :=
  let digits := Nat.toDigits 10 n
  String.ofList (List.replicate (width - digits.length) '0' ++ digits)

def sign (negative : Bool) : String := if negative then "-" else ""

/-- The number `n / 10 ^ places`, written with that many places. -/
def pointed (places n : Nat) : String :=
  toString (n / Nat.pow 10 places) ++ "." ++ padded places (n % Nat.pow 10 places)

/-- A float rounded to `places` decimal places: the exact value counts, a half goes to the even
neighbour, and zero keeps its sign. -/
def fixed (places : Nat) (x : Float) : String :=
  match parts x with
  | .nan => "NaN"
  | .infinite negative => sign negative ++ "inf"
  | .finite negative significand exponent =>
    let (num, den) := scaled significand exponent
    sign negative ++ pointed places (roundDiv (num * Nat.pow 10 places) den)

end SqlComposer.Decimal
