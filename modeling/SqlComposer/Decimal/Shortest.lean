import SqlComposer.Decimal.Fixed

/-!
# The fewest digits that read back

A float stands for every number that rounds to it. Of the decimal grids, steps of a power of ten,
the coarsest with a point in that interval gives the digits; of two such points the nearer one, and
the even one if both are equally near.
-/

namespace SqlComposer.Decimal

/-- The numbers that round to one float, with the float itself, all over the same denominator. -/
structure Interval where
  low : Nat
  value : Nat
  high : Nat
  den : Nat
  /-- Whether the ends round to the float too. -/
  closed : Bool
deriving Repr

/-- The interval of `significand * 2 ^ exponent`. Below a power of two the floats lie closer. -/
def Interval.of (significand : Nat) (exponent : Int) : Interval :=
  let (num, den) := scaled (4 * significand) exponent
  let (half, _) := scaled 2 exponent
  let below := if significand = leadBit ∧ -1074 < exponent then half / 2 else half
  ⟨num - below, num, num + half, 4 * den, significand % 2 = 0⟩

def Interval.contains (i : Interval) (num den : Nat) : Bool :=
  let point := num * i.den
  if i.closed then i.low * den ≤ point && point ≤ i.high * den
  else i.low * den < point && point < i.high * den

/-- The neighbour of the value on the grid of `10 ^ step` that lies in the interval. -/
def Interval.onGrid? (i : Interval) (step : Int) : Option Nat :=
  let up := Nat.pow 10 step.toNat
  let down := Nat.pow 10 (-step).toNat
  let floor := i.value * down / (i.den * up)
  let low := i.contains (floor * up) down
  let high := i.contains ((floor + 1) * up) down
  if low && high then some (roundDiv (i.value * down) (i.den * up))
  else if low then some floor
  else if high then some (floor + 1)
  else none

/-- Digits, and the power of ten they count. -/
structure Digits where
  digits : Nat
  exponent : Int
deriving DecidableEq, Repr

/-- Tries `count` grids from the coarsest on. -/
def Interval.search (i : Interval) : (count : Nat) → (step : Int) → Digits
  | 0, step => ⟨i.value, step⟩
  | count + 1, step =>
    match i.onGrid? step with
    | some n => ⟨n, step⟩
    | none => i.search count (step - 1)

/-- The shortest digits of `significand * 2 ^ exponent`. No grid finer than `10 ^ -345` is
needed. -/
def shortest (significand : Nat) (exponent : Int) : Digits :=
  let i := Interval.of significand exponent
  let top := (Nat.toDigits 10 (i.value / i.den)).length
  i.search (top + 345) top

/-! ## Writing the digits -/

/-- How floats are written: which decimal exponents stand in plain notation. -/
structure Style where
  plainFrom : Int
  plainBelow : Int
deriving Repr

/-- Whether a number whose first digit counts `10 ^ lead` is written in plain notation. -/
def Style.isPlain (s : Style) (lead : Int) : Bool :=
  s.plainFrom ≤ lead && lead < s.plainBelow

/-- Plain notation, with at least one digit on either side of the point. -/
def Digits.plain (d : Digits) : String :=
  if 0 ≤ d.exponent then toString (d.digits * Nat.pow 10 d.exponent.toNat) ++ ".0"
  else pointed (-d.exponent).toNat d.digits

/-- One digit before the point, and a signed exponent. -/
def Digits.scientific (d : Digits) (lead : Int) : String :=
  let digits := Nat.toDigits 10 d.digits
  let fraction := digits.drop 1
  let point := if fraction.isEmpty then [] else ['.']
  String.ofList (digits.take 1 ++ point ++ fraction) ++ "e" ++
    (if lead < 0 then "-" else "+") ++ toString lead.natAbs

def Style.text (s : Style) (x : Float) : String :=
  match parts x with
  | .nan => "NaN"
  | .infinite negative => sign negative ++ "inf"
  | .finite negative 0 _ => sign negative ++ "0.0"
  | .finite negative significand exponent =>
    let d := shortest significand exponent
    let lead := d.exponent + (Nat.toDigits 10 d.digits).length - 1
    sign negative ++ (if s.isPlain lead then d.plain else d.scientific lead)

end SqlComposer.Decimal
