/-!
# What the bits of a float mean

A finite float is a whole number times a power of two. Everything else about decimal text is
exact arithmetic on those two numbers.
-/

namespace SqlComposer.Decimal

/-- The leading bit of a significand, in front of the 52 bits of the fraction. -/
def leadBit : Nat := Nat.pow 2 52

def signBit : Nat := Nat.pow 2 63

/-- The bits of infinity: the exponent field full of ones. -/
def infinityBits : Nat := 2047 * leadBit

/-- A float, read from its sign, exponent and fraction bits. -/
inductive Parts where
  | nan
  | infinite (negative : Bool)
  /-- The number `significand * 2 ^ exponent`, with its sign. -/
  | finite (negative : Bool) (significand : Nat) (exponent : Int)
deriving DecidableEq, Repr

/-- Reads 64 bits: one for the sign, eleven for the exponent, 52 for the fraction. -/
def Parts.ofBits (bits : Nat) : Parts :=
  let negative : Bool := bits / signBit % 2 == 1
  let field : Nat := bits / leadBit % 2048
  let fraction : Nat := bits % leadBit
  if field = 2047 then
    if fraction = 0 then .infinite negative else .nan
  else if field = 0 then
    .finite negative fraction (-1074)
  else
    .finite negative (leadBit + fraction) (field - 1075)

def parts (x : Float) : Parts := .ofBits x.toBits.toNat

/-! ## Rounding -/

/-- The whole number nearest to `num / den`. A half goes to the even neighbour. -/
def roundDiv (num den : Nat) : Nat :=
  let low := num / den
  let twice := 2 * (num % den)
  if twice < den then low
  else if den < twice then low + 1
  else low + low % 2

/-- The number `significand * 2 ^ exponent` as a quotient of whole numbers. -/
def scaled (significand : Nat) (exponent : Int) : Nat × Nat :=
  (significand * Nat.pow 2 exponent.toNat, Nat.pow 2 (-exponent).toNat)

/-- The bits of the float nearest to `num / den`, infinity when it is too large. -/
def nearestBits (num den : Nat) : Nat :=
  if num = 0 ∨ den = 0 then 0
  else
    let guess : Int := num.log2 - den.log2
    let below := num * Nat.pow 2 (-guess).toNat < den * Nat.pow 2 guess.toNat
    let top := if below then guess - 1 else guess
    let exponent := max (top - 52) (-1074)
    let significand :=
      roundDiv (num * Nat.pow 2 (-exponent).toNat) (den * Nat.pow 2 exponent.toNat)
    min ((exponent + 1074).toNat * leadBit + significand) infinityBits

/-- A float from its sign and the bits below it. -/
def ofSignedBits (negative : Bool) (bits : Nat) : Float :=
  Float.ofBits (UInt64.ofNat ((if negative then signBit else 0) + bits))

end SqlComposer.Decimal
