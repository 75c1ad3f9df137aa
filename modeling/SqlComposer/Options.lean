/-!
# Execution options

What a statement asks of the connection that runs it. Its SQL does not depend on them.
-/

namespace SqlComposer

structure Duration where
  nanos : Nat
deriving DecidableEq, Repr, Inhabited

namespace Duration

def perSecond : Nat := 1000000000

def ofParts (seconds nanos : Nat) : Duration := ⟨seconds * perSecond + nanos⟩

/-- A stretch of time whose whole seconds fit in 64 bits. -/
def ofParts? (seconds nanos : Nat) : Option Duration :=
  let d := ofParts seconds nanos
  if d.nanos < Nat.pow 2 64 * perSecond then some d else none

def ofMillis (millis : Nat) : Duration := ⟨millis * 1000000⟩

def seconds (d : Duration) : Nat := d.nanos / perSecond

/-- What is left behind the whole seconds. -/
def subsecond (d : Duration) : Nat := d.nanos % perSecond

end Duration

/-- What the caller wants to make of the rows. -/
inductive Shape where
  | assoc
  | object
deriving DecidableEq, Repr, Inhabited

def Shape.name : Shape → String
  | .assoc => "Assoc"
  | .object => "Object"

structure Options where
  shape : Shape := .assoc
  /-- How long the rows of a SELECT may be served from the cache. -/
  lifetime : Option Duration := none
  /-- Run the statement even if its rows are in the cache. They are stored all the same. -/
  force : Bool := false
deriving DecidableEq, Repr, Inhabited

end SqlComposer
