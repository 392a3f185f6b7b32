import RequestFlow.Number.Shortest

/-!
# Numbers

A number is an integer that fits in 64 bits, signed or unsigned, or a double. Integers and doubles
are compared as doubles.
-/

namespace RequestFlow

/-- An integer of at most 64 bits, or a double. -/
inductive Number where
  | integer (n : Int)
  | double (x : Binary64)
deriving DecidableEq, Repr

namespace Number

/-- The integers that are kept as they are. -/
def fitsInteger (n : Int) : Bool := -(Nat.pow 2 63 : Int) ≤ n && n < (Nat.pow 2 64 : Int)

/-- The nearest double. -/
def toDouble : Number → Binary64
  | integer n => Binary64.ofInt n
  | double x => x

/-- The number is zero as a double. -/
def isZero (n : Number) : Bool := n.toDouble.isZero

/-- Equal as doubles. -/
def same (m n : Number) : Bool := m.toDouble.same n.toDouble

/-- The digits of an integer after its sign. -/
def integerText (n : Int) : List Char :=
  if n < 0 then '-' :: Nat.toDigits 10 n.natAbs else Nat.toDigits 10 n.natAbs

/-- The text of a number. -/
def text : Number → List Char
  | integer n => integerText n
  | double x => x.text

end Number

end RequestFlow
