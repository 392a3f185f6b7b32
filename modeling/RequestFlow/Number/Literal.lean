import RequestFlow.Number.Basic

/-!
# Numbers as they are written

A written number has a sign, digits before and after a point and an exponent. As many leading
digits as fit in 64 bits count; of the others only how many of them stand before the point. A
number with neither point nor exponent whose digits all count is an integer where the sign admits
one; every other number is a double.
-/

namespace RequestFlow.Number

/-- A written number: the digits around the point, and the exponent's sign and digits. -/
structure Literal where
  negative : Bool
  whole : List Char
  fraction : Option (List Char)
  exponent : Option (Bool × List Char)
deriving Repr

/-- The value of a decimal digit. -/
def digitValue (c : Char) : Nat := c.toNat - 48

/-- The value of a row of decimal digits. -/
def digitsValue (ds : List Char) : Nat := ds.foldl (fun n d => 10 * n + digitValue d) 0

/-- Appends digits to a significand while it stays below `2 ^ 64`; the digits that are left. -/
def absorb (significand : Nat) : List Char → Nat × List Char
  | [] => (significand, [])
  | d :: ds =>
    let next := 10 * significand + digitValue d
    if next < Nat.pow 2 64 then absorb next ds else (significand, d :: ds)

namespace Literal

/-- The exponent that is written, at most `2 ^ 31` in size. -/
def writtenExponent (x : Literal) : Int :=
  match x.exponent with
  | none => 0
  | some (negative, ds) =>
    let size := min (digitsValue ds) (Nat.pow 2 31)
    if negative then -(size : Int) else size

/-- The significand, and the power of ten that the written digits give it. -/
def parts (x : Literal) : Nat × Int :=
  let (significand, beyond) := absorb 0 x.whole
  let ds := x.fraction.getD []
  let (significand, rest) := absorb significand ds
  (significand, (beyond.length : Int) - ((ds.length : Int) - rest.length))

/-- The double a literal stands for; none when it is too large. -/
def double? (x : Literal) : Option Binary64 :=
  let (significand, exponent) := x.parts
  if significand = 0 then some (Binary64.zero x.negative)
  else Binary64.ofDecimal? x.negative significand (exponent + x.writtenExponent)

/-- The number a literal stands for; none when it is beyond the largest double. -/
def value? (x : Literal) : Option Number :=
  let (significand, beyond) := absorb 0 x.whole
  if x.fraction.isNone && x.exponent.isNone && beyond.isEmpty then
    if !x.negative then some (.integer significand)
    else if significand = 0 || Nat.pow 2 63 < significand then
      some (.double ((Binary64.ofInt significand).withSign true))
    else some (.integer (-(significand : Int)))
  else x.double?.map .double

end Literal

end RequestFlow.Number
