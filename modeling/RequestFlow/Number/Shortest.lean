import RequestFlow.Number.Binary64

/-!
# The shortest decimal of a double

A double stands for the interval of reals that round to it. Its decimal text has the fewest digits
with which some decimal lies in that interval, and of the decimals with that many digits it is the
one nearest to the double, a tie going to the even last digit.
-/

namespace RequestFlow.Binary64

/-- `digits * 10 ^ exponent`. -/
structure Decimal where
  digits : Nat
  exponent : Int
deriving DecidableEq, Repr

/-- The number of decimal digits. -/
def digitCount (n : Nat) : Nat := (Nat.toDigits 10 n).length

/-- The place of the decimal point: `10 ^ (k - 1) ≤ num / den < 10 ^ k`. -/
def pointPlace (num den : Nat) : Int :=
  if den ≤ num then digitCount (num / den) else 1 - (digitCount ((den - 1) / num) : Int)

/--
The reals that round to a positive double, in quarters of its last place: the double is `4 * m`,
and the lower end is nearer when the mantissa is the least of its binade. The ends belong to the
interval when the mantissa is even.
-/
structure Interval where
  low : Nat
  high : Nat
  closed : Bool

/-- The interval of a double. -/
def interval (x : Binary64) : Interval where
  low := if x.mantissa = Nat.pow 2 52 ∧ minExponent < x.exponent then 4 * x.mantissa - 1
    else 4 * x.mantissa - 2
  high := 4 * x.mantissa + 2
  closed := x.mantissa % 2 == 0

/-- `num / den` lies in the interval; all three are on one scale. -/
def Interval.holds (i : Interval) (num den : Nat) : Bool :=
  if i.closed then i.low * den ≤ num && num ≤ i.high * den
  else i.low * den < num && num < i.high * den

/--
The decimal with the point at `10 ^ place` and `count` digits that rounds to the double, if there
is one: the neighbours of the double on that grid are tried, the nearer first.
-/
def onGrid? (x : Binary64) (place : Int) (count : Nat) : Option Decimal :=
  let grid := place - count
  -- one step of the grid is `up / down` quarters of the last place of `x`
  let up := Nat.pow 10 grid.toNat * 4 * Nat.pow 2 (-x.exponent).toNat
  let down := Nat.pow 10 (-grid).toNat * Nat.pow 2 x.exponent.toNat
  let value := 4 * x.mantissa * down
  let lower := value / up
  let rest := value % up
  let fits := fun n => x.interval.holds (n * up) down
  let nearer :=
    if 2 * rest < up then lower else if up < 2 * rest then lower + 1 else lower + lower % 2
  let other := if nearer = lower then lower + 1 else lower
  if fits nearer then some ⟨nearer, grid⟩ else if fits other then some ⟨other, grid⟩ else none

/-- The shortest decimal of a positive double; seventeen digits always suffice. -/
def shortest (x : Binary64) : Decimal :=
  let (num, den) := scaled x.mantissa 1 x.exponent
  let place := pointPlace num den
  ((List.range 17).findSome? fun count => onGrid? x place (count + 1)).getD ⟨0, 0⟩

/-- Numbers are written with a point when their leading digit stands for one of these powers of
ten, and with an exponent otherwise. -/
def positional (exponent : Int) : Bool := -5 ≤ exponent && exponent ≤ 15

/-- The digits with the point after the digit for `10 ^ 0`, and at least one digit on each side. -/
def withPoint (digits : List Char) (leading : Int) : List Char :=
  if leading < 0 then
    '0' :: '.' :: List.replicate (-leading - 1).toNat '0' ++ digits
  else
    let whole := leading.toNat + 1
    let padded := digits ++ List.replicate (whole - digits.length) '0'
    let fraction := padded.drop whole
    padded.take whole ++ '.' :: (if fraction.isEmpty then ['0'] else fraction)

/-- One digit, the point, the others if any, then the signed exponent. -/
def withExponent (digits : List Char) (leading : Int) : List Char :=
  let mantissa := match digits with
    | [] => []
    | [d] => [d]
    | d :: rest => d :: '.' :: rest
  let sign := if leading < 0 then '-' else '+'
  mantissa ++ 'e' :: sign :: Nat.toDigits 10 leading.natAbs

/-- The digits without the zeros at their end: a decimal rounded up to a power of ten has one. -/
def significant (digits : List Char) : List Char := (digits.reverse.dropWhile (· == '0')).reverse

/-- The decimal text of a double. -/
def text (x : Binary64) : List Char :=
  let body :=
    if x.isZero then ['0', '.', '0']
    else
      let decimal := shortest x
      let digits := Nat.toDigits 10 decimal.digits
      let leading := (digits.length : Int) + decimal.exponent - 1
      let shown := significant digits
      if positional leading then withPoint shown leading else withExponent shown leading
  if x.negative then '-' :: body else body

end RequestFlow.Binary64
