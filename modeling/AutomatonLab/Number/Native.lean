import AutomatonLab.Number.Binary64

/-!
# Native floating-point numbers

A native number is known by its 64 bits : a sign, eleven bits for the exponent, and the mantissa
without its leading bit. `Binary64.ofFloat` reads them and `Binary64.toFloat` writes them, so that
what has to be exact for numbers of any size is computed on mantissa and exponent : the nearest
number to the half of an integer (`Binary64.half?`) and the greatest integer below a number
(`Binary64.floor?`). `Hypotenuse.length` is the length of a pair of native numbers; it keeps what
the additions of the squares lose, and so differs in the last bit from the plain root of their sum.
-/

namespace AutomatonLab.Binary64

/-- The exponent field of what is no finite number. -/
def fullField : Nat := 2047

/-- What the exponent field of a number of full mantissa counts from. -/
def fieldBase : Int := minExponent - 1

/-- The bits of the sign, the exponent field and the rest of the mantissa. -/
def pack (negative : Bool) (field rest : Nat) : Nat :=
  ((if negative then 1 else 0) * (fullField + 1) + field) * leastNormal + rest

/-- The 64 bits of a number. -/
def bits : Binary64 → Nat
  | nan => pack false fullField (leastNormal / 2)
  | infinite negative => pack negative fullField 0
  | finite negative mantissa exponent =>
    if mantissa < leastNormal then pack negative 0 mantissa
    else pack negative (exponent - fieldBase).toNat (mantissa - leastNormal)

/-- The number with the given 64 bits. -/
def ofBits (n : Nat) : Binary64 :=
  let rest := n % leastNormal
  let field := n / leastNormal % (fullField + 1)
  let negative := n / leastNormal / (fullField + 1) == 1
  if field = fullField then
    if rest = 0 then infinite negative else nan
  else if field = 0 then finite negative rest minExponent
  else finite negative (leastNormal + rest) (fieldBase + field)

/-- The native number of the same value. -/
def toFloat (x : Binary64) : Float := Float.ofBits (UInt64.ofNat x.bits)

/-- The value of a native number. -/
def ofFloat (x : Float) : Binary64 := ofBits x.toBits.toNat

/-- The nearest native number to the half of an integer, none if there is none so large. -/
def half? (n : Int) : Option Float :=
  match ofQuotient (n < 0) n.natAbs 2 with
  | infinite _ => none
  | x => some x.toFloat

/-- The greatest integer that is not above the number. -/
def floor? : Binary64 → Option Int
  | finite negative mantissa exponent =>
    let signed : Int := if negative then -(mantissa : Int) else mantissa
    some (match exponent with
      | .ofNat n => signed * (Nat.pow 2 n : Nat)
      | .negSucc n => signed / (Nat.pow 2 (n + 1) : Nat))
  | _ => none

end AutomatonLab.Binary64

namespace AutomatonLab.Hypotenuse

/-- A sum of squares, kept in a rounded sum above one and in what its roundings have lost. The
square of `high + low` has the parts `high * high`, `2 * high * low` and `low * low`, and the loss of
each part is kept apart. -/
structure Squares where
  sum : Float
  high : Float
  mixed : Float
  low : Float

/-- Two numbers of half as many digits with the sum `x`. -/
def split (x : Float) : Float × Float :=
  let t := x * 134217729
  let high := t - (t - x)
  (high, x - high)

/-- A sum with one more part, and the loss when it is rounded. -/
def add (sum part : Float) : Float × Float :=
  let next := sum + part
  (next, (sum - next) + part)

namespace Squares

/-- No square, beside the one that keeps the sum above one. -/
def zero : Squares := ⟨1, 0, 0, 0⟩

/-- The value of the sum. -/
def value (s : Squares) : Float := s.sum - 1 + (s.high + s.mixed + s.low)

/-- The sum with the high part and the mixed part of one more square, taken `sign` times. -/
def addParts (s : Squares) (sign high low : Float) : Squares :=
  let (sum, lostHigh) := add s.sum (sign * high * high)
  let (sum, lostMixed) := add sum (sign * 2 * high * low)
  { s with sum := sum, high := s.high + lostHigh, mixed := s.mixed + lostMixed }

/-- The sum with one more square of a number below one; its low part is too small for the rounded
sum. -/
def addSquare (s : Squares) (x : Float) : Squares :=
  let (high, low) := split x
  let s := s.addParts 1 high low
  { s with low := s.low + low * low }

/-- The sum without the square of a number. -/
def subSquare (s : Squares) (x : Float) : Squares :=
  let (high, low) := split x
  let s := s.addParts (-1) high low
  let (sum, lost) := add s.sum (-low * low)
  { s with sum := sum, low := s.low + lost }

/-- The root of the sum, with one step of Newton's method. -/
def root (s : Squares) : Float :=
  let h := s.value.sqrt
  h + (s.subSquare h).value / (2 * h)

end Squares

/-- The length of a pair of positive numbers, of which `longest` is the greater one. They are
brought below one by a power of two, unless that is too large a number. -/
def scaled (longest x y : Float) : Float :=
  let exponent := longest.frExp.2
  if -1023 ≤ exponent then
    let scale := Float.scaleB 1 (-exponent)
    ((Squares.zero.addSquare (x * scale)).addSquare (y * scale)).root / scale
  else
    let x := x / longest
    let y := y / longest
    let (sum, lostX) := add 1 (x * x)
    let (sum, lostY) := add sum (y * y)
    longest * (sum - 1 + (lostX + lostY)).sqrt

/-- The length of the hypotenuse over `x` and `y`. -/
def length (x y : Float) : Float :=
  let x := x.abs
  let y := y.abs
  let longest := if x < y then y else x
  if x.isInf || y.isInf then 1 / 0
  else if x.isNaN || y.isNaN then 0 / 0
  else if longest == 0 then 0
  else scaled longest x y

end AutomatonLab.Hypotenuse
