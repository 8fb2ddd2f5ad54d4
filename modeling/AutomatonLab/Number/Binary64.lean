/-!
# Binary floating-point numbers of 53 bits

`Binary64` is a number that a JSON text may hold beside the integers : `mantissa * 2 ^ exponent`
with a mantissa below `2 ^ 53` and an exponent of at least `-1074`, an infinity, or no number.
`Binary64.ofDecimal` is the nearest one to a decimal, a tie going to the even mantissa.
-/

namespace AutomatonLab

/-- A binary floating-point number. A finite one has the mantissa at least `2 ^ 52`, unless the
exponent is the least one. -/
inductive Binary64 where
  | nan
  | infinite (negative : Bool)
  | finite (negative : Bool) (mantissa : Nat) (exponent : Int)
  deriving DecidableEq, Repr

namespace Binary64

/-- The least exponent of a finite number. -/
def minExponent : Int := -1074

/-- The greatest exponent of a finite number. -/
def maxExponent : Int := 971

/-- A mantissa is below this number. -/
def mantissaBound : Nat := Nat.pow 2 53

/-- The least mantissa of a number whose exponent is not the least one. -/
def leastNormal : Nat := Nat.pow 2 52

/-- The quotient `num / den`, rounded to the nearest natural number, a tie going to the even one. -/
def roundedQuotient (num den : Nat) : Nat :=
  let quotient := num / den
  let twice := 2 * (num % den)
  if twice < den then quotient
  else if den < twice then quotient + 1
  else quotient + quotient % 2

/-- The quotient `num / den * 2 ^ (-exponent)` as a pair of natural numbers. -/
def scaled (num den : Nat) (exponent : Int) : Nat × Nat :=
  match exponent with
  | .ofNat n => (num, den * Nat.pow 2 n)
  | .negSucc n => (num * Nat.pow 2 (n + 1), den)

/-- The exponent that gives the positive quotient `num / den` a mantissa of 53 bits, or the least
exponent if that one is lower. -/
def exponentFor (num den : Nat) : Int :=
  let guess : Int := (num.log2 : Int) - den.log2 - 53
  let (n, d) := scaled num den guess
  max minExponent (if n / d < mantissaBound then guess else guess + 1)

/-- The nearest number to the positive quotient `num / den`. -/
def ofQuotient (negative : Bool) (num den : Nat) : Binary64 :=
  let exponent := exponentFor num den
  let (n, d) := scaled num den exponent
  let mantissa := roundedQuotient n d
  let (mantissa, exponent) :=
    if mantissa < mantissaBound then (mantissa, exponent) else (leastNormal, exponent + 1)
  if maxExponent < exponent then .infinite negative else .finite negative mantissa exponent

/-- The nearest number to `digits * 10 ^ power`. Powers far outside the range of the finite
numbers are not computed. -/
def ofDecimal (negative : Bool) (digits : Nat) (power : Int) : Binary64 :=
  let magnitude : Int := (Nat.toDigits 10 digits).length + power
  if digits = 0 ∨ magnitude < -400 then .finite negative 0 minExponent
  else if 400 < magnitude then .infinite negative
  else match power with
    | .ofNat n => ofQuotient negative (digits * Nat.pow 10 n) 1
    | .negSucc n => ofQuotient negative digits (Nat.pow 10 (n + 1))

/-- Zero of either sign. -/
def isZero : Binary64 → Bool
  | .finite _ mantissa _ => mantissa == 0
  | _ => false

end Binary64

end AutomatonLab
