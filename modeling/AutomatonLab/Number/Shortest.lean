import AutomatonLab.Number.Binary64

/-!
# The shortest decimal of a floating-point number

`shortest` gives the fewest digits that still round to the number, and of those the nearest : for
one digit, two digits, and so on, it tries the two neighbours of the number on the grid of decimals
with that many digits. `Binary64.display` lays the digits out, in positional notation between
`0.0001` and `10 ^ 16` and with an exponent of at least two digits elsewhere.
-/

namespace AutomatonLab.Binary64

/-- A positive rational number. -/
structure Quotient where
  num : Nat
  den : Nat

namespace Quotient

/-- The number `m * 2 ^ q`. -/
def ofBinary (m : Nat) : Int → Quotient
  | .ofNat q => ⟨m * Nat.pow 2 q, 1⟩
  | .negSucc q => ⟨m, Nat.pow 2 (q + 1)⟩

/-- The number `d * 10 ^ x`. -/
def ofDecimal (d : Nat) : Int → Quotient
  | .ofNat x => ⟨d * Nat.pow 10 x, 1⟩
  | .negSucc x => ⟨d, Nat.pow 10 (x + 1)⟩

/-- One quotient is less than the other; their denominators are positive. -/
def lt (a b : Quotient) : Bool := a.num * b.den < b.num * a.den

/-- The distance between two numbers. -/
def distance (a b : Quotient) : Quotient :=
  let x := a.num * b.den
  let y := b.num * a.den
  ⟨max x y - min x y, a.den * b.den⟩

/-- The greatest natural number below or at the quotient. -/
def floor (a : Quotient) : Nat := a.num / a.den

/-- The power of ten of the leading digit. -/
def leadingPower (a : Quotient) : Int :=
  let guess : Int :=
    ((Nat.toDigits 10 a.num).length : Int) - (Nat.toDigits 10 a.den).length
  if a.lt (ofDecimal 1 guess) then guess - 1 else guess

end Quotient

/-- The numbers that round to `m * 2 ^ q` : the two ends, which belong to them iff `m` is even. -/
def roundingInterval (m : Nat) (q : Int) : Quotient × Quotient :=
  let low :=
    if m = leastNormal ∧ minExponent < q then Quotient.ofBinary (4 * m - 1) (q - 2)
    else Quotient.ofBinary (2 * m - 1) (q - 1)
  (low, Quotient.ofBinary (2 * m + 1) (q - 1))

/-- A decimal that rounds to `m * 2 ^ q`. -/
def roundsTo (m : Nat) (q : Int) (x : Quotient) : Bool :=
  let (low, high) := roundingInterval m q
  if m % 2 = 0 then !x.lt low && !high.lt x else low.lt x && x.lt high

/-- The nearer of the two neighbours of `m * 2 ^ q` among the decimals with `count` digits that
rounds to it, as the digits and the power of ten of the last one. -/
def onGrid? (m : Nat) (q : Int) (count : Nat) : Option (Nat × Int) :=
  let value := Quotient.ofBinary m q
  let power := value.leadingPower - (count - 1 : Nat)
  let shifted : Quotient := match power with
    | .ofNat x => ⟨value.num, value.den * Nat.pow 10 x⟩
    | .negSucc x => ⟨value.num * Nat.pow 10 (x + 1), value.den⟩
  let below := shifted.floor
  let above := below + 1
  let fits (d : Nat) := roundsTo m q (Quotient.ofDecimal d power)
  if fits below && fits above then
    let toBelow := value.distance (Quotient.ofDecimal below power)
    let toAbove := value.distance (Quotient.ofDecimal above power)
    if toBelow.lt toAbove || (!toAbove.lt toBelow && below % 2 == 0) then some (below, power)
    else some (above, power)
  else if fits below then some (below, power)
  else if fits above then some (above, power)
  else none

/-- The digits without zeros at the end. -/
def withoutTrailingZeros : Nat → Nat → Int → Nat × Int
  | 0, d, x => (d, x)
  | n + 1, d, x => if d ≠ 0 ∧ d % 10 = 0 then withoutTrailingZeros n (d / 10) (x + 1) else (d, x)

/-- The fewest digits that round to `m * 2 ^ q`, with the power of ten of the last one.
Seventeen digits always do. -/
def shortest (m : Nat) (q : Int) : Nat × Int :=
  match (List.range 17).findSome? fun n => onGrid? m q (n + 1) with
  | some (d, x) => withoutTrailingZeros 17 d x
  | none => (0, 0)

/-- How digits with a decimal point after the first `point` of them are written. -/
def positional (digits : List Char) (point : Int) : List Char :=
  match point with
  | .negSucc n => '0' :: '.' :: List.replicate (n + 1) '0' ++ digits
  | .ofNat 0 => '0' :: '.' :: digits
  | .ofNat n =>
    if digits.length ≤ n then digits ++ List.replicate (n - digits.length) '0' ++ ['.', '0']
    else digits.take n ++ '.' :: digits.drop n

/-- The exponent of the scientific notation, with its sign and at least two digits. -/
def exponentText (e : Int) : List Char :=
  let digits := Nat.toDigits 10 e.natAbs
  'e' :: (if e < 0 then '-' else '+') :: List.replicate (2 - digits.length) '0' ++ digits

/-- Digits with the power of ten of the last one. -/
def layout (d : Nat) (x : Int) : List Char :=
  let digits := Nat.toDigits 10 d
  let point : Int := digits.length + x
  if -4 < point ∧ point ≤ 16 then positional digits point
  else match digits with
    | [c] => c :: exponentText (point - 1)
    | c :: rest => c :: '.' :: rest ++ exponentText (point - 1)
    | [] => []

/-- The text of a number. -/
def display : Binary64 → String
  | .nan => "nan"
  | .infinite negative => if negative then "-inf" else "inf"
  | .finite negative m q =>
    let unsigned := if m = 0 then ['0', '.', '0'] else
      let (d, x) := shortest m q
      layout d x
    String.ofList (if negative then '-' :: unsigned else unsigned)

end AutomatonLab.Binary64
