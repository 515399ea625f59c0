import PushDispatch.Number.Double

/-!
The shortest decimal text of a double: of all decimals that read back as the double the ones with
the fewest digits, and of those the nearest.
-/

namespace PushDispatch.Double

structure Decimal where
  digits : Nat
  power : Int
  deriving DecidableEq, Repr

def powerAtMost (k : Int) (n d : Nat) : Bool :=
  if k < 0 then decide (d ≤ n * Nat.pow 10 (-k).toNat) else decide (d * Nat.pow 10 k.toNat ≤ n)

/--
The `k` with `10 ^ k ≤ n / d < 10 ^ (k + 1)`. The binary logarithms give it up to two steps.
-/
def decimalExponent (n d : Nat) : Int :=
  let guess : Int := ((n.log2 : Int) - d.log2 - 1) * 30103 / 100000
  if powerAtMost (guess + 2) n d then guess + 2
  else if powerAtMost (guess + 1) n d then guess + 1
  else if powerAtMost guess n d then guess
  else guess - 1

/--
The reals that round to a positive finite double, in quarters of a unit: the two ends, the double
itself, and whether the ends belong to them.
-/
structure Basin where
  low : Nat
  centre : Nat
  high : Nat
  closed : Bool

def basin (d : Double) : Basin :=
  let gap := Nat.pow 2 (d.exponentField - 1)
  let below := if d.fractionField = 0 ∧ 1 < d.exponentField then gap else 2 * gap
  { low := 4 * d.magnitude - below
    centre := 4 * d.magnitude
    high := 4 * d.magnitude + 2 * gap
    closed := d.fractionField % 2 == 0 }

def Decimal.quarters (x : Decimal) : Nat × Nat :=
  if x.power < 0 then (x.digits * (4 * unitsPerOne), Nat.pow 10 (-x.power).toNat)
  else (x.digits * Nat.pow 10 x.power.toNat * (4 * unitsPerOne), 1)

def Basin.holds (b : Basin) (x : Decimal) : Bool :=
  let (n, d) := x.quarters
  if b.closed then decide (b.low * d ≤ n ∧ n ≤ b.high * d)
  else decide (b.low * d < n ∧ n < b.high * d)

/-- Of two neighbours on a grid the nearer to the centre; a tie goes to the even digits. -/
def Basin.nearer (b : Basin) (lower upper : Decimal) : Decimal :=
  let (nl, d) := lower.quarters
  let (nu, _) := upper.quarters
  match compare (b.centre * d - nl) (nu - b.centre * d) with
  | .lt => lower
  | .gt => upper
  | .eq => if lower.digits % 2 = 0 then lower else upper

def Basin.onGrid? (b : Basin) (power : Int) : Option Decimal :=
  let four := 4 * unitsPerOne
  let floor := if power < 0 then b.centre * Nat.pow 10 (-power).toNat / four
    else b.centre / (four * Nat.pow 10 power.toNat)
  let lower : Decimal := ⟨floor, power⟩
  let upper : Decimal := ⟨floor + 1, power⟩
  match b.holds lower, b.holds upper with
  | true, true => some (b.nearer lower upper)
  | true, false => some lower
  | false, true => some upper
  | false, false => none

def Decimal.trim : Nat → Decimal → Decimal
  | 0, x => x
  | fuel + 1, x =>
    if x.digits % 10 = 0 ∧ x.digits ≠ 0 then Decimal.trim fuel ⟨x.digits / 10, x.power + 1⟩ else x

/-- Seventeen digits always read back, so the search ends there. -/
def shortestFrom (b : Basin) (first : Int) : Nat → Nat → Decimal
  | 0, count => ⟨0, first - count⟩
  | fuel + 1, count =>
    match b.onGrid? (first - count) with
    | some x => x
    | none => shortestFrom b first fuel (count + 1)

def shortest (d : Double) : Decimal :=
  let b := d.basin
  let first := decimalExponent b.centre (4 * unitsPerOne)
  Decimal.trim 20 (shortestFrom b first 18 0)

structure Layout where
  /-- The decimal exponents, both ends included, that are written without an exponent part. -/
  leastPositional : Int
  greatestPositional : Int
  /-- The least number of digits in the exponent part. -/
  exponentDigits : Nat

/-- From 10⁻⁴ up to below 10¹⁶ no exponent is written, and an exponent has two digits or more. -/
def layout : Layout := ⟨-4, 15, 2⟩

def zeros (n : Nat) : List Char := List.replicate n '0'

def positional (digits : List Char) (point : Int) : List Char :=
  if point ≤ 0 then '0' :: '.' :: zeros (-point).toNat ++ digits
  else
    let whole := point.toNat
    if digits.length ≤ whole then digits ++ zeros (whole - digits.length) ++ ['.', '0']
    else digits.take whole ++ '.' :: digits.drop whole

def scientific (l : Layout) (digits : List Char) (exponent : Int) : List Char :=
  let mantissa := match digits with
    | [] => []
    | [c] => [c]
    | c :: rest => c :: '.' :: rest
  let power := Nat.toDigits 10 exponent.natAbs
  mantissa ++ 'e' :: (if exponent < 0 then '-' else '+')
    :: zeros (l.exponentDigits - power.length) ++ power

def magnitudeText (l : Layout) (d : Double) : List Char :=
  if d.magnitude = 0 then ['0', '.', '0']
  else
    let x := d.shortest
    let digits := Nat.toDigits 10 x.digits
    let exponent := x.power + digits.length - 1
    if l.leastPositional ≤ exponent ∧ exponent ≤ l.greatestPositional then
      positional digits (exponent + 1)
    else scientific l digits exponent

/-- The sign of zero is kept; the sign of an undefined value is not. -/
def text (d : Double) : String :=
  match d.extent with
  | .undefined => "nan"
  | .infinite negative => if negative then "-inf" else "inf"
  | .finite _ => String.ofList ((if d.isNegative then ['-'] else []) ++ d.magnitudeText layout)

end PushDispatch.Double
