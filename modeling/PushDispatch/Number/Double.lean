/-!
Doubles, held as their 64-bit word and read through exact integers.

One unit is 2⁻¹⁰⁷⁴, the least positive double. Every finite double is a whole number of units, so
comparison with each other and with whole numbers is comparison of integers, without rounding.
-/

namespace PushDispatch

structure Double where
  bits : UInt64
  deriving DecidableEq, Repr

namespace Double

/-- What a double stands for on the extended line. The two zeros have one extent. -/
inductive Extent where
  | undefined
  | infinite (negative : Bool)
  | finite (units : Int)
  deriving DecidableEq, Repr

def fractionSize : Nat := Nat.pow 2 52

def unitsPerOne : Nat := Nat.pow 2 1074

def infinityBits : Nat := 0x7FF0000000000000

def isNegative (d : Double) : Bool := decide (Nat.pow 2 63 ≤ d.bits.toNat)

def exponentField (d : Double) : Nat := d.bits.toNat / fractionSize % 2048

def fractionField (d : Double) : Nat := d.bits.toNat % fractionSize

def magnitude (d : Double) : Nat :=
  if d.exponentField = 0 then d.fractionField
  else (fractionSize + d.fractionField) * Nat.pow 2 (d.exponentField - 1)

def extent (d : Double) : Extent :=
  if d.exponentField = 2047 then
    if d.fractionField = 0 then .infinite d.isNegative else .undefined
  else .finite (if d.isNegative then -(d.magnitude : Int) else d.magnitude)

def Extent.ofInt (n : Int) : Extent := .finite (n * unitsPerOne)

/-- Equality of extents, except that an undefined one equals nothing, itself included. -/
def Extent.same : Extent → Extent → Bool
  | .undefined, _ => false
  | a, b => a == b

def isNaN (d : Double) : Bool := d.extent == .undefined

def isFinite (d : Double) : Bool :=
  match d.extent with
  | .finite _ => true
  | _ => false

def ofMagnitudeBits (negative : Bool) (bits : Nat) : Double :=
  ⟨UInt64.ofNat (if negative then Nat.pow 2 63 + bits else bits)⟩

def nan : Double := ⟨0x7FF8000000000000⟩

def infinity (negative : Bool) : Double := ofMagnitudeBits negative infinityBits

/-- The whole number nearest to `n / d`; a half goes to the even neighbour. -/
def roundHalfEven (n d : Nat) : Nat :=
  let q := n / d
  match compare (2 * (n % d)) d with
  | .lt => q
  | .eq => q + q % 2
  | .gt => q + 1

def scaleDown (n d : Nat) (p : Int) : Nat × Nat :=
  if p < 0 then (n * Nat.pow 2 (-p).toNat, d) else (n, d * Nat.pow 2 p.toNat)

/--
The double nearest to `n / d`, ties to even. The exponent `p` is the least that leaves a
significand below 2⁵³, but no less than -1074; a significand rounded up to 2⁵³ carries into the
exponent field by itself.
-/
def ofRatio (negative : Bool) (n d : Nat) : Double :=
  if n = 0 then ofMagnitudeBits negative 0
  else
    let rough : Int := max (-1074) ((n.log2 : Int) - d.log2 - 52)
    let (n₀, d₀) := scaleDown n d rough
    let p := if n₀ / d₀ < fractionSize ∧ -1074 < rough then rough - 1 else rough
    let (n₁, d₁) := scaleDown n d p
    let bits := (p + 1074).toNat * fractionSize + roundHalfEven n₁ d₁
    ofMagnitudeBits negative (min bits infinityBits)

/--
The double nearest to `m * 10 ^ e`. Outside the exponents tested first every such number rounds
to zero or to infinity, and the large powers are never computed.
-/
def ofDecimal (negative : Bool) (m : Nat) (e : Int) : Double :=
  if m = 0 then ofMagnitudeBits negative 0
  else
    let top : Int := (Nat.toDigits 10 m).length + e
    if 400 < top then infinity negative
    else if top < -400 then ofMagnitudeBits negative 0
    else if e < 0 then ofRatio negative m (Nat.pow 10 (-e).toNat)
    else ofRatio negative (m * Nat.pow 10 e.toNat) 1

def ofInt? (n : Int) : Option Double :=
  let d := ofRatio (n < 0) n.natAbs 1
  if d.isFinite then some d else none

end Double
end PushDispatch
