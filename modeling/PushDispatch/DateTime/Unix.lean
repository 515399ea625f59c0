import PushDispatch.DateTime.Basic
import PushDispatch.Number.Double

/-!
Moments from Unix time. A number counts seconds, or milliseconds when it is further from zero than
`watershed`; the moment is in UTC.
-/

namespace PushDispatch.DateTime

inductive UnixError where
  | afterYear9999
  | inYear0
  | beforeYear0
  | undefined
  | tooLarge
  deriving DecidableEq, Repr

def watershed : Int := 20000000000

def yearZeroSecond : Int := -62167219200

def firstSecond : Int := -62135596800

def lastSecond : Int := 253402300799

def ofSeconds (seconds : Int) (micros : Nat) : Except UnixError DateTime :=
  let total := seconds + micros / 1000000
  if total < yearZeroSecond then .error .beforeYear0
  else if total < firstSecond then .error .inYear0
  else if lastSecond < total then .error .afterYear9999
  else
    let day := total.fdiv secondsPerDay
    let rest := (total - day * secondsPerDay).toNat
    let (y, m, d) := ofDayNumber (day + epochDay).toNat
    .ok ⟨y, m, d, rest / 3600, rest / 60 % 60, rest % 60, micros % 1000000, some 0⟩

def ofMilliseconds (millis : Int) (micros : Nat) : Except UnixError DateTime :=
  ofSeconds (millis.fdiv 1000) ((millis.fmod 1000).toNat * 1000 + micros)

def ofWhole (n : Int) : Except UnixError DateTime :=
  if n.natAbs ≤ watershed.natAbs then ofSeconds n 0 else ofMilliseconds n 0

/-- A whole number that no double comes near is no moment at all. -/
def ofUnixInt (n : Int) : Except UnixError DateTime :=
  match Double.ofInt? n with
  | none => .error .tooLarge
  | some _ => ofWhole n

def roundHalfUp (n d : Nat) : Nat := (2 * n + d) / (2 * d)

/--
A part of one, in units of a double, times `scale`: the part and the product are each rounded as
doubles, and the product then to the nearest whole number.
-/
def scalePart (scale units : Nat) : Nat :=
  let part := Double.ofRatio false units Double.unitsPerOne
  let product := Double.ofRatio false (part.magnitude * scale) Double.unitsPerOne
  roundHalfUp product.magnitude Double.unitsPerOne

/-- A double. It counts from its floor on, and a part that is rounded up to one carries. -/
def ofUnixDouble (x : Double) : Except UnixError DateTime :=
  match x.extent with
  | .undefined => .error .undefined
  | .infinite negative => .error (if negative then .beforeYear0 else .afterYear9999)
  | .finite units =>
    let floor := units.fdiv Double.unitsPerOne
    let part := (units.fmod Double.unitsPerOne).toNat
    if units.natAbs ≤ watershed.natAbs * Double.unitsPerOne then
      ofSeconds floor (scalePart 1000000 part)
    else ofMilliseconds floor (scalePart 1000 part)

end PushDispatch.DateTime
