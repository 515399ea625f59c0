import PushDispatch.Value.Basic

/-!
Spans of time in microseconds. Moments on the clock are spans since 1970, and `wholeSeconds` is how
records that know seconds only see them.
-/

namespace PushDispatch.Span

inductive Error where
  | notNumber (typeName : String)
  | undefined
  | infinite
  | tooLong (days : Int)
  deriving DecidableEq, Repr

def microsPerSecond : Nat := 1000000

def microsPerDay : Nat := 86400 * microsPerSecond

def maxDays : Nat := 999999999

/-- A number of days beyond 32 bits is not even named. -/
def Error.message : Error → String
  | .notNumber typeName => "unsupported type for timedelta seconds component: " ++ typeName
  | .undefined => "cannot convert float NaN to integer"
  | .infinite => "cannot convert float infinity to integer"
  | .tooLong days =>
    if -0x80000000 ≤ days ∧ days < 0x80000000 then
      s!"days={days}; must have magnitude <= {maxDays}"
    else "Python int too large to convert to C int"

def ofSeconds (n : Int) : Int := n * microsPerSecond

def wholeSeconds (micros : Int) : Int := micros.fdiv microsPerSecond

/--
Seconds in units of a double. The part of a second is brought to microseconds as a double and then
to the nearest whole one, a half to the even neighbour.
-/
def ofUnits (units : Int) : Int :=
  let part := Double.ofRatio false (units.natAbs % Double.unitsPerOne * microsPerSecond)
    Double.unitsPerOne
  let micros := units.natAbs / Double.unitsPerOne * microsPerSecond
    + Double.roundHalfEven part.magnitude Double.unitsPerOne
  if units < 0 then -(micros : Int) else micros

def ofDouble (d : Double) : Except Error Int :=
  match d.extent with
  | .undefined => .error .undefined
  | .infinite _ => .error .infinite
  | .finite units => .ok (ofUnits units)

def check (micros : Int) : Except Error Int :=
  let days := micros.fdiv microsPerDay
  if maxDays < days.natAbs then .error (.tooLong days) else .ok micros

def ofValue : Value → Except Error Int
  | .bool b => .ok (ofSeconds b.toNat)
  | .int n => check (ofSeconds n)
  | .float d => (ofDouble d).bind check
  | v => .error (.notNumber v.typeName)

end PushDispatch.Span
