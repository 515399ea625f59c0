import PushDispatch.DateTime.Span
import PushDispatch.DateTime.Unix

/-!
Readings of the clock. A clock may be finer than microseconds, and the two ways of writing a reading
round it differently: one to the nearest microsecond, the other down to the second. A reading may
also lie where no calendar reaches.
-/

namespace PushDispatch

inductive ClockError where
  | notNumber (typeName : String)
  | undefined
  /-- Its seconds do not fit 64 bits. -/
  | beyondSeconds
  /-- Its year, counted from 1900, does not fit 32 bits. -/
  | beyondYears
  /-- The calendar of dates has no such year. -/
  | noSuchYear (year : Int)
  /-- Its year, counted from 0, does not fit 32 bits. -/
  | unwritableYear
  deriving DecidableEq, Repr

def ClockError.message : ClockError → String
  | .notNumber typeName => s!"'{typeName}' object cannot be interpreted as an integer"
  | .undefined => "Invalid value NaN (not a number)"
  | .beyondSeconds => "timestamp out of range for platform time_t"
  | .beyondYears => "[Errno 75] Value too large for defined data type"
  | .noSuchYear year => s!"year {year} is out of range"
  | .unwritableYear => "signed integer is greater than maximum"

/-- The second that has begun and the nearest microsecond, both counted from 1970. -/
structure Instant where
  second : Int
  micros : Int
  deriving DecidableEq, Repr

namespace Instant

def ofMicros (micros : Int) : Instant := ⟨Span.wholeSeconds micros, micros⟩

def civil (day : Int) : Int × Nat × Nat :=
  let shifted := day + DateTime.epochDay
  let era := shifted.fdiv 146097
  let (year, month, dayOfMonth) := DateTime.ofDayNumber (shifted.fmod 146097).toNat
  (year + era * 400, month, dayOfMonth)

def yearOfSecond (second : Int) : Int := (civil (second.fdiv DateTime.secondsPerDay)).1

/-- Is the number one of `2 * half`, of which half are negative? -/
def fits (half : Int) (n : Int) : Bool := decide (-half ≤ n ∧ n < half)

def check (i : Instant) : Except ClockError Instant :=
  if !fits 0x8000000000000000 i.second then .error .beyondSeconds
  else if !fits 0x80000000 (yearOfSecond i.second - 1900) then .error .beyondYears
  else .ok i

def ofValue : Value → Except ClockError Instant
  | .bool b => .ok (ofMicros (Span.ofSeconds b.toNat))
  | .int n => (ofMicros (Span.ofSeconds n)).check
  | .float d =>
    match d.extent with
    | .undefined => .error .undefined
    | .infinite _ => .error .beyondSeconds
    | .finite units => check ⟨units.fdiv Double.unitsPerOne, Span.ofUnits units⟩
  | v => .error (.notNumber v.typeName)

/-- The moment in UTC to the microsecond. A year that the calendar lacks is named in 32 bits. -/
def dateTime (i : Instant) : Except ClockError DateTime :=
  let second := Span.wholeSeconds i.micros
  (DateTime.ofSeconds second (i.micros.fmod Span.microsPerSecond).toNat).mapError fun _ =>
    .noSuchYear ((yearOfSecond second).bmod 0x100000000)

def clockText (i : Instant) : Except ClockError (List Char) :=
  let day := i.second.fdiv DateTime.secondsPerDay
  let (year, month, dayOfMonth) := civil day
  let rest := (i.second - day * DateTime.secondsPerDay).toNat
  if 0x80000000 ≤ year then .error .unwritableYear
  else
    .ok ((toString year).toList ++ '-' :: DateTime.padded 2 month
      ++ '-' :: DateTime.padded 2 dayOfMonth
      ++ ' ' :: DateTime.padded 2 (rest / 3600) ++ ':' :: DateTime.padded 2 (rest / 60 % 60)
      ++ ':' :: DateTime.padded 2 (rest % 60))

end Instant

abbrev ClockReading := Except ClockError Instant

namespace ClockReading

def micros (r : ClockReading) : Except ClockError Int := do
  let i ← r
  let _ ← i.dateTime
  return i.micros

end ClockReading
end PushDispatch
