/-!
Moments of the proleptic Gregorian calendar to the microsecond, with or without an offset from UTC,
and their ISO text.
-/

namespace PushDispatch

/-- A moment; its offset is in minutes east of UTC, and without one it is local to no place. -/
structure DateTime where
  year : Nat
  month : Nat
  day : Nat
  hour : Nat
  minute : Nat
  second : Nat
  microsecond : Nat
  offset : Option Int
  deriving DecidableEq, Repr, Inhabited

namespace DateTime

def isLeapYear (y : Nat) : Bool := y % 4 == 0 && (y % 100 != 0 || y % 400 == 0)

def daysInMonth (y m : Nat) : Nat :=
  if m = 2 then (if isLeapYear y then 29 else 28)
  else if m = 4 ∨ m = 6 ∨ m = 9 ∨ m = 11 then 30
  else 31

def secondsPerDay : Nat := 86400

def epochDay : Nat := 719468

/-- The number of a day from 1 March of year 0 on. Years begin in March: the leap day ends one. -/
def dayNumber (y m d : Nat) : Int :=
  let y' : Int := if m ≤ 2 then (y : Int) - 1 else y
  let era := y'.fdiv 400
  let yearOfEra := y' - era * 400
  let monthFromMarch : Int := if m ≤ 2 then m + 9 else (m : Int) - 3
  let dayOfYear := (153 * monthFromMarch + 2) / 5 + d - 1
  era * 146097 + yearOfEra * 365 + yearOfEra / 4 - yearOfEra / 100 + dayOfYear

def ofDayNumber (z : Nat) : Nat × Nat × Nat :=
  let era := z / 146097
  let dayOfEra := z % 146097
  let yearOfEra := (dayOfEra - dayOfEra / 1460 + dayOfEra / 36524 - dayOfEra / 146096) / 365
  let dayOfYear := dayOfEra - (365 * yearOfEra + yearOfEra / 4 - yearOfEra / 100)
  let monthFromMarch := (5 * dayOfYear + 2) / 153
  let day := dayOfYear - (153 * monthFromMarch + 2) / 5 + 1
  let month := if monthFromMarch < 10 then monthFromMarch + 3 else monthFromMarch - 9
  let year := yearOfEra + era * 400
  (if month ≤ 2 then year + 1 else year, month, day)

/-- The microseconds since 1970, read in UTC where there is no offset. -/
def microseconds (t : DateTime) : Int :=
  let days := dayNumber t.year t.month t.day - epochDay
  let minutes := (days * 24 + t.hour) * 60 + t.minute - t.offset.getD 0
  (minutes * 60 + t.second) * 1000000 + t.microsecond

/-- The same moment: one with an offset never is the same as one without. -/
def sameMoment (a b : DateTime) : Bool :=
  a.offset.isSome == b.offset.isSome && a.microseconds == b.microseconds

def padded (width n : Nat) : List Char :=
  let digits := Nat.toDigits 10 n
  List.replicate (width - digits.length) '0' ++ digits

def clockText (t : DateTime) : List Char :=
  padded 4 t.year ++ '-' :: padded 2 t.month ++ '-' :: padded 2 t.day
    ++ 'T' :: padded 2 t.hour ++ ':' :: padded 2 t.minute ++ ':' :: padded 2 t.second
    ++ if t.microsecond = 0 then [] else '.' :: padded 6 t.microsecond

def offsetText (minutes : Int) : List Char :=
  let n := minutes.natAbs
  (if minutes < 0 then '-' else '+') :: padded 2 (n / 60) ++ ':' :: padded 2 (n % 60)

/-- The ISO text: six fraction digits or none, and the offset if there is one. -/
def isoText (t : DateTime) : String :=
  String.ofList (t.clockText ++ (t.offset.map offsetText).getD [])

def isoTextZulu (t : DateTime) : String :=
  if t.offset = some 0 then String.ofList (t.clockText ++ ['Z']) else t.isoText

end DateTime
end PushDispatch
