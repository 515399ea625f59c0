import PushDispatch.DateTime.Unix

/-!
Moments from text: a date with a time of day, a number in Unix time, or a bare date, tried in this
order. When none fits, the error is the first thing wrong with the text as a date.
-/

namespace PushDispatch.DateTime

inductive DateError where
  | tooShort
  | yearCharacter
  | separator
  | monthCharacter
  | dayCharacter
  | monthRange
  | dayRange
  | extraCharacters
  | unix (cause : UnixError)
  deriving DecidableEq, Repr

inductive ReadError where
  | unix (cause : UnixError)
  | date (cause : DateError)
  deriving DecidableEq, Repr

def takeDigits? : Nat → Nat → List Char → Option (Nat × List Char)
  | 0, acc, rest => some (acc, rest)
  | _ + 1, _, [] => none
  | count + 1, acc, c :: rest =>
    if c.isDigit then takeDigits? count (acc * 10 + (c.toNat - 48)) rest else none

def takeNumber (count : Nat) (cause : DateError) (cs : List Char) :
    Except DateError (Nat × List Char) :=
  match takeDigits? count 0 cs with
  | some r => .ok r
  | none => .error cause

def takeHyphen : List Char → Except DateError (List Char)
  | '-' :: rest => .ok rest
  | _ => .error .separator

def byteLength (cs : List Char) : Nat := cs.foldr (·.utf8Size + ·) 0

def readDatePart (cs : List Char) : Except DateError ((Nat × Nat × Nat) × List Char) := do
  if byteLength cs < 10 then throw .tooShort
  let (year, cs) ← takeNumber 4 .yearCharacter cs
  let cs ← takeHyphen cs
  let (month, cs) ← takeNumber 2 .monthCharacter cs
  let cs ← takeHyphen cs
  let (day, cs) ← takeNumber 2 .dayCharacter cs
  if month < 1 ∨ 12 < month then throw .monthRange
  if day < 1 ∨ daysInMonth year month < day then throw .dayRange
  return ((year, month, day), cs)

/-- The part of a second that some fraction digits name, the seventh and later ones dropped. -/
def fractionMicros (digits : List Char) : Nat :=
  let kept := digits.take 6
  Nat.ofDigitChars 10 kept 0 * Nat.pow 10 (6 - kept.length)

/-- Seconds and their fraction, if a colon introduces them. A point needs a digit after it. -/
def readSeconds? : List Char → Option (Nat × Nat × List Char)
  | ':' :: cs => do
    let (second, cs) ← takeDigits? 2 0 cs
    guard (second < 60)
    match cs with
    | c :: rest =>
      if c = '.' ∨ c = ',' then
        let digits := rest.takeWhile Char.isDigit
        guard (digits ≠ [])
        return (second, fractionMicros digits, rest.dropWhile Char.isDigit)
      else return (second, 0, c :: rest)
    | [] => return (second, 0, [])
  | cs => some (0, 0, cs)

def isMinus (c : Char) : Bool := c == '-' || c == '\u2212'

def readOffset? : List Char → Option (Option Int)
  | [] => some none
  | ['Z'] => some (some 0)
  | ['z'] => some (some 0)
  | sign :: cs => do
    guard (sign = '+' ∨ isMinus sign)
    let (hours, cs) ← takeDigits? 2 0 cs
    let cs := match cs with
      | ':' :: rest => rest
      | rest => rest
    let (minutes, cs) ← takeDigits? 2 0 cs
    guard (cs = [] ∧ hours < 24 ∧ minutes < 60)
    let total : Int := hours * 60 + minutes
    return some (if isMinus sign then -total else total)

def isDateTimeSeparator (c : Char) : Bool := c == 'T' || c == 't' || c == ' ' || c == '_'

def readFull? (cs : List Char) : Option DateTime := do
  let ((year, month, day), cs) ← (readDatePart cs).toOption
  match cs with
  | [] => none
  | c :: cs =>
    guard (isDateTimeSeparator c)
    let (hour, cs) ← takeDigits? 2 0 cs
    guard (hour < 24)
    match cs with
    | ':' :: cs =>
      let (minute, cs) ← takeDigits? 2 0 cs
      guard (minute < 60)
      let (second, micros, cs) ← readSeconds? cs
      let offset ← readOffset? cs
      return ⟨year, month, day, hour, minute, second, micros, offset⟩
    | _ => none

inductive Numeric where
  | whole (n : Int)
  | fraction (x : Double)
  deriving Repr

namespace Numeric

def whole64? (negative : Bool) (digits : List Char) : Option Int :=
  let n : Int := Nat.ofDigitChars 10 digits 0
  let n := if negative then -n else n
  if -0x8000000000000000 ≤ n ∧ n < 0x8000000000000000 then some n else none

def readExponent? : List Char → Option Int
  | [] => some 0
  | mark :: cs => do
    guard (mark = 'e' ∨ mark = 'E')
    let (negative, digits) := match cs with
      | '-' :: rest => (true, rest)
      | '+' :: rest => (false, rest)
      | rest => (false, rest)
    guard (digits ≠ [] ∧ digits.all Char.isDigit)
    let n : Int := Nat.ofDigitChars 10 digits 0
    return if negative then -n else n

/--
Reads an optional sign and digits, or digits with a point before, after or among them and perhaps
an exponent. Without a point there is no exponent.
-/
def read? (cs : List Char) : Option Numeric := do
  let (negative, unsigned) := match cs with
    | '-' :: rest => (true, rest)
    | '+' :: rest => (false, rest)
    | rest => (false, rest)
  let digits := unsigned.takeWhile Char.isDigit
  let n ← whole64? negative digits
  match unsigned.dropWhile Char.isDigit with
  | [] =>
    guard (digits ≠ [])
    return .whole n
  | point :: rest =>
    guard (point = '.')
    let parts := rest.takeWhile Char.isDigit
    guard (digits ++ parts ≠ [])
    let exponent ← readExponent? (rest.dropWhile Char.isDigit)
    return .fraction (Double.ofDecimal negative (Nat.ofDigitChars 10 (digits ++ parts) 0)
      (exponent - parts.length))

def moment : Numeric → Except UnixError DateTime
  | .whole n => ofWhole n
  | .fraction x => ofUnixDouble x

end Numeric

/-- Year 0 has a calendar, but no moment in it is accepted. -/
def checkYear (t : DateTime) : Except ReadError DateTime :=
  if t.year = 0 then .error (.unix .inYear0) else .ok t

def readBareDate (cs : List Char) : Except ReadError DateTime :=
  match readDatePart cs with
  | .error cause => .error (.date cause)
  | .ok (_, _ :: _) => .error (.date .extraCharacters)
  | .ok ((year, month, day), []) => checkYear ⟨year, month, day, 0, 0, 0, 0, none⟩

/-- Why a number is not a moment. Beyond the calendar a number is looked at as a date again. -/
def numericError (cs : List Char) (number : Numeric) : UnixError → Except ReadError DateTime
  | .inYear0 => .error (.unix .inYear0)
  | cause =>
    match number with
    | .whole _ => .error (.date (.unix cause))
    | .fraction _ => readBareDate cs

def read (s : String) : Except ReadError DateTime :=
  let cs := s.toList
  match readFull? cs with
  | some t => checkYear t
  | none =>
    match Numeric.read? cs with
    | none => readBareDate cs
    | some number =>
      match number.moment with
      | .ok t => .ok t
      | .error cause => numericError cs number cause

end PushDispatch.DateTime
