import PushDispatch.DateTime.Reader
import PushDispatch.Value.Display

/-!
Faults that a check of named fields reports: what is wrong, where, and with which value. One input
may have several; they are listed in the order of the fields.
-/

namespace PushDispatch

inductive Fault.Cause where
  | missing
  | notText
  | emptyText
  | notMessage
  | notObject
  | undecodableData
  | notMoment
  | moment (cause : DateTime.ReadError)
  | notInteger
  | notIntegerText
  | oversizedInteger
  | fractional
  | notFinite
  | belowLeast (least : Int)
  | aboveGreatest (greatest : Int)
  | relativePath
  | unknownField
  deriving DecidableEq, Repr

/-- A cause with the input it is about; `loc` leads to it from the outermost field inwards. -/
structure Fault where
  cause : Fault.Cause
  loc : List Key
  input : Value
  deriving Repr

namespace Fault

/-- What a `data` field must be; also the text of its rejection on its own. -/
def dataMessage : String :=
  "Invalid input received, must be an object or a base64 encoded object"

end Fault

namespace DateTime

def UnixError.message : UnixError → String
  | .afterYear9999 => "dates after 9999 are not supported as unix timestamps"
  | .inYear0 => "year 0 is out of range"
  | .beforeYear0 => "dates before 0000 are not supported as unix timestamps"
  | .undefined => "NaN values not permitted"
  | .tooLarge => ""

def DateError.message : DateError → String
  | .tooShort => "input is too short"
  | .yearCharacter => "invalid character in year"
  | .separator => "invalid date separator, expected `-`"
  | .monthCharacter => "invalid character in month"
  | .dayCharacter => "invalid character in day"
  | .monthRange => "month value is outside expected range of 1-12"
  | .dayRange => "day value is outside expected range"
  | .extraCharacters => "unexpected extra characters at the end of the input"
  | .unix cause => cause.message

end DateTime

namespace Fault.Cause

/-- The short name of a cause. A number too large to be rounded counts as no moment at all. -/
def code : Cause → String
  | .missing => "missing"
  | .notText => "string_type"
  | .emptyText => "string_too_short"
  | .notMessage => "model_type"
  | .notObject => "dict_type"
  | .undecodableData => "value_error"
  | .notMoment => "datetime_type"
  | .moment (.unix .tooLarge) => "datetime_type"
  | .moment (.unix _) => "datetime_parsing"
  | .moment (.date _) => "datetime_from_date_parsing"
  | .notInteger => "int_type"
  | .notIntegerText => "int_parsing"
  | .oversizedInteger => "int_parsing_size"
  | .fractional => "int_from_float"
  | .notFinite => "finite_number"
  | .belowLeast _ => "greater_than_equal"
  | .aboveGreatest _ => "less_than_equal"
  | .relativePath => "value_error"
  | .unknownField => "extra_forbidden"

def message : Cause → String
  | .missing => "Field required"
  | .notText => "Input should be a valid string"
  | .emptyText => "String should have at least 1 character"
  | .notMessage => "Input should be a valid dictionary or instance of PushMessage"
  | .notObject => "Input should be a valid dictionary"
  | .undecodableData => "Value error, " ++ dataMessage
  | .notMoment => "Input should be a valid datetime"
  | .moment (.unix .tooLarge) => "Input should be a valid datetime"
  | .moment (.unix cause) => "Input should be a valid datetime, " ++ cause.message
  | .moment (.date cause) => "Input should be a valid datetime or date, " ++ cause.message
  | .notInteger => "Input should be a valid integer"
  | .notIntegerText => "Input should be a valid integer, unable to parse string as an integer"
  | .oversizedInteger => "Unable to parse input string as an integer, exceeded maximum size"
  | .fractional => "Input should be a valid integer, got a number with a fractional part"
  | .notFinite => "Input should be a finite number"
  | .belowLeast least => s!"Input should be greater than or equal to {least}"
  | .aboveGreatest greatest => s!"Input should be less than or equal to {greatest}"
  | .relativePath => "Value error, path must start with '/'"
  | .unknownField => "Extra inputs are not permitted"

end Fault.Cause

namespace Fault

def headline (faults : List Fault) (kind : String) : String :=
  let noun := if faults.length = 1 then "error" else "errors"
  toString faults.length ++ s!" validation {noun} for {kind}"

def ofField (cause : Cause) (name : String) (input : Value) : Fault := ⟨cause, [.str name], input⟩

def within (name : String) (f : Fault) : Fault := { f with loc := .str name :: f.loc }

end Fault

/--
How a key stands in a location: texts and whole numbers of 64 bits as they are, others as messages
show them.
-/
def Key.locator (k : Key) : Key :=
  match k with
  | .str s => .str s
  | .bool b => .int b.toNat
  | .int n =>
    if -0x8000000000000000 ≤ n ∧ n < 0x8000000000000000 then .int n
    else .str (String.ofList k.display)
  | _ => .str (String.ofList k.display)

abbrev Checked (α : Type) := Except (List Fault) α

namespace Checked

def faults : Checked α → List Fault
  | .ok _ => []
  | .error fs => fs

end Checked
end PushDispatch
