import PushDispatch.Value.Display

/-!
Messages with places for arguments. A place is a percent sign and a letter: `s` for the plain text
of an argument, `r` for its quoted one, `d` for a whole number; two percent signs stand for one.
-/

namespace PushDispatch.Template

inductive Error where
  | incomplete
  | unknownPlace (c : Char) (index : Nat)
  | tooFewArguments
  | tooManyArguments
  | notNumber (typeName : String)
  | undefined
  | infinite
  | unwritable
  deriving DecidableEq, Repr

def Error.message : Error → String
  | .incomplete => "incomplete format"
  | .unknownPlace c index =>
    let shown := if 31 ≤ c.toNat ∧ c.toNat ≤ 126 then c else '?'
    "unsupported format character '" ++ String.ofList [shown] ++ "' (0x"
      ++ String.ofList (Nat.toDigits 16 c.toNat) ++ s!") at index {index}"
  | .tooFewArguments => "not enough arguments for format string"
  | .tooManyArguments => "not all arguments converted during string formatting"
  | .notNumber typeName => s!"%d format: a real number is required, not {typeName}"
  | .undefined => "cannot convert float NaN to integer"
  | .infinite => "cannot convert float infinity to integer"
  | .unwritable => Numeral.Error.tooLargeToWrite.message

def integer : Value → Except Error Int
  | .bool b => .ok b.toNat
  | .int n => .ok n
  | .float d =>
    match d.extent with
    | .undefined => .error .undefined
    | .infinite _ => .error .infinite
    | .finite units => .ok (units.tdiv Double.unitsPerOne)
  | v => .error (.notNumber v.typeName)

def argument (c : Char) (index : Nat) (v : Value) : Except Error (List Char) :=
  if c = 's' then if v.isWritable then .ok v.plain else .error .unwritable
  else if c = 'r' then if v.isWritable then .ok v.display else .error .unwritable
  else if c = 'd' then do
    let n ← integer v
    if Numeral.isWritable n then return Numeral.chars n else throw .unwritable
  else .error (.unknownPlace c index)

/-- Fills the places from `index` on. Arguments left over are an error unless they are `spare`. -/
def fill (spare : Bool) : List Char → Nat → List Value → Except Error (List Char)
  | [], _, args => if args.isEmpty || spare then .ok [] else .error .tooManyArguments
  | ['%'], _, _ => .error .incomplete
  | '%' :: '%' :: rest, index, args => (fill spare rest (index + 2) args).map ('%' :: ·)
  | '%' :: _ :: _, _, [] => .error .tooFewArguments
  | '%' :: c :: rest, index, v :: args => do
    let text ← argument c (index + 1) v
    (fill spare rest (index + 2) args).map (text ++ ·)
  | c :: rest, index, args => (fill spare rest (index + 1) args).map (c :: ·)

/-- A single mapping that is not empty may be left over. -/
def isSpare : List Value → Bool
  | [v] => v.entries?.any (!·.isEmpty)
  | _ => false

/-- The message for a template. Without arguments the template is the message. -/
def render (template : String) (args : List Value) : Except Error String :=
  if args.isEmpty then .ok template
  else (fill (isSpare args) template.toList 0 args).map String.ofList

end PushDispatch.Template
