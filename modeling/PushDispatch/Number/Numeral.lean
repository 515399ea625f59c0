import PushDispatch.Text.Blank
import PushDispatch.Text.Digit
import PushDispatch.Text.Quoted

/-!
Whole numbers as text. Both directions refuse numbers of more than `maxDigits` digits, which bounds
the cost of a conversion.
-/

namespace PushDispatch.Numeral

def maxDigits : Nat := 4300

inductive Error where
  | malformed (text : String)
  | tooManyDigits (count : Nat)
  | tooLargeToWrite
  deriving DecidableEq, Repr

def Error.message : Error → String
  | .malformed text => "invalid literal for int() with base 10: "
      ++ String.ofList ((Quoted.quoteChars text.toList).take 200)
  | .tooManyDigits count =>
      s!"Exceeds the limit ({maxDigits} digits) for integer string conversion: "
        ++ s!"value has {count} digits; "
        ++ "use sys.set_int_max_str_digits() to increase the limit"
  | .tooLargeToWrite =>
      s!"Exceeds the limit ({maxDigits} digits) for integer string conversion; "
        ++ "use sys.set_int_max_str_digits() to increase the limit"

def isWritable (n : Int) : Bool := decide (n.natAbs < Nat.pow 10 maxDigits)

def chars (n : Int) : List Char :=
  if n < 0 then '-' :: Nat.toDigits 10 n.natAbs else Nat.toDigits 10 n.natAbs

def text (n : Int) : String := String.ofList (chars n)

/-- The separator controls are blanks elsewhere, but not around a number. -/
def isSpace (c : Char) : Bool := Blank.isBlank c && !decide (28 ≤ c.toNat ∧ c.toNat ≤ 31)

/--
Digits with single underscores between them: the digits and what follows. An underscore that no
digit follows makes the whole text malformed.
-/
def digitRun : List Char → Option (List Char × List Char)
  | [] => some ([], [])
  | '_' :: c :: rest =>
    if c.isDigit then (digitRun rest).map fun p => (c :: p.1, p.2) else none
  | c :: rest =>
    if c.isDigit then (digitRun rest).map fun p => (c :: p.1, p.2)
    else if c = '_' then none
    else some ([], c :: rest)

def read (s : String) : Except Error Int :=
  let body := (s.toList.map Digit.toAscii).dropWhile isSpace
  let (negative, unsigned) := match body with
    | '-' :: rest => (true, rest)
    | '+' :: rest => (false, rest)
    | rest => (false, rest)
  match unsigned with
  | '_' :: _ => .error (.malformed s)
  | _ =>
    match digitRun unsigned with
    | none => .error (.malformed s)
    | some ([], _) => .error (.malformed s)
    | some (digits, rest) =>
      if maxDigits < digits.length then .error (.tooManyDigits digits.length)
      else if rest.all isSpace then
        let n : Int := Nat.ofDigitChars 10 digits 0
        .ok (if negative then -n else n)
      else .error (.malformed s)

theorem isWritable_of_natAbs_lt {n : Int} (h : n.natAbs < 1000000000000) : isWritable n := by
  have digits : 12 ≤ maxDigits := by decide
  rw [isWritable, decide_eq_true_eq]
  -- the limit stays a name: its power of ten is never computed
  generalize maxDigits = limit at *
  have power : Nat.pow 10 12 ≤ Nat.pow 10 limit := Nat.pow_le_pow_right (by decide) digits
  exact Nat.lt_of_lt_of_le h power

end PushDispatch.Numeral
