import PushDispatch.Number.Numeral
import PushDispatch.Text.Encoding
import PushDispatch.Value.Basic

/-!
JSON text as values. Beside the standard's grammar `NaN` and the two infinities are numbers, and of
a key that is repeated the last value counts. Lists and objects are followed down to a depth that
the caller sets; what lies deeper is not looked at.
-/

namespace PushDispatch

/-- Why reading ends before it is clear whether a text is JSON. -/
inductive Json.Halt where
  /-- One list or object more than can be open at once. -/
  | tooDeep (isObject : Bool)
  /-- A surrogate on its own is no character. Readers of 16-bit units go on here, this one does not:
  what they would make of the text is left open. -/
  | surrogate
  deriving DecidableEq, Repr

def Json.Halt.message : Halt → String
  | .tooDeep isObject => "maximum recursion depth exceeded while decoding a JSON "
      ++ (if isObject then "object" else "array") ++ " from a unicode string"
  | .surrogate => "surrogates not allowed"

/-- Why nothing came of an input: it was refused, or a text in it could not be read to its end. -/
inductive Stop (ε : Type) where
  | refused (cause : ε)
  | halted (cause : Json.Halt)
  deriving DecidableEq, Repr

namespace Json

inductive ReadError where
  | malformed
  | halted (cause : Halt)
  deriving DecidableEq, Repr

def ReadError.ofEncoding : Encoding.Error → ReadError
  | .malformed => .malformed
  | .surrogate => .halted .surrogate

def orMalformed {α : Type} : Option α → Except ReadError α
  | some a => .ok a
  | none => .error .malformed

@[simp] theorem orMalformed_some {α : Type} (a : α) : orMalformed (some a) = .ok a := rfl

structure NumberToken where
  negative : Bool
  whole : List Char
  fraction : List Char
  exponent : Option Int
  text : List Char

def NumberToken.isInteger (t : NumberToken) : Bool := t.fraction.isEmpty && t.exponent.isNone

/-- What becomes of the numbers of a text; one that is refused spoils the whole text. -/
abbrev NumberRule := NumberToken → Option Value

def NumberToken.toInt (t : NumberToken) : Int :=
  let n : Int := Nat.ofDigitChars 10 t.whole 0
  if t.negative then -n else n

def NumberToken.toDouble (t : NumberToken) : Double :=
  Double.ofDecimal t.negative (Nat.ofDigitChars 10 (t.whole ++ t.fraction) 0)
    (t.exponent.getD 0 - t.fraction.length)

/-- Integers are exact, all other numbers doubles. -/
def exactNumber : NumberRule := fun t =>
  some (if t.isInteger then .int t.toInt else .float t.toDouble)

def boundedNumber : NumberRule := fun t =>
  if t.isInteger && decide (Numeral.maxDigits < t.whole.length) then none else exactNumber t

def numberText : NumberRule := fun t => some (.str (String.ofList t.text))

def isBlank (c : Char) : Bool := c == ' ' || c == '\t' || c == '\n' || c == '\r'

def skipBlanks (cs : List Char) : List Char := cs.dropWhile isBlank

def hexValue? (c : Char) : Option Nat :=
  if '0' ≤ c ∧ c ≤ '9' then some (c.toNat - 48)
  else if 'a' ≤ c ∧ c ≤ 'f' then some (c.toNat - 87)
  else if 'A' ≤ c ∧ c ≤ 'F' then some (c.toNat - 55)
  else none

def hexQuad? (a b c d : Char) : Option Nat := do
  return (((← hexValue? a) * 16 + (← hexValue? b)) * 16 + (← hexValue? c)) * 16 + (← hexValue? d)

def escaped? (c : Char) : Option Char :=
  if c = '"' ∨ c = '\\' ∨ c = '/' then some c
  else if c = 'b' then some '\x08'
  else if c = 'f' then some '\x0c'
  else if c = 'n' then some '\n'
  else if c = 'r' then some '\r'
  else if c = 't' then some '\t'
  else none

def character (unit : Nat) : Except ReadError Char :=
  (Encoding.scalar unit).mapError .ofEncoding

def readString : List Char → Except ReadError (List Char × List Char)
  | [] => .error .malformed
  | '"' :: rest => .ok ([], rest)
  | '\\' :: 'u' :: a :: b :: c :: d :: rest => do
    let high ← orMalformed (hexQuad? a b c d)
    if Encoding.isHighSurrogate high then
      match rest with
      | '\\' :: 'u' :: a :: b :: c :: d :: rest =>
        let low ← orMalformed (hexQuad? a b c d)
        if Encoding.isLowSurrogate low then
          let ch ← character (Encoding.joinSurrogates high low)
          (readString rest).map fun p => (ch :: p.1, p.2)
        else .error (.halted .surrogate)
      | _ => .error (.halted .surrogate)
    else
      let ch ← character high
      (readString rest).map fun p => (ch :: p.1, p.2)
  | '\\' :: e :: rest => do
    let ch ← orMalformed (escaped? e)
    (readString rest).map fun p => (ch :: p.1, p.2)
  | c :: rest =>
    if c.toNat < 32 ∨ c = '\\' then .error .malformed
    else (readString rest).map fun p => (c :: p.1, p.2)

def takeWhole : List Char → Option (List Char × List Char)
  | '0' :: rest => some (['0'], rest)
  | c :: rest =>
    if c.isDigit then some (c :: rest.takeWhile Char.isDigit, rest.dropWhile Char.isDigit) else none
  | [] => none

def takeFraction : List Char → List Char × List Char
  | '.' :: rest =>
    match rest.takeWhile Char.isDigit with
    | [] => ([], '.' :: rest)
    | digits => (digits, rest.dropWhile Char.isDigit)
  | cs => ([], cs)

def takeSign : List Char → List Char × List Char
  | '-' :: rest => (['-'], rest)
  | '+' :: rest => (['+'], rest)
  | rest => ([], rest)

def takeExponent (cs : List Char) : Option (List Char × Int) × List Char :=
  match cs with
  | c :: rest =>
    if c = 'e' ∨ c = 'E' then
      let (sign, unsigned) := takeSign rest
      match unsigned.takeWhile Char.isDigit with
      | [] => (none, cs)
      | digits =>
        let n : Int := Nat.ofDigitChars 10 digits 0
        let signed := if sign = ['-'] then -n else n
        (some (c :: sign ++ digits, signed), unsigned.dropWhile Char.isDigit)
    else (none, cs)
  | [] => (none, [])

def takeNumber (negative : Bool) (cs : List Char) : Option (NumberToken × List Char) := do
  let (whole, cs) ← takeWhole cs
  let (fraction, cs) := takeFraction cs
  let (exponent, cs) := takeExponent cs
  let text := (if negative then ['-'] else []) ++ whole
    ++ (if fraction = [] then [] else '.' :: fraction) ++ (exponent.map Prod.fst).getD []
  return (⟨negative, whole, fraction, exponent.map Prod.snd, text⟩, cs)

def readNumber (rule : NumberRule) (cs : List Char) : Option (Value × List Char) :=
  match cs with
  | 'N' :: 'a' :: 'N' :: rest => some (.float .nan, rest)
  | 'I' :: 'n' :: 'f' :: 'i' :: 'n' :: 'i' :: 't' :: 'y' :: rest =>
    some (.float (.infinity false), rest)
  | '-' :: 'I' :: 'n' :: 'f' :: 'i' :: 'n' :: 'i' :: 't' :: 'y' :: rest =>
    some (.float (.infinity true), rest)
  | '-' :: rest => do
    let (token, rest) ← takeNumber true rest
    return (← rule token, rest)
  | _ => do
    let (token, rest) ← takeNumber false cs
    return (← rule token, rest)

mutual

/-- A value at the head of the text, which begins with no blank, and what follows it. -/
def readValue (rule : NumberRule) :
    (fuel depth : Nat) → List Char → Except ReadError (Value × List Char)
  | 0, _, _ => .error .malformed
  | fuel + 1, depth, cs =>
    match cs with
    | '"' :: rest => (readString rest).map fun p => (.str (String.ofList p.1), p.2)
    | '[' :: rest =>
      match depth with
      | 0 => .error (.halted (.tooDeep false))
      | depth + 1 =>
        match skipBlanks rest with
        | ']' :: rest => .ok (.list [], rest)
        | rest => (readItems rule fuel depth rest).map fun p => (.list p.1, p.2)
    | '\x7b' :: rest =>
      match depth with
      | 0 => .error (.halted (.tooDeep true))
      | depth + 1 =>
        match skipBlanks rest with
        | '\x7d' :: rest => .ok (.dict [], rest)
        | rest =>
          (readMembers rule fuel depth rest).map fun p => (.dict (Entries.collapse p.1), p.2)
    | 'n' :: 'u' :: 'l' :: 'l' :: rest => .ok (.null, rest)
    | 't' :: 'r' :: 'u' :: 'e' :: rest => .ok (.bool true, rest)
    | 'f' :: 'a' :: 'l' :: 's' :: 'e' :: rest => .ok (.bool false, rest)
    | _ => orMalformed (readNumber rule cs)

def readItems (rule : NumberRule) :
    (fuel depth : Nat) → List Char → Except ReadError (List Value × List Char)
  | 0, _, _ => .error .malformed
  | fuel + 1, depth, cs => do
    let (v, cs) ← readValue rule fuel depth cs
    match skipBlanks cs with
    | ',' :: cs => (readItems rule fuel depth (skipBlanks cs)).map fun p => (v :: p.1, p.2)
    | ']' :: cs => .ok ([v], cs)
    | _ => .error .malformed

def readMembers (rule : NumberRule) :
    (fuel depth : Nat) → List Char → Except ReadError (Entries × List Char)
  | 0, _, _ => .error .malformed
  | fuel + 1, depth, cs =>
    match cs with
    | '"' :: cs => do
      let (name, cs) ← readString cs
      match skipBlanks cs with
      | ':' :: cs =>
        let (v, cs) ← readValue rule fuel depth (skipBlanks cs)
        let entry : Key × Value := (.str (String.ofList name), v)
        match skipBlanks cs with
        | ',' :: cs =>
          (readMembers rule fuel depth (skipBlanks cs)).map fun p => (entry :: p.1, p.2)
        | '\x7d' :: cs => .ok ([entry], cs)
        | _ => .error .malformed
      | _ => .error .malformed
    | _ => .error .malformed

end

/-- The one value of a text, blanks around it allowed. No character is worth more than two steps: a
bracket opens a list and begins its first item. -/
def readChars (rule : NumberRule) (depth : Nat) (cs : List Char) : Except ReadError Value := do
  let (v, rest) ← readValue rule (2 * cs.length + 1) depth (skipBlanks cs)
  if skipBlanks rest = [] then return v else throw .malformed

def readText (rule : NumberRule) (depth : Nat) (s : String) : Except ReadError Value :=
  readChars rule depth s.toList

/-- The byte order marks. Of two that begin alike the longer one comes first. -/
def byteOrderMarks : List (Bytes × Encoding) :=
  [([0x00, 0x00, 0xFE, 0xFF], .utf32 true), ([0xFF, 0xFE, 0x00, 0x00], .utf32 false),
    ([0xFE, 0xFF], .utf16 true), ([0xFF, 0xFE], .utf16 false), ([0xEF, 0xBB, 0xBF], .utf8)]

/-- The encoding that the zeros among the first bytes show: the first characters are ASCII. -/
def detectBare : Bytes → Encoding
  | a :: b :: c :: d :: _ =>
    if a = 0 then (if b = 0 then .utf32 true else .utf16 true)
    else if b = 0 then (if c = 0 ∧ d = 0 then .utf32 false else .utf16 false)
    else .utf8
  | [a, b] => if a = 0 then .utf16 true else if b = 0 then .utf16 false else .utf8
  | _ => .utf8

def detect (bytes : Bytes) : Encoding × Bytes :=
  match byteOrderMarks.find? (·.1.isPrefixOf bytes) with
  | some (mark, encoding) => (encoding, bytes.drop mark.length)
  | none => (detectBare bytes, bytes)

def readBytes (rule : NumberRule) (depth : Nat) (bytes : Bytes) : Except ReadError Value :=
  let (encoding, body) := detect bytes
  ((encoding.decode body).mapError .ofEncoding).bind (readChars rule depth)

end Json
end PushDispatch
