import PushDispatch.Fault

/-! Numbers of ports, and the values that may stand for one. -/

namespace PushDispatch

abbrev Port := Fin 65536

namespace Port

def ofInt (n : Int) : Except Fault.Cause Port :=
  if h : 0 ≤ n ∧ n ≤ 65535 then .ok ⟨n.toNat, by omega⟩
  else if n < 0 then .error (.belowLeast 0)
  else .error (.aboveGreatest 65535)

/-- What follows zeros and underscores up to a digit, a hyphen or a point; `last` came before. -/
def dropZerosAfter (last : Char) : List Char → Option (List Char)
  | [] => some [last]
  | c :: rest =>
    if c = '0' ∨ c = '_' then dropZerosAfter c rest
    else if c.isDigit ∨ c = '-' then some (c :: rest)
    else if c = '.' then some (last :: c :: rest)
    else none

/--
The text without its leading zeros and the underscores among them; the last of these stays before a
point and at the end. A text that begins otherwise than a number is none.
-/
def dropZeros : List Char → Option (List Char)
  | '0' :: rest => dropZerosAfter '0' rest
  | c :: rest => if c.isDigit ∨ c = '-' then some (c :: rest) else none
  | [] => none

def dropFraction (cs : List Char) : List Char :=
  match cs.dropWhile (· ≠ '.') with
  | _ :: '0' :: rest => if rest.all (· == '0') then cs.takeWhile (· ≠ '.') else cs
  | _ => cs

def hasLooseUnderscore : List Char → Bool
  | [] => false
  | ['_'] => true
  | '_' :: '_' :: _ => true
  | _ :: rest => hasLooseUnderscore rest

/-- The text without its underscores. If one is at an end or next to another, all of them stay. -/
def joinDigits (cs : List Char) : List Char :=
  if cs.head? = some '_' || hasLooseUnderscore cs then cs else cs.filter (· ≠ '_')

def readDigits (cs : List Char) : Except Fault.Cause Nat :=
  let digits := cs.takeWhile Char.isDigit
  let isPlain := digits ≠ [] ∧ (digits.head? ≠ some '0' ∨ digits = ['0'])
  if isPlain ∧ Numeral.maxDigits < digits.length then .error .oversizedInteger
  else if isPlain ∧ cs.dropWhile Char.isDigit = [] then .ok (Nat.ofDigitChars 10 digits 0)
  else .error .notIntegerText

def readPlain : List Char → Except Fault.Cause Int
  | '-' :: rest => (readDigits rest).map fun n => -(n : Int)
  | cs => (readDigits cs).map Int.ofNat

/-- The text without its leading zeros, behind a minus; a plus goes, and both at once are none. -/
def dropSignedZeros : List Char → Option (List Char)
  | '+' :: '-' :: _ => none
  | '+' :: rest => dropZeros rest
  | '-' :: rest => (dropZeros rest).map ('-' :: ·)
  | cs => dropZeros cs

def trim (cs : List Char) : List Char :=
  ((cs.dropWhile Numeral.isSpace).reverse.dropWhile Numeral.isSpace).reverse

def tidy? (cs : List Char) : Option (List Char) :=
  (dropSignedZeros (trim cs)).map fun cs => joinDigits (dropFraction cs)

/--
A whole number: blanks around it, a plus, leading zeros, single underscores and a fraction of zeros
do not matter. Only a text that is a plain number as it stands is found to be too long.
-/
def readText (s : String) : Except Fault.Cause Int :=
  match readPlain s.toList with
  | .ok n => .ok n
  | .error .oversizedInteger => .error .oversizedInteger
  | .error _ =>
    match (tidy? s.toList).map readPlain with
    | some (.ok n) => .ok n
    | _ => .error .notIntegerText

def ofDouble (d : Double) : Except Fault.Cause Int :=
  match d.extent with
  | .undefined | .infinite _ => .error .notFinite
  | .finite units =>
    if units.tmod Double.unitsPerOne ≠ 0 then .error .fractional
    else if units.natAbs < Nat.pow 2 63 * Double.unitsPerOne then
      .ok (units.tdiv Double.unitsPerOne)
    else .error .oversizedInteger

def integer : Value → Except Fault.Cause Int
  | .bool b => .ok b.toNat
  | .int n => .ok n
  | .float d => ofDouble d
  | .str s => readText s
  | _ => .error .notInteger

def ofValue (v : Value) : Except Fault.Cause Port := (integer v).bind ofInt

theorem ofInt_eq_ok {n : Int} {p : Port} (h : ofInt n = .ok p) : (p.val : Int) = n := by
  unfold ofInt at h
  split at h
  · cases h
    simp
    omega
  · split at h <;> cases h

end Port
end PushDispatch
