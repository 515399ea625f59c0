import PushDispatch.Number.Numeral

/-!
Templates of paths. Between literal text a template has fields in braces, each with a name and a
kind that says which texts may stand there.

A path matches when its whole text is taken up. Every field takes as much as it can; when the rest
of the path does not match then, it gives back one character after the other. One line feed after
the path does not matter.
-/

namespace PushDispatch

inductive FieldKind where
  /-- Anything but a slash, at least one character. -/
  | part
  /-- Anything on one line, slashes and nothing included. -/
  | path
  | int
  | float
  | uuid
  deriving DecidableEq, Repr

namespace FieldKind

def names : List (String × FieldKind) :=
  [("str", part), ("path", path), ("int", int), ("float", float), ("uuid", uuid)]

def down (most least : Nat) : List Nat :=
  ((List.range (most + 1)).drop least).reverse

def digitCount (cs : List Char) : Nat := (cs.takeWhile Char.isDigit).length

/-- The lengths of a fraction after its whole digits, then the whole digits alone. -/
def floatLengths (cs : List Char) : List Nat :=
  let whole := digitCount cs
  let withFraction := match cs.drop whole with
    | '.' :: rest => (down (digitCount rest) 1).map (whole + 1 + ·)
    | _ => []
  if whole = 0 then [] else withFraction ++ down whole 1

def isHexDigit (c : Char) : Bool :=
  c.isDigit || decide ('a' ≤ c ∧ c ≤ 'f') || decide ('A' ≤ c ∧ c ≤ 'F')

def hexGroups? : List Nat → List Char → Option Nat
  | [], _ => some 0
  | size :: sizes, cs =>
    if ((cs.take size).takeWhile isHexDigit).length < size then none
    else
      let rest := cs.drop size
      match sizes, rest with
      | _ :: _, '-' :: rest => (hexGroups? sizes rest).map (size + 1 + ·)
      | _, rest => (hexGroups? sizes rest).map (size + ·)

/-- How many characters at the head of a text a field may take, what it likes best first. -/
def lengths : FieldKind → List Char → List Nat
  | .part, cs => down (cs.takeWhile (· ≠ '/')).length 1
  | .path, cs => down (cs.takeWhile (· ≠ '\n')).length 0
  | .int, cs => down (digitCount cs) 1
  | .float, cs => floatLengths cs
  | .uuid, cs => (hexGroups? [8, 4, 4, 4, 12] cs).toList

end FieldKind

inductive PathPiece where
  | literal (c : Char)
  | field (name : List Char) (kind : FieldKind)
  deriving DecidableEq, Repr

abbrev PathTemplate := List PathPiece

namespace PathTemplate

inductive Error where
  | unknownKind (name : String)
  | repeatedNames (names : List String) (text : String)
  deriving DecidableEq, Repr

def Error.message : Error → String
  | .unknownKind name => s!"Unknown path convertor '{name}'"
  | .repeatedNames names text =>
    "Duplicated param name" ++ (if names.length = 1 then " " else "s ") ++ ", ".intercalate names
      ++ " at path " ++ text

def startsName (c : Char) : Bool := c.isAlpha || c == '_'

def continuesName (c : Char) : Bool := c.isAlphanum || c == '_'

def readName? : List Char → Option (List Char × List Char)
  | c :: rest =>
    if startsName c then
      some (c :: rest.takeWhile continuesName, rest.dropWhile continuesName)
    else none
  | [] => none

def readField? (cs : List Char) : Option (List Char × List Char × List Char) := do
  let (name, rest) ← readName? cs
  match rest with
  | '\x7d' :: rest => return (name, "str".toList, rest)
  | ':' :: rest =>
    match ← readName? rest with
    | (kind, '\x7d' :: rest) => return (name, kind, rest)
    | _ => none
  | _ => none

/-- The template at the head of a text; a brace that begins no field is literal. -/
def readPieces : Nat → List Char → Except Error PathTemplate
  | 0, _ => .ok []
  | _ + 1, [] => .ok []
  | fuel + 1, c :: rest =>
    match (if c = '\x7b' then readField? rest else none) with
    | none => (readPieces fuel rest).map (.literal c :: ·)
    | some (name, kind, rest) =>
      match FieldKind.names.lookup (String.ofList kind) with
      | none => .error (.unknownKind (String.ofList kind))
      | some kind => (readPieces fuel rest).map (.field name kind :: ·)

def fieldNames (t : PathTemplate) : List String :=
  t.filterMap fun piece => match piece with
    | .field name _ => some (String.ofList name)
    | .literal _ => none

def repeatedNames (t : PathTemplate) : List String :=
  let names := t.fieldNames
  ((names.filter fun n => 1 < names.count n).eraseDups).mergeSort fun a b => decide (a ≤ b)

def read (text : String) : Except Error PathTemplate := do
  let cs := text.toList
  let t ← readPieces cs.length cs
  if t.repeatedNames = [] then return t
  throw (.repeatedNames t.repeatedNames text)

/-- What the fields take of a path that matches, with their kinds. -/
def taken? : PathTemplate → List Char → Option (List (FieldKind × List Char))
  | [], cs => if cs = [] ∨ cs = ['\n'] then some [] else none
  | .literal c :: rest, cs =>
    match cs with
    | d :: cs => if c = d then taken? rest cs else none
    | [] => none
  | .field _ kind :: rest, cs =>
    (kind.lengths cs).findSome? fun n =>
      (taken? rest (cs.drop n)).map ((kind, cs.take n) :: ·)

def areReadable (fields : List (FieldKind × List Char)) : Bool :=
  fields.all fun f => f.1 != .int || decide (f.2.length ≤ Numeral.maxDigits)

end PathTemplate
end PushDispatch
