import PushDispatch.Named
import PushDispatch.Text.Blank

/-!
Files of variables, one assignment a line. A statement that is none is skipped and noted by its
line, and of several assignments to one name the last counts. Values refer to variables by name in
braces after a dollar sign; what the file has set so far goes before the environment.
-/

namespace PushDispatch.EnvFile

abbrev Variables := Named String

/-- Names that a file assigns, with their values. A name on its own line is assigned nothing. -/
abbrev Assigned := Named (Option String)

def unifyLines : List Char → List Char
  | '\r' :: '\n' :: rest => '\n' :: unifyLines rest
  | '\r' :: rest => '\n' :: unifyLines rest
  | c :: rest => c :: unifyLines rest
  | [] => []

def isGap (c : Char) : Bool := Blank.isBlank c && c != '\n'

def skipGap (cs : List Char) : List Char := cs.dropWhile isGap

def restOfLine (cs : List Char) : List Char := cs.takeWhile (· ≠ '\n')

def afterLine (cs : List Char) : List Char := (cs.dropWhile (· ≠ '\n')).drop 1

def endLine? (cs : List Char) : Option (List Char) :=
  match skipGap cs with
  | [] => some []
  | '\n' :: rest => some rest
  | '#' :: rest => some (afterLine rest)
  | _ => none

def skipExport (cs : List Char) : List Char :=
  match cs with
  | 'e' :: 'x' :: 'p' :: 'o' :: 'r' :: 't' :: c :: rest => if isGap c then skipGap rest else cs
  | _ => cs

def isNameChar (c : Char) : Bool := c != '=' && c != '#' && !Blank.isBlank c

def readName (cs : List Char) : Except Unit (Option (List Char) × List Char) :=
  match cs with
  | '#' :: _ => .ok (none, cs)
  | '\x27' :: rest =>
    match rest.takeWhile (· ≠ '\x27'), rest.dropWhile (· ≠ '\x27') with
    | c :: name, _ :: rest => .ok (some (c :: name), rest)
    | _, _ => .error ()
  | _ =>
    match cs.takeWhile isNameChar with
    | [] => .error ()
    | name => .ok (some name, cs.dropWhile isNameChar)

/--
A quoted text up to the closing quote, escapes as written. What follows a backslash belongs to it
and does not close.
-/
def readQuoted (quote : Char) : List Char → Option (List Char × List Char)
  | [] => none
  | '\\' :: c :: rest => (readQuoted quote rest).map fun p => ('\\' :: c :: p.1, p.2)
  | c :: rest =>
    if c = quote then some ([], rest) else (readQuoted quote rest).map fun p => (c :: p.1, p.2)

def apostropheEscapes : List (Char × Char) := [('\\', '\\'), ('\x27', '\x27')]

def quotationEscapes : List (Char × Char) :=
  [('\\', '\\'), ('\x27', '\x27'), ('"', '"'), ('a', '\x07'), ('b', '\x08'), ('f', '\x0c'),
    ('n', '\n'), ('r', '\r'), ('t', '\t'), ('v', '\x0b')]

/-- Every escape that is listed gives way to its character; other backslashes stay. -/
def unescape (escapes : List (Char × Char)) : List Char → List Char
  | '\\' :: c :: rest =>
    match escapes.lookup c with
    | some d => d :: unescape escapes rest
    | none => '\\' :: unescape escapes (c :: rest)
  | c :: rest => c :: unescape escapes rest
  | [] => []

/-- A line up to a comment, which begins at a number sign after a blank. -/
def beforeComment : List Char → List Char
  | c :: '#' :: rest => if Blank.isBlank c then [] else c :: beforeComment ('#' :: rest)
  | c :: rest => c :: beforeComment rest
  | [] => []

/-- The value after the equals sign and what follows it; a quoted text may lack its end. -/
def readValue (cs : List Char) : Option (List Char × List Char) :=
  match skipGap cs with
  | '\x27' :: rest =>
    (readQuoted '\x27' rest).map fun p => (unescape apostropheEscapes p.1, p.2)
  | '"' :: rest => (readQuoted '"' rest).map fun p => (unescape quotationEscapes p.1, p.2)
  | _ => some (Blank.trim (beforeComment (restOfLine cs)), cs.dropWhile (· ≠ '\n'))

/--
A statement of a file. An assignment without an equals sign has no value; a comment, or blanks at
the end, say nothing.
-/
inductive Statement where
  | assignment (name : List Char) (value : Option (List Char))
  | nothing
  | unreadable
  deriving DecidableEq, Repr

def Statement.assignment? : Statement → Option (List Char × Option (List Char))
  | .assignment name value => some (name, value)
  | _ => none

def readStatement (cs : List Char) : Statement × List Char :=
  match cs.dropWhile Blank.isBlank with
  | [] => (.nothing, [])
  | c :: line =>
    let start := skipExport (c :: line)
    match readName start with
    | .error _ => (.unreadable, afterLine start)
    | .ok (name, rest) =>
      let close (value : Option (List Char)) (rest : List Char) : Statement × List Char :=
        match endLine? rest with
        | some rest => (name.elim .nothing (.assignment · value), rest)
        | none => (.unreadable, afterLine rest)
      match skipGap rest with
      | '=' :: rest =>
        match readValue rest with
        | some (value, rest) => close (some value) rest
        | none => (.unreadable, afterLine (skipGap rest))
      | rest => close none rest

def lineEnds (cs : List Char) : Nat := cs.count '\n'

/--
The statements of a text with the lines they start at; blank lines belong to the statement after
them. Every statement takes up at least one character, so `fuel` is the length of the text.
-/
def statementsFrom : Nat → Nat → List Char → List (Nat × Statement)
  | 0, _, _ => []
  | _ + 1, _, [] => []
  | fuel + 1, line, cs =>
    let (statement, rest) := readStatement cs
    (line, statement) :: statementsFrom fuel (line + (lineEnds cs - lineEnds rest)) rest

def statements (text : List Char) : List (Nat × Statement) :=
  let cs := match unifyLines text with
    | '\ufeff' :: rest => rest
    | cs => cs
  statementsFrom cs.length 1 cs

def assignments (text : List Char) : List (List Char × Option (List Char)) :=
  (statements text).filterMap (·.2.assignment?)

def unreadableLines (text : String) : List Nat :=
  ((statements text.toList).filter (·.2 == .unreadable)).map (·.1)

structure Reference where
  name : List Char
  otherwise : List Char

def Reference.read? (cs : List Char) : Option (Reference × List Char) :=
  let isName (c : Char) : Bool := c != '\x7d' && c != ':'
  match cs.dropWhile isName with
  | '\x7d' :: rest => some (⟨cs.takeWhile isName, []⟩, rest)
  | ':' :: '-' :: rest =>
    match rest.dropWhile (· ≠ '\x7d') with
    | _ :: after => some (⟨cs.takeWhile isName, rest.takeWhile (· ≠ '\x7d')⟩, after)
    | [] => none
  | _ => none

/-- What comes for a reference. A name that the file has left without a value counts as empty. -/
def Reference.resolve (env : Variables) (file : Assigned) (r : Reference) : List Char :=
  let name := String.ofList r.name
  match file.lookup name with
  | some value => (value.getD "").toList
  | none => ((env.lookup name).map String.toList).getD r.otherwise

theorem Reference.length_of_read? {cs rest : List Char} {r : Reference}
    (h : Reference.read? cs = some (r, rest)) : rest.length < cs.length := by
  have drop (p : Char → Bool) (l : List Char) : (l.dropWhile p).length ≤ l.length :=
    (List.dropWhile_sublist p).length_le
  unfold Reference.read? at h
  simp only at h
  split at h
  · rename_i after hd
    have h₁ := drop (fun c => c != '\x7d' && c != ':') cs
    rw [hd, List.length_cons] at h₁
    obtain ⟨-, rfl⟩ := Prod.mk.inj (Option.some.inj h)
    omega
  · rename_i after hd
    have h₁ := drop (fun c => c != '\x7d' && c != ':') cs
    have h₂ := drop (fun c => decide (c ≠ '\x7d')) after
    rw [hd] at h₁
    split at h
    · rename_i last hl
      rw [hl, List.length_cons] at h₂
      rw [List.length_cons, List.length_cons] at h₁
      obtain ⟨-, rfl⟩ := Prod.mk.inj (Option.some.inj h)
      omega
    · simp at h
  · simp at h

/-- A value with its references replaced. What they are replaced by is not read again. -/
def expand (env : Variables) (file : Assigned) (cs : List Char) : List Char :=
  match cs with
  | [] => []
  | '$' :: '\x7b' :: inner =>
    match h : Reference.read? inner with
    | some (r, rest) =>
      have := Reference.length_of_read? h
      r.resolve env file ++ expand env file rest
    | none => '$' :: expand env file ('\x7b' :: inner)
  | c :: rest => c :: expand env file rest
termination_by cs.length
decreasing_by all_goals simp only [List.length_cons]; omega

def assigned (env : Variables) (text : String) : Assigned :=
  (assignments text.toList).foldl (fun file a =>
    file.set (String.ofList a.1) (a.2.map fun v => String.ofList (expand env file v))) []

def Assigned.variables (file : Assigned) : Variables :=
  file.filterMap fun a => a.2.map (a.1, ·)

def read (env : Variables) (text : String) : Variables := (assigned env text).variables

end PushDispatch.EnvFile
