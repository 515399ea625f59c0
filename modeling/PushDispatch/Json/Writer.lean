import PushDispatch.Number.Shortest
import PushDispatch.Value.Display

/-!
Values as JSON text. Tuples are written as lists, read-only mappings as objects, and every key as a
text.
-/

namespace PushDispatch.Json

structure Style where
  afterItem : List Char
  afterKey : List Char
  /-- Are all characters but the printable ones of ASCII written as escapes? -/
  asciiOnly : Bool

def Style.compact : Style := ⟨[','], [':'], false⟩

def Style.compactAscii : Style := ⟨[','], [':'], true⟩

def Style.spacedAscii : Style := ⟨[',', ' '], [':', ' '], true⟩

def escapeUnit (n : Nat) : List Char := '\\' :: 'u' :: Quoted.hex 4 n

def escapeChar (asciiOnly : Bool) (c : Char) : List Char :=
  if c = '"' ∨ c = '\\' then ['\\', c]
  else if c = '\n' then ['\\', 'n']
  else if c = '\r' then ['\\', 'r']
  else if c = '\t' then ['\\', 't']
  else if c = '\x08' then ['\\', 'b']
  else if c = '\x0c' then ['\\', 'f']
  else if c.toNat < 32 then escapeUnit c.toNat
  else if asciiOnly = false ∨ c.toNat < 127 then [c]
  else if c.toNat < 0x10000 then escapeUnit c.toNat
  else
    let n := c.toNat - 0x10000
    escapeUnit (0xD800 + n / 0x400) ++ escapeUnit (0xDC00 + n % 0x400)

def quote (style : Style) (cs : List Char) : List Char :=
  '"' :: cs.flatMap (escapeChar style.asciiOnly) ++ ['"']

def doubleText (d : Double) : List Char :=
  match d.extent with
  | .undefined => "NaN".toList
  | .infinite negative => if negative then "-Infinity".toList else "Infinity".toList
  | .finite _ => d.text.toList

def boolText (b : Bool) : List Char := if b then "true".toList else "false".toList

def keyText : Key → List Char
  | .null => "null".toList
  | .bool b => boolText b
  | .int n => Numeral.chars n
  | .float d => doubleText d
  | .str s => s.toList
  | .tuple items => (Key.tuple items).display
  | .thunk => Key.thunk.display

mutual

/-- What has no JSON form is written as null. -/
def write (style : Style) : Value → List Char
  | .null => "null".toList
  | .bool b => boolText b
  | .int n => Numeral.chars n
  | .float d => doubleText d
  | .str s => quote style s.toList
  | .list items => '[' :: writeItems style items ++ [']']
  | .tuple items => '[' :: writeItems style items ++ [']']
  | .dict entries => '\x7b' :: writeMembers style entries ++ ['\x7d']
  | .proxy _ entries => '\x7b' :: writeMembers style entries ++ ['\x7d']
  | .thunk _ => "null".toList
  | .message .. => "null".toList
  | .envelope .. => "null".toList

def writeItems (style : Style) : List Value → List Char
  | [] => []
  | [v] => write style v
  | v :: rest => write style v ++ style.afterItem ++ writeItems style rest

def writeMembers (style : Style) : List (Key × Value) → List Char
  | [] => []
  | [(k, v)] => quote style (keyText k) ++ style.afterKey ++ write style v
  | (k, v) :: rest =>
    quote style (keyText k) ++ style.afterKey ++ write style v ++ style.afterItem
      ++ writeMembers style rest

end

def writeText (style : Style) (v : Value) : String := String.ofList (write style v)

end PushDispatch.Json
