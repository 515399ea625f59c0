import PushDispatch.Text.Printable

/-!
The quoted form of a text, as it stands in messages: on one line, every character recognisable.
-/

namespace PushDispatch.Quoted

def apostrophe : Char := '\x27'

def quotation : Char := '\x22'

def hexDigit (n : Nat) : Char := (n % 16).digitChar

def hex : Nat → Nat → List Char
  | 0, _ => []
  | count + 1, n => hex count (n / 16) ++ [hexDigit n]

/-- Apostrophes surround the text, unless it holds one and no quotation mark. -/
def delimiter (cs : List Char) : Char :=
  if cs.contains apostrophe && !cs.contains quotation then quotation else apostrophe

/-- A hidden character shows its code in the shortest of the three widths. -/
def escape (delim c : Char) : List Char :=
  if c = delim ∨ c = '\\' then ['\\', c]
  else if c = '\n' then ['\\', 'n']
  else if c = '\r' then ['\\', 'r']
  else if c = '\t' then ['\\', 't']
  else if Printable.isPrintable c then [c]
  else if c.toNat < 0x100 then '\\' :: 'x' :: hex 2 c.toNat
  else if c.toNat < 0x10000 then '\\' :: 'u' :: hex 4 c.toNat
  else '\\' :: 'U' :: hex 8 c.toNat

def quoteChars (cs : List Char) : List Char :=
  let delim := delimiter cs
  delim :: cs.flatMap (escape delim) ++ [delim]

def quote (s : String) : String := String.ofList (quoteChars s.toList)

end PushDispatch.Quoted
