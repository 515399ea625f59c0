import PushDispatch.Text.Encoding

/-!
Base 64: six bits to a character, four characters to three bytes. `decode?` is the strict reading of
padded text, `decodeLenient?` the one that skips foreign characters and stops at sufficient padding.
-/

namespace PushDispatch.Base64

def sextet? (c : Char) : Option Nat :=
  if 'A' ≤ c ∧ c ≤ 'Z' then some (c.toNat - 65)
  else if 'a' ≤ c ∧ c ≤ 'z' then some (c.toNat - 71)
  else if '0' ≤ c ∧ c ≤ '9' then some (c.toNat + 4)
  else if c = '+' then some 62
  else if c = '/' then some 63
  else none

/-- The URL-safe alphabet has other characters for the last two. -/
def toStandard (c : Char) : Char := if c = '-' then '+' else if c = '_' then '/' else c

def one (a b : Nat) : UInt8 := UInt8.ofNat (a * 4 + b / 16)

def two (b c : Nat) : UInt8 := UInt8.ofNat (b * 16 + c / 4)

def three (c d : Nat) : UInt8 := UInt8.ofNat (c * 64 + d)

/-- The bytes that whole groups of sextets make; left-over bits are ignored. -/
def bytesOf : List Nat → Bytes
  | a :: b :: c :: d :: rest => one a b :: two b c :: three c d :: bytesOf rest
  | [a, b, c] => [one a b, two b c]
  | [a, b] => [one a b]
  | _ => []

/--
How many signs of padding may follow so many symbols: those that complete the last group, or any
number after complete groups.
-/
def paddingFits (symbols signs : Nat) : Bool :=
  match symbols % 4 with
  | 0 => signs == 0 || symbols != 0
  | 2 => signs == 2
  | 3 => signs == 1
  | _ => false

def decode? (cs : List Char) : Option Bytes :=
  let symbols := cs.takeWhile (· ≠ '=')
  let signs := cs.dropWhile (· ≠ '=')
  if signs.all (· == '=') && paddingFits symbols.length signs.length then
    (symbols.mapM sextet?).map bytesOf
  else none

def pad (cs : List Char) : List Char := cs ++ List.replicate ((4 - cs.length % 4) % 4) '='

/--
The lenient reading. `held` are the sextets of the group begun, `pads` the signs of padding since
the last of them. Padding that completes a group ends the text, other padding and foreign characters
are skipped, and a group left incomplete is an error.
-/
def decodeLenientFrom (held : List Nat) (pads : Nat) : List Char → Option Bytes
  | [] => if held = [] then some [] else none
  | '=' :: rest =>
    if 2 ≤ held.length then
      if 4 ≤ held.length + (pads + 1) then some [] else decodeLenientFrom held (pads + 1) rest
    else decodeLenientFrom held pads rest
  | ch :: rest =>
    match sextet? ch, held with
    | none, _ => decodeLenientFrom held pads rest
    | some d, [_, _, c] => (decodeLenientFrom [] 0 rest).map (three c d :: ·)
    | some c, [a, b] => (decodeLenientFrom [a, b, c] 0 rest).map (two b c :: ·)
    | some b, [a] => (decodeLenientFrom [a, b] 0 rest).map (one a b :: ·)
    | some a, _ => decodeLenientFrom [a] 0 rest

/-- The bytes of a text, each as the character of its number. -/
def octets (cs : List Char) : List Char := (Encoding.encodeUtf8 cs).map fun b => Char.ofNat b.toNat

/-- Reads text of either alphabet whose padding, counted in bytes, may have been left off. -/
def decodeLenient? (cs : List Char) : Option Bytes :=
  decodeLenientFrom [] 0 ((pad (octets cs)).map toStandard)

def symbolCount (cs : List Char) : Nat := (cs.map toStandard).countP (sextet? · |>.isSome)

def urlChar (n : Nat) : Char :=
  if n < 26 then Char.ofNat (n + 65)
  else if n < 52 then Char.ofNat (n + 71)
  else if n < 62 then Char.ofNat (n - 4)
  else if n = 62 then '-'
  else '_'

def encodeUrl : Bytes → List Char
  | [] => []
  | [a] => [urlChar (a.toNat / 4), urlChar (a.toNat % 4 * 16)]
  | [a, b] =>
    [urlChar (a.toNat / 4), urlChar (a.toNat % 4 * 16 + b.toNat / 16), urlChar (b.toNat % 16 * 4)]
  | a :: b :: c :: rest =>
    urlChar (a.toNat / 4) :: urlChar (a.toNat % 4 * 16 + b.toNat / 16)
      :: urlChar (b.toNat % 16 * 4 + c.toNat / 64) :: urlChar (c.toNat % 64) :: encodeUrl rest

end PushDispatch.Base64
