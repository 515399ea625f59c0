/-!
Characters as bytes in UTF-8, UTF-16 and UTF-32. Decoding is strict: no overlong form, no surrogate
on its own, nothing cut short.
-/

namespace PushDispatch

abbrev Bytes := List UInt8

inductive Encoding where
  | utf8
  | utf16 (bigEndian : Bool)
  | utf32 (bigEndian : Bool)
  deriving DecidableEq, Repr

namespace Encoding

/-- Why bytes are no text. A surrogate on its own is told apart: there are readers that let it pass.
-/
inductive Error where
  | malformed
  | surrogate
  deriving DecidableEq, Repr

def scalar (n : Nat) : Except Error Char :=
  if h : n.isValidChar then .ok (Char.ofNatAux n h)
  else .error (if n < 0x110000 then .surrogate else .malformed)

def tail (b : UInt8) : Except Error Nat :=
  if 0x80 ≤ b ∧ b < 0xC0 then .ok (b.toNat - 0x80) else .error .malformed

/-- The scalar value, unless fewer bytes would have held it. -/
def atLeast (least n : Nat) : Except Error Char :=
  if least ≤ n then scalar n else .error .malformed

def decodeUtf8 : Bytes → Except Error (List Char)
  | [] => .ok []
  | a :: rest =>
    if a < 0x80 then do
      let c ← scalar a.toNat
      (decodeUtf8 rest).map (c :: ·)
    else if a < 0xC0 then .error .malformed
    else if a < 0xE0 then
      match rest with
      | b :: rest => do
        let c ← atLeast 0x80 ((a.toNat - 0xC0) * 64 + (← tail b))
        (decodeUtf8 rest).map (c :: ·)
      | _ => .error .malformed
    else if a < 0xF0 then
      match rest with
      | b :: c :: rest => do
        let c ← atLeast 0x800 (((a.toNat - 0xE0) * 64 + (← tail b)) * 64 + (← tail c))
        (decodeUtf8 rest).map (c :: ·)
      | _ => .error .malformed
    else
      match rest with
      | b :: c :: d :: rest => do
        let c ← atLeast 0x10000
          ((((a.toNat - 0xF0) * 64 + (← tail b)) * 64 + (← tail c)) * 64 + (← tail d))
        (decodeUtf8 rest).map (c :: ·)
      | _ => .error .malformed

def utf8OfChar (c : Char) : Bytes :=
  let n := c.toNat
  let tail (k : Nat) : UInt8 := UInt8.ofNat (0x80 + k % 64)
  if n < 0x80 then [UInt8.ofNat n]
  else if n < 0x800 then [UInt8.ofNat (0xC0 + n / 64), tail n]
  else if n < 0x10000 then [UInt8.ofNat (0xE0 + n / 4096), tail (n / 64), tail n]
  else [UInt8.ofNat (0xF0 + n / 262144), tail (n / 4096), tail (n / 64), tail n]

def encodeUtf8 (cs : List Char) : Bytes := cs.flatMap utf8OfChar

def units16 (bigEndian : Bool) : Bytes → Except Error (List Nat)
  | [] => .ok []
  | [_] => .error .malformed
  | a :: b :: rest =>
    let unit := if bigEndian then a.toNat * 256 + b.toNat else b.toNat * 256 + a.toNat
    (units16 bigEndian rest).map (unit :: ·)

def isHighSurrogate (u : Nat) : Bool := decide (0xD800 ≤ u ∧ u < 0xDC00)

def isLowSurrogate (u : Nat) : Bool := decide (0xDC00 ≤ u ∧ u < 0xE000)

def joinSurrogates (high low : Nat) : Nat := 0x10000 + (high - 0xD800) * 0x400 + (low - 0xDC00)

def charsOfUnits : List Nat → Except Error (List Char)
  | [] => .ok []
  | [u] => (scalar u).map ([·])
  | u :: v :: rest =>
    if isHighSurrogate u then
      if isLowSurrogate v then do
        let c ← scalar (joinSurrogates u v)
        (charsOfUnits rest).map (c :: ·)
      else .error .surrogate
    else do
      let c ← scalar u
      (charsOfUnits (v :: rest)).map (c :: ·)

def decodeUtf32 (bigEndian : Bool) : Bytes → Except Error (List Char)
  | [] => .ok []
  | a :: b :: c :: d :: rest => do
    let n := if bigEndian then ((a.toNat * 256 + b.toNat) * 256 + c.toNat) * 256 + d.toNat
      else ((d.toNat * 256 + c.toNat) * 256 + b.toNat) * 256 + a.toNat
    let ch ← scalar n
    (decodeUtf32 bigEndian rest).map (ch :: ·)
  | _ => .error .malformed

def decode : Encoding → Bytes → Except Error (List Char)
  | .utf8, bytes => decodeUtf8 bytes
  | .utf16 bigEndian, bytes => (units16 bigEndian bytes).bind charsOfUnits
  | .utf32 bigEndian, bytes => decodeUtf32 bigEndian bytes

end Encoding
end PushDispatch
