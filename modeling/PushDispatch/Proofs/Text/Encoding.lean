import PushDispatch.Proofs.Except
import PushDispatch.Text.Encoding
import Mathlib.Tactic.Common

/-! Writing characters as bytes. Each encoding has one way to write a text, and decoding undoes it
for every text. -/
namespace PushDispatch.Encoding

@[simp] theorem scalar_toNat (c : Char) : scalar c.toNat = .ok c := by
  have valid : c.toNat.isValidChar := c.valid
  rw [scalar, dif_pos valid, Except.ok.injEq]
  exact Char.ext (UInt32.toNat_inj.1 (UInt32.toNat_ofNatLT ..))

theorem toNat_cases (c : Char) :
    c.toNat < 0x80 ∨ 0x80 ≤ c.toNat ∧ c.toNat < 0x800 ∨ 0x800 ≤ c.toNat ∧ c.toNat < 0x10000 ∨
      0x10000 ≤ c.toNat ∧ c.toNat < 0x110000 := by
  have valid : c.toNat < 0xD800 ∨ 0xDFFF < c.toNat ∧ c.toNat < 0x110000 := c.valid
  omega

theorem toNat_ofNat {k : Nat} (h : k < 256) : (UInt8.ofNat k).toNat = k := by
  rw [UInt8.toNat_ofNat']
  exact Nat.mod_eq_of_lt h

private theorem tail_ofNat (k : Nat) : tail (UInt8.ofNat (0x80 + k % 64)) = .ok (k % 64) := by
  have value := toNat_ofNat (k := 0x80 + k % 64) (by omega)
  have range : 0x80 ≤ UInt8.ofNat (0x80 + k % 64) ∧ UInt8.ofNat (0x80 + k % 64) < 0xC0 := by
    simp only [UInt8.le_iff_toNat_le, UInt8.lt_iff_toNat_lt, value, UInt8.reduceToNat]
    omega
  rw [tail, if_pos range, value, Nat.add_sub_cancel_left]

private theorem atLeast_toNat {c : Char} {least n : Nat} (same : n = c.toNat) (h : least ≤ n) :
    atLeast least n = .ok c := by
  rw [atLeast, if_pos h, same, scalar_toNat]

theorem decodeUtf8_utf8OfChar (c : Char) (rest : Bytes) :
    decodeUtf8 (utf8OfChar c ++ rest) = (decodeUtf8 rest).map (c :: ·) := by
  rw [utf8OfChar]
  obtain one | ⟨low, two⟩ | ⟨low, three⟩ | ⟨low, four⟩ := toNat_cases c
  · have lead := toNat_ofNat (k := c.toNat) (by omega)
    rw [if_pos one, List.singleton_append, decodeUtf8.eq_def]
    simp only [UInt8.lt_iff_toNat_lt, lead, UInt8.reduceToNat]
    rw [if_pos one, scalar_toNat]
    rfl
  · have lead := toNat_ofNat (k := 0xC0 + c.toNat / 64) (by omega)
    rw [if_neg (by omega), if_pos two, decodeUtf8.eq_def]
    simp only [List.cons_append, List.nil_append, UInt8.lt_iff_toNat_lt, lead, UInt8.reduceToNat,
      tail_ofNat]
    rw [if_neg (by omega), if_neg (by omega), if_pos (by omega)]
    simp only [ok_bind, Nat.add_sub_cancel_left]
    rw [atLeast_toNat (c := c) (by omega) (by omega), ok_bind]
  · have lead := toNat_ofNat (k := 0xE0 + c.toNat / 4096) (by omega)
    rw [if_neg (by omega), if_neg (by omega), if_pos three, decodeUtf8.eq_def]
    simp only [List.cons_append, List.nil_append, UInt8.lt_iff_toNat_lt, lead, UInt8.reduceToNat,
      tail_ofNat]
    rw [if_neg (by omega), if_neg (by omega), if_neg (by omega), if_pos (by omega)]
    simp only [ok_bind, Nat.add_sub_cancel_left]
    rw [atLeast_toNat (c := c) (by omega) (by omega), ok_bind]
  · have lead := toNat_ofNat (k := 0xF0 + c.toNat / 262144) (by omega)
    rw [if_neg (by omega), if_neg (by omega), if_neg (by omega), decodeUtf8.eq_def]
    simp only [List.cons_append, List.nil_append, UInt8.lt_iff_toNat_lt, lead, UInt8.reduceToNat,
      tail_ofNat]
    rw [if_neg (by omega), if_neg (by omega), if_neg (by omega), if_neg (by omega)]
    simp only [ok_bind, Nat.add_sub_cancel_left]
    rw [atLeast_toNat (c := c) (by omega) (by omega), ok_bind]

@[simp] theorem decodeUtf8_encodeUtf8 (cs : List Char) : decodeUtf8 (encodeUtf8 cs) = .ok cs := by
  induction cs with
  | nil => rfl
  | cons c cs ih =>
    rw [encodeUtf8, List.flatMap_cons, decodeUtf8_utf8OfChar, ← encodeUtf8, ih, map_ok]

def highSurrogate (n : Nat) : Nat := 0xD800 + (n - 0x10000) / 0x400

def lowSurrogate (n : Nat) : Nat := 0xDC00 + (n - 0x10000) % 0x400

theorem joinSurrogates_eq {n : Nat} (beyond : 0x10000 ≤ n) :
    joinSurrogates (highSurrogate n) (lowSurrogate n) = n := by
  unfold joinSurrogates highSurrogate lowSurrogate
  rw [Nat.add_sub_cancel_left, Nat.add_sub_cancel_left]
  have whole := Nat.div_add_mod (n - 0x10000) 0x400
  omega

theorem isHighSurrogate_highSurrogate {n : Nat} (range : 0x10000 ≤ n ∧ n < 0x110000) :
    isHighSurrogate (highSurrogate n) := by
  simp [isHighSurrogate, highSurrogate]
  omega

theorem isLowSurrogate_lowSurrogate (n : Nat) : isLowSurrogate (lowSurrogate n) := by
  simp [isLowSurrogate, lowSurrogate]
  omega

@[simp] theorem isHighSurrogate_toNat (c : Char) : isHighSurrogate c.toNat = false := by
  have valid : c.toNat < 0xD800 ∨ 0xDFFF < c.toNat ∧ c.toNat < 0x110000 := c.valid
  simp [isHighSurrogate]
  omega

def unitsOfChar (c : Char) : List Nat :=
  if c.toNat < 0x10000 then [c.toNat] else [highSurrogate c.toNat, lowSurrogate c.toNat]

def utf16OfUnit (bigEndian : Bool) (u : Nat) : Bytes :=
  let bytes := [UInt8.ofNat (u / 256), UInt8.ofNat (u % 256)]
  if bigEndian then bytes else bytes.reverse

private theorem unitsOfChar_lt {c : Char} : ∀ u ∈ unitsOfChar c, u < 0x10000 := by
  intro u hu
  have lengths := toNat_cases c
  rw [unitsOfChar] at hu
  split at hu
  · obtain rfl := List.mem_singleton.1 hu
    assumption
  · simp only [List.mem_cons, List.not_mem_nil, or_false, highSurrogate, lowSurrogate] at hu
    omega

theorem units16_utf16OfUnit (bigEndian : Bool) {u : Nat} (h : u < 0x10000) (rest : Bytes) :
    units16 bigEndian (utf16OfUnit bigEndian u ++ rest) =
      (units16 bigEndian rest).map (u :: ·) := by
  have high := toNat_ofNat (k := u / 256) (by omega)
  have low := toNat_ofNat (k := u % 256) (by omega)
  have whole : u / 256 * 256 + u % 256 = u := by omega
  cases bigEndian <;> simp [utf16OfUnit, units16, high, low, whole]

theorem units16_flatMap (bigEndian : Bool) {us : List Nat} (h : ∀ u ∈ us, u < 0x10000) :
    units16 bigEndian (us.flatMap (utf16OfUnit bigEndian)) = .ok us := by
  induction us with
  | nil => rfl
  | cons u us ih =>
    rw [List.flatMap_cons, units16_utf16OfUnit bigEndian (h u List.mem_cons_self),
      ih fun v hv => h v (List.mem_cons_of_mem u hv), map_ok]

theorem charsOfUnits_unitsOfChar (c : Char) (rest : List Nat) :
    charsOfUnits (unitsOfChar c ++ rest) = (charsOfUnits rest).map (c :: ·) := by
  have lengths := toNat_cases c
  rw [unitsOfChar]
  split
  · cases rest with
    | nil => simp [charsOfUnits]
    | cons v rest => simp [charsOfUnits, isHighSurrogate_toNat]
  · have high := isHighSurrogate_highSurrogate (n := c.toNat) (by omega)
    have low := isLowSurrogate_lowSurrogate c.toNat
    have joined := joinSurrogates_eq (n := c.toNat) (by omega)
    simp [charsOfUnits, high, low, joined]

@[simp] theorem charsOfUnits_flatMap (cs : List Char) :
    charsOfUnits (cs.flatMap unitsOfChar) = .ok cs := by
  induction cs with
  | nil => rfl
  | cons c cs ih => rw [List.flatMap_cons, charsOfUnits_unitsOfChar, ih, map_ok]

def utf32OfChar (bigEndian : Bool) (c : Char) : Bytes :=
  let bytes :=
    [c.toNat / 65536 / 256, c.toNat / 65536 % 256, c.toNat / 256 % 256, c.toNat % 256].map
      UInt8.ofNat
  if bigEndian then bytes else bytes.reverse

theorem decodeUtf32_utf32OfChar (bigEndian : Bool) (c : Char) (rest : Bytes) :
    decodeUtf32 bigEndian (utf32OfChar bigEndian c ++ rest)
      = (decodeUtf32 bigEndian rest).map (c :: ·) := by
  have bound : c.toNat < 0x110000 := by
    have lengths := toNat_cases c
    omega
  have first := toNat_ofNat (k := c.toNat / 65536 / 256) (by omega)
  have second := toNat_ofNat (k := c.toNat / 65536 % 256) (by omega)
  have third := toNat_ofNat (k := c.toNat / 256 % 256) (by omega)
  have fourth := toNat_ofNat (k := c.toNat % 256) (by omega)
  have whole : ((c.toNat / 65536 / 256 * 256 + c.toNat / 65536 % 256) * 256 + c.toNat / 256 % 256)
      * 256 + c.toNat % 256 = c.toNat := by omega
  cases bigEndian <;>
    simp [utf32OfChar, decodeUtf32, first, second, third, fourth, whole]

def encode : Encoding → List Char → Bytes
  | .utf8, cs => encodeUtf8 cs
  | .utf16 bigEndian, cs => (cs.flatMap unitsOfChar).flatMap (utf16OfUnit bigEndian)
  | .utf32 bigEndian, cs => cs.flatMap (utf32OfChar bigEndian)

/-- The byte order mark as a character: written in front of a text, it shows the encoding. -/
def byteOrderMark : Char := '\uFEFF'

/-- Bytes of a text, with a byte order mark or without. -/
inductive Encodes (e : Encoding) (cs : List Char) : Bytes → Prop where
  | bare : Encodes e cs (e.encode cs)
  | marked : Encodes e cs (e.encode (byteOrderMark :: cs))

@[simp] theorem decode_encode (e : Encoding) (cs : List Char) :
    e.decode (e.encode cs) = .ok cs := by
  cases e with
  | utf8 => exact decodeUtf8_encodeUtf8 cs
  | utf16 bigEndian =>
    have units : ∀ u ∈ cs.flatMap unitsOfChar, u < 0x10000 := by
      intro u hu
      obtain ⟨c, -, hu⟩ := List.mem_flatMap.1 hu
      exact unitsOfChar_lt u hu
    rw [decode, encode, units16_flatMap bigEndian units]
    exact charsOfUnits_flatMap cs
  | utf32 bigEndian =>
    rw [decode, encode]
    induction cs with
    | nil => rfl
    | cons c cs ih => rw [List.flatMap_cons, decodeUtf32_utf32OfChar, ih, map_ok]

end PushDispatch.Encoding
