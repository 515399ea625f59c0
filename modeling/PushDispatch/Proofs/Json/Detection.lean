import PushDispatch.Proofs.Json.Reading

/-! The encoding of an object's text shows in its first bytes, with a byte order mark and without:
the text begins with two characters of ASCII, neither of them zero. -/
namespace PushDispatch.Json

def IsAscii (c : Char) : Prop := 0 < c.toNat ∧ c.toNat < 0x80

instance (c : Char) : Decidable (IsAscii c) := inferInstanceAs (Decidable (_ ∧ _))

theorem isAscii_of_isBlanks {blanks : List Char} (h : IsBlanks blanks) {c : Char}
    (hc : c ∈ blanks) : IsAscii c := by
  have known := h c hc
  simp only [List.mem_cons, List.not_mem_nil, or_false] at known
  obtain rfl | rfl | rfl | rfl := known <;> decide

private theorem head_blanks_ascii {blanks : List Char} (h : IsBlanks blanks) {c : Char}
    (hc : IsAscii c)
    (rest : List Char) : ∃ b more, blanks ++ c :: rest = b :: more ∧ IsAscii b := by
  cases blanks with
  | nil => exact ⟨c, rest, rfl, hc⟩
  | cons b bs => exact ⟨b, _, rfl, isAscii_of_isBlanks h List.mem_cons_self⟩

private theorem brace_ascii {es : Entries} {cs : List Char} (h : Writes (.dict es) cs) :
    ∃ b more, cs = '\x7b' :: b :: more ∧ IsAscii b := by
  cases h with
  | emptyDict hb =>
    obtain ⟨b, more, start, hb⟩ := head_blanks_ascii hb (c := '\x7d') (by decide) []
    exact ⟨b, more, by rw [List.cons_append, start], hb⟩
  | dict hm =>
    obtain ⟨name, key, more, hk, rfl⟩ := head_writesMembers hm
    obtain @⟨_, before, text, after, hb, hv, -⟩ := hk
    cases hv with
    | str hs =>
      obtain @⟨body, _⟩ := hs
      obtain ⟨b, left, start, hb⟩ := head_blanks_ascii hb (c := '"') (by decide)
        (body ++ ['"'] ++ after ++ more ++ ['\x7d'])
      refine ⟨b, left, ?_, hb⟩
      rw [← start]
      simp

private theorem dict_ascii {es : Entries} {cs : List Char} (h : WritesPadded (.dict es) cs) :
    ∃ a b more, cs = a :: b :: more ∧ IsAscii a ∧ IsAscii b := by
  obtain @⟨_, before, text, after, hb, hv, -⟩ := h
  obtain ⟨b, more, rfl, second⟩ := brace_ascii hv
  match before, hb with
  | [], _ => exact ⟨'\x7b', b, _, rfl, by decide, second⟩
  | [a], hb => exact ⟨a, '\x7b', _, rfl, isAscii_of_isBlanks hb (by simp), by decide⟩
  | a :: a' :: _, hb =>
    exact ⟨a, a', _, rfl, isAscii_of_isBlanks hb (by simp), isAscii_of_isBlanks hb (by simp)⟩

def asciiByte (c : Char) : UInt8 := UInt8.ofNat c.toNat

private theorem asciiByte_range {c : Char} (h : IsAscii c) :
    asciiByte c ≠ 0 ∧ asciiByte c < 0x80 := by
  have value : (asciiByte c).toNat = c.toNat := Encoding.toNat_ofNat (by have := h.2; omega)
  rw [Ne, ← UInt8.toNat_inj, UInt8.lt_iff_toNat_lt, value]
  exact ⟨Nat.ne_of_gt h.1, h.2⟩

theorem utf8OfChar_ascii {c : Char} (h : IsAscii c) : Encoding.utf8OfChar c = [asciiByte c] := by
  rw [Encoding.utf8OfChar, if_pos h.2]
  rfl

theorem utf16OfUnit_ascii {c : Char} (h : IsAscii c) (bigEndian : Bool) :
    (Encoding.unitsOfChar c).flatMap (Encoding.utf16OfUnit bigEndian)
      = if bigEndian then [0, asciiByte c] else [asciiByte c, 0] := by
  have small := h.2
  have high : c.toNat / 256 = 0 := by omega
  have low : c.toNat % 256 = c.toNat := by omega
  rw [Encoding.unitsOfChar, if_pos (by omega)]
  cases bigEndian <;> simp [Encoding.utf16OfUnit, high, low, asciiByte]

theorem utf32OfChar_ascii {c : Char} (h : IsAscii c) (bigEndian : Bool) :
    Encoding.utf32OfChar bigEndian c
      = if bigEndian then [0, 0, 0, asciiByte c] else [asciiByte c, 0, 0, 0] := by
  have small := h.2
  have first : c.toNat / 65536 = 0 := by omega
  have third : c.toNat / 256 % 256 = 0 := by omega
  have low : c.toNat % 256 = c.toNat := by omega
  cases bigEndian <;> simp [Encoding.utf32OfChar, first, third, low, asciiByte]

private theorem not_mark {a : UInt8} (h : a < 0x80) : a ≠ 0xFF ∧ a ≠ 0xFE ∧ a ≠ 0xEF := by
  refine ⟨?_, ?_, ?_⟩ <;> (rintro rfl; exact absurd h (by decide))

/-- Only one mark begins with a byte of ASCII. -/
theorem detect_unmarked {a : UInt8} {rest : Bytes} (ha : a < 0x80)
    (unmarked : ¬ [0x00, 0x00, 0xFE, 0xFF] <+: a :: rest) :
    detect (a :: rest) = (detectBare (a :: rest), a :: rest) := by
  obtain ⟨notFF, notFE, notEF⟩ := not_mark ha
  have none : byteOrderMarks.find? (·.1.isPrefixOf (a :: rest)) = none := by
    rw [List.find?_eq_none]
    simp only [byteOrderMarks, List.forall_mem_cons, List.isPrefixOf_iff_prefix]
    refine ⟨unmarked, ?_⟩
    simp [notFF.symm, notFE.symm, notEF.symm]
  rw [detect, none]

theorem detectBare_utf8 {a b : UInt8} (ha : a ≠ 0) (hb : b ≠ 0) (rest : Bytes) :
    detectBare (a :: b :: rest) = .utf8 := by
  match rest with
  | [] => simp [detectBare, ha, hb]
  | [c] => rfl
  | c :: d :: rest => simp [detectBare, ha, hb]

theorem detect_bare {a b : Char} (ha : IsAscii a) (hb : IsAscii b) (e : Encoding)
    (more : List Char) : detect (e.encode (a :: b :: more)) = (e, e.encode (a :: b :: more)) := by
  have first := asciiByte_range ha
  have second := asciiByte_range hb
  cases e with
  | utf8 =>
    simp only [Encoding.encode, Encoding.encodeUtf8, List.flatMap_cons, utf8OfChar_ascii ha,
      utf8OfChar_ascii hb, List.singleton_append]
    rw [detect_unmarked first.2 (by simp [first.1.symm]), detectBare_utf8 first.1 second.1]
  | utf16 bigEndian =>
    simp only [Encoding.encode, List.flatMap_cons, List.flatMap_append, utf16OfUnit_ascii ha,
      utf16OfUnit_ascii hb]
    cases bigEndian
    · exact (detect_unmarked first.2 (by simp [first.1.symm])).trans
        (by simp [detectBare, first.1, second.1])
    · exact (detect_unmarked (by decide) (by simp)).trans (by simp [detectBare, first.1])
  | utf32 bigEndian =>
    simp only [Encoding.encode, List.flatMap_cons, utf32OfChar_ascii ha]
    cases bigEndian
    · exact (detect_unmarked first.2 (by simp [first.1.symm])).trans
        (by simp [detectBare, first.1])
    · exact (detect_unmarked (by decide) (by simp)).trans (by simp [detectBare])

theorem detect_marked {a : Char} (ha : IsAscii a) (e : Encoding) (more : List Char) :
    detect (e.encode (Encoding.byteOrderMark :: a :: more)) = (e, e.encode (a :: more)) := by
  have first := asciiByte_range ha
  cases e with
  | utf8 => rfl
  | utf16 bigEndian =>
    have mark : (Encoding.unitsOfChar Encoding.byteOrderMark).flatMap
        (Encoding.utf16OfUnit bigEndian) = if bigEndian then [0xFE, 0xFF] else [0xFF, 0xFE] := by
      cases bigEndian <;> rfl
    simp only [Encoding.encode, List.flatMap_cons, List.flatMap_append, mark,
      utf16OfUnit_ascii ha]
    cases bigEndian
    · simp [detect, byteOrderMarks, first.1.symm]
    · rfl
  | utf32 bigEndian => cases bigEndian <;> rfl

theorem readBytes_encodes {depth : Nat} {es : Entries} {cs : List Char} {e : Encoding}
    {bytes : Bytes} (written : WritesPadded (.dict es) cs) (plain : (Value.dict es).isPlain)
    (level : (Value.dict es).depth ≤ depth) (encoded : e.Encodes cs bytes) :
    readBytes boundedNumber depth bytes = .ok (.dict es) := by
  obtain ⟨a, b, more, rfl, ha, hb⟩ := dict_ascii written
  have detected : detect bytes = (e, e.encode (a :: b :: more)) := by
    cases encoded with
    | bare => exact detect_bare ha hb e more
    | marked => exact detect_marked ha e (b :: more)
  simp only [readBytes, detected, Encoding.decode_encode, mapError_ok]
  exact readChars_writesPadded written plain level

end PushDispatch.Json
