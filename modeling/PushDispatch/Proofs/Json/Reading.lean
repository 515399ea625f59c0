import PushDispatch.Json.Reader
import PushDispatch.Proofs.Json.Grammar
import Mathlib.Data.Option.Basic

/-! Reading a text of a value gives that value: strings character by character, integers digit by
digit, and the rest by the grammar. -/
namespace PushDispatch

namespace Entries

private theorem insert_eq_append {acc : Entries} {name : String} (v : Value)
    (absent : field? acc name = none) : insert acc (.str name) v = acc ++ [(.str name, v)] := by
  induction acc with
  | nil => rfl
  | cons entry rest ih =>
    obtain ⟨k, w⟩ := entry
    rw [field?, lookup?] at absent
    split at absent
    · cases absent
    · next different => rw [insert, if_neg different, ih absent, List.cons_append]

private theorem field?_append_singleton {acc : Entries} {name other : String} (v : Value)
    (different : name ≠ other) (absent : field? acc other = none) :
    field? (acc ++ [(.str name, v)]) other = none := by
  induction acc with
  | nil =>
    rw [List.nil_append, field?_cons, if_neg different]
    rfl
  | cons entry rest ih =>
    obtain ⟨k, w⟩ := entry
    simp only [field?, List.cons_append, lookup?] at absent ih ⊢
    split at absent
    · cases absent
    · next unlike => rw [if_neg unlike, ih absent]

theorem collapse_of_entriesPlain {entries : Entries} (h : Value.entriesPlain entries) :
    collapse entries = entries := by
  have grow : ∀ (more acc : Entries), Value.entriesPlain more →
      (∀ other, hasField more other → field? acc other = none) →
      more.foldl (fun acc e => insert acc e.1 e.2) acc = acc ++ more := by
    intro more
    induction more with
    | nil => exact fun acc _ _ => (List.append_nil acc).symm
    | cons entry rest ih =>
      obtain ⟨k, v⟩ := entry
      intro acc plain apart
      simp only [Value.entriesPlain, Bool.and_eq_true] at plain
      obtain ⟨name, rfl, fresh⟩ := Value.isFreshName_iff.1 plain.1.1
      have added := insert_eq_append v (apart name (by simp [hasField]))
      rw [List.foldl_cons, added, ih _ plain.2, List.append_assoc, List.singleton_append]
      intro other present
      have different : name ≠ other := by
        rintro rfl
        simp [hasField, fresh] at present
      refine field?_append_singleton v different (apart other ?_)
      rwa [hasField, field?_cons, if_neg different]
  exact grow entries [] h fun _ _ => rfl

end Entries

namespace Json

theorem isBlank_of_isBlanks {cs : List Char} (h : IsBlanks cs) {c : Char} (hc : c ∈ cs) :
    isBlank c := by
  have known := h c hc
  simp only [List.mem_cons, List.not_mem_nil, or_false] at known
  obtain rfl | rfl | rfl | rfl := known <;> rfl

theorem skipBlanks_append {blanks : List Char} (h : IsBlanks blanks) (cs : List Char) :
    skipBlanks (blanks ++ cs) = skipBlanks cs :=
  List.dropWhile_append_of_pos fun _ => isBlank_of_isBlanks h

theorem skipBlanks_cons {c : Char} (h : isBlank c = false) (cs : List Char) :
    skipBlanks (c :: cs) = c :: cs :=
  List.dropWhile_cons_of_neg (by simp [h])

theorem hexValue?_of_isHexDigit {n : Nat} {c : Char} (h : IsHexDigit n c) :
    hexValue? c = some n := by
  have table : ∀ n < 16, hexValue? n.digitChar = some n ∧ hexValue? n.digitChar.toUpper = some n :=
    by decide
  obtain ⟨range, rfl | rfl⟩ := h
  · exact (table n range).1
  · exact (table n range).2

theorem hexQuad?_of_isHexDigit {n : Nat} {a b c d : Char} (ha : IsHexDigit (n / 16 / 16 / 16) a)
    (hb : IsHexDigit (n / 16 / 16 % 16) b) (hc : IsHexDigit (n / 16 % 16) c)
    (hd : IsHexDigit (n % 16) d) : hexQuad? a b c d = some n := by
  have whole :
      ((n / 16 / 16 / 16 * 16 + n / 16 / 16 % 16) * 16 + n / 16 % 16) * 16 + n % 16 = n := by
    rw [Nat.div_add_mod', Nat.div_add_mod', Nat.div_add_mod']
  simp [hexQuad?, hexValue?_of_isHexDigit ha, hexValue?_of_isHexDigit hb,
    hexValue?_of_isHexDigit hc, hexValue?_of_isHexDigit hd, whole]

theorem character_toNat (c : Char) : character c.toNat = .ok c := by
  rw [character, Encoding.scalar_toNat, mapError_ok]

private theorem readString_unit {n : Nat} {c : Char} {cs : List Char} (h : WritesUnit n cs)
    (alone : Encoding.isHighSurrogate n = false) (value : character n = .ok c)
    (rest : List Char) :
    readString (cs ++ rest) = (readString rest).map fun p => (c :: p.1, p.2) := by
  obtain ⟨ha, hb, hc, hd⟩ := h
  simp [readString, hexQuad?_of_isHexDigit ha hb hc hd, alone, value]

private theorem readString_pair {high low : Nat} {c : Char} {as bs : List Char}
    (hh : WritesUnit high as)
    (hl : WritesUnit low bs) (isHigh : Encoding.isHighSurrogate high)
    (isLow : Encoding.isLowSurrogate low)
    (value : character (Encoding.joinSurrogates high low) = .ok c) (rest : List Char) :
    readString (as ++ bs ++ rest) = (readString rest).map fun p => (c :: p.1, p.2) := by
  obtain ⟨ha, hb, hc, hd⟩ := hh
  obtain @⟨a, b, c, d, la, lb, lc, ld⟩ := hl
  simp only [List.cons_append, List.nil_append]
  rw [readString.eq_3, hexQuad?_of_isHexDigit ha hb hc hd, orMalformed_some, ok_bind, if_pos isHigh]
  split
  · next second =>
    cases second
    simp [hexQuad?_of_isHexDigit la lb lc ld, isLow, value]
  · next none => exact absurd rfl (none a b c d rest)

theorem readString_writesChar {c : Char} {cs : List Char} (h : WritesChar c cs)
    (rest : List Char) :
    readString (cs ++ rest) = (readString rest).map fun p => (c :: p.1, p.2) := by
  cases h with
  | plain visible unquoted unescaped =>
    rw [List.singleton_append, readString.eq_5 c rest unquoted (by simp [unescaped])
      (by simp [unescaped]), if_neg (by simp [unescaped]; omega)]
  | @short letter known =>
    have table : ∀ p ∈ shortEscapes, p.1 ≠ 'u' ∧ escaped? p.1 = some p.2 := by decide
    obtain ⟨notUnit, value⟩ := table (letter, c) known
    rw [List.cons_append, List.singleton_append, readString.eq_4 letter rest (by simp [notUnit]),
      value, orMalformed_some, ok_bind]
  | unit range h =>
    exact readString_unit h (Encoding.isHighSurrogate_toNat c) (character_toNat c) rest
  | pair range hh hl =>
    have bound : 0x10000 ≤ c.toNat ∧ c.toNat < 0x110000 := by
      have lengths := Encoding.toNat_cases c
      omega
    have value : character (Encoding.joinSurrogates (Encoding.highSurrogate c.toNat)
        (Encoding.lowSurrogate c.toNat)) = .ok c := by
      rw [Encoding.joinSurrogates_eq range, character_toNat]
    exact readString_pair hh hl (Encoding.isHighSurrogate_highSurrogate bound)
      (Encoding.isLowSurrogate_lowSurrogate c.toNat) value rest

theorem readString_writesChars {s cs : List Char} (h : WritesChars s cs) (rest : List Char) :
    readString (cs ++ '"' :: rest) = .ok (s, rest) := by
  induction h with
  | nil => rw [List.nil_append, readString]
  | cons hc _ ih => rw [List.append_assoc, readString_writesChar hc, ih, map_ok]

theorem readString_writesString {s : String} {cs : List Char} (h : WritesString s cs)
    (rest : List Char) :
    ∃ body, cs = '"' :: body ∧ readString (body ++ rest) = .ok (s.toList, rest) := by
  obtain @⟨cs, hs⟩ := h
  refine ⟨cs ++ ['"'], rfl, ?_⟩
  rw [List.append_assoc, List.singleton_append, readString_writesChars hs]

def EndsValue (rest : List Char) : Prop := ∀ c ∈ rest.head?, isBlank c ∨ c ∈ [',', ']', '\x7d']

theorem EndsValue.not_number {rest : List Char} (h : EndsValue rest) :
    ∀ c ∈ rest.head?, c.isDigit = false ∧ c ≠ '.' ∧ c ≠ 'e' ∧ c ≠ 'E' := by
  intro c hc
  have known := h c hc
  simp only [isBlank, Bool.or_eq_true, beq_iff_eq, List.mem_cons, List.not_mem_nil, or_false,
    or_assoc] at known
  obtain rfl | rfl | rfl | rfl | rfl | rfl | rfl := known <;> decide

private theorem head_toDigits {n : Nat} (h : 0 < n) : (Nat.toDigits 10 n).head? ≠ some '0' := by
  induction n using Nat.strongRecOn with
  | ind n ih =>
    by_cases small : n < 10
    · rw [Nat.toDigits_of_lt_base small]
      have table : ∀ n < 10, 0 < n → n.digitChar ≠ '0' := by decide
      simpa using table n small h
    · obtain ⟨c, cs, front⟩ := List.exists_cons_of_ne_nil
        (Nat.toDigits_ne_nil (n := n / 10) (b := 10))
      have first := ih (n / 10) (by omega) (by omega)
      rw [front] at first
      rwa [Nat.toDigits_of_base_le (by decide) (by omega), front]

private theorem span_digits {digits rest : List Char} (hd : ∀ c ∈ digits, c.isDigit)
    (h : EndsValue rest) :
    (digits ++ rest).takeWhile Char.isDigit = digits
      ∧ (digits ++ rest).dropWhile Char.isDigit = rest := by
  rw [List.takeWhile_append_of_pos hd, List.dropWhile_append_of_pos hd]
  cases rest with
  | nil => simp
  | cons c cs => simp [(h.not_number c rfl).1]

theorem takeWhole_toDigits (n : Nat) {rest : List Char} (h : EndsValue rest) :
    takeWhole (Nat.toDigits 10 n ++ rest) = some (Nat.toDigits 10 n, rest) := by
  obtain rfl | positive := Nat.eq_zero_or_pos n
  · rfl
  · have digits : ∀ c ∈ Nat.toDigits 10 n, c.isDigit := fun c =>
      Nat.isDigit_of_mem_toDigits (by decide) (by decide)
    have first := head_toDigits positive
    obtain ⟨c, cs, front⟩ := List.exists_cons_of_ne_nil (Nat.toDigits_ne_nil (n := n) (b := 10))
    rw [front] at digits first ⊢
    obtain ⟨taken, left⟩ := span_digits (fun d hd => digits d (List.mem_cons_of_mem c hd)) h
    rw [List.cons_append, takeWhole.eq_2 c _ (by simpa using first),
      if_pos (digits c List.mem_cons_self), taken, left]

theorem EndsValue.takeFraction_eq {rest : List Char} (h : EndsValue rest) :
    takeFraction rest = ([], rest) := by
  refine takeFraction.eq_2 rest ?_
  rintro more rfl
  exact (h.not_number '.' rfl).2.1 rfl

theorem EndsValue.takeExponent_eq {rest : List Char} (h : EndsValue rest) :
    takeExponent rest = (none, rest) := by
  cases rest with
  | nil => rfl
  | cons c cs =>
    obtain ⟨-, -, small, capital⟩ := h.not_number c rfl
    rw [takeExponent, if_neg (by simp [small, capital])]

def IsShort (n : Nat) : Prop := (Nat.toDigits 10 n).length ≤ Numeral.maxDigits

private theorem isShort_natAbs {n : Int} (h : Numeral.isWritable n) : IsShort n.natAbs := by
  have positive : 0 < Numeral.maxDigits := by decide
  rw [Numeral.isWritable, decide_eq_true_eq, Nat.pow_eq] at h
  rw [IsShort]
  -- the limit stays a name: its power of ten is never computed
  generalize Numeral.maxDigits = limit at *
  exact (Nat.length_toDigits_le_iff (by decide) positive).2 h

theorem boundedNumber_integer {n : Nat} (short : IsShort n) (negative : Bool) (text : List Char) :
    boundedNumber ⟨negative, Nat.toDigits 10 n, [], none, text⟩
      = some (.int (if negative then -n else n)) := by
  rw [IsShort] at short
  simp [boundedNumber, exactNumber, NumberToken.isInteger, NumberToken.toInt, Nat.not_lt.2 short,
    Nat.ofDigitChars_ten_toDigits]

theorem readInteger {n : Nat} (short : IsShort n) (negative : Bool)
    {rest : List Char} (h : EndsValue rest) :
    ((takeNumber negative (Nat.toDigits 10 n ++ rest)).bind fun p =>
        (boundedNumber p.1).bind fun v => some (v, p.2))
      = some (.int (if negative then -n else n), rest) := by
  simp [takeNumber, takeWhole_toDigits n h, h.takeFraction_eq, h.takeExponent_eq,
    boundedNumber_integer short]

private theorem exists_digit_cons_toDigits (n : Nat) :
    ∃ c cs, Nat.toDigits 10 n = c :: cs ∧ c.isDigit := by
  obtain ⟨c, cs, front⟩ := List.exists_cons_of_ne_nil (Nat.toDigits_ne_nil (n := n) (b := 10))
  exact ⟨c, cs, front, Nat.isDigit_of_mem_toDigits (b := 10) (by decide) (by decide)
    (front ▸ List.mem_cons_self)⟩

theorem readValue_digits {n : Nat} (short : IsShort n) (fuel depth : Nat)
    {rest : List Char} (h : EndsValue rest) :
    readValue boundedNumber (fuel + 1) depth (Nat.toDigits 10 n ++ rest) = .ok (.int n, rest) := by
  have read := readInteger short false h
  obtain ⟨c, cs, front, digit⟩ := exists_digit_cons_toDigits n
  rw [front, List.cons_append] at read ⊢
  rw [readValue.eq_10, readNumber.eq_5]
  · exact congrArg orMalformed read
  all_goals
    intro more same
    obtain ⟨rfl, -⟩ := List.cons.inj same
    simp at digit

theorem readValue_minus {n : Nat} (short : IsShort n) (fuel depth : Nat)
    {rest : List Char} (h : EndsValue rest) :
    readValue boundedNumber (fuel + 1) depth ('-' :: (Nat.toDigits 10 n ++ rest))
      = .ok (.int (-n), rest) := by
  have read := readInteger short true h
  obtain ⟨c, cs, front, digit⟩ := exists_digit_cons_toDigits n
  rw [front, List.cons_append] at read ⊢
  rw [readValue.eq_10, readNumber.eq_4]
  · exact congrArg orMalformed read
  · intro more same
    obtain ⟨rfl, -⟩ := List.cons.inj same
    simp at digit
  all_goals simp

theorem readValue_chars {n : Int} (h : Numeral.isWritable n) (fuel depth : Nat) {rest : List Char}
    (ends : EndsValue rest) :
    readValue boundedNumber (fuel + 1) depth (Numeral.chars n ++ rest) = .ok (.int n, rest) := by
  have short := isShort_natAbs h
  rw [Numeral.chars]
  split
  · next negative =>
    rw [List.cons_append, readValue_minus short fuel depth ends,
      Int.ofNat_natAbs_of_nonpos (Int.le_of_lt negative), Int.neg_neg]
  · next positive =>
    rw [readValue_digits short fuel depth ends, Int.natAbs_of_nonneg (Int.not_lt.1 positive)]

theorem head_writes {v : Value} {cs : List Char} (h : Writes v cs) :
    ∃ c rest, cs = c :: rest ∧ isBlank c = false ∧ c ≠ ']' ∧ c ≠ '\x7d' := by
  cases h with
  | null => exact ⟨_, _, rfl, by decide⟩
  | bool b => cases b <;> exact ⟨_, _, rfl, by decide⟩
  | int n =>
    obtain ⟨c, cs, front, digit⟩ := exists_digit_cons_toDigits n.natAbs
    rw [Numeral.chars, front]
    split
    · exact ⟨_, _, rfl, by decide⟩
    · refine ⟨c, cs, rfl, ?_, ?_, ?_⟩
      · by_contra blank
        simp only [isBlank, Bool.or_eq_true, beq_iff_eq, Bool.not_eq_false, or_assoc] at blank
        obtain rfl | rfl | rfl | rfl := blank <;> simp at digit
      · rintro rfl
        simp at digit
      · rintro rfl
        simp at digit
  | negativeZero => exact ⟨_, _, rfl, by decide⟩
  | str h =>
    cases h
    exact ⟨_, _, rfl, by decide⟩
  | emptyList | list | emptyDict | dict => exact ⟨_, _, rfl, by decide⟩

theorem skipBlanks_writesPadded {v : Value} {cs : List Char} (h : WritesPadded v cs) :
    ∃ text after, Writes v text ∧ IsBlanks after ∧ text.length ≤ cs.length ∧
      ∀ rest, skipBlanks (cs ++ rest) = text ++ (after ++ rest) := by
  obtain @⟨_, before, text, after, hb, hv, ha⟩ := h
  refine ⟨text, after, hv, ha, by simp only [List.length_append]; omega, fun rest => ?_⟩
  obtain ⟨c, more, rfl, visible, -⟩ := head_writes hv
  rw [List.append_assoc, List.append_assoc, skipBlanks_append hb, List.cons_append,
    skipBlanks_cons visible]

theorem endsValue_blanks {blanks : List Char} (h : IsBlanks blanks) {c : Char}
    (hc : c ∈ [',', ']', '\x7d']) (rest : List Char) : EndsValue (blanks ++ c :: rest) := by
  cases blanks with
  | nil =>
    rintro d ⟨⟩
    exact .inr hc
  | cons b bs =>
    rintro d ⟨⟩
    exact .inl (isBlank_of_isBlanks h List.mem_cons_self)

theorem skipBlanks_to {blanks : List Char} (h : IsBlanks blanks) {c : Char}
    (hc : isBlank c = false) (rest : List Char) :
    skipBlanks (blanks ++ c :: rest) = c :: rest := by
  rw [skipBlanks_append h, skipBlanks_cons hc]

/-- With this much fuel the three readers read all texts that are shorter, as long as their values
are nested no deeper than is followed. -/
structure ReadsWritten (fuel : Nat) : Prop where
  value : ∀ depth v cs rest, Writes v cs → v.isPlain → v.depth ≤ depth → cs.length < fuel →
    EndsValue rest → readValue boundedNumber fuel depth (cs ++ rest) = .ok (v, rest)
  items : ∀ depth vs cs rest, WritesItems vs cs → Value.arePlain vs →
    Value.depthOfItems vs ≤ depth → cs.length + 1 < fuel →
    readItems boundedNumber fuel depth (skipBlanks (cs ++ ']' :: rest)) = .ok (vs, rest)
  members : ∀ depth es cs rest, WritesMembers es cs → Value.entriesPlain es →
    Value.depthOfEntries es ≤ depth → cs.length + 1 < fuel →
    readMembers boundedNumber fuel depth (skipBlanks (cs ++ '\x7d' :: rest)) = .ok (es, rest)

theorem head_writesPadded {v : Value} {cs : List Char} (h : WritesPadded v cs)
    (rest : List Char) :
    ∃ c more, skipBlanks (cs ++ rest) = c :: more ∧ c ≠ ']' ∧ c ≠ '\x7d' := by
  obtain ⟨text, after, hv, -, -, skip⟩ := skipBlanks_writesPadded h
  obtain ⟨c, more, rfl, -, unending⟩ := head_writes hv
  exact ⟨c, _, skip rest, unending⟩

theorem head_writesItems {vs : List Value} {cs : List Char} (h : WritesItems vs cs) :
    ∃ v first more, WritesPadded v first ∧ cs = first ++ more := by
  cases h with
  | last h => exact ⟨_, _, [], h, (List.append_nil _).symm⟩
  | more h _ => exact ⟨_, _, _, h, rfl⟩

theorem head_writesMembers {es : Entries} {cs : List Char} (h : WritesMembers es cs) :
    ∃ name key more, WritesPadded (.str name) key ∧ cs = key ++ more := by
  cases h with
  | last h _ => exact ⟨_, _, _, h, rfl⟩
  | more h _ _ => exact ⟨_, _, _, h, List.append_assoc ..⟩

theorem readMembers_key {name : String} {key : List Char} (hk : WritesPadded (.str name) key)
    {rule : NumberRule} (fuel depth : Nat) (rest : List Char) :
    readMembers rule (fuel + 1) depth (skipBlanks (key ++ ':' :: rest))
      = (readValue rule fuel depth (skipBlanks rest)) >>= fun p =>
        match skipBlanks p.2 with
        | ',' :: cs =>
          (readMembers rule fuel depth (skipBlanks cs)).map fun q => ((.str name, p.1) :: q.1, q.2)
        | '\x7d' :: cs => .ok ([(.str name, p.1)], cs)
        | _ => .error .malformed := by
  obtain ⟨text, blanks, hn, hb, -, skip⟩ := skipBlanks_writesPadded hk
  cases hn with
  | str hs =>
    obtain ⟨body, rfl, readName⟩ := readString_writesString hs (blanks ++ ':' :: rest)
    rw [skip, List.cons_append, readMembers, readName, ok_bind]
    have left := skipBlanks_to hb (c := ':') (by decide) rest
    simp only [left, String.ofList_toList]
    all_goals rfl

namespace ReadsWritten

variable {fuel depth : Nat} {cs rest : List Char}

theorem value_succ (h : ReadsWritten fuel) {v : Value} (written : Writes v cs) (plain : v.isPlain)
    (level : v.depth ≤ depth) (short : cs.length < fuel + 1) (ends : EndsValue rest) :
    readValue boundedNumber (fuel + 1) depth (cs ++ rest) = .ok (v, rest) := by
  cases written with
  | null => rfl
  | bool b => cases b <;> rfl
  | int n => exact readValue_chars plain fuel depth ends
  | negativeZero => exact readValue_minus (n := 0) (Nat.succ_pos 4299) fuel depth ends
  | @str s cs hs =>
    obtain ⟨body, rfl, read⟩ := readString_writesString hs rest
    rw [List.cons_append, readValue, read, map_ok, String.ofList_toList]
  | emptyList hb =>
    obtain ⟨depth, rfl⟩ := Nat.exists_eq_add_of_le' level
    simp [readValue, Value.depth, Value.depthOfItems, skipBlanks_to hb (c := ']') (by decide)]
  | @list vs cs hi =>
    obtain ⟨depth, rfl⟩ : ∃ d, depth = d + 1 := Nat.exists_eq_succ_of_ne_zero (by
      rintro rfl
      exact Nat.not_succ_le_zero _ level)
    have read := h.items depth vs cs rest hi plain (Nat.le_of_succ_le_succ level)
      (by simp at short; omega)
    -- the first item's text does not begin with the bracket that would end the list
    obtain ⟨v, first, more, hv, rfl⟩ := head_writesItems hi
    obtain ⟨c, left, start, notEnd, -⟩ := head_writesPadded hv (more ++ ']' :: rest)
    rw [List.append_assoc, start] at read
    simp only [List.cons_append, List.append_assoc, List.nil_append, readValue, start]
    split
    · next same => exact absurd (List.cons.inj same).1 notEnd
    · rw [read, map_ok]
  | emptyDict hb =>
    obtain ⟨depth, rfl⟩ := Nat.exists_eq_add_of_le' level
    simp [readValue, Value.depth, Value.depthOfEntries, skipBlanks_to hb (c := '\x7d') (by decide)]
  | @dict es cs hm =>
    obtain ⟨depth, rfl⟩ : ∃ d, depth = d + 1 := Nat.exists_eq_succ_of_ne_zero (by
      rintro rfl
      exact Nat.not_succ_le_zero _ level)
    have read := h.members depth es cs rest hm plain (Nat.le_of_succ_le_succ level)
      (by simp at short; omega)
    obtain ⟨v, first, more, hv, rfl⟩ := head_writesMembers hm
    obtain ⟨c, left, start, -, notEnd⟩ := head_writesPadded hv (more ++ '\x7d' :: rest)
    rw [List.append_assoc, start] at read
    simp only [List.cons_append, List.append_assoc, List.nil_append, readValue, start]
    split
    · next same => exact absurd (List.cons.inj same).1 notEnd
    · rw [read, map_ok, Entries.collapse_of_entriesPlain plain]

theorem padded (h : ReadsWritten fuel) {v : Value} (written : WritesPadded v cs)
    (plain : v.isPlain) (level : v.depth ≤ depth) (short : cs.length < fuel) {c : Char}
    (hc : c ∈ [',', ']', '\x7d']) (rest : List Char) :
    ∃ after, readValue boundedNumber fuel depth (skipBlanks (cs ++ c :: rest)) = .ok (v, after) ∧
      skipBlanks after = c :: rest := by
  obtain ⟨text, after, hv, ha, le, skip⟩ := skipBlanks_writesPadded written
  have visible : isBlank c = false := by
    simp only [List.mem_cons, List.not_mem_nil, or_false] at hc
    obtain rfl | rfl | rfl := hc <;> decide
  refine ⟨after ++ c :: rest, ?_, skipBlanks_to ha visible rest⟩
  rw [skip]
  exact h.value depth v text _ hv plain level (by omega) (endsValue_blanks ha hc rest)

theorem items_succ (h : ReadsWritten fuel) {vs : List Value} (written : WritesItems vs cs)
    (plain : Value.arePlain vs) (level : Value.depthOfItems vs ≤ depth)
    (short : cs.length + 1 < fuel + 1) :
    readItems boundedNumber (fuel + 1) depth (skipBlanks (cs ++ ']' :: rest)) = .ok (vs, rest) := by
  cases written with
  | @last v cs hv =>
    simp only [Value.arePlain, Bool.and_true] at plain
    obtain ⟨first, -⟩ := Nat.max_le.1 level
    obtain ⟨after, read, left⟩ := h.padded hv plain first (by omega) (c := ']') (by decide) rest
    rw [readItems, read, ok_bind]
    simp only [left]
  | @more v vs cs ds hv hi =>
    simp only [Value.arePlain, Bool.and_eq_true] at plain
    simp only [List.length_append, List.length_cons] at short
    obtain ⟨first, later⟩ := Nat.max_le.1 level
    obtain ⟨after, read, left⟩ :=
      h.padded hv plain.1 first (by omega) (c := ',') (by decide) (ds ++ ']' :: rest)
    have others := h.items depth vs ds rest hi plain.2 later (by omega)
    rw [List.append_assoc, List.cons_append, readItems, read, ok_bind]
    simp only [left, others, map_ok]

theorem members_succ (h : ReadsWritten fuel) {es : Entries} (written : WritesMembers es cs)
    (plain : Value.entriesPlain es) (level : Value.depthOfEntries es ≤ depth)
    (short : cs.length + 1 < fuel + 1) :
    readMembers boundedNumber (fuel + 1) depth (skipBlanks (cs ++ '\x7d' :: rest))
      = .ok (es, rest) := by
  cases written with
  | @last name v key cs hk hv =>
    simp only [Value.entriesPlain, Bool.and_true, Bool.and_eq_true] at plain
    simp only [List.length_append, List.length_cons] at short
    obtain ⟨first, -⟩ := Nat.max_le.1 level
    obtain ⟨after, read, left⟩ :=
      h.padded hv plain.2 first (by omega) (c := '\x7d') (by decide) rest
    rw [List.append_assoc, List.cons_append, readMembers_key hk, read, ok_bind]
    simp only [left]
  | @more name v es key cs ds hk hv hm =>
    simp only [Value.entriesPlain, Bool.and_eq_true] at plain
    simp only [List.length_append, List.length_cons] at short
    obtain ⟨first, later⟩ := Nat.max_le.1 level
    obtain ⟨after, read, left⟩ :=
      h.padded hv plain.1.2 first (by omega) (c := ',') (by decide) (ds ++ '\x7d' :: rest)
    have others := h.members depth es ds rest hm plain.2 later (by omega)
    simp only [List.append_assoc, List.cons_append]
    rw [readMembers_key hk, read, ok_bind]
    simp only [left, others, map_ok]

end ReadsWritten

theorem readsWritten (fuel : Nat) : ReadsWritten fuel := by
  induction fuel with
  | zero => constructor <;> simp
  | succ fuel ih =>
    exact ⟨fun _ _ _ _ => ih.value_succ, fun _ _ _ _ => ih.items_succ,
      fun _ _ _ _ => ih.members_succ⟩

/-- A text of a value, blanks around it included, is read as that value. -/
theorem readChars_writesPadded {depth : Nat} {v : Value} {cs : List Char} (h : WritesPadded v cs)
    (plain : v.isPlain) (level : v.depth ≤ depth) : readChars boundedNumber depth cs = .ok v := by
  obtain ⟨text, after, hv, ha, le, skip⟩ := skipBlanks_writesPadded h
  have ends : EndsValue after := fun c hc =>
    .inl (isBlank_of_isBlanks ha (List.mem_of_mem_head? hc))
  have read :=
    (readsWritten (2 * cs.length + 1)).value depth v text after hv plain level (by omega) ends
  have start := skip []
  have left : skipBlanks after = [] := by simpa [skipBlanks] using skipBlanks_append ha []
  rw [List.append_nil, List.append_nil] at start
  simp only [readChars, start, read, ok_bind, left, if_pos]
  rfl

end Json
end PushDispatch
