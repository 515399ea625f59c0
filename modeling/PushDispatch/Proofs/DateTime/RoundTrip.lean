import PushDispatch.Proofs.DateTime.Calendar

/-! The ISO text of a moment is read back as that moment: the same clock, the same microseconds, and
the same offset or none. -/
namespace PushDispatch.DateTime

variable {width n : Nat} {t : DateTime}

theorem isDigit_of_mem_padded {c : Char} (mem : c ∈ padded width n) : c.isDigit := by
  unfold padded at mem
  rcases List.mem_append.1 mem with zero | digit
  · rw [List.eq_of_mem_replicate zero]
    rfl
  · exact Nat.isDigit_of_mem_toDigits (by decide) (by decide) digit

@[simp] theorem ofDigitChars_padded : Nat.ofDigitChars 10 (padded width n) 0 = n := by
  unfold padded
  rw [Nat.ofDigitChars_append, Nat.ofDigitChars_replicate_zero, Nat.mul_zero,
    Nat.ofDigitChars_ten_toDigits]

@[simp] theorem length_padded (positive : 0 < width) (fits : n < 10 ^ width) :
    (padded width n).length = width := by
  have short := (Nat.length_toDigits_le_iff (by decide) positive).2 fits
  unfold padded
  rw [List.length_append, List.length_replicate]
  omega

theorem takeDigits?_padded (width : Nat) (positive : 0 < width) (fits : n < 10 ^ width)
    (rest : List Char) :
    takeDigits? width 0 (padded width n ++ rest) = some (n, rest) :=
  takeDigits?_eq_some_iff.2 ⟨padded width n, length_padded positive fits,
    fun _ => isDigit_of_mem_padded, rfl, ofDigitChars_padded.symm⟩

private theorem takeDigits?_two (small : n < 100) (rest : List Char) :
    takeDigits? 2 0 (padded 2 n ++ rest) = some (n, rest) :=
  takeDigits?_padded 2 (by decide) small rest

private theorem length_le_byteLength (cs : List Char) : cs.length ≤ byteLength cs := by
  induction cs with
  | nil => exact Nat.le_refl 0
  | cons c cs ih =>
    have size := c.utf8Size_pos
    unfold byteLength at ih ⊢
    rw [List.length_cons, List.foldr_cons]
    omega

theorem readDatePart_padded {y m d : Nat} (year : y ≤ 9999) (date : IsDay y m d)
    (rest : List Char) :
    readDatePart (padded 4 y ++ '-' :: (padded 2 m ++ '-' :: (padded 2 d ++ rest)))
      = .ok ((y, m, d), rest) := by
  have monthDays := daysInMonth_le y m
  obtain ⟨⟨january, december⟩, first, last⟩ := date
  have four := takeDigits?_padded 4 (by decide) (show y < 10 ^ 4 by omega)
  have long :
      ¬ byteLength (padded 4 y ++ '-' :: (padded 2 m ++ '-' :: (padded 2 d ++ rest))) < 10 := by
    have enough := length_le_byteLength
      (padded 4 y ++ '-' :: (padded 2 m ++ '-' :: (padded 2 d ++ rest)))
    simp only [List.length_append, List.length_cons] at enough
    rw [length_padded (by decide) (show y < 10 ^ 4 by omega),
      length_padded (by decide) (show m < 10 ^ 2 by omega),
      length_padded (by decide) (show d < 10 ^ 2 by omega)] at enough
    omega
  have monthRange : ¬ (m < 1 ∨ 12 < m) := by omega
  have dayRange : ¬ (d < 1 ∨ daysInMonth y m < d) := by omega
  unfold readDatePart
  simp only [long, if_false, takeNumber, four, takeDigits?_two (show m < 100 by omega),
    takeDigits?_two (show d < 100 by omega), takeHyphen, ok_bind, monthRange, dayRange]
  rfl

def zoneText (offset : Option Int) : List Char := (offset.map offsetText).getD []

private theorem head_zoneText {offset : Option Int} {c : Char} {rest : List Char}
    (h : zoneText offset = c :: rest) : c = '+' ∨ c = '-' := by
  cases offset with
  | none => cases h
  | some minutes =>
    have front : c = if minutes < 0 then '-' else '+' := (List.cons.inj h).1.symm
    rw [front]
    split
    · exact .inr rfl
    · exact .inl rfl

private theorem readSeconds?_whole {second : Nat} (inMinute : second < 60) (offset : Option Int) :
    readSeconds? (':' :: (padded 2 second ++ zoneText offset))
      = some (second, 0, zoneText offset) := by
  unfold readSeconds?
  simp only [takeDigits?_two (show second < 100 by omega), Option.bind_eq_bind, Option.bind_some,
    inMinute, guard_true]
  cases zone : zoneText offset with
  | nil => rfl
  | cons c rest =>
    have plain : ¬ (c = '.' ∨ c = ',') := by
      rcases head_zoneText zone with rfl | rfl <;> decide
    simp [plain]

private theorem span_padded (offset : Option Int) :
    (padded width n ++ zoneText offset).takeWhile Char.isDigit = padded width n ∧
      (padded width n ++ zoneText offset).dropWhile Char.isDigit = zoneText offset := by
  have digits : ∀ c ∈ padded width n, c.isDigit := fun c => isDigit_of_mem_padded
  rw [List.takeWhile_append_of_pos digits, List.dropWhile_append_of_pos digits]
  cases zone : zoneText offset with
  | nil => simp
  | cons c rest =>
    have mark : c.isDigit = false := by
      rcases head_zoneText zone with rfl | rfl <;> decide
    simp [mark]

theorem fractionMicros_padded {micros : Nat} (fits : micros < 1000000) :
    fractionMicros (padded 6 micros) = micros := by
  have six : (padded 6 micros).length = 6 := length_padded (by decide) fits
  have all : (padded 6 micros).take 6 = padded 6 micros := List.take_of_length_le (by omega)
  unfold fractionMicros
  simp only [all, six, ofDigitChars_padded]
  exact Nat.mul_one micros

private theorem readSeconds?_fraction {second micros : Nat} (inMinute : second < 60)
    (fits : micros < 1000000) (offset : Option Int) :
    readSeconds? (':' :: (padded 2 second ++ '.' :: (padded 6 micros ++ zoneText offset)))
      = some (second, micros, zoneText offset) := by
  have some_digit : padded 6 micros ≠ [] := by
    apply List.ne_nil_of_length_pos
    rw [length_padded (by decide) fits]
    decide
  unfold readSeconds?
  simp only [takeDigits?_two (show second < 100 by omega), Option.bind_eq_bind, Option.bind_some,
    inMinute, guard_true, (span_padded offset).1, (span_padded offset).2, some_digit,
    fractionMicros_padded fits, true_or, if_true, ne_eq, not_false_eq_true]
  rfl

private theorem readOffset?_signed {sign : Char} (marked : sign = '+' ∨ sign = '-')
    {hours minutes : Nat}
    (inDay : hours < 24) (inHour : minutes < 60) :
    readOffset? (sign :: (padded 2 hours ++ ':' :: padded 2 minutes))
      = some (some (if isMinus sign then -((hours : Int) * 60 + minutes)
          else (hours : Int) * 60 + minutes)) := by
  have allowed : sign = '+' ∨ isMinus sign := by
    rcases marked with rfl | rfl <;> decide
  have last : takeDigits? 2 0 (padded 2 minutes) = some (minutes, []) := by
    have taken := takeDigits?_two (show minutes < 100 by omega) []
    rwa [List.append_nil] at taken
  unfold readOffset?
  split
  · rename_i empty
    cases empty
  · rename_i zulu
    rw [(List.cons.inj zulu).1] at marked
    exact absurd marked (by decide)
  · rename_i zulu
    rw [(List.cons.inj zulu).1] at marked
    exact absurd marked (by decide)
  · rename_i same
    cases same
    simp only [allowed, guard_true, takeDigits?_two (show hours < 100 by omega), last, inDay,
      inHour, Option.bind_eq_bind, Option.bind_some, and_self]
    rfl

theorem readOffset?_zoneText {offset : Option Int}
    (bound : ∀ minutes, offset = some minutes → minutes.natAbs < 1440) :
    readOffset? (zoneText offset) = some offset := by
  cases offset with
  | none => rfl
  | some minutes =>
    have less := bound minutes rfl
    have signed := @readOffset?_signed (if minutes < 0 then '-' else '+') (by split <;> decide)
      (minutes.natAbs / 60) (minutes.natAbs % 60) (by omega) (by omega)
    have shape : zoneText (some minutes) = (if minutes < 0 then '-' else '+')
        :: (padded 2 (minutes.natAbs / 60) ++ ':' :: padded 2 (minutes.natAbs % 60)) := rfl
    rw [shape, signed]
    congr 2
    by_cases west : minutes < 0
    · rw [if_pos west, if_pos (by decide)]
      omega
    · rw [if_neg west, if_neg (by decide)]
      omega

theorem toList_isoText (t : DateTime) :
    t.isoText.toList = padded 4 t.year ++ '-' :: (padded 2 t.month ++ '-' :: (padded 2 t.day ++
      'T' :: (padded 2 t.hour ++ ':' :: (padded 2 t.minute ++ ':' :: (padded 2 t.second ++
        ((if t.microsecond = 0 then [] else '.' :: padded 6 t.microsecond)
          ++ zoneText t.offset)))))) := by
  unfold isoText clockText zoneText
  simp only [String.toList_ofList, List.append_assoc, List.cons_append]

theorem readSeconds?_text {second micros : Nat} (inMinute : second < 60)
    (fits : micros < 1000000) (offset : Option Int) :
    readSeconds? (':' :: (padded 2 second ++
        ((if micros = 0 then [] else '.' :: padded 6 micros) ++ zoneText offset)))
      = some (second, micros, zoneText offset) := by
  split
  · rename_i whole
    rw [whole]
    exact readSeconds?_whole inMinute offset
  · exact readSeconds?_fraction inMinute fits offset

theorem readFull?_isoText (h : t.OnCalendar) : readFull? t.isoText.toList = some t := by
  have hour := takeDigits?_two (show t.hour < 100 from Nat.lt_trans h.hour (by decide))
  have minute := takeDigits?_two (show t.minute < 100 from Nat.lt_trans h.minute (by decide))
  rw [toList_isoText]
  unfold readFull?
  simp only [readDatePart_padded h.year.2 h.date, Except.toOption, Option.bind_eq_bind,
    Option.bind_some, isDateTimeSeparator, hour, h.hour, guard_true, minute, h.minute,
    readSeconds?_text h.second h.microsecond, readOffset?_zoneText h.offset]
  rfl

theorem read_isoText (h : t.OnCalendar) : read t.isoText = .ok t := by
  have notYear0 : t.year ≠ 0 := Nat.ne_of_gt h.year.1
  unfold read
  simp only [readFull?_isoText h]
  exact if_neg notYear0

end PushDispatch.DateTime
