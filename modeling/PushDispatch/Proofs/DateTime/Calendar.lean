import Mathlib.Data.List.TakeWhile
import Mathlib.Tactic.IntervalCases
import PushDispatch.DateTime.Reader
import PushDispatch.Proofs.Except

/-! Every moment that is read, from text or from a number, is one of the calendar: a day of its
month in the years 1 to 9999, a time of that day, and an offset of less than a day. -/
namespace PushDispatch.DateTime

structure IsDay (y m d : Nat) : Prop where
  month : 1 ≤ m ∧ m ≤ 12
  day : 1 ≤ d ∧ d ≤ daysInMonth y m

theorem daysInMonth_le (y m : Nat) : daysInMonth y m ≤ 31 := by
  unfold daysInMonth
  split
  · split <;> decide
  · split <;> decide

structure OnCalendar (t : DateTime) : Prop where
  year : 1 ≤ t.year ∧ t.year ≤ 9999
  date : IsDay t.year t.month t.day
  hour : t.hour < 24
  minute : t.minute < 60
  second : t.second < 60
  microsecond : t.microsecond < 1000000
  offset : ∀ minutes, t.offset = some minutes → minutes.natAbs < 1440

/-- A day of an era by its century, the cycle of four years in it, the year of the cycle and the day
of that year. A year has a 366th day only at the end of a cycle, and at that of a century only if
the century ends the era. -/
private theorem exists_parts {n : Nat} (h : n < 146097) :
    ∃ c b a r, n = 36524 * c + 1461 * b + 365 * a + r ∧ c < 4 ∧ b < 25 ∧ a < 4 ∧ r ≤ 365 ∧
      (r = 365 → a = 3 ∧ (b < 24 ∨ c = 3)) := by
  let c := min (n / 36524) 3
  let b := (n - 36524 * c) / 1461
  let a := min ((n - 36524 * c - 1461 * b) / 365) 3
  refine ⟨c, b, a, n - 36524 * c - 1461 * b - 365 * a, ?_⟩
  omega

private theorem yearOfEra_eq {n c b a r : Nat} (parts : n = 36524 * c + 1461 * b + 365 * a + r)
    (hc : c < 4)
    (hb : b < 25) (ha : a < 4) (hr : r ≤ 365) (last : r = 365 → a = 3 ∧ (b < 24 ∨ c = 3)) :
    (n - n / 1460 + n / 36524 - n / 146096) / 365 = 100 * c + 4 * b + a := by
  -- the last day of an era is the one day that the division by centuries puts a century too late
  by_cases final : n = 146096
  · have parts' : c = 3 ∧ b = 24 ∧ a = 3 := by omega
    obtain ⟨rfl, rfl, rfl⟩ := parts'
    subst final
    rfl
  · have century : n / 36524 = c := by omega
    have era : n / 146096 = 0 := by omega
    have leaps : n / 1460 = 25 * c + b ∧ r < 365 ∨ n / 1460 = 25 * c + b + 1 ∧ 0 < r := by omega
    rw [century, era]
    omega

def monthOfMarch (march : Nat) : Nat := if march < 10 then march + 3 else march - 9

theorem ofDayNumber_eq {z era c b a r march : Nat}
    (parts : z = 146097 * era + (36524 * c + 1461 * b + 365 * a + r)) (hc : c < 4)
    (hb : b < 25) (ha : a < 4) (hr : r ≤ 365) (last : r = 365 → a = 3 ∧ (b < 24 ∨ c = 3))
    (here : (5 * r + 2) / 153 = march) :
    ofDayNumber z =
      let year := 100 * c + 4 * b + a + era * 400
      (if monthOfMarch march ≤ 2 then year + 1 else year, monthOfMarch march,
        r - (153 * march + 2) / 5 + 1) := by
  have eras : z / 146097 = era := by omega
  have dayOfEra : z % 146097 = 36524 * c + 1461 * b + 365 * a + r := by omega
  have dayOfYear : 36524 * c + 1461 * b + 365 * a + r
      - (365 * (100 * c + 4 * b + a) + (100 * c + 4 * b + a) / 4 - (100 * c + 4 * b + a) / 100)
        = r := by
    have quarters : (100 * c + 4 * b + a) / 4 = 25 * c + b := by omega
    have centuries : (100 * c + 4 * b + a) / 100 = c := by omega
    rw [quarters, centuries]
    omega
  unfold ofDayNumber
  simp only [eras, dayOfEra, yearOfEra_eq rfl hc hb ha hr last, dayOfYear, here]
  rfl

theorem isLeapYear_iff (y : Nat) :
    isLeapYear y ↔ y % 4 = 0 ∧ (y % 100 ≠ 0 ∨ y % 400 = 0) := by
  simp [isLeapYear]

private theorem isDay_of_march {year r march : Nat} (hr : r ≤ 365)
    (last : r = 365 → isLeapYear (year + 1)) (here : (5 * r + 2) / 153 = march) :
    IsDay (if monthOfMarch march ≤ 2 then year + 1 else year) (monthOfMarch march)
      (r - (153 * march + 2) / 5 + 1) := by
  have bound : march < 12 := by omega
  constructor
  · unfold monthOfMarch
    split <;> omega
  · by_cases february : march = 11
    · subst february
      have length : daysInMonth (year + 1) 2 = if isLeapYear (year + 1) then 29 else 28 := rfl
      show 1 ≤ r - 337 + 1 ∧ r - 337 + 1 ≤ daysInMonth (year + 1) 2
      rw [length]
      split
      · omega
      · rename_i common
        have short : r ≠ 365 := fun full => common (last full)
        omega
    · have plain : march < 11 := by omega
      interval_cases march <;> simp [monthOfMarch, daysInMonth] <;> omega

theorem ofDayNumber_onCalendar {z : Nat} (first : 306 ≤ z) (final : z ≤ 3652364) :
    (1 ≤ (ofDayNumber z).1 ∧ (ofDayNumber z).1 ≤ 9999) ∧
      IsDay (ofDayNumber z).1 (ofDayNumber z).2.1 (ofDayNumber z).2.2 := by
  obtain ⟨c, b, a, r, parts, hc, hb, ha, hr, last⟩ := exists_parts (Nat.mod_lt z (by decide))
  have whole : z = 146097 * (z / 146097) + (36524 * c + 1461 * b + 365 * a + r) := by omega
  generalize z / 146097 = era at whole
  rw [ofDayNumber_eq whole hc hb ha hr last rfl]
  constructor
  · have months : monthOfMarch ((5 * r + 2) / 153) ≤ 2 ↔ 306 ≤ r := by
      unfold monthOfMarch
      split <;> omega
    have years : 100 * c + 4 * b + a < 400 := by omega
    simp only [months]
    split <;> omega
  · apply isDay_of_march hr _ rfl
    intro full
    rw [isLeapYear_iff]
    omega

theorem range_of_ofSeconds {seconds : Int} {micros : Nat} {t : DateTime}
    (h : ofSeconds seconds micros = .ok t) :
    firstSecond ≤ seconds + (micros : Int) / 1000000 ∧
      seconds + (micros : Int) / 1000000 ≤ lastSecond := by
  unfold ofSeconds at h
  dsimp only at h
  split at h
  · cases h
  split at h
  · cases h
  split at h
  · cases h
  · omega

theorem onCalendar_of_ofSeconds {seconds : Int} {micros : Nat} {t : DateTime}
    (h : ofSeconds seconds micros = .ok t) : t.OnCalendar := by
  obtain ⟨first, final⟩ := range_of_ofSeconds h
  have afterYear0 : yearZeroSecond ≤ firstSecond := by decide
  unfold ofSeconds at h
  dsimp only at h
  generalize seconds + (micros : Int) / 1000000 = total at first final h
  rw [if_neg (by omega), if_neg (by omega), if_neg (by omega),
    Int.fdiv_eq_ediv_of_nonneg total (Int.natCast_nonneg secondsPerDay)] at h
  unfold firstSecond at first
  unfold lastSecond at final
  have low : 306 ≤ (total / (secondsPerDay : Nat) + (epochDay : Nat)).toNat := by
    unfold secondsPerDay epochDay
    omega
  have high : (total / (secondsPerDay : Nat) + (epochDay : Nat)).toNat ≤ 3652364 := by
    unfold secondsPerDay epochDay
    omega
  have rest : (total - total / (secondsPerDay : Nat) * (secondsPerDay : Nat)).toNat < 86400 := by
    unfold secondsPerDay
    omega
  obtain ⟨year, date⟩ := ofDayNumber_onCalendar low high
  cases h
  constructor
  case year => exact year
  case date => exact date
  case hour =>
    dsimp only
    omega
  case minute => exact Nat.mod_lt _ (by decide)
  case second => exact Nat.mod_lt _ (by decide)
  case microsecond => exact Nat.mod_lt _ (by decide)
  case offset =>
    intro minutes here
    cases here
    decide

theorem onCalendar_of_ofMilliseconds {millis : Int} {micros : Nat} {t : DateTime}
    (h : ofMilliseconds millis micros = .ok t) : t.OnCalendar :=
  onCalendar_of_ofSeconds h

theorem onCalendar_of_ofWhole {n : Int} {t : DateTime} (h : ofWhole n = .ok t) :
    t.OnCalendar := by
  unfold ofWhole at h
  split at h
  · exact onCalendar_of_ofSeconds h
  · exact onCalendar_of_ofMilliseconds h

theorem onCalendar_of_ofUnixInt {n : Int} {t : DateTime} (h : ofUnixInt n = .ok t) :
    t.OnCalendar := by
  unfold ofUnixInt at h
  split at h
  · cases h
  · exact onCalendar_of_ofWhole h

theorem onCalendar_of_ofUnixDouble {x : Double} {t : DateTime} (h : ofUnixDouble x = .ok t) :
    t.OnCalendar := by
  unfold ofUnixDouble at h
  split at h
  · cases h
  · cases h
  · dsimp only at h
    split at h
    · exact onCalendar_of_ofSeconds h
    · exact onCalendar_of_ofMilliseconds h

private theorem digit_lt {c : Char} (digit : c.isDigit) : c.toNat - 48 < 10 := by
  have range := Char.isDigit_iff_toNat.1 digit
  have nine : '9'.toNat = 57 := rfl
  omega

private theorem ofDigitChars_lt {digits : List Char} (all : ∀ c ∈ digits, c.isDigit) (acc : Nat) :
    Nat.ofDigitChars 10 digits acc < (acc + 1) * 10 ^ digits.length := by
  induction digits generalizing acc with
  | nil =>
    rw [Nat.ofDigitChars_nil, List.length_nil, Nat.pow_zero]
    omega
  | cons c digits ih =>
    have value : c.toNat - '0'.toNat < 10 := digit_lt (all c List.mem_cons_self)
    rw [Nat.ofDigitChars_cons, List.length_cons]
    calc Nat.ofDigitChars 10 digits (10 * acc + (c.toNat - '0'.toNat))
        < (10 * acc + (c.toNat - '0'.toNat) + 1) * 10 ^ digits.length :=
          ih (fun c mem => all c (List.mem_cons_of_mem _ mem)) _
      _ ≤ ((acc + 1) * 10) * 10 ^ digits.length := Nat.mul_le_mul_right _ (by omega)
      _ = (acc + 1) * 10 ^ (digits.length + 1) := by rw [Nat.mul_assoc, Nat.pow_succ']

theorem takeDigits?_eq_some_iff {count acc n : Nat} {cs rest : List Char} :
    takeDigits? count acc cs = some (n, rest) ↔ ∃ digits : List Char, digits.length = count ∧
      (∀ c ∈ digits, c.isDigit) ∧ cs = digits ++ rest ∧ n = Nat.ofDigitChars 10 digits acc := by
  induction count generalizing acc cs with
  | zero =>
    unfold takeDigits?
    simp only [Option.some.injEq, Prod.mk.injEq, List.length_eq_zero_iff]
    constructor
    · rintro ⟨rfl, rfl⟩
      exact ⟨[], rfl, nofun, rfl, rfl⟩
    · rintro ⟨digits, rfl, -, rfl, rfl⟩
      exact ⟨rfl, rfl⟩
  | succ count ih =>
    constructor
    · intro taken
      cases cs with
      | nil => cases taken
      | cons c cs =>
        unfold takeDigits? at taken
        split at taken
        · rename_i digit
          obtain ⟨digits, length, all, rfl, rfl⟩ := ih.1 taken
          refine ⟨c :: digits, by rw [List.length_cons, length], ?_, rfl, ?_⟩
          · intro d mem
            cases mem with
            | head => exact digit
            | tail _ mem => exact all d mem
          · rw [Nat.ofDigitChars_cons, Nat.mul_comm]
            rfl
        · cases taken
    · rintro ⟨digits, length, all, rfl, rfl⟩
      cases digits with
      | nil => cases length
      | cons c digits =>
        rw [List.cons_append, takeDigits?, if_pos (all c List.mem_cons_self)]
        rw [Nat.ofDigitChars_cons, Nat.mul_comm acc]
        exact ih.2 ⟨digits, Nat.succ.inj length, fun d mem => all d (List.mem_cons_of_mem _ mem),
          rfl, rfl⟩

private theorem takeDigits?_lt {count n : Nat} {cs rest : List Char}
    (h : takeDigits? count 0 cs = some (n, rest)) : n < 10 ^ count := by
  obtain ⟨digits, rfl, all, -, rfl⟩ := takeDigits?_eq_some_iff.1 h
  have bound := ofDigitChars_lt all 0
  omega

theorem fractionMicros_lt {digits : List Char} (all : ∀ c ∈ digits, c.isDigit) :
    fractionMicros digits < 1000000 := by
  have bound := ofDigitChars_lt (fun c mem => all c (List.mem_of_mem_take mem) :
    ∀ c ∈ digits.take 6, c.isDigit) 0
  have short : (digits.take 6).length ≤ 6 := List.length_take_le 6 digits
  have scale : 0 < Nat.pow 10 (6 - (digits.take 6).length) := Nat.pow_pos (by decide)
  unfold fractionMicros
  calc Nat.ofDigitChars 10 (digits.take 6) 0 * Nat.pow 10 (6 - (digits.take 6).length)
      < (0 + 1) * 10 ^ (digits.take 6).length * Nat.pow 10 (6 - (digits.take 6).length) :=
        Nat.mul_lt_mul_of_pos_right bound scale
    _ = 10 ^ ((digits.take 6).length + (6 - (digits.take 6).length)) := by
        rw [Nat.zero_add, Nat.one_mul, Nat.pow_add]
        rfl
    _ = 1000000 := by
        rw [Nat.add_sub_cancel' short]
        rfl

private theorem bounds_of_readSeconds? {cs rest : List Char} {second micros : Nat}
    (h : readSeconds? cs = some (second, micros, rest)) : second < 60 ∧ micros < 1000000 := by
  unfold readSeconds? at h
  split at h
  · simp only [Option.bind_eq_bind, Option.bind_eq_some_iff, Option.guard_eq_some'] at h
    obtain ⟨⟨value, cs⟩, -, -, inMinute, h⟩ := h
    dsimp only at inMinute h
    split at h
    · split at h
      · simp only [Option.bind_eq_some_iff, Option.guard_eq_some'] at h
        obtain ⟨-, -, h⟩ := h
        cases h
        refine ⟨inMinute, fractionMicros_lt fun c mem => ?_⟩
        exact List.mem_takeWhile_imp mem
      · cases h
        exact ⟨inMinute, by decide⟩
    · cases h
      exact ⟨inMinute, by decide⟩
  · cases h
    decide

private theorem natAbs_of_readOffset? {cs : List Char} {minutes : Int}
    (h : readOffset? cs = some (some minutes)) : minutes.natAbs < 1440 := by
  unfold readOffset? at h
  split at h
  · cases h
  · cases h
    decide
  · cases h
    decide
  · simp only [Option.bind_eq_bind, Option.bind_eq_some_iff, Option.guard_eq_some'] at h
    obtain ⟨-, -, ⟨hours, cs⟩, -, ⟨minutes, cs⟩, -, -, range, h⟩ := h
    dsimp only at range h
    cases h
    split <;> omega

theorem isDay_of_readDatePart {cs rest : List Char} {y m d : Nat}
    (h : readDatePart cs = .ok ((y, m, d), rest)) : y ≤ 9999 ∧ IsDay y m d := by
  unfold readDatePart at h
  dsimp only at h
  split at h
  · cases h
  obtain ⟨⟨year, cs⟩, four, h⟩ := exists_of_bind_eq_ok h
  obtain ⟨cs, -, h⟩ := exists_of_bind_eq_ok h
  obtain ⟨⟨month, cs⟩, -, h⟩ := exists_of_bind_eq_ok h
  obtain ⟨cs, -, h⟩ := exists_of_bind_eq_ok h
  obtain ⟨⟨day, cs⟩, -, h⟩ := exists_of_bind_eq_ok h
  dsimp only at h
  split at h
  · cases h
  split at h
  · cases h
  · rename_i monthRange dayRange
    cases h
    unfold takeNumber at four
    split at four
    · rename_i taken
      cases four
      have bound := takeDigits?_lt taken
      exact ⟨by omega, by omega, by omega⟩
    · cases four

theorem onCalendar_of_readFull? {cs : List Char} {t : DateTime} (h : readFull? cs = some t)
    (notYear0 : t.year ≠ 0) : t.OnCalendar := by
  unfold readFull? at h
  simp only [Option.bind_eq_bind, Option.bind_eq_some_iff] at h
  obtain ⟨⟨⟨year, month, day⟩, cs⟩, date, h⟩ := h
  have part : readDatePart _ = .ok ((year, month, day), cs) := eq_ok_of_toOption date
  obtain ⟨bound, isDay⟩ := isDay_of_readDatePart part
  dsimp only at h
  split at h
  · cases h
  simp only [Option.bind_eq_some_iff, Option.guard_eq_some'] at h
  obtain ⟨-, -, ⟨hour, cs⟩, -, -, inDay, h⟩ := h
  dsimp only at inDay h
  split at h
  · simp only [Option.bind_eq_some_iff, Option.guard_eq_some'] at h
    obtain ⟨⟨minute, cs⟩, -, -, inHour, ⟨second, micros, cs⟩, seconds, offset, ending, h⟩ := h
    cases h
    obtain ⟨inMinute, inSecond⟩ := bounds_of_readSeconds? seconds
    refine ⟨⟨Nat.pos_of_ne_zero notYear0, bound⟩, isDay, inDay, inHour, inMinute, inSecond, ?_⟩
    intro minutes here
    dsimp only at here
    rw [here] at ending
    exact natAbs_of_readOffset? ending
  · cases h

theorem eq_of_checkYear {t t' : DateTime} (h : checkYear t = .ok t') : t = t' ∧ t'.year ≠ 0 := by
  unfold checkYear at h
  split at h
  · cases h
  · rename_i notYear0
    cases h
    exact ⟨rfl, notYear0⟩

theorem onCalendar_of_readBareDate {cs : List Char} {t : DateTime}
    (h : readBareDate cs = .ok t) : t.OnCalendar := by
  unfold readBareDate at h
  split at h
  · cases h
  · cases h
  · rename_i year month day part
    obtain ⟨rfl, notYear0⟩ := eq_of_checkYear h
    obtain ⟨bound, isDay⟩ := isDay_of_readDatePart part
    exact ⟨⟨Nat.pos_of_ne_zero notYear0, bound⟩, isDay, Nat.succ_pos _, Nat.succ_pos _,
      Nat.succ_pos _, Nat.succ_pos _, nofun⟩

theorem onCalendar_of_moment {number : Numeric} {t : DateTime} (h : number.moment = .ok t) :
    t.OnCalendar := by
  cases number with
  | whole n => exact onCalendar_of_ofWhole h
  | fraction x => exact onCalendar_of_ofUnixDouble h

theorem onCalendar_of_numericError {cs : List Char} {number : Numeric} {cause : UnixError}
    {t : DateTime} (h : numericError cs number cause = .ok t) : t.OnCalendar := by
  unfold numericError at h
  split at h
  · cases h
  split at h
  · cases h
  · exact onCalendar_of_readBareDate h

/-- Whatever the spelling, what is read lies on the calendar. -/
theorem onCalendar_of_read {s : String} {t : DateTime} (h : read s = .ok t) : t.OnCalendar := by
  unfold read at h
  dsimp only at h
  split at h
  · rename_i t' full
    obtain ⟨rfl, notYear0⟩ := eq_of_checkYear h
    exact onCalendar_of_readFull? full notYear0
  split at h
  · exact onCalendar_of_readBareDate h
  split at h
  · rename_i moment
    cases h
    exact onCalendar_of_moment moment
  · exact onCalendar_of_numericError h

end PushDispatch.DateTime
