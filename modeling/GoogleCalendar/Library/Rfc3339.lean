import GoogleCalendar.Library.CivilTime
import Mathlib.Data.List.TakeWhile

/-!
# Reading RFC 3339 dates and date-times

The reader takes a text apart from the left: numbers of a fixed width with the
marks between them, a fraction of a second of any length, and at the end the
zone, `Z` or a signed offset. A date is accepted when it is the civil date of its
own count of days, so no table of month lengths is needed. The letters are in
upper case and seconds end at 59, as days have 86400 of them here.

A date-time is kept as the civil day and the clock that it writes, with the
offset apart. Its instant takes the offset off, and so can lie on another day.
What `CivilTime` prints is read back.
-/

namespace GoogleCalendar.Library.Rfc3339

open CivilTime

/-- The count of days from the start of 1970 to a civil date. -/
def dayOfCivil (date : Civil) : Int :=
  let year := if date.month ≤ 2 then date.year - 1 else date.year
  let month := if date.month ≤ 2 then date.month + 9 else date.month - 3
  365 * year + year / 4 - year / 100 + year / 400 + (153 * month + 2) / 5 + date.day - 1 - 719468

/-- Counting the days of the date of a day gives that day. -/
theorem day_of_civil (day : Int) : dayOfCivil (civilOfDay day) = day := by
  obtain ⟨counted, first, last⟩ := year_day_exact (day + 719468)
  simp only [civilOfDay]
  generalize yearDay (day + 719468) = march at counted first last
  split_ifs with late
  · have inYear : ¬ (5 * march.day + 2) / 153 + 3 ≤ 2 := by omega
    simp only [dayOfCivil, inYear, if_false]
    omega
  · have nextYear : (5 * march.day + 2) / 153 - 9 ≤ 2 := by omega
    simp only [dayOfCivil, nextYear, if_true]
    omega

/-- The months and the days of a month are counted from one, in two digits. -/
theorem civil_bounds (day : Int) :
    1 ≤ (civilOfDay day).month ∧ (civilOfDay day).month ≤ 12 ∧
      1 ≤ (civilOfDay day).day ∧ (civilOfDay day).day ≤ 31 := by
  obtain ⟨-, first, last⟩ := year_day_exact (day + 719468)
  simp only [civilOfDay]
  split_ifs <;> simp only <;> omega

/-- A number of exactly the given count of digits, and what follows it. -/
def readDigits (width : Nat) (chars : List Char) : Option (Nat × List Char) :=
  if (chars.take width).length = width ∧ (chars.take width).all Char.isDigit then
    some (Nat.ofDigitChars 10 (chars.take width) 0, chars.drop width)
  else none

/-- What follows an expected mark. -/
def readMark (mark : Char) : List Char → Option (List Char)
  | [] => none
  | char :: rest => if char = mark then some rest else none

/-- The day of a full-date `YYYY-MM-DD`. -/
def readDateChars (chars : List Char) : Option Int := do
  let (year, afterYear) ← readDigits 4 chars
  let (month, afterMonth) ← (readMark '-' afterYear).bind (readDigits 2)
  let (day, rest) ← (readMark '-' afterMonth).bind (readDigits 2)
  let count := dayOfCivil ⟨year, month, day⟩
  if rest = [] ∧ civilOfDay count = ⟨year, month, day⟩ then some count else none

/-- A full-date. -/
def readDate (text : String) : Option Int := readDateChars text.toList

/-- The microseconds of a fraction; digits after the sixth are cut. -/
def fractionMicros (digits : List Char) : Nat :=
  Nat.ofDigitChars 10 ((digits ++ List.replicate 6 '0').take 6) 0

/-- A fraction of a second, when there is one. -/
def readFraction : List Char → Option (Nat × List Char)
  | '.' :: rest =>
      if rest.takeWhile Char.isDigit = [] then none
      else some (fractionMicros (rest.takeWhile Char.isDigit), rest.dropWhile Char.isDigit)
  | rest => some (0, rest)

/-- The microseconds of a zone east of UTC. -/
def readZone : List Char → Option Int
  | ['Z'] => some 0
  | sign :: chars => do
      let (hours, afterHours) ← readDigits 2 chars
      let (minutes, rest) ← (readMark ':' afterHours).bind (readDigits 2)
      let micros : Int := (60 * hours + minutes) * 60000000
      if rest = [] ∧ hours ≤ 23 ∧ minutes ≤ 59 then
        if sign = '+' then some micros else if sign = '-' then some (-micros) else none
      else none
  | [] => none

/-- A civil day, the microseconds of its clock and the offset of the clock. -/
structure DateTime where
  day : Int
  clock : Int
  offset : Int
  deriving DecidableEq, Repr

/-- The instant that a reading denotes, in microseconds. -/
def DateTime.instant (reading : DateTime) : Int :=
  reading.day * dayMicros + reading.clock - reading.offset

/-- The clock `HH:MM:SS` with its fraction, and what follows it. -/
def readClock (chars : List Char) : Option (Int × List Char) := do
  let (hours, afterHours) ← readDigits 2 chars
  let (minutes, afterMinutes) ← (readMark ':' afterHours).bind (readDigits 2)
  let (seconds, afterSeconds) ← (readMark ':' afterMinutes).bind (readDigits 2)
  let (micros, rest) ← readFraction afterSeconds
  if hours ≤ 23 ∧ minutes ≤ 59 ∧ seconds ≤ 59 then
    some ((3600 * hours + 60 * minutes + seconds) * 1000000 + micros, rest)
  else none

/-- A date-time: a full-date, the mark `T`, a clock and a zone. -/
def readDateTime (text : String) : Option DateTime := do
  let day ← readDateChars (text.toList.take 10)
  let (clock, rest) ← (readMark 'T' (text.toList.drop 10)).bind readClock
  let offset ← readZone rest
  some ⟨day, clock, offset⟩

/-- Padded digits are as many as the width when the number fits. -/
theorem padded_exact (width number : Nat) (positive : 0 < width) (fits : number < 10 ^ width) :
    (padded width number).toList.length = width := by
  have digits : (Nat.toDigits 10 number).length ≤ width :=
    (Nat.length_toDigits_le_iff (by decide) positive).mpr fits
  simp only [padded, String.toList_ofList, List.length_append, List.length_replicate]
  omega

/-- The digits of a padded number have its value. -/
theorem padded_value (width number : Nat) :
    Nat.ofDigitChars 10 (padded width number).toList 0 = number := by
  simp [padded, Nat.ofDigitChars_append]

/-- A padded number is read back. -/
theorem read_digits_padded (width number : Nat) (rest : List Char) (positive : 0 < width)
    (fits : number < 10 ^ width) :
    readDigits width ((padded width number).toList ++ rest) = some (number, rest) := by
  have length := padded_exact width number positive fits
  have taken : ((padded width number).toList ++ rest).take width = (padded width number).toList :=
    List.take_left' length
  have dropped : ((padded width number).toList ++ rest).drop width = rest :=
    List.drop_left' length
  have digits : (padded width number).toList.all Char.isDigit = true :=
    List.all_eq_true.mpr (padded_digits width number)
  simp [readDigits, taken, dropped, length, digits, padded_value]

/-- A mark is read where it stands. -/
@[simp] theorem read_mark_same (mark : Char) (rest : List Char) :
    readMark mark (mark :: rest) = some rest := by
  simp [readMark]

/-- A printed date of the years 1 to 9999 is ten characters long. -/
theorem date_chars_length (date : Civil) (first : 1 ≤ date.year) (last : date.year ≤ 9999)
    (month : date.month.toNat < 100) (day : date.day.toNat < 100) :
    (dateText date).toList.length = 10 := by
  have notBefore : ¬ date.year ≤ 0 := by omega
  have year := padded_exact 4 date.year.toNat (by decide) (by omega)
  have month := padded_exact 2 date.month.toNat (by decide) month
  have day := padded_exact 2 date.day.toNat (by decide) day
  simp [dateText, notBefore, year, month, day]

/-- A printed date of the years 1 to 9999 is ten characters long. -/
theorem date_text_exact (day : Int) (first : 1 ≤ (civilOfDay day).year)
    (last : (civilOfDay day).year ≤ 9999) : (dateText (civilOfDay day)).toList.length = 10 := by
  obtain ⟨-, month, -, inMonth⟩ := civil_bounds day
  exact date_chars_length (civilOfDay day) first last (by omega) (by omega)

/-- A printed date of the years 1 to 9999 is read back. -/
theorem read_date_text (day : Int) (first : 1 ≤ (civilOfDay day).year)
    (last : (civilOfDay day).year ≤ 9999) :
    readDateChars (dateText (civilOfDay day)).toList = some day := by
  obtain ⟨firstMonth, lastMonth, firstDay, lastDay⟩ := civil_bounds day
  have notBefore : ¬ (civilOfDay day).year ≤ 0 := by omega
  have text : (dateText (civilOfDay day)).toList = (padded 4 (civilOfDay day).year.toNat).toList ++
      '-' :: ((padded 2 (civilOfDay day).month.toNat).toList ++
        '-' :: ((padded 2 (civilOfDay day).day.toNat).toList ++ [])) := by
    simp [dateText, notBefore]
  have same : (⟨((civilOfDay day).year.toNat : Nat), ((civilOfDay day).month.toNat : Nat),
      ((civilOfDay day).day.toNat : Nat)⟩ : Civil) = civilOfDay day := by
    rw [Int.toNat_of_nonneg (by omega), Int.toNat_of_nonneg (by omega),
      Int.toNat_of_nonneg (by omega)]
  rw [text, readDateChars, read_digits_padded 4 _ _ (by decide) (by omega)]
  simp only [Option.bind_eq_bind, Option.bind_some, read_mark_same]
  rw [read_digits_padded 2 _ _ (by decide) (by omega)]
  simp only [Option.bind_some, read_mark_same]
  rw [read_digits_padded 2 _ _ (by decide) (by omega)]
  simp only [Option.bind_some, same, day_of_civil, true_and, if_true]

/-- Digits without their trailing zeros are the digits but for zeros. -/
theorem trailing_zeros (digits : List Char) :
    withoutTrailingZeros digits ++
      List.replicate (digits.length - (withoutTrailingZeros digits).length) '0' = digits := by
  have split := List.takeWhile_append_dropWhile (p := (· = '0')) (l := digits.reverse)
  have zeros : digits.reverse.takeWhile (· = '0') =
      List.replicate (digits.reverse.takeWhile (· = '0')).length '0' := by
    apply List.eq_replicate_of_mem
    intro char member
    simpa using List.mem_takeWhile_imp member
  have whole := congrArg List.reverse split
  rw [List.reverse_append, List.reverse_reverse, zeros, List.reverse_replicate] at whole
  have count := congrArg List.length whole
  simp only [List.length_append, List.length_reverse, List.length_replicate] at count
  have kept : (withoutTrailingZeros digits).length =
      (digits.reverse.dropWhile (· = '0')).length := by simp [withoutTrailingZeros]
  have rest : digits.length - (withoutTrailingZeros digits).length =
      (digits.reverse.takeWhile (· = '0')).length := by omega
  rw [rest]
  exact whole

/-- The fraction that is printed for six digits has their value. -/
theorem fraction_micros (micros : Nat) (fits : micros < 1000000) :
    fractionMicros (withoutTrailingZeros (padded 6 micros).toList) = micros := by
  have length := padded_exact 6 micros (by decide) (by omega)
  have whole := trailing_zeros (padded 6 micros).toList
  have short : (withoutTrailingZeros (padded 6 micros).toList).length ≤ 6 := by
    have count := congrArg List.length whole
    simp only [List.length_append, List.length_replicate, length] at count
    omega
  have taken : (withoutTrailingZeros (padded 6 micros).toList ++ List.replicate 6 '0').take 6 =
      (padded 6 micros).toList := by
    rw [List.take_append, List.take_of_length_le short, List.take_replicate]
    rw [length] at whole
    rwa [Nat.min_eq_left (by omega)]
  rw [fractionMicros, taken, padded_value]

/-- A printed fraction is read back before what is no digit. -/
theorem read_fraction_text (micros : Nat) (fits : micros < 1000000) :
    readFraction ((fractionText micros).toList ++ ['Z']) = some (micros, ['Z']) := by
  by_cases zero : micros = 0
  · subst zero
    rfl
  · have value := fraction_micros micros fits
    have digits : ∀ char ∈ withoutTrailingZeros (padded 6 micros).toList, char.isDigit = true := by
      intro char member
      apply padded_digits 6 micros char
      rw [← trailing_zeros (padded 6 micros).toList]
      exact List.mem_append_left _ member
    have nonempty : withoutTrailingZeros (padded 6 micros).toList ≠ [] := by
      intro empty
      rw [empty] at value
      exact zero value.symm
    have text : (fractionText micros).toList ++ ['Z'] =
        '.' :: (withoutTrailingZeros (padded 6 micros).toList ++ ['Z']) := by
      simp [fractionText, zero]
    have taken : (withoutTrailingZeros (padded 6 micros).toList ++ ['Z']).takeWhile Char.isDigit =
        withoutTrailingZeros (padded 6 micros).toList := by
      rw [List.takeWhile_append_of_pos digits]
      simp
    have dropped : (withoutTrailingZeros (padded 6 micros).toList ++ ['Z']).dropWhile
        Char.isDigit = ['Z'] := by
      rw [List.dropWhile_append_of_pos digits]
      simp
    rw [text, readFraction, taken, dropped, if_neg nonempty, value]

/-- A printed time of day is read back before a zone. -/
theorem read_clock_text (micros : Int) (first : 0 ≤ micros) (last : micros < dayMicros) :
    readClock ((timeText micros).toList ++ ['Z']) = some (micros, ['Z']) := by
  simp only [dayMicros] at last
  have text : (timeText micros).toList ++ ['Z'] =
      (padded 2 (micros / 3600000000).toNat).toList ++
        ':' :: ((padded 2 (micros / 60000000 % 60).toNat).toList ++
          ':' :: ((padded 2 (micros / 1000000 % 60).toNat).toList ++
            ((fractionText (micros % 1000000).toNat).toList ++ ['Z']))) := by
    simp [timeText]
  rw [text, readClock, read_digits_padded 2 _ _ (by decide) (by omega)]
  simp only [Option.bind_eq_bind, Option.bind_some, read_mark_same]
  rw [read_digits_padded 2 _ _ (by decide) (by omega)]
  simp only [Option.bind_some, read_mark_same]
  rw [read_digits_padded 2 _ _ (by decide) (by omega)]
  simp only [Option.bind_some]
  rw [read_fraction_text _ (by omega)]
  have inRange : (micros / 3600000000).toNat ≤ 23 ∧ (micros / 60000000 % 60).toNat ≤ 59 ∧
      (micros / 1000000 % 60).toNat ≤ 59 := by omega
  simp only [Option.bind_some, inRange, and_self, if_true, Option.some.injEq, Prod.mk.injEq,
    and_true]
  omega

/-- The date-time printed for an instant of the years 1 to 9999 is read back as
that instant in UTC. -/
theorem read_rfc3339_text (instant : Int) (bounded : FourDigitYear instant) :
    readDateTime (rfc3339Text instant) =
      some ⟨instant / dayMicros, instant % dayMicros, 0⟩ := by
  obtain ⟨first, last⟩ := four_digit_year instant bounded
  have length := date_text_exact (instant / dayMicros) first last
  have text : (rfc3339Text instant).toList = (dateText (civilOfDay (instant / dayMicros))).toList ++
      'T' :: ((timeText (instant % dayMicros)).toList ++ ['Z']) := by
    simp [rfc3339Text]
  have inDay : 0 ≤ instant % dayMicros ∧ instant % dayMicros < dayMicros := by
    simp only [dayMicros]
    omega
  simp only [readDateTime, text, List.take_left' length, List.drop_left' length,
    read_date_text _ first last, Option.bind_eq_bind, Option.bind_some, read_mark_same,
    read_clock_text _ inDay.1 inDay.2, readZone]

/-- An instant is the one of its day and clock. -/
theorem instant_of_day_clock (instant : Int) :
    (DateTime.mk (instant / dayMicros) (instant % dayMicros) 0).instant = instant := by
  simp only [DateTime.instant, dayMicros]
  omega

/-- Reading digits takes as many characters as the width. -/
theorem read_digits_length (width number : Nat) (chars rest : List Char)
    (read : readDigits width chars = some (number, rest)) : chars.length = width + rest.length := by
  simp only [readDigits] at read
  split at read
  · rename_i held
    obtain ⟨-, rfl⟩ := Prod.mk.inj (Option.some.inj read)
    have enough := held.1
    simp only [List.length_take, List.length_drop] at enough ⊢
    omega
  · simp at read

/-- A mark takes one character. -/
theorem read_mark_length (mark : Char) (chars rest : List Char)
    (read : readMark mark chars = some rest) : chars.length = rest.length + 1 := by
  cases chars with
  | nil => simp [readMark] at read
  | cons char others =>
    simp only [readMark] at read
    split at read
    · obtain rfl := Option.some.inj read
      rfl
    · simp at read

/-- A text that is read as a date has ten characters. -/
theorem read_date_length (chars : List Char) (day : Int) (read : readDateChars chars = some day) :
    chars.length = 10 := by
  simp only [readDateChars, Option.bind_eq_bind, Option.bind_eq_some_iff, Prod.exists] at read
  obtain ⟨year, afterYear, readYear, month, afterMonth, ⟨monthChars, firstMark, readMonth⟩, inMonth,
    rest, ⟨dayChars, secondMark, readDay⟩, checked⟩ := read
  split at checked
  · rename_i whole
    obtain ⟨rfl, -⟩ := whole
    have fourDigits := read_digits_length 4 year chars afterYear readYear
    have firstDash := read_mark_length '-' afterYear monthChars firstMark
    have twoDigits := read_digits_length 2 month monthChars afterMonth readMonth
    have secondDash := read_mark_length '-' afterMonth dayChars secondMark
    have lastDigits := read_digits_length 2 inMonth dayChars [] readDay
    simp only [List.length_nil] at lastDigits
    omega
  · simp at checked

/-- A date-time begins with its date and is longer. -/
theorem read_date_time_date (text : String) (reading : DateTime)
    (read : readDateTime text = some reading) :
    readDateChars (text.toList.take 10) = some reading.day ∧ 10 < text.toList.length := by
  simp only [readDateTime, Option.bind_eq_bind, Option.bind_eq_some_iff, Prod.exists] at read
  obtain ⟨day, date, clock, rest, ⟨afterMark, mark, -⟩, offset, -, same⟩ := read
  obtain rfl := Option.some.inj same
  have longer := read_mark_length 'T' (text.toList.drop 10) afterMark mark
  simp only [List.length_drop] at longer
  exact ⟨date, by omega⟩

/-- Midnight in UTC written behind a date is the midnight of its day. -/
theorem read_midnight (text : String) (day : Int) (read : readDate text = some day) :
    readDateTime (text ++ "T00:00:00Z") = some ⟨day, 0, 0⟩ := by
  have length := read_date_length text.toList day read
  have whole : (text ++ "T00:00:00Z").toList = text.toList ++ "T00:00:00Z".toList := by simp
  have date : readDateChars text.toList = some day := read
  have clock : (readMark 'T' "T00:00:00Z".toList).bind readClock = some (0, ['Z']) := by decide
  simp only [readDateTime, whole, List.take_left' length, List.drop_left' length, date, clock,
    Option.bind_eq_bind, Option.bind_some, readZone]

/-! The printed form of the other years. A year of more than four digits has a digit
where a date has its first dash. The era mark of the years before year one stands
behind the date, where a date-time has its clock, so that the date alone is read,
as one of the common era. -/

/-- Digits that are read are the first of the text. -/
theorem read_digits_parts (width number : Nat) (chars rest : List Char)
    (read : readDigits width chars = some (number, rest)) :
    number = Nat.ofDigitChars 10 (chars.take width) 0 ∧ rest = chars.drop width := by
  simp only [readDigits] at read
  split at read
  · obtain ⟨rfl, rfl⟩ := Prod.mk.inj (Option.some.inj read)
    exact ⟨rfl, rfl⟩
  · simp at read

/-- No digits are read where another character stands. -/
theorem read_digits_other (width : Nat) (char : Char) (rest : List Char)
    (other : char.isDigit = false) : readDigits (width + 1) (char :: rest) = none := by
  simp only [readDigits, List.take_succ_cons, List.all_cons, other, Bool.false_and,
    Bool.false_eq_true, and_false, if_false]

/-- A date has a dash behind four digits, and its year is their value. -/
theorem read_date_year (chars : List Char) (day : Int) (read : readDateChars chars = some day) :
    (chars.drop 4).head? = some '-' ∧
      (civilOfDay day).year = (Nat.ofDigitChars 10 (chars.take 4) 0 : Nat) := by
  simp only [readDateChars, Option.bind_eq_bind, Option.bind_eq_some_iff, Prod.exists] at read
  obtain ⟨year, afterYear, readYear, month, afterMonth, ⟨monthChars, firstMark, -⟩, inMonth,
    rest, -, checked⟩ := read
  obtain ⟨rfl, rfl⟩ := read_digits_parts 4 year chars afterYear readYear
  constructor
  · cases behind : chars.drop 4 with
    | nil => simp [behind, readMark] at firstMark
    | cons char others =>
      rw [behind] at firstMark
      simp only [readMark] at firstMark
      split at firstMark
      · rename_i dash
        rw [dash, List.head?_cons]
      · simp at firstMark
  · split at checked
    · rename_i whole
      obtain rfl := Option.some.inj checked
      rw [whole.2]
    · simp at checked

/-- A digit in the place of the first dash makes a text no date. -/
theorem fifth_digit_unread (chars : List Char) (digit : Char) (decimal : digit.isDigit = true)
    (fifth : (chars.drop 4).head? = some digit) : readDateChars (chars.take 10) = none := by
  rw [Option.eq_none_iff_forall_not_mem]
  intro day read
  have dash := (read_date_year _ day read).1
  rw [List.drop_take, List.head?_take, if_neg (by decide), fifth] at dash
  obtain rfl := Option.some.inj dash
  simp at decimal

/-- A number of five digits or more has a fifth digit. -/
theorem padded_fifth (number : Nat) (wide : 10000 ≤ number) (rest : List Char) :
    ∃ digit, digit.isDigit = true ∧
      (((padded 4 number).toList ++ rest).drop 4).head? = some digit := by
  have long : 4 < (padded 4 number).toList.length := by
    have digits : ¬ (Nat.toDigits 10 number).length ≤ 4 := by
      rw [Nat.length_toDigits_le_iff (by decide) (by decide)]
      omega
    simp only [padded, String.toList_ofList, List.length_append, List.length_replicate]
    omega
  refine ⟨(padded 4 number).toList[4], padded_digits 4 number _ (List.getElem_mem long), ?_⟩
  rw [List.head?_drop, List.getElem?_append_left long, List.getElem?_eq_getElem long]

/-- A date before year one is printed as one of the common era with the mark behind it. -/
theorem era_text (date : Civil) (before : date.year ≤ 0) :
    dateText date = dateText ⟨1 - date.year, date.month, date.day⟩ ++ " (BC)" := by
  have after : ¬ 1 - date.year ≤ 0 := by omega
  simp only [dateText, before, after, if_true, if_false, String.append_empty, String.append_assoc]

/-- The printed instant of a year of the common era with the mark behind its date. -/
theorem era_timestamp (instant : Int) (before : (civilOfDay (instant / dayMicros)).year ≤ 0) :
    timestampText instant =
      dateText ⟨1 - (civilOfDay (instant / dayMicros)).year,
        (civilOfDay (instant / dayMicros)).month, (civilOfDay (instant / dayMicros)).day⟩ ++
      (" (BC) " ++ timeText (instant % dayMicros)) := by
  have mark : " (BC) " = " (BC)" ++ " " := by decide
  rw [timestampText, era_text _ before, mark]
  simp only [String.append_assoc]

/-- In front of an era mark stand ten characters that begin with a year from one on,
when that has four digits. -/
theorem era_date (date : Civil) (before : date.year ≤ 0) (recent : -9999 < date.year)
    (month : date.month.toNat < 100) (day : date.day.toNat < 100) :
    (dateText ⟨1 - date.year, date.month, date.day⟩).toList.length = 10 ∧
      Nat.ofDigitChars 10
        ((dateText ⟨1 - date.year, date.month, date.day⟩).toList.take 4) 0 =
          (1 - date.year).toNat := by
  have after : ¬ 1 - date.year ≤ 0 := by omega
  have four := padded_exact 4 (1 - date.year).toNat (by decide) (by omega)
  constructor
  · exact date_chars_length _ (by simp only; omega) (by simp only; omega) month day
  · simp only [dateText, after, if_false, String.toList_append, List.append_assoc,
      List.take_left' four, padded_value]

/-- A wide year stands in front of a printed instant. -/
theorem wide_start (instant : Int)
    (wide : (civilOfDay (instant / dayMicros)).year ≤ -9999 ∨
      10000 ≤ (civilOfDay (instant / dayMicros)).year) :
    ∃ number rest, 10000 ≤ number ∧ timestampText instant = padded 4 number ++ rest := by
  simp only [timestampText, dateText, String.append_assoc]
  refine ⟨_, _, ?_, rfl⟩
  split_ifs <;> omega

/-- The years outside 1 to 9999 are wide or before year one. -/
theorem other_year_cases (instant : Int) (outside : ¬ FourDigitYear instant) :
    ((civilOfDay (instant / dayMicros)).year ≤ -9999 ∨
        10000 ≤ (civilOfDay (instant / dayMicros)).year) ∨
      ((civilOfDay (instant / dayMicros)).year ≤ 0 ∧
        -9999 < (civilOfDay (instant / dayMicros)).year) := by
  have other := other_year instant outside
  omega

/-- The date at the front of the printed form of another year is no date, or one of
another day. -/
theorem other_date_wrong (instant day : Int) (outside : ¬ FourDigitYear instant)
    (read : readDateChars ((timestampText instant).toList.take 10) = some day) :
    day ≠ instant / dayMicros := by
  rcases other_year_cases instant outside with wide | ⟨before, recent⟩
  · obtain ⟨number, rest, large, text⟩ := wide_start instant wide
    obtain ⟨digit, decimal, fifth⟩ := padded_fifth number large rest.toList
    rw [text, String.toList_append, fifth_digit_unread _ digit decimal fifth] at read
    simp at read
  · obtain ⟨-, lastMonth, -, lastDay⟩ := civil_bounds (instant / dayMicros)
    obtain ⟨length, value⟩ := era_date _ before recent (by omega) (by omega)
    rw [era_timestamp instant before, String.toList_append, List.take_left' length] at read
    have year := (read_date_year _ day read).2
    rintro rfl
    rw [value] at year
    omega

/-- The printed form of another year, with its blanks replaced, is no date-time. -/
theorem other_time_unread (instant : Int) (outside : ¬ FourDigitYear instant) :
    readDateTime (replaceChar ' ' 'T' (timestampText instant) ++ "Z") = none := by
  rcases other_year_cases instant outside with wide | ⟨before, recent⟩
  · obtain ⟨number, rest, large, text⟩ := wide_start instant wide
    have kept := replace_absent ' ' 'T' (padded 4 number) (blank_free_padded 4 number)
    obtain ⟨digit, decimal, fifth⟩ :=
      padded_fifth number large (replaceChar ' ' 'T' rest ++ "Z").toList
    rw [text, replace_append, kept, readDateTime, String.append_assoc, String.toList_append,
      fifth_digit_unread _ digit decimal fifth]
    rfl
  · obtain ⟨-, lastMonth, -, lastDay⟩ := civil_bounds (instant / dayMicros)
    obtain ⟨length, -⟩ := era_date _ before recent (by omega) (by omega)
    have kept := replace_absent ' ' 'T' _ (blank_free_date
      ⟨1 - (civilOfDay (instant / dayMicros)).year, (civilOfDay (instant / dayMicros)).month,
        (civilOfDay (instant / dayMicros)).day⟩ (by simp only; omega))
    have mark : replaceChar ' ' 'T' " (BC) " = "T(BC)T" := by decide
    have chars : "T(BC)T".toList = ['T', '(', 'B', 'C', ')', 'T'] := by decide
    rw [era_timestamp instant before, replace_append, replace_append, kept, mark, readDateTime,
      String.append_assoc, String.toList_append, List.take_left' length, List.drop_left' length]
    simp only [String.toList_append, chars, List.cons_append, read_mark_same, Option.bind_some]
    rw [readClock, read_digits_other 1 '(' _ (by decide)]
    cases readDateChars _ <;> rfl

end GoogleCalendar.Library.Rfc3339
