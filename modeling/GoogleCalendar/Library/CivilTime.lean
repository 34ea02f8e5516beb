import Mathlib.Data.String.Basic
import Mathlib.Tactic.SplitIfs

/-!
# Civil time as text

An instant is a count of microseconds from the start of 1970 in UTC. Its day is
read in the proleptic Gregorian calendar, whose years are reckoned from March so
that the leap day ends a year, a four-year span, a century and a cycle of four
centuries alike. Each span then is a quotient capped by the number of such spans
in the next larger one, and no month table is needed.

Years before year one are printed counting backwards with an era mark, as SQL
engines print them; the fraction of a second loses its trailing zeros and
disappears when it is zero.
-/

namespace GoogleCalendar.Library.CivilTime

/-- Microseconds in a day. -/
def dayMicros : Int := 86400000000

/-- A March-based year and the day in it, both counted from zero. -/
structure YearDay where
  year : Int
  day : Int
  deriving DecidableEq, Repr

/-- A day of the proleptic Gregorian calendar. -/
structure Civil where
  year : Int
  month : Int
  day : Int
  deriving DecidableEq, Repr

/-- Split a count of days from the first of March of year zero. The caps are
reached on the leap day that closes a cycle or a four-year span. -/
def yearDay (count : Int) : YearDay :=
  let cycle := count / 146097
  let inCycle := count % 146097
  let century := min (inCycle / 36524) 3
  let inCentury := inCycle - 36524 * century
  let span := inCentury / 1461
  let inSpan := inCentury % 1461
  let single := min (inSpan / 365) 3
  ⟨400 * cycle + 100 * century + 4 * span + single, inSpan - 365 * single⟩

/-- The civil date of a count of days from the start of 1970. -/
def civilOfDay (day : Int) : Civil :=
  let march := yearDay (day + 719468)
  let month := (5 * march.day + 2) / 153
  let dayOfMonth := march.day - (153 * month + 2) / 5 + 1
  if month < 10 then ⟨march.year, month + 3, dayOfMonth⟩
  else ⟨march.year + 1, month - 9, dayOfMonth⟩

/-- The March year and day count the given days: each year has 365, and the
leap days of the years before are the quarters less the hundreds plus the four
hundreds.

The divisions are undone one span at a time. Each span's index is bounded by
what the larger span can hold, and the bounds make the year's own quotients by
4, 100 and 400 the spans it was built from. -/
theorem year_day_exact (count : Int) :
    365 * (yearDay count).year + (yearDay count).year / 4 - (yearDay count).year / 100 +
        (yearDay count).year / 400 + (yearDay count).day = count ∧
      0 ≤ (yearDay count).day ∧ (yearDay count).day ≤ 365 := by
  simp only [yearDay]
  generalize cycleEq : count / 146097 = cycle
  generalize inCycleEq : count % 146097 = inCycle
  have inCycleBound : 0 ≤ inCycle ∧ inCycle < 146097 := by omega
  have whole : count = 146097 * cycle + inCycle := by omega
  clear cycleEq inCycleEq
  generalize centuryEq : min (inCycle / 36524) 3 = century
  have centuryBound : 0 ≤ century ∧ century ≤ 3 := by omega
  generalize inCenturyEq : inCycle - 36524 * century = inCentury
  have inCenturyBound : 0 ≤ inCentury ∧ inCentury ≤ 36524 := by omega
  generalize spanEq : inCentury / 1461 = span
  generalize inSpanEq : inCentury % 1461 = inSpan
  have spanBound : 0 ≤ span ∧ span ≤ 24 := by omega
  have inSpanBound : 0 ≤ inSpan ∧ inSpan ≤ 1460 := by omega
  have inCenturySplit : inCentury = 1461 * span + inSpan := by omega
  generalize singleEq : min (inSpan / 365) 3 = single
  have singleBound : 0 ≤ single ∧ single ≤ 3 := by omega
  have quarters : (400 * cycle + 100 * century + 4 * span + single) / 4 =
      100 * cycle + 25 * century + span := by omega
  have hundreds : (400 * cycle + 100 * century + 4 * span + single) / 100 =
      4 * cycle + century := by omega
  have cycles : (400 * cycle + 100 * century + 4 * span + single) / 400 = cycle := by omega
  rw [quarters, hundreds, cycles]
  omega

/-- The instants of the years 1 to 9999, whose year is printed with four digits
and without an era mark. -/
def FourDigitYear (instant : Int) : Prop :=
  -62135596800000000 ≤ instant ∧ instant < 253402300800000000

instance (instant : Int) : Decidable (FourDigitYear instant) :=
  inferInstanceAs (Decidable (_ ∧ _))

/-- An instant of a year of four digits has one between 1 and 9999. -/
theorem four_digit_year (instant : Int) (bounded : FourDigitYear instant) :
    1 ≤ (civilOfDay (instant / dayMicros)).year ∧
      (civilOfDay (instant / dayMicros)).year ≤ 9999 := by
  have days : -719162 ≤ instant / dayMicros ∧ instant / dayMicros ≤ 2932896 := by
    simp only [FourDigitYear] at bounded
    simp only [dayMicros]
    omega
  generalize instant / dayMicros = day at days
  obtain ⟨counted, first, last⟩ := year_day_exact (day + 719468)
  simp only [civilOfDay]
  split_ifs <;> simp only <;> omega

/-- Another instant has a year outside of these. -/
theorem other_year (instant : Int) (outside : ¬ FourDigitYear instant) :
    (civilOfDay (instant / dayMicros)).year ≤ 0 ∨
      10000 ≤ (civilOfDay (instant / dayMicros)).year := by
  have days : instant / dayMicros ≤ -719163 ∨ 2932897 ≤ instant / dayMicros := by
    simp only [FourDigitYear] at outside
    simp only [dayMicros]
    omega
  generalize instant / dayMicros = day at days
  obtain ⟨counted, first, last⟩ := year_day_exact (day + 719468)
  simp only [civilOfDay]
  split_ifs <;> simp only <;> omega

/-- Decimal digits with leading zeros up to a width. -/
def padded (width number : Nat) : String :=
  let digits := Nat.toDigits 10 number
  String.ofList (List.replicate (width - digits.length) '0' ++ digits)

/-- A date with its year in at least four digits, and the era mark for the
years before year one. -/
def dateText (date : Civil) : String :=
  let era := if date.year ≤ 0 then " (BC)" else ""
  let year := if date.year ≤ 0 then 1 - date.year else date.year
  padded 4 year.toNat ++ "-" ++ padded 2 date.month.toNat ++ "-" ++ padded 2 date.day.toNat ++ era

/-- Digits of a fraction up to its last one that is not zero. -/
def withoutTrailingZeros (digits : List Char) : List Char :=
  (digits.reverse.dropWhile (· = '0')).reverse

/-- Six digits of a fraction of a second, cut after the last significant one. -/
def fractionText (micros : Nat) : String :=
  if micros = 0 then ""
  else "." ++ String.ofList (withoutTrailingZeros (padded 6 micros).toList)

/-- The time of day of a count of microseconds from midnight. -/
def timeText (micros : Int) : String :=
  padded 2 (micros / 3600000000).toNat ++ ":" ++ padded 2 (micros / 60000000 % 60).toNat ++ ":" ++
    padded 2 (micros / 1000000 % 60).toNat ++ fractionText (micros % 1000000).toNat

/-- An instant with a blank between its date and its time. -/
def timestampText (instant : Int) : String :=
  dateText (civilOfDay (instant / dayMicros)) ++ " " ++ timeText (instant % dayMicros)

/-- An instant as an RFC 3339 date-time in UTC. -/
def rfc3339Text (instant : Int) : String :=
  dateText (civilOfDay (instant / dayMicros)) ++ "T" ++ timeText (instant % dayMicros) ++ "Z"

/-- Every occurrence of a character replaced by another one. -/
def replaceChar (old new : Char) (text : String) : String :=
  String.ofList (text.toList.map (fun char => if char = old then new else char))

/-- A padded number is at least as long as the width. -/
theorem padded_length (width number : Nat) : width ≤ (padded width number).length := by
  simp only [padded, String.length_ofList, List.length_append, List.length_replicate]
  omega

/-- Padded numbers consist of digits. -/
theorem padded_digits (width number : Nat) (char : Char)
    (member : char ∈ (padded width number).toList) : char.isDigit = true := by
  simp only [padded, String.toList_ofList, List.mem_append, List.mem_replicate] at member
  rcases member with ⟨-, rfl⟩ | digit
  · decide
  · exact Nat.isDigit_of_mem_toDigits (by decide) (by decide) digit

/-- A printed date has at least ten characters. -/
theorem date_text_length (date : Civil) : 10 ≤ (dateText date).length := by
  have year := padded_length 4 (if date.year ≤ 0 then 1 - date.year else date.year).toNat
  have month := padded_length 2 date.month.toNat
  have day := padded_length 2 date.day.toNat
  have dash : "-".length = 1 := rfl
  simp only [dateText, String.length_append, dash]
  omega

/-- A printed time has at least eight characters. -/
theorem time_text_length (micros : Int) : 8 ≤ (timeText micros).length := by
  have hours := padded_length 2 (micros / 3600000000).toNat
  have minutes := padded_length 2 (micros / 60000000 % 60).toNat
  have seconds := padded_length 2 (micros / 1000000 % 60).toNat
  have colon : ":".length = 1 := rfl
  simp only [timeText, String.length_append, colon]
  omega

/-- A timestamp is at least nineteen characters long. -/
theorem timestamp_text_length (instant : Int) : 19 ≤ (timestampText instant).length := by
  have date := date_text_length (civilOfDay (instant / dayMicros))
  have time := time_text_length (instant % dayMicros)
  have blank : " ".length = 1 := rfl
  simp only [timestampText, String.length_append, blank]
  omega

/-- Digits are no blanks, so a printed date of the common era and a printed time
contain none. -/
theorem blank_free_padded (width number : Nat) : ' ' ∉ (padded width number).toList := by
  intro member
  exact absurd (padded_digits width number ' ' member) (by decide)

/-- A date of the common era has no blank. -/
theorem blank_free_date (date : Civil) (commonEra : 1 ≤ date.year) :
    ' ' ∉ (dateText date).toList := by
  have notBefore : ¬ date.year ≤ 0 := by omega
  simp [dateText, notBefore, String.toList_append, blank_free_padded]

/-- A time has no blank. -/
theorem blank_free_time (micros : Int) : ' ' ∉ (timeText micros).toList := by
  have fraction : ' ' ∉ (fractionText (micros % 1000000).toNat).toList := by
    simp only [fractionText]
    split
    · simp
    · simp only [String.toList_append, String.toList_ofList, List.mem_append, not_or]
      refine ⟨by decide, ?_⟩
      intro member
      simp only [withoutTrailingZeros, List.mem_reverse] at member
      have kept := (List.dropWhile_sublist _).mem member
      exact blank_free_padded _ _ (List.mem_reverse.mp kept)
  simp [timeText, String.toList_append, blank_free_padded, fraction]

/-- A digit is an ASCII character. -/
theorem digit_ascii (char : Char) (digit : char.isDigit = true) : char.toNat < 128 := by
  simp only [Char.isDigit, Bool.and_eq_true, decide_eq_true_eq, UInt32.le_iff_toNat_le] at digit
  exact Nat.lt_of_le_of_lt digit.2 (by decide)

/-- A text of ASCII, as it is checked character by character. -/
theorem ascii_text (text : String)
    (checked : text.toList.all (fun char => decide (char.toNat < 128)) = true) :
    ∀ char ∈ text.toList, char.toNat < 128 :=
  fun char member => of_decide_eq_true (List.all_eq_true.mp checked char member)

/-- A padded number is written in ASCII. -/
theorem padded_ascii (width number : Nat) :
    ∀ char ∈ (padded width number).toList, char.toNat < 128 :=
  fun char member => digit_ascii char (padded_digits width number char member)

/-- A date is written in ASCII. -/
theorem date_text_ascii (date : Civil) : ∀ char ∈ (dateText date).toList, char.toNat < 128 := by
  intro char member
  simp only [dateText, String.toList_append, List.mem_append] at member
  rcases member with ((((year | dash) | month) | dash) | day) | era
  · exact padded_ascii _ _ char year
  · exact ascii_text "-" (by decide) char dash
  · exact padded_ascii _ _ char month
  · exact ascii_text "-" (by decide) char dash
  · exact padded_ascii _ _ char day
  · split at era
    · exact ascii_text " (BC)" (by decide) char era
    · exact absurd era (by simp)

/-- So is a fraction. -/
theorem fraction_text_ascii (micros : Nat) :
    ∀ char ∈ (fractionText micros).toList, char.toNat < 128 := by
  intro char member
  simp only [fractionText] at member
  split at member
  · exact absurd member (by simp)
  · simp only [String.toList_append, String.toList_ofList, List.mem_append] at member
    rcases member with point | digits
    · exact ascii_text "." (by decide) char point
    · simp only [withoutTrailingZeros, List.mem_reverse] at digits
      have kept := (List.dropWhile_sublist _).mem digits
      exact padded_ascii _ _ char (List.mem_reverse.mp kept)

/-- So is a time. -/
theorem time_text_ascii (micros : Int) : ∀ char ∈ (timeText micros).toList, char.toNat < 128 := by
  intro char member
  simp only [timeText, String.toList_append, List.mem_append] at member
  rcases member with ((((hour | colon) | minute) | colon) | second) | fraction
  · exact padded_ascii _ _ char hour
  · exact ascii_text ":" (by decide) char colon
  · exact padded_ascii _ _ char minute
  · exact ascii_text ":" (by decide) char colon
  · exact padded_ascii _ _ char second
  · exact fraction_text_ascii _ char fraction

/-- So is a timestamp. -/
theorem timestamp_text_ascii (instant : Int) :
    ∀ char ∈ (timestampText instant).toList, char.toNat < 128 := by
  intro char member
  simp only [timestampText, String.toList_append, List.mem_append] at member
  rcases member with (date | blank) | time
  · exact date_text_ascii _ char date
  · exact ascii_text " " (by decide) char blank
  · exact time_text_ascii _ char time

/-- Replacing a character that a text does not contain changes nothing. -/
theorem replace_absent (old new : Char) (text : String) (absent : old ∉ text.toList) :
    replaceChar old new text = text := by
  have unchanged : text.toList.map (fun char => if char = old then new else char) =
      text.toList.map id := by
    apply List.map_congr_left
    intro char member
    have distinct : char ≠ old := fun same => absent (same ▸ member)
    simp [distinct]
  rw [replaceChar, unchanged, List.map_id, String.ofList_toList]

/-- Characters are replaced in each part of a text. -/
theorem replace_append (old new : Char) (left right : String) :
    replaceChar old new (left ++ right) = replaceChar old new left ++
      replaceChar old new right := by
  simp [replaceChar, String.toList_append, String.ofList_append]

/-- Replacing blanks turns the printed instant of a four-digit year into its
RFC 3339 date-time up to the zone mark: the only blank is the separator. -/
theorem rfc3339_of_timestamp (instant : Int) (bounded : FourDigitYear instant) :
    replaceChar ' ' 'T' (timestampText instant) ++ "Z" = rfc3339Text instant := by
  have commonEra := (four_digit_year instant bounded).1
  have separator : replaceChar ' ' 'T' " " = "T" := by decide
  simp only [timestampText, rfc3339Text, replace_append, separator,
    replace_absent ' ' 'T' _ (blank_free_date _ commonEra),
    replace_absent ' ' 'T' _ (blank_free_time _)]

end GoogleCalendar.Library.CivilTime
