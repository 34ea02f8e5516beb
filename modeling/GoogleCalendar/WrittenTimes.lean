import GoogleCalendar.EventTimes

/-!
# What a written start or end says

The encoders of `start` and `end` work on the printed form of the value: they cut
it after ten characters, or replace its blanks and put a zone behind it. The
printed form has the shape that this needs in the years 1 to 9999 only. A later
year has five digits, an earlier one an era mark behind its date, and the two
infinite values have names, so that what is written for them is no date or
date-time, or the date of another day.
-/

namespace GoogleCalendar.WrittenTimes

open Library CivilTime Rfc3339 EventMapping TimeNodes EventTimes

variable (engine : Engine)

/-- What is read back: midnight in UTC of the day of an all-day value, and else
the value. -/
def expected (micros : Int) (allDay : Bool) : Int :=
  if allDay then micros / dayMicros * dayMicros else micros

/-- The node of a value has a full-date or a date-time, as `all_day` says, and
every event with the node reads back the value. -/
def WrittenExactly (micros : Int) (allDay : Bool) : Prop :=
  ∃ text, rawTime (timeNode engine (.timestampTz micros) allDay) = some text ∧
    (if allDay then readDate text ≠ none else readDateTime text ≠ none) ∧
    ∀ (event : Json) which,
      event.find which = some (timeNode engine (.timestampTz micros) allDay) →
      parseEventTime engine event which = .timestampTz (expected micros allDay)

/-- The text that is written. -/
def writtenText (micros : Int) (allDay : Bool) : String :=
  if allDay then formatDate engine (.timestampTz micros)
  else formatRfc3339 engine (.timestampTz micros)

/-- The node of a time has the text that is written. -/
theorem node_text (micros : Int) (allDay : Bool) :
    rawTime (timeNode engine (.timestampTz micros) allDay) =
      some (writtenText engine micros allDay) := by
  cases allDay <;> rfl

/-- An INSERT and an UPDATE store the node of the value under the name of the column. -/
theorem column_written (members : OrderedMap String Json) (name : String)
    (time : ColumnCells.IsTimeKey name) (micros : Int) (allDay update : Bool) :
    ∃ after, applyColumn engine (.ofMembers members) name (.timestampTz micros) allDay update =
        .ok (after, true) ∧
      after.find name = some (timeNode engine (.timestampTz micros) allDay) := by
  refine ⟨.ofMembers (members.insert name (timeNode engine (.timestampTz micros) allDay)), ?_, ?_⟩
  · rcases time with rfl | rfl <;> rfl
  · rw [Json.find_of_members, OrderedMap.find_insert, if_pos rfl]

/-- A written column of an event is read back as the value that was written. -/
theorem written_column_read (members : OrderedMap String Json) (name : String)
    (time : ColumnCells.IsTimeKey name) (micros : Int) (allDay update : Bool)
    (exact : WrittenExactly engine micros allDay) :
    ∃ after, applyColumn engine (.ofMembers members) name (.timestampTz micros) allDay update =
        .ok (after, true) ∧
      parseEventTime engine after name = .timestampTz (expected micros allDay) := by
  obtain ⟨-, -, -, back⟩ := exact
  obtain ⟨after, applied, found⟩ := column_written engine members name time micros allDay update
  exact ⟨after, applied, back after name found⟩

/-- In the years 1 to 9999 every value is written exactly. -/
theorem year_written (prints : engine.PrintsTimestamps) (casts : engine.CastsTimes)
    (micros : Int) (bounded : FourDigitYear micros) (allDay : Bool) :
    WrittenExactly engine micros allDay := by
  refine ⟨writtenText engine micros allDay, node_text engine micros allDay, ?_, ?_⟩
  · obtain ⟨first, last⟩ := four_digit_year micros bounded
    cases allDay with
    | true =>
      have read : readDate (dateText (civilOfDay (micros / dayMicros))) =
          some (micros / dayMicros) := read_date_text (micros / dayMicros) first last
      simp [writtenText, format_date_year engine prints micros bounded, read]
    | false =>
      simp [writtenText, format_rfc3339_year engine prints micros bounded,
        read_rfc3339_text micros bounded]
  · intro event which found
    exact parse_borne engine casts event which allDay _ _
      ⟨_, found, denotes_time_node engine prints casts micros bounded allDay⟩

/-- The names of the infinite values are no times. -/
theorem names_unread : readDate (datePart "infinity") = none ∧
    readDate (datePart "-infinity") = none ∧
    readDateTime (replaceChar ' ' 'T' "infinity" ++ "Z") = none ∧
    readDateTime (replaceChar ' ' 'T' "-infinity" ++ "Z") = none := by
  decide +kernel

/-- An all-day value of another year is not read back from its date. -/
theorem other_date_unread (prints : engine.PrintsTimestamps) (micros : Int)
    (least : ninfinity ≤ micros) (most : micros ≤ infinity) (outside : ¬ FourDigitYear micros)
    (day : Int) (read : readDate (formatDate engine (.timestampTz micros)) = some day) :
    day ≠ micros / dayMicros := by
  obtain ⟨positive, negative, -, -⟩ := names_unread
  simp only [formatDate, Value.getTimestamp] at read
  rcases eq_or_lt_of_le most with rfl | below
  · rw [prints.infinity, positive] at read
    simp at read
  · rcases eq_or_lt_of_le least with rfl | above
    · rw [prints.ninfinity, negative] at read
      simp at read
    · rw [prints.finite micros above below, datePart, readDate, String.toList_ofList] at read
      exact other_date_wrong micros day outside read

/-- What is written for a value of another year is no date-time. -/
theorem other_date_time_unread (prints : engine.PrintsTimestamps) (micros : Int)
    (least : ninfinity ≤ micros) (most : micros ≤ infinity) (outside : ¬ FourDigitYear micros) :
    readDateTime (formatRfc3339 engine (.timestampTz micros)) = none := by
  obtain ⟨-, -, positive, negative⟩ := names_unread
  simp only [formatRfc3339, Value.getTimestamp]
  rcases eq_or_lt_of_le most with rfl | below
  · rw [prints.infinity, positive]
  · rcases eq_or_lt_of_le least with rfl | above
    · rw [prints.ninfinity, negative]
    · rw [prints.finite micros above below]
      exact other_time_unread micros outside

/-- A value is written exactly just when its year is one of 1 to 9999, in either mode. -/
theorem written_exactly_iff (prints : engine.PrintsTimestamps) (casts : engine.CastsTimes)
    (micros : Int) (least : ninfinity ≤ micros) (most : micros ≤ infinity) (allDay : Bool) :
    WrittenExactly engine micros allDay ↔ FourDigitYear micros := by
  refine ⟨fun ⟨text, written, valid, back⟩ => ?_,
    fun bounded => year_written engine prints casts micros bounded allDay⟩
  by_contra outside
  rw [node_text] at written
  obtain rfl := Option.some.inj written
  cases allDay with
  | false => exact valid (other_date_time_unread engine prints micros least most outside)
  | true =>
    obtain ⟨day, read⟩ := Option.ne_none_iff_exists'.mp valid
    have other := other_date_unread engine prints micros least most outside day read
    -- The reader gets midnight of the day that the text names.
    have denotes : Denotes engine (timeNode engine (.timestampTz micros) true) true day
        (day * dayMicros) :=
      .date _ _ day (encodes_time_node engine _ true) (node_text engine micros true) read
    have midnight := parse_borne engine casts
      (.object [("start", timeNode engine (.timestampTz micros) true)]) "start" true _ _
      ⟨_, rfl, denotes⟩
    rw [back _ "start" rfl] at midnight
    have same := Value.timestampTz.inj midnight
    simp only [expected, if_true, dayMicros] at same other
    omega

/-- A morning is written exactly. -/
theorem morning_written :
    (ninfinity ≤ 1781082000000000 ∧ 1781082000000000 ≤ infinity) ∧
      FourDigitYear 1781082000000000 ∧
      WrittenExactly (.documented []) 1781082000000000 true := by
  have bounded : FourDigitYear 1781082000000000 := by decide
  exact ⟨by decide, bounded, (written_exactly_iff (.documented []) (Engine.documented_prints [])
    (Engine.documented_casts []) 1781082000000000 (by decide) (by decide) true).mpr bounded⟩

/-- The fifteenth of March of the year 44 before the common era is written as the
date of the same day of the year 44. -/
theorem ides_written_late :
    (Engine.documented []).PrintsTimestamps ∧ (Engine.documented []).CastsTimes ∧
      ninfinity ≤ -63517824000000000 ∧ -63517824000000000 ≤ infinity ∧
      timestampText (-63517824000000000) = "0044-03-15 (BC) 00:00:00" ∧
      formatDate (.documented []) (.timestampTz (-63517824000000000)) = "0044-03-15" ∧
      ¬ WrittenExactly (.documented []) (-63517824000000000) true := by
  have late : parseEventTime (.documented [])
      (.object [("start", timeNode (.documented []) (.timestampTz (-63517824000000000)) true)])
      "start" = .timestampTz (-60772291200000000) := by
    decide +kernel
  refine ⟨Engine.documented_prints [], Engine.documented_casts [], by decide, by decide,
    by decide +kernel, by decide +kernel, ?_⟩
  rintro ⟨text, -, -, back⟩
  have read := back (.object [("start",
    timeNode (.documented []) (.timestampTz (-63517824000000000)) true)]) "start" rfl
  rw [late] at read
  exact absurd (Value.timestampTz.inj read) (by decide)

end GoogleCalendar.WrittenTimes
